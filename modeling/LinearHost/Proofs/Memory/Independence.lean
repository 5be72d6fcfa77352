import LinearHost.Proofs.Memory.Growth
import LinearHost.Proofs.Memory.Sides

/-!
# The two sides of a memory are independent

An operation on one region leaves the other one alone, because the regions divide the image. So what a
run shows of one side does not depend on the operations on the other, nor on accesses to bytes, and
operations on different sides can be swapped.

## Main definitions

* `Memory.observed`: what a run shows of one side.
* `Memory.WellFormed.kept_next`: an operation leaves the other side alone.
* `Memory.WellFormed.swap`: operations on different sides can be swapped.
* `Memory.sides_independent`: each side goes its own way.
-/

namespace LinearHost.Memory

variable {kind : RegionKind} {seen : Nat → Prop} {m n after room : Memory} {op : Operation}
  {policy : Policy} {size alignment : Nat}

/-! ### What other operations leave alone -/

theorem WellFormed.sameSide (sound : m.WellFormed) (kind : RegionKind) (seen : Nat → Prop) :
    SameSide kind seen m m where
  region := rfl
  frames _ := rfl
  size _ := rfl
  grower _ := rfl
  quantum := rfl
  checks := rfl
  cap := rfl
  cells _ _ := rfl
  top_le_limit _ := (sound.ordered .stack).top_le_limit
  limit_le_size := sound.limit_le_size kind
  limit_le_size' := sound.limit_le_size kind

/-- Bytes may change where they are not seen. -/
theorem WellFormed.sameSide_withImage (sound : m.WellFormed) {image : Image}
    (size : image.size = m.size)
    (cells : ∀ address, seen address → image.cell? address = m.image.cell? address) :
    SameSide kind seen m { m with image } :=
  { sound.sameSide kind seen with
    region := region_withImage ..
    size := fun _ => size
    cells
    limit_le_size' := Nat.le_trans (sound.limit_le_size kind) (Nat.le_of_eq size.symm) }

/-- A block of the stack, or a smaller stack, leaves the static side alone. -/
theorem WellFormed.statics_kept (sound : m.WellFormed) (stack : Region) (frames : List Nat)
    {image : Image} (size : image.size = m.size)
    (cells : ∀ address, m.stack.limit ≤ address → image.cell? address = m.image.cell? address) :
    SameSide .static (OnSide m.statics.base .static) m { m with stack, frames, image } := by
  have kept : SameSide .static (OnSide m.statics.base .static) m { m with image } :=
    sound.sameSide_withImage size fun a beyond => cells a (Nat.le_trans sound.separate beyond)
  exact { kept with frames := nofun, top_le_limit := nofun }

theorem StackAllocated.statics_kept (sound : m.WellFormed) {result : Except Fault Nat}
    (allocated : StackAllocated m size result after) :
    SameSide .static (OnSide m.statics.base .static) m after := by
  cases allocated with
  | taken fit inside free =>
    have le_limit := (Region.topAfter?_eq_some.mp fit).2
    refine sound.statics_kept _ _ (Image.size_update ..) fun a beyond => ?_
    exact cell?_claim m .stack (.inr (Nat.le_trans le_limit beyond))
  | rejected fit inside asserted =>
    refine sound.statics_kept _ _ (Image.size_update ..) fun a beyond => ?_
    exact cell?_claim m .stack (.inr beyond)
  | escaped fit outside => exact sound.statics_kept _ _ rfl fun _ _ => rfl
  | exhausted full => exact sound.sameSide _ _

theorem Allocated.statics_kept (sound : m.WellFormed) (stack : policy.region = .stack)
    (fixed : policy.growable = false) {result : Except Fault Nat}
    (allocated : Allocated m policy size alignment result after) :
    SameSide .static (OnSide m.statics.base .static) m after := by
  obtain ⟨region, zeroFill, growable⟩ := policy
  cases stack
  cases allocated with
  | taken reserved inside =>
    have le_limit := reserved.top_mem.2
    obtain rfl := reserved.room_eq fixed
    refine sound.statics_kept _ _ (Image.size_update ..) fun a beyond => ?_
    exact cell?_claim _ ⟨.stack, zeroFill, growable⟩ (.inr (Nat.le_trans le_limit beyond))
  | escaped reserved outside =>
    obtain rfl := reserved.room_eq fixed
    exact sound.statics_kept _ _ rfl fun _ _ => rfl
  | failed reserved =>
    obtain rfl := reserved.room_eq fixed
    exact sound.sameSide _ _

theorem Opened.statics_kept (sound : m.WellFormed) {initial : Nat} {forced : Bool}
    {result : Except Fault Frame} (opened : Opened m initial forced result after) :
    SameSide .static (OnSide m.statics.base .static) m after := by
  cases opened with
  | skipped skip => exact sound.sameSide _ _
  | unaligned kept asserted unaligned => exact sound.sameSide _ _
  | empty kept aligned zero => exact sound.statics_kept _ _ rfl fun _ _ => rfl
  | filled kept aligned positive block =>
    exact { block.statics_kept sound with frames := nofun, top_le_limit := nofun }
  | failed kept aligned positive block => exact block.statics_kept sound

theorem Closed.statics_kept (sound : m.WellFormed) {frame : Frame} {result : Except Fault Unit}
    (closed : Closed m frame result after) :
    SameSide .static (OnSide m.statics.base .static) m after := by
  have top_le_limit : m.stack.top ≤ m.stack.limit := (sound.ordered .stack).top_le_limit
  cases closed with
  | elided => exact sound.sameSide _ _
  | unordered other => exact sound.sameSide _ _
  | closed innermost inside =>
    refine sound.statics_kept _ _ (size_released ..) fun a beyond => ?_
    unfold released
    split
    · rw [Image.cell?_update, if_neg (by omega)]
    · rfl
  | escaped innermost checked lower outside => exact sound.statics_kept _ _ rfl fun _ _ => rfl

/-- Growth of the static region leaves the stack alone. -/
theorem Reserved.stack_kept (sound : m.WellFormed) (static : policy.region = .static)
    {result : Except Fault Nat} (reserved : Reserved m policy size alignment result room) :
    SameSide .stack (OnSide m.statics.base .stack) m room := by
  have idle : m.IdleGrowth policy size alignment := fun stack => by
    rw [static] at stack
    cases stack
  obtain ⟨size_le, cells⟩ := reserved.image_kept sound idle
  have limit_le_size := sound.limit_le_size .stack
  have statics : m.statics.Ordered := sound.ordered .static
  have base_le_size : m.statics.base ≤ m.size := by
    have := sound.statics_limit
    have := statics.base_le_top
    have := statics.top_le_limit
    omega
  exact
    { region := reserved.region_of_ne (by rw [static]; exact nofun)
      frames := fun _ => reserved.frames_eq, size := nofun, grower := nofun
      quantum := congrArg Settings.quantum reserved.settings_eq
      checks := reserved.checks_eq
      cap := congrArg Settings.cap reserved.settings_eq
      cells := fun a below => cells a (Nat.lt_of_lt_of_le below base_le_size)
      top_le_limit := fun _ => (sound.ordered .stack).top_le_limit
      limit_le_size := limit_le_size
      limit_le_size' := Nat.le_trans limit_le_size size_le }

/-- A static block leaves the stack alone. -/
theorem claim_stack_kept (sound : m.WellFormed) (static : policy.region = .static) (top : Nat) :
    SameSide .stack (OnSide m.statics.base .stack) m (m.claim policy top) := by
  obtain ⟨region, zeroFill, growable⟩ := policy
  cases static
  have statics : m.statics.Ordered := sound.ordered .static
  have kept : SameSide .stack (OnSide m.statics.base .stack) m
      { m with image := (m.claim ⟨.static, zeroFill, growable⟩ top).image } :=
    sound.sameSide_withImage (Image.size_update ..) fun a below =>
      cell?_claim m _ (.inl (Nat.lt_of_lt_of_le below statics.base_le_top))
  exact { kept with size := nofun, grower := nofun }

theorem Allocated.stack_kept (sound : m.WellFormed) (static : policy.region = .static)
    {result : Except Fault Nat} (allocated : Allocated m policy size alignment result after) :
    SameSide .stack (OnSide m.statics.base .stack) m after := by
  have unstacked : policy.region ≠ .stack := by
    rw [static]
    exact nofun
  cases allocated with
  | @taken room top reserved inside =>
    have roomSound := reserved.wellFormed sound fun stack => absurd stack unstacked
    have bounds := reserved.bounds fun stack => absurd stack unstacked
    obtain ⟨-, -, base, -⟩ := bounds_eq_iff.mp bounds
    have claimed := claim_stack_kept roomSound static top
    rw [base] at claimed
    exact (reserved.stack_kept sound static).trans claimed
  | escaped reserved outside =>
    rw [reserved.hasWindow sound] at outside
    cases outside
  | failed reserved => exact reserved.stack_kept sound static

/-- An operation on the stack leaves the static side alone. -/
theorem Stepped.statics_kept (sound : m.WellFormed) (fixed : op.growsStack = false)
    (own : op.side? = some .stack) {result : Except Fault Answer}
    (stepped : Stepped m op result after) :
    SameSide .static (OnSide m.statics.base .static) m after := by
  cases stepped with
  | allocated asks block =>
    have stack := asks.region_of_side? own
    exact block.statics_kept sound stack (Operation.growable_of_growsStack fixed asks.policy?_eq stack)
  | stackAllocated asks block => exact block.statics_kept sound
  | opened asks opened => exact opened.statics_kept sound
  | closed exits closed => exact closed.statics_kept sound
  | restored restores base_le le_limit => exact sound.statics_kept _ _ rfl fun _ _ => rfl
  | placed unasked keeps target inside => cases (Operation.side?_of_keeps unasked keeps).symm.trans own
  | answered unasked keeps startless => exact sound.sameSide _ _
  | refused unasked returned unexhausted => exact sound.sameSide _ _

/-- An operation on the static region leaves the stack alone. -/
theorem Stepped.stack_kept (sound : m.WellFormed) (own : op.side? = some .static)
    {result : Except Fault Answer} (stepped : Stepped m op result after) :
    SameSide .stack (OnSide m.statics.base .stack) m after := by
  cases stepped with
  | allocated asks block => exact block.stack_kept sound (asks.region_of_side? own)
  | stackAllocated asks block => cases asks.region_of_side? own
  | opened asks opened => cases asks.region_of_side? own
  | closed exits closed =>
    subst exits
    cases own
  | restored restores base_le le_limit =>
    subst restores
    cases own
  | placed unasked keeps target inside => cases (Operation.side?_of_keeps unasked keeps).symm.trans own
  | answered unasked keeps startless => exact sound.sameSide _ _
  | refused unasked returned unexhausted => exact sound.sameSide _ _

theorem WellFormed.statics_kept_next (sound : m.WellFormed) (fixed : op.growsStack = false)
    (own : op.side? = some .stack) :
    SameSide .static (OnSide m.statics.base .static) m (next m op) :=
  (step_cases sound.toOrderly op).statics_kept sound fixed own

theorem WellFormed.stack_kept_next (sound : m.WellFormed) (own : op.side? = some .static) :
    SameSide .stack (OnSide m.statics.base .stack) m (next m op) :=
  (step_cases sound.toOrderly op).stack_kept sound own

/-- An operation on one side leaves the other one alone. -/
theorem WellFormed.kept_next (sound : m.WellFormed) (fixed : op.growsStack = false)
    {other : RegionKind} (own : op.side? = some other) (differs : other ≠ kind) :
    SameSide kind (OnSide m.statics.base kind) m (next m op) := by
  cases kind <;> cases other
  case stack.static => exact sound.stack_kept_next own
  case static.stack => exact sound.statics_kept_next fixed own
  all_goals exact absurd rfl differs

/-- An access changes no more than bytes. -/
theorem Stepped.kept_of_access (sound : m.WellFormed) (kind : RegionKind) (access : op.side? = none)
    {result : Except Fault Answer} (stepped : Stepped m op result after) :
    SameSide kind (fun _ => False) m after := by
  have unasked := Operation.policy?_of_side? access
  cases stepped with
  | allocated asks block => exact absurd unasked asks.policy?_ne_none
  | stackAllocated asks block => exact absurd unasked asks.policy?_ne_none
  | opened asks opened => exact absurd unasked asks.policy?_ne_none
  | closed exits closed =>
    subst exits
    cases access
  | restored restores base_le le_limit =>
    subst restores
    cases access
  | placed unasked keeps target inside => exact sound.sameSide_withImage (Image.size_overwrite ..) nofun
  | answered unasked keeps startless => exact sound.sameSide kind _
  | refused unasked returned unexhausted => exact sound.sameSide kind _

/-! ### Runs -/

/-- What the operations of a run on one side answer, and how each of them leaves that side. -/
def observed (kind : RegionKind) : List Operation → Memory → List (Except Fault Answer × Side)
  | [], _ => []
  | op :: rest, m =>
    if op.side? = some kind then
      ((step op m).result, (next m op).side kind) :: observed kind rest (next m op)
    else observed kind rest (next m op)

theorem SameSide.mono {fewer : Nat → Prop} (narrow : ∀ address, fewer address → seen address)
    (same : SameSide kind seen m n) : SameSide kind fewer m n :=
  { same with cells := fun address sees => same.cells address (narrow address sees) }

/-- Whatever else is done, a run shows of one side what the operations on that side show alone. -/
theorem SameSide.observed {ops : List Operation} (same : SameSide kind (fun _ => False) m n)
    (sound : m.WellFormed) (fixed : ∀ op ∈ ops, op.growsStack = false) :
    let own := ops.filter fun op => op.side? = some kind
    Memory.observed kind ops m = Memory.observed kind own n ∧
      SameSide kind (fun _ => False) (reached ops m) (reached own n) := by
  -- the second memory moves with the operations on the side, and stands still at all others
  induction ops generalizing m n with
  | nil => exact ⟨rfl, same⟩
  | cons op rest ih =>
    obtain ⟨first, others⟩ := List.forall_mem_cons.mp fixed
    have nextSound := (wellFormed_next sound first).1
    by_cases own : op.side? = some kind
    · obtain ⟨results, kept⟩ := same.step own first
      obtain ⟨later, last⟩ := ih kept nextSound others
      simp only [List.filter_cons, own, decide_true, if_true, Memory.observed, results,
        kept.side_eq, later, reached_cons]
      exact ⟨trivial, last⟩
    · have kept : SameSide kind (fun _ => False) m (next m op) := by
        cases side : op.side? with
        | none => exact (step_cases sound.toOrderly op).kept_of_access sound kind side
        | some other =>
          have differs : other ≠ kind := fun equal => own (equal ▸ side)
          exact (sound.kept_next first side differs).mono fun _ => False.elim
      obtain ⟨later, last⟩ := ih (kept.symm.trans same) nextSound others
      simp only [List.filter_cons, own, decide_false, Bool.false_eq_true, if_false, Memory.observed,
        later, reached_cons]
      exact ⟨trivial, last⟩

/-- Operations on different sides can be swapped. -/
theorem WellFormed.swap (sound : m.WellFormed) {a b : Operation} (fixed : a.growsStack = false)
    (stack : a.side? = some .stack) (static : b.side? = some .static) :
    (step b (next m a)).result = (step b m).result ∧
      (step a (next m b)).result = (step a m).result ∧ next (next m b) a = next (next m a) b := by
  have otherFixed := Operation.growsStack_of_static static
  obtain ⟨afterStack, bounds⟩ := wellFormed_next sound fixed
  obtain ⟨afterStatic, otherBounds⟩ := wellFormed_next sound otherFixed
  obtain ⟨-, -, base, -⟩ := bounds_eq_iff.mp bounds
  obtain ⟨-, -, otherBase, -⟩ := bounds_eq_iff.mp otherBounds
  -- each operation does after the other one what it does alone, on its own side
  obtain ⟨sameStack, stackAlike⟩ := (sound.stack_kept_next static).step stack fixed
  obtain ⟨sameStatic, staticAlike⟩ := (sound.statics_kept_next fixed stack).step static otherFixed
  have stackLast := afterStack.stack_kept_next static
  have staticLast := afterStatic.statics_kept_next fixed stack
  rw [base] at stackLast
  rw [otherBase] at staticLast
  exact ⟨sameStatic, sameStack,
    (stackLast.symm.trans stackAlike).eq (staticAlike.symm.trans staticLast)⟩

/-- Whatever operations are done, a run shows of each region what the operations on that region show
when they are done alone: their answers, and after each of them the region with the open frames, or
with the size of the memory and the requests that the grower got. An operation on the stack and one on
the static region can be swapped: both answer the same, and so does whatever follows. -/
theorem sides_independent {c : Config} {grower : Grower} {start : Memory}
    (created : create c grower = .ok start) (ops : List Operation)
    (fixed : ∀ op ∈ ops, op.growsStack = false) :
    (∀ kind, let own := ops.filter fun op => op.side? = some kind
      observed kind ops start = observed kind own start ∧
      (reached ops start).side kind = (reached own start).side kind) ∧
    ∀ a b, a.growsStack = false → a.side? = some .stack → b.side? = some .static → ∀ more,
      let m := reached ops start
      ∃ x y rest, answers (a :: b :: more) m = x :: y :: rest ∧
        answers (b :: a :: more) m = y :: x :: rest ∧
        reached (a :: b :: more) m = reached (b :: a :: more) m := by
  obtain ⟨valid, rfl⟩ := create_eq_ok.mp created
  have sound := ofLayout_wellFormed valid grower
  refine ⟨fun kind => ?_, fun a b fixedStack stack static more => ?_⟩
  · obtain ⟨shown, last⟩ := (sound.sameSide kind fun _ => False).observed sound fixed
    exact ⟨shown, last.side_eq.symm⟩
  · obtain ⟨sameStatic, sameStack, state⟩ := (sound.reached fixed).1.swap fixedStack stack static
    intro m
    refine ⟨(step a m).result, (step b m).result, answers more (next (next m a) b), ?_, ?_, ?_⟩
    · rw [answers_cons, answers_cons, sameStatic]
    · rw [answers_cons, answers_cons, sameStack, state]
    · rw [reached_cons, reached_cons, reached_cons, reached_cons, state]

/-- A memory that grows while a frame is open, with accesses in between. -/
theorem sides_independent_growing :
    ∃ start,
      create { checks := .debug, memory := ⟨64, 128, 512⟩ } (.doubling 512) = .ok start ∧
      let ops := [.enter 16, .staticAlloc 100, .fill 8 7 80, .exit (.active 8 1), .staticAlloc 5,
        .stackAlloc 100]
      let own := [.staticAlloc 100, .staticAlloc 5]
      observed .static ops start = observed .static own start ∧
      (observed .static own start).map Prod.fst = [.ok (.address 72), .ok (.address 172)] ∧
      (reached ops start).side .static =
        .static ⟨.static, 72, 180, 256⟩ 256 [⟨128, 172, some 256⟩] ∧
      reached [.restore 16, .staticAlloc 8] (reached ops start) =
        reached [.staticAlloc 8, .restore 16] (reached ops start) := by
  obtain ⟨start, created⟩ :
      ∃ start, create { checks := .debug, memory := ⟨64, 128, 512⟩ } (.doubling 512) = .ok start :=
    ⟨_, rfl⟩
  obtain ⟨shown, swapped⟩ := sides_independent created [.enter 16, .staticAlloc 100, .fill 8 7 80,
    .exit (.active 8 1), .staticAlloc 5, .stackAlloc 100] (by decide)
  obtain ⟨observed, last⟩ := shown .static
  obtain ⟨_, _, _, -, -, same⟩ := swapped (.restore 16) (.staticAlloc 8) rfl rfl rfl []
  cases created
  exact ⟨_, rfl, observed, by decide +kernel, last.trans (by decide +kernel), same⟩

end LinearHost.Memory
