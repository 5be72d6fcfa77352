import LinearHost.Proofs.InStep
import LinearHost.Proofs.Memory.Block

/-!
# The two sides of a memory

An operation that takes blocks or gives them back works on one region. It depends on nothing but
that region and what belongs to it, so it does the same in memories that agree there. The one thing
it asks of the rest of the memory, that a window lies inside the image, holds in both of them.

## Main definitions

* `Operation.side?`: the region that an operation works on.
* `Memory.side`: what belongs to a region.
* `Memory.SameSide`: memories that agree in one side.
* `Memory.WorksOn`: actions that do the same in such memories.
-/

namespace LinearHost

/-- The region that an operation works on; accesses to bytes work on none. -/
def Operation.side? (op : Operation) : Option RegionKind :=
  if op.givesBack then some .stack else op.policy?.map Policy.region

theorem Operation.side?_of_keeps {op : Operation} (unasked : op.policy? = none)
    (keeps : op.givesBack = false) : op.side? = none := by
  simp [side?, unasked, keeps]

theorem Operation.policy?_of_side? {op : Operation} (access : op.side? = none) :
    op.policy? = none := by
  unfold side? at access
  split at access
  · cases access
  · exact Option.map_eq_none_iff.mp access

theorem Memory.Asks.region_of_side? {m : Memory} {op : Operation} {policy : Policy}
    {size alignment : Nat} {kind : RegionKind} (asks : m.Asks op policy size alignment)
    (own : op.side? = some kind) : policy.region = kind := by
  have uses := asks.policy?_eq
  have keeps : op.givesBack = false := by
    cases op with
    | exit frame => cases uses
    | restore top => cases uses
    | _ => rfl
  simpa [Operation.side?, keeps, uses] using own

theorem Operation.growsStack_of_static {op : Operation} (static : op.side? = some .static) :
    op.growsStack = false := by
  cases op with
  | alloc policy _ _ =>
    have region : policy.region = .static := Option.some.inj static
    simp [growsStack, region]
  | _ => rfl

inductive Side where
  | stack (region : Region) (frames : List Nat)
  /-- The static region, the size of the memory and what the grower was asked so far. -/
  | static (region : Region) (size : Nat) (requests : List Growth)
deriving DecidableEq

namespace Memory

open LinearHost.Action (InStep)

def side (m : Memory) : RegionKind → Side
  | .stack => .stack m.stack m.frames
  | .static => .static m.statics m.size m.grower.history

/-- Two memories agree in one side, in their settings, and in the cells at some addresses. In both
of them the region lies inside the image. -/
structure SameSide (kind : RegionKind) (seen : Nat → Prop) (m n : Memory) : Prop where
  region : n.region kind = m.region kind
  frames : kind = .stack → n.frames = m.frames
  size : kind = .static → n.size = m.size
  grower : kind = .static → n.grower = m.grower
  quantum : n.quantum = m.quantum
  checks : n.checks = m.checks
  cap : n.cap = m.cap
  cells : ∀ address, seen address → n.image.cell? address = m.image.cell? address
  top_le_limit : kind = .stack → m.stack.top ≤ m.stack.limit
  limit_le_size : (m.region kind).limit ≤ m.size
  limit_le_size' : (m.region kind).limit ≤ n.size

def OnSide (border : Nat) : RegionKind → Nat → Prop
  | .stack, address => address < border
  | .static, address => border ≤ address

/-- An action works on one side: in memories that agree in that side it answers the same, and they
go on to agree. -/
abbrev WorksOn {α : Type} (kind : RegionKind) (seen : Nat → Prop) (x : Action Memory α) : Prop :=
  InStep (fun _ => False) (SameSide kind seen) Eq x x

variable {kind : RegionKind} {seen : Nat → Prop} {m n k after room : Memory} {op : Operation}
  {policy : Policy} {size alignment start stop top : Nat}

/-! ### Memories that agree in one side -/

@[simp] theorem region_withImage (m : Memory) (image : Image) (kind : RegionKind) :
    { m with image }.region kind = m.region kind := by
  cases kind <;> rfl

namespace SameSide

theorem symm (same : SameSide kind seen m n) : SameSide kind seen n m where
  region := same.region.symm
  frames stack := (same.frames stack).symm
  size static := (same.size static).symm
  grower static := (same.grower static).symm
  quantum := same.quantum.symm
  checks := same.checks.symm
  cap := same.cap.symm
  cells address sees := (same.cells address sees).symm
  top_le_limit := by
    rintro rfl
    have stack : n.stack = m.stack := same.region
    exact stack ▸ same.top_le_limit rfl
  limit_le_size := same.region ▸ same.limit_le_size'
  limit_le_size' := same.region ▸ same.limit_le_size

theorem trans (first : SameSide kind seen m n) (second : SameSide kind seen n k) :
    SameSide kind seen m k where
  region := second.region.trans first.region
  frames stack := (second.frames stack).trans (first.frames stack)
  size static := (second.size static).trans (first.size static)
  grower static := (second.grower static).trans (first.grower static)
  quantum := second.quantum.trans first.quantum
  checks := second.checks.trans first.checks
  cap := second.cap.trans first.cap
  cells address sees := (second.cells address sees).trans (first.cells address sees)
  top_le_limit := first.top_le_limit
  limit_le_size := first.limit_le_size
  limit_le_size' := first.region ▸ second.limit_le_size'

theorem side_eq (same : SameSide kind seen m n) : n.side kind = m.side kind := by
  cases kind with
  | stack => exact congrArg₂ Side.stack same.region (same.frames rfl)
  | static =>
    have statics : n.statics = m.statics := same.region
    rw [side, side, statics, same.size rfl, same.grower rfl]

/-- Memories that agree in both sides are the same. -/
theorem eq {border : Nat} (stack : SameSide .stack (OnSide border .stack) m n)
    (static : SameSide .static (OnSide border .static) m n) : n = m := by
  have image : n.image = m.image := Image.ext_cell? fun address => by
    by_cases below : address < border
    · exact stack.cells address below
    · exact static.cells address (Nat.le_of_not_lt below)
  cases m
  cases n
  rw [Memory.mk.injEq]
  exact ⟨image, stack.region, static.region, stack.frames rfl, stack.quantum, stack.checks,
    stack.cap, static.grower rfl⟩

/-- A block may be taken up to the limit of the region, or given back. -/
theorem withTop (same : SameSide kind seen m n) (le_limit : top ≤ (m.region kind).limit) :
    SameSide kind seen (m.modifyRegion kind fun r => { r with top })
      (n.modifyRegion kind fun r => { r with top }) where
  region := by rw [region_modifyRegion, region_modifyRegion, same.region]
  frames stack := by simpa using same.frames stack
  size static := by simpa using same.size static
  grower static := by simpa using same.grower static
  quantum := by simpa using same.quantum
  checks := by simpa using same.checks
  cap := by simpa using same.cap
  cells address sees := by simpa using same.cells address sees
  top_le_limit := by
    rintro rfl
    exact le_limit
  limit_le_size := by simpa using same.limit_le_size
  limit_le_size' := by simpa using same.limit_le_size'

/-- The same cells may be changed in both memories. -/
theorem update (same : SameSide kind seen m n) (start stop : Nat) (f : Cell → Cell) :
    SameSide kind seen { m with image := m.image.update start stop f }
      { n with image := n.image.update start stop f } where
  region := by simpa using same.region
  frames := same.frames
  size static := by simpa [Memory.size] using same.size static
  grower := same.grower
  quantum := same.quantum
  checks := same.checks
  cap := same.cap
  cells address sees := by
    dsimp only
    rw [Image.cell?_update, Image.cell?_update, same.cells address sees]
  top_le_limit := same.top_le_limit
  limit_le_size := by simpa [Memory.size] using same.limit_le_size
  limit_le_size' := by simpa [Memory.size] using same.limit_le_size'

theorem withGrower (same : SameSide kind seen m n) (grower : Grower) :
    SameSide kind seen { m with grower } { n with grower } := by
  have regions (m : Memory) : { m with grower }.region kind = m.region kind := by cases kind <;> rfl
  exact
    { same with
      region := by rw [regions, regions, same.region]
      grower := fun _ => rfl
      limit_le_size := (regions m).symm ▸ same.limit_le_size
      limit_le_size' := (regions m).symm ▸ same.limit_le_size' }

theorem withFrames (same : SameSide .stack seen m n) (frames : List Nat) :
    SameSide .stack seen { m with frames } { n with frames } :=
  { same with frames := fun _ => rfl }

theorem resized (same : SameSide .static seen m n) (size : Nat) :
    SameSide .static seen (m.resized .static size) (n.resized .static size) where
  region := by rw [region_resized, region_resized, same.region]
  frames := nofun
  size _ := by rw [size_resized, size_resized]
  grower := same.grower
  quantum := same.quantum
  checks := same.checks
  cap := same.cap
  cells address sees := by
    have sizes : n.image.size = m.image.size := same.size rfl
    show (n.image.resize size).cell? address = (m.image.resize size).cell? address
    rw [Image.cell?_resize, Image.cell?_resize, same.cells address sees, sizes]
  top_le_limit := nofun
  limit_le_size := by simp
  limit_le_size' := by simp

end SameSide

/-! ### Actions that work on one side -/

/-- A window within the limit of a region is there in both memories. -/
theorem requireWindow_sameSide (same : SameSide kind seen m n) (start_le : start ≤ stop)
    (le_limit : stop ≤ (m.region kind).limit) :
    Outcome.InStep (fun _ => False) (SameSide kind seen) Eq (requireWindow start stop m)
      (requireWindow start stop n) := by
  have left : m.hasWindow start stop = true :=
    hasWindow_iff.mpr ⟨start_le, Nat.le_trans le_limit same.limit_le_size⟩
  have right : n.hasWindow start stop = true :=
    hasWindow_iff.mpr ⟨start_le, Nat.le_trans le_limit same.limit_le_size'⟩
  rw [requireWindow_apply, requireWindow_apply, left, right]
  exact .inr ⟨.ok rfl, same⟩

theorem fit_worksOn (kind : RegionKind) (seen : Nat → Prop) (size alignment : Nat) :
    WorksOn kind seen (fit kind size alignment) := by
  refine .get_bind fun m n same => ?_
  rw [same.region]
  dsimp only
  split
  · exact .pure rfl
  · exact .fail _

theorem grow_worksOn (seen : Nat → Prop) (size alignment : Nat) :
    WorksOn .static seen (grow .static size alignment) := by
  refine .get_bind fun m n same => ?_
  simp only [same.size rfl, same.region, same.cap, same.grower rfl, grownSize?]
  split
  · exact .pure rfl
  next needed =>
    refine .ite (.bind (.note _ _) fun _ _ _ => .pure rfl) ?_
    refine .bind (.modify fun m n same => same.withGrower _) fun _ _ _ => ?_
    · split
      · exact .bind (.note _ _) fun _ _ _ =>
          .bind (.modify fun m n same => same.resized _) fun _ _ _ => .pure rfl
      · exact .bind (.note _ _) fun _ _ _ => .pure rfl

theorem reserve_worksOn (fixed : policy.region = .stack → policy.growable = false)
    (seen : Nat → Prop) (size alignment : Nat) :
    WorksOn policy.region seen (reserve policy size alignment) := by
  refine .bind (.attempt (fit_worksOn _ _ _ _)) fun found other agree => ?_
  obtain rfl := agree_eq_iff.mp agree
  cases found with
  | ok top => exact .pure rfl
  | error fault =>
    have again (given other : Bool) (same : given = other) :
        InStep (fun _ => False) (SameSide policy.region seen) Eq
          (do Action.require given fault; fit policy.region size alignment)
          (do Action.require other fault; fit policy.region size alignment) := by
      obtain rfl := same
      exact .bind (.require _ _) fun _ _ _ => fit_worksOn _ _ _ _
    cases growable : policy.growable with
    | false => exact .bind (.pure rfl) again
    | true =>
      -- only the static region may grow
      cases kind : policy.region with
      | stack => simp [fixed kind] at growable
      | static =>
        rw [kind] at again
        exact .bind (grow_worksOn _ _ _) again

/-- An allocation works on the side of its region, unless the stack grows. -/
theorem alloc_worksOn (policy : Policy) (fixed : policy.region = .stack → policy.growable = false)
    (seen : Nat → Prop) (size alignment : Nat) :
    WorksOn policy.region seen (alloc policy size alignment) := by
  intro m n same
  unfold alloc
  simp only [Action.get_bind_apply, same.region, effectiveAlignment, same.quantum]
  refine Action.bind_inStep (reserve_worksOn fixed _ _ _ m n same) ?_
  rintro top _ s t found left rfl same
  have reserved := reserve_cases m policy size (m.effectiveAlignment alignment)
  simp only [effectiveAlignment] at reserved
  rw [found, left] at reserved
  obtain ⟨top_add_le, le_limit⟩ := reserved.top_mem
  -- the block ends within the region, so its window lies in both images
  refine Action.bind_inStep (.inr ⟨.ok rfl, same.withTop le_limit⟩) ?_
  rintro _ _ s t - rfl - same
  refine Action.bind_inStep (requireWindow_sameSide same (by omega) (by simpa using le_limit)) ?_
  rintro _ _ s t - - - same
  exact .inr ⟨.ok rfl, same.update _ _ _⟩

theorem staticAlloc_worksOn (seen : Nat → Prop) (size : Nat) :
    WorksOn .static seen (staticAlloc size) := by
  refine .get_bind fun m n same => ?_
  rw [same.quantum]
  exact alloc_worksOn .static nofun _ _ _

theorem moveStackTop_worksOn (seen : Nat → Prop) (top : Nat) :
    WorksOn .stack seen (moveStackTop top) := by
  intro m n same
  have stack : n.stack = m.stack := same.region
  rw [moveStackTop_apply, moveStackTop_apply, stack]
  split
  next inside =>
    have moved := same.withTop inside.2
    simp only [modifyRegion, stack] at moved
    exact .inr ⟨.ok rfl, moved⟩
  next => exact .inr ⟨.error _, same⟩

theorem stackAlloc_worksOn (seen : Nat → Prop) (size : Nat) :
    WorksOn .stack seen (stackAlloc size) := by
  refine .get_bind fun m n same => ?_
  rw [same.quantum, same.checks]
  refine .bind (alloc_worksOn .stack (fun _ => rfl) _ _ _) fun address _ equal => ?_
  obtain rfl := equal
  refine .get_bind fun m n same => ?_
  have stack : n.stack = m.stack := same.region
  rw [stack]
  exact .ite (.bind (moveStackTop_worksOn _ _) fun _ _ _ => .fail _) (.pure rfl)

theorem assert_worksOn (kind : RegionKind) (seen : Nat → Prop) (holds : Bool) (broken : Assertion) :
    WorksOn kind seen (assert holds broken) := by
  refine .get_bind fun m n same => ?_
  rw [same.checks]
  exact .require _ _

theorem openFrame_worksOn (seen : Nat → Prop) (initial : Nat) (forced : Bool) :
    WorksOn .stack seen (openFrame initial forced) := by
  refine .get_bind fun m n same => ?_
  have stack : n.stack = m.stack := same.region
  rw [skips, skips, same.checks, same.quantum, stack, Memory.depth, Memory.depth, same.frames rfl]
  refine .ite (.pure rfl) (.bind (assert_worksOn _ _ _ _) fun _ _ _ => ?_)
  have opened (depth top : Nat) : WorksOn .stack seen (do
      Action.modify fun m => { m with frames := top :: m.frames }
      Action.note (.frameOpened depth top initial)
      return Frame.active top depth) := by
    refine .bind (.modify fun m n same => ?_) fun _ _ _ => .bind (.note _ _) fun _ _ _ => .pure rfl
    rw [same.frames rfl]
    exact same.withFrames _
  exact .ite (.bind (stackAlloc_worksOn _ _) fun _ _ _ => opened _ _) (opened _ _)

theorem release_worksOn (seen : Nat → Prop) (savedTop : Nat) :
    WorksOn .stack seen (release savedTop) := by
  intro m n same
  have stack : n.stack = m.stack := same.region
  unfold release
  simp only [Action.get_bind_apply, same.checks, stack, Action.ite_apply]
  split
  next released =>
    rw [Bool.and_eq_true, decide_eq_true_eq] at released
    have lower : savedTop ≤ m.stack.top := Nat.le_of_lt released.2
    refine Action.bind_inStep (requireWindow_sameSide same lower (same.top_le_limit rfl)) ?_
    rintro _ _ s t - - - same
    have top : t.stack.top = s.stack.top := congrArg Region.top same.region
    refine .inr ⟨.ok rfl, ?_⟩
    rw [Action.modify_apply, Action.modify_apply, top]
    exact same.update _ _ _
  next => exact .inr ⟨.ok rfl, same⟩

theorem exit_worksOn (seen : Nat → Prop) (frame : Frame) : WorksOn .stack seen (exit frame) := by
  cases frame with
  | elided => exact .pure rfl
  | active savedTop depth =>
    refine .get_bind fun m n same => ?_
    have stack : n.stack = m.stack := same.region
    rw [Memory.depth, Memory.depth, same.frames rfl, stack]
    refine .bind (.require _ _) fun _ _ _ => .bind (.modify fun m n same => ?_) fun _ _ _ => ?_
    · rw [same.frames rfl]
      exact same.withFrames _
    · exact .bind (release_worksOn _ _) fun _ _ _ => .bind (.note _ _) fun _ _ _ =>
        moveStackTop_worksOn _ _

/-- Every operation works on its own side. -/
theorem step_worksOn (own : op.side? = some kind) (fixed : op.growsStack = false)
    (seen : Nat → Prop) : WorksOn kind seen (step op) := by
  have answered {α : Type} {x : Action Memory α} (f : α → Answer) (works : WorksOn kind seen x) :
      WorksOn kind seen (do return f (← x)) :=
    .bind works fun _ _ same => same ▸ .pure rfl
  cases op with
  | alloc policy size alignment =>
    obtain rfl : policy.region = kind := Option.some.inj own
    exact answered .address (alloc_worksOn policy (Operation.growable_of_growsStack fixed rfl) _ _ _)
  | stackAlloc size =>
    cases own
    exact answered .address (stackAlloc_worksOn _ _)
  | staticAlloc size =>
    cases own
    exact answered .address (staticAlloc_worksOn _ _)
  | allocate region size =>
    cases region with
    | stack =>
      cases own
      exact answered .address (stackAlloc_worksOn _ _)
    | static =>
      cases own
      exact answered .address (staticAlloc_worksOn _ _)
  | enter initial =>
    cases own
    exact answered .frame (openFrame_worksOn _ _ _)
  | enterForced initial =>
    cases own
    exact answered .frame (openFrame_worksOn _ _ _)
  | exit frame =>
    cases own
    exact answered (fun _ => .done) (exit_worksOn _ _)
  | restore top =>
    cases own
    exact answered (fun _ => .done) (moveStackTop_worksOn _ _)
  | _ => cases own

/-- An operation does the same in memories that agree in its side. -/
theorem SameSide.step (same : SameSide kind seen m n) (own : op.side? = some kind)
    (fixed : op.growsStack = false) :
    (Memory.step op n).result = (Memory.step op m).result ∧
      SameSide kind seen (next m op) (next n op) := by
  obtain ⟨agree, kept⟩ := (step_worksOn own fixed seen).agree same
  exact ⟨(agree_eq_iff.mp agree).symm, kept⟩

end Memory

end LinearHost
