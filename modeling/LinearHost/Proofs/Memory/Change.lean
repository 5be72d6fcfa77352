import LinearHost.Proofs.Memory.Step

/-!
# How operations change a memory

Every operation, whatever it answers, changes the memory in one of few ways. A property of memories
is an invariant as soon as each of these keeps it; that the tops stay in their regions is the first.

## Main definitions

* `Memory.Change`, `Memory.step_change`: the ways in which an operation changes a memory.
* `Memory.settings`: what no operation changes.
-/

namespace LinearHost

namespace Memory

inductive Change (m : Memory) (op : Operation) : Except Fault Answer → Memory → Prop where
  | answered {answer : Answer} : Change m op (.ok answer) m
  | failed {fault : Fault} (returned : fault.isFatal = false)
      (unexhausted : ∀ top limit, fault ≠ .assertion (.stackExhausted top limit)) :
      Change m op (.error fault) m
  | refused {policy : Policy} {size needed : Nat} (uses : op.policy? = some policy)
      (growable : policy.growable = true) :
      Change m op (.error ((m.region policy.region).exhausted size)) (m.asked needed)
  | taken {policy : Policy} {size alignment top : Nat} {room : Memory} {answer : Answer}
      (uses : op.policy? = some policy)
      (reserved : Reserved m policy size alignment (.ok top) room)
      (inside : room.hasWindow (m.region policy.region).top top = true) :
      Change m op (.ok answer) (room.claim policy top)
  | escaped {policy : Policy} {size alignment top : Nat} {room : Memory}
      (uses : op.policy? = some policy)
      (reserved : Reserved m policy size alignment (.ok top) room)
      (outside : room.hasWindow (m.region policy.region).top top = false) :
      Change m op (.error (.outsideImage (m.region policy.region).top top room.size))
        (room.modifyRegion policy.region fun r => { r with top })
  /-- A block used up the stack and was given back. -/
  | rejected {size alignment : Nat}
      (fit : m.stack.topAfter? size alignment = some m.stack.limit)
      (inside : m.hasWindow m.stack.top m.stack.limit = true)
      (asserted : m.checks.assertions = true) :
      Change m op (.error (.assertion (.stackExhausted m.stack.limit m.stack.limit)))
        { m with image := claimed m.image m.stack.top m.stack.limit false }
  | opened {answer : Answer} : Change m op (.ok answer) (m.withFrame m.stack.top)
  | filled {size alignment top : Nat} {answer : Answer}
      (fit : m.stack.topAfter? size alignment = some top)
      (inside : m.hasWindow m.stack.top top = true) :
      Change m op (.ok answer) ((m.claim .stack top).withFrame m.stack.top)
  | closed {savedTop : Nat} {answer : Answer} (innermost : m.frames.head? = some savedTop)
      (inside : m.checks.stackInvalidation = true → savedTop < m.stack.top →
        m.hasWindow savedTop m.stack.top = true) :
      Change m op (.ok answer) (m.closed savedTop)
  /-- What the stack left behind reached outside the image. -/
  | unreleased {savedTop : Nat} (innermost : m.frames.head? = some savedTop)
      (lower : savedTop < m.stack.top) (outside : m.hasWindow savedTop m.stack.top = false) :
      Change m op (.error (.outsideImage savedTop m.stack.top m.size)) m.popped
  | moved {top : Nat} {answer : Answer} (base_le : m.stack.base ≤ top)
      (le_limit : top ≤ m.stack.limit) :
      Change m op (.ok answer) { m with stack := { m.stack with top } }
  | placed {address : Nat} {row : Runs Cell} {answer : Answer}
      (inside : address + row.length ≤ m.size) :
      Change m op (.ok answer) { m with image := m.image.overwrite address row }

variable {m after room : Memory} {op : Operation} {policy : Policy}
  {size alignment top : Nat}

/-! ### The changes made by each operation -/

theorem Allocated.change {result : Except Fault Nat} (uses : op.policy? = some policy)
    (allocated : Allocated m policy size alignment result after) :
    Change m op (result.map .address) after := by
  cases allocated with
  | taken reserved inside => exact .taken uses reserved inside
  | escaped reserved outside => exact .escaped uses reserved outside
  | failed reserved =>
    cases reserved with
    | exhausted full unasked => exact .failed rfl nofun
    | refused full growable stop le_cap refused => exact .refused uses growable

theorem StackAllocated.change {result : Except Fault Nat} (uses : op.policy? = some .stack)
    (allocated : StackAllocated m size result after) :
    Change m op (result.map .address) after := by
  cases allocated with
  | taken fit inside free => exact .taken uses (.fits fit) inside
  | rejected fit inside asserted => exact .rejected fit inside asserted
  | escaped fit outside => exact .escaped uses (.fits fit) outside
  | exhausted full => exact .failed rfl nofun

theorem Opened.change {initial : Nat} {forced : Bool} {result : Except Fault Frame}
    (uses : op.policy? = some .stack) (opened : Opened m initial forced result after) :
    Change m op (result.map .frame) after := by
  cases opened with
  | skipped skip => exact .answered
  | unaligned kept asserted unaligned => exact .failed rfl nofun
  | empty kept aligned zero => exact .opened
  | filled kept aligned positive block =>
    cases block with
    | taken fit inside free => exact .filled fit inside
  | failed kept aligned positive block => exact block.change uses

theorem Closed.change {frame : Frame} {result : Except Fault Unit}
    (closed : Closed m frame result after) :
    Change m op (result.map fun _ => .done) after := by
  cases closed with
  | elided => exact .answered
  | unordered other => exact .failed rfl nofun
  | closed innermost inside => exact .closed innermost inside
  | escaped innermost checked lower outside => exact .unreleased innermost lower outside

/-- Whatever becomes of an operation, it changes the memory in one of these ways. -/
theorem Stepped.change {result : Except Fault Answer} (stepped : Stepped m op result after) :
    Change m op result after := by
  cases stepped with
  | allocated asks block => exact block.change asks.policy?_eq
  | stackAllocated asks block => exact block.change asks.policy?_eq
  | opened asks opened => exact opened.change asks.policy?_eq
  | closed exits closed => exact closed.change
  | restored restores base_le le_limit => exact .moved base_le le_limit
  | placed unasked keeps target inside => exact .placed inside
  | answered unasked keeps startless => exact .answered
  | refused unasked returned unexhausted => exact .failed returned unexhausted

/-- Every operation changes a memory in one of these ways. -/
theorem step_change (m : Memory) (orderly : m.Orderly) (op : Operation) :
    Change m op (step op m).result (step op m).state :=
  (step_cases orderly op).change

/-! ### The tops stay in their regions -/

/-- A memory is as orderly as another one with the same regions and frames. -/
theorem Orderly.congr (orderly : m.Orderly) (stack : after.stack = m.stack)
    (statics : after.statics = m.statics) (frames : after.frames = m.frames) : after.Orderly where
  ordered
    | .stack => show after.stack.Ordered from stack ▸ orderly.ordered .stack
    | .static => show after.statics.Ordered from statics ▸ orderly.ordered .static
  saved top opened := stack ▸ orderly.saved top (frames ▸ opened)

theorem Orderly.withTop {k : RegionKind} (orderly : m.Orderly)
    (base_le : (m.region k).base ≤ top) (le_limit : top ≤ (m.region k).limit) :
    (m.modifyRegion k fun r => { r with top }).Orderly := by
  cases k with
  | stack =>
    refine ⟨fun other => ?_, orderly.saved⟩
    cases other with
    | stack => exact ⟨base_le, le_limit⟩
    | static => exact orderly.ordered .static
  | static =>
    refine ⟨fun other => ?_, orderly.saved⟩
    cases other with
    | stack => exact orderly.ordered .stack
    | static => exact ⟨base_le, le_limit⟩

theorem Orderly.resized {k : RegionKind} (orderly : m.Orderly)
    (raised : (m.region k).limit ≤ size) : (m.resized k size).Orderly := by
  have ordered := orderly.ordered k
  cases k with
  | stack =>
    refine ⟨fun other => ?_, fun top opened => ?_⟩
    · cases other with
      | stack => exact ⟨ordered.base_le_top, Nat.le_trans ordered.top_le_limit raised⟩
      | static => exact orderly.ordered .static
    · obtain ⟨base_le, le_limit⟩ := orderly.saved top opened
      exact ⟨base_le, Nat.le_trans le_limit raised⟩
  | static =>
    refine ⟨fun other => ?_, orderly.saved⟩
    cases other with
    | stack => exact orderly.ordered .stack
    | static => exact ⟨ordered.base_le_top, Nat.le_trans ordered.top_le_limit raised⟩

/-- A region only grows when a block does not fit, and then beyond its limit. -/
theorem Reserved.orderly {result : Except Fault Nat} (orderly : m.Orderly)
    (reserved : Reserved m policy size alignment result room) : room.Orderly := by
  have asked (needed : Nat) : (m.asked needed).Orderly := orderly.congr rfl rfl rfl
  cases reserved with
  | fits fit => exact orderly
  | @grown needed after full growable stop le_cap granted =>
    refine (asked needed).resized ?_
    rw [region_asked]
    have beyond := Region.limit_lt_of_topAfter? full stop
    have enough := (needed_le_of_grownSize? le_cap granted).1
    omega
  | exhausted full unasked => exact orderly
  | @refused needed full growable stop le_cap refused => exact asked needed

/-- The block that is found starts at the old top and ends within the region. -/
theorem Reserved.top_mem (reserved : Reserved m policy size alignment (.ok top) room) :
    (m.region policy.region).top + size ≤ top ∧ top ≤ (room.region policy.region).limit := by
  refine ⟨Region.top_add_le_of_blockStop? reserved.blockStop?_eq, ?_⟩
  cases reserved with
  | fits fit => exact (Region.topAfter?_eq_some.mp fit).2
  | grown full growable stop le_cap granted =>
    simpa using (needed_le_of_grownSize? le_cap granted).1

theorem Reserved.frames_eq {result : Except Fault Nat}
    (reserved : Reserved m policy size alignment result room) : room.frames = m.frames := by
  cases reserved with
  | grown full growable stop le_cap granted => exact frames_modifyRegion ..
  | _ => rfl

theorem Reserved.base_region {result : Except Fault Nat}
    (reserved : Reserved m policy size alignment result room) :
    (room.region policy.region).base = (m.region policy.region).base := by
  cases reserved <;> simp

/-- Taking a block leaves its top inside its region. -/
theorem Reserved.orderly_withTop (orderly : m.Orderly)
    (reserved : Reserved m policy size alignment (.ok top) room) :
    (room.modifyRegion policy.region fun r => { r with top }).Orderly := by
  obtain ⟨top_add_le, le_limit⟩ := reserved.top_mem
  refine (reserved.orderly orderly).withTop ?_ le_limit
  rw [reserved.base_region]
  have base_le_top := (orderly.ordered policy.region).base_le_top
  omega

theorem Orderly.withFrame (orderly : m.Orderly) {savedTop : Nat} (base_le : m.stack.base ≤ savedTop)
    (le_limit : savedTop ≤ m.stack.limit) : (m.withFrame savedTop).Orderly where
  ordered := orderly.ordered
  saved top opened := by
    obtain rfl | opened := List.mem_cons.mp opened
    · exact ⟨base_le, le_limit⟩
    · exact orderly.saved top opened

theorem Orderly.popped (orderly : m.Orderly) : m.popped.Orderly where
  ordered := orderly.ordered
  saved top opened := orderly.saved top (List.mem_of_mem_tail opened)

/-- No change moves a top out of its region. -/
theorem Change.orderly {result : Except Fault Answer} (orderly : m.Orderly)
    (change : Change m op result after) : after.Orderly := by
  have stack : m.stack.Ordered := orderly.ordered .stack
  cases change with
  | answered => exact orderly
  | failed returned unexhausted => exact orderly
  | refused uses growable => exact orderly.congr rfl rfl rfl
  | taken uses reserved inside => exact (reserved.orderly_withTop orderly).congr rfl rfl rfl
  | escaped uses reserved outside => exact reserved.orderly_withTop orderly
  | rejected fit inside asserted => exact orderly.congr rfl rfl rfl
  | opened => exact orderly.withFrame stack.base_le_top stack.top_le_limit
  | @filled _ _ top _ fit inside =>
    have reserved : Reserved m .stack _ _ (.ok top) m := .fits fit
    have claimed : (m.claim .stack top).Orderly :=
      (reserved.orderly_withTop orderly).congr rfl rfl rfl
    exact claimed.withFrame stack.base_le_top stack.top_le_limit
  | closed innermost inside =>
    obtain ⟨base_le, le_limit⟩ := orderly.saved _ (List.mem_of_mem_head? innermost)
    exact (Orderly.withTop (k := .stack) orderly.popped base_le le_limit).congr rfl rfl rfl
  | unreleased innermost lower outside => exact orderly.popped
  | moved base_le le_limit => exact Orderly.withTop (k := .stack) orderly base_le le_limit
  | placed inside => exact orderly.congr rfl rfl rfl

/-! ### Settings never change -/

structure Settings where
  quantum : Quantum
  checks : Checks
  cap : Nat
  growth : List Growth → (current requested : Nat) → Option Nat
  /-- The kinds that the regions bear, as faults report them. -/
  kinds : RegionKind × RegionKind

def settings (m : Memory) : Settings where
  quantum := m.quantum
  checks := m.checks
  cap := m.cap
  growth := m.grower.policy
  kinds := (m.stack.kind, m.statics.kind)

theorem settings_modifyRegion (m : Memory) (kind : RegionKind) {f : Region → Region}
    (same : ∀ r, (f r).kind = r.kind) : (m.modifyRegion kind f).settings = m.settings := by
  cases kind <;> simp [settings, modifyRegion, same]

theorem Reserved.settings_eq {result : Except Fault Nat}
    (reserved : Reserved m policy size alignment result room) : room.settings = m.settings := by
  cases reserved with
  | grown full growable stop le_cap granted => exact settings_modifyRegion _ _ fun _ => rfl
  | _ => rfl

theorem Change.settings_eq {result : Except Fault Answer} (change : Change m op result after) :
    after.settings = m.settings := by
  cases change with
  | taken uses reserved inside =>
    rw [← reserved.settings_eq]
    exact settings_modifyRegion _ _ fun _ => rfl
  | escaped uses reserved outside =>
    rw [← reserved.settings_eq]
    exact settings_modifyRegion _ _ fun _ => rfl
  | _ => rfl

theorem Reserved.checks_eq {result : Except Fault Nat}
    (reserved : Reserved m policy size alignment result room) : room.checks = m.checks :=
  congrArg Settings.checks reserved.settings_eq

theorem Change.checks_eq {result : Except Fault Answer} (change : Change m op result after) :
    after.checks = m.checks :=
  congrArg Settings.checks change.settings_eq

/-! ### Runs -/

def next (m : Memory) (op : Operation) : Memory := (step op m).state

/-- An operation leaves behind what the action does that it carries out. -/
theorem next_eq_state {α : Type} {x : Action Memory α} {f : α → Answer} {op : Operation}
    (same : step op = do return f (← x)) (m : Memory) : next m op = (x m).state := by
  rw [next, same, Action.state_bind_pure]

theorem next_allocate (region : RegionKind) (size : Nat) (m : Memory) :
    next m (.allocate region size) = (allocate region size m).state :=
  next_eq_state (f := .address) rfl m

theorem next_staticAlloc (size : Nat) (m : Memory) :
    next m (.staticAlloc size) = (staticAlloc size m).state :=
  next_eq_state (f := .address) rfl m

def reached (ops : List Operation) (m : Memory) : Memory := (run ops m).2

def answers (ops : List Operation) (m : Memory) : List (Except Fault Answer) := (run ops m).1

theorem reached_cons (op : Operation) (rest : List Operation) (m : Memory) :
    reached (op :: rest) m = reached rest (next m op) := rfl

theorem answers_cons (op : Operation) (rest : List Operation) (m : Memory) :
    answers (op :: rest) m = (step op m).result :: answers rest (next m op) := rfl

theorem reached_concat (ops : List Operation) (op : Operation) (m : Memory) :
    reached (ops ++ [op]) m = next (reached ops m) op := by
  induction ops generalizing m with
  | nil => rfl
  | cons first rest ih => rw [List.cons_append, reached_cons, ih, reached_cons]

/-- Each operation is answered by what the memory is that those before it lead to. -/
theorem getElem?_answers (ops : List Operation) (m : Memory) (i : Nat) :
    (answers ops m)[i]? = ops[i]?.map fun op => (step op (reached (ops.take i) m)).result := by
  induction ops generalizing m i with
  | nil => rfl
  | cons op rest ih =>
    cases i with
    | zero => rfl
    | succ i => exact ih (next m op) i

/-- What every allowed operation keeps holds wherever allowed operations lead. -/
theorem reached_induction (allowed : Operation → Prop) (invariant : Memory → Prop)
    (kept : ∀ m op, invariant m → allowed op → invariant (next m op)) {ops : List Operation}
    (all : ∀ op ∈ ops, allowed op) (holds : invariant m) : invariant (reached ops m) := by
  induction ops generalizing m with
  | nil => exact holds
  | cons op rest ih =>
    obtain ⟨first, others⟩ := List.forall_mem_cons.mp all
    rw [reached_cons]
    exact ih others (kept m op holds first)

/-- What an invariant says about each answer holds of all answers of a run. -/
theorem answers_induction (allowed : Operation → Prop) (invariant : Memory → Prop)
    {fine : Except Fault Answer → Prop}
    (kept : ∀ m op, invariant m → allowed op → invariant (next m op))
    (answered : ∀ m op, invariant m → allowed op → fine (step op m).result)
    {ops : List Operation} (all : ∀ op ∈ ops, allowed op) (holds : invariant m) :
    ∀ result ∈ answers ops m, fine result := by
  induction ops generalizing m with
  | nil => exact nofun
  | cons op rest ih =>
    obtain ⟨first, others⟩ := List.forall_mem_cons.mp all
    rw [answers_cons]
    exact List.forall_mem_cons.mpr
      ⟨answered m op holds first, ih others (kept m op holds first)⟩

theorem Orderly.next (orderly : m.Orderly) (op : Operation) : (next m op).Orderly :=
  (step_change m orderly op).orderly orderly

/-- The tops stay in their regions along every run. -/
theorem Orderly.reached (orderly : m.Orderly) (ops : List Operation) :
    (reached ops m).Orderly :=
  reached_induction (fun _ => True) Orderly
    (fun _ op orderly _ => Orderly.next orderly op) (fun _ _ => trivial) orderly

theorem Orderly.settings_next (orderly : m.Orderly) (op : Operation) :
    (Memory.next m op).settings = m.settings :=
  (step_change m orderly op).settings_eq

theorem Orderly.settings_reached (orderly : m.Orderly) (ops : List Operation) :
    (Memory.reached ops m).settings = m.settings := by
  induction ops generalizing m with
  | nil => rfl
  | cons op rest ih => rw [reached_cons, ih (orderly.next op), orderly.settings_next op]

theorem Orderly.checks_next (orderly : m.Orderly) (op : Operation) :
    (Memory.next m op).checks = m.checks :=
  congrArg Settings.checks (orderly.settings_next op)

theorem Orderly.checks_reached (orderly : m.Orderly) (ops : List Operation) :
    (Memory.reached ops m).checks = m.checks :=
  congrArg Settings.checks (orderly.settings_reached ops)

end Memory

end LinearHost
