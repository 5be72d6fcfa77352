import LinearHost.Proofs.Memory.Block
import LinearHost.Proofs.Memory.Nesting

/-!
# Tops on the grid

The address of a block is the top that earlier operations left behind, so an address is a multiple of
the quantum only if every top is. Every block ends at a multiple of its own alignment, wherever it
starts; a frame gives the top back that was there when it was opened, a failure leaves it alone, and a
region starts at a multiple whatever the sizes of the settings are. So tops leave the grid only by an
alignment that is no multiple of the quantum, or by restoring a top that never was one.

## Main definitions

* `Memory.TopAfter`, `Memory.Stepped.topAfter`: where an operation leaves the tops.
* `Memory.OnGrid`: the tops, those saved by the open frames included, are multiples of the quantum.
* `Memory.RestoresSaved`: a run restores only tops that the stack had before.
* `Memory.reached_onGrid`: blocks are handed out at multiples of the quantum.
-/

namespace LinearHost.Memory

variable {m after room : Memory} {op : Operation} {policy : Policy} {size alignment top : Nat}
  {q : Quantum}

/-! ### Where an operation leaves the tops -/

/-- Where the top of a region may lie after an operation. -/
inductive TopAfter (m : Memory) (op : Operation) : RegionKind → Nat → Prop where
  | kept {kind : RegionKind} : TopAfter m op kind (m.region kind).top
  | taken {kind : RegionKind} {size top : Nat}
      (stop : (m.region kind).blockStop? size (m.blockAlignment op) = some top) :
      TopAfter m op kind top
  | returned {savedTop : Nat} (innermost : m.frames.head? = some savedTop) :
      TopAfter m op .stack savedTop
  | restored {top : Nat} (restores : op = .restore top) : TopAfter m op .stack top

theorem Reserved.top_eq {result : Except Fault Nat}
    (reserved : Reserved m policy size alignment result room) (kind : RegionKind) :
    (room.region kind).top = (m.region kind).top := by
  by_cases same : kind = policy.region
  · rw [same, reserved.top_region]
  · rw [reserved.region_of_ne same]

/-- A block moves the top of its own region to where it ends. -/
theorem Reserved.topAfter
    (reserved : Reserved m policy size (m.blockAlignment op) (.ok top) room) (kind : RegionKind) :
    TopAfter m op kind
      ((room.modifyRegion policy.region fun r => { r with top }).region kind).top := by
  by_cases same : kind = policy.region
  · subst same
    rw [region_modifyRegion]
    exact .taken reserved.blockStop?_eq
  · rw [region_modifyRegion_of_ne same, reserved.top_eq]
    exact .kept

theorem Allocated.topAfter {result : Except Fault Nat}
    (asks : m.blockAlignment op = m.effectiveAlignment alignment)
    (allocated : Allocated m policy size alignment result after) (kind : RegionKind) :
    TopAfter m op kind (after.region kind).top := by
  cases allocated with
  | taken reserved inside =>
    rw [← asks] at reserved
    have left := reserved.topAfter kind
    cases kind <;> exact left
  | escaped reserved outside =>
    rw [← asks] at reserved
    exact reserved.topAfter kind
  | failed reserved =>
    rw [reserved.top_eq]
    exact .kept

theorem StackAllocated.topAfter {result : Except Fault Nat}
    (asks : m.blockAlignment op = m.quantum.bytes)
    (allocated : StackAllocated m size result after) (kind : RegionKind) :
    TopAfter m op kind (after.region kind).top := by
  have ended {top : Nat} (fit : m.stack.topAfter? size m.quantum.bytes = some top) :
      TopAfter m op kind ((m.modifyRegion .stack fun r => { r with top }).region kind).top := by
    have reserved : Reserved m .stack size (m.blockAlignment op) (.ok top) m := .fits (asks ▸ fit)
    exact reserved.topAfter kind
  cases allocated with
  | taken fit inside free => cases kind <;> exact ended fit
  | rejected fit inside asserted => cases kind <;> exact .kept
  | escaped fit outside => exact ended fit
  | exhausted full => exact .kept

theorem Opened.topAfter {initial : Nat} {forced : Bool} {result : Except Fault Frame}
    (asks : m.blockAlignment op = m.quantum.bytes) (opened : Opened m initial forced result after)
    (kind : RegionKind) : TopAfter m op kind (after.region kind).top := by
  cases opened with
  | skipped skip => exact .kept
  | unaligned kept asserted unaligned => exact .kept
  | empty kept aligned zero =>
    rw [region_withFrame]
    exact .kept
  | filled kept aligned positive block =>
    rw [region_withFrame]
    exact block.topAfter asks kind
  | failed kept aligned positive block => exact block.topAfter asks kind

theorem Closed.topAfter {frame : Frame} {result : Except Fault Unit}
    (closed : Closed m frame result after) (kind : RegionKind) :
    TopAfter m op kind (after.region kind).top := by
  cases closed with
  | elided => exact .kept
  | unordered other => exact .kept
  | closed innermost inside =>
    cases kind with
    | stack => exact .returned innermost
    | static => exact .kept
  | escaped innermost checked lower outside => cases kind <;> exact .kept

/-- An operation leaves a top alone, moves it to the end of a block, returns the stack to where its
innermost frame was opened, or restores a top. -/
theorem Stepped.topAfter {result : Except Fault Answer} (stepped : Stepped m op result after)
    (kind : RegionKind) : TopAfter m op kind (after.region kind).top := by
  cases stepped with
  | allocated asks block => exact block.topAfter asks.blockAlignment_eq kind
  | stackAllocated asks block => exact block.topAfter asks.blockAlignment_eq kind
  | opened asks opened => exact opened.topAfter asks.blockAlignment_eq kind
  | closed exits closed => exact closed.topAfter kind
  | restored restores base_le le_limit =>
    cases kind with
    | stack => exact .restored restores
    | static => exact .kept
  | placed unasked keeps target inside => cases kind <;> exact .kept
  | answered unasked keeps startless => exact .kept
  | refused unasked returned unexhausted => exact .kept

/-! ### Multiples of the quantum -/

/-- The tops, those saved by the open frames included, are multiples of the quantum. -/
structure OnGrid (q : Quantum) (m : Memory) : Prop where
  quantum_eq : m.quantum = q
  top (kind : RegionKind) : q.bytes ∣ (m.region kind).top
  saved : ∀ top ∈ m.frames, q.bytes ∣ top

theorem ofLayout_onGrid (c : Config) (grower : Grower) : (ofLayout c grower).OnGrid c.quantum where
  quantum_eq := rfl
  top
    | .stack => dvd_roundUpBits ..
    | .static => dvd_roundUpBits ..
  saved := nofun

/-- No block is aligned to 0. -/
theorem blockAlignment_pos (m : Memory) (op : Operation) : 0 < m.blockAlignment op := by
  have positive : 0 < m.quantum.bytes := by
    rw [Quantum.bytes, Nat.one_shiftLeft]
    exact Nat.two_pow_pos _
  cases op with
  | alloc policy size alignment =>
    rw [blockAlignment, effectiveAlignment]
    split
    next => exact positive
    next given => exact Nat.pos_of_ne_zero given
  | _ => exact positive

theorem OnGrid.dvd_blockAlignment (grid : m.OnGrid q)
    (aligned : ∀ policy size alignment, op = .alloc policy size alignment → q.bytes ∣ alignment) :
    q.bytes ∣ m.blockAlignment op := by
  have own : q.bytes ∣ m.quantum.bytes := grid.quantum_eq ▸ Nat.dvd_refl _
  cases op with
  | alloc policy size alignment =>
    rw [blockAlignment, effectiveAlignment]
    split
    next => exact own
    next => exact aligned policy size alignment rfl
  | _ => exact own

/-- A top stays on the grid if blocks are aligned to it and what is restored is on it. -/
theorem TopAfter.dvd {kind : RegionKind} (left : TopAfter m op kind top) (grid : m.OnGrid q)
    (aligned : q.bytes ∣ m.blockAlignment op)
    (restored : ∀ top, op = .restore top → q.bytes ∣ top) : q.bytes ∣ top := by
  cases left with
  | kept => exact grid.top kind
  | taken stop =>
    obtain ⟨-, rfl⟩ := Region.blockStop?_eq_some.mp stop
    exact Nat.dvd_trans aligned (dvd_alignUp _ (blockAlignment_pos m op))
  | returned innermost => exact grid.saved _ (List.mem_of_mem_head? innermost)
  | restored restores => exact restored _ restores

/-- Aligned operations keep the tops on the grid. -/
theorem OnGrid.next (grid : m.OnGrid q) (orderly : m.Orderly)
    (aligned : q.bytes ∣ m.blockAlignment op)
    (restored : ∀ top, op = .restore top → q.bytes ∣ top) : (next m op).OnGrid q where
  quantum_eq := (congrArg Settings.quantum (orderly.settings_next op)).trans grid.quantum_eq
  top kind := ((step_cases orderly op).topAfter kind).dvd grid aligned restored
  saved := by
    have nested := step_nested orderly op
    generalize (step op m).result = result at nested
    generalize (Memory.next m op).frames = frames at nested
    cases nested with
    | kept unopened => exact grid.saved
    | opened => exact List.forall_mem_cons.mpr ⟨grid.top .stack, grid.saved⟩
    | closed unopened innermost => exact (List.forall_mem_cons.mp (innermost ▸ grid.saved)).2

/-- A block starts at a multiple of the quantum. -/
theorem OnGrid.dvd_start (grid : m.OnGrid q) (orderly : m.Orderly) {answer : Answer} {start : Nat}
    (succeeds : (step op m).result = .ok answer) (answered : answer.start? = some start) :
    q.bytes ∣ start := by
  cases uses : op.policy? with
  | none =>
    have startless := (step_cases orderly op).start?_eq_none uses succeeds
    cases startless.symm.trans answered
  | some policy =>
    obtain ⟨rfl, -, -⟩ := (step_handed orderly uses succeeds).spec answered
    exact grid.top policy.region

/-! ### Runs -/

/-- Each top that a run restores is one that the stack had at some time before. -/
def RestoresSaved (start : Memory) (ops : List Operation) : Prop :=
  ∀ i top, ops[i]? = some (.restore top) →
    ∃ j ≤ i, (reached (ops.take j) start).stack.top = top

/-- Runs of aligned operations stay on the grid at each of their steps. -/
theorem OnGrid.reached_take (grid : m.OnGrid q) (orderly : m.Orderly) {ops : List Operation}
    (aligned : ∀ policy size alignment, .alloc policy size alignment ∈ ops → q.bytes ∣ alignment)
    (restores : m.RestoresSaved ops) (k : Nat) : (reached (ops.take k) m).OnGrid q := by
  -- strong, since a restored top may be that of any memory before
  induction k using Nat.strongRecOn with
  | ind k ih =>
    cases k with
    | zero => exact grid
    | succ k =>
      have before : (reached (ops.take k) m).OnGrid q := ih k (Nat.lt_succ_self k)
      rw [List.take_add_one]
      cases found : ops[k]? with
      | none => rwa [Option.toList_none, List.append_nil]
      | some op =>
        have mem : op ∈ ops := List.mem_of_getElem? found
        rw [Option.toList_some, reached_concat]
        refine before.next (orderly.reached _) (before.dvd_blockAlignment ?_) ?_
        · rintro policy size alignment rfl
          exact aligned policy size alignment mem
        · rintro top rfl
          obtain ⟨j, le, rfl⟩ := restores k top found
          exact (ih j (Nat.lt_succ_of_le le)).top .stack

/-- Blocks whose alignment is 0 or a multiple of the quantum start at multiples of it, for all
settings that agree, whatever the grower answers, and whichever operations fail, as long as only such
tops are restored that the stack had before; and all tops, those saved by the open frames included,
are multiples of the quantum wherever such operations lead. -/
theorem reached_onGrid {c : Config} {grower : Grower} {start : Memory}
    (created : create c grower = .ok start) {ops : List Operation}
    (aligned : ∀ policy size alignment, .alloc policy size alignment ∈ ops →
      c.quantum.bytes ∣ alignment)
    (restores : start.RestoresSaved ops) :
    (reached ops start).OnGrid c.quantum ∧
      ∀ answer a, .ok answer ∈ answers ops start → answer.start? = some a → c.quantum.bytes ∣ a := by
  obtain ⟨valid, rfl⟩ := create_eq_ok.mp created
  have orderly := (ofLayout_wellFormed valid grower).toOrderly
  have grid := (ofLayout_onGrid c grower).reached_take orderly aligned restores
  constructor
  · have all := grid ops.length
    rwa [List.take_length] at all
  · intro answer a answers starts
    obtain ⟨i, found⟩ := List.getElem?_of_mem answers
    rw [getElem?_answers, Option.map_eq_some_iff] at found
    obtain ⟨op, -, succeeds⟩ := found
    exact (grid i).dvd_start (orderly.reached _) succeeds starts

/-- The second block of the stack uses it up and is given back; the static region grows for a block
that is aligned to 24; one block fits nowhere; then the top from before the first block is restored,
and the frame is closed. -/
theorem reached_onGrid_rolled_back :
    ∃ start,
      create { quantum := ⟨3⟩, checks := .debug, memory := ⟨64, 130, 701⟩ }
        { policy := fun _ _ requested => some (requested + 1) } = .ok start ∧
      let ops := [.enter 24, .stackAlloc 13, .stackAlloc 20, .alloc .static 100 24,
        .staticAlloc 900, .restore 32, .exit (.active 8 1)]
      answers ops start =
        [.ok (.frame (.active 8 1)), .ok (.address 32), .error (.assertion (.stackExhausted 72 72)),
          .ok (.address 72), .error (.outOfMemory .static 900 192 193), .ok .done, .ok .done] ∧
      (reached ops start).statics.top = 192 ∧ (reached ops start).OnGrid ⟨3⟩ := by
  have created := create_of_validate
    (c := { quantum := ⟨3⟩, checks := .debug, memory := ⟨64, 130, 701⟩ }) rfl
    { policy := fun _ _ requested => some (requested + 1) }
  refine ⟨_, created, rfl, rfl, (reached_onGrid created ?_ ?_).1⟩
  · intro policy size alignment mem
    obtain ⟨-, -, rfl⟩ : policy = .static ∧ size = 100 ∧ alignment = 24 := by simpa using mem
    exact ⟨3, rfl⟩
  · intro i top found
    obtain ⟨rfl, rfl⟩ : i = 5 ∧ top = 32 := by
      rcases i with _ | _ | _ | _ | _ | _ | _ | i <;> cases found
      exact ⟨rfl, rfl⟩
    exact ⟨1, by decide, rfl⟩

end LinearHost.Memory
