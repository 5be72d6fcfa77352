import LinearHost.Proofs.Memory.Block

/-!
# Blocks along a run

A ledger notes every block that a run hands out, and which blocks of the stack have not been given
back. The blocks of the static region lie side by side from its base up to its top; the live blocks of
the stack lie one above the other below its top. So no two of them share an address.

## Main definitions

* `Ledger`, `Ledger.record`: the blocks of a run, and what an operation adds and takes away.
* `Tiles`: blocks that lie side by side.
* `Ledger.Sound`, `Memory.blocks_apart`: where the blocks of a run lie.
-/

namespace LinearHost

/-- Blocks that lie side by side, in this order, from one address up to another. -/
def Tiles (start : Nat) : List Block → Nat → Prop
  | [], stop => start = stop
  | b :: rest, stop => b.start = start ∧ b.start ≤ b.stop ∧ Tiles b.stop rest stop

/-- A memory and the blocks that were handed out of it, oldest first. -/
structure Ledger where
  memory : Memory
  blocks : List Block
  /-- The blocks of the stack above whose end the top has been since they were handed out. -/
  live : List Block

namespace Ledger

def blank (memory : Memory) : Ledger := ⟨memory, [], []⟩

/-- Tells whether an operation moves the top of the stack below the end of a block, by closing a frame
or by restoring the top. -/
def drops (m : Memory) (op : Operation) (b : Block) : Bool :=
  op.givesBack && decide ((Memory.next m op).stack.top < b.stop)

def record (l : Ledger) (op : Operation) : Ledger :=
  let handedOut := (l.memory.handedOut? op).toList
  { memory := Memory.next l.memory op
    blocks := l.blocks ++ handedOut
    live := l.live.filter (!drops l.memory op ·) ++ handedOut.filter (·.region = .stack) }

def recorded (l : Ledger) (ops : List Operation) : Ledger := ops.foldl record l

def of (l : Ledger) (kind : RegionKind) : List Block := l.blocks.filter (·.region = kind)

/-- Where the blocks lie: those of the static region side by side up to its top, those of the stack
inside of it, and the live ones one above the other below its top. -/
structure Sound (l : Ledger) : Prop where
  wellFormed : l.memory.WellFormed
  roomy : ∀ b ∈ l.blocks, b.start + b.requested ≤ b.stop
  tiled : Tiles l.memory.statics.base (l.of .static) l.memory.statics.top
  onStack : ∀ b ∈ l.of .stack, l.memory.stack.base ≤ b.start ∧ b.stop ≤ l.memory.stack.limit
  live_sublist : l.live.Sublist (l.of .stack)
  stacked : l.live.Pairwise fun a b => a.stop ≤ b.start
  below : ∀ b ∈ l.live, b.stop ≤ l.memory.stack.top

end Ledger

/-! ### Blocks side by side -/

variable {start stop : Nat} {blocks : List Block} {block : Block} {op : Operation} {l : Ledger}

/-- A block that starts where the last one ends adds to the row. -/
theorem Tiles.concat (tiles : Tiles start blocks stop) (starts : block.start = stop)
    (le : block.start ≤ block.stop) : Tiles start (blocks ++ [block]) block.stop := by
  induction blocks generalizing start with
  | nil => exact ⟨starts.trans (Eq.symm tiles), le, rfl⟩
  | cons first rest ih =>
    obtain ⟨first_start, first_le, others⟩ := tiles
    exact ⟨first_start, first_le, ih others⟩

theorem Tiles.start_le (tiles : Tiles start blocks stop) : ∀ b ∈ blocks, start ≤ b.start := by
  induction blocks generalizing start with
  | nil => exact nofun
  | cons first rest ih =>
    obtain ⟨first_start, first_le, others⟩ := tiles
    refine List.forall_mem_cons.mpr ⟨Nat.le_of_eq first_start.symm, fun b member => ?_⟩
    have := ih others b member
    omega

/-- Blocks that lie side by side do not overlap. -/
theorem Tiles.pairwise (tiles : Tiles start blocks stop) : blocks.Pairwise Block.Apart := by
  induction blocks generalizing start with
  | nil => exact .nil
  | cons first rest ih =>
    obtain ⟨-, -, others⟩ := tiles
    exact .cons (fun b member => .inl (others.start_le b member)) (ih others)

/-! ### What an operation adds to the ledger -/

namespace Ledger

@[simp] theorem of_record (l : Ledger) (op : Operation) (kind : RegionKind) :
    (l.record op).of kind =
      l.of kind ++ (l.memory.handedOut? op).toList.filter (·.region = kind) :=
  List.filter_append ..

theorem recorded_memory (l : Ledger) (ops : List Operation) :
    (l.recorded ops).memory = Memory.reached ops l.memory := by
  induction ops generalizing l with
  | nil => rfl
  | cons op rest ih => exact ih (l.record op)

theorem blank_sound {m : Memory} (sound : m.WellFormed)
    (unused : m.statics.top = m.statics.base) : (blank m).Sound where
  wellFormed := sound
  roomy := nofun
  tiled := unused.symm
  onStack := nofun
  live_sublist := .slnil
  stacked := .nil
  below := nofun

/-- Blocks that stay live keep below the top of the stack. -/
theorem Sound.stop_le_of_kept (sound : l.Sound) {b : Block}
    (kept : b ∈ l.live.filter (!drops l.memory op ·)) :
    b.stop ≤ (Memory.next l.memory op).stack.top := by
  obtain ⟨member, undropped⟩ := List.mem_filter.mp kept
  cases gives : op.givesBack with
  | true => simpa [drops, gives] using undropped
  | false =>
    have stop_le := sound.below b member
    have top_le := Memory.stack_top_le_next sound.wellFormed.toOrderly gives
    omega

/-- A block of the static region joins those that lie side by side. -/
theorem Sound.tiled_record (sound : l.Sound)
    (base : (Memory.next l.memory op).statics.base = l.memory.statics.base) :
    Tiles (Memory.next l.memory op).statics.base ((l.record op).of .static)
      (Memory.next l.memory op).statics.top := by
  rw [base, of_record]
  cases found : l.memory.handedOut? op with
  | none =>
    have same : (Memory.next l.memory op).statics.top = l.memory.statics.top :=
      Memory.top_of_handedOut?_eq_none sound.wellFormed found .static nofun
    simpa [same] using sound.tiled
  | some b =>
    obtain ⟨start_eq, stop_eq, fits, others⟩ :=
      Memory.handedOut?_spec sound.wellFormed.toOrderly found
    cases kind : b.region with
    | stack =>
      have same : (Memory.next l.memory op).statics = l.memory.statics :=
        others .static (by simp [kind])
      simpa [same, kind] using sound.tiled
    | static =>
      rw [kind] at start_eq stop_eq
      have stop_eq : b.stop = (Memory.next l.memory op).statics.top := stop_eq
      have tiled := sound.tiled.concat start_eq (by omega)
      rw [stop_eq] at tiled
      simpa [kind] using tiled

/-- A ledger stays sound as long as no policy lets the stack grow. -/
theorem Sound.record (sound : l.Sound) (fixed : op.growsStack = false) : (l.record op).Sound := by
  have orderly := sound.wellFormed.toOrderly
  have ordered : l.memory.stack.Ordered := orderly.ordered .stack
  have change := Memory.step_change l.memory orderly op
  obtain ⟨nextSound, bounds⟩ := change.wellFormed sound.wellFormed fixed
  obtain ⟨base, limit, staticsBase, -⟩ := Memory.bounds_eq_iff.mp bounds
  have nextOrdered : (Memory.next l.memory op).stack.Ordered := nextSound.ordered .stack
  have base_le_top := ordered.base_le_top
  have top_le_limit := nextOrdered.top_le_limit
  -- a new block of the stack lies between the old top and the new one
  have fresh (b : Block) (member : b ∈ (l.memory.handedOut? op).toList.filter (·.region = .stack)) :
      b.start = l.memory.stack.top ∧ b.stop = (Memory.next l.memory op).stack.top := by
    obtain ⟨found, kind⟩ := List.mem_filter.mp member
    obtain ⟨start_eq, stop_eq, -⟩ :=
      Memory.stack_of_handedOut? orderly (Option.mem_toList.mp found) (of_decide_eq_true kind)
    exact ⟨start_eq, stop_eq⟩
  refine
    { wellFormed := nextSound
      roomy := ?roomy
      tiled := sound.tiled_record staticsBase
      onStack := ?onStack
      live_sublist := ?live_sublist
      stacked := ?stacked
      below := ?below }
  case roomy =>
    intro b member
    obtain old | new := List.mem_append.mp member
    · exact sound.roomy b old
    · exact (Memory.handedOut?_spec orderly (Option.mem_toList.mp new)).2.2.1
  case onStack =>
    intro b member
    show (Memory.next l.memory op).stack.base ≤ b.start ∧
      b.stop ≤ (Memory.next l.memory op).stack.limit
    rw [of_record] at member
    obtain old | new := List.mem_append.mp member
    · have inside := sound.onStack b old
      rwa [← base, ← limit] at inside
    · obtain ⟨start_eq, stop_eq⟩ := fresh b new
      have base : (Memory.next l.memory op).stack.base = l.memory.stack.base := base
      omega
  case live_sublist =>
    rw [of_record]
    exact (List.filter_sublist.trans sound.live_sublist).append_right _
  case stacked =>
    refine List.pairwise_append.mpr ⟨sound.stacked.filter _, ?_, ?_⟩
    · cases l.memory.handedOut? op with
      | none => exact .nil
      | some b => exact (List.pairwise_singleton _ b).filter _
    · intro a kept b new
      have stop_le := sound.below a (List.mem_filter.mp kept).1
      obtain ⟨start_eq, -⟩ := fresh b new
      omega
  case below =>
    intro b member
    obtain kept | new := List.mem_append.mp member
    · exact sound.stop_le_of_kept kept
    · exact Nat.le_of_eq (fresh b new).2

/-- Every operation keeps the ledger sound. -/
theorem Sound.recorded (sound : l.Sound) {ops : List Operation}
    (fixed : ∀ op ∈ ops, op.growsStack = false) : (l.recorded ops).Sound := by
  induction ops generalizing l with
  | nil => exact sound
  | cons op rest ih =>
    obtain ⟨first, others⟩ := List.forall_mem_cons.mp fixed
    exact ih (sound.record first) others

end Ledger

namespace Memory

/-- Wherever operations lead from the memory that settings describe, whatever the grower answers, the
blocks of the static region lie side by side from its base up to its top, in the order in which they
were handed out; the blocks of the stack lie between its base and its limit, so apart from those and
not at address 0; every block has at least the size that was asked for; and blocks of the stack that
are both live do not overlap. Only a policy that lets the stack grow is left out. -/
theorem blocks_apart {c : Config} {grower : Grower} {start : Memory}
    (created : create c grower = .ok start) (ops : List Operation)
    (fixed : ∀ op ∈ ops, op.growsStack = false) :
    let m := reached ops start
    let ledger := (Ledger.blank start).recorded ops
    m.statics.base = start.statics.base ∧
    Tiles m.statics.base (ledger.of .static) m.statics.top ∧
    (ledger.of .static).Pairwise Block.Apart ∧
    (∀ b ∈ ledger.blocks, b.start + b.requested ≤ b.stop) ∧
    (∀ b ∈ ledger.of .stack, m.stack.base ≤ b.start ∧ b.stop ≤ m.stack.limit ∧ 0 < b.start) ∧
    (∀ a ∈ ledger.of .stack, ∀ b ∈ ledger.of .static, a.Apart b) ∧
    ledger.live.Sublist (ledger.of .stack) ∧ ledger.live.Pairwise Block.Apart := by
  obtain ⟨valid, rfl⟩ := create_eq_ok.mp created
  have startSound := ofLayout_wellFormed valid grower
  intro m ledger
  have sound : ledger.Sound := (Ledger.blank_sound startSound rfl).recorded fixed
  have memory : ledger.memory = m := Ledger.recorded_memory ..
  obtain ⟨-, -, staticsBase, -⟩ := by
    simpa only [bounds, Prod.mk.injEq] using (startSound.reached fixed).2
  have tiled := sound.tiled
  have onStack := sound.onStack
  have floor_le := sound.wellFormed.floor_le
  have separate := sound.wellFormed.separate
  rw [memory] at tiled onStack floor_le separate
  refine ⟨staticsBase, tiled, tiled.pairwise, sound.roomy, fun b member => ?_, ?_,
    sound.live_sublist, sound.stacked.imp fun stop_le => .inl stop_le⟩
  · obtain ⟨base_le, le_limit⟩ := onStack b member
    have floor : Config.stackFloor = 8 := rfl
    exact ⟨base_le, le_limit, by omega⟩
  · intro a onA b onB
    have le_limit := (onStack a onA).2
    have base_le := tiled.start_le b onB
    exact .inl (by omega)

/-- A frame is closed, so the blocks in it are given back, while blocks of the static region are taken
for which the memory grows. -/
theorem blocks_apart_growing :
    ∃ start,
      create { checks := .debug, memory := ⟨64, 128, 512⟩ }
        { policy := fun _ _ requested => some requested } = .ok start ∧
      let ops := [.staticAlloc 5, .stackAlloc 4, .enter 8, .alloc ⟨.stack, false, false⟩ 5 7,
        .alloc .static 100 24, .exit (.active 12 1), .allocate .stack 0, .stackAlloc 6]
      let ledger := (Ledger.blank start).recorded ops
      ledger.of .static = [⟨.static, 72, 80, 5⟩, ⟨.static, 80, 192, 100⟩] ∧
      Tiles 72 (ledger.of .static) 192 ∧
      ledger.live = [⟨.stack, 8, 12, 4⟩, ⟨.stack, 12, 12, 0⟩, ⟨.stack, 12, 20, 6⟩] ∧
      ledger.live.Pairwise Block.Apart := by
  obtain ⟨-, tiled, -, -, -, -, -, apart⟩ := blocks_apart
    (create_of_validate (c := { checks := .debug, memory := ⟨64, 128, 512⟩ }) rfl
      { policy := fun _ _ requested => some requested })
    [.staticAlloc 5, .stackAlloc 4, .enter 8, .alloc ⟨.stack, false, false⟩ 5 7,
      .alloc .static 100 24, .exit (.active 12 1), .allocate .stack 0, .stackAlloc 6] (by decide)
  exact ⟨_, create_of_validate rfl _, rfl, tiled, rfl, apart⟩

end Memory

end LinearHost
