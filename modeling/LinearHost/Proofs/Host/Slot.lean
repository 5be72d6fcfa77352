import LinearHost.Proofs.Arithmetic.Shifts
import LinearHost.Proofs.Host.Steps
import LinearHost.Proofs.Memory.Scalars

/-!
# The scratch slot

A host keeps the first block of the static region for itself. Static blocks are never given back, so
whatever a program does, the slot stays in use, and every block that is taken later lies beside it.
A result that a shift puts there is always found again, and nothing else changes.

## Main definitions

* `Host.slot`: the scratch slot as a block.
* `Host.taken?`: the block that a step of a program takes.
* `Host.Slotted`: the slot is in use, and ends at an address.
* `Host.slot_stays_private`: what holds of the slot wherever a program leads.
-/

namespace LinearHost

/-! ### The blocks that steps take -/

def HostReply.start? : HostReply → Option Nat
  | .address a => some a
  | .frame f => f.savedTop?
  | _ => none

def HostCall.wants? : HostCall → Option (RegionKind × Nat)
  | .stackAlloc size | .enter size | .enterForced size => some (.stack, size)
  | .staticAlloc size => some (.static, size)
  | .allocate region size => some (region, size)
  | .storeText text region => some (region, (encode text ++ [0]).length)
  | _ => none

namespace Host

variable {h : Host} {step : HostStep} {block : Block} {region : RegionKind} {text : String}
  {bits : Nat}

def slot (h : Host) : Block where
  region := .static
  start := h.scratch
  stop := h.scratch + 8
  requested := 8

/-- The block that a step takes: from the address that it answers up to where it leaves the top of
the region. -/
def taken? (h : Host) : HostStep → Option Block
  | .memory op => h.memory.handedOut? op
  | .call c =>
    match c.wants?, (perform c h).result with
    | some (region, size), .ok reply => reply.start?.map fun start =>
      { region
        start
        stop := ((perform c h).state.memory.region region).top
        requested := size }
    | _, _ => none

/-- A call that is one operation on the memory takes the block of that operation. -/
theorem taken?_of_single {α : Type} {x : Action Memory α} {f : α → HostReply} {g : α → Answer}
    {c : HostCall} {policy : Policy} (op : Operation)
    (single : Parts.perform h.config h.scratch c = do return f (← Parts.onMemory x))
    (same : Memory.step op = do return g (← x)) (starts : ∀ a, (f a).start? = (g a).start?)
    (uses : op.policy? = some policy) (wants : c.wants? = some (policy.region, op.requested)) :
    h.taken? (.call c) = h.memory.handedOut? op := by
  obtain ⟨agree, around⟩ := (perform_inStep c).agree h.around_parts
  have result : (perform c h).result = (x h.memory).result.map f := by
    rw [agree_eq_iff.mp agree, single, Action.result_bind_pure]
    rfl
  have memory : (perform c h).state.memory = Memory.next h.memory op := by
    rw [around.memory, single, Action.state_bind_pure, Memory.next_eq_state same]
    rfl
  have answer : (Memory.step op h.memory).result = (x h.memory).result.map g := by
    rw [same, Action.result_bind_pure]
  rw [taken?, Memory.handedOut?, uses, wants, result, memory, answer]
  cases (x h.memory).result with
  | error fault => rfl
  | ok a =>
    dsimp only [Except.map]
    rw [starts a]

/-- A text is put into the block of an allocation. -/
theorem handedOut?_of_storeText (orderly : h.memory.Orderly)
    (found : h.taken? (.call (.storeText text region)) = some block) :
    h.memory.handedOut? (.allocate region (encode text ++ [0]).length) = some block := by
  obtain ⟨agree, around⟩ := (perform_inStep (.storeText text region)).agree h.around_parts
  have result := agree_eq_iff.mp agree
  have memory := around.memory
  rw [Parts.perform, Action.result_bind_pure] at result
  rw [Parts.perform, Action.state_bind_pure] at memory
  rw [Parts.storeText_eq] at result memory
  rw [taken?, HostCall.wants?, result, memory] at found
  generalize encode text ++ [0] = bytes at found ⊢
  obtain ⟨fault, failed, -⟩ | ⟨address, taken, written, state⟩ :=
    Parts.place_cases h.parts bytes region
  · rw [failed] at found
    cases found
  · -- putting the text there moves no top
    have same : (Memory.next (Memory.next h.memory (.allocate region bytes.length))
        (.write address bytes)).region region =
          (Memory.next h.memory (.allocate region bytes.length)).region region :=
      Memory.region_of_policy?_eq_none (orderly.next _) rfl fun _ => rfl
    refine (Memory.handedOut?_allocate (m := h.memory) taken).trans (.trans ?_ found)
    rw [written, state]
    rw [written] at found
    generalize (Memory.write address bytes _).result = answer at found ⊢
    cases answer with
    | error fault => cases found
    | ok => exact congrArg (fun r : Region => some (Block.mk region address r.top _)) same.symm

/-- What a call takes is taken by an operation on the memory. -/
theorem exists_handedOut?_of_taken? (orderly : h.memory.Orderly) (fixed : step.growsStack = false)
    (found : h.taken? step = some block) :
    ∃ op, op.growsStack = false ∧ h.memory.handedOut? op = some block := by
  cases step with
  | memory op => exact ⟨op, fixed, found⟩
  | call c =>
    cases c with
    | stackAlloc size =>
      rw [taken?_of_single (.stackAlloc size) rfl rfl (fun _ => rfl) rfl rfl] at found
      exact ⟨_, rfl, found⟩
    | staticAlloc size =>
      rw [taken?_of_single (.staticAlloc size) rfl rfl (fun _ => rfl) rfl rfl] at found
      exact ⟨_, rfl, found⟩
    | allocate region size =>
      cases region <;>
        rw [taken?_of_single (.allocate _ size) rfl rfl (fun _ => rfl) rfl rfl] at found <;>
        exact ⟨_, rfl, found⟩
    | enter initial =>
      rw [taken?_of_single (.enter initial) rfl rfl (fun _ => rfl) rfl rfl] at found
      exact ⟨_, rfl, found⟩
    | enterForced initial =>
      rw [taken?_of_single (.enterForced initial) rfl rfl (fun _ => rfl) rfl rfl] at found
      exact ⟨_, rfl, found⟩
    | storeText text region => exact ⟨_, rfl, handedOut?_of_storeText orderly found⟩
    | _ => cases found

/-! ### The slot stays in use -/

/-- The slot is in use, and ends at an address. -/
structure Slotted (h : Host) : Prop extends Sound h where
  small : h.scratch + 8 < addressSpace

/-- The slot is never moved. -/
theorem scratch_reached (steps : List HostStep) (h : Host) :
    (reached steps h).scratch = h.scratch :=
  reached_induction (fun _ => True) (·.scratch = h.scratch)
    (fun _ step same _ => (scratch_advance _ step).trans same) (fun _ _ => trivial) rfl

/-- A new host has a slot in the static region. -/
theorem slotted_of_build {b : Builder} {events : List Event} (built : b.build = .ok (h, events)) :
    h.Slotted := by
  refine ⟨sound_of_build built, ?_⟩
  obtain ⟨c, memory, scratch, -, -, reserved, rfl⟩ := Builder.build_eq_ok built
  have allocated := Memory.allocated_of_staticAlloc reserved
  generalize (Memory.staticAlloc 8 memory).state = after at allocated
  cases allocated with
  | taken room inside => exact (Region.blockStop?_eq_some.mp room.blockStop?_eq).1

/-- The slot stays in use as long as the stack does not grow. -/
theorem Slotted.reached (slotted : h.Slotted) {steps : List HostStep}
    (fixed : ∀ step ∈ steps, step.growsStack = false) : (reached steps h).Slotted :=
  ⟨slotted.toSound.reached fixed, (scratch_reached steps h).symm ▸ slotted.small⟩

theorem Slotted.le_size (slotted : h.Slotted) : h.scratch + 8 ≤ h.memory.size := by
  have statics : h.memory.statics.Ordered := slotted.wellFormed.ordered .static
  calc h.scratch + 8
      ≤ h.memory.statics.top := slotted.le_top
    _ ≤ h.memory.statics.limit := statics.top_le_limit
    _ ≤ h.memory.size := slotted.wellFormed.limit_le_size .static

theorem Slotted.inBounds (slotted : h.Slotted) : h.memory.inBounds h.scratch 8 = true :=
  Memory.inBounds_iff.mpr ⟨slotted.small, slotted.le_size⟩

/-- A block that is taken lies beside the slot. -/
theorem Slotted.apart (slotted : h.Slotted) (fixed : step.growsStack = false)
    (found : h.taken? step = some block) : block.Apart h.slot := by
  obtain ⟨op, fixed, found⟩ :=
    exists_handedOut?_of_taken? slotted.wellFormed.toOrderly fixed found
  have base_le : (h.memory.region .static).base ≤ h.scratch := slotted.base_le
  exact (Memory.beside_of_handedOut? slotted.wellFormed fixed found base_le slotted.le_top).symm

/-! ### Results in the slot -/

structure Shifted (h : Host) (w : WordPair) (after : Host) : Prop where
  load_eq : after.memory.load .i64 h.scratch = .ok (.i64 w)
  beside : ∀ a, a < h.scratch ∨ h.scratch + 8 ≤ a →
    after.memory.image.cell? a = h.memory.image.cell? a
  size_eq : after.memory.size = h.memory.size
  rest : after = { h with memory := { h.memory with image := after.memory.image } }

theorem shift_of_le (w : WordPair) (op : ShiftOp) (large : 64 ≤ bits) (h : Host) :
    (shift w op bits h).result = .error (.invalidShift bits) ∧
      (shift w op bits h).state.memory = h.memory := by
  rw [shift, result_recording, state_recording, w.shift_of_le op large]
  exact ⟨rfl, rfl⟩

/-- A shift that is not refused finds room for its result. -/
theorem Slotted.shift_apply (slotted : h.Slotted) {w shifted : WordPair} {op : ShiftOp}
    (answer : w.shift op bits = .ok shifted) :
    (shift w op bits h).result = .ok shifted ∧
      (shift w op bits h).state =
        { h with memory := h.memory.written h.scratch (Scalar.i64 shifted).encode } := by
  have stored : Memory.store h.scratch (.i64 shifted) h.memory = _ :=
    (Memory.store_apply ..).trans (if_pos slotted.inBounds)
  rw [shift, result_recording, state_recording, answer]
  simp [Action.bind_apply, onMemory, stored]

/-- A shift answers the exact result and leaves it in the slot. -/
theorem Slotted.shift_of_lt (slotted : h.Slotted) (w : WordPair) (op : ShiftOp)
    (small : bits < 64) :
    ∃ shifted, (shift w op bits h).result = .ok shifted ∧
      (shifted.toUInt64.toNat : Int) = op.exact w bits ∧
      h.Shifted shifted (shift w op bits h).state := by
  obtain ⟨shifted, answer, row⟩ := w.shift_onBits op small
  obtain ⟨result, state⟩ := slotted.shift_apply answer
  have stored := Memory.stored_written (x := .i64 shifted) slotted.inBounds
  refine ⟨shifted, result, ?_, ?_⟩
  · rw [WordPair.toNat_toUInt64, ← WordPair.toNat_toBitVec, row, ShiftOp.toNat_onBits]
  · rw [state]
    refine ⟨stored.load_eq, fun a beside => ?_, stored.size_eq, rfl⟩
    have width : (Scalar.i64 shifted).encode.length = 8 := Scalar.length_encode _
    rw [Memory.cell?_written, width, if_neg (by omega)]

/-- Whatever a program has done with a host that was built, for any settings and any grower, as long
as no policy has let the stack grow: the scratch slot is where it was, in the part of the static
region that is in use and inside the memory, and no step takes a block that overlaps it. So a shift
is refused only for more than 63 bits, and then the memory stays as it is. Any other shift answers
the number that a shift of the 64-bit number gives; the same number is loaded from the slot, and
nothing outside the slot is changed. -/
theorem slot_stays_private {b : Builder} {host : Host} {events : List Event}
    (built : b.build = .ok (host, events)) {past : List HostStep}
    (fixed : ∀ step ∈ past, step.growsStack = false) :
    let h := reached past host
    h.scratch = host.scratch ∧
    (h.memory.statics.base ≤ h.scratch ∧ h.scratch + 8 ≤ h.memory.statics.top ∧
      h.scratch + 8 ≤ h.memory.size) ∧
    (∀ step block, step.growsStack = false → h.taken? step = some block → block.Apart h.slot) ∧
    ∀ w op bits,
      let outcome := shift w op bits h
      (64 ≤ bits →
        outcome.result = .error (.invalidShift bits) ∧ outcome.state.memory = h.memory) ∧
      (bits < 64 → ∃ shifted, outcome.result = .ok shifted ∧
        (shifted.toUInt64.toNat : Int) = op.exact w bits ∧ h.Shifted shifted outcome.state) := by
  intro h
  have slotted : h.Slotted := (slotted_of_build built).reached fixed
  refine ⟨scratch_reached past host, ⟨slotted.base_le, slotted.le_top, slotted.le_size⟩,
    fun step block fixed found => slotted.apart fixed found, fun w op bits => ⟨fun large => ?_, ?_⟩⟩
  · exact shift_of_le w op large h
  · exact slotted.shift_of_lt w op

/-- The slot was overwritten and the memory has grown for a block. A text comes to lie behind that
block, and a shift puts its result into the slot again. -/
theorem slot_stays_private_growing :
    ∃ host events,
      (Builder.ofSettings [.config { checks := .debug, memory := ⟨64, 128, 512⟩ },
        .grower { policy := fun _ _ requested => some requested }]).build = .ok (host, events) ∧
      let past : List HostStep := [.memory (.fill 72 7 8), .call (.staticAlloc 100)]
      let h := reached past host
      h.taken? (.call (.storeText "abc" .static)) = some ⟨.static, 180, 184, 4⟩ ∧
        Block.Apart ⟨.static, 180, 184, 4⟩ h.slot ∧
        (shift ⟨1, 2⟩ .left 64 h).result = .error (.invalidShift 64) ∧
        ∃ shifted, (shift ⟨0x80000000, 1⟩ .left 1 h).result = .ok shifted ∧
          shifted.toUInt64.toNat = 0x300000000 ∧
          (shift ⟨0x80000000, 1⟩ .left 1 h).state.memory.load .i64 72 = .ok (.i64 shifted) := by
  refine ⟨_, _, rfl, ?_⟩
  intro past h
  obtain ⟨-, -, apart, shifts⟩ := slot_stays_private
    (show (Builder.ofSettings [.config { checks := .debug, memory := ⟨64, 128, 512⟩ },
      .grower { policy := fun _ _ requested => some requested }]).build = .ok (_, _) from rfl)
    (show ∀ step ∈ past, step.growsStack = false by decide)
  have taken : h.taken? (.call (.storeText "abc" .static)) = some ⟨.static, 180, 184, 4⟩ := by
    decide
  obtain ⟨shifted, answer, number, slot⟩ := (shifts ⟨0x80000000, 1⟩ .left 1).2 (by decide)
  have expected : ShiftOp.left.exact ⟨0x80000000, 1⟩ 1 = 0x300000000 := by decide
  exact ⟨taken, apart _ _ rfl taken, ((shifts ⟨1, 2⟩ .left 64).1 (by decide)).1, shifted, answer,
    by omega, slot.load_eq⟩

end Host

end LinearHost
