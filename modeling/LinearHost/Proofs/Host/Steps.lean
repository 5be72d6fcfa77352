import LinearHost.Proofs.Host.Record
import LinearHost.Proofs.Memory.Encoding
import LinearHost.Proofs.Memory.Upkeep

/-!
# What a program does with a host

A program calls a host, and it reads and writes the memory of the host itself. Whatever a call does,
it changes the memory in one of few ways: by one operation that puts no bytes anywhere, by putting a
64-bit result into the scratch slot, or by putting a text into a block that it has just taken.

## Main definitions

* `HostStep`, `Host.advance`, `Host.reached`: calls and operations on the memory, and runs of them.
* `Host.Effect`, `Host.perform_effect`: what a call does to the memory.
* `Host.Sound`: the memory is well formed, and the scratch slot lies in a block of it.
-/

namespace LinearHost

/-! ### Steps of a program -/

/-- A step of a program: a call, or an operation on the memory of the host. -/
inductive HostStep where
  | call (c : HostCall)
  | memory (op : Operation)

def HostStep.growsStack : HostStep → Bool
  | .call _ => false
  | .memory op => op.growsStack

/-- Apart from what calls do, nothing is put at the addresses from `start` up to `stop`. -/
def HostStep.Avoids (start stop : Nat) : HostStep → Prop
  | .call _ => True
  | .memory op => op.Avoids start stop

instance (start stop : Nat) : ∀ step : HostStep, Decidable (step.Avoids start stop)
  | .call _ => .isTrue trivial
  | .memory op => inferInstanceAs (Decidable (op.Avoids start stop))

namespace Host

variable {h : Host}

def advance (h : Host) : HostStep → Host
  | .call c => (perform c h).state
  | .memory op => { h with memory := Memory.next h.memory op }

def reached (steps : List HostStep) (h : Host) : Host :=
  steps.foldl advance h

/-- What every allowed step keeps holds wherever allowed steps lead. -/
theorem reached_induction (allowed : HostStep → Prop) (invariant : Host → Prop)
    (kept : ∀ h step, invariant h → allowed step → invariant (advance h step))
    {steps : List HostStep} (all : ∀ step ∈ steps, allowed step) (holds : invariant h) :
    invariant (reached steps h) := by
  induction steps generalizing h with
  | nil => exact holds
  | cons step rest ih =>
    obtain ⟨first, others⟩ := List.forall_mem_cons.mp all
    exact ih others (kept h step holds first)

/-! ### What a call does to the memory -/

def parts (h : Host) : Parts where
  memory := h.memory
  types := h.types
  switchboard := h.switchboard

theorem around_parts (h : Host) : Around h.config h.scratch h h.parts :=
  ⟨rfl, rfl, rfl, rfl, rfl, rfl, rfl, rfl⟩

inductive Effect (h : Host) : Memory → Prop where
  | unchanged : Effect h h.memory
  | silent {op : Operation} (fixed : op.growsStack = false) (nowhere : op.destination.2 = 0) :
      Effect h (Memory.next h.memory op)
  | shifted (w : WordPair) : Effect h (Memory.next h.memory (.store h.scratch (.i64 w)))
  /-- Bytes are put into a block that was taken for them. -/
  | stored {region : RegionKind} {bytes : List UInt8} {address : Nat}
      (taken : (Memory.step (.allocate region bytes.length) h.memory).result =
        .ok (.address address)) :
      Effect h (Memory.next (Memory.next h.memory (.allocate region bytes.length))
        (.write address bytes))

end Host

namespace Parts

variable {α β : Type}

theorem memory_onMemory (x : Action Memory α) (p : Parts) :
    (onMemory x p).state.memory = (x p.memory).state := rfl

def place (bytes : List UInt8) (region : RegionKind) : Action Parts Nat := do
  let address ← onMemory (Memory.allocate region bytes.length)
  onMemory (Memory.write address bytes)
  return address

theorem storeText_eq (text : String) (region : RegionKind) :
    storeText text region = place (encode text ++ [0]) region := rfl

/-- Bytes are put into the block that is taken for them, unless there is none. -/
theorem place_cases (p : Parts) (bytes : List UInt8) (region : RegionKind) :
    let outcome := place bytes region p
    let room := Memory.next p.memory (.allocate region bytes.length)
    (∃ fault, outcome.result = .error fault ∧ outcome.state.memory = room) ∨
      ∃ address,
        (Memory.step (.allocate region bytes.length) p.memory).result = .ok (.address address) ∧
        outcome.result = (Memory.write address bytes room).result.map (fun _ => address) ∧
        outcome.state.memory = Memory.next room (.write address bytes) := by
  intro outcome room
  have allocated : (onMemory (Memory.allocate region bytes.length) p).state =
      { p with memory := room } :=
    congrArg (fun memory => { p with memory }) (Memory.next_allocate ..).symm
  have answered : (Memory.step (.allocate region bytes.length) p.memory).result =
      (onMemory (Memory.allocate region bytes.length) p).result.map .address :=
    Action.result_bind_pure ..
  have result : outcome.result = _ := Action.result_bind ..
  have state : outcome.state = _ := Action.state_bind ..
  rw [allocated] at result state
  cases taken : (onMemory (Memory.allocate region bytes.length) p).result with
  | error fault =>
    rw [taken] at result state
    exact .inl ⟨fault, result, congrArg Parts.memory state⟩
  | ok address =>
    rw [taken] at result state answered
    simp only [Action.result_bind_pure, Action.state_bind_pure] at result state
    refine .inr ⟨address, answered, result, (congrArg Parts.memory state).trans ?_⟩
    exact (Memory.next_eq_state (f := fun _ => .done) rfl room).symm

def Aside (x : Action Parts α) : Prop := ∀ p, (x p).state.memory = p.memory

theorem Aside.pure (a : α) : Aside (Pure.pure a) := fun _ => rfl

theorem Aside.ofExcept (result : Except Fault α) : Aside (Action.ofExcept result) := fun _ => rfl

theorem Aside.onTypes (x : Action Registry α) : Aside (Parts.onTypes x) := fun _ => rfl

theorem Aside.onSwitchboard (x : Action Switchboard α) : Aside (Parts.onSwitchboard x) :=
  fun _ => rfl

theorem Aside.get_bind {f : Parts → Action Parts α} (aside : ∀ p, Aside (f p)) :
    Aside (Action.get >>= f) :=
  fun p => aside p p

theorem Aside.bind {x : Action Parts α} {f : α → Action Parts β} (first : Aside x)
    (second : ∀ a, Aside (f a)) : Aside (x >>= f) := by
  intro p
  rw [Action.state_bind]
  split
  · rw [second, first]
  · exact first p

theorem Aside.andPure {x : Action Parts α} (aside : Aside x) (f : α → β) :
    Aside (do return f (← x)) :=
  aside.bind fun _ => .pure _

end Parts

namespace Host

variable {h : Host}

/-- A shift writes to the slot or leaves the memory alone. -/
theorem shift_effect (h : Host) (w : WordPair) (op : ShiftOp) (bits : Nat) :
    Effect h (Parts.shift h.scratch w op bits h.parts).state.memory := by
  unfold Parts.shift
  cases w.shift op bits with
  | error fault => exact .unchanged
  | ok shifted =>
    have store : Memory.next h.memory (.store h.scratch (.i64 shifted)) =
        (Memory.store h.scratch (.i64 shifted) h.memory).state :=
      Memory.next_eq_state (f := fun _ => .done) rfl h.memory
    rw [Action.state_bind, Action.ofExcept_apply]
    dsimp only
    rw [Action.state_bind_pure, Parts.memory_onMemory, Host.parts, ← store]
    exact .shifted shifted

/-- To store a text takes a block and writes to it. -/
theorem storeText_effect (h : Host) (text : String) (region : RegionKind) :
    Effect h (Parts.storeText text region h.parts).state.memory := by
  rw [Parts.storeText_eq]
  obtain ⟨fault, -, state⟩ | ⟨address, taken, -, state⟩ := Parts.place_cases h.parts _ region
  · rw [state]
    exact .silent rfl rfl
  · rw [state]
    exact .stored taken

/-- A call on the parts of a host has an effect of these on the memory. -/
theorem parts_effect (h : Host) (call : HostCall) :
    Effect h (Parts.perform h.config h.scratch call h.parts).state.memory := by
  have aside {α : Type} {x : Action Parts α} (aside : Parts.Aside x) (f : α → HostReply) :
      Effect h ((do return f (← x)) h.parts : Outcome ..).state.memory := by
    rw [aside.andPure f]
    exact .unchanged
  have single {α : Type} {x : Action Memory α} {g : α → Answer} (f : α → HostReply) (op : Operation)
      (same : Memory.step op = do return g (← x)) (fixed : op.growsStack = false)
      (nowhere : op.destination.2 = 0) :
      Effect h ((do return f (← Parts.onMemory x)) h.parts : Outcome ..).state.memory := by
    rw [Action.state_bind_pure, Parts.memory_onMemory]
    exact Memory.next_eq_state same h.memory ▸ .silent fixed nowhere
  cases call with
  | stackAlloc size => exact single _ (.stackAlloc size) rfl rfl rfl
  | staticAlloc size => exact single _ (.staticAlloc size) rfl rfl rfl
  | allocate region size => exact single _ (.allocate region size) rfl rfl rfl
  | enter initial => exact single _ (.enter initial) rfl rfl rfl
  | enterForced initial => exact single _ (.enterForced initial) rfl rfl rfl
  | exit frame => exact single (fun _ => .done) (g := fun _ => .done) (.exit frame) rfl rfl rfl
  | save => exact .unchanged
  | restore top => exact single (fun _ => .done) (g := fun _ => .done) (.restore top) rfl rfl rfl
  | parseType text => exact aside (.get_bind fun _ => .ofExcept _) _
  | registerStruct name fields packed =>
    exact aside (.get_bind fun _ => .bind (.ofExcept _) fun _ => .onTypes _) _
  | resolve names typeName base => exact aside (.get_bind fun _ => .ofExcept _) _
  | inlineOffsets fields =>
    exact aside (.get_bind fun _ => .bind (.ofExcept _) fun _ => .pure _) _
  | toUnsigned value bits => exact aside (.ofExcept _) _
  | toSigned value bits => exact aside (.ofExcept _) _
  | shift w op bits =>
    rw [Parts.perform, Action.state_bind_pure]
    exact shift_effect h w op bits
  | registerFunction f => exact aside (.onSwitchboard _) _
  | call signature index arguments =>
    exact aside (.bind (.ofExcept _) fun _ => .onSwitchboard _) _
  | wrapper index signature => exact aside (.bind (.ofExcept _) fun _ => .onSwitchboard _) _
  | warnOnce message => exact aside (.onSwitchboard _) _
  | storeText text region =>
    rw [Parts.perform, Action.state_bind_pure]
    exact storeText_effect h text region
  | loadText address => exact aside (.get_bind fun _ => .ofExcept _) _

/-- Every call has one of these effects on the memory. -/
theorem perform_effect (h : Host) (call : HostCall) : Effect h (perform call h).state.memory := by
  have around := ((perform_inStep call).agree h.around_parts).2
  rw [around.memory]
  exact parts_effect h call

theorem scratch_advance (h : Host) (step : HostStep) : (advance h step).scratch = h.scratch := by
  cases step with
  | call c => exact ((perform_inStep c).agree h.around_parts).2.scratch
  | memory op => rfl

/-! ### The scratch slot -/

/-- The memory is well formed, and the scratch slot lies in the part of the static region that is in
use. -/
structure Sound (h : Host) : Prop where
  wellFormed : h.memory.WellFormed
  base_le : h.memory.statics.base ≤ h.scratch
  le_top : h.scratch + 8 ≤ h.memory.statics.top

theorem sound_of_build {b : Builder} {events : List Event} (built : b.build = .ok (h, events)) :
    h.Sound := by
  obtain ⟨c, memory, scratch, -, created, reserved, rfl⟩ := Builder.build_eq_ok built
  obtain ⟨valid, rfl⟩ := Memory.create_eq_ok.mp created
  have start := Memory.ofLayout_wellFormed valid (b.grower.getD (Memory.defaultGrower c))
  generalize Memory.ofLayout c (b.grower.getD (Memory.defaultGrower c)) = memory at reserved start ⊢
  have taken := Memory.next_staticAlloc 8 memory
  have answered : (Memory.step (.staticAlloc 8) memory).result = .ok (.address scratch) := by
    rw [Memory.step, Action.result_bind_pure, reserved]
    rfl
  -- the slot starts at the old top of the static region
  have handed := Memory.step_handed start.toOrderly rfl answered
  obtain ⟨start_eq, fits, -⟩ := handed.spec rfl
  rw [taken] at fits
  refine ⟨taken ▸ (Memory.wellFormed_next start rfl).1, ?_, fits⟩
  have base : (Memory.next memory (.staticAlloc 8)).statics.base = memory.statics.base :=
    Memory.base_region_next start rfl .static
  rw [taken] at base
  calc (Memory.staticAlloc 8 memory).state.statics.base
      = memory.statics.base := base
    _ ≤ memory.statics.top := (start.ordered .static).base_le_top
    _ = scratch := start_eq.symm

/-- A host stays sound under an operation on its memory. -/
theorem Sound.next {op : Operation} (sound : h.Sound) (fixed : op.growsStack = false) :
    Sound { h with memory := Memory.next h.memory op } := by
  have base : (Memory.next h.memory op).statics.base = h.memory.statics.base :=
    Memory.base_region_next sound.wellFormed fixed .static
  refine ⟨(Memory.wellFormed_next sound.wellFormed fixed).1, ?_, ?_⟩
  · exact Nat.le_trans (Nat.le_of_eq base) sound.base_le
  · exact Nat.le_trans sound.le_top (Memory.statics_top_le_next sound.wellFormed op)

theorem Sound.effect {after : Memory} (sound : h.Sound) (effect : Effect h after) :
    Sound { h with memory := after } := by
  cases effect with
  | unchanged => exact sound
  | silent fixed nowhere => exact sound.next fixed
  | shifted w => exact sound.next rfl
  | @stored region bytes _ taken =>
    have room : Sound { h with memory := Memory.next h.memory (.allocate region bytes.length) } :=
      sound.next rfl
    exact room.next rfl

/-- One step keeps a host sound unless it lets the stack grow. -/
theorem Sound.advance (sound : h.Sound) {step : HostStep} (fixed : step.growsStack = false) :
    (h.advance step).Sound := by
  cases step with
  | memory op => exact sound.next fixed
  | call c =>
    have kept := sound.effect (h.perform_effect c)
    have scratch := h.scratch_advance (.call c)
    exact ⟨kept.wellFormed, scratch ▸ kept.base_le, scratch ▸ kept.le_top⟩

theorem Sound.reached (sound : h.Sound) {steps : List HostStep}
    (fixed : ∀ step ∈ steps, step.growsStack = false) : (reached steps h).Sound :=
  reached_induction (·.growsStack = false) Sound (fun _ _ sound fixed => sound.advance fixed) fixed
    sound

end Host

end LinearHost
