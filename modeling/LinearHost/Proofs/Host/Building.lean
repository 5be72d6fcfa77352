import LinearHost.Proofs.Arithmetic.Rounding
import LinearHost.Proofs.Host.Record
import LinearHost.Proofs.Memory.Capacity
import LinearHost.Proofs.Memory.Fresh
import Mathlib.Data.List.Induction

/-!
# Which hosts are built

Settings ask for a host, each of them for a part of it, and what is set last about a part counts. A
host is built from them if its memory can be divided as they ask: the stack from the first address
that is free, the scratch slot after it, and both within the memory that there may be. Otherwise the
settings are refused, or the slot finds no room.

## Main definitions

* `HostRequest`, `HostRequest.ofSettings`: what settings ask for, each part as it is set last.
* `HostRequest.slot`, `HostRequest.slotEnd`: where the scratch slot is to lie.
* `HostRequest.Agrees`: the stack fits into the memory at the start.
* `HostRequest.Met`: a host as it was asked for.
* `Builder.build_iff_fits`: which hosts are built.
-/

namespace LinearHost

variable {α : Type} {q : Quantum} {n : Nat}

/-! ### What is refused -/

namespace Quantum

theorem bytes_eq (q : Quantum) : q.bytes = 2 ^ q.log2.val :=
  Nat.one_shiftLeft _

/-- A quantum is a power of two of at most 64. -/
theorem exists_bytes_iff : (∃ q : Quantum, q.bytes = n) ↔ n.isPowerOfTwo ∧ n ≤ 64 := by
  constructor
  · rintro ⟨q, rfl⟩
    refine ⟨⟨q.log2, q.bytes_eq⟩, ?_⟩
    rw [bytes_eq]
    exact Nat.pow_le_pow_right Nat.two_pos (Nat.le_of_lt_succ q.log2.isLt)
  · rintro ⟨⟨k, rfl⟩, le⟩
    have small : k ≤ 6 := (Nat.pow_le_pow_iff_right Nat.one_lt_two).mp le
    exact ⟨⟨⟨k, by omega⟩⟩, bytes_eq _⟩

/-- Every quantum is found again by its number of bytes. -/
theorem ofBytes_bytes (q : Quantum) : ofBytes q.bytes = .ok q := by
  obtain ⟨log2⟩ := q
  revert log2
  decide

/-- Every other number is refused. -/
theorem ofBytes_eq_error (unknown : ¬ ∃ q : Quantum, q.bytes = n) :
    ofBytes n = .error (.invalidConfig (.quantum n)) := by
  have none : (List.finRange 7).find? (fun k => 1 <<< k.val = n) = none := by
    refine List.find?_eq_none.mpr fun k _ same => unknown ⟨⟨k⟩, ?_⟩
    exact of_decide_eq_true same
  rw [ofBytes, none]

end Quantum

/-- Settings that are not accepted contradict each other. -/
theorem Config.exists_of_validate {c : Config} {fault : Fault}
    (failed : c.validate = .error fault) :
    ∃ problem, fault = .invalidConfig problem := by
  rw [validate] at failed
  split at failed
  · cases failed
    exact ⟨_, rfl⟩
  · split at failed
    · cases failed
      exact ⟨_, rfl⟩
    · split at failed <;> cases failed
      exact ⟨_, rfl⟩

/-! ### What settings ask for -/

/-- What is asked for before a host is built. The number of bytes need not be a quantum. -/
structure HostRequest where
  quantum : Nat
  checks : Checks
  dispatch : DispatchMode
  sizes : MemorySizes

namespace Builder.Setting

def quantum? : Setting → Option Nat
  | .config c => some c.quantum.bytes
  | .quantum bytes => some bytes
  | _ => none

/-- What a setting makes of one of the checks, if it concerns that check. -/
def flag? (flag : Checks → Bool) : Setting → Option Bool
  | .config c => some (flag c.checks)
  | .debug => some (flag .debug)
  | .release => some (flag .release)
  | .checks c => some (flag c)
  | .enable c => if flag c then some true else none
  | .disable c => if flag c then some false else none
  | _ => none

def dispatch? : Setting → Option DispatchMode
  | .config c => some c.dispatch
  | .dispatch mode => some mode
  | _ => none

def stack? : Setting → Option Nat
  | .config c => some c.memory.stack
  | .stackSize bytes => some bytes
  | _ => none

def initial? : Setting → Option Nat
  | .config c => some c.memory.initial
  | .initialMemory bytes => some bytes
  | _ => none

def cap? : Setting → Option Nat
  | .config c => some c.memory.cap
  | .maxMemory bytes => some bytes
  | _ => none

def checksAfter (s : Setting) (c : Checks) : Checks where
  assertions := (s.flag? Checks.assertions).getD c.assertions
  strictSigns := (s.flag? Checks.strictSigns).getD c.strictSigns
  stackInvalidation := (s.flag? Checks.stackInvalidation).getD c.stackInvalidation
  skipEmptyFrames := (s.flag? Checks.skipEmptyFrames).getD c.skipEmptyFrames

theorem checksAfter_enable (c d : Checks) : (enable d).checksAfter c = c.union d := by
  have added (x y : Bool) : (if y then some true else none).getD x = (x || y) := by
    cases y <;> simp
  simp only [checksAfter, flag?, added, Checks.union]

theorem checksAfter_disable (c d : Checks) : (disable d).checksAfter c = c.diff d := by
  have removed (x y : Bool) : (if y then some false else none).getD x = (x && !y) := by
    cases y <;> simp
  simp only [checksAfter, flag?, removed, Checks.diff]

def last? (part? : Setting → Option α) (settings : List Setting) : Option α :=
  (settings.filterMap part?).getLast?

/-- The last setting about a part wins. -/
theorem last?_concat (part? : Setting → Option α) (settings : List Setting) (s : Setting) :
    last? part? (settings ++ [s]) = (part? s).or (last? part? settings) := by
  cases set : part? s <;> simp [last?, set]

end Builder.Setting

namespace HostRequest

open Builder (Setting)
open Builder.Setting

def ofSettings (settings : List Setting) : HostRequest :=
  let c : Config := {}
  { quantum := (last? quantum? settings).getD c.quantum.bytes
    checks :=
      { assertions := (last? (flag? Checks.assertions) settings).getD c.checks.assertions
        strictSigns := (last? (flag? Checks.strictSigns) settings).getD c.checks.strictSigns
        stackInvalidation :=
          (last? (flag? Checks.stackInvalidation) settings).getD c.checks.stackInvalidation
        skipEmptyFrames :=
          (last? (flag? Checks.skipEmptyFrames) settings).getD c.checks.skipEmptyFrames }
    dispatch := (last? dispatch? settings).getD c.dispatch
    sizes :=
      { stack := (last? stack? settings).getD c.memory.stack
        initial := (last? initial? settings).getD c.memory.initial
        cap := (last? cap? settings).getD c.memory.cap } }

def after (r : HostRequest) (s : Setting) : HostRequest where
  quantum := s.quantum?.getD r.quantum
  checks := s.checksAfter r.checks
  dispatch := s.dispatch?.getD r.dispatch
  sizes :=
    { stack := s.stack?.getD r.sizes.stack
      initial := s.initial?.getD r.sizes.initial
      cap := s.cap?.getD r.sizes.cap }

/-- One more setting changes the part that it is about. -/
theorem ofSettings_concat (settings : List Setting) (s : Setting) :
    ofSettings (settings ++ [s]) = (ofSettings settings).after s := by
  simp only [ofSettings, after, checksAfter, last?_concat, Option.getD_or]

def config (r : HostRequest) (q : Quantum) : Config where
  quantum := q
  checks := r.checks
  dispatch := r.dispatch
  memory := r.sizes

/-! ### The division of the memory -/

/-- Where the scratch slot is to start: at the first aligned address after the stack. -/
def slot (r : HostRequest) : Nat :=
  alignUp (alignUp Config.stackFloor r.quantum + r.sizes.stack) r.quantum

def slotEnd (r : HostRequest) : Nat :=
  alignUp (r.slot + 8) r.quantum

/-- The settings do not contradict each other. -/
structure Agrees (r : HostRequest) : Prop where
  power : r.quantum.isPowerOfTwo
  quantum_le : r.quantum ≤ 64
  slot_le : r.slot ≤ r.sizes.initial
  initial_le : r.sizes.initial ≤ r.sizes.cap

structure Met (r : HostRequest) (host : Host) : Prop where
  quantum_eq : host.config.quantum.bytes = r.quantum
  config_eq : host.config = r.config host.config.quantum
  scratch_eq : host.scratch = r.slot
  base_eq : host.memory.statics.base = r.slot
  top_eq : host.memory.statics.top = r.slotEnd
  /-- Nothing is in the slot yet. -/
  blank : host.memory.read host.scratch 8 = .ok (List.replicate 8 0)
  stack_eq : host.memory.stack =
    .empty .stack (alignUp Config.stackFloor r.quantum)
      (alignUp Config.stackFloor r.quantum + r.sizes.stack)
  frames_eq : host.memory.frames = []
  /-- The memory is as large as asked for, unless it had to be doubled for the slot. -/
  size_eq : host.memory.size =
    if r.slotEnd ≤ r.sizes.initial then r.sizes.initial
    else min r.sizes.cap (2 * r.sizes.initial)

inductive Answered (r : HostRequest) : Except Fault (Host × List Event) → Prop where
  | refused (clash : ¬ r.Agrees) (problem : ConfigProblem) :
      Answered r (.error (.invalidConfig problem))
  | full (agrees : r.Agrees) (beyond : r.sizes.cap < r.slotEnd) :
      Answered r (.error (.outOfMemory .static 8 r.slot r.sizes.initial))
  | met {host : Host} {events : List Event} (agrees : r.Agrees) (fits : r.slotEnd ≤ r.sizes.cap)
      (met : r.Met host) : Answered r (.ok (host, events))

variable {r : HostRequest}

theorem stackFloor_le_slot (r : HostRequest) : Config.stackFloor ≤ r.slot :=
  calc Config.stackFloor
      ≤ alignUp Config.stackFloor r.quantum := le_alignUp ..
    _ ≤ alignUp Config.stackFloor r.quantum + r.sizes.stack := Nat.le_add_right ..
    _ ≤ r.slot := le_alignUp ..

/-- Doubling once is enough for the slot: what lies below it is not smaller than the slot. -/
theorem slotEnd_le (r : HostRequest) : r.slotEnd ≤ 2 * r.slot := by
  obtain ⟨multiple, -⟩ := (isLeast_alignUp (alignUp Config.stackFloor r.quantum + r.sizes.stack)
    r.quantum).1
  have floor : 8 ≤ r.slot := r.stackFloor_le_slot
  exact (isLeast_alignUp (r.slot + 8) r.quantum).2 ⟨Nat.dvd_mul_left_of_dvd multiple 2, by omega⟩

/-- One doubling is the least that is needed for a slot that does not fit. -/
theorem Agrees.isLeast_doubling (agrees : r.Agrees) (beyond : r.sizes.initial < r.slotEnd) :
    IsLeast {k | r.slotEnd ≤ r.sizes.initial * 2 ^ k} 1 := by
  have slot_le := agrees.slot_le
  have doubled := r.slotEnd_le
  exact isLeast_doubling_succ beyond (isLeast_doubling_zero (by omega))

theorem stackBase_config (bytes : q.bytes = r.quantum) :
    (r.config q).stackBase = alignUp Config.stackFloor r.quantum := by
  rw [← bytes]
  exact q.align_eq Config.stackFloor

/-- The static region starts where the slot is to start. -/
theorem align_config (bytes : q.bytes = r.quantum) :
    q.align ((r.config q).stackBase + r.sizes.stack) = r.slot := by
  rw [stackBase_config bytes, q.align_eq, bytes]
  rfl

/-- Settings agree if they are accepted with the quantum that is asked for. -/
theorem agrees_iff (bytes : q.bytes = r.quantum) (small : r.sizes.cap < addressSpace) :
    r.Agrees ↔ (r.config q).validate = .ok () := by
  have slot : q.align ((r.config q).stackBase + r.sizes.stack) = r.slot := align_config bytes
  have stop_le : (r.config q).stackBase + r.sizes.stack ≤ r.slot := slot ▸ q.le_align _
  rw [Config.validate_eq_ok]
  show _ ↔ (r.config q).stackBase + r.sizes.stack < addressSpace ∧ _ ∧ _
  constructor
  · rintro ⟨-, -, slot_le, initial_le⟩
    exact ⟨by omega, slot ▸ slot_le, initial_le⟩
  · rintro ⟨-, slot_le, initial_le⟩
    obtain ⟨power, quantum_le⟩ := Quantum.exists_bytes_iff.mp ⟨q, bytes⟩
    exact ⟨power, quantum_le, slot ▸ slot_le, initial_le⟩

/-! ### The slot -/

/-- The memory before the slot is taken. -/
def start (r : HostRequest) (q : Quantum) : Memory :=
  .ofLayout (r.config q) (Memory.defaultGrower (r.config q))

theorem stack_start (bytes : q.bytes = r.quantum) :
    (r.start q).stack = .empty .stack (alignUp Config.stackFloor r.quantum)
      (alignUp Config.stackFloor r.quantum + r.sizes.stack) := by
  rw [← stackBase_config bytes]
  rfl

theorem statics_start (bytes : q.bytes = r.quantum) :
    (r.start q).statics = .empty .static r.slot r.sizes.initial := by
  rw [← align_config bytes]
  rfl

theorem size_start (r : HostRequest) (q : Quantum) : (r.start q).size = r.sizes.initial :=
  Image.size_blank _

theorem Agrees.provided_start (agrees : r.Agrees) (bytes : q.bytes = r.quantum)
    (small : r.sizes.cap < addressSpace) : (r.start q).Provided (r.config q) :=
  Memory.provided_start ((agrees_iff bytes small).mp agrees)

/-- The slot is the first block of the static region, and the cap decides whether it is handed out.
The memory stays as large as it is if the slot fits into it, and otherwise is doubled as far as the
cap allows. -/
theorem Agrees.staticAlloc_start (agrees : r.Agrees) (bytes : q.bytes = r.quantum)
    (small : r.sizes.cap < addressSpace) :
    let outcome := Memory.staticAlloc 8 (r.start q)
    (r.slotEnd ≤ r.sizes.cap →
      outcome.result = .ok r.slot ∧ outcome.state.statics.top = r.slotEnd ∧
        outcome.state.size =
          if r.slotEnd ≤ r.sizes.initial then r.sizes.initial
          else min r.sizes.cap (2 * r.sizes.initial)) ∧
    (r.sizes.cap < r.slotEnd →
      outcome.result = .error (.outOfMemory .static 8 r.slot r.sizes.initial)) := by
  have provided := agrees.provided_start bytes small
  have allocated := Memory.staticAlloc_cases provided.toWellFormed 8
  have quantum : (r.start q).quantum.bytes = r.quantum := bytes
  have statics := statics_start bytes
  have size := r.size_start q
  rw [statics, quantum] at allocated
  obtain ⟨within, beyond⟩ := provided.staticAllocated small allocated
  rw [statics] at within beyond
  rw [size] at within
  refine ⟨fun fits => ?_, beyond⟩
  obtain ⟨answer, stop, stays, grows⟩ := within fits
  refine ⟨answer, stop, ?_⟩
  split
  next inside => exact stays inside
  next outside =>
    have full := Nat.lt_of_not_le outside
    obtain ⟨k, least, doubled⟩ := grows full
    obtain rfl := least.unique (agrees.isLeast_doubling full)
    rwa [Nat.pow_one, Nat.mul_comm] at doubled

/-- A host around a slot that ends within the cap is as it was asked for. -/
theorem Agrees.met_assemble (agrees : r.Agrees) (bytes : q.bytes = r.quantum)
    (small : r.sizes.cap < addressSpace) (fits : r.slotEnd ≤ r.sizes.cap) (b : Builder) :
    r.Met (b.assemble (r.config q) (Memory.staticAlloc 8 (r.start q)).state r.slot) := by
  have sound := (agrees.provided_start bytes small).toWellFormed
  obtain ⟨answer, stop, size⟩ := (agrees.staticAlloc_start bytes small).1 fits
  obtain ⟨cleared, read⟩ := (Memory.allocated_of_staticAlloc answer).cleared sound
  have base : (Memory.next (r.start q) (.staticAlloc 8)).statics.base = (r.start q).statics.base :=
    Memory.base_region_next sound rfl .static
  rw [Memory.next_staticAlloc, statics_start bytes] at base
  generalize (Memory.staticAlloc 8 (r.start q)).state = after at stop size cleared read base ⊢
  exact
    { quantum_eq := bytes
      config_eq := rfl
      scratch_eq := rfl
      base_eq := base
      top_eq := stop
      blank := read
      stack_eq := cleared.stack.trans (stack_start bytes)
      frames_eq := cleared.frames
      size_eq := size }

end HostRequest

namespace Builder

def request (b : Builder) : HostRequest where
  quantum := b.quantum.getD b.config.quantum.bytes
  checks := b.config.checks
  dispatch := b.config.dispatch
  sizes := b.config.memory

theorem request_apply (b : Builder) (s : Setting) : (b.apply s).request = b.request.after s := by
  cases s with
  | enable c =>
    exact congrArg (fun checks => { b.request with checks })
      (Setting.checksAfter_enable b.config.checks c).symm
  | disable c =>
    exact congrArg (fun checks => { b.request with checks })
      (Setting.checksAfter_disable b.config.checks c).symm
  | _ => rfl

theorem ofSettings_concat (settings : List Setting) (s : Setting) :
    ofSettings (settings ++ [s]) = (ofSettings settings).apply s := by
  simp [ofSettings]

/-- A builder asks for what its settings ask for. -/
theorem request_ofSettings (settings : List Setting) :
    (ofSettings settings).request = .ofSettings settings := by
  induction settings using List.reverseRecOn with
  | nil => rfl
  | append_singleton settings s ih =>
    rw [ofSettings_concat, request_apply, ih, HostRequest.ofSettings_concat]

/-- What is asked for is taken as it is, apart from the quantum. -/
theorem complete_eq (b : Builder) :
    b.complete = (Quantum.ofBytes b.request.quantum).map b.request.config := by
  rw [complete, request]
  cases b.quantum with
  | none =>
    simp only [Option.getD_none, Quantum.ofBytes_bytes]
    rfl
  | some bytes => rfl

theorem complete_eq_ok {b : Builder} (bytes : q.bytes = b.request.quantum) :
    b.complete = .ok (b.request.config q) := by
  rw [complete_eq, ← bytes, Quantum.ofBytes_bytes]
  rfl

/-- A number of bytes that is no quantum is refused before anything else. -/
theorem complete_eq_error {b : Builder} (unknown : ¬ ∃ q : Quantum, q.bytes = b.request.quantum) :
    b.complete = .error (.invalidConfig (.quantum b.request.quantum)) := by
  rw [complete_eq, Quantum.ofBytes_eq_error unknown]
  rfl

theorem createMemory_eq {b : Builder} (plain : b.grower = none) (c : Config) :
    b.createMemory c = Memory.create c (Memory.defaultGrower c) := by
  rw [createMemory, plain]
  rfl

/-- A grower is only set by a setting. -/
theorem grower_ofSettings {settings : List Setting} (plain : ∀ g, .grower g ∉ settings) :
    (ofSettings settings).grower = none := by
  induction settings using List.reverseRecOn with
  | nil => rfl
  | append_singleton settings s ih =>
    rw [ofSettings_concat]
    have kept := ih fun g member => plain g (by simp [member])
    cases s with
    | grower g => exact absurd (by simp) (plain g)
    | _ => exact kept

/-- A builder without a grower of its own meets its request if the slot fits. -/
theorem build_answered {b : Builder} (plain : b.grower = none)
    (small : b.request.sizes.cap < addressSpace) : b.request.Answered b.build := by
  by_cases known : ∃ q : Quantum, q.bytes = b.request.quantum
  case neg =>
    simp only [build, complete_eq_error known, bind, Except.bind]
    refine .refused (fun agrees => known ?_) _
    exact Quantum.exists_bytes_iff.mpr ⟨agrees.power, agrees.quantum_le⟩
  case pos =>
    obtain ⟨q, bytes⟩ := known
    have completed := complete_eq_ok bytes
    have created := createMemory_eq plain (b.request.config q)
    cases valid : (b.request.config q).validate with
    | error fault =>
      obtain ⟨problem, rfl⟩ := Config.exists_of_validate valid
      simp only [build, completed, created, Memory.create, valid, bind, Except.bind]
      refine .refused (fun agrees => ?_) problem
      cases valid.symm.trans ((HostRequest.agrees_iff bytes small).mp agrees)
    | ok =>
      have agrees := (HostRequest.agrees_iff bytes small).mpr valid
      have created : b.createMemory (b.request.config q) = .ok (b.request.start q) :=
        created.trans (Memory.create_of_validate valid _)
      obtain ⟨within, beyond⟩ := agrees.staticAlloc_start bytes small
      by_cases fits : b.request.slotEnd ≤ b.request.sizes.cap
      · obtain ⟨taken, -⟩ := within fits
        simp only [build, completed, created, taken, bind, Except.bind, pure, Except.pure]
        exact .met agrees fits (agrees.met_assemble bytes small fits b)
      · have full := Nat.lt_of_not_le fits
        have refused := beyond full
        simp only [build, completed, created, refused, bind, Except.bind]
        exact .full agrees full

/-- Settings that name no grower build a host exactly if the memory that they ask for last can be
divided: the quantum is a power of two of at most 64, the stack fits into the memory at the start,
this is not above the cap, and the scratch slot after the stack ends within the cap. Otherwise the
settings are refused, or, if only the slot does not fit, there is no memory for it. A host that is
built is as it was asked for, its slot blank, its stack empty, and its memory doubled at most
once. -/
theorem build_iff_fits (settings : List Setting) (plain : ∀ g, .grower g ∉ settings)
    (small : (HostRequest.ofSettings settings).sizes.cap < addressSpace) :
    let r := HostRequest.ofSettings settings
    let built := (ofSettings settings).build
    ((∃ host events, built = .ok (host, events)) ↔ r.Agrees ∧ r.slotEnd ≤ r.sizes.cap) ∧
    ((∃ problem, built = .error (.invalidConfig problem)) ↔ ¬ r.Agrees) ∧
    (built = .error (.outOfMemory .static 8 r.slot r.sizes.initial) ↔
      r.Agrees ∧ r.sizes.cap < r.slotEnd) ∧
    ∀ host events, built = .ok (host, events) → r.Met host := by
  intro r built
  have answered : r.Answered built := by
    have request := request_ofSettings settings
    have answered := build_answered (grower_ofSettings plain) (request ▸ small)
    rwa [request] at answered
  clear_value r built
  cases answered with
  | refused clash problem =>
    exact ⟨iff_of_false (by simp) fun both => clash both.1, iff_of_true ⟨problem, rfl⟩ clash,
      iff_of_false (by simp) fun both => clash both.1, by simp⟩
  | full agrees beyond =>
    exact ⟨iff_of_false (by simp) fun both => Nat.not_le_of_lt beyond both.2,
      iff_of_false (by simp) (not_not_intro agrees), iff_of_true rfl ⟨agrees, beyond⟩, by simp⟩
  | met agrees fits met =>
    refine ⟨iff_of_true ⟨_, _, rfl⟩ ⟨agrees, fits⟩, iff_of_false (by simp) (not_not_intro agrees),
      iff_of_false (by simp) fun both => Nat.not_le_of_lt both.2 fits, fun host events same => ?_⟩
    cases same
    exact met

/-- The quantum asked for first is forgotten, and the memory is doubled for the slot. A cap below
the end of the slot leaves no room for it, and 48 is no quantum. -/
theorem build_iff_fits_doubled :
    (∃ host events,
      (ofSettings [.quantum 3, .config { memory := ⟨40, 128, 512⟩ }, .quantum 64, .enable .debug,
        .stackSize 0, .initialMemory 64, .maxMemory 200]).build = .ok (host, events) ∧
      host.scratch = 64 ∧ host.memory.size = 128 ∧ host.config.checks.assertions = true) ∧
    (ofSettings [.quantum 64, .stackSize 0, .initialMemory 64, .maxMemory 127]).build =
      .error (.outOfMemory .static 8 64 64) ∧
    ∃ problem, (ofSettings [.quantum 48]).build = .error (.invalidConfig problem) := by
  obtain ⟨built, -, -, met⟩ := build_iff_fits [.quantum 3, .config { memory := ⟨40, 128, 512⟩ },
    .quantum 64, .enable .debug, .stackSize 0, .initialMemory 64, .maxMemory 200]
    (by simp) (by decide)
  obtain ⟨-, -, full, -⟩ := build_iff_fits [.quantum 64, .stackSize 0, .initialMemory 64,
    .maxMemory 127] (by simp) (by decide)
  obtain ⟨-, refused, -⟩ := build_iff_fits [.quantum 48] (by simp) (by decide)
  refine ⟨?_, full.mpr ⟨⟨⟨6, rfl⟩, by decide, by decide, by decide⟩, by decide⟩, refused.mpr ?_⟩
  · obtain ⟨host, events, answer⟩ :=
      built.mpr ⟨⟨⟨6, rfl⟩, by decide, by decide, by decide⟩, by decide⟩
    have met := met host events answer
    exact ⟨host, events, answer, met.scratch_eq.trans (by decide), met.size_eq.trans (by decide),
      (congrArg (fun c : Config => c.checks.assertions) met.config_eq).trans (by rfl)⟩
  · rintro ⟨power, -⟩
    obtain ⟨q, bytes⟩ := Quantum.exists_bytes_iff.mpr ⟨power, by decide⟩
    obtain ⟨log2⟩ := q
    revert log2
    decide

end Builder

end LinearHost
