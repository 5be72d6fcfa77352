import LinearHost.Memory.Operation
import LinearHost.Proofs.Memory.Access
import LinearHost.Proofs.Memory.Frames

/-!
# What an operation does

Different operations do the same few things: they take a block, open or close a frame, restore the
top of the stack, put bytes somewhere, or leave the memory as it is. A proof about all operations goes
through these cases; only `step_cases` goes through the operations.

## Main definitions

* `Operation.policy?`, `Operation.requested`, `Operation.destination`: what an operation is about.
* `Memory.Orderly`: the tops, those saved by the open frames included, lie in their regions.
* `Memory.Stepped`, `Memory.step_cases`: what becomes of an operation.
-/

namespace LinearHost

namespace Operation

def policy? : Operation → Option Policy
  | .alloc policy _ _ => some policy
  | .stackAlloc _ | .allocate .stack _ | .enter _ | .enterForced _ => some .stack
  | .staticAlloc _ | .allocate .static _ => some .static
  | _ => none

def requested : Operation → Nat
  | .alloc _ size _ | .stackAlloc size | .staticAlloc size | .allocate _ size | .enter size
  | .enterForced size => size
  | _ => 0

/-- Tells whether an operation may give blocks of the stack back: it closes a frame, or restores the
top. -/
def givesBack : Operation → Bool
  | .exit _ | .restore _ => true
  | _ => false

def destination : Operation → Nat × Nat
  | .write address bytes => (address, bytes.length)
  | .fill address _ size => (address, size)
  | .copy target _ size => (target, size)
  | .store address x => (address, x.encode.length)
  | _ => (0, 0)

end Operation

def Answer.start? : Answer → Option Nat
  | .address a => some a
  | .frame f => f.savedTop?
  | _ => none

namespace Memory

variable {m : Memory} {op : Operation}

structure Orderly (m : Memory) : Prop where
  ordered (kind : RegionKind) : (m.region kind).Ordered
  saved : ∀ top ∈ m.frames, m.stack.base ≤ top ∧ top ≤ m.stack.limit

def blockAlignment (m : Memory) : Operation → Nat
  | .alloc _ _ alignment => m.effectiveAlignment alignment
  | _ => m.quantum.bytes

structure Asks (m : Memory) (op : Operation) (policy : Policy) (size alignment : Nat) : Prop where
  policy?_eq : op.policy? = some policy
  requested_eq : op.requested = size
  blockAlignment_eq : m.blockAlignment op = alignment

theorem Asks.policy_eq {policy other : Policy} {size alignment : Nat}
    (asks : m.Asks op policy size alignment) (uses : op.policy? = some other) : policy = other :=
  Option.some.inj (asks.policy?_eq.symm.trans uses)

theorem Asks.policy?_ne_none {policy : Policy} {size alignment : Nat}
    (asks : m.Asks op policy size alignment) : op.policy? ≠ none := by
  rw [asks.policy?_eq]
  exact Option.some_ne_none policy

inductive Stepped (m : Memory) (op : Operation) : Except Fault Answer → Memory → Prop where
  | allocated {policy : Policy} {size alignment : Nat} {result : Except Fault Nat} {after : Memory}
      (asks : m.Asks op policy size (m.effectiveAlignment alignment))
      (block : Allocated m policy size alignment result after) :
      Stepped m op (result.map .address) after
  | stackAllocated {size : Nat} {result : Except Fault Nat} {after : Memory}
      (asks : m.Asks op .stack size m.quantum.bytes)
      (block : StackAllocated m size result after) : Stepped m op (result.map .address) after
  | opened {initial : Nat} {forced : Bool} {result : Except Fault Frame} {after : Memory}
      (asks : m.Asks op .stack initial m.quantum.bytes)
      (opened : Opened m initial forced result after) : Stepped m op (result.map .frame) after
  | closed {frame : Frame} {result : Except Fault Unit} {after : Memory} (exits : op = .exit frame)
      (closed : Closed m frame result after) : Stepped m op (result.map fun _ => .done) after
  | restored {top : Nat} (restores : op = .restore top) (base_le : m.stack.base ≤ top)
      (le_limit : top ≤ m.stack.limit) :
      Stepped m op (.ok .done) { m with stack := { m.stack with top } }
  | placed {address : Nat} {row : Runs Cell} (unasked : op.policy? = none)
      (keeps : op.givesBack = false) (target : op.destination = (address, row.length))
      (inside : address + row.length ≤ m.size) :
      Stepped m op (.ok .done) { m with image := m.image.overwrite address row }
  | answered {answer : Answer} (unasked : op.policy? = none) (keeps : op.givesBack = false)
      (startless : answer.start? = none) : Stepped m op (.ok answer) m
  | refused {fault : Fault} (unasked : op.policy? = none) (returned : fault.isFatal = false)
      (unexhausted : ∀ top limit, fault ≠ .assertion (.stackExhausted top limit)) :
      Stepped m op (.error fault) m

theorem moveStackTop_stepped (m : Memory) (top : Nat) :
    Stepped m (.restore top) ((moveStackTop top m).result.map fun _ => .done)
      (moveStackTop top m).state := by
  rw [moveStackTop_apply]
  split
  next inside => exact .restored rfl inside.1 inside.2
  next => exact .refused rfl rfl nofun

theorem place_stepped {address : Nat} {row : Runs Cell} (unasked : op.policy? = none)
    (keeps : op.givesBack = false) (target : op.destination = (address, row.length)) :
    Stepped m op ((place address row m).result.map fun _ => .done) (place address row m).state := by
  rw [place_apply]
  split
  next inside => exact .placed unasked keeps target (inBounds_iff.mp inside).2
  next => exact .refused unasked rfl nofun

/-- A copy puts bytes at its target, or fails. -/
theorem copy_stepped (m : Memory) (target source size : Nat) :
    Stepped m (.copy target source size) ((copy target source size m).result.map fun _ => .done)
      (copy target source size m).state := by
  rw [copy_apply]
  split
  next => exact .answered rfl rfl rfl
  next =>
    split
    next inside =>
      refine place_stepped rfl rfl ?_
      rw [length_window_of_inBounds inside]
      rfl
    next => exact .refused rfl rfl nofun

/-- Reading changes nothing. -/
theorem Stepped.of_read {α : Type} {result : Except Fault α} {address size : Nat} (f : α → Answer)
    (startless : ∀ a, (f a).start? = none) (unasked : op.policy? = none)
    (keeps : op.givesBack = false)
    (causes : ∀ fault, result = .error fault →
      fault = .invalidAddress address size ∨ ∃ stale, fault = .assertion (.staleRead stale)) :
    Stepped m op (result.map f) m := by
  cases result with
  | ok a => exact .answered unasked keeps (startless a)
  | error fault =>
    obtain rfl | ⟨stale, rfl⟩ := causes fault rfl
    · exact .refused unasked rfl nofun
    · exact .refused unasked rfl nofun

theorem staticAlloc_apply (m : Memory) (size : Nat) :
    staticAlloc size m = alloc .static size m.quantum.bytes m := rfl

theorem allocated_of_staticAlloc {size address : Nat}
    (taken : (staticAlloc size m).result = .ok address) :
    Allocated m .static size m.quantum.bytes (.ok address) (staticAlloc size m).state := by
  have allocated := alloc_cases m .static size m.quantum.bytes
  rwa [← staticAlloc_apply, taken] at allocated

theorem staticAlloc_stepped (size : Nat) (asks : m.Asks op .static size m.quantum.bytes) :
    Stepped m op ((staticAlloc size m).result.map .address) (staticAlloc size m).state := by
  rw [staticAlloc_apply]
  rw [← effectiveAlignment_bytes] at asks
  exact .allocated asks (alloc_cases m .static size m.quantum.bytes)

/-- Every operation ends in one of these ways. -/
theorem step_cases (orderly : m.Orderly) (op : Operation) :
    Stepped m op (step op m).result (step op m).state := by
  have stack : m.stack.Ordered := orderly.ordered .stack
  cases op with
  | alloc policy size alignment =>
    simpa [step] using Stepped.allocated ⟨rfl, rfl, rfl⟩ (alloc_cases m policy size alignment)
  | stackAlloc size =>
    simpa [step] using Stepped.stackAllocated ⟨rfl, rfl, rfl⟩ (stackAlloc_cases m stack size)
  | staticAlloc size => simpa [step] using staticAlloc_stepped size ⟨rfl, rfl, rfl⟩
  | allocate kind size =>
    cases kind with
    | stack =>
      simpa [step, allocate] using
        Stepped.stackAllocated ⟨rfl, rfl, rfl⟩ (stackAlloc_cases m stack size)
    | static => simpa [step, allocate] using staticAlloc_stepped size ⟨rfl, rfl, rfl⟩
  | enter initial =>
    simpa [step, enter] using Stepped.opened ⟨rfl, rfl, rfl⟩ (openFrame_cases m stack initial false)
  | enterForced initial =>
    simpa [step, enterForced] using
      Stepped.opened ⟨rfl, rfl, rfl⟩ (openFrame_cases m stack initial true)
  | exit frame => simpa [step] using Stepped.closed rfl (exit_cases m orderly.saved frame)
  | restore top => simpa [step, restore] using moveStackTop_stepped m top
  | read address size =>
    have causes := fun fault (failed : m.read address size = .error fault) => fault_of_read failed
    simpa [step] using Stepped.of_read .bytes (fun _ => rfl) rfl rfl causes
  | write address bytes =>
    have target : Operation.destination (.write address bytes) =
        (address, (Runs.ofList (bytes.map Cell.live)).length) := by
      rw [Runs.length_ofList, List.length_map]
      rfl
    simpa [step, write] using place_stepped rfl rfl target
  | fill address value size =>
    have target : Operation.destination (.fill address value size) =
        (address, (Runs.replicate size (Cell.live value)).length) := by
      rw [Runs.length_replicate]
      rfl
    simpa [step, fill] using place_stepped rfl rfl target
  | copy target source size => simpa [step] using copy_stepped m target source size
  | load type address =>
    have causes := fun fault (failed : m.load type address = .error fault) => fault_of_load failed
    simpa [step] using Stepped.of_read .scalar (fun _ => rfl) rfl rfl causes
  | store address x =>
    have target : Operation.destination (.store address x) =
        (address, (Runs.ofList (x.encode.map Cell.live)).length) := by
      rw [Runs.length_ofList, List.length_map]
      rfl
    simpa [step, store, write] using place_stepped rfl rfl target

end Memory

end LinearHost
