import LinearHost.Memory.Frame
import LinearHost.Memory.Scalar

/-!
# Operations on a memory

Every operation on a memory as a value, so that a program on a memory is a list of operations.

## Main definitions

* `Operation`, `Answer`: the operations and what they answer.
* `Memory.step`: carries out one operation.
* `Memory.run`: carries out a list of operations, each whether or not those before it failed.
-/

namespace LinearHost

inductive Operation where
  | alloc (policy : Policy) (size alignment : Nat)
  | stackAlloc (size : Nat)
  | staticAlloc (size : Nat)
  | allocate (region : RegionKind) (size : Nat)
  | enter (initial : Nat)
  | enterForced (initial : Nat)
  | exit (frame : Frame)
  | restore (top : Nat)
  | read (address size : Nat)
  | write (address : Nat) (bytes : List UInt8)
  | fill (address : Nat) (value : UInt8) (size : Nat)
  | copy (target source size : Nat)
  | load (type : ScalarType) (address : Nat)
  | store (address : Nat) (x : Scalar)
deriving DecidableEq, Repr

inductive Answer where
  | done
  | address (a : Nat)
  | frame (f : Frame)
  | bytes (bs : List UInt8)
  | scalar (x : Scalar)
deriving DecidableEq, Repr

namespace Memory

def step : Operation → Action Memory Answer
  | .alloc policy size alignment => return .address (← alloc policy size alignment)
  | .stackAlloc size => return .address (← stackAlloc size)
  | .staticAlloc size => return .address (← staticAlloc size)
  | .allocate region size => return .address (← allocate region size)
  | .enter initial => return .frame (← enter initial)
  | .enterForced initial => return .frame (← enterForced initial)
  | .exit frame => do exit frame; return .done
  | .restore top => do restore top; return .done
  | .read address size => do
    let m ← Action.get
    return .bytes (← Action.ofExcept (m.read address size))
  | .write address bytes => do write address bytes; return .done
  | .fill address value size => do fill address value size; return .done
  | .copy target source size => do copy target source size; return .done
  | .load type address => do
    let m ← Action.get
    return .scalar (← Action.ofExcept (m.load type address))
  | .store address x => do store address x; return .done

/-- Carries out operations in order, whether they fail or not; answers the results of each. -/
def run : List Operation → Memory → List (Except Fault Answer) × Memory
  | [], m => ([], m)
  | op :: rest, m =>
    let outcome := step op m
    let (results, final) := run rest outcome.state
    (outcome.result :: results, final)

end Memory

end LinearHost
