import LinearHost.Memory.Access
import LinearHost.Text.Decoder

/-!
# Texts in a memory

A text ends before a zero byte. Its bytes are read one after the other, and each is decoded before the
next one is read.

## Main definitions

* `Memory.unitsFrom`: the code units of the bytes up to a zero byte.
* `Memory.textAt`: the text at an address.
-/

namespace LinearHost.Memory

def readByte (m : Memory) (address : Nat) : Except Fault UInt8 :=
  (m.read address 1).map fun bytes => bytes.headD 0

/-- Only bytes of the memory are read. -/
theorem lt_size_of_readByte {m : Memory} {address : Nat} {b : UInt8}
    (found : m.readByte address = .ok b) : address < m.size := by
  cases inside : m.inBounds address 1 with
  | true => exact (inBounds_iff.mp inside).2
  | false => simp [readByte, read, cells, inside, bind, Except.bind, Except.map] at found

/-- The code units that a decoder emits for the bytes from an address on, up to a zero byte, behind
those that it has emitted before. -/
def unitsFrom (m : Memory) (units : Array UInt16) (decoder : Decoder) (address : Nat) :
    Except Fault (Array UInt16) :=
  match _found : m.readByte address with
  | .error fault => .error fault
  | .ok b =>
    if b = 0 then .ok units
    else
      let (decoder, unit) := decoder.feed b
      m.unitsFrom (units ++ unit.toArray) decoder (address + 1)
termination_by m.size - address
decreasing_by
  have inside := lt_size_of_readByte _found
  omega

/-- The text at an address, which ends before a zero byte. -/
def textAt (m : Memory) (address : Nat) : Except Fault String :=
  (m.unitsFrom #[] .ready address).map fun units => CodeUnit.toText units.toList

end LinearHost.Memory
