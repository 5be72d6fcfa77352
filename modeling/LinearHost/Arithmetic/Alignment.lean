import LinearHost.Fault

/-!
# Alignment

Addresses, offsets and sizes are rounded up to multiples. Powers of two are rounded by shifting the
low bits out, all other quanta by a ceiling division.

## Main definitions

* `alignUp`: the least multiple of a quantum that is not below a target.
* `Quantum`: the granularity of a whole host, a power of two of at most 64 bytes.
-/

namespace LinearHost

def addressSpace : Nat := 0x10000000000000000

/-- The end of a block of `size` bytes at `address`, if it is an address. -/
def blockEnd? (address size : Nat) : Option Nat :=
  if address + size < addressSpace then some (address + size) else none

/-- Clears the `shift` lowest bits of `target` after rounding up. -/
def roundUpBits (target shift : Nat) : Nat :=
  ((target + (1 <<< shift - 1)) >>> shift) <<< shift

def ceilDiv (n d : Nat) : Nat :=
  if n % d = 0 then n / d else n / d + 1

/-- The least multiple of `quantum` that is at least `target`; quanta 0 and 1 leave it as it is. -/
def alignUp (target quantum : Nat) : Nat :=
  if quantum ≤ 1 then target
  else if quantum = 1 <<< quantum.log2 then roundUpBits target quantum.log2
  else ceilDiv target quantum * quantum

/-- An alignment granularity: a power of two from 1 to 64. -/
structure Quantum where
  log2 : Fin 7
deriving DecidableEq, Repr

namespace Quantum

def bytes (q : Quantum) : Nat := 1 <<< q.log2.val

def byte : Quantum := ⟨0⟩

/-- The granularity of a 32-bit target, and the default. -/
def word : Quantum := ⟨2⟩

instance : Inhabited Quantum := ⟨word⟩

/-- The quantum of `n` bytes; other numbers than the supported powers of two are refused. -/
def ofBytes (n : Nat) : Except Fault Quantum :=
  match (List.finRange 7).find? fun k => 1 <<< k.val = n with
  | some k => .ok ⟨k⟩
  | none => .error (.invalidConfig (.quantum n))

/-- The least multiple of the quantum that is at least `target`. -/
def align (q : Quantum) (target : Nat) : Nat :=
  roundUpBits target q.log2.val

/-- Aligns to `quantum`, or to the own granularity if `quantum` is 0. -/
def alignWith (q : Quantum) (target quantum : Nat) : Nat :=
  if quantum = 0 then q.align target else alignUp target quantum

/-- Tells whether `n` is a multiple of the quantum. -/
def isAligned (q : Quantum) (n : Nat) : Bool :=
  n &&& (q.bytes - 1) = 0

end Quantum

end LinearHost
