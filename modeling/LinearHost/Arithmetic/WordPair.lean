import LinearHost.Fault
import LinearHost.Arithmetic.Binary

/-!
# 64-bit integers as pairs of words

A 64-bit integer is carried as a low and a high word of 32 bits, worth `low + high * 2 ^ 32`. Shifts
move bits from one word to the other.

## Main definitions

* `WordShifts`: what shifts a single word.
* `WordPair.shift`: the three shifts, in four regimes of the shift amount.
* `WordPair.approximate`: the nearest floating-point number.
-/

namespace LinearHost

inductive ShiftOp where
  | left
  | arithmeticRight
  | logicalRight
deriving DecidableEq, Repr

namespace ShiftOp

/-- The shift with an operation code of compiled code. -/
def ofCode (code : Nat) : Except Fault ShiftOp :=
  match code with
  | 0 => .ok .left
  | 1 => .ok .arithmeticRight
  | 2 => .ok .logicalRight
  | code => .error (.assertion (.unknownShift code))

def all : List ShiftOp := [left, arithmeticRight, logicalRight]

def name : ShiftOp → String
  | left => "ShiftLeft"
  | arithmeticRight => "ArithShiftRight"
  | logicalRight => "LogicalShiftRight"

end ShiftOp

/-- The shifts of single words by amounts of bits. -/
structure WordShifts where
  left : UInt32 → UInt32 → UInt32
  right : UInt32 → UInt32 → UInt32
  /-- Shifts to the right and fills with the sign of the word. -/
  rightSigned : UInt32 → UInt32 → UInt32

/-- The shifts of the machine, which take amounts modulo 32. -/
def WordShifts.machine : WordShifts where
  left word bits := word <<< bits
  right word bits := word >>> bits
  rightSigned word bits := (word.toInt32 >>> bits.toInt32).toUInt32

structure WordPair where
  low : UInt32
  high : UInt32
deriving DecidableEq, Repr

namespace WordPair

def ofUInt64 (n : UInt64) : WordPair :=
  ⟨n.toUInt32, (n >>> 32).toUInt32⟩

def ofInt64 (n : Int64) : WordPair :=
  ofUInt64 n.toUInt64

def toUInt64 (w : WordPair) : UInt64 :=
  (w.high.toUInt64 <<< 32) ||| w.low.toUInt64

def toInt64 (w : WordPair) : Int64 :=
  w.toUInt64.toInt64

def isNegative (w : WordPair) : Bool :=
  w.high &&& 0x80000000 ≠ 0

def signFill (w : WordPair) : UInt32 :=
  if w.isNegative then 0xFFFFFFFF else 0

/-- Shifts by 1 to 31: bits cross from one word to the other. -/
def shiftAcross (words : WordShifts) (w : WordPair) (op : ShiftOp) (bits : UInt32) : WordPair :=
  let carry := 32 - bits
  match op with
  | .left => ⟨words.left w.low bits, words.left w.high bits ||| words.right w.low carry⟩
  | .arithmeticRight =>
    ⟨words.right w.low bits ||| words.left w.high carry, words.rightSigned w.high bits⟩
  | .logicalRight => ⟨words.right w.low bits ||| words.left w.high carry, words.right w.high bits⟩

/-- Shifts by 32: one word moves into the place of the other. -/
def shiftWord (w : WordPair) : ShiftOp → WordPair
  | .left => ⟨0, w.low⟩
  | .arithmeticRight => ⟨w.high, w.signFill⟩
  | .logicalRight => ⟨w.high, 0⟩

/-- Shifts by `32 + rest`, from 33 to 63: only one word survives. -/
def shiftBeyond (words : WordShifts) (w : WordPair) (op : ShiftOp) (rest : UInt32) : WordPair :=
  match op with
  | .left => ⟨0, words.left w.low rest⟩
  | .arithmeticRight => ⟨words.rightSigned w.high rest, w.signFill⟩
  | .logicalRight => ⟨words.right w.high rest, 0⟩

/-- Shifts by 0 to 63 bits with the given shifts of words; larger amounts are refused. -/
def shiftWith (words : WordShifts) (w : WordPair) (op : ShiftOp) (bits : Nat) :
    Except Fault WordPair :=
  if 63 < bits then .error (.invalidShift bits)
  else if bits = 0 then .ok w
  else if bits < 32 then .ok (w.shiftAcross words op (UInt32.ofNat bits))
  else if bits = 32 then .ok (w.shiftWord op)
  else .ok (w.shiftBeyond words op (UInt32.ofNat (bits - 32)))

/-- Shifts by 0 to 63 bits; larger amounts are refused. -/
def shift (w : WordPair) (op : ShiftOp) (bits : Nat) : Except Fault WordPair :=
  w.shiftWith .machine op bits

/-- The floating-point number nearest to the value; the high word counts as signed unless
`unsigned` is set. -/
def approximate (w : WordPair) (unsigned : Bool) : Binary64 :=
  let high : Int := if unsigned then w.high.toNat else w.high.toInt32.toInt
  Binary64.ofInt (w.low.toNat + high * 0x100000000)

end WordPair

end LinearHost
