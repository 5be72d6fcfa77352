/-!
# Binary floating-point numbers by their bits

A number of the IEEE 754 format binary64 or binary32 is its bit pattern, and arithmetic on it is
exact integer arithmetic: a finite binary64 number is a multiple of `2 ^ -1074`, so its value is the
integer `scaled` divided by `unit`.

## Main definitions

* `Binary64.scaled`: the exact value, in units of the least positive number.
* `Binary64.ofInt`: the number nearest to an integer, a tie going to the even significand.
* `Binary64.toInt32`: truncation toward zero, modulo `2 ^ 32`.
* `Binary64.roundHalfUp`: the nearest integer, a tie going up.
* `Binary32.widen`: the binary64 number of the same value.
-/

namespace LinearHost

structure Binary64 where
  /-- The bit pattern: sign, 11 bits of exponent, 52 bits of fraction. -/
  bits : UInt64
deriving DecidableEq, Repr

structure Binary32 where
  /-- The bit pattern: sign, 8 bits of exponent, 23 bits of fraction. -/
  bits : UInt32
deriving DecidableEq, Repr

namespace Binary64

/-- The least positive number is one unit part of 1. -/
def unit : Nat := 1 <<< 1074

def isNegative (x : Binary64) : Bool := 1 <<< 63 ≤ x.bits.toNat

def exponent (x : Binary64) : Nat := (x.bits.toNat >>> 52) % 2048

def fraction (x : Binary64) : Nat := x.bits.toNat % (1 <<< 52)

/-- Tells whether the number is neither an infinity nor a NaN. -/
def isFinite (x : Binary64) : Bool := x.exponent < 2047

def isNaN (x : Binary64) : Bool := x.exponent = 2047 && x.fraction ≠ 0

/-- The absolute value of a finite number, times `unit`. -/
def magnitude (x : Binary64) : Nat :=
  if x.exponent = 0 then x.fraction else (1 <<< 52 + x.fraction) <<< (x.exponent - 1)

def scaled (x : Binary64) : Int :=
  if x.isNegative then -x.magnitude else x.magnitude

def pack (negative : Bool) (rest : Nat) : Binary64 :=
  ⟨UInt64.ofNat ((if negative then 1 <<< 63 else 0) + rest)⟩

/-- The quotient of `n` by `2 ^ shift`, rounded to the nearest integer and to the even one on a
tie. -/
def shiftRightEven (n shift : Nat) : Nat :=
  let quotient := n >>> shift
  let divisor := 1 <<< shift
  let excess := 2 * (n % divisor)
  if divisor < excess ∨ (excess = divisor ∧ quotient % 2 = 1) then quotient + 1 else quotient

/-- The exponent and fraction bits of the number nearest to a natural number. The hidden bit of the
significand, and a carry out of it, are added to the exponent. -/
def magnitudeBits (n : Nat) : Nat :=
  if n = 0 then 0
  else if n.log2 ≤ 52 then (n.log2 + 1022) <<< 52 + n <<< (52 - n.log2)
  else if n.log2 ≤ 1023 then (n.log2 + 1022) <<< 52 + shiftRightEven n (n.log2 - 52)
  else 2047 <<< 52

/-- The number nearest to an integer, a tie going to the even significand. -/
def ofInt (n : Int) : Binary64 :=
  pack (n < 0) (magnitudeBits n.natAbs)

/-- The number truncated toward zero, modulo `2 ^ 32`; 0 if it is not finite. -/
def toInt32 (x : Binary64) : Int32 :=
  if x.isFinite then Int32.ofInt (x.scaled.tdiv unit) else 0

/-- The integer nearest to `value / scale`, a tie going up. -/
def roundedQuotient (value : Int) (scale : Nat) : Int :=
  (2 * value + scale) / (2 * scale)

/-- The nearest integer as a number, a tie going up; zeros, infinities and NaNs stay as they are. -/
def roundHalfUp (x : Binary64) : Binary64 :=
  if x.isFinite ∧ x.magnitude ≠ 0 then ofInt (roundedQuotient x.scaled unit) else x

end Binary64

namespace Binary32

def exponent (x : Binary32) : Nat := (x.bits.toNat >>> 23) % 256

def fraction (x : Binary32) : Nat := x.bits.toNat % (1 <<< 23)

def isNaN (x : Binary32) : Bool := x.exponent = 255 && x.fraction ≠ 0

/-- The binary64 number of the same value; a fraction below the normal range becomes normal. -/
def widen (x : Binary32) : Binary64 :=
  let rest :=
    if x.exponent = 255 then 2047 <<< 52 + x.fraction <<< 29
    else if 0 < x.exponent then (x.exponent + 896) <<< 52 + x.fraction <<< 29
    else if x.fraction = 0 then 0
    else (x.fraction.log2 + 873) <<< 52 + x.fraction <<< (52 - x.fraction.log2)
  Binary64.pack (1 <<< 31 ≤ x.bits.toNat) rest

end Binary32

end LinearHost
