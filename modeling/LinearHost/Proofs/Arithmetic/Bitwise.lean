import LinearHost.Arithmetic.Bitwise
import LinearHost.Proofs.Arithmetic.Integers

/-!
# Bitwise operations on integers as floating-point numbers

A bitwise operation combines the lower halves of its operands exactly, but as signed words, and what a
negative lower half takes away is given back by rounding the upper half up. Both operands are rounded
before they are combined and the result would have to be rounded afterwards, which is not the same.

## Main definitions

* `BitwiseOp.exact`: the operation on 64-bit integers.
* `BitwiseOp.roundedUpper`: the upper half of an integer as the operations see it.
* `BitwiseOp.combine_exact_iff`: when the result is exact.
-/

namespace LinearHost

open Binary64

variable {x y : Binary64} {m : Int} {a b : Int64}

namespace BitwiseOp

def exact (op : BitwiseOp) (a b : Int64) : Int64 :=
  match op with
  | or => a ||| b
  | and => a &&& b
  | xor => a ^^^ b

def lower (a : Int64) : Int32 := a.toInt32

def upper (a : Int64) : Int32 := (a >>> 32).toInt32

/-- What a signed lower half takes away from the upper one. -/
def borrow (low : Int32) : Int := if low < 0 then 1 else 0

def roundedUpper (a : Int64) : Int32 := if lower a < 0 then upper a + 1 else upper a

/-! ### Halves -/

/-- The lower half of the result depends on the lower halves only. -/
theorem lower_exact (op : BitwiseOp) (a b : Int64) :
    lower (op.exact a b) = op.apply (lower a) (lower b) := by
  cases op
  · exact Int64.toInt32_or a b
  · exact Int64.toInt32_and a b
  · exact Int64.toInt32_xor a b

theorem upper_exact (op : BitwiseOp) (a b : Int64) :
    upper (op.exact a b) = op.apply (upper a) (upper b) := by
  cases op
  · simp only [upper, exact, apply, Int64.shiftRight_or, Int64.toInt32_or]
  · simp only [upper, exact, apply, Int64.shiftRight_and, Int64.toInt32_and]
  · simp only [upper, exact, apply, Int64.shiftRight_xor, Int64.toInt32_xor]

theorem toInt_lower (a : Int64) :
    (lower a).toInt =
      a.toInt % 0x100000000 - (if a.toInt % 0x100000000 < 0x80000000 then 0 else 0x100000000) := by
  rw [lower, Int64.toInt_toInt32, Int.bmod_def]
  show (if a.toInt % 0x100000000 < 0x80000000 then _ else a.toInt % 0x100000000 - 0x100000000) = _
  split
  · exact (Int.sub_zero _).symm
  · rfl

theorem toInt_upper (a : Int64) : (upper a).toInt = a.toInt / 0x100000000 := by
  have shifted : (a >>> 32).toInt = a.toInt / 0x100000000 := by
    show (a.toBitVec.sshiftRight 32).toInt = _
    rw [BitVec.toInt_sshiftRight, Int.shiftRight_eq_div_pow]
    rfl
  have low := Int64.le_toInt a
  have high := Int64.toInt_lt a
  rw [upper, Int64.toInt_toInt32, shifted]
  exact Int.bmod_eq_of_le (by omega) (by omega)

/-- An integer is worth its signed lower half and its upper half, with what the lower half takes
away. -/
theorem toInt_eq (a : Int64) :
    a.toInt = (lower a).toInt + ((upper a).toInt + borrow (lower a)) * 0x100000000 := by
  simp only [toInt_upper, toInt_lower, borrow, Int32.lt_iff_toInt_lt, Int32.toInt_zero]
  split <;> omega

/-- Rounding the quotient up gives back what the signed lower half takes away. -/
theorem quotient_eq (a : Int64) :
    (a.toInt + 0x80000000) / 0x100000000 = (upper a).toInt + borrow (lower a) := by
  simp only [toInt_upper, toInt_lower, borrow, Int32.lt_iff_toInt_lt, Int32.toInt_zero]
  split <;> omega

theorem ofInt_toInt (a : Int64) : Int32.ofInt a.toInt = lower a := Int32.ofInt_int64ToInt a

theorem ofInt_quotient (a : Int64) :
    Int32.ofInt ((a.toInt + 0x80000000) / 0x100000000) = roundedUpper a := by
  rw [quotient_eq, Int32.ofInt_add, Int32.ofInt_toInt, borrow, roundedUpper]
  split
  · rfl
  · exact Int32.add_zero _

/-- The operations combine the signs as they combine the other bits. -/
theorem apply_nonneg (op : BitwiseOp) {v w : Int32} (left : ¬ v < 0) (right : ¬ w < 0) :
    ¬ op.apply v w < 0 := by
  have sign (u : Int32) : u < 0 ↔ u.toBitVec.msb = true := by
    rw [Int32.lt_iff_toInt_lt, BitVec.msb_eq_toInt, decide_eq_true_eq]
    rfl
  rw [sign, Bool.not_eq_true] at left right ⊢
  cases op <;> simp [apply, left, right]

end BitwiseOp

/-! ### Numbers that represent integers -/

theorem Binary64.Represents.toInt32 (represents : x.Represents m) : x.toInt32 = Int32.ofInt m := by
  have nonzero : (unit : Int) ≠ 0 := Int.ofNat_ne_zero.mpr (Nat.ne_of_gt unit_pos)
  rw [Binary64.toInt32, if_pos represents.isFinite, represents.scaled, Int.mul_tdiv_cancel _ nonzero]

/-- The upper half is read off a number that represents an integer without loss. -/
theorem Binary64.Represents.highWord (represents : x.Represents m) :
    BitwiseOp.highWord x = Int32.ofInt ((m + 0x80000000) / 0x100000000) := by
  have positive : (0 : Int) < unit := Int.ofNat_lt.mpr unit_pos
  have scale : ((unit <<< 32 : Nat) : Int) = 0x100000000 * unit := by
    rw [Nat.shiftLeft_eq, Nat.mul_comm, Int.natCast_mul]
    rfl
  have numerator : 2 * (m * unit) + 0x100000000 * unit = (2 * m + 0x100000000) * unit := by
    rw [Int.add_mul, Int.mul_assoc]
  rw [BitwiseOp.highWord, if_pos represents.isFinite, represents.scaled, roundedQuotient, scale,
    numerator, ← Int.mul_assoc, Int.mul_ediv_mul_of_pos_left _ _ positive]
  congr 1
  omega

namespace BitwiseOp

/-- On numbers that are integers of 64 bits, an operation whose exact result has at most 53 bits
gives it exactly if rounding the upper halves up before they are combined adds to the upper half of
the result just what the lower halves, once combined, take away. So it does if no upper half is
rounded up. -/
theorem combine_exact_iff (op : BitwiseOp) (left : x.Represents a.toInt)
    (right : y.Represents b.toInt) (small : (op.exact a b).toInt.natAbs ≤ 1 <<< 53) :
    ((op.combine x y).Represents (op.exact a b).toInt ↔
      (op.apply (roundedUpper a) (roundedUpper b)).toInt =
        (op.apply (upper a) (upper b)).toInt + borrow (op.apply (lower a) (lower b))) ∧
    (¬ lower a < 0 → ¬ lower b < 0 → (op.combine x y).Represents (op.exact a b).toInt) := by
  have value := toInt_eq (op.exact a b)
  rw [lower_exact, upper_exact] at value
  rw [combine, left.toInt32, right.toInt32, left.highWord, right.highWord, ofInt_quotient,
    ofInt_quotient, ofInt_toInt, ofInt_toInt]
  have exact := represents_ofInt small
  refine ⟨⟨fun represents => ?_, fun same => ?_⟩, fun leftPlain rightPlain => ?_⟩
  · have wordBounds (w : Int32) := And.intro w.le_toInt w.toInt_lt
    have low := wordBounds (op.apply (lower a) (lower b))
    have high := wordBounds (op.apply (roundedUpper a) (roundedUpper b))
    have bounded : ((op.apply (lower a) (lower b)).toInt +
        (op.apply (roundedUpper a) (roundedUpper b)).toInt * 0x100000000).natAbs < 1 <<< 64 := by
      rw [Nat.one_shiftLeft]
      omega
    -- rounding a sum of 64 bits moves it by much less than one step of the upper half
    have near := represents.near (s := 11) (by decide) bounded
    rw [Nat.one_shiftLeft] at near
    omega
  · rw [value, ← same] at exact
    rwa [value, ← same]
  · rw [value, borrow, if_neg (apply_nonneg op leftPlain rightPlain), Int.add_zero] at exact
    rwa [roundedUpper, if_neg leftPlain, roundedUpper, if_neg rightPlain, value, borrow,
      if_neg (apply_nonneg op leftPlain rightPlain), Int.add_zero]

/-- The upper halves of two negative integers are rounded up, and the result is exact. -/
theorem combine_exact_negative :
    (ofInt (-1)).Represents (-1) ∧ (ofInt (-2)).Represents (-2) ∧
    (exact .and (-1) (-2)).toInt.natAbs ≤ 1 <<< 53 ∧
    roundedUpper (-1) ≠ upper (-1) ∧ roundedUpper (-2) ≠ upper (-2) ∧
    (combine .and (ofInt (-1)) (ofInt (-2))).Represents (-2) := by
  have left : (ofInt (-1)).Represents (-1 : Int64).toInt := represents_ofInt (by decide)
  have right : (ofInt (-2)).Represents (-2 : Int64).toInt := represents_ofInt (by decide)
  exact ⟨left, right, by decide, by decide, by decide,
    (combine_exact_iff .and left right (by decide)).1.mpr (by decide)⟩

/-- Rounding up turns the upper half of `2 ^ 31` into that of `2 ^ 32`, so that the two seem to have a
bit in common. The rounding is part of the contract of these operations and must not be replaced by
exact arithmetic; but only operands whose upper half needs more than 21 significant bits are to lose
precision by it, and these do not. -/
theorem combine_inexact :
    (ofInt 0x80000000).Represents 0x80000000 ∧ (ofInt 0x100000000).Represents 0x100000000 ∧
    (exact .and 0x80000000 0x100000000).toInt = 0 ∧
    combine .and (ofInt 0x80000000) (ofInt 0x100000000) = ofInt 0x100000000 := by
  refine ⟨represents_ofInt (by decide), represents_ofInt (by decide), by decide, by decide +kernel⟩

end BitwiseOp

end LinearHost
