import LinearHost.Arithmetic.Binary

/-!
# Integers as floating-point numbers

The number nearest to an integer is off by at most one unit in the last place of its significand, and
it is the integer itself up to `2 ^ 53`.

## Main definitions

* `Binary64.Represents`: the number is exactly an integer.
* `Binary64.represents_ofInt`: integers that are represented.
* `Binary64.scaled_ofInt_near`: how far rounding goes.
-/

namespace LinearHost.Binary64

variable {x : Binary64} {negative : Bool} {rest e q n s : Nat} {m k : Int}

theorem unit_pos : 0 < unit := by
  rw [unit, Nat.one_shiftLeft]
  exact Nat.two_pow_pos 1074

theorem mul_one_shiftLeft (n s : Nat) : n * 1 <<< s = n <<< s := by
  rw [Nat.one_shiftLeft, Nat.shiftLeft_eq]

theorem mul_unit (n : Nat) : n * unit = n <<< 1074 := mul_one_shiftLeft n 1074

/-! ### Packed numbers -/

theorem toNat_pack (lt : rest < 0x8000000000000000) :
    (pack negative rest).bits.toNat = (if negative then 0x8000000000000000 else 0) + rest := by
  refine UInt64.toNat_ofNat_of_lt' ?_
  simp only [Nat.reduceShiftLeft, UInt64.size]
  cases negative <;> simp only [Bool.false_eq_true, ↓reduceIte] <;> omega

theorem isNegative_pack (lt : rest < 0x8000000000000000) :
    (pack negative rest).isNegative = negative := by
  rw [isNegative, toNat_pack lt]
  cases negative <;> simp [lt]

theorem exponent_pack (lt : rest < 0x8000000000000000) :
    (pack negative rest).exponent = rest / 0x10000000000000 := by
  rw [exponent, toNat_pack lt, Nat.shiftRight_eq_div_pow]
  cases negative <;> simp only [Bool.false_eq_true, ↓reduceIte] <;> omega

theorem fraction_pack (lt : rest < 0x8000000000000000) :
    (pack negative rest).fraction = rest % 0x10000000000000 := by
  rw [fraction, toNat_pack lt, Nat.one_shiftLeft]
  cases negative <;> simp only [Bool.false_eq_true, ↓reduceIte] <;> omega

/-- The hidden bit of a significand, and a carry out of it, count for the exponent. -/
theorem magnitude_pack (negative : Bool) (low : 1 <<< 52 ≤ q) (high : q ≤ 1 <<< 53) (le : e ≤ 2044) :
    (pack negative (e <<< 52 + q)).isNegative = negative ∧
      (pack negative (e <<< 52 + q)).isFinite = true ∧
      (pack negative (e <<< 52 + q)).magnitude = q <<< e := by
  rw [Nat.one_shiftLeft] at low high
  have lt : e <<< 52 + q < 0x8000000000000000 := by
    rw [Nat.shiftLeft_eq]
    omega
  refine ⟨isNegative_pack lt, ?_⟩
  rw [magnitude, isFinite, exponent_pack lt, fraction_pack lt, Nat.shiftLeft_eq, Nat.one_shiftLeft]
  obtain inside | rfl := Nat.lt_or_eq_of_le high
  · have exponent : (e * 2 ^ 52 + q) / 0x10000000000000 = e + 1 := by omega
    have significand : 2 ^ 52 + (e * 2 ^ 52 + q) % 0x10000000000000 = q := by omega
    rw [exponent, if_neg (Nat.succ_ne_zero e), significand, Nat.add_sub_cancel]
    exact ⟨decide_eq_true (by omega), rfl⟩
  · have exponent : (e * 2 ^ 52 + 2 ^ 53) / 0x10000000000000 = e + 2 := by omega
    have significand : 2 ^ 52 + (e * 2 ^ 52 + 2 ^ 53) % 0x10000000000000 = 2 ^ 52 := by omega
    rw [exponent, if_neg (Nat.succ_ne_zero (e + 1)), significand]
    refine ⟨decide_eq_true (by omega), ?_⟩
    rw [Nat.shiftLeft_eq, Nat.shiftLeft_eq]
    show 2 ^ 52 * 2 ^ (e + 1) = _
    rw [Nat.pow_succ]
    omega

/-! ### Rounded significands -/

/-- The significand of the number nearest to a positive integer, or one that is twice as large. -/
def significand (n : Nat) : Nat :=
  if n.log2 ≤ 52 then n <<< (52 - n.log2) else shiftRightEven n (n.log2 - 52)

/-- The exponent is added to the significand, which may carry into it. -/
theorem magnitudeBits_eq (positive : n ≠ 0) (le : n.log2 ≤ 1023) :
    magnitudeBits n = (n.log2 + 1022) <<< 52 + significand n := by
  simp only [magnitudeBits, significand, positive, le, ↓reduceIte]
  split <;> rfl

/-- Rounding to even goes down or up by one. -/
theorem shiftRightEven_cases (n s : Nat) :
    shiftRightEven n s = n >>> s ∨ shiftRightEven n s = n >>> s + 1 := by
  simp only [shiftRightEven]
  split
  · exact .inr rfl
  · exact .inl rfl

/-- A significand has 53 bits, or is the least number of 54. -/
theorem significand_bounds (positive : n ≠ 0) :
    1 <<< 52 ≤ significand n ∧ significand n ≤ 1 <<< 53 := by
  have low := Nat.log2_self_le positive
  have high := Nat.lt_log2_self (n := n)
  rw [significand, Nat.one_shiftLeft, Nat.one_shiftLeft]
  split
  next small =>
    have scale : 2 ^ n.log2 * 2 ^ (52 - n.log2) = 2 ^ 52 := by
      rw [← Nat.pow_add, Nat.add_sub_cancel' small]
    rw [Nat.shiftLeft_eq, ← scale]
    refine ⟨Nat.mul_le_mul_right _ low, ?_⟩
    calc n * 2 ^ (52 - n.log2) ≤ 2 ^ (n.log2 + 1) * 2 ^ (52 - n.log2) :=
          Nat.mul_le_mul_right _ (Nat.le_of_lt high)
      _ = 2 ^ 52 * 2 := by rw [Nat.pow_succ, Nat.mul_right_comm, scale]
      _ ≤ 2 ^ 53 := by decide
  next large =>
    have scale : 2 ^ 52 * 2 ^ (n.log2 - 52) = 2 ^ n.log2 := by
      rw [← Nat.pow_add, Nat.add_sub_cancel' (Nat.le_of_not_le large)]
    have positive := Nat.two_pow_pos (n.log2 - 52)
    have floor : 2 ^ 52 ≤ n >>> (n.log2 - 52) ∧ n >>> (n.log2 - 52) < 2 ^ 53 := by
      rw [Nat.shiftRight_eq_div_pow, Nat.le_div_iff_mul_le positive, Nat.div_lt_iff_lt_mul positive,
        scale]
      refine ⟨low, ?_⟩
      rw [Nat.pow_succ, ← scale] at high
      omega
    have rounded := shiftRightEven_cases n (n.log2 - 52)
    omega

def rounded (n : Nat) : Nat :=
  if n.log2 ≤ 52 then n else shiftRightEven n (n.log2 - 52) <<< (n.log2 - 52)

/-- The significand, moved to its place, is the rounded number. -/
theorem significand_shiftLeft (n : Nat) :
    significand n <<< (n.log2 + 1022) = rounded n * unit := by
  rw [significand, rounded, mul_unit]
  split
  next small => rw [← Nat.shiftLeft_add, ← Nat.add_assoc, Nat.sub_add_cancel small]
  next large =>
    rw [← Nat.shiftLeft_add]
    congr 1
    omega

/-- Rounding is off by at most one unit in the last place. -/
theorem rounded_near (n : Nat) :
    rounded n ≤ n + 1 <<< (n.log2 - 52) ∧ n ≤ rounded n + 1 <<< (n.log2 - 52) := by
  rw [rounded]
  split
  next => exact ⟨Nat.le_add_right .., Nat.le_add_right ..⟩
  next =>
    have remainder := Nat.div_add_mod n (2 ^ (n.log2 - 52))
    have small := Nat.mod_lt n (Nat.two_pow_pos (n.log2 - 52))
    rw [Nat.shiftLeft_eq, Nat.one_shiftLeft]
    obtain same | next := shiftRightEven_cases n (n.log2 - 52)
    · rw [same, Nat.shiftRight_eq_div_pow, Nat.mul_comm]
      omega
    · rw [next, Nat.shiftRight_eq_div_pow, Nat.succ_mul, Nat.mul_comm]
      omega

theorem log2_le_of_lt (lt : n < 1 <<< (s + 1)) : n.log2 ≤ s := by
  obtain rfl | positive := Nat.eq_zero_or_pos n
  · exact Nat.zero_le s
  · rw [Nat.one_shiftLeft] at lt
    exact Nat.le_of_lt_succ ((Nat.log2_lt (Nat.ne_of_gt positive)).mpr lt)

/-- Integers of up to 53 bits are not rounded at all. -/
theorem rounded_of_le (le : n ≤ 1 <<< 53) : rounded n = n := by
  obtain inside | rfl := Nat.lt_or_eq_of_le le
  · rw [rounded, if_pos (log2_le_of_lt inside)]
  · decide

/-! ### Rounded integers -/

/-- The number is exactly this integer. -/
structure Represents (x : Binary64) (m : Int) : Prop where
  isFinite : x.isFinite = true
  scaled : x.scaled = m * unit

/-- A number represents at most one integer. -/
theorem Represents.unique (left : x.Represents m) (right : x.Represents k) : m = k :=
  Int.eq_of_mul_eq_mul_right (Int.ofNat_ne_zero.mpr (Nat.ne_of_gt unit_pos))
    (left.scaled.symm.trans right.scaled)

theorem represents_rounded (le : m.natAbs.log2 ≤ 1022) :
    (ofInt m).Represents (m.sign * rounded m.natAbs) := by
  by_cases nonzero : m = 0
  · subst nonzero
    exact ⟨by decide, by decide⟩
  have positive : m.natAbs ≠ 0 := Int.natAbs_ne_zero.mpr nonzero
  obtain ⟨low, high⟩ := significand_bounds positive
  rw [ofInt, magnitudeBits_eq positive (by omega)]
  obtain ⟨negative, finite, magnitude⟩ :=
    magnitude_pack (decide (m < 0)) low high (e := m.natAbs.log2 + 1022) (by omega)
  refine ⟨finite, ?_⟩
  rw [scaled, negative, magnitude, significand_shiftLeft, Int.natCast_mul]
  obtain below | above := Int.lt_or_gt_of_ne nonzero
  · rw [decide_eq_true below, if_pos rfl, Int.sign_eq_neg_one_of_neg below, Int.neg_one_mul,
      Int.neg_mul]
  · have notBelow : ¬ m < 0 := Int.not_lt.mpr (Int.le_of_lt above)
    rw [decide_eq_false notBelow, if_neg Bool.false_ne_true, Int.sign_eq_one_of_pos above,
      Int.one_mul]

/-- An integer of at most 53 bits, or `2 ^ 53`, is represented. -/
theorem represents_ofInt (le : m.natAbs ≤ 1 <<< 53) : (ofInt m).Represents m := by
  have bits : m.natAbs.log2 ≤ 53 := log2_le_of_lt (Nat.lt_of_le_of_lt le (by decide))
  have exact := represents_rounded (m := m) (by omega)
  rwa [rounded_of_le le, Int.sign_mul_natAbs] at exact

/-- An integer is not far from the one that it is rounded to. -/
theorem Represents.near (represents : (ofInt m).Represents k) (le : s ≤ 969)
    (lt : m.natAbs < 1 <<< (53 + s)) : (m - k).natAbs ≤ 1 <<< s := by
  have bits : m.natAbs.log2 ≤ 52 + s := log2_le_of_lt (by rwa [Nat.add_right_comm])
  have place : 1 <<< (m.natAbs.log2 - 52) ≤ 1 <<< s := by
    rw [Nat.one_shiftLeft, Nat.one_shiftLeft]
    exact Nat.pow_le_pow_right (by decide) (by omega)
  have near := rounded_near m.natAbs
  obtain rfl := represents.unique (represents_rounded (by omega))
  obtain below | rfl | above := Int.lt_trichotomy m 0
  · rw [Int.sign_eq_neg_one_of_neg below, Int.neg_one_mul]
    omega
  · exact Nat.zero_le _
  · rw [Int.sign_eq_one_of_pos above, Int.one_mul]
    omega

end LinearHost.Binary64
