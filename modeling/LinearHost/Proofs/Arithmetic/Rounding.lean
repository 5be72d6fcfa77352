import LinearHost.Proofs.Arithmetic.Alignment
import Mathlib.Order.Bounds.Basic

/-!
# Rounding up in words

Rounding up by shifting and rounding up by dividing lead to the same number, the least multiple that
is not below the target. Both are meant to be computed in words of 64 bits, where the numbers on the
way have to be words as well. They are as long as the result is one: a power of two divides the
number of all words, so up to the last multiple there is room to add the quantum less 1; and a
quotient is not above its product.

## Main definitions

* `multiplesFrom`, `isLeast_alignUp`: the numbers that a target may be rounded up to.
* `alignUp?`, `roundUpBits?`, `ceilingUp?`: rounding in words.
* `alignUp?_eq`: rounding in words fails only where no word can be the result.
* `alignUp_exact`: what all ways of rounding up have in common.
-/

namespace LinearHost

variable {target quantum shift n d : Nat} {q : Quantum}

/-! ### The least multiple -/

/-- The multiples of a quantum that are not below a target. A quantum of 0 stands for 1. -/
def multiplesFrom (target quantum : Nat) : Set Nat :=
  {n | max quantum 1 ∣ n ∧ target ≤ n}

/-- Rounding up gives the least multiple that is not below the target. -/
theorem isLeast_alignUp (target quantum : Nat) :
    IsLeast (multiplesFrom target quantum) (alignUp target quantum) := by
  rcases Nat.eq_zero_or_pos quantum with rfl | positive
  · exact ⟨⟨Nat.one_dvd _, Nat.le_refl _⟩, fun n member => member.2⟩
  · have whole : max quantum 1 = quantum := Nat.max_eq_left positive
    rw [multiplesFrom, whole]
    refine ⟨⟨dvd_alignUp target positive, le_alignUp ..⟩, ?_⟩
    rintro n ⟨multiple, le⟩
    exact alignUp_le_of_dvd positive multiple le

/-- What rounding up gives is already a multiple. -/
theorem alignUp_eq_self_iff : alignUp n quantum = n ↔ max quantum 1 ∣ n := by
  constructor
  · intro same
    rw [← same]
    exact (isLeast_alignUp n quantum).1.1
  · intro multiple
    exact (isLeast_alignUp n quantum).unique ⟨⟨multiple, Nat.le_refl n⟩, fun m member => member.2⟩

theorem alignUp_alignUp (target quantum : Nat) :
    alignUp (alignUp target quantum) quantum = alignUp target quantum :=
  alignUp_eq_self_iff.mpr (isLeast_alignUp target quantum).1.1

theorem alignUp_mono {more : Nat} (le : target ≤ more) :
    alignUp target quantum ≤ alignUp more quantum := by
  obtain ⟨multiple, above⟩ := (isLeast_alignUp more quantum).1
  exact (isLeast_alignUp target quantum).2 ⟨multiple, Nat.le_trans le above⟩

theorem one_shiftLeft_pos (shift : Nat) : 0 < 1 <<< shift := by
  rw [Nat.one_shiftLeft]
  exact Nat.two_pow_pos shift

/-- Shifting rounds up to the least multiple of a power of two. -/
theorem roundUpBits_eq (target shift : Nat) :
    roundUpBits target shift = alignUp target (1 <<< shift) := by
  have positive := one_shiftLeft_pos shift
  apply Nat.le_antisymm
  · exact roundUpBits_le_of_dvd (dvd_alignUp target positive) (le_alignUp ..)
  · exact alignUp_le_of_dvd positive (dvd_roundUpBits ..) (le_roundUpBits ..)

/-- Dividing rounds up to the least multiple of any quantum. -/
theorem ceilDiv_mul_eq (target : Nat) (positive : 0 < quantum) :
    ceilDiv target quantum * quantum = alignUp target quantum := by
  apply Nat.le_antisymm
  · exact ceilDiv_mul_le_of_dvd positive (dvd_alignUp target positive) (le_alignUp ..)
  · exact alignUp_le_of_dvd positive (Nat.dvd_mul_left ..) (le_ceilDiv_mul target positive)

namespace Quantum

theorem bytes_pos (q : Quantum) : 0 < q.bytes :=
  one_shiftLeft_pos _

theorem align_eq (q : Quantum) (target : Nat) : q.align target = alignUp target q.bytes :=
  roundUpBits_eq target _

theorem isAligned_iff : q.isAligned n = true ↔ q.bytes ∣ n := by
  rw [isAligned, bytes, Nat.one_shiftLeft, Nat.and_two_pow_sub_one_eq_mod, decide_eq_true_iff,
    Nat.dvd_iff_mod_eq_zero]

theorem align_eq_self_iff : q.align n = n ↔ q.isAligned n = true := by
  rw [align_eq, alignUp_eq_self_iff, isAligned_iff, Nat.max_eq_left q.bytes_pos]

end Quantum

/-! ### Rounding in words -/

/-- The number, if it is a word of 64 bits. -/
def word? (n : Nat) : Option Nat :=
  if n < addressSpace then some n else none

/-- Rounding up by shifts; no number if one on the way is not a word. -/
def roundUpBits? (target shift : Nat) : Option Nat := do
  let mask ← word? (1 <<< shift - 1)
  let raised ← word? (target + mask)
  let quotient ← word? (raised >>> shift)
  word? (quotient <<< shift)

def ceilDiv? (n d : Nat) : Option Nat := do
  let quotient ← word? (n / d)
  let rest ← word? (n % d)
  if rest = 0 then return quotient else word? (quotient + 1)

def ceilingUp? (target quantum : Nat) : Option Nat := do
  let quotient ← ceilDiv? target quantum
  word? (quotient * quantum)

def alignUp? (target quantum : Nat) : Option Nat :=
  if quantum ≤ 1 then word? target
  else if quantum = 1 <<< quantum.log2 then roundUpBits? target quantum.log2
  else ceilingUp? target quantum

theorem word?_of_lt (lt : n < addressSpace) : word? n = some n := if_pos lt

theorem word?_of_le (le : addressSpace ≤ n) : word? n = none := if_neg (Nat.not_lt_of_le le)

/-- Two multiples differ by the quantum at least. -/
theorem add_le_of_dvd {a b : Nat} (left : d ∣ a) (right : d ∣ b) (lt : a < b) : a + d ≤ b := by
  obtain ⟨j, rfl⟩ := left
  obtain ⟨k, rfl⟩ := right
  rw [← Nat.mul_succ]
  exact Nat.mul_le_mul_left d (Nat.lt_of_mul_lt_mul_left lt)

/-- A power of two that is no larger than the number of words divides it. -/
theorem dvd_addressSpace (small : 1 <<< shift ≤ addressSpace) : 1 <<< shift ∣ addressSpace := by
  have words : addressSpace = 2 ^ 64 := rfl
  rw [Nat.one_shiftLeft, words] at small ⊢
  exact Nat.pow_dvd_pow 2 ((Nat.pow_le_pow_iff_right Nat.one_lt_two).mp small)

/-- Shifting in words fails only if the result is not a word. -/
theorem roundUpBits?_eq (target : Nat) (small : 1 <<< shift ≤ addressSpace) :
    roundUpBits? target shift = word? (roundUpBits target shift) := by
  have le := le_roundUpBits target shift
  have positive := one_shiftLeft_pos shift
  have mask : word? (1 <<< shift - 1) = some (1 <<< shift - 1) := word?_of_lt (by omega)
  by_cases fits : roundUpBits target shift < addressSpace
  · -- the last multiple among the words leaves room for the quantum less 1
    have room : roundUpBits target shift + 1 <<< shift ≤ addressSpace :=
      add_le_of_dvd (dvd_roundUpBits ..) (dvd_addressSpace small) fits
    have raised : target + (1 <<< shift - 1) < addressSpace := by omega
    have quotient : (target + (1 <<< shift - 1)) >>> shift < addressSpace :=
      Nat.lt_of_le_of_lt (Nat.shiftRight_le ..) raised
    simp [roundUpBits?, mask, word?_of_lt raised, word?_of_lt quotient, roundUpBits]
  · have above := Nat.le_of_not_lt fits
    have below : roundUpBits target shift ≤ target + (1 <<< shift - 1) := by
      rw [roundUpBits, Nat.shiftLeft_eq (_ >>> _), Nat.shiftRight_eq_div_pow, ← Nat.one_shiftLeft]
      exact Nat.div_mul_le_self ..
    have raised : addressSpace ≤ target + (1 <<< shift - 1) := Nat.le_trans above below
    simp [roundUpBits?, mask, word?_of_le raised, word?_of_le above]

/-- Dividing in words fails only if the quotient is not a word. -/
theorem ceilDiv?_eq (n : Nat) (positive : 0 < d) (small : d < addressSpace) :
    ceilDiv? n d = word? (ceilDiv n d) := by
  have rest : n % d < addressSpace := Nat.lt_trans (Nat.mod_lt n positive) small
  by_cases fits : n / d < addressSpace
  · simp only [ceilDiv?, word?_of_lt fits, word?_of_lt rest, ceilDiv, Option.bind_eq_bind,
      Option.bind_some]
    split
    next => exact (word?_of_lt fits).symm
    next => rfl
  · have above := Nat.le_of_not_lt fits
    have rounded : addressSpace ≤ ceilDiv n d := by
      rw [ceilDiv]
      split <;> omega
    simp [ceilDiv?, word?_of_le above, word?_of_le rounded]

/-- Rounding up by a division in words fails only if the result is not a word. -/
theorem ceilingUp?_eq (target : Nat) (positive : 0 < quantum) (small : quantum < addressSpace) :
    ceilingUp? target quantum = word? (ceilDiv target quantum * quantum) := by
  have le : ceilDiv target quantum ≤ ceilDiv target quantum * quantum :=
    Nat.le_mul_of_pos_right _ positive
  rw [ceilingUp?, ceilDiv?_eq target positive small]
  by_cases fits : ceilDiv target quantum < addressSpace
  · simp [word?_of_lt fits]
  · have above := Nat.le_of_not_lt fits
    simp [word?_of_le above, word?_of_le (Nat.le_trans above le)]

/-- Rounding up in words fails only if the result is not a word. -/
theorem alignUp?_eq (target : Nat) (small : quantum < addressSpace) :
    alignUp? target quantum = word? (alignUp target quantum) := by
  rw [alignUp?, alignUp]
  split
  next => rfl
  next =>
    split
    next power => exact roundUpBits?_eq target (power ▸ Nat.le_of_lt small)
    next => exact ceilingUp?_eq target (by omega) small

/-- Rounding up gives the least multiple that is not below the target. If there is such a multiple
among the words, then every number on the way to it is a word too, by shifts and by a division, and
if there is none, one on the way is not. Both ways give the same number for powers of two, and the
quantum of a host rounds as they do. A number is what it is rounded to exactly if it is aligned;
rounding again changes nothing, and rounding up a larger number gives no smaller one. -/
theorem alignUp_exact (target quantum : Nat) (small : quantum < addressSpace) :
    IsLeast (multiplesFrom target quantum) (alignUp target quantum) ∧
    ((∃ n ∈ multiplesFrom target quantum, n < addressSpace) →
      alignUp? target quantum = some (alignUp target quantum) ∧
      ceilingUp? target (max quantum 1) = some (alignUp target quantum) ∧
      ∀ shift, quantum = 1 <<< shift → roundUpBits? target shift = some (alignUp target quantum)) ∧
    ((∀ n ∈ multiplesFrom target quantum, addressSpace ≤ n) → alignUp? target quantum = none) ∧
    (∀ shift, roundUpBits target shift = ceilDiv target (1 <<< shift) * 1 <<< shift) ∧
    (∀ q : Quantum,
      q.align target = alignUp target q.bytes ∧
      q.alignWith target quantum = alignUp target (if quantum = 0 then q.bytes else quantum) ∧
      (q.isAligned target = true ↔ q.align target = target)) ∧
    alignUp (alignUp target quantum) quantum = alignUp target quantum ∧
    ∀ more, target ≤ more → alignUp target quantum ≤ alignUp more quantum := by
  have least := isLeast_alignUp target quantum
  refine ⟨least, ?_, ?_, ?_, ?_, alignUp_alignUp target quantum, fun more le => alignUp_mono le⟩
  · rintro ⟨n, member, lt⟩
    have fits : alignUp target quantum < addressSpace := Nat.lt_of_le_of_lt (least.2 member) lt
    have whole : max quantum 1 < addressSpace := Nat.max_lt.mpr ⟨small, by decide⟩
    have same : alignUp target (max quantum 1) = alignUp target quantum := by
      refine (isLeast_alignUp target (max quantum 1)).unique ?_
      simpa [multiplesFrom] using least
    refine ⟨?_, ?_, ?_⟩
    · rw [alignUp?_eq target small, word?_of_lt fits]
    · have positive : 0 < max quantum 1 := Nat.le_max_right ..
      rw [ceilingUp?_eq target positive whole, ceilDiv_mul_eq target positive, same,
        word?_of_lt fits]
    · rintro shift rfl
      rw [roundUpBits?_eq target (Nat.le_of_lt small), roundUpBits_eq, word?_of_lt fits]
  · intro beyond
    rw [alignUp?_eq target small, word?_of_le (beyond _ least.1)]
  · intro shift
    rw [roundUpBits_eq, ceilDiv_mul_eq target (one_shiftLeft_pos shift)]
  · intro q
    refine ⟨q.align_eq target, ?_, Quantum.align_eq_self_iff.symm⟩
    rw [Quantum.alignWith, q.align_eq]
    split <;> rfl

/-- Close to the largest word, 7 divides the largest word less 1. The target before it is still
rounded up to it, but the largest word is not. There is room for multiples of 64 up to the last
one. -/
theorem alignUp_exact_last :
    alignUp? 0xFFFFFFFFFFFFFFF8 7 = some 0xFFFFFFFFFFFFFFFE ∧
    alignUp? 0xFFFFFFFFFFFFFFFF 7 = none ∧
    roundUpBits? 0xFFFFFFFFFFFFFFC0 6 = some 0xFFFFFFFFFFFFFFC0 ∧
    ceilingUp? 0xFFFFFFFFFFFFFFC0 64 = some 0xFFFFFFFFFFFFFFC0 ∧
    alignUp? 0xFFFFFFFFFFFFFFC1 64 = none := by
  obtain ⟨-, within, -⟩ := alignUp_exact 0xFFFFFFFFFFFFFFF8 7 (by decide)
  obtain ⟨-, -, without, -⟩ := alignUp_exact 0xFFFFFFFFFFFFFFFF 7 (by decide)
  obtain ⟨-, last, -⟩ := alignUp_exact 0xFFFFFFFFFFFFFFC0 64 (by decide)
  obtain ⟨-, -, beyond, -⟩ := alignUp_exact 0xFFFFFFFFFFFFFFC1 64 (by decide)
  obtain ⟨-, divided, shifted⟩ := last ⟨_, ⟨⟨0x3FFFFFFFFFFFFFF, rfl⟩, by decide⟩, by decide⟩
  refine ⟨(within ⟨_, ⟨⟨0x2492492492492492, rfl⟩, by decide⟩, by decide⟩).1, without ?_,
    shifted 6 rfl, divided, beyond ?_⟩
  · rintro n ⟨⟨k, rfl⟩, le⟩
    show addressSpace ≤ 7 * k
    have le : 0xFFFFFFFFFFFFFFFF ≤ 7 * k := le
    have words : addressSpace = 0x10000000000000000 := rfl
    omega
  · rintro n ⟨⟨k, rfl⟩, le⟩
    have le : 0xFFFFFFFFFFFFFFC1 ≤ 64 * k := le
    have words : addressSpace = 0x10000000000000000 := rfl
    show addressSpace ≤ 64 * k
    omega

end LinearHost
