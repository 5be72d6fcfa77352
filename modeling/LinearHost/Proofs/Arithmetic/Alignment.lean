import LinearHost.Arithmetic.Alignment

/-!
# Aligned addresses

Rounding gives the least multiple that is not below its target, whichever way it is computed. The
regions of a memory only need that it does not go below; the placement of fields needs all of it.
-/

namespace LinearHost

variable {target quantum n : Nat}

theorem le_roundUpBits (target shift : Nat) : target ≤ roundUpBits target shift := by
  have positive : 0 < 2 ^ shift := Nat.two_pow_pos shift
  have parts := Nat.div_add_mod (target + (2 ^ shift - 1)) (2 ^ shift)
  have rest := Nat.mod_lt (target + (2 ^ shift - 1)) positive
  rw [roundUpBits, Nat.one_shiftLeft, Nat.shiftRight_eq_div_pow, Nat.shiftLeft_eq, Nat.mul_comm]
  omega

theorem le_ceilDiv_mul (n : Nat) {d : Nat} (positive : 0 < d) : n ≤ ceilDiv n d * d := by
  have parts := Nat.div_add_mod n d
  have rest := Nat.mod_lt n positive
  rw [ceilDiv, Nat.mul_comm]
  split
  · omega
  · rw [Nat.mul_add]
    omega

/-- A block never ends beyond its aligned end. -/
theorem le_alignUp (target quantum : Nat) : target ≤ alignUp target quantum := by
  rw [alignUp]
  split
  · exact Nat.le_refl target
  · split
    · exact le_roundUpBits target _
    · exact le_ceilDiv_mul target (by omega)

theorem dvd_roundUpBits (target shift : Nat) : 1 <<< shift ∣ roundUpBits target shift := by
  rw [roundUpBits, Nat.shiftLeft_eq (_ >>> _), Nat.one_shiftLeft]
  exact Nat.dvd_mul_left ..

/-- A multiple that is not below the target is not below what the target is rounded to. -/
theorem roundUpBits_le_of_dvd {shift : Nat} (multiple : 1 <<< shift ∣ n) (le : target ≤ n) :
    roundUpBits target shift ≤ n := by
  obtain ⟨k, rfl⟩ := multiple
  rw [Nat.one_shiftLeft] at le ⊢
  have positive : 0 < 2 ^ shift := Nat.two_pow_pos shift
  have quotient : (target + (2 ^ shift - 1)) / 2 ^ shift ≤ k := by
    rw [← Nat.lt_succ_iff, Nat.div_lt_iff_lt_mul positive, Nat.succ_mul, Nat.mul_comm k]
    omega
  rw [roundUpBits, Nat.one_shiftLeft, Nat.shiftRight_eq_div_pow, Nat.shiftLeft_eq, Nat.mul_comm]
  exact Nat.mul_le_mul_left _ quotient

theorem ceilDiv_mul_le_of_dvd {d : Nat} (positive : 0 < d) (multiple : d ∣ n) (le : target ≤ n) :
    ceilDiv target d * d ≤ n := by
  obtain ⟨k, rfl⟩ := multiple
  have quotient : ceilDiv target d ≤ k := by
    have parts := Nat.div_add_mod target d
    rw [ceilDiv]
    split
    next whole =>
      rw [whole] at parts
      exact Nat.le_of_mul_le_mul_left (by omega) positive
    next broken =>
      -- a remainder is left, so the quotient lies strictly below
      have below : d * (target / d) < d * k := by omega
      exact Nat.lt_of_mul_lt_mul_left below
  rw [Nat.mul_comm]
  exact Nat.mul_le_mul_left _ quotient

/-- Rounding up gives a multiple, whichever way it is computed. -/
theorem dvd_alignUp (target : Nat) (positive : 0 < quantum) : quantum ∣ alignUp target quantum := by
  rw [alignUp]
  split
  next small =>
    obtain rfl : quantum = 1 := by omega
    exact Nat.one_dvd target
  next =>
    split
    next power =>
      have multiple := dvd_roundUpBits target quantum.log2
      rwa [← power] at multiple
    next => exact Nat.dvd_mul_left ..

/-- No multiple between the target and what it is rounded to. -/
theorem alignUp_le_of_dvd (positive : 0 < quantum) (multiple : quantum ∣ n) (le : target ≤ n) :
    alignUp target quantum ≤ n := by
  rw [alignUp]
  split
  next => exact le
  next =>
    split
    next power => exact roundUpBits_le_of_dvd (power ▸ multiple) le
    next => exact ceilDiv_mul_le_of_dvd positive multiple le

/-- Rounding up never falls below its target. -/
theorem Quantum.le_align (q : Quantum) (target : Nat) : target ≤ q.align target :=
  le_roundUpBits target _

end LinearHost
