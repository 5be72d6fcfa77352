import LinearHost.Proofs.Arithmetic.Reinterpretation

/-!
# Strict readings

A reading that wraps around may change the number. A strict one gives what that one gives as long as
the number stays the same, and refuses everything else. Its last step compares a result of 32 bits
with the lower half of the value; below the half range the two are always equal.

## Main definitions

* `Strictly`: how a strict reading depends on one that wraps around.
* `toUnsigned_strict`, `toSigned_strict`: the strict readings in terms of numbers.
* `strict_readings`: both readings refuse exactly the changes of the number.
-/

namespace LinearHost

variable {bits : Nat} {v : Int64} {u : UInt64} {number : Int}

/-- A strict reading of the number `n` gives what the reading that wraps around gives, if that is the
same number, and otherwise a fault that names the number and the width. -/
structure Strictly {α : Type} (n : Int) (bits : Nat) (worth : α → Int)
    (strict wrapped : Except Fault α) : Prop where
  eq_ok_iff (a : α) : strict = .ok a ↔ wrapped = .ok a ∧ worth a = n
  eq_error : (∀ a, wrapped = .ok a → worth a ≠ n) → strict = .error (.signConversion n bits)

/-! ### Unsigned readings -/

/-- A strict unsigned reading refuses negative numbers and no others. -/
theorem toUnsigned_strict (width : IsWidth bits) (v : Int64) :
    toUnsigned v bits .strict =
      if 0 ≤ v.toInt then .ok v.toUInt64 else .error (.signConversion v.toInt bits) := by
  rw [toUnsigned, toUnsignedWith, width.checkWidth_eq_ok]
  by_cases nonneg : 0 ≤ v.toInt
  · simp only [nonneg, if_true]
    rfl
  · simp only [nonneg, if_false]
    rfl

/-- A number that is not negative is read as it is. -/
theorem toUnsigned_wrap_of_nonneg (width : IsWidth bits) (nonneg : 0 ≤ v.toInt) :
    toUnsigned v bits .wrap = .ok v.toUInt64 := by
  obtain ⟨u, answer, number⟩ := exists_toUnsigned_wrap width v
  rw [if_pos nonneg, ← toNat_toUInt64_of_nonneg nonneg, Int.natCast_inj, UInt64.toNat_inj] at number
  rw [answer, number]

theorem toUnsigned_strictly (width : IsWidth bits) (v : Int64) :
    Strictly v.toInt bits (fun u : UInt64 => (u.toNat : Int)) (toUnsigned v bits .strict)
      (toUnsigned v bits .wrap) := by
  rw [toUnsigned_strict width]
  by_cases nonneg : 0 ≤ v.toInt
  · have same := toNat_toUInt64_of_nonneg nonneg
    rw [if_pos nonneg, toUnsigned_wrap_of_nonneg width nonneg]
    refine ⟨fun u => ⟨?_, And.left⟩, fun changed => absurd same (changed _ rfl)⟩
    intro answer
    cases answer
    exact ⟨rfl, same⟩
  · rw [if_neg nonneg]
    refine ⟨fun u => iff_of_false nofun ?_, fun _ => rfl⟩
    rintro ⟨-, same⟩
    omega

/-! ### Signed readings -/

theorem signedNumber_strict (width : IsWidth bits) (u : UInt64) :
    signedNumber .exact u bits .strict =
      if u.toNat < 2 ^ (bits - 1) then .ok u.toNat else .error (.signConversion u.toNat bits) := by
  obtain ⟨half, range⟩ := width.exists_half
  simp only [signedNumber, WideRegisters.exact, range.shift_pred, range.pow_pred]
  split <;> rfl

/-- The lower half of a value below the half range of 32 bits is the value. -/
theorem toInt_signedWord (small : u.toNat < 2 ^ 31) : (signedWord u).toInt64.toInt = u.toNat := by
  have low : u.toUInt32.toNat = u.toNat := by
    rw [UInt64.toNat_toUInt32]
    exact Nat.mod_eq_of_lt (by omega)
  rw [Int32.toInt_toInt64, signedWord, Int32.toInt, UInt32.toBitVec_toInt32,
    BitVec.toInt_eq_toNat_cond, UInt32.toNat_toBitVec, low]
  exact if_pos (by omega)

/-- A strict result of 32 bits is the signed word. -/
theorem eq_signedWord (read : signedNumber .exact u 32 .strict = .ok number)
    (fits : narrowed u 32 number = .ok v) : v = (signedWord u).toInt64 := by
  rw [signedNumber_strict ⟨by decide, by decide⟩] at read
  split at read
  next small =>
    obtain rfl := Except.ok.inj read
    rw [← Int64.toInt_inj, toInt_signedWord small]
    exact narrowed_eq_ok_iff.mp fits
  next => cases read

/-- A strict signed reading refuses the upper half of the range. -/
theorem toSigned_strict (width : IsWidth bits) (u : UInt64) :
    toSigned u bits .strict =
      if u.toNat < 2 ^ (bits - 1) then narrowed u bits u.toNat
      else .error (.signConversion u.toNat bits) := by
  have read := signedNumber_strict width u
  rw [toSigned, toSignedWith, width.checkWidth_eq_ok]
  split
  next small =>
    rw [if_pos small] at read
    cases fits : narrowed u bits u.toNat with
    | error fault => simp [bind, Except.bind, read, fits]
    | ok v =>
      have agrees : bits = 32 → v = (signedWord u).toInt64 := by
        rintro rfl
        exact eq_signedWord read fits
      have passes : ¬ (bits = 32 ∧ v ≠ (signedWord u).toInt64) := by
        rintro ⟨word, differs⟩
        exact differs (agrees word)
      simp only [bind, Except.bind, read, fits, true_and, passes, if_false]
      rfl
  next large =>
    rw [if_neg large] at read
    simp [bind, Except.bind, read]

theorem toSigned_strictly (width : IsWidth bits) (u : UInt64) :
    Strictly u.toNat bits Int64.toInt (toSigned u bits .strict) (toSigned u bits .wrap) := by
  obtain ⟨half, range⟩ := width.exists_half
  have positive := range.positive
  have bounded := range.le
  rw [toSigned_strict width, toSigned_wrap width, range.pow_pred, range.intPow]
  by_cases small : u.toNat < half
  · simp only [if_pos small]
    have read : (Int64.ofInt u.toNat).toInt = u.toNat :=
      Int64.toInt_ofInt_of_le (by omega) (by omega)
    refine ⟨fun v => ?_, fun changed => absurd read (changed _ (narrowed_eq_ok_iff.mpr read))⟩
    exact ⟨fun answer => ⟨answer, narrowed_eq_ok_iff.mp answer⟩, And.left⟩
  · simp only [if_neg small]
    refine ⟨fun v => iff_of_false nofun ?_, fun _ => rfl⟩
    rintro ⟨answer, same⟩
    rw [narrowed_eq_ok_iff] at answer
    omega

/-! ### Both readings -/

/-- At every width, strict readings succeed exactly on the numbers that readings that wrap around
leave as they are, and then with the same result. All other numbers are refused by a fault that names
the number and the width. The signed word that a strict result of 32 bits is compared with is that
result. -/
theorem strict_readings (width : IsWidth bits) :
    (∀ v : Int64, Strictly v.toInt bits (fun u : UInt64 => (u.toNat : Int))
      (toUnsigned v bits .strict) (toUnsigned v bits .wrap)) ∧
    (∀ u : UInt64, Strictly u.toNat bits Int64.toInt
      (toSigned u bits .strict) (toSigned u bits .wrap)) ∧
    ∀ u number v, bits = 32 → signedNumber .exact u bits .strict = .ok number →
      narrowed u bits number = .ok v → v = (signedWord u).toInt64 := by
  refine ⟨toUnsigned_strictly width, toSigned_strictly width, ?_⟩
  rintro u number v rfl read fits
  exact eq_signedWord read fits

/-- Words of 32 bits: a negative number and the half range are refused, a number below it passes the
comparison with the signed word. -/
theorem strict_readings_word :
    IsWidth 32 ∧
    toUnsigned (-5) 32 .strict = .error (.signConversion (-5) 32) ∧
    toUnsigned 5 32 .strict = .ok 5 ∧
    toSigned 0x80000000 32 .strict = .error (.signConversion 0x80000000 32) ∧
    toSigned 0x7FFFFFFF 32 .strict = .ok 0x7FFFFFFF ∧
    0x7FFFFFFF = (signedWord 0x7FFFFFFF).toInt64 := by
  have width : IsWidth 32 := ⟨by decide, by decide⟩
  obtain ⟨unsigned, signed, word⟩ := strict_readings width
  refine ⟨width, (unsigned (-5)).eq_error ?_, ((unsigned 5).eq_ok_iff 5).mpr ⟨rfl, by decide⟩,
    (signed 0x80000000).eq_error ?_, ((signed 0x7FFFFFFF).eq_ok_iff _).mpr ⟨rfl, by decide⟩,
    word 0x7FFFFFFF 0x7FFFFFFF _ rfl rfl rfl⟩
  · intro u answer
    cases answer
    decide
  · intro v answer
    cases answer
    decide

end LinearHost
