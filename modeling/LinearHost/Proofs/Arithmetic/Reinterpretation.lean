import LinearHost.Arithmetic.Reinterpret
import Mathlib.Algebra.Divisibility.Basic
import Mathlib.Algebra.Group.Int.Defs
import Mathlib.Algebra.Group.Nat.Defs
import Mathlib.Data.Set.Operations

/-!
# Signed and unsigned readings

A reading that wraps around moves a number by a multiple of `2 ^ bits`. Between the numbers that
`bits` bits can hold, signed and unsigned, the two readings are inverse to each other. The numbers on
the way fit registers of 128 bits.

## Main definitions

* `signedRange`, `unsignedRange`: the numbers that a width can hold.
* `WideRegisters.Sound`: registers of 128 bits.
* `exists_toUnsigned_wrap`, `toSigned_wrap`: the readings in terms of numbers.
* `readings_lossless`: readings that wrap around are inverse, and keep residues.
-/

namespace LinearHost

variable {wide : WideRegisters} {bits : Nat} {check : SignCheck} {v : Int64} {u : UInt64}
  {fault : Fault} {number : Int}

def signedRange (bits : Nat) : Set Int64 :=
  {v | -2 ^ (bits - 1) ≤ v.toInt ∧ v.toInt < 2 ^ (bits - 1)}

def unsignedRange (bits : Nat) : Set UInt64 :=
  {u | u.toNat < 2 ^ bits}

/-! ### Widths -/

structure IsWidth (bits : Nat) : Prop where
  positive : 1 ≤ bits
  le : bits ≤ 64

theorem IsWidth.checkWidth_eq_ok (width : IsWidth bits) : checkWidth bits = .ok () :=
  if_pos ⟨width.positive, width.le⟩

/-- Half the range of a width, in the forms in which the readings use it. -/
structure Half (bits half : Nat) : Prop where
  positive : 1 ≤ half
  le : half ≤ 2 ^ 63
  shift_pred : 1 <<< (bits - 1) = half
  shift : 1 <<< bits = 2 * half
  pow_pred : 2 ^ (bits - 1) = half
  pow : 2 ^ bits = 2 * half
  intPow_pred : (2 : Int) ^ (bits - 1) = half
  intPow : (2 : Int) ^ bits = 2 * half

theorem IsWidth.exists_half (width : IsWidth bits) : ∃ half, Half bits half := by
  obtain ⟨k, rfl⟩ : ∃ k, bits = k + 1 := ⟨bits - 1, by have := width.positive; omega⟩
  refine ⟨2 ^ k, ?_⟩
  constructor
  · exact Nat.one_le_two_pow
  · exact Nat.pow_le_pow_right (by decide) (by have := width.le; omega)
  · exact Nat.one_shiftLeft k
  · rw [Nat.one_shiftLeft, Nat.pow_succ, Nat.mul_comm]
  · rfl
  · rw [Nat.pow_succ, Nat.mul_comm]
  · push_cast
    rfl
  · push_cast
    rw [Int.pow_succ, Int.mul_comm]

theorem toNat_ofInt (number : Int) : ((UInt64.ofInt number).toNat : Int) = number % 2 ^ 64 := by
  simp [UInt64.ofInt]
  omega

theorem toNat_toUInt64_of_nonneg (nonneg : 0 ≤ v.toInt) : (v.toUInt64.toNat : Int) = v.toInt := by
  rw [Int64.toNat_toUInt64_of_le (Int64.le_iff_toInt_le.mpr nonneg)]
  exact Int.toNat_of_nonneg nonneg

/-- An unsigned reading that wraps around is never refused. -/
theorem exists_toUnsigned_wrap (width : IsWidth bits) (v : Int64) :
    ∃ u, toUnsigned v bits .wrap = .ok u ∧
      (u.toNat : Int) = if 0 ≤ v.toInt then v.toInt else (2 ^ bits + v.toInt) % 2 ^ 64 := by
  obtain ⟨half, range⟩ := width.exists_half
  rw [toUnsigned, toUnsignedWith, width.checkWidth_eq_ok]
  by_cases nonneg : 0 ≤ v.toInt
  · refine ⟨v.toUInt64, ?_, ?_⟩
    · simp only [nonneg, if_true]
      rfl
    · rw [if_pos nonneg, toNat_toUInt64_of_nonneg nonneg]
  · refine ⟨UInt64.ofInt ((1 <<< bits : Nat) + v.toInt), ?_, ?_⟩
    · simp only [nonneg, if_false]
      rfl
    · rw [if_neg nonneg, toNat_ofInt, range.shift, range.intPow]
      rfl

/-- Narrowing to 64 bits keeps the number or fails. -/
theorem narrowed_eq_ok_iff : narrowed u bits number = .ok v ↔ v.toInt = number := by
  have low := v.le_toInt
  have high := v.toInt_lt
  rw [narrowed, Int64.toInt_minValue, Int64.toInt_maxValue]
  split
  next fits =>
    rw [Except.ok.injEq, ← Int64.toInt_inj, Int64.toInt_ofInt_of_le fits.1 (by omega)]
    exact eq_comm
  next beyond => exact iff_of_false nofun (by omega)

theorem narrowed_eq_error_iff :
    narrowed u bits number = .error fault ↔
      (number < -2 ^ 63 ∨ 2 ^ 63 ≤ number) ∧ fault = .signConversion u.toNat bits := by
  rw [narrowed, Int64.toInt_minValue, Int64.toInt_maxValue]
  split
  next fits => exact iff_of_false nofun (by omega)
  next beyond =>
    rw [Except.error.injEq, eq_comm]
    exact (and_iff_right (by omega)).symm

/-- Read in two's complement, the upper half of the range becomes negative. -/
theorem signedNumber_wrap (width : IsWidth bits) (u : UInt64) :
    signedNumber .exact u bits .wrap =
      .ok (if u.toNat < 2 ^ (bits - 1) then u.toNat else u.toNat - 2 ^ bits) := by
  obtain ⟨half, range⟩ := width.exists_half
  simp only [signedNumber, WideRegisters.exact, range.shift_pred, range.shift, range.pow_pred,
    range.intPow]
  split <;> rfl

/-- A signed reading that wraps around is refused only if 64 bits have no room for the number. -/
theorem toSigned_wrap (width : IsWidth bits) (u : UInt64) :
    toSigned u bits .wrap =
      narrowed u bits (if u.toNat < 2 ^ (bits - 1) then u.toNat else u.toNat - 2 ^ bits) := by
  rw [toSigned, toSignedWith, width.checkWidth_eq_ok, signedNumber_wrap width]
  show (narrowed u bits _ >>= fun result => _) = _
  cases narrowed u bits _ <;> rfl

/-! ### Registers of 128 bits -/

/-- Registers that hold the numbers of 128 bits as they are, and of others anything. -/
structure WideRegisters.Sound (wide : WideRegisters) : Prop where
  signed : ∀ n : Int, -2 ^ 127 ≤ n → n < 2 ^ 127 → wide.signed n = n
  unsigned : ∀ n : Nat, n < 2 ^ 128 → wide.unsigned n = n

/-- The registers for 128 bits do not matter, as long as they hold what fits them. -/
theorem toUnsignedWith_eq (sound : wide.Sound) (width : IsWidth bits) (v : Int64)
    (check : SignCheck) : toUnsignedWith wide v bits check = toUnsigned v bits check := by
  obtain ⟨half, range⟩ := width.exists_half
  have bounded := range.le
  have full := range.shift
  have low := v.le_toInt
  have high := v.toInt_lt
  have power : wide.signed (1 <<< bits : Nat) = (1 <<< bits : Nat) :=
    sound.signed _ (by omega) (by omega)
  have sum : wide.signed ((1 <<< bits : Nat) + v.toInt) = (1 <<< bits : Nat) + v.toInt :=
    sound.signed _ (by omega) (by omega)
  simp only [toUnsigned, toUnsignedWith, power, sum, WideRegisters.exact]

theorem signedNumber_eq (sound : wide.Sound) (width : IsWidth bits) (u : UInt64)
    (check : SignCheck) : signedNumber wide u bits check = signedNumber .exact u bits check := by
  obtain ⟨half, range⟩ := width.exists_half
  have bounded := range.le
  have halved := range.shift_pred
  have full := range.shift
  have small := u.toNat_lt
  have value : wide.unsigned u.toNat = u.toNat := sound.unsigned _ (by omega)
  have below : wide.unsigned (1 <<< (bits - 1)) = 1 <<< (bits - 1) := sound.unsigned _ (by omega)
  have power : wide.signed (1 <<< bits : Nat) = (1 <<< bits : Nat) :=
    sound.signed _ (by omega) (by omega)
  have difference : wide.signed (u.toNat - (1 <<< bits : Nat)) = u.toNat - (1 <<< bits : Nat) :=
    sound.signed _ (by omega) (by omega)
  rw [signedNumber, signedNumber, value, below, power, difference]
  rfl

theorem toSignedWith_eq (sound : wide.Sound) (width : IsWidth bits) (u : UInt64)
    (check : SignCheck) : toSignedWith wide u bits check = toSigned u bits check := by
  rw [toSigned, toSignedWith, toSignedWith, signedNumber_eq sound width]

/-! ### Readings that wrap around -/

/-- An unsigned reading that wraps around keeps the residue. -/
theorem toUnsigned_residue (width : IsWidth bits) (v : Int64) :
    ∃ u, toUnsigned v bits .wrap = .ok u ∧ (u.toNat : Int) % 2 ^ bits = v.toInt % 2 ^ bits := by
  obtain ⟨u, answer, number⟩ := exists_toUnsigned_wrap width v
  refine ⟨u, answer, ?_⟩
  rw [number]
  split
  · rfl
  · have divides : (2 : Int) ^ bits ∣ 2 ^ 64 := pow_dvd_pow 2 width.le
    rw [Int.emod_emod_of_dvd _ divides, Int.add_emod_left]

theorem toSigned_residue (width : IsWidth bits) (answer : toSigned u bits .wrap = .ok v) :
    v.toInt % 2 ^ bits = u.toNat % 2 ^ bits := by
  rw [toSigned_wrap width, narrowed_eq_ok_iff] at answer
  rw [answer]
  split
  · rfl
  · rw [Int.sub_emod_right]

/-- A signed reading that wraps around fails only if the result is too large for 64 bits. -/
theorem toSigned_eq_error_iff (width : IsWidth bits) :
    toSigned u bits .wrap = .error fault ↔
      Int64.maxValue.toInt < u.toNat - 2 ^ bits ∧ fault = .signConversion u.toNat bits := by
  obtain ⟨half, range⟩ := width.exists_half
  have positive := range.positive
  have bounded := range.le
  have small := u.toNat_lt
  rw [toSigned_wrap width, narrowed_eq_error_iff, Int64.toInt_maxValue, range.pow_pred,
    range.intPow]
  refine and_congr_left fun _ => ?_
  split <;> omega

/-- Between the ranges of a width, either reading takes back the other. -/
theorem toUnsigned_eq_ok_iff (width : IsWidth bits) (signed : v ∈ signedRange bits)
    (unsigned : u ∈ unsignedRange bits) :
    toUnsigned v bits .wrap = .ok u ↔ toSigned u bits .wrap = .ok v := by
  obtain ⟨half, range⟩ := width.exists_half
  have positive := range.positive
  have bounded := range.le
  obtain ⟨w, answer, number⟩ := exists_toUnsigned_wrap width v
  obtain ⟨low, high⟩ := signed
  have small : u.toNat < 2 ^ bits := unsigned
  rw [range.intPow_pred] at low high
  rw [range.pow] at small
  rw [range.intPow] at number
  rw [answer, toSigned_wrap width, narrowed_eq_ok_iff, Except.ok.injEq, ← UInt64.toNat_inj,
    range.pow_pred, range.intPow]
  split <;> split at number <;> omega

theorem exists_toUnsigned (width : IsWidth bits) (signed : v ∈ signedRange bits) :
    ∃ u ∈ unsignedRange bits, toUnsigned v bits .wrap = .ok u := by
  obtain ⟨half, range⟩ := width.exists_half
  have positive := range.positive
  have bounded := range.le
  obtain ⟨u, answer, number⟩ := exists_toUnsigned_wrap width v
  refine ⟨u, ?_, answer⟩
  obtain ⟨low, high⟩ := signed
  rw [range.intPow_pred] at low high
  rw [range.intPow] at number
  show u.toNat < 2 ^ bits
  rw [range.pow]
  split at number <;> omega

theorem exists_toSigned (width : IsWidth bits) (unsigned : u ∈ unsignedRange bits) :
    ∃ v ∈ signedRange bits, toSigned u bits .wrap = .ok v := by
  obtain ⟨half, range⟩ := width.exists_half
  have positive := range.positive
  have bounded := range.le
  have small : u.toNat < 2 ^ bits := unsigned
  rw [range.pow] at small
  -- the number that is read lies in the signed range
  obtain ⟨number, number_eq⟩ : ∃ number : Int,
      number = if u.toNat < half then (u.toNat : Int) else u.toNat - 2 * half := ⟨_, rfl⟩
  have low : -half ≤ number := by split at number_eq <;> omega
  have high : number < half := by split at number_eq <;> omega
  have read : (Int64.ofInt number).toInt = number :=
    Int64.toInt_ofInt_of_le (by omega) (by omega)
  refine ⟨Int64.ofInt number, ⟨?_, ?_⟩, ?_⟩
  · rwa [read, range.intPow_pred]
  · rwa [read, range.intPow_pred]
  · rwa [toSigned_wrap width, narrowed_eq_ok_iff, read, range.pow_pred, range.intPow]

/-- At every width, readings that wrap around match the signed numbers one by one with the unsigned
ones, and each takes back the other. Of any number, also outside these ranges, a reading gives one
that differs from it by a multiple of `2 ^ bits`; an unsigned reading is never refused, and a signed
one is exactly if what it would give exceeds 64 bits. Registers of 128 bits hold all numbers on the
way. -/
theorem readings_lossless (width : IsWidth bits) :
    Set.BijOn (toUnsigned · bits .wrap) (signedRange bits) (Except.ok '' unsignedRange bits) ∧
    (∀ v ∈ signedRange bits,
      (toUnsigned v bits .wrap).bind (toSigned · bits .wrap) = .ok v) ∧
    (∀ u ∈ unsignedRange bits,
      (toSigned u bits .wrap).bind (toUnsigned · bits .wrap) = .ok u) ∧
    (∀ v, ∃ u, toUnsigned v bits .wrap = .ok u ∧
      (u.toNat : Int) % 2 ^ bits = v.toInt % 2 ^ bits) ∧
    (∀ u v, toSigned u bits .wrap = .ok v → v.toInt % 2 ^ bits = u.toNat % 2 ^ bits) ∧
    (∀ u fault, toSigned u bits .wrap = .error fault ↔
      Int64.maxValue.toInt < u.toNat - 2 ^ bits ∧ fault = .signConversion u.toNat bits) ∧
    ∀ wide : WideRegisters, wide.Sound → ∀ check,
      (∀ v, toUnsignedWith wide v bits check = toUnsigned v bits check) ∧
        ∀ u, toSignedWith wide u bits check = toSigned u bits check := by
  refine ⟨⟨?_, ?_, ?_⟩, ?_, ?_, toUnsigned_residue width, fun u v => toSigned_residue width,
    fun u fault => toSigned_eq_error_iff width, ?_⟩
  · intro v signed
    obtain ⟨u, unsigned, answer⟩ := exists_toUnsigned width signed
    exact ⟨u, unsigned, answer.symm⟩
  · intro v signed w signed' same
    obtain ⟨u, unsigned, answer⟩ := exists_toUnsigned width signed
    have back := (toUnsigned_eq_ok_iff width signed unsigned).mp answer
    have back' := (toUnsigned_eq_ok_iff width signed' unsigned).mp (same.symm.trans answer)
    exact Except.ok.inj (back.symm.trans back')
  · rintro _ ⟨u, unsigned, rfl⟩
    obtain ⟨v, signed, answer⟩ := exists_toSigned width unsigned
    exact ⟨v, signed, (toUnsigned_eq_ok_iff width signed unsigned).mpr answer⟩
  · intro v signed
    obtain ⟨u, unsigned, answer⟩ := exists_toUnsigned width signed
    rw [answer]
    exact (toUnsigned_eq_ok_iff width signed unsigned).mp answer
  · intro u unsigned
    obtain ⟨v, signed, answer⟩ := exists_toSigned width unsigned
    rw [answer]
    exact (toUnsigned_eq_ok_iff width signed unsigned).mpr answer
  · intro wide sound check
    exact ⟨fun v => toUnsignedWith_eq sound width v check,
      fun u => toSignedWith_eq sound width u check⟩

/-- Bytes, numbers beyond the ranges of a byte, and registers that wrap around themselves. -/
theorem readings_lossless_byte :
    let wide : WideRegisters := ⟨(·.bmod (2 ^ 128)), (· % 2 ^ 128)⟩
    IsWidth 8 ∧ wide.Sound ∧
    (-100 ∈ signedRange 8 ∧ (toUnsigned (-100) 8 .wrap).bind (toSigned · 8 .wrap) = .ok (-100)) ∧
    (200 ∈ unsignedRange 8 ∧ (toSigned 200 8 .wrap).bind (toUnsigned · 8 .wrap) = .ok 200) ∧
    (∃ u, toUnsigned (-300) 8 .wrap = .ok u ∧ (u.toNat : Int) % 2 ^ 8 = (-300) % 2 ^ 8) ∧
    toSigned 0x8000000000000100 8 .wrap = .error (.signConversion 0x8000000000000100 8) ∧
    toUnsignedWith wide (-300) 8 .wrap = toUnsigned (-300) 8 .wrap := by
  intro wide
  have width : IsWidth 8 := ⟨by decide, by decide⟩
  have sound : wide.Sound := by
    constructor
    · intro n low high
      exact Int.bmod_eq_of_le (by omega) (by omega)
    · intro n small
      exact Nat.mod_eq_of_lt small
  have signed : -100 ∈ signedRange 8 := by
    constructor <;> decide
  have unsigned : 200 ∈ unsignedRange 8 := by
    show (200 : UInt64).toNat < 2 ^ 8
    decide
  obtain ⟨-, back, back', residue, -, refused, registers⟩ := readings_lossless width
  refine ⟨width, sound, ⟨signed, back _ signed⟩, ⟨unsigned, back' _ unsigned⟩, residue (-300), ?_,
    (registers wide sound .wrap).1 (-300)⟩
  rw [refused]
  exact ⟨by decide, rfl⟩

end LinearHost
