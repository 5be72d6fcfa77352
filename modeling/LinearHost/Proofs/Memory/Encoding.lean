import LinearHost.Memory.Scalar

/-!
# Numbers as bytes

The bytes of a number of any type are the digits, least significant first, of one natural number:
the bits of the number as they are. A 64-bit integer, which is stored word by word, is no exception.
So the bytes tell the number, and every row of as many bytes as a type has is a number of the type.

## Main definitions

* `Scalar.bits`: the natural number whose bytes are stored.
* `Scalar.encode_eq`: the bytes of a number.
* `Scalar.encode_eq_iff`: the number that a row of bytes is.
-/

namespace LinearHost

/-! ### Digits -/

theorem length_littleEndian (n count : Nat) : (littleEndian n count).length = count := by
  induction count generalizing n with
  | zero => rfl
  | succ count ih => rw [littleEndian, List.length_cons, ih]

/-- Digit `k` of a number is what is left of it after `8 * k` bits. -/
theorem getElem?_littleEndian (n count k : Nat) :
    (littleEndian n count)[k]? =
      if k < count then some (UInt8.ofNat (n >>> (8 * k))) else none := by
  induction count generalizing n k with
  | zero => rfl
  | succ count ih =>
    cases k with
    | zero => rfl
    | succ k =>
      have shifted : n / 256 = n >>> 8 := (Nat.shiftRight_eq_div_pow n 8).symm
      rw [littleEndian, List.getElem?_cons_succ, ih, shifted, ← Nat.shiftRight_add, Nat.mul_succ,
        Nat.add_comm 8]
      simp only [Nat.add_lt_add_iff_right]

/-- A number is read back from its digits. -/
theorem ofLittleEndian_littleEndian {n : Nat} (count : Nat) (lt : n < 1 <<< (8 * count)) :
    ofLittleEndian (littleEndian n count) = n := by
  induction count generalizing n with
  | zero => exact (Nat.lt_one_iff.mp lt).symm
  | succ count ih =>
    rw [Nat.one_shiftLeft, Nat.mul_succ, Nat.pow_add] at lt
    have rest : n / 256 < 1 <<< (8 * count) := by
      rw [Nat.one_shiftLeft]
      exact Nat.div_lt_of_lt_mul (by omega)
    rw [littleEndian, ofLittleEndian, ih rest, UInt8.toNat_ofNat']
    omega

theorem ofLittleEndian_lt (bytes : List UInt8) :
    ofLittleEndian bytes < 1 <<< (8 * bytes.length) := by
  induction bytes with
  | nil => exact Nat.one_pos
  | cons b rest ih =>
    have digit := b.toNat_lt
    rw [ofLittleEndian, List.length_cons, Nat.mul_succ, Nat.shiftLeft_add, Nat.shiftLeft_eq _ 8]
    omega

/-- Digits are those of the number that they are read as. -/
theorem littleEndian_ofLittleEndian (bytes : List UInt8) :
    littleEndian (ofLittleEndian bytes) bytes.length = bytes := by
  induction bytes with
  | nil => rfl
  | cons b rest ih =>
    have digit := b.toNat_lt
    have first : UInt8.ofNat (b.toNat + 256 * ofLittleEndian rest) = b := by
      rw [← UInt8.toNat_inj, UInt8.toNat_ofNat']
      omega
    have others : (b.toNat + 256 * ofLittleEndian rest) / 256 = ofLittleEndian rest := by omega
    rw [ofLittleEndian, List.length_cons, littleEndian, first, others, ih]

/-- The digits of a number below those of another one. -/
theorem littleEndian_append {low count : Nat} (high more : Nat) (lt : low < 1 <<< (8 * count)) :
    littleEndian low count ++ littleEndian high more =
      littleEndian (low + high <<< (8 * count)) (count + more) := by
  induction count generalizing low with
  | zero =>
    obtain rfl : low = 0 := Nat.lt_one_iff.mp lt
    rw [Nat.zero_add, Nat.zero_add]
    rfl
  | succ count ih =>
    rw [Nat.mul_succ, Nat.shiftLeft_add, Nat.shiftLeft_eq _ 8] at lt
    have rest : low / 256 < 1 <<< (8 * count) := by omega
    have first : UInt8.ofNat (low + high <<< (8 * count) * 2 ^ 8) = UInt8.ofNat low := by
      rw [← UInt8.toNat_inj, UInt8.toNat_ofNat', UInt8.toNat_ofNat']
      omega
    have others :
        (low + high <<< (8 * count) * 2 ^ 8) / 256 = low / 256 + high <<< (8 * count) := by
      omega
    rw [Nat.mul_succ, Nat.shiftLeft_add, Nat.shiftLeft_eq _ 8, Nat.succ_add, littleEndian,
      littleEndian, List.cons_append, first, others, ih rest]

theorem word_littleEndian (word : UInt32) :
    UInt32.ofNat (ofLittleEndian (littleEndian word.toNat 4)) = word := by
  rw [ofLittleEndian_littleEndian 4 word.toNat_lt, UInt32.ofNat_toNat]

theorem littleEndian_word {bytes : List UInt8} (length : bytes.length = 4) :
    littleEndian (UInt32.ofNat (ofLittleEndian bytes)).toNat 4 = bytes := by
  have lt := ofLittleEndian_lt bytes
  have back := littleEndian_ofLittleEndian bytes
  rw [length] at lt back
  rw [UInt32.toNat_ofNat_of_lt' lt, back]

/-! ### Numbers -/

namespace Scalar

def bits : Scalar → Nat
  | i8 n => n.toUInt8.toNat
  | i16 n => n.toUInt16.toNat
  | i32 n => n.toUInt32.toNat
  | i64 w => w.low.toNat + w.high.toNat <<< 32
  | f32 x => x.bits.toNat
  | f64 x => x.bits.toNat

theorem encode_eq (x : Scalar) : x.encode = littleEndian x.bits x.type.bytes := by
  cases x with
  | i64 w => exact littleEndian_append w.high.toNat 4 w.low.toNat_lt
  | _ => rfl

/-- A number is stored in as many bytes as its type has. -/
theorem length_encode (x : Scalar) : x.encode.length = x.type.bytes := by
  rw [encode_eq, length_littleEndian]

theorem getElem?_encode {x : Scalar} {k : Nat} (lt : k < x.type.bytes) :
    x.encode[k]? = some (UInt8.ofNat (x.bits >>> (8 * k))) := by
  rw [encode_eq, getElem?_littleEndian, if_pos lt]

theorem type_decode (type : ScalarType) (bytes : List UInt8) : (type.decode bytes).type = type := by
  cases type <;> rfl

/-- Every number is read back from its bytes. -/
theorem decode_encode (x : Scalar) : x.type.decode x.encode = x := by
  cases x with
  | i8 n =>
    have back := ofLittleEndian_littleEndian 1 n.toUInt8.toNat_lt
    simp only [type, encode, ScalarType.decode, back, UInt8.ofNat_toNat, Int8.toInt8_toUInt8]
  | i16 n =>
    have back := ofLittleEndian_littleEndian 2 n.toUInt16.toNat_lt
    simp only [type, encode, ScalarType.decode, back, UInt16.ofNat_toNat, Int16.toInt16_toUInt16]
  | i32 n => simp only [type, encode, ScalarType.decode, word_littleEndian, Int32.toInt32_toUInt32]
  | i64 w =>
    have length := length_littleEndian w.low.toNat 4
    simp only [type, encode, ScalarType.decode, List.take_left' length, List.drop_left' length,
      word_littleEndian]
  | f32 x => simp only [type, encode, ScalarType.decode, word_littleEndian]
  | f64 x =>
    have back := ofLittleEndian_littleEndian 8 x.bits.toNat_lt
    simp only [type, encode, ScalarType.decode, back, UInt64.ofNat_toNat]

/-- Bytes are those of the number that they are read as. -/
theorem encode_decode {type : ScalarType} {bytes : List UInt8}
    (length : bytes.length = type.bytes) : (type.decode bytes).encode = bytes := by
  have lt := ofLittleEndian_lt bytes
  have back := littleEndian_ofLittleEndian bytes
  rw [length] at lt back
  cases type with
  | i8 =>
    simp only [ScalarType.decode, encode, UInt8.toUInt8_toInt8, UInt8.toNat_ofNat_of_lt' lt]
    exact back
  | i16 =>
    simp only [ScalarType.decode, encode, UInt16.toUInt16_toInt16, UInt16.toNat_ofNat_of_lt' lt]
    exact back
  | i32 =>
    simp only [ScalarType.decode, encode, UInt32.toUInt32_toInt32]
    exact littleEndian_word length
  | i64 =>
    have low : (bytes.take 4).length = 4 := by simp [length, ScalarType.bytes]
    have high : (bytes.drop 4).length = 4 := by simp [length, ScalarType.bytes]
    simp only [ScalarType.decode, encode, littleEndian_word low, littleEndian_word high,
      List.take_append_drop]
  | f32 => exact littleEndian_word length
  | f64 =>
    simp only [ScalarType.decode, encode, UInt64.toNat_ofNat_of_lt' lt]
    exact back

/-- A row of as many bytes as a type has is the number of the type that is read from it. -/
theorem encode_eq_iff {x : Scalar} {type : ScalarType} {bytes : List UInt8}
    (length : bytes.length = type.bytes) :
    x.type = type ∧ x.encode = bytes ↔ type.decode bytes = x := by
  constructor
  · rintro ⟨rfl, rfl⟩
    exact decode_encode x
  · rintro rfl
    exact ⟨type_decode type bytes, encode_decode length⟩

end Scalar

end LinearHost
