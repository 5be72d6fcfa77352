import LinearHost.Proofs.Text.Blocks

/-!
# Decoding undoes encoding

The encoding of a character of the Basic Multilingual Plane is one block: its last byte emits the code
unit of the character, and leaves the decoder as it was. So a text is read back from its encoding, as
a whole or piece by piece, and the decoder is idle exactly between characters.

## Main definitions

* `Decoder.Block`: bytes that emit one unit, with the last of them.
* `Decoder.withLast`: what the bytes of a character emit.
* `encoded_stream`: what the encoding of a text emits, and where characters end.
-/

namespace LinearHost

namespace Decoder

variable {c : Char} {cs : List Char} {bytes more : List UInt8} {unit : UInt16}
  {lead middle last : UInt8} {k : Nat}

/-! ### The units of blocks -/

/-- Bits that follow others are added to them. -/
theorem shiftLeft_or_of_lt {high low bits : Nat} (lt : low < 1 <<< bits) :
    high <<< bits ||| low = high <<< bits + low := by
  rw [Nat.one_shiftLeft] at lt
  exact (Nat.shiftLeft_add_eq_or_of_lt lt high).symm

theorem toNat_unit2 (lead last : UInt8) :
    (unit2 lead last).toNat = lead.toNat % 32 * 64 + last.toNat % 64 := by
  have low : last.toNat % 64 < 1 <<< 6 := Nat.mod_lt _ (by decide)
  have high := Nat.shiftLeft_eq (lead.toNat % 32) 6
  have fits : (lead.toNat % 32) <<< 6 < 65536 := by omega
  simp only [unit2, UInt16.toNat_or, UInt16.toNat_and, UInt16.toNat_shiftLeft, UInt8.toNat_toUInt16,
    UInt16.reduceToNat, Nat.and_two_pow_sub_one_eq_mod _ 5, Nat.and_two_pow_sub_one_eq_mod _ 6]
  simp only [Nat.reducePow, Nat.reduceMod, Nat.mod_eq_of_lt fits]
  rw [shiftLeft_or_of_lt low, high]

theorem toNat_unit3 (lead middle last : UInt8) :
    (unit3 lead middle last).toNat =
      lead.toNat % 16 * 4096 + (middle.toNat % 64 * 64 + last.toNat % 64) := by
  have low : last.toNat % 64 < 1 <<< 6 := Nat.mod_lt _ (by decide)
  have high := Nat.shiftLeft_eq (lead.toNat % 16) 12
  have inner := Nat.shiftLeft_eq (middle.toNat % 64) 6
  have fits : (lead.toNat % 16) <<< 12 < 65536 ∧ (middle.toNat % 64) <<< 6 < 65536 := by omega
  have lows : (middle.toNat % 64) <<< 6 + last.toNat % 64 < 1 <<< 12 := by
    rw [Nat.one_shiftLeft]
    omega
  simp only [unit3, UInt16.toNat_or, UInt16.toNat_and, UInt16.toNat_shiftLeft, UInt8.toNat_toUInt16,
    UInt16.reduceToNat, Nat.and_two_pow_sub_one_eq_mod _ 4, Nat.and_two_pow_sub_one_eq_mod _ 6]
  simp only [Nat.reducePow, Nat.reduceMod, Nat.mod_eq_of_lt fits.1, Nat.mod_eq_of_lt fits.2]
  rw [Nat.or_assoc, shiftLeft_or_of_lt low, shiftLeft_or_of_lt lows, high, inner]

/-! ### Blocks -/

/-- The bytes are a block: its last byte emits a unit, no other one does, and the decoder is ready
again after it and not before. -/
structure Block (bytes : List UInt8) (unit : UInt16) : Prop where
  emitted : ready.emitted bytes = List.replicate (bytes.length - 1) none ++ [some unit]
  after : ready.after bytes = ready
  pending : ∀ k, 0 < k → k < bytes.length → (ready.after (bytes.take k)).isPending = true

/-- A complete block emits its unit with the last byte. -/
theorem block_of_unit? (complete : isComplete (lead :: more) = true)
    (meaning : unit? (lead :: more) = some unit) : Block (lead :: more) unit := by
  have length : more.length + 1 = blockLength lead := of_decide_eq_true complete
  have reads : Reads (lead :: more) := reads_block (by omega)
  refine ⟨by rw [reads.emitted, withUnit, meaning], reads.complete complete,
    fun k positive lt => ?_⟩
  obtain ⟨k, rfl⟩ := Nat.exists_eq_add_of_lt positive
  have taken : (lead :: more).take (0 + k + 1) = lead :: more.take k := by
    rw [Nat.zero_add, List.take_succ_cons]
  have shorter : (more.take k).length + 1 < blockLength lead := by
    rw [List.length_cons] at lt
    rw [List.length_take]
    omega
  rw [taken]
  exact (reads_block (Nat.lt_of_succ_lt shorter)).short (decide_eq_false (Nat.ne_of_lt shorter))

theorem block_single (ascii : lead < 128) : Block [lead] lead.toUInt16 :=
  block_of_unit? (by simp [isComplete, blockLength, ascii]) (by simp [unit?, ascii])

theorem block_two (low : 192 ≤ lead) (high : lead ≤ 223) : Block [lead, last] (unit2 lead last) := by
  have multi : ¬ lead < 128 := UInt8.not_lt.mpr (UInt8.le_trans (by decide) low)
  exact block_of_unit? (by simp [isComplete, blockLength, multi, low, high])
    (by simp [unit?, low, high, unit2])

theorem block_three (multi : ¬ lead < 128) (other : ¬ (192 ≤ lead ∧ lead ≤ 223)) :
    Block [lead, middle, last] (unit3 lead middle last) :=
  block_of_unit? (by simp [isComplete, blockLength, multi, other]) rfl

/-- The encoding of a character is a block. -/
theorem block_char (bmp : c.toNat < 0x10000) :
    Block (String.utf8EncodeChar c) (UInt16.ofNat c.toNat) := by
  have byte {n : Nat} (lt : n < 256) : (UInt8.ofNat n).toNat = n := UInt8.toNat_ofNat_of_lt' lt
  have unit : (UInt16.ofNat c.toNat).toNat = c.val.toNat := UInt16.toNat_ofNat_of_lt' bmp
  have bmp : c.val.toNat < 0x10000 := bmp
  fun_cases String.utf8EncodeChar c with
  | case1 v ascii =>
    have same : UInt16.ofNat c.toNat = (UInt8.ofNat v).toUInt16 := by
      rw [← UInt16.toNat_inj, unit, UInt8.toNat_toUInt16, byte (by omega)]
    rw [same]
    refine block_single (UInt8.lt_iff_toNat_lt.mpr ?_)
    rw [byte (by omega)]
    exact Nat.lt_succ_of_le ascii
  | case2 v wide two =>
    have same : UInt16.ofNat c.toNat =
        unit2 (UInt8.ofNat (v / 64 % 32 + 192)) (UInt8.ofNat (v % 64 + 128)) := by
      rw [← UInt16.toNat_inj, unit, toNat_unit2, byte (by omega), byte (by omega)]
      omega
    rw [same]
    refine block_two (UInt8.le_iff_toNat_le.mpr ?_) (UInt8.le_iff_toNat_le.mpr ?_)
    · rw [byte (by omega)]
      exact Nat.le_add_left ..
    · rw [byte (by omega)]
      show _ ≤ 223
      omega
  | case3 v wide wider three =>
    have same : UInt16.ofNat c.toNat =
        unit3 (UInt8.ofNat (v / 4096 % 16 + 224)) (UInt8.ofNat (v / 64 % 64 + 128))
          (UInt8.ofNat (v % 64 + 128)) := by
      rw [← UInt16.toNat_inj, unit, toNat_unit3, byte (by omega), byte (by omega), byte (by omega)]
      omega
    have lead : 224 ≤ UInt8.ofNat (v / 4096 % 16 + 224) := by
      rw [UInt8.le_iff_toNat_le, byte (by omega)]
      exact Nat.le_add_left ..
    rw [same]
    refine block_three (UInt8.not_lt.mpr (UInt8.le_trans (by decide) lead)) fun two => ?_
    exact absurd (UInt8.le_trans lead two.2) (by decide)
  | case4 v => omega

/-! ### Rows of characters -/

def withLast (c : Char) : List (Option UInt16) :=
  List.replicate (c.utf8Size - 1) none ++ [some (UInt16.ofNat c.toNat)]

theorem filterMap_withLast (bmp : c.toNat < 0x10000) :
    (withLast c).filterMap id = CodeUnit.ofChar c := by
  rw [withLast, List.filterMap_append, List.filterMap_replicate_of_none rfl, CodeUnit.ofChar,
    if_pos bmp]
  rfl

/-- After whole characters the decoder is ready again, and it has emitted their units. -/
theorem emitted_chars (bmp : ∀ c ∈ cs, c.toNat < 0x10000) :
    ready.emitted (cs.flatMap String.utf8EncodeChar) = cs.flatMap withLast ∧
      ready.after (cs.flatMap String.utf8EncodeChar) = ready := by
  induction cs with
  | nil => exact ⟨rfl, rfl⟩
  | cons c rest ih =>
    obtain ⟨first, others⟩ := List.forall_mem_cons.mp bmp
    have block := block_char first
    obtain ⟨emitted, after⟩ := ih others
    rw [List.flatMap_cons, List.flatMap_cons, emitted_append, after_append, block.after,
      block.emitted, emitted, after, String.length_utf8EncodeChar]
    exact ⟨rfl, rfl⟩

/-- The decoder is idle exactly where a character ends. -/
theorem isPending_take_eq_false_iff (bmp : ∀ c ∈ cs, c.toNat < 0x10000)
    (le : k ≤ (cs.flatMap String.utf8EncodeChar).length) :
    (ready.after ((cs.flatMap String.utf8EncodeChar).take k)).isPending = false ↔
      ∃ before after, before ++ after = cs ∧
        (before.flatMap String.utf8EncodeChar).length = k := by
  induction cs generalizing k with
  | nil =>
    obtain rfl : k = 0 := Nat.le_zero.mp le
    exact iff_of_true rfl ⟨[], [], rfl, rfl⟩
  | cons c rest ih =>
    obtain ⟨first, others⟩ := List.forall_mem_cons.mp bmp
    have block := block_char first
    rw [List.flatMap_cons, List.length_append] at le
    rw [List.flatMap_cons, List.take_append, after_append]
    obtain rfl | positive := Nat.eq_zero_or_pos k
    · simp only [List.take_zero, Nat.zero_sub]
      exact iff_of_true rfl ⟨[], c :: rest, rfl, rfl⟩
    by_cases inside : k < (String.utf8EncodeChar c).length
    · have none : k - (String.utf8EncodeChar c).length = 0 := by omega
      have pending := block.pending k positive inside
      rw [none, List.take_zero]
      refine iff_of_false (by simpa [after] using pending) ?_
      rintro ⟨before, after, parts, length⟩
      -- a row of characters that is not empty starts with the whole first character
      cases before with
      | nil =>
        rw [List.flatMap_nil, List.length_nil] at length
        omega
      | cons d later =>
        obtain ⟨rfl, -⟩ := List.cons.inj parts
        rw [List.flatMap_cons, List.length_append] at length
        omega
    · rw [List.take_of_length_le (by omega), block.after, ih others (by omega)]
      constructor
      · rintro ⟨before, after, rfl, length⟩
        refine ⟨c :: before, after, rfl, ?_⟩
        rw [List.flatMap_cons, List.length_append]
        omega
      · rintro ⟨before, after, parts, length⟩
        cases before with
        | nil =>
          rw [List.flatMap_nil, List.length_nil] at length
          omega
        | cons d later =>
          obtain ⟨rfl, same⟩ := List.cons.inj parts
          rw [List.flatMap_cons, List.length_append] at length
          exact ⟨later, after, same, by omega⟩

end Decoder

/-! ### Texts -/

variable {text : String} {cs : List Char}

/-- The characters of a row are read back from their code units. -/
theorem CodeUnit.toChars_ofChar (bmp : ∀ c ∈ cs, c.toNat < 0x10000) :
    toChars (cs.flatMap ofChar) = cs := by
  induction cs with
  | nil => rfl
  | cons c rest ih =>
    obtain ⟨first, others⟩ := List.forall_mem_cons.mp bmp
    have value : (UInt16.ofNat c.toNat).toNat = c.toNat := UInt16.toNat_ofNat_of_lt' first
    have valid : c.toNat < 0xD800 ∨ 0xDFFF < c.toNat := c.valid.imp id And.left
    have high : isHigh (UInt16.ofNat c.toNat) = false := by
      simp only [isHigh, UInt16.le_iff_toNat_le, UInt16.lt_iff_toNat_lt, value, Bool.and_eq_false_iff,
        decide_eq_false_iff_not, UInt16.reduceToNat]
      omega
    have low : isLow (UInt16.ofNat c.toNat) = false := by
      simp only [isLow, UInt16.le_iff_toNat_le, UInt16.lt_iff_toNat_lt, value, Bool.and_eq_false_iff,
        decide_eq_false_iff_not, UInt16.reduceToNat]
      omega
    rw [List.flatMap_cons, ofChar, if_pos first, List.singleton_append]
    unfold toChars
    rw [if_neg (by simp [high]), if_neg (by simp [low]), value, Char.ofNat_toNat, ih others]

/-- Every character of the Basic Multilingual Plane is read back as its code unit. -/
theorem decodeUnits_encode (bmp : ∀ c ∈ text.toList, c.toNat < 0x10000) :
    decodeUnits (encode text) = text.toList.flatMap CodeUnit.ofChar := by
  rw [decodeUnits, encode, (Decoder.emitted_chars bmp).1, List.filterMap_flatMap]
  exact congrArg List.flatten
    (List.map_congr_left fun c member => Decoder.filterMap_withLast (bmp c member))

/-- A text of such characters is read back from its encoding. -/
theorem decode_encode (bmp : ∀ c ∈ text.toList, c.toNat < 0x10000) :
    decode (encode text) = text := by
  rw [decode, decodeUnits_encode bmp, CodeUnit.toText, CodeUnit.toChars_ofChar bmp,
    String.ofList_toList]

theorem encode_join (pieces : List String) :
    pieces.flatMap encode = encode (String.join pieces) := by
  rw [encode, String.toList_join, List.flatMap_assoc]
  rfl

/-- Of a text in the Basic Multilingual Plane, whatever else it contains, the bytes emit exactly its
code units, one for each character and with the last byte of that character; the decoder is idle
exactly between characters; the text is read back; and a decoder of its own for each piece of the text
emits the same. -/
theorem encoded_stream (bmp : ∀ c ∈ text.toList, c.toNat < 0x10000) :
    Decoder.ready.emitted (encode text) = text.toList.flatMap Decoder.withLast ∧
    decodeUnits (encode text) = text.toList.flatMap CodeUnit.ofChar ∧
    (decodeUnits (encode text)).length = text.length ∧
    (∀ k ≤ (encode text).length,
      (Decoder.ready.after ((encode text).take k)).isPending = false ↔
        ∃ before after, before ++ after = text ∧ (encode before).length = k) ∧
    decode (encode text) = text ∧
    ∀ pieces : List String, String.join pieces = text →
      pieces.flatMap encode = encode text ∧
      pieces.flatMap (fun piece => Decoder.ready.emitted (encode piece)) =
        Decoder.ready.emitted (encode text) := by
  refine ⟨(Decoder.emitted_chars bmp).1, decodeUnits_encode bmp, ?_, fun k le => ?_,
    decode_encode bmp, ?_⟩
  · have one (c : Char) (member : c ∈ text.toList) : (CodeUnit.ofChar c).length = 1 := by
      rw [CodeUnit.ofChar, if_pos (bmp c member), List.length_singleton]
    rw [decodeUnits_encode bmp, List.length_flatMap, List.map_congr_left one, ← String.length_toList]
    simp [List.map_const']
  · rw [encode] at le
    rw [encode, Decoder.isPending_take_eq_false_iff bmp le]
    constructor
    · rintro ⟨before, after, parts, length⟩
      refine ⟨String.ofList before, String.ofList after, ?_, ?_⟩
      · rw [← String.ofList_append, parts, String.ofList_toList]
      · rwa [encode, String.toList_ofList]
    · rintro ⟨before, after, rfl, length⟩
      exact ⟨before.toList, after.toList, String.toList_append.symm, length⟩
  · rintro pieces rfl
    have own (piece : String) (member : piece ∈ pieces) :
        Decoder.ready.emitted (encode piece) = piece.toList.flatMap Decoder.withLast :=
      (Decoder.emitted_chars fun c part => bmp c (by
        rw [String.toList_join]
        exact List.mem_flatMap_of_mem member part)).1
    refine ⟨encode_join pieces, ?_⟩
    have all : Decoder.ready.emitted (encode (String.join pieces)) = _ :=
      (Decoder.emitted_chars bmp).1
    rw [all, String.toList_join, List.flatMap_assoc]
    exact congrArg List.flatten (List.map_congr_left own)

/-- A text with characters of one, two and three bytes and with a zero byte, as a whole and in two
pieces. -/
theorem encoded_stream_mixed :
    (∀ c ∈ "aé\x00€".toList, c.toNat < 0x10000) ∧
    Decoder.ready.emitted (encode "aé\x00€") =
      [some 0x61, none, some 0xE9, some 0, none, none, some 0x20AC] ∧
    (Decoder.ready.after ((encode "aé\x00€").take 5)).isPending = true ∧
    decode (encode "aé\x00€") = "aé\x00€" ∧
    Decoder.ready.emitted (encode "aé") ++ Decoder.ready.emitted (encode "\x00€") =
      Decoder.ready.emitted (encode "aé\x00€") := by
  have bmp : ∀ c ∈ "aé\x00€".toList, c.toNat < 0x10000 := by simp
  obtain ⟨emitted, -, -, idle, same, pieces⟩ := encoded_stream bmp
  refine ⟨bmp, emitted.trans (by decide), by decide, same, ?_⟩
  exact (pieces ["aé", "\x00€"] (by decide)).2

end LinearHost
