import LinearHost.Arithmetic.WordPair
import Mathlib.Algebra.Group.Int.Defs
import Mathlib.Algebra.Group.Nat.Defs

/-!
# Shifts of word pairs

A pair of words is a row of 64 bits, the low word first, and shifting the pair moves this row. That
is shown for each regime of the shift amount, bit by bit, so that what is known about rows of bits
says what number a shift gives. Single words are never shifted by 32 bits or more.

## Main definitions

* `WordPair.toBitVec`: the row of bits.
* `ShiftOp.onBits`, `ShiftOp.exact`: the shifts of rows, and of the numbers that they are worth.
* `WordShifts.Sound`: shifts of words that are right for amounts below 32.
* `WordPair.shift_exact`: what shifting a pair gives.
-/

namespace LinearHost

variable {w : WordPair} {op : ShiftOp} {words : WordShifts} {amount : UInt32} {a b bits : Nat}

/-! ### Shifts of one word -/

namespace WordShifts

/-- Shifts that give what those of the machine give for amounts below 32, and anything for
others. -/
structure Sound (words : WordShifts) : Prop where
  left : ∀ word amount : UInt32, amount.toNat < 32 →
    words.left word amount = machine.left word amount
  right : ∀ word amount : UInt32, amount.toNat < 32 →
    words.right word amount = machine.right word amount
  rightSigned : ∀ word amount : UInt32, amount.toNat < 32 →
    words.rightSigned word amount = machine.rightSigned word amount

/-- Below 32 the machine shifts a word as a row of bits. -/
theorem toBitVec_left (word : UInt32) (small : amount.toNat < 32) :
    (machine.left word amount).toBitVec = word.toBitVec <<< amount.toNat := by
  rw [machine, UInt32.toBitVec_shiftLeft, BitVec.shiftLeft_eq']
  congr 1
  exact Nat.mod_eq_of_lt small

theorem toBitVec_right (word : UInt32) (small : amount.toNat < 32) :
    (machine.right word amount).toBitVec = word.toBitVec >>> amount.toNat := by
  rw [machine, UInt32.toBitVec_shiftRight, BitVec.ushiftRight_eq']
  congr 1
  exact Nat.mod_eq_of_lt small

theorem toBitVec_rightSigned (word : UInt32) (small : amount.toNat < 32) :
    (machine.rightSigned word amount).toBitVec = word.toBitVec.sshiftRight amount.toNat := by
  have positive : amount.toBitVec.msb = false := by
    rw [BitVec.msb_eq_false_iff_two_mul_lt]
    show 2 * amount.toNat < 2 ^ 32
    omega
  have modulus : (32 : BitVec 32).msb = false := rfl
  rw [machine, Int32.toBitVec_toUInt32, Int32.toBitVec_shiftRight, UInt32.toBitVec_toInt32,
    UInt32.toBitVec_toInt32, BitVec.sshiftRight_eq', BitVec.smod_eq, positive, modulus]
  congr 1
  exact Nat.mod_eq_of_lt small

end WordShifts

/-! ### Shifts of a row of bits -/

namespace ShiftOp

def onBits (op : ShiftOp) (row : BitVec 64) (bits : Nat) : BitVec 64 :=
  match op with
  | left => row <<< bits
  | arithmeticRight => row.sshiftRight bits
  | logicalRight => row >>> bits

theorem onBits_zero (op : ShiftOp) (row : BitVec 64) : op.onBits row 0 = row := by
  cases op with
  | left => exact BitVec.shiftLeft_zero row
  | arithmeticRight => exact BitVec.sshiftRight_zero
  | logicalRight => exact BitVec.ushiftRight_zero row

/-- Shifts add up. -/
theorem onBits_add (op : ShiftOp) (row : BitVec 64) (a b : Nat) :
    op.onBits row (a + b) = op.onBits (op.onBits row a) b := by
  cases op with
  | left => exact BitVec.shiftLeft_add row a b
  | arithmeticRight => exact BitVec.sshiftRight_add
  | logicalRight => exact BitVec.shiftRight_add row a b

end ShiftOp

namespace WordPair

/-- The bits of a pair, the low word first. -/
def toBitVec (w : WordPair) : BitVec 64 := w.high.toBitVec ++ w.low.toBitVec

theorem toBitVec_toUInt64 (w : WordPair) : w.toUInt64.toBitVec = w.toBitVec := by
  ext i inside
  simp [toUInt64, toBitVec]
  grind

theorem isNegative_eq (w : WordPair) : w.isNegative = w.high.toBitVec.msb := by
  have masked : (w.high &&& 0x80000000).toBitVec =
      if w.high.toBitVec.msb then BitVec.twoPow 32 31 else 0#32 := by
    rw [UInt32.toBitVec_and, BitVec.msb_eq_getLsbD_last]
    exact BitVec.and_twoPow _ 31
  have nonzero : BitVec.twoPow 32 31 ≠ 0#32 := by decide
  cases sign : w.high.toBitVec.msb <;>
    simp [isNegative, ← UInt32.toBitVec_inj, masked, sign, nonzero]

/-- The low word holds the lower 32 bits and the high word the others. -/
theorem getLsbD_toBitVec (w : WordPair) (i : Nat) :
    w.toBitVec.getLsbD i =
      if i < 32 then w.low.toBitVec.getLsbD i else w.high.toBitVec.getLsbD (i - 32) :=
  BitVec.getLsbD_append

/-- The sign of a pair is that of its high word. -/
theorem msb_toBitVec (w : WordPair) : w.toBitVec.msb = w.high.toBitVec.msb := by
  rw [toBitVec, BitVec.msb_append]
  rfl

/-- The sign of a pair fills a word with its highest bit. -/
theorem getLsbD_signFill (w : WordPair) (i : Nat) :
    w.signFill.toBitVec.getLsbD i = (decide (i < 32) && w.high.toBitVec.msb) := by
  rw [signFill, isNegative_eq]
  split
  next set =>
    have ones : (0xFFFFFFFF : UInt32).toBitVec = BitVec.allOnes 32 := rfl
    rw [ones, BitVec.getLsbD_allOnes, set, Bool.and_true]
  next clear =>
    have zeros : (0 : UInt32).toBitVec = 0#32 := rfl
    rw [zeros, BitVec.getLsbD_zero, eq_false_of_ne_true clear, Bool.and_false]

theorem toNat_amount (small : bits < 32) : (UInt32.ofNat bits).toNat = bits :=
  UInt32.toNat_ofNat_of_lt' (Nat.lt_trans small (by decide))

theorem toNat_carry (small : amount.toNat < 32) : (32 - amount).toNat = 32 - amount.toNat :=
  UInt32.toNat_sub_of_le _ _ (UInt32.le_iff_toNat_le.mpr (Nat.le_of_lt small))

/-- A shift by less than a word moves bits across the border between the words. -/
theorem shiftAcross_onBits (w : WordPair) (op : ShiftOp) (positive : 0 < amount.toNat)
    (small : amount.toNat < 32) :
    (w.shiftAcross .machine op amount).toBitVec = op.onBits w.toBitVec amount.toNat := by
  have carry := toNat_carry small
  have carry_small : (32 - amount).toNat < 32 := by omega
  have low_end : ∀ i, 32 ≤ i → w.low.toBitVec.getLsbD i = false := BitVec.getLsbD_of_ge _
  have high_end : ∀ i, 32 ≤ i → w.high.toBitVec.getLsbD i = false := BitVec.getLsbD_of_ge _
  apply BitVec.eq_of_getLsbD_eq
  intro i inside
  cases op with
  | left =>
    simp only [shiftAcross, getLsbD_toBitVec, ShiftOp.onBits, UInt32.toBitVec_or,
      WordShifts.toBitVec_left _ small, WordShifts.toBitVec_right _ carry_small, carry,
      BitVec.getLsbD_or, BitVec.getLsbD_shiftLeft, BitVec.getLsbD_ushiftRight]
    -- all that is left is at which position of which word a bit comes from
    generalize w.low.toBitVec.getLsbD = low, w.high.toBitVec.getLsbD = high at *
    grind
  | arithmeticRight =>
    simp only [shiftAcross, getLsbD_toBitVec, msb_toBitVec, ShiftOp.onBits, UInt32.toBitVec_or,
      WordShifts.toBitVec_left _ carry_small, WordShifts.toBitVec_right _ small,
      WordShifts.toBitVec_rightSigned _ small, carry, BitVec.getLsbD_or, BitVec.getLsbD_shiftLeft,
      BitVec.getLsbD_ushiftRight, BitVec.getLsbD_sshiftRight]
    generalize w.low.toBitVec.getLsbD = low, w.high.toBitVec.getLsbD = high at *
    grind
  | logicalRight =>
    simp only [shiftAcross, getLsbD_toBitVec, ShiftOp.onBits, UInt32.toBitVec_or,
      WordShifts.toBitVec_left _ carry_small, WordShifts.toBitVec_right _ small, carry,
      BitVec.getLsbD_or, BitVec.getLsbD_shiftLeft, BitVec.getLsbD_ushiftRight]
    generalize w.low.toBitVec.getLsbD = low, w.high.toBitVec.getLsbD = high at *
    grind

/-- A shift by a word moves one word to the place of the other. -/
theorem shiftWord_onBits (w : WordPair) (op : ShiftOp) :
    (w.shiftWord op).toBitVec = op.onBits w.toBitVec 32 := by
  apply BitVec.eq_of_getLsbD_eq
  intro i inside
  cases op with
  | left =>
    simp only [shiftWord, getLsbD_toBitVec, ShiftOp.onBits, UInt32.toBitVec_zero,
      BitVec.getLsbD_zero, BitVec.getLsbD_shiftLeft]
    grind
  | arithmeticRight =>
    simp only [shiftWord, getLsbD_toBitVec, msb_toBitVec, getLsbD_signFill, ShiftOp.onBits,
      BitVec.getLsbD_sshiftRight]
    grind
  | logicalRight =>
    simp only [shiftWord, getLsbD_toBitVec, ShiftOp.onBits, UInt32.toBitVec_zero,
      BitVec.getLsbD_zero, BitVec.getLsbD_ushiftRight]
    grind

/-- A shift by more than a word is one by a word and one within it. -/
theorem shiftBeyond_onBits (w : WordPair) (op : ShiftOp) (small : amount.toNat < 32) :
    (w.shiftBeyond .machine op amount).toBitVec = op.onBits w.toBitVec (32 + amount.toNat) := by
  apply BitVec.eq_of_getLsbD_eq
  intro i inside
  cases op with
  | left =>
    simp only [shiftBeyond, getLsbD_toBitVec, ShiftOp.onBits, UInt32.toBitVec_zero,
      WordShifts.toBitVec_left _ small, BitVec.getLsbD_zero, BitVec.getLsbD_shiftLeft]
    grind
  | arithmeticRight =>
    simp only [shiftBeyond, getLsbD_toBitVec, msb_toBitVec, getLsbD_signFill, ShiftOp.onBits,
      WordShifts.toBitVec_rightSigned _ small, BitVec.getLsbD_sshiftRight]
    grind
  | logicalRight =>
    simp only [shiftBeyond, getLsbD_toBitVec, ShiftOp.onBits, UInt32.toBitVec_zero,
      WordShifts.toBitVec_right _ small, BitVec.getLsbD_zero, BitVec.getLsbD_ushiftRight]
    grind

/-! ### What a shift gives -/

def value (w : WordPair) : Nat := w.low.toNat + w.high.toNat * 2 ^ 32

def signedValue (w : WordPair) : Int :=
  if w.value < 2 ^ 63 then w.value else w.value - 2 ^ 64

theorem toNat_toBitVec (w : WordPair) : w.toBitVec.toNat = w.value := by
  have small : w.low.toNat < 2 ^ 32 := w.low.toNat_lt
  rw [toBitVec, BitVec.toNat_append, UInt32.toNat_toBitVec, UInt32.toNat_toBitVec,
    ← Nat.shiftLeft_add_eq_or_of_lt small, Nat.shiftLeft_eq, value, Nat.add_comm]

theorem toInt_toBitVec (w : WordPair) : w.toBitVec.toInt = w.signedValue := by
  rw [BitVec.toInt_eq_toNat_cond, toNat_toBitVec, signedValue]
  split <;> split <;> omega

theorem toNat_toUInt64 (w : WordPair) : w.toUInt64.toNat = w.value := by
  rw [← UInt64.toNat_toBitVec, toBitVec_toUInt64, toNat_toBitVec]

theorem eq_of_toBitVec_eq {v w : WordPair} (same : v.toBitVec = w.toBitVec) : v = w := by
  have values : v.value = w.value := by rw [← toNat_toBitVec, same, toNat_toBitVec]
  have small := v.low.toNat_lt
  have small' := w.low.toNat_lt
  rw [value, value] at values
  have low : v.low = w.low := UInt32.toNat_inj.mp (by omega)
  have high : v.high = w.high := UInt32.toNat_inj.mp (by omega)
  cases v
  cases w
  exact congr (congrArg mk low) high

end WordPair

/-- The number that a shift of a 64-bit number gives; quotients are rounded down. -/
def ShiftOp.exact (op : ShiftOp) (w : WordPair) (bits : Nat) : Int :=
  match op with
  | left => w.value * 2 ^ bits % 2 ^ 64
  | arithmeticRight => w.signedValue / 2 ^ bits % 2 ^ 64
  | logicalRight => w.value / 2 ^ bits

/-- Two's complement adds `2 ^ 64` to negative numbers. -/
theorem toNat_eq_toInt_emod (row : BitVec 64) : (row.toNat : Int) = row.toInt % 2 ^ 64 := by
  have bounded := row.isLt
  rw [BitVec.toInt_eq_toNat_cond]
  split <;> omega

theorem ShiftOp.toNat_onBits (op : ShiftOp) (w : WordPair) (bits : Nat) :
    ((op.onBits w.toBitVec bits).toNat : Int) = op.exact w bits := by
  cases op with
  | left =>
    rw [onBits, BitVec.toNat_shiftLeft, WordPair.toNat_toBitVec, Nat.shiftLeft_eq]
    simp only [exact]
    norm_cast
  | arithmeticRight =>
    have signed := BitVec.toInt_sshiftRight (x := w.toBitVec) (n := bits)
    rw [WordPair.toInt_toBitVec, Int.shiftRight_eq_div_pow, Int.natCast_pow] at signed
    rw [exact, onBits, toNat_eq_toInt_emod, signed]
    rfl
  | logicalRight =>
    rw [onBits, BitVec.toNat_ushiftRight, WordPair.toNat_toBitVec, Nat.shiftRight_eq_div_pow]
    simp only [exact]
    norm_cast

namespace WordPair

/-- No word is shifted by 32 bits or more, so it does not matter what that would give. -/
theorem shiftWith_eq (sound : words.Sound) (w : WordPair) (op : ShiftOp) (bits : Nat) :
    w.shiftWith words op bits = w.shift op bits := by
  unfold shift shiftWith
  split
  · rfl
  split
  · rfl
  split
  next positive across =>
    have amount := toNat_amount across
    have small : (UInt32.ofNat bits).toNat < 32 := by omega
    have carry : (32 - UInt32.ofNat bits).toNat < 32 := by
      rw [toNat_carry small]
      omega
    cases op <;>
      simp only [shiftAcross, sound.left _ _ small, sound.left _ _ carry, sound.right _ _ small,
        sound.right _ _ carry, sound.rightSigned _ _ small]
  split
  · rfl
  next =>
    have rest : bits - 32 < 32 := by omega
    have small : (UInt32.ofNat (bits - 32)).toNat < 32 := by rwa [toNat_amount rest]
    cases op <;>
      simp only [shiftBeyond, sound.left _ _ small, sound.right _ _ small,
        sound.rightSigned _ _ small]

/-- Every amount below 64 shifts the pair as a row of 64 bits. -/
theorem shift_onBits (w : WordPair) (op : ShiftOp) (small : bits < 64) :
    ∃ shifted, w.shift op bits = .ok shifted ∧ shifted.toBitVec = op.onBits w.toBitVec bits := by
  unfold shift shiftWith
  rw [if_neg (by omega)]
  split
  next zero =>
    rw [zero]
    exact ⟨w, rfl, (op.onBits_zero _).symm⟩
  split
  next positive across =>
    have amount := toNat_amount across
    refine ⟨_, rfl, ?_⟩
    rw [shiftAcross_onBits w op (by omega) (by omega), amount]
  split
  next whole =>
    rw [whole]
    exact ⟨_, rfl, shiftWord_onBits w op⟩
  next =>
    have rest : bits - 32 < 32 := by omega
    have amount := toNat_amount rest
    refine ⟨_, rfl, ?_⟩
    rw [shiftBeyond_onBits w op (by omega), amount]
    congr 1
    omega

/-- Amounts from 64 on are refused. -/
theorem shift_of_le (w : WordPair) (op : ShiftOp) (large : 64 ≤ bits) :
    w.shift op bits = .error (.invalidShift bits) :=
  if_pos (by omega)

/-- Shifts in sequence add up. -/
theorem shift_shift (w : WordPair) (op : ShiftOp) (small : a + b < 64) :
    (w.shift op a).bind (fun v => v.shift op b) = w.shift op (a + b) := by
  obtain ⟨first, first_eq, first_bits⟩ := w.shift_onBits op (Nat.lt_of_add_right_lt small)
  obtain ⟨second, second_eq, second_bits⟩ := first.shift_onBits op (Nat.lt_of_add_left_lt small)
  obtain ⟨both, both_eq, both_bits⟩ := w.shift_onBits op small
  have same : second = both := by
    apply eq_of_toBitVec_eq
    rw [second_bits, first_bits, both_bits, ShiftOp.onBits_add]
  rw [first_eq, both_eq, ← same]
  exact second_eq

/-- A shift by less than 64 bits gives the number that a shift of the 64-bit number gives, and a
shift by more is refused. Whatever words do when they are shifted by 32 bits or more, the result is
the same. A shift by `a` and one by `b` are one by `a + b`. -/
theorem shift_exact (w : WordPair) (op : ShiftOp) (bits : Nat) :
    (bits < 64 → ∃ shifted, w.shift op bits = .ok shifted ∧
      (shifted.toUInt64.toNat : Int) = op.exact w bits) ∧
    (64 ≤ bits → w.shift op bits = .error (.invalidShift bits)) ∧
    (∀ words : WordShifts, words.Sound → w.shiftWith words op bits = w.shift op bits) ∧
    ∀ a b, a + b < 64 → (w.shift op a).bind (fun v => v.shift op b) = w.shift op (a + b) := by
  refine ⟨?_, w.shift_of_le op, ?_, ?_⟩
  · intro small
    obtain ⟨shifted, shifted_eq, shifted_bits⟩ := w.shift_onBits op small
    refine ⟨shifted, shifted_eq, ?_⟩
    rw [toNat_toUInt64, ← toNat_toBitVec, shifted_bits, ShiftOp.toNat_onBits]
  · intro words sound
    exact shiftWith_eq sound w op bits
  · intro a b small
    exact w.shift_shift op small

/-- A negative number shifted by 33 bits, at once and in two steps, also with words that become zero
when they are shifted too far. -/
theorem shift_exact_negative :
    let w : WordPair := ⟨0x80000001, 0xF0000003⟩
    let words : WordShifts :=
      { left := fun word amount => if amount < 32 then WordShifts.machine.left word amount else 0
        right := fun word amount => if amount < 32 then WordShifts.machine.right word amount else 0
        rightSigned := fun word amount =>
          if amount < 32 then WordShifts.machine.rightSigned word amount else 0 }
    words.Sound ∧
    (∃ shifted, w.shift .arithmeticRight 33 = .ok shifted ∧
      shifted.toUInt64.toNat = 0xFFFFFFFFF8000001) ∧
    w.shift .arithmeticRight 64 = .error (.invalidShift 64) ∧
    w.shiftWith words .arithmeticRight 33 = w.shift .arithmeticRight 33 ∧
    (w.shift .arithmeticRight 1).bind (fun v => v.shift .arithmeticRight 32) =
      w.shift .arithmeticRight 33 := by
  intro w words
  have sound : words.Sound := by
    constructor <;>
    · intro word amount small
      exact if_pos (UInt32.lt_iff_toNat_lt.mpr small)
  obtain ⟨gives, -, same, adds⟩ := shift_exact w .arithmeticRight 33
  obtain ⟨shifted, shifted_eq, number⟩ := gives (by decide)
  have expected : ShiftOp.arithmeticRight.exact w 33 = 0xFFFFFFFFF8000001 := by decide
  refine ⟨sound, ⟨shifted, shifted_eq, ?_⟩, ?_, same words sound, adds 1 32 (by decide)⟩
  · omega
  · exact (shift_exact w .arithmeticRight 64).2.1 (by decide)

end WordPair

end LinearHost
