import LinearHost.Proofs.Memory.Encoding
import LinearHost.Proofs.Memory.Extent
import LinearHost.Proofs.Memory.Writing

/-!
# Numbers in a memory

Numbers of all types are views of the same bytes. What is stored is the row of digits of the bits of
a number, and a load takes a row of bytes for the number with these digits; so a number that has
been stored is loaded again, and nothing that is read or loaded beside it has changed. A 64-bit
integer is the same as its two words, the low one first.

## Main definitions

* `Memory.Stored`: what a store leaves behind.
* `Memory.load_eq_ok_iff`, `Memory.load_i64_eq_ok_iff`: what is loaded.
* `Memory.scalars_coherent`: loads and stores in a memory that has been used.
-/

namespace LinearHost

def WordPair.lowScalar (w : WordPair) : Scalar := .i32 w.low.toInt32

def WordPair.highScalar (w : WordPair) : Scalar := .i32 w.high.toInt32

/-- A 64-bit integer is stored as two words, the low one first. -/
theorem Scalar.encode_i64 (w : WordPair) :
    (Scalar.i64 w).encode = w.lowScalar.encode ++ w.highScalar.encode := by
  simp only [encode, WordPair.lowScalar, WordPair.highScalar, UInt32.toUInt32_toInt32]

namespace Memory

variable {m after : Memory} {type : ScalarType} {x : Scalar} {address : Nat}

/-! ### Storing -/

theorem store_apply (address : Nat) (x : Scalar) (m : Memory) :
    store address x m =
      if m.inBounds address x.type.bytes then ⟨.ok (), m.written address x.encode, []⟩
      else ⟨.error (.invalidAddress address x.type.bytes), m, []⟩ := by
  rw [store, write_apply, Scalar.length_encode]

/-- What a store leaves behind: the number is loaded again, its bytes are the digits of its bits,
and what lies beside it is read and loaded as before. -/
structure Stored (m : Memory) (address : Nat) (x : Scalar) (after : Memory) : Prop where
  load_eq : after.load x.type address = .ok x
  digits : ∀ k < x.type.bytes, after.bytes[address + k]? = some (UInt8.ofNat (x.bits >>> (8 * k)))
  read_beside : ∀ {other count : Nat}, Apart address x.type.bytes other count →
    after.read other count = m.read other count
  load_beside : ∀ {type : ScalarType} {other : Nat}, Apart address x.type.bytes other type.bytes →
    after.load type other = m.load type other
  size_eq : after.size = m.size
  rest : after = { m with image := after.image }

/-- What was stored within the memory is loaded again. -/
theorem stored_written (inside : m.inBounds address x.type.bytes = true) :
    Stored m address x (m.written address x.encode) := by
  rw [← x.length_encode] at inside
  have read_beside {other count : Nat} (apart : Apart address x.type.bytes other count) :
      (m.written address x.encode).read other count = m.read other count :=
    read_written_of_apart (x.length_encode ▸ apart)
  refine ⟨?_, fun k lt => ?_, read_beside, fun apart => ?_, size_written, rfl⟩
  · rw [load_eq, ← x.length_encode, read_written inside]
    exact congrArg Except.ok x.decode_encode
  · rw [getElem?_bytes, holds_written inside k _ (Scalar.getElem?_encode lt)]
    rfl
  · rw [load_eq, load_eq, read_beside apart]

/-- A 64-bit integer is stored by storing its words. -/
theorem store_i64_eq_ok {w : WordPair} (inside : m.inBounds address 8 = true) :
    ∃ between, store address w.lowScalar m = ⟨.ok (), between, []⟩ ∧
      store (address + 4) w.highScalar between =
        ⟨.ok (), m.written address (Scalar.i64 w).encode, []⟩ := by
  obtain ⟨low, high⟩ := (inBounds_add_iff 4 4).mp inside
  refine ⟨m.written address w.lowScalar.encode, ?_, ?_⟩
  · rw [store_apply]
    exact if_pos low
  · rw [store_apply, Scalar.encode_i64, written_append, Scalar.length_encode]
    exact if_pos (inBounds_written.trans high)

/-! ### Loading -/

/-- A number is loaded from the bytes that it is stored as. -/
theorem load_eq_ok_iff :
    m.load type address = .ok x ↔ x.type = type ∧ m.read address type.bytes = .ok x.encode := by
  rw [load_eq]
  cases answer : m.read address type.bytes with
  | error fault => exact iff_of_false nofun fun found => nomatch found.2
  | ok bytes =>
    have length : bytes.length = type.bytes := length_of_read answer
    show Except.ok _ = _ ↔ _
    rw [Except.ok.injEq, Except.ok.injEq, eq_comm (a := bytes)]
    exact (Scalar.encode_eq_iff length).symm

theorem load_i64_eq_ok_iff {w : WordPair} :
    m.load .i64 address = .ok (.i64 w) ↔
      m.load .i32 address = .ok w.lowScalar ∧ m.load .i32 (address + 4) = .ok w.highScalar := by
  have parts : m.read address 8 = .ok (Scalar.i64 w).encode ↔
      m.read address 4 = .ok w.lowScalar.encode ∧
        m.read (address + 4) 4 = .ok w.highScalar.encode := by
    have length : w.lowScalar.encode.length = 4 := w.lowScalar.length_encode
    refine (read_add_eq_ok_iff 4 4).trans ?_
    rw [Scalar.encode_i64, List.take_left' length, List.drop_left' length]
  rw [load_eq_ok_iff, load_eq_ok_iff, load_eq_ok_iff]
  exact ⟨fun ⟨_, bytes⟩ => ⟨⟨rfl, (parts.mp bytes).1⟩, rfl, (parts.mp bytes).2⟩,
    fun ⟨⟨_, low⟩, _, high⟩ => ⟨rfl, parts.mpr ⟨low, high⟩⟩⟩

/-- A load succeeds exactly if its range lies in the memory and no mark is in the way. -/
theorem exists_load_iff :
    (∃ x, m.load type address = .ok x) ↔
      m.inBounds address type.bytes = true ∧ m.Unmarked address type.bytes := by
  constructor
  · rintro ⟨x, found⟩
    obtain ⟨inside, live, -⟩ := read_eq_ok_iff.mp (load_eq_ok_iff.mp found).2
    exact ⟨inside, live⟩
  · rintro ⟨inside, live⟩
    have found := read_eq_ok_iff.mpr ⟨inside, live, rfl⟩
    exact ⟨_, by rw [load_eq, found]; rfl⟩

/-- A 64-bit integer is loaded if its words are. -/
theorem exists_load_i64_iff :
    (∃ x, m.load .i64 address = .ok x) ↔
      (∃ low, m.load .i32 address = .ok low) ∧ ∃ high, m.load .i32 (address + 4) = .ok high := by
  rw [exists_load_iff, exists_load_iff, exists_load_iff]
  show m.inBounds address (4 + 4) = true ∧ m.Unmarked address (4 + 4) ↔ _
  rw [inBounds_add_iff, unmarked_add_iff]
  exact and_and_and_comm

/-- Wherever operations lead, numbers of all types are views of the same bytes. A number is stored
exactly if its range ends in the memory: it is then loaded again, whatever was marked there, and
nothing that is read or loaded beside it has changed. A load answers the number that the digits in
its range are those of; and a 64-bit integer is stored and loaded as its two words, the low one
first. -/
theorem scalars_coherent {c : Config} {grower : Grower} {start : Memory}
    (created : create c grower = .ok start) (small : c.memory.cap < addressSpace)
    (before : List Operation) (address : Nat) :
    let m := reached before start
    (∀ x : Scalar,
      (address + x.type.bytes ≤ m.size →
        ∃ after, store address x m = ⟨.ok (), after, []⟩ ∧ Stored m address x after) ∧
      (m.size < address + x.type.bytes →
        store address x m = ⟨.error (.invalidAddress address x.type.bytes), m, []⟩)) ∧
    (∀ w after, store address (.i64 w) m = ⟨.ok (), after, []⟩ →
      ∃ between, store address w.lowScalar m = ⟨.ok (), between, []⟩ ∧
        store (address + 4) w.highScalar between = ⟨.ok (), after, []⟩) ∧
    (∀ type x, m.load type address = .ok x ↔
      x.type = type ∧ m.read address type.bytes = .ok (littleEndian x.bits type.bytes)) ∧
    ((∃ x, m.load .i64 address = .ok x) ↔
      (∃ low, m.load .i32 address = .ok low) ∧ ∃ high, m.load .i32 (address + 4) = .ok high) ∧
    ∀ w, m.load .i64 address = .ok (.i64 w) ↔
      m.load .i32 address = .ok w.lowScalar ∧ m.load .i32 (address + 4) = .ok w.highScalar := by
  intro m
  have inBounds_iff {size : Nat} : m.inBounds address size = true ↔ address + size ≤ m.size :=
    inBounds_iff_of_small (size_reached_lt created small before)
  refine ⟨fun x => ⟨fun inside => ?_, fun outside => ?_⟩, fun w after stored => ?_,
    fun type x => ?_, exists_load_i64_iff, fun w => load_i64_eq_ok_iff⟩
  · have inside := inBounds_iff.mpr inside
    refine ⟨_, ?_, stored_written inside⟩
    rw [store_apply, if_pos inside]
  · rw [store_apply, if_neg fun inside => Nat.not_le.mpr outside (inBounds_iff.mp inside)]
  · rw [store_apply] at stored
    split at stored
    next inside =>
      obtain ⟨between, low, high⟩ := store_i64_eq_ok (w := w) inside
      cases stored
      exact ⟨between, low, high⟩
    next => cases stored
  · rw [load_eq_ok_iff]
    refine and_congr_right fun type_eq => ?_
    rw [Scalar.encode_eq, type_eq]

/-- Numbers are stored over bytes that a closed frame left behind. The first one is loaded again,
the bytes behind it are still refused; the 64-bit one is its words; one that would reach beyond the
memory is not stored. -/
theorem scalars_coherent_stale :
    ∃ start, create { checks := .debug, memory := ⟨64, 128, 512⟩ } .fixed = .ok start ∧
      let m := reached [.enter 16, .exit (.active 8 1)] start
      m.load .i16 10 = .error (.assertion (.staleRead 10)) ∧
      (∃ after, store 10 (.i16 (-300)) m = ⟨.ok (), after, []⟩ ∧
        after.load .i16 10 = .ok (.i16 (-300)) ∧
        after.read 12 1 = .error (.assertion (.staleRead 12))) ∧
      (∃ between after, store 10 (.i32 5) m = ⟨.ok (), between, []⟩ ∧
        store 14 (.i32 (-1)) between = ⟨.ok (), after, []⟩ ∧
        after.load .i64 10 = .ok (.i64 ⟨5, 0xFFFFFFFF⟩)) ∧
      store 121 (.f64 ⟨0⟩) m = ⟨.error (.invalidAddress 121 8), m, []⟩ := by
  have created :=
    create_of_validate (c := { checks := .debug, memory := ⟨64, 128, 512⟩ }) rfl .fixed
  have coherent := scalars_coherent created (by decide) [.enter 16, .exit (.active 8 1)]
  refine ⟨_, created, rfl, ?_, ?_, ((coherent 121).1 (.f64 ⟨0⟩)).2 (by decide)⟩
  · obtain ⟨after, done, stored⟩ := ((coherent 10).1 (.i16 (-300))).1 (by decide)
    exact ⟨after, done, stored.load_eq, (stored.read_beside (by decide)).trans rfl⟩
  · obtain ⟨after, done, stored⟩ := ((coherent 10).1 (.i64 ⟨5, 0xFFFFFFFF⟩)).1 (by decide)
    obtain ⟨between, low, high⟩ := (coherent 10).2.1 ⟨5, 0xFFFFFFFF⟩ after done
    exact ⟨between, after, low, high, stored.load_eq⟩

end Memory

end LinearHost
