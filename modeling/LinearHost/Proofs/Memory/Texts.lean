import LinearHost.Memory.Text
import LinearHost.Proofs.Memory.Extent
import LinearHost.Proofs.Memory.Reading

/-!
# Texts up to a zero byte

A text is decoded while its bytes are read. What comes of this is what the decoder makes of the
whole row of bytes before the first zero byte; if a byte that is refused or the end of the memory
comes before, it is that fault.

## Main definitions

* `Memory.Passes`, `Memory.textAt_of_zero`: bytes that are read before a text ends.
* `Memory.Refused`, `Memory.Clear`: where reading goes on.
* `Memory.textAt_eq_ok_iff`, `Memory.textAt_eq_error_iff`: the text, and the fault.
-/

namespace LinearHost.Memory

variable {m : Memory} {start stop count : Nat} {bytes : List UInt8} {text : String} {fault : Fault}

/-! ### Bytes that are read -/

/-- The bytes stand one after the other from an address on, each can be read and is not zero. -/
def Passes (m : Memory) : Nat → List UInt8 → Prop
  | _, [] => True
  | start, b :: rest => m.readByte start = .ok b ∧ b ≠ 0 ∧ m.Passes (start + 1) rest

/-- A text is read byte by byte, each fed to the decoder. -/
theorem unitsFrom_eq (m : Memory) (units : Array UInt16) (d : Decoder) (start : Nat) :
    m.unitsFrom units d start =
      (m.readByte start).bind fun b =>
        if b = 0 then .ok units
        else m.unitsFrom (units ++ (d.feed b).2.toArray) (d.feed b).1 (start + 1) := by
  rw [unitsFrom]
  split
  next fault found => rw [found, Except.bind]
  next b found => rw [found, Except.bind]

/-- Bytes that are read are decoded as a row. -/
theorem Passes.unitsFrom_eq (passes : m.Passes start bytes) (units : Array UInt16) (d : Decoder) :
    m.unitsFrom units d start =
      m.unitsFrom (units ++ ((d.emitted bytes).filterMap id).toArray) (d.after bytes)
        (start + bytes.length) := by
  induction bytes generalizing start units d with
  | nil => simp [Decoder.after]
  | cons b rest ih =>
    obtain ⟨found, nonzero, others⟩ := passes
    rw [Memory.unitsFrom_eq, found, Except.bind, if_neg nonzero, ih others]
    have next : start + 1 + rest.length = start + (b :: rest).length := by
      rw [List.length_cons]
      omega
    rw [next]
    congr 1
    rw [Decoder.emitted_cons]
    cases (d.feed b).2 <;> simp

/-- A text ends before the first zero byte. -/
theorem textAt_of_zero (passes : m.Passes start bytes)
    (zero : m.readByte (start + bytes.length) = .ok 0) : m.textAt start = .ok (decode bytes) := by
  rw [textAt, passes.unitsFrom_eq, unitsFrom_eq, zero, Except.bind, if_pos rfl, Except.map]
  simp [decode, decodeUnits]

/-- A byte that cannot be read fails the text with its own fault. -/
theorem textAt_of_error (passes : m.Passes start bytes)
    (refused : m.readByte (start + bytes.length) = .error fault) :
    m.textAt start = .error fault := by
  rw [textAt, passes.unitsFrom_eq, unitsFrom_eq, refused]
  rfl

/-! ### Where reading goes on -/

def Refused (m : Memory) (address : Nat) : Prop :=
  m.checks.assertions = true ∧ m.isPoisoned address = true

instance (m : Memory) (address : Nat) : Decidable (m.Refused address) :=
  inferInstanceAs (Decidable (_ ∧ _))

def Clear (m : Memory) (start stop : Nat) : Prop :=
  ∀ a, start ≤ a → a < stop → m.bytes[a]? ≠ some 0 ∧ ¬ m.Refused a

instance (m : Memory) (start stop : Nat) : Decidable (m.Clear start stop) :=
  decidable_of_iff (∀ a < stop, start ≤ a → m.bytes[a]? ≠ some 0 ∧ ¬ m.Refused a)
    ⟨fun clear a le lt => clear a lt le, fun clear a lt le => clear a le lt⟩

/-- A byte of the memory is read unless it is refused. -/
theorem readByte_eq (small : m.size < addressSpace) (address : Nat) :
    m.readByte address =
      match m.bytes[address]? with
      | none => .error (.invalidAddress address 1)
      | some b =>
        if m.Refused address then .error (.assertion (.staleRead address)) else .ok b := by
  rw [readByte, read_eq, getElem?_bytes]
  cases found : m.image.cell? address with
  | none =>
    have beyond : m.size ≤ address := Image.cell?_eq_none_iff.mp found
    have outside : ¬ m.inBounds address 1 = true := by
      rw [inBounds_iff_of_small small]
      omega
    rw [if_neg outside]
    rfl
  | some cell =>
    have below : address < m.size := Image.isSome_cell?.mp (found ▸ rfl)
    have inside : m.inBounds address 1 = true := (inBounds_iff_of_small small).mpr below
    have row : (m.image.window address 1).toList = [cell] := by
      refine List.ext_getElem? fun k => ?_
      cases k <;> simp [Image.getElem?_window, found]
    have marked : m.isPoisoned address = cell.stale := by simp [isPoisoned, found]
    rw [if_pos inside, Runs.findIdx?_eq, Runs.toList_map, row]
    cases asserted : m.checks.assertions <;> cases stale : cell.stale <;>
      simp [Refused, marked, asserted, stale, Except.map]

theorem Clear.passes (small : m.size < addressSpace) (clear : m.Clear start (start + count))
    (le : count ≤ m.size - start) : m.Passes start ((m.bytes.drop start).take count) := by
  induction count generalizing start with
  | zero => trivial
  | succ count ih =>
    obtain ⟨nonzero, kept⟩ := clear start (Nat.le_refl _) (by omega)
    have lt : start < m.bytes.length := by
      rw [length_bytes]
      omega
    have found := List.getElem?_eq_getElem lt
    rw [List.drop_eq_getElem_cons lt, List.take_succ_cons]
    refine ⟨?_, ?_, ih (fun a le lt => clear a (by omega) (by omega)) (by omega)⟩
    · rw [readByte_eq small, found]
      exact if_neg kept
    · rintro zero
      exact nonzero (zero ▸ found)

/-- Reading goes on to a zero byte, to one that is refused or to the end of the memory. -/
theorem exists_clear (m : Memory) (start : Nat) :
    ∃ stop, start ≤ stop ∧ m.Clear start stop ∧
      (m.bytes[stop]? = some 0 ∨ m.Refused stop ∨ m.size ≤ stop) := by
  by_cases ends : m.bytes[start]? = some 0 ∨ m.Refused start ∨ m.size ≤ start
  · exact ⟨start, Nat.le_refl _, fun a le lt => absurd le (Nat.not_le.mpr lt), ends⟩
  · simp only [not_or, Nat.not_le] at ends
    obtain ⟨nonzero, kept, inside⟩ := ends
    obtain ⟨stop, le, clear, ends⟩ := exists_clear m (start + 1)
    refine ⟨stop, by omega, fun a le_a lt => ?_, ends⟩
    obtain rfl | beyond := Nat.eq_or_lt_of_le le_a
    · exact ⟨nonzero, kept⟩
    · exact clear a beyond lt
termination_by m.size - start

/-! ### What comes of reading -/

/-- Reading comes to the last address of a range without a byte that is zero or refused. -/
theorem Clear.exists_passes (small : m.size < addressSpace) (clear : m.Clear start stop)
    (start_le : start ≤ stop) (le : stop ≤ max start m.size) :
    ∃ bytes, m.Passes start bytes ∧ start + bytes.length = stop ∧
      bytes = (m.bytes.drop start).take (stop - start) := by
  obtain ⟨count, rfl⟩ := Nat.exists_eq_add_of_le start_le
  rw [Nat.add_sub_cancel_left]
  refine ⟨_, clear.passes small (by omega), ?_, rfl⟩
  rw [List.length_take, List.length_drop, length_bytes]
  omega

theorem textAt_of_clear_zero (small : m.size < addressSpace) (le : start ≤ stop)
    (clear : m.Clear start stop) (zero : m.bytes[stop]? = some 0) (kept : ¬ m.Refused stop) :
    m.textAt start = .ok (decode ((m.bytes.drop start).take (stop - start))) := by
  have inside : stop < m.bytes.length := (List.getElem?_eq_some_iff.mp zero).1
  rw [length_bytes] at inside
  obtain ⟨bytes, passes, last, row⟩ := clear.exists_passes small le (by omega)
  rw [← row]
  refine textAt_of_zero passes ?_
  rw [last, readByte_eq small, zero]
  exact if_neg kept

theorem textAt_of_clear_refused (small : m.size < addressSpace) (le : start ≤ stop)
    (clear : m.Clear start stop) (refused : m.Refused stop) :
    m.textAt start = .error (.assertion (.staleRead stop)) := by
  obtain ⟨cell, found, -⟩ := isPoisoned_eq_true_iff.mp refused.2
  have inside : stop < m.size := Image.isSome_cell?.mp (found ▸ rfl)
  obtain ⟨bytes, passes, rfl, -⟩ := clear.exists_passes small le (by omega)
  refine textAt_of_error passes ?_
  rw [readByte_eq small, getElem?_bytes, found]
  exact if_pos refused

theorem textAt_of_clear_end (small : m.size < addressSpace) (clear : m.Clear start m.size) :
    m.textAt start = .error (.invalidAddress (max start m.size) 1) := by
  have clear : m.Clear start (max start m.size) := fun a le lt => clear a le (by omega)
  have outside : m.bytes[max start m.size]? = none := by
    rw [List.getElem?_eq_none_iff, length_bytes]
    omega
  obtain ⟨bytes, passes, last, -⟩ :=
    clear.exists_passes small (Nat.le_max_left ..) (Nat.le_refl _)
  refine textAt_of_error passes ?_
  rw [last, readByte_eq small, outside]

/-- What comes of reading a text: it ends before a zero byte, or before a byte that is refused, or
the memory ends. -/
inductive TextEnd (m : Memory) (start : Nat) : Except Fault String → Prop where
  | zero {stop : Nat} (le : start ≤ stop) (clear : m.Clear start stop)
      (zero : m.bytes[stop]? = some 0) (kept : ¬ m.Refused stop) :
      TextEnd m start (.ok (decode ((m.bytes.drop start).take (stop - start))))
  | refused {stop : Nat} (le : start ≤ stop) (clear : m.Clear start stop)
      (refused : m.Refused stop) : TextEnd m start (.error (.assertion (.staleRead stop)))
  | outside (clear : m.Clear start m.size) :
      TextEnd m start (.error (.invalidAddress (max start m.size) 1))

/-- Reading a text ends in one of these ways, wherever it starts. -/
theorem textEnd (small : m.size < addressSpace) (start : Nat) :
    TextEnd m start (m.textAt start) := by
  obtain ⟨stop, le, clear, ends⟩ := exists_clear m start
  by_cases refused : m.Refused stop
  · exact textAt_of_clear_refused small le clear refused ▸ .refused le clear refused
  · obtain zero | refuses | outside := ends
    · exact textAt_of_clear_zero small le clear zero refused ▸ .zero le clear zero refused
    · exact absurd refuses refused
    · have clear : m.Clear start m.size := fun a le lt => clear a le (by omega)
      exact textAt_of_clear_end small clear ▸ .outside clear

/-- A text ends before the first zero byte, if no byte up to it is refused. -/
theorem textAt_eq_ok_iff (small : m.size < addressSpace) :
    m.textAt start = .ok text ↔
      ∃ stop, start ≤ stop ∧ m.Clear start stop ∧ m.bytes[stop]? = some 0 ∧ ¬ m.Refused stop ∧
        text = decode ((m.bytes.drop start).take (stop - start)) := by
  constructor
  · intro found
    have ends := textEnd small start
    rw [found] at ends
    cases ends with
    | zero le clear zero kept => exact ⟨_, le, clear, zero, kept, rfl⟩
  · rintro ⟨stop, le, clear, zero, kept, rfl⟩
    exact textAt_of_clear_zero small le clear zero kept

/-- There is no text if a byte before the first zero byte is refused or lies outside the memory. -/
theorem textAt_eq_error_iff (small : m.size < addressSpace) :
    m.textAt start = .error fault ↔
      (∃ stop, start ≤ stop ∧ m.Clear start stop ∧ m.Refused stop ∧
        fault = .assertion (.staleRead stop)) ∨
      (m.Clear start m.size ∧ fault = .invalidAddress (max start m.size) 1) := by
  constructor
  · intro failed
    have ends := textEnd small start
    rw [failed] at ends
    cases ends with
    | refused le clear refused => exact .inl ⟨_, le, clear, refused, rfl⟩
    | outside clear => exact .inr ⟨clear, rfl⟩
  · rintro (⟨stop, le, clear, refused, rfl⟩ | ⟨clear, rfl⟩)
    · exact textAt_of_clear_refused small le clear refused
    · exact textAt_of_clear_end small clear

end LinearHost.Memory
