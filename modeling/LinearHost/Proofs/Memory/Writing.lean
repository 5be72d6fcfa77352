import LinearHost.Proofs.Memory.Reading

/-!
# What writing leaves behind

Bytes that are written stand in their range without marks, and every other cell is as it was. So
they are read again, whatever was marked there, and ranges beside them are read as before; and to
write a row of bytes is to write one part of it and then the other.

## Main definitions

* `Memory.Holds`, `Memory.Holds.read`: bytes that can be read.
* `Memory.Apart`: ranges without a common address.
* `Memory.written`, `Memory.write_apply`: what writing does.
-/

namespace LinearHost.Memory

variable {m : Memory} {start size other count : Nat} {bytes more : List UInt8}

/-! ### Bytes that can be read -/

/-- The bytes stand in the memory from an address on, and no closed frame left them behind. -/
def Holds (m : Memory) (start : Nat) (bytes : List UInt8) : Prop :=
  ∀ k b, bytes[k]? = some b → m.image.cell? (start + k) = some (.live b)

theorem Holds.unmarked (holds : m.Holds start bytes) : m.Unmarked start bytes.length := by
  intro _ k lt
  rw [isPoisoned, holds k _ (List.getElem?_eq_getElem lt)]
  rfl

theorem Holds.bytes_eq (holds : m.Holds start bytes) :
    (m.bytes.drop start).take bytes.length = bytes := by
  refine List.ext_getElem? fun k => ?_
  rw [List.getElem?_take, List.getElem?_drop, getElem?_bytes]
  split
  next lt =>
    have found := List.getElem?_eq_getElem lt
    rw [holds k _ found, found]
    rfl
  next beyond => exact (List.getElem?_eq_none (Nat.le_of_not_lt beyond)).symm

/-- Bytes that stand in the memory are read. -/
theorem Holds.read (holds : m.Holds start bytes) (inside : m.inBounds start bytes.length = true) :
    m.read start bytes.length = .ok bytes :=
  read_eq_ok_iff.mpr ⟨inside, holds.unmarked, holds.bytes_eq⟩

theorem Holds.left (holds : m.Holds start (bytes ++ more)) : m.Holds start bytes := by
  intro k b found
  have inside : k < bytes.length := (List.getElem?_eq_some_iff.mp found).1
  exact holds k b (by rw [List.getElem?_append_left inside, found])

theorem Holds.right (holds : m.Holds start (bytes ++ more)) :
    m.Holds (start + bytes.length) more := by
  intro k b found
  rw [Nat.add_assoc]
  exact holds _ b (by rw [List.getElem?_append_right (Nat.le_add_right ..), Nat.add_sub_cancel_left,
    found])

/-! ### Writing -/

def written (m : Memory) (start : Nat) (bytes : List UInt8) : Memory :=
  { m with image := m.image.overwrite start (.ofList (bytes.map .live)) }

/-- A write puts its bytes within the memory, and is refused elsewhere. -/
theorem write_apply (start : Nat) (bytes : List UInt8) (m : Memory) :
    write start bytes m =
      if m.inBounds start bytes.length then ⟨.ok (), m.written start bytes, []⟩
      else ⟨.error (.invalidAddress start bytes.length), m, []⟩ := by
  rw [write, place_apply, Runs.length_ofList, List.length_map]
  rfl

@[simp] theorem size_written : (m.written start bytes).size = m.size :=
  Image.size_overwrite

theorem inBounds_written :
    (m.written start bytes).inBounds other count = m.inBounds other count := by
  rw [Bool.eq_iff_iff, inBounds_iff, inBounds_iff, size_written]

theorem cell?_written (a : Nat) :
    (m.written start bytes).image.cell? a =
      if start ≤ a ∧ a < start + bytes.length ∧ a < m.size then (bytes[a - start]?).map .live
      else m.image.cell? a := by
  rw [written, Image.cell?_overwrite, Runs.length_ofList, List.length_map, Runs.toList_ofList,
    List.getElem?_map]
  rfl

theorem holds_written (inside : m.inBounds start bytes.length = true) :
    (m.written start bytes).Holds start bytes := by
  intro k b found
  have lt : k < bytes.length := (List.getElem?_eq_some_iff.mp found).1
  have fits := (inBounds_iff.mp inside).2
  rw [cell?_written, if_pos ⟨by omega, by omega, by omega⟩, Nat.add_sub_cancel_left, found]
  rfl

/-- Bytes that are written can be read, even where a closed frame had left others behind. -/
theorem read_written (inside : m.inBounds start bytes.length = true) :
    (m.written start bytes).read start bytes.length = .ok bytes :=
  (holds_written inside).read (inBounds_written.trans inside)

/-- To write bytes in two parts is to write them at once. -/
theorem written_append :
    m.written start (bytes ++ more) =
      (m.written start bytes).written (start + bytes.length) more := by
  refine congrArg (fun image => { m with image }) (Image.ext_cell? fun a => ?_)
  show (m.written start (bytes ++ more)).image.cell? a =
    ((m.written start bytes).written (start + bytes.length) more).image.cell? a
  rw [cell?_written, cell?_written, cell?_written, size_written, List.length_append,
    List.getElem?_append]
  grind

/-! ### Ranges beside each other -/

def Apart (start size other count : Nat) : Prop :=
  ∀ k < count, other + k < start ∨ start + size ≤ other + k

instance (start size other count : Nat) : Decidable (Apart start size other count) :=
  inferInstanceAs (Decidable (∀ k < count, other + k < start ∨ start + size ≤ other + k))

/-- A write leaves what is read beside it as it was. -/
theorem read_written_of_apart (apart : Apart start bytes.length other count) :
    (m.written start bytes).read other count = m.read other count := by
  refine read_congr rfl size_written fun k lt => ?_
  have beside := apart k lt
  rw [cell?_written, if_neg (by omega)]

end LinearHost.Memory
