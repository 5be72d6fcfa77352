import LinearHost.Memory.Scalar

/-!
# What an access to bytes can do

A range that passes the check of its bounds lies inside the image, so reading and writing never
reach outside it. Reading leaves the memory alone; writing changes the cells of its range only, and
none if it fails.

## Main definitions

* `Memory.bytes`, `Memory.marks`: the two halves of the contents.
-/

namespace LinearHost.Memory

variable {m : Memory} {address size : Nat}

/-! ### The contents -/

def bytes (m : Memory) : List UInt8 := (m.image.cells.map Cell.value).toList

def marks (m : Memory) : List Bool := (m.image.cells.map Cell.stale).toList

@[simp] theorem length_bytes (m : Memory) : m.bytes.length = m.size := by
  simp [bytes, Memory.size, Image.size_eq]

@[simp] theorem length_marks (m : Memory) : m.marks.length = m.size := by
  simp [marks, Memory.size, Image.size_eq]

theorem getElem?_bytes (m : Memory) (address : Nat) :
    m.bytes[address]? = (m.image.cell? address).map Cell.value := by
  simp [bytes, Image.cell?_eq]

/-- Only bytes of the memory are marked. -/
theorem isPoisoned_eq_true_iff :
    m.isPoisoned address = true ↔
      ∃ cell, m.image.cell? address = some cell ∧ cell.stale = true := by
  cases found : m.image.cell? address <;> simp [isPoisoned, found]

/-! ### Reading and writing -/

/-- A range that passes the check of its bounds lies inside the image. -/
theorem hasWindow_of_inBounds (inside : m.inBounds address size = true) :
    m.hasWindow address (address + size) = true :=
  hasWindow_iff.mpr ⟨Nat.le_add_right .., (inBounds_iff.mp inside).2⟩

theorem length_window_of_inBounds (inside : m.inBounds address size = true) :
    (m.image.window address size).length = size := by
  have fits : address + size ≤ m.image.size := (inBounds_iff.mp inside).2
  rw [Image.length_window]
  omega

/-- Cells are there if their range lies in the memory. -/
theorem cells_eq (m : Memory) (address size : Nat) :
    m.cells address size =
      if m.inBounds address size then .ok (m.image.window address size)
      else .error (.invalidAddress address size) := by
  cases inside : m.inBounds address size with
  | true => simp [cells, inside, hasWindow_of_inBounds inside]
  | false => simp [cells, inside]

/-- The bytes of a range are read if it lies inside the memory and assertions find no mark. -/
theorem read_eq (m : Memory) (address size : Nat) :
    m.read address size =
      if m.inBounds address size then
        match if m.checks.assertions then (m.image.window address size).findIdx? Cell.stale
          else none with
        | some offset => .error (.assertion (.staleRead (address + offset)))
        | none => .ok ((m.image.window address size).map Cell.value).toList
      else .error (.invalidAddress address size) := by
  rw [read, cells_eq]
  cases inside : m.inBounds address size <;> rfl

/-- A range is not read because of its bounds, or because of a mark in it. -/
theorem fault_of_read {fault : Fault} (failed : m.read address size = .error fault) :
    fault = .invalidAddress address size ∨ ∃ stale, fault = .assertion (.staleRead stale) := by
  rw [read_eq] at failed
  split at failed
  · split at failed
    · exact .inr ⟨_, (Except.error.inj failed).symm⟩
    · cases failed
  · exact .inl (Except.error.inj failed).symm

theorem load_eq (m : Memory) (type : ScalarType) (address : Nat) :
    m.load type address = (m.read address type.bytes).map type.decode := by
  rw [load]
  cases m.read address type.bytes <;> rfl

/-- A load fails for its range, or for a mark in it. -/
theorem fault_of_load {type : ScalarType} {fault : Fault}
    (failed : m.load type address = .error fault) :
    fault = .invalidAddress address type.bytes ∨
      ∃ stale, fault = .assertion (.staleRead stale) := by
  cases answer : m.read address type.bytes with
  | ok bytes => simp [load, answer, bind, Except.bind, pure, Except.pure] at failed
  | error found =>
    simp only [load, answer, bind, Except.bind, Except.error.injEq] at failed
    exact failed ▸ fault_of_read answer

theorem place_apply (address : Nat) (row : Runs Cell) (m : Memory) :
    place address row m =
      if m.inBounds address row.length then
        ⟨.ok (), { m with image := m.image.overwrite address row }, []⟩
      else ⟨.error (.invalidAddress address row.length), m, []⟩ := by
  cases inside : m.inBounds address row.length with
  | true => simp [place, Action.bind_apply, inside, hasWindow_of_inBounds inside]
  | false => simp [place, Action.bind_apply, inside]

/-- The source of a copy is checked before its target. -/
theorem copy_apply (target source size : Nat) (m : Memory) :
    copy target source size m =
      if size = 0 then ⟨.ok (), m, []⟩
      else if m.inBounds source size then place target (m.image.window source size) m
      else ⟨.error (.invalidAddress source size), m, []⟩ := by
  by_cases empty : size = 0
  · simp [copy, empty]
  · cases inside : m.inBounds source size <;>
      simp [copy, Action.bind_apply, cells_eq, empty, inside]

end LinearHost.Memory
