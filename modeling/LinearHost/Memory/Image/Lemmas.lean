import LinearHost.Memory.Image.Basic
import LinearHost.Runs.Lemmas

/-!
# Lemmas about memory images

An image is seen through its size and through `cell?`. Each operation is described by what it does
to the two; nothing outside this file has to look into the row of cells.
-/

namespace LinearHost.Image

variable {i j : Image} {a start stop : Nat} {row : Runs Cell} {f : Cell → Cell}

theorem cell?_eq : i.cell? a = i.cells.toList[a]? :=
  Runs.get?_eq a

theorem size_eq : i.size = i.cells.toList.length :=
  Runs.length_toList.symm

theorem cell?_eq_none_iff : i.cell? a = none ↔ i.size ≤ a := by
  simp [cell?_eq, size_eq]

theorem isSome_cell? : (i.cell? a).isSome ↔ a < i.size := by
  simp [cell?_eq, size_eq]

theorem ext_cell? (h : ∀ a, i.cell? a = j.cell? a) : i = j :=
  Image.ext (Runs.ext_toList (List.ext_getElem? fun a => by simpa only [cell?_eq] using h a))

/-! ### Blank images -/

@[simp] theorem size_blank (n : Nat) : (blank n).size = n := by
  simp [blank, size]

theorem cell?_blank (n : Nat) : (blank n).cell? a = if a < n then some .blank else none := by
  grind [blank, cell?_eq, Runs.toList_replicate]

/-! ### Reading a row of cells -/

theorem toList_window (count : Nat) :
    (i.window start count).toList = (i.cells.toList.drop start).take count := by
  simp [window]

theorem length_window (count : Nat) :
    (i.window start count).length = min (start + count) i.size - start := by
  grind [toList_window, size_eq, Runs.length_toList]

theorem getElem?_window (count k : Nat) :
    (i.window start count).toList[k]? = if k < count then i.cell? (start + k) else none := by
  grind [toList_window, cell?_eq]

/-! ### Changing a window -/

@[simp] theorem size_update : (i.update start stop f).size = i.size := by
  simp only [update, size_eq, Runs.toList_splice, Runs.toList_map, toList_window,
    ← Runs.length_toList, List.length_append, List.length_take, List.length_drop, List.length_map]
  omega

/-- Inside the window every cell is changed, outside it none. -/
theorem cell?_update :
    (i.update start stop f).cell? a =
      if start ≤ a ∧ a < stop then (i.cell? a).map f else i.cell? a := by
  simp only [update, cell?_eq, Runs.toList_splice, Runs.toList_map, toList_window,
    ← Runs.length_toList, List.getElem?_append, List.getElem?_take, List.getElem?_drop,
    List.getElem?_map, List.length_append, List.length_take, List.length_drop, List.length_map]
  grind

/-! ### Putting in a row of cells -/

@[simp] theorem size_overwrite : (i.overwrite start row).size = i.size := by
  simp only [overwrite, size_eq, Runs.toList_splice, Runs.toList_take, ← Runs.length_toList,
    List.length_append, List.length_take, List.length_drop]
  omega

/-- The cells from `start` on are those of the row, the others stay as they are. -/
theorem cell?_overwrite :
    (i.overwrite start row).cell? a =
      if start ≤ a ∧ a < start + row.length ∧ a < i.size then row.toList[a - start]?
      else i.cell? a := by
  simp only [overwrite, cell?_eq, size_eq, Runs.toList_splice, Runs.toList_take,
    ← Runs.length_toList, List.getElem?_append, List.getElem?_take, List.getElem?_drop,
    List.length_append, List.length_take]
  grind

/-! ### Changing the size -/

@[simp] theorem size_resize (n : Nat) : (i.resize n).size = n := by
  simp only [resize, size_eq, Runs.toList_take, Runs.toList_splice, Runs.toList_replicate,
    ← Runs.length_toList, List.length_append, List.length_take, List.length_drop,
    List.length_replicate]
  omega

/-- Cells below both sizes stay; further ones are blank. -/
theorem cell?_resize (n : Nat) :
    (i.resize n).cell? a =
      if a < n then (if a < i.size then i.cell? a else some .blank) else none := by
  simp only [resize, cell?_eq, size_eq, Runs.toList_take, Runs.toList_splice,
    Runs.toList_replicate, ← Runs.length_toList, List.getElem?_append, List.getElem?_take,
    List.getElem?_drop, List.getElem?_replicate, List.length_append, List.length_take,
    List.length_replicate]
  grind

end LinearHost.Image
