import LinearHost.Proofs.Memory.Access

/-!
# What reading answers

A range is read if it is in bounds and no byte of it is marked, and then its bytes are answered;
otherwise the first mark is reported. So a range is read in parts, and ranges that hold the same
cells are read alike.

## Main definitions

* `Memory.Unmarked`: ranges in which assertions find no mark.
* `Memory.read_eq_ok_iff`, `Memory.read_add_eq_ok_iff`: what is read, as a whole and in parts.
* `Memory.ReadAlike`, `Memory.readAlike`: how ranges are read that hold the same cells.
-/

namespace LinearHost.Memory

variable {m n : Memory} {address source target size more : Nat} {bytes : List UInt8}

def Unmarked (m : Memory) (address size : Nat) : Prop :=
  m.checks.assertions = true → ∀ k < size, m.isPoisoned (address + k) = false

theorem findIdx?_window_eq_none_iff :
    (m.image.window address size).findIdx? Cell.stale = none ↔
      ∀ k < size, m.isPoisoned (address + k) = false := by
  rw [Runs.findIdx?_eq, List.findIdx?_eq_none_iff]
  constructor
  · intro live k lt
    cases found : m.image.cell? (address + k) with
    | none => simp [isPoisoned, found]
    | some cell =>
      have there : (m.image.window address size).toList[k]? = some cell := by
        rw [Image.getElem?_window, if_pos lt, found]
      simp [isPoisoned, found, live cell (List.mem_of_getElem? there)]
  · intro live cell member
    obtain ⟨k, there⟩ := List.getElem?_of_mem member
    rw [Image.getElem?_window] at there
    split at there
    next lt => simpa [isPoisoned, there] using live k lt
    next => cases there

/-- The search for marks that assertions ask for finds none. -/
theorem search_eq_none_iff :
    (if m.checks.assertions then (m.image.window address size).findIdx? Cell.stale else none) =
      none ↔ m.Unmarked address size := by
  unfold Unmarked
  cases m.checks.assertions with
  | false => exact iff_of_true rfl nofun
  | true => exact findIdx?_window_eq_none_iff.trans ⟨fun live _ => live, fun live => live rfl⟩

theorem toList_map_window (m : Memory) (address size : Nat) :
    ((m.image.window address size).map Cell.value).toList = (m.bytes.drop address).take size := by
  simp only [Memory.bytes, Runs.toList_map, Image.toList_window, List.map_take, List.map_drop]

/-- A read succeeds in the memory if no mark is in the way, and answers the bytes there. -/
theorem read_eq_ok_iff :
    m.read address size = .ok bytes ↔
      m.inBounds address size = true ∧ m.Unmarked address size ∧
        (m.bytes.drop address).take size = bytes := by
  rw [read_eq, toList_map_window, ← search_eq_none_iff]
  cases inside : m.inBounds address size with
  | false => simp
  | true =>
    cases if m.checks.assertions then (m.image.window address size).findIdx? Cell.stale
      else none with
    | none => simp
    | some offset => simp

theorem length_of_read (answered : m.read address size = .ok bytes) : bytes.length = size := by
  obtain ⟨inside, -, rfl⟩ := read_eq_ok_iff.mp answered
  have fits := (inBounds_iff.mp inside).2
  rw [List.length_take, List.length_drop, length_bytes]
  omega

/-! ### Reading in parts -/

theorem inBounds_add_iff (size more : Nat) :
    m.inBounds address (size + more) = true ↔
      m.inBounds address size = true ∧ m.inBounds (address + size) more = true := by
  simp only [inBounds_iff]
  omega

/-- A range is unmarked exactly if both its parts are. -/
theorem unmarked_add_iff :
    m.Unmarked address (size + more) ↔
      m.Unmarked address size ∧ m.Unmarked (address + size) more := by
  constructor
  · intro live
    refine ⟨fun asserted k lt => live asserted k (by omega), fun asserted k lt => ?_⟩
    rw [Nat.add_assoc]
    exact live asserted (size + k) (by omega)
  · rintro ⟨first, second⟩ asserted k lt
    by_cases before : k < size
    · exact first asserted k before
    · have beyond := second asserted (k - size) (by omega)
      rwa [Nat.add_assoc, Nat.add_sub_cancel' (Nat.le_of_not_lt before)] at beyond

/-- A range is read if each of two parts is. -/
theorem read_add_eq_ok_iff (size more : Nat) :
    m.read address (size + more) = .ok bytes ↔
      m.read address size = .ok (bytes.take size) ∧
        m.read (address + size) more = .ok (bytes.drop size) := by
  have parts : (m.bytes.drop address).take (size + more) = bytes ↔
      (m.bytes.drop address).take size = bytes.take size ∧
        (m.bytes.drop (address + size)).take more = bytes.drop size := by
    rw [← List.drop_drop]
    constructor
    · rintro rfl
      rw [List.take_take, List.drop_take, Nat.min_eq_left (Nat.le_add_right ..),
        Nat.add_sub_cancel_left]
      exact ⟨rfl, rfl⟩
    · rintro ⟨first, second⟩
      rw [List.take_add, first, second, List.take_append_drop]
  simp only [read_eq_ok_iff, inBounds_add_iff, unmarked_add_iff, parts]
  constructor
  · rintro ⟨⟨here, there⟩, ⟨live, alive⟩, first, second⟩
    exact ⟨⟨here, live, first⟩, there, alive, second⟩
  · rintro ⟨⟨here, live, first⟩, there, alive, second⟩
    exact ⟨⟨here, there⟩, ⟨live, alive⟩, first, second⟩

/-! ### Ranges that hold the same cells -/

/-- Two ranges give the same bytes, or both are refused for the byte at the same place in them. -/
inductive ReadAlike (target source : Nat) :
    Except Fault (List UInt8) → Except Fault (List UInt8) → Prop where
  | bytes (row : List UInt8) : ReadAlike target source (.ok row) (.ok row)
  | stale (offset : Nat) :
      ReadAlike target source (.error (.assertion (.staleRead (target + offset))))
        (.error (.assertion (.staleRead (source + offset))))

theorem ReadAlike.eq_ok {found : Except Fault (List UInt8)}
    (alike : ReadAlike target source found (.ok bytes)) : found = .ok bytes := by
  cases alike
  rfl

theorem ReadAlike.eq_stale {found : Except Fault (List UInt8)} {offset : Nat}
    (alike : ReadAlike target source found (.error (.assertion (.staleRead (source + offset))))) :
    found = .error (.assertion (.staleRead (target + offset))) := by
  generalize there : Except.error _ = answer at alike
  cases alike with
  | bytes row => cases there
  | stale other =>
    simp only [Except.error.injEq, Fault.assertion.injEq, Assertion.staleRead.injEq,
      Nat.add_left_cancel_iff] at there
    rw [there]

theorem window_congr {i j : Image}
    (same : ∀ k < size, i.cell? (target + k) = j.cell? (source + k)) :
    i.window target size = j.window source size := by
  refine Runs.ext_toList (List.ext_getElem? fun k => ?_)
  rw [Image.getElem?_window, Image.getElem?_window]
  split
  next lt => exact same k lt
  next => rfl

/-- Equal cells are read alike. -/
theorem readAlike (checks : n.checks = m.checks) (here : n.inBounds target size = true)
    (there : m.inBounds source size = true)
    (same : ∀ k < size, n.image.cell? (target + k) = m.image.cell? (source + k)) :
    ReadAlike target source (n.read target size) (m.read source size) := by
  rw [read_eq, read_eq, if_pos here, if_pos there, window_congr same, checks]
  split
  next offset found => exact .stale offset
  next => exact .bytes _

theorem read_congr (checks : n.checks = m.checks) (length : n.size = m.size)
    (same : ∀ k < size, n.image.cell? (address + k) = m.image.cell? (address + k)) :
    n.read address size = m.read address size := by
  have bounds : n.inBounds address size = m.inBounds address size := by
    rw [Bool.eq_iff_iff, inBounds_iff, inBounds_iff, length]
  rw [read_eq, read_eq, bounds, window_congr same, checks]

end LinearHost.Memory
