import LinearHost.Proofs.Memory.Extent
import LinearHost.Proofs.Memory.Reading

/-!
# Copies

A range is copied as if through a buffer, in whatever way it overlaps with its target: the cells of
the source as they were before, bytes and marks together, stand in the target afterwards, and no
other cell changes. So the target is then read as the source was, and a mark is not lost on the way.

## Main definitions

* `Memory.Copied`: what a copy leaves behind.
* `Memory.copy_buffered`: what becomes of a copy.
-/

namespace LinearHost.Memory

variable {m after : Memory} {target source size : Nat}

/-- What a copy leaves behind: the target holds what the source held, and all else is as before. -/
structure Copied (m : Memory) (target source size : Nat) (after : Memory) : Prop where
  block : ∀ i < size, after.image.cell? (target + i) = m.image.cell? (source + i)
  beside : ∀ a, a < target ∨ target + size ≤ a → after.image.cell? a = m.image.cell? a
  size_eq : after.size = m.size
  rest : after = { m with image := after.image }

/-- The row is taken from the memory before any cell of it is overwritten. -/
theorem copied_overwrite (there : m.inBounds source size = true)
    (here : m.inBounds target size = true) :
    Copied m target source size
      { m with image := m.image.overwrite target (m.image.window source size) } := by
  have length := length_window_of_inBounds there
  have fits : target + size ≤ m.image.size := (inBounds_iff.mp here).2
  refine ⟨fun i lt => ?_, fun a apart => ?_, Image.size_overwrite, rfl⟩
  · have within : target ≤ target + i ∧ target + i < target + size ∧ target + i < m.image.size :=
      ⟨by omega, by omega, by omega⟩
    rw [Image.cell?_overwrite, length, if_pos within, Nat.add_sub_cancel_left,
      Image.getElem?_window, if_pos lt]
  · rw [Image.cell?_overwrite, length, if_neg (by omega)]

theorem copy_eq_ok (positive : 0 < size) (there : m.inBounds source size = true)
    (here : m.inBounds target size = true) :
    ∃ after,
      copy target source size m = ⟨.ok (), after, []⟩ ∧ Copied m target source size after := by
  refine ⟨_, ?_, copied_overwrite there here⟩
  rw [copy_apply, if_neg (Nat.ne_of_gt positive), if_pos there, place_apply,
    length_window_of_inBounds there, if_pos here]

/-- A range that is out of bounds is not copied, and the source is looked at first. -/
theorem copy_eq_error (positive : 0 < size)
    (outside : m.inBounds source size = false ∨ m.inBounds target size = false) :
    copy target source size m =
      ⟨.error (if m.inBounds source size then .invalidAddress target size
        else .invalidAddress source size), m, []⟩ := by
  rw [copy_apply, if_neg (Nat.ne_of_gt positive)]
  cases there : m.inBounds source size with
  | false => rfl
  | true =>
    have here : m.inBounds target size = false := by simpa [there] using outside
    rw [if_pos rfl, place_apply, length_window_of_inBounds there, here]
    rfl

/-- The target of a copy is read as the source was, in every part. -/
theorem Copied.readAlike (copied : Copied m target source size after)
    (there : m.inBounds source size = true) (here : m.inBounds target size = true) {i count : Nat}
    (le : i + count ≤ size) :
    ReadAlike (target + i) (source + i) (after.read (target + i) count)
      (m.read (source + i) count) := by
  have checks : after.checks = m.checks := by rw [copied.rest]
  obtain ⟨small, fits⟩ := inBounds_iff.mp here
  refine Memory.readAlike checks (inBounds_iff.mpr ?_) ?_ fun k lt => ?_
  · rw [copied.size_eq]
    omega
  · rw [inBounds_iff] at there ⊢
    omega
  · rw [Nat.add_assoc, Nat.add_assoc]
    exact copied.block (i + k) (by omega)

/-- Wherever operations lead, a range inside the memory is copied as if through a buffer: in
whatever way it overlaps with its target, the cells of the target, bytes and marks together, become
those that the source had before, and nothing else changes; so any part of the target is then read,
or refused for a mark, as that part of the source would have been before. If one of the ranges
reaches outside the memory, the copy fails and changes nothing; and copying no bytes changes
nothing, whatever the addresses. -/
theorem copy_buffered {c : Config} {grower : Grower} {start : Memory}
    (created : create c grower = .ok start) (small : c.memory.cap < addressSpace)
    (before : List Operation) (target source size : Nat) :
    let m := reached before start
    let outcome := copy target source size m
    (0 < size → source + size ≤ m.size → target + size ≤ m.size →
      outcome.result = .ok () ∧ Copied m target source size outcome.state ∧
        ∀ i count, i + count ≤ size →
          ReadAlike (target + i) (source + i) (outcome.state.read (target + i) count)
            (m.read (source + i) count)) ∧
    (0 < size → m.size < source + size ∨ m.size < target + size →
      outcome =
        ⟨.error (if source + size ≤ m.size then .invalidAddress target size
          else .invalidAddress source size), m, []⟩) ∧
    (size = 0 → outcome = ⟨.ok (), m, []⟩) := by
  intro m outcome
  have inBounds_iff {address size : Nat} :
      m.inBounds address size = true ↔ address + size ≤ m.size :=
    inBounds_iff_of_small (size_reached_lt created small before)
  refine ⟨fun positive there here => ?inside, fun positive outside => ?outside, fun empty => ?empty⟩
  case inside =>
    have there := inBounds_iff.mpr there
    have here := inBounds_iff.mpr here
    obtain ⟨after, done, copied⟩ := copy_eq_ok positive there here
    have done : outcome = ⟨.ok (), after, []⟩ := done
    rw [done]
    exact ⟨rfl, copied, fun i count => copied.readAlike there here⟩
  case outside =>
    simp only [← Nat.not_le, ← inBounds_iff, Bool.not_eq_true] at outside
    simpa only [inBounds_iff] using copy_eq_error positive outside
  case empty => exact (copy_apply target source size m).trans (if_pos empty)

/-- A live row with marked bytes behind it is moved up by two, onto itself: what was live is read
there and the first mark is caught there. A copy that would reach beyond the memory is refused. -/
theorem copy_buffered_overlapping :
    ∃ start, create { checks := .debug, memory := ⟨64, 128, 512⟩ } .fixed = .ok start ∧
      let m := reached [.enter 16, .exit (.active 8 1), .write 8 [1, 2, 3, 4]] start
      (copy 10 8 8 m).state.read 10 4 = .ok [1, 2, 3, 4] ∧
      (copy 10 8 8 m).state.read 11 7 = .error (.assertion (.staleRead 14)) ∧
      copy 10 121 8 m = ⟨.error (.invalidAddress 121 8), m, []⟩ ∧
      copy 900 121 0 m = ⟨.ok (), m, []⟩ := by
  have created :=
    create_of_validate (c := { checks := .debug, memory := ⟨64, 128, 512⟩ }) rfl .fixed
  have copies := fun target source size => copy_buffered created (by decide)
    [.enter 16, .exit (.active 8 1), .write 8 [1, 2, 3, 4]] target source size
  obtain ⟨-, -, alike⟩ := (copies 10 8 8).1 (by decide) (by decide) (by decide)
  refine ⟨_, created, ?_, ?_, (copies 10 121 8).2.1 (by decide) (.inl (by decide)),
    (copies 900 121 0).2.2 rfl⟩
  · exact (show ReadAlike 10 8 _ (.ok [1, 2, 3, 4]) from alike 0 4 (by decide)).eq_ok
  · exact (show ReadAlike 11 9 _ (.error (.assertion (.staleRead (9 + 3)))) from
      alike 1 7 (by decide)).eq_stale

end LinearHost.Memory
