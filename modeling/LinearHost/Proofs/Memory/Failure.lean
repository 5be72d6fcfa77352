import LinearHost.Memory.Image.Lemmas
import LinearHost.Proofs.Memory.WellFormed

/-!
# What a failed operation leaves behind

An operation that fails leaves the memory as it was, but for the grower, which may remember that it
was asked. The one exception is a block that used up the stack and is given back: its cells stay
live, so the marks of what closed frames had left behind above the top of the stack are lost.

## Main definitions

* `Memory.claimed_eq_self_iff`: when handing out cells changes nothing.
* `Memory.failed_unchanged_iff`: when a failure leaves the memory as it was.
-/

namespace LinearHost.Memory

variable {m after : Memory} {op : Operation} {fault : Fault} {start stop : Nat}

theorem revived_of_live {cell : Cell} (live : cell.stale = false) : cell.revived = cell := by
  cases cell
  cases live
  rfl

/-- Handing out cells that keep their bytes changes nothing exactly if none of them is marked. -/
theorem claimed_eq_self_iff {image : Image} :
    claimed image start stop false = image ↔
      ∀ address, start ≤ address → address < stop →
        ∀ cell, image.cell? address = some cell → cell.stale = false := by
  constructor
  · intro same address start_le lt_stop cell found
    have revived : some cell.revived = some cell := by
      have changed := congrArg (·.cell? address) same
      simpa [claimed, Image.cell?_update, start_le, lt_stop, found] using changed
    rw [← Option.some.inj revived]
    rfl
  · intro live
    refine Image.ext_cell? fun address => ?_
    rw [claimed, Image.cell?_update]
    split
    next inside =>
      cases found : image.cell? address with
      | none => rfl
      | some cell =>
        exact congrArg some (revived_of_live (live address inside.1 inside.2 cell found))
    next => rfl

/-- Something that a closed frame left behind lies above the top of the stack. -/
def HasLeftovers (m : Memory) : Prop :=
  ∃ address, m.stack.top ≤ address ∧ address < m.stack.limit ∧ m.isPoisoned address = true

/-- To claim the rest of the stack changes nothing exactly if no leftovers lie there. -/
theorem claimed_stack_eq_self_iff :
    claimed m.image m.stack.top m.stack.limit false = m.image ↔ ¬ m.HasLeftovers := by
  rw [claimed_eq_self_iff]
  constructor
  · rintro live ⟨address, top_le, lt_limit, poisoned⟩
    obtain ⟨cell, found, stale⟩ := isPoisoned_eq_true_iff.mp poisoned
    rw [live address top_le lt_limit cell found] at stale
    cases stale
  · intro clean address top_le lt_limit cell found
    refine Bool.eq_false_iff.mpr fun stale => clean ⟨address, top_le, lt_limit, ?_⟩
    exact isPoisoned_eq_true_iff.mpr ⟨cell, found, stale⟩

/-- A failed operation only changes the memory if it gives back a block of the stack that had taken
the marks off what closed frames left behind. -/
theorem Change.unchanged_iff (returned : fault.isFatal = false)
    (change : Change m op (.error fault) after) :
    { after with grower := m.grower } = m ↔
      ¬ ((∃ top limit, fault = .assertion (.stackExhausted top limit)) ∧ m.HasLeftovers) := by
  cases change with
  | failed _ unexhausted =>
    refine ⟨fun _ => ?_, fun _ => rfl⟩
    rintro ⟨⟨top, limit, rfl⟩, -⟩
    exact unexhausted top limit rfl
  | refused uses growable =>
    refine ⟨fun _ => ?_, fun _ => rfl⟩
    rintro ⟨⟨top, limit, exhausted⟩, -⟩
    cases exhausted
  | escaped uses reserved outside => cases returned
  | rejected fit inside asserted =>
    have exhausted : ∃ top limit, Fault.assertion (.stackExhausted m.stack.limit m.stack.limit) =
        .assertion (.stackExhausted top limit) := ⟨_, _, rfl⟩
    rw [and_iff_right exhausted, ← claimed_stack_eq_self_iff]
    constructor
    · intro same
      exact congrArg Memory.image same
    · intro same
      rw [same]
  | unreleased innermost lower outside => cases returned

/-- Handing out cells that keep their bytes changes no byte. -/
theorem bytes_claimed (m : Memory) (start stop : Nat) :
    { m with image := claimed m.image start stop false }.bytes = m.bytes := by
  refine List.ext_getElem? fun address => ?_
  rw [getElem?_bytes, getElem?_bytes, claimed, Image.cell?_update]
  split
  next => cases m.image.cell? address <;> rfl
  next => rfl

/-- A failed operation changes nothing but marks above the top of the stack. -/
theorem Change.contents_of_failed (returned : fault.isFatal = false)
    (change : Change m op (.error fault) after) :
    { after with grower := m.grower, image := m.image } = m ∧ after.bytes = m.bytes ∧
      ∀ address, address < m.stack.top ∨ m.stack.limit ≤ address →
        after.image.cell? address = m.image.cell? address := by
  cases change with
  | failed _ unexhausted => exact ⟨rfl, rfl, fun _ _ => rfl⟩
  | refused uses growable => exact ⟨rfl, rfl, fun _ _ => rfl⟩
  | escaped uses reserved outside => cases returned
  | rejected fit inside asserted =>
    refine ⟨rfl, bytes_claimed .., fun address outside => ?_⟩
    have outside : ¬ (m.stack.top ≤ address ∧ address < m.stack.limit) := by omega
    exact Image.cell?_update.trans (if_neg outside)
  | unreleased innermost lower outside => cases returned

/-- Wherever operations lead, under whatever settings and policies, an operation that returns a
failure leaves everything but the grower as it was, unless it gives back a block that had used up the
stack, and something that a closed frame left behind lay above the top of the stack; even then
only marks above the top are lost. -/
theorem failed_unchanged_iff {c : Config} {grower : Grower} {start : Memory}
    (created : create c grower = .ok start) (ops : List Operation) {op : Operation} {fault : Fault}
    (failed : (step op (reached ops start)).result = .error fault)
    (returned : fault.isFatal = false) :
    let m := reached ops start
    let after := (step op m).state
    ({ after with grower := m.grower } = m ↔
      ¬ ((∃ top limit, fault = .assertion (.stackExhausted top limit)) ∧ m.HasLeftovers)) ∧
    { after with grower := m.grower, image := m.image } = m ∧ after.bytes = m.bytes ∧
    ∀ address, address < m.stack.top ∨ m.stack.limit ≤ address →
      after.image.cell? address = m.image.cell? address := by
  obtain ⟨valid, rfl⟩ := create_eq_ok.mp created
  have orderly := (ofLayout_wellFormed valid grower).toOrderly.reached ops
  have change := step_change (reached ops (ofLayout c grower)) orderly op
  rw [failed] at change
  exact ⟨change.unchanged_iff returned, change.contents_of_failed returned⟩

/-- A block that does not fit leaves what a closed frame left behind as it is. -/
theorem failed_unchanged_outOfMemory :
    ∃ start,
      create { checks := .debug, memory := ⟨64, 512, 512⟩ } .fixed = .ok start ∧
      let m := reached [.enter 32, .exit (.active 8 1)] start
      (step (.stackAlloc 100) m).result = .error (.outOfMemory .stack 100 8 72) ∧
      { (step (.stackAlloc 100) m).state with grower := m.grower } = m := by
  refine ⟨_, create_of_validate rfl .fixed, rfl, ?_⟩
  have unchanged := failed_unchanged_iff
    (create_of_validate (c := { checks := .debug, memory := ⟨64, 512, 512⟩ }) rfl .fixed)
    [.enter 32, .exit (.active 8 1)]
    (rfl : (step (.stackAlloc 100) _).result = .error (.outOfMemory .stack 100 8 72)) rfl
  refine unchanged.1.mpr ?_
  rintro ⟨⟨top, limit, exhausted⟩, -⟩
  cases exhausted

/-- A block that is given back takes the marks off what a closed frame left behind. -/
theorem failed_stackAlloc_changes_marks :
    ∃ start,
      create { checks := .debug, memory := ⟨64, 512, 512⟩ } .fixed = .ok start ∧
      let m := reached [.enter 32, .exit (.active 8 1)] start
      (step (.stackAlloc 64) m).result = .error (.assertion (.stackExhausted 72 72)) ∧
      m.isPoisoned 8 = true ∧ (step (.stackAlloc 64) m).state.isPoisoned 8 = false ∧
      { (step (.stackAlloc 64) m).state with grower := m.grower } ≠ m := by
  refine ⟨_, rfl, rfl, rfl, rfl, fun same => ?_⟩
  have same := congrArg (·.isPoisoned 8) same
  exact absurd same (by decide)

end LinearHost.Memory
