import LinearHost.Proofs.Memory.Block
import LinearHost.Proofs.Memory.Nesting

/-!
# What an operation does to the marks

With invalidation, a closed frame marks what it leaves on the stack, and a copy carries marks along;
nothing else sets a mark. A mark is taken off where live bytes are put in, by writing or by copying,
and where a block is handed out. Nothing else takes one off, save a block that is given back because
it used up the stack.

## Main definitions

* `Memory.Poisons`, `Memory.Revives`: the operations that set the mark of an address, or take it off.
* `Memory.Served`: an operation that asks for a block is not refused.
* `Memory.isPoisoned_next_iff`: the mark of an address after an operation.
-/

namespace LinearHost.Memory

variable {m after room : Memory} {op : Operation} {policy : Policy} {answer : Answer}
  {size alignment top address start : Nat} {row : Runs Cell}

/-! ### Setting a mark and taking it away -/

/-- What it takes to mark an address, for an operation that succeeds: a frame leaves it above the
restored top, or a mark is copied onto it. -/
def Marks (m : Memory) (address : Nat) : Operation → Prop
  | .exit (.active savedTop _) => savedTop ≤ address ∧ address < m.stack.top
  | .copy target source size =>
    target ≤ address ∧ address < target + size ∧ m.isPoisoned (source + (address - target)) = true
  | _ => False

def Overwrites (m : Memory) (address : Nat) : Operation → Prop
  | .write start bytes => start ≤ address ∧ address < start + bytes.length
  | .fill start _ size => start ≤ address ∧ address < start + size
  | .store start x => start ≤ address ∧ address < start + x.encode.length
  | .copy target source size =>
    target ≤ address ∧ address < target + size ∧ m.isPoisoned (source + (address - target)) = false
  | _ => False

def Poisons (m : Memory) (address : Nat) (op : Operation) : Prop :=
  (step op m).result = .ok .done ∧ Marks m address op

/-- The operation takes the mark off an address, if there is one: it puts a live byte there, or hands
out a block that holds the address. -/
def Revives (m : Memory) (address : Nat) (op : Operation) : Prop :=
  (step op m).result = .ok .done ∧ Overwrites m address op ∨
    ∃ block, m.handedOut? op = some block ∧ block.Holds address

/-- An operation that asks for a block succeeds. -/
def Served (m : Memory) (op : Operation) : Prop :=
  op.policy?.isSome = true → ∃ answer, (step op m).result = .ok answer

theorem policy?_of_overwrites (overwrites : Overwrites m address op) : op.policy? = none := by
  cases op <;> first | rfl | exact overwrites.elim

theorem policy?_of_marks (marks : Marks m address op) : op.policy? = none := by
  cases op <;> first | rfl | exact marks.elim

theorem handedOut?_of_policy? (unasked : op.policy? = none) : m.handedOut? op = none := by
  simp [handedOut?, unasked]

/-! ### The marks after handing out a block -/

/-- The cells of a block are live, and other marks stay. -/
theorem isPoisoned_claim :
    (m.claim policy top).isPoisoned address = true ↔
      m.isPoisoned address = true ∧ ¬ ((m.region policy.region).top ≤ address ∧ address < top) := by
  have cell : (m.claim policy top).image.cell? address = _ := Image.cell?_update
  rw [isPoisoned, cell, isPoisoned]
  split
  next inside =>
    cases m.image.cell? address with
    | none => simp
    | some c => cases zero : policy.zeroFill <;> simp [Cell.blank, Cell.revived, inside]
  next outside => simp [outside]

/-- Making room for a block leaves the marks alone. -/
theorem Reserved.isPoisoned_eq {result : Except Fault Nat} (sound : m.WellFormed)
    (idle : m.IdleGrowth policy size alignment)
    (reserved : Reserved m policy size alignment result room) :
    room.isPoisoned address = m.isPoisoned address := by
  rw [isPoisoned, (reserved.extended sound idle).2 address, isPoisoned]
  split
  · rfl
  next outside =>
    rw [Image.cell?_eq_none_iff.mpr (Nat.le_of_not_lt outside)]
    split <;> rfl

theorem isPoisoned_withFrame (savedTop : Nat) :
    (m.withFrame savedTop).isPoisoned address = m.isPoisoned address := rfl

/-- Handing out a block takes the marks off its cells only. -/
theorem Handed.isPoisoned_iff (sound : m.WellFormed)
    (fixed : policy.region = .stack → policy.growable = false)
    (handed : Handed m policy size answer after) :
    after.isPoisoned address = true ↔
      m.isPoisoned address = true ∧
        ¬ ∃ start, answer.start? = some start ∧ start ≤ address ∧
          address < (after.region policy.region).top := by
  cases handed with
  | taken reserved =>
    rw [isPoisoned_claim, reserved.isPoisoned_eq sound (idleGrowth_of_growable fixed),
      reserved.top_region, top_claim]
    simp [Answer.start?]
  | framed reserved =>
    rw [isPoisoned_withFrame, isPoisoned_claim, region_withFrame, top_claim]
    simp [Answer.start?, Frame.savedTop?, nextFrame, Policy.stack, region]
  | bare =>
    rw [isPoisoned_withFrame, region_withFrame]
    simp [Answer.start?, Frame.savedTop?, nextFrame, Policy.stack, region]
  | skipped => simp [Answer.start?, Frame.savedTop?]

/-! ### The marks after writing and copying -/

/-- Putting in a row that fits replaces the marks of its range by those of the row. -/
theorem isPoisoned_overwrite (inside : start + row.length ≤ m.size) :
    { m with image := m.image.overwrite start row }.isPoisoned address =
      if start ≤ address ∧ address < start + row.length then
        (row.toList[address - start]?.map Cell.stale).getD false
      else m.isPoisoned address := by
  have cell : { m with image := m.image.overwrite start row }.image.cell? address = _ :=
    Image.cell?_overwrite
  have within : address < start + row.length → address < m.image.size := fun lt =>
    Nat.lt_of_lt_of_le lt inside
  rw [isPoisoned, cell, isPoisoned]
  by_cases covered : start ≤ address ∧ address < start + row.length
  · rw [if_pos ⟨covered.1, covered.2, within covered.2⟩, if_pos covered]
  · rw [if_neg fun all => covered ⟨all.1, all.2.1⟩, if_neg covered]

/-- Live bytes take the marks off their range. -/
theorem isPoisoned_place (m : Memory) (start address : Nat)
    (live : ∀ c ∈ row.toList, c.stale = false) :
    (place start row m).state.isPoisoned address = true ↔
      m.isPoisoned address = true ∧
        ¬ ((place start row m).result = .ok () ∧ start ≤ address ∧
          address < start + row.length) := by
  rw [place_apply]
  split
  next inside =>
    rw [isPoisoned_overwrite (inBounds_iff.mp inside).2]
    split
    next covered =>
      cases found : row.toList[address - start]? with
      | none => simp [covered]
      | some c => simp [live c (List.mem_of_getElem? found), covered]
    next outside => simp [outside]
  next => simp

/-- A copy takes the marks of its source along, and their absence too. -/
theorem isPoisoned_copy (m : Memory) (target source size address : Nat) :
    (copy target source size m).state.isPoisoned address = true ↔
      (copy target source size m).result = .ok () ∧ target ≤ address ∧ address < target + size ∧
          m.isPoisoned (source + (address - target)) = true ∨
        m.isPoisoned address = true ∧
          ¬ ((copy target source size m).result = .ok () ∧ target ≤ address ∧
            address < target + size ∧ m.isPoisoned (source + (address - target)) = false) := by
  rw [copy_apply]
  split
  next empty =>
    have nowhere : ¬ (target ≤ address ∧ address < target + size) := by omega
    grind
  next =>
    split
    next inside =>
      have length := length_window_of_inBounds inside
      rw [place_apply, length]
      split
      next room =>
        have fits := (inBounds_iff.mp room).2
        rw [isPoisoned_overwrite (by rwa [length]), length, Image.getElem?_window]
        by_cases covered : target ≤ address ∧ address < target + size
        · have within : address - target < size := by omega
          rw [if_pos covered, if_pos within]
          show m.isPoisoned (source + (address - target)) = true ↔ _
          cases m.isPoisoned (source + (address - target)) <;> simp [covered]
        · rw [if_neg covered]
          grind
      next => simp
    next => simp

/-! ### The marks after closing a frame -/

/-- What a closed frame leaves behind is cleared and marked. -/
theorem cell?_closed (sound : m.WellFormed) (invalidates : m.checks.stackInvalidation = true)
    {savedTop : Nat} (savedTop_le : savedTop ≤ address) (lt_top : address < m.stack.top) :
    (m.closed savedTop).image.cell? address = some .poisoned := by
  have lower : savedTop < m.stack.top := by omega
  have le_size := (hasWindow_iff.mp (sound.hasWindow_stack lower)).2
  have inside : (m.image.cell? address).isSome :=
    Image.isSome_cell?.mpr (Nat.lt_of_lt_of_le lt_top le_size)
  obtain ⟨c, found⟩ := Option.isSome_iff_exists.mp inside
  rw [closed, released, if_pos ⟨invalidates, lower⟩, Image.cell?_update,
    if_pos ⟨savedTop_le, lt_top⟩, found, Option.map_some]

/-- To close a frame marks what lay above the top that it restores. -/
theorem isPoisoned_closed (sound : m.WellFormed) (invalidates : m.checks.stackInvalidation = true)
    {savedTop : Nat} :
    (m.closed savedTop).isPoisoned address = true ↔
      savedTop ≤ address ∧ address < m.stack.top ∨ m.isPoisoned address = true := by
  by_cases left : savedTop ≤ address ∧ address < m.stack.top
  · simp [isPoisoned, cell?_closed sound invalidates left.1 left.2, left, Cell.poisoned]
  · rw [or_iff_right left, isPoisoned, closed, released]
    split
    next => rw [Image.cell?_update, if_neg left, isPoisoned]
    next => exact Iff.rfl

/-! ### The marks after any operation -/

theorem map_done_eq_ok {result : Except Fault Unit} :
    (result.map fun _ => Answer.done) = .ok .done ↔ result = .ok () := by
  cases result <;> simp [Except.map]

theorem stale_eq_false_of_mem_ofList (bytes : List UInt8) :
    ∀ c ∈ (Runs.ofList (bytes.map Cell.live)).toList, c.stale = false := by
  intro c member
  rw [Runs.toList_ofList] at member
  obtain ⟨byte, -, rfl⟩ := List.mem_map.mp member
  rfl

theorem stale_eq_false_of_mem_replicate (size : Nat) (value : UInt8) :
    ∀ c ∈ (Runs.replicate size (Cell.live value)).toList, c.stale = false := by
  intro c member
  rw [Runs.toList_replicate] at member
  rw [List.eq_of_mem_replicate member]
  rfl

/-- An operation that asks for no block marks what it marks, and takes marks off where it puts live
bytes. -/
theorem isPoisoned_next_of_unasked (sound : m.WellFormed)
    (invalidates : m.checks.stackInvalidation = true) (unasked : op.policy? = none) :
    (next m op).isPoisoned address = true ↔
      Poisons m address op ∨
        m.isPoisoned address = true ∧
          ¬ ((step op m).result = .ok .done ∧ Overwrites m address op) := by
  cases op with
  | exit frame =>
    cases frame with
    | elided => simp [Poisons, Marks, Overwrites, next, step, exit]
    | active savedTop depth =>
      by_cases innermost : depth = m.depth ∧ m.frames.head? = some savedTop
      · obtain ⟨rfl, innermost⟩ := innermost
        obtain ⟨result, state⟩ := sound.step_exit innermost
        rw [next, state, isPoisoned_closed sound invalidates]
        simp [Poisons, Marks, Overwrites, result]
      · obtain ⟨result, state⟩ := step_exit_of_other innermost
        rw [next, state]
        simp [Poisons, result]
  | restore top =>
    have same : (next m (.restore top)).isPoisoned address = m.isPoisoned address := by
      simp only [next, step, restore, Action.state_bind_pure, moveStackTop_apply]
      split <;> rfl
    simp [Poisons, Marks, Overwrites, same]
  | read address size => simp [Poisons, Marks, Overwrites, next, step]
  | load type address => simp [Poisons, Marks, Overwrites, next, step]
  | write start bytes =>
    have kept := isPoisoned_place m start address (stale_eq_false_of_mem_ofList bytes)
    simpa [Poisons, Marks, Overwrites, next, step, write, map_done_eq_ok] using kept
  | fill start value size =>
    have kept := isPoisoned_place m start address (stale_eq_false_of_mem_replicate size value)
    simpa [Poisons, Marks, Overwrites, next, step, fill, map_done_eq_ok] using kept
  | copy target source size =>
    simpa [Poisons, Marks, Overwrites, next, step, map_done_eq_ok] using
      isPoisoned_copy m target source size address
  | store start x =>
    have kept := isPoisoned_place m start address (stale_eq_false_of_mem_ofList x.encode)
    simpa [Poisons, Marks, Overwrites, next, step, store, write, map_done_eq_ok] using kept
  | allocate kind size => cases kind <;> cases unasked
  | _ => cases unasked

/-- Handing out a block takes the marks off its addresses, and no other operation that asks for one
changes a mark, if it succeeds. -/
theorem isPoisoned_next_of_asked (sound : m.WellFormed) (fixed : op.growsStack = false)
    (uses : op.policy? = some policy) (succeeds : (step op m).result = .ok answer) :
    (next m op).isPoisoned address = true ↔
      m.isPoisoned address = true ∧
        ¬ ∃ block, m.handedOut? op = some block ∧ block.Holds address := by
  have handed := step_handed sound.toOrderly uses succeeds
  rw [handed.isPoisoned_iff sound (Operation.growable_of_growsStack fixed uses)]
  simp only [handedOut?, uses, succeeds]
  cases answer.start? <;> simp [Block.Holds]

/-- An operation that fails marks nothing. -/
theorem Change.isPoisoned_of_failed {fault : Fault} (sound : m.WellFormed)
    (change : Change m op (.error fault) after) (marked : after.isPoisoned address = true) :
    m.isPoisoned address = true := by
  have returned := change.isFatal_eq_false sound
  cases change with
  | failed _ unexhausted => exact marked
  | refused uses growable => exact marked
  | escaped uses reserved outside => cases returned
  | rejected fit inside asserted =>
    have claimed : (m.claim .stack m.stack.limit).isPoisoned address = true := marked
    exact (isPoisoned_claim.mp claimed).1
  | unreleased innermost lower outside => exact marked

/-- A byte is marked after an operation that is served if the operation marks it, or if it was marked
and is not revived. -/
theorem isPoisoned_next_iff (sound : m.WellFormed) (invalidates : m.checks.stackInvalidation = true)
    (fixed : op.growsStack = false) (served : Served m op) :
    (next m op).isPoisoned address = true ↔
      Poisons m address op ∨ m.isPoisoned address = true ∧ ¬ Revives m address op := by
  cases uses : op.policy? with
  | none =>
    rw [isPoisoned_next_of_unasked sound invalidates uses]
    simp [Revives, handedOut?_of_policy? uses]
  | some policy =>
    obtain ⟨answer, succeeds⟩ := served (by rw [uses]; rfl)
    rw [isPoisoned_next_of_asked sound fixed uses succeeds]
    have unmarking : ¬ Poisons m address op := fun poisons => by
      simp [policy?_of_marks poisons.2] at uses
    have unwriting : ¬ Overwrites m address op := fun overwrites => by
      simp [policy?_of_overwrites overwrites] at uses
    simp [Revives, unmarking, unwriting]

/-- Only closing a frame and copying a mark set a mark, whatever becomes of the other operations. -/
theorem poisons_of_isPoisoned_next (sound : m.WellFormed)
    (invalidates : m.checks.stackInvalidation = true) (fixed : op.growsStack = false)
    (live : m.isPoisoned address = false) (marked : (next m op).isPoisoned address = true) :
    Poisons m address op := by
  have served : Served m op := by
    intro asks
    cases found : (step op m).result with
    | ok answer => exact ⟨answer, rfl⟩
    | error fault =>
      have change := step_change m sound.toOrderly op
      rw [found] at change
      rw [change.isPoisoned_of_failed sound marked] at live
      cases live
  obtain poisons | ⟨old, -⟩ := (isPoisoned_next_iff sound invalidates fixed served).mp marked
  · exact poisons
  · rw [old] at live
    cases live

end LinearHost.Memory
