import LinearHost.Proofs.Memory.Leftovers
import LinearHost.Proofs.Memory.Upkeep

/-!
# What marks stand on

A byte and its mark change together. A cell that an operation leaves behind is live, or stood
somewhere in the memory before, or was cleared and marked by a closed frame; so a mark stands on a
zero, and without invalidation there are no marks. Frames change nothing beside the stack: a mark
there was copied.

## Main definitions

* `Memory.Origin`, `Memory.origin_next`: where the cells come from that an operation leaves behind.
* `Memory.Tidy`: what marked cells hold, wherever operations lead.
* `Memory.MarkCopied`, `Memory.marked_or_copied`: how a mark came to stand beside the stack.
* `Memory.marks_on_zeros`: marked bytes are zero, and those beside the stack are copies.
-/

namespace LinearHost.Memory

variable {m after room : Memory} {op : Operation} {ops : List Operation} {policy : Policy}
  {answer : Answer} {size alignment top address : Nat} {row : Runs Cell} {c : Cell}

/-- Where a cell comes from that an operation leaves behind. -/
inductive Origin (m : Memory) : Cell → Prop where
  | live {c : Cell} (unmarked : c.stale = false) : Origin m c
  /-- The cell stood there before, or was copied. -/
  | old {source : Nat} {c : Cell} (found : m.image.cell? source = some c) : Origin m c
  /-- A closed frame cleared and marked the cell. -/
  | left (invalidates : m.checks.stackInvalidation = true) : Origin m .poisoned

/-! ### Blocks -/

/-- The cells of a block are live, and those beside it are old or blank. -/
theorem Reserved.origin (sound : m.WellFormed) (idle : m.IdleGrowth policy size alignment)
    (reserved : Reserved m policy size alignment (.ok top) room)
    (found : (room.claim policy top).image.cell? address = some c) : Origin m c := by
  by_cases inside : (room.region policy.region).top ≤ address ∧ address < top
  · have cell : (room.claim policy top).image.cell? address = _ := Image.cell?_update
    rw [cell, if_pos inside] at found
    obtain ⟨before, -, rfl⟩ := Option.map_eq_some_iff.mp found
    refine .live ?_
    split <;> rfl
  · rw [cell?_claim room policy (by omega), (reserved.extended sound idle).2] at found
    split at found
    next => exact .old found
    next =>
      split at found
      next =>
        cases found
        exact .live rfl
      next => cases found

/-- The cells after a block was handed out are those from before, and cells that were cleared for
it. -/
theorem Handed.origin (sound : m.WellFormed)
    (fixed : policy.region = .stack → policy.growable = false)
    (handed : Handed m policy size answer after) (found : after.image.cell? address = some c) :
    Origin m c := by
  cases handed with
  | taken reserved => exact reserved.origin sound (idleGrowth_of_growable fixed) found
  | framed reserved => exact reserved.origin sound (idleGrowth_of_growable fun _ => rfl) found
  | bare => exact .old found
  | skipped => exact .old found

/-- A block that is given back leaves its cells live; other failures leave all cells as they are. -/
theorem Change.origin_of_failed {fault : Fault} (sound : m.WellFormed)
    (change : Change m op (.error fault) after) (found : after.image.cell? address = some c) :
    Origin m c := by
  cases change with
  | rejected fit inside asserted =>
    have reserved : Reserved m .stack _ _ (.ok m.stack.limit) m := .fits fit
    exact reserved.origin sound (idleGrowth_of_growable fun _ => rfl) found
  | escaped uses reserved outside =>
    rw [reserved.hasWindow sound] at outside
    cases outside
  | failed returned unexhausted => exact .old found
  | refused uses growable => exact .old found
  | unreleased innermost lower outside => exact .old found

/-! ### Frames -/

/-- Closing a frame changes nothing but cells of the stack that it clears and marks. -/
theorem Closed.cell?_cases {frame : Frame} {result : Except Fault Unit} (orderly : m.Orderly)
    (closed : Closed m frame result after) (address : Nat) :
    after.image.cell? address = m.image.cell? address ∨
      m.checks.stackInvalidation = true ∧ m.stack.base ≤ address ∧ address < m.stack.limit ∧
        after.image.cell? address = (m.image.cell? address).map fun _ => .poisoned := by
  cases closed with
  | @closed savedTop innermost inside =>
    have base_le := (orderly.saved savedTop (List.mem_of_mem_head? innermost)).1
    have top_le_limit : m.stack.top ≤ m.stack.limit := (orderly.ordered .stack).top_le_limit
    by_cases beside : address < savedTop ∨ m.stack.top ≤ address
    · exact .inl (cell?_released beside)
    · cases invalidates : m.checks.stackInvalidation with
      | false => exact .inl (by simp [Memory.closed, released, invalidates])
      | true =>
        have lower : savedTop < m.stack.top := by omega
        refine .inr ⟨rfl, by omega, by omega, ?_⟩
        rw [Memory.closed, released, if_pos ⟨invalidates, lower⟩, Image.cell?_update,
          if_pos (by omega)]
  | _ => exact .inl rfl

theorem closed_next (orderly : m.Orderly) (frame : Frame) :
    Closed m frame (exit frame m).result (next m (.exit frame)) := by
  rw [next_eq_state (f := fun _ => .done) rfl]
  exact exit_cases m orderly.saved frame

/-- Beside the stack every cell stays as it is when a frame is closed, or is not. -/
theorem cell?_exit_beside (orderly : m.Orderly) (frame : Frame)
    (beside : address < m.stack.base ∨ m.stack.limit ≤ address) :
    (next m (.exit frame)).image.cell? address = m.image.cell? address := by
  obtain same | ⟨-, base_le, lt_limit, -⟩ :=
    (closed_next orderly frame).cell?_cases orderly address
  · exact same
  · omega

theorem origin_exit (orderly : m.Orderly) {frame : Frame}
    (found : (next m (.exit frame)).image.cell? address = some c) : Origin m c := by
  obtain same | ⟨invalidates, -, -, marked⟩ :=
    (closed_next orderly frame).cell?_cases orderly address
  · exact .old (same ▸ found)
  · rw [marked] at found
    obtain ⟨before, -, rfl⟩ := Option.map_eq_some_iff.mp found
    exact .left invalidates

/-! ### Bytes -/

theorem origin_place {start : Nat} (origins : ∀ c ∈ row.toList, Origin m c)
    (found : (place start row m).state.image.cell? address = some c) : Origin m c := by
  rw [place_apply] at found
  split at found
  next =>
    have cell : (m.image.overwrite start row).cell? address = some c := found
    rw [Image.cell?_overwrite] at cell
    split at cell
    next => exact origins c (List.mem_of_getElem? cell)
    next => exact .old cell
  next => exact .old found

theorem origin_window {start : Nat} : ∀ c ∈ (m.image.window start size).toList, Origin m c := by
  intro c member
  obtain ⟨k, found⟩ := List.mem_iff_getElem?.mp member
  rw [Image.getElem?_window] at found
  split at found
  next => exact .old found
  next => cases found

theorem origin_copy {target source : Nat}
    (found : (copy target source size m).state.image.cell? address = some c) : Origin m c := by
  rw [copy_apply] at found
  split at found
  next => exact .old found
  next =>
    split at found
    next => exact origin_place origin_window found
    next => exact .old found

theorem origin_restore (found : (restore top m).state.image.cell? address = some c) :
    Origin m c := by
  rw [restore, moveStackTop_apply] at found
  split at found <;> exact .old found

/-! ### Any operation -/

/-- All other operations put live bytes, copy cells or mark what a frame leaves behind. -/
theorem origin_of_unasked (orderly : m.Orderly) (unasked : op.policy? = none)
    (found : (next m op).image.cell? address = some c) : Origin m c := by
  have live {row : Runs Cell} (unmarked : ∀ c ∈ row.toList, c.stale = false) :
      ∀ c ∈ row.toList, Origin m c := fun c member => .live (unmarked c member)
  cases op with
  | exit frame => exact origin_exit orderly found
  | restore top =>
    rw [next_eq_state (f := fun _ => .done) rfl] at found
    exact origin_restore found
  | read start size => exact .old (by simpa [next, step] using found)
  | load type start => exact .old (by simpa [next, step] using found)
  | write start bytes =>
    rw [next_eq_state (f := fun _ => .done) rfl] at found
    exact origin_place (live (stale_eq_false_of_mem_ofList bytes)) found
  | fill start value size =>
    rw [next_eq_state (f := fun _ => .done) rfl] at found
    exact origin_place (live (stale_eq_false_of_mem_replicate size value)) found
  | copy target source size =>
    rw [next_eq_state (f := fun _ => .done) rfl] at found
    exact origin_copy found
  | store start x =>
    rw [next_eq_state (f := fun _ => .done) rfl] at found
    exact origin_place (live (stale_eq_false_of_mem_ofList x.encode)) found
  | allocate kind size => cases kind <;> cases unasked
  | _ => cases unasked

/-- Every cell that an operation leaves behind, whatever it answers, has one of these origins. -/
theorem origin_next (sound : m.WellFormed) (fixed : op.growsStack = false)
    (found : (next m op).image.cell? address = some c) : Origin m c := by
  cases uses : op.policy? with
  | none => exact origin_of_unasked sound.toOrderly uses found
  | some policy =>
    cases answered : (step op m).result with
    | ok answer =>
      have handed := step_handed sound.toOrderly uses answered
      exact handed.origin sound (Operation.growable_of_growsStack fixed uses) found
    | error fault =>
      have change := step_change m sound.toOrderly op
      rw [answered] at change
      exact change.origin_of_failed sound found

/-! ### What marked cells hold -/

/-- A well-formed memory whose marked cells hold zeros, with no marked cell unless closed frames are
asked to mark what they leave behind. -/
structure Tidy (m : Memory) : Prop extends WellFormed m where
  marked : ∀ address c, m.image.cell? address = some c → c.stale = true →
    c.value = 0 ∧ m.checks.stackInvalidation = true

theorem Tidy.of_isPoisoned (tidy : m.Tidy) (marked : m.isPoisoned address = true) :
    m.bytes[address]? = some 0 ∧ m.checks.stackInvalidation = true := by
  obtain ⟨c, found, stale⟩ := isPoisoned_eq_true_iff.mp marked
  obtain ⟨zero, invalidates⟩ := tidy.marked address c found stale
  rw [getElem?_bytes, found, Option.map_some, zero]
  exact ⟨rfl, invalidates⟩

theorem tidy_start {c : Config} (valid : c.validate = .ok ()) (grower : Grower) :
    (ofLayout c grower).Tidy where
  toWellFormed := ofLayout_wellFormed valid grower
  marked address cell found stale := by
    have marked := isPoisoned_eq_true_iff.mpr ⟨cell, found, stale⟩
    rw [isPoisoned_ofLayout] at marked
    cases marked

theorem Tidy.next (tidy : m.Tidy) (fixed : op.growsStack = false) : (next m op).Tidy where
  toWellFormed := (wellFormed_next tidy.toWellFormed fixed).1
  marked address c found stale := by
    rw [tidy.checks_next op]
    cases origin_next tidy.toWellFormed fixed found with
    | live unmarked => cases unmarked.symm.trans stale
    | old found => exact tidy.marked _ c found stale
    | left invalidates => exact ⟨rfl, invalidates⟩

theorem Tidy.reached (tidy : m.Tidy) (fixed : ∀ op ∈ ops, op.growsStack = false) :
    (reached ops m).Tidy :=
  reached_induction (·.growsStack = false) Tidy (fun _ _ tidy fixed => tidy.next fixed) fixed tidy

/-! ### Marks beside the stack -/

/-- An operation of a list put the mark of an address there by copying a marked byte, and the
address has been marked since. -/
def MarkCopied (m : Memory) (ops : List Operation) (address : Nat) : Prop :=
  ∃ before target source size since, ops = before ++ .copy target source size :: since ∧
    Poisons (reached before m) address (.copy target source size) ∧
    Along next (fun n _ => n.isPoisoned address = true) since
      (next (reached before m) (.copy target source size))

theorem MarkCopied.cons (copied : MarkCopied (next m op) ops address) :
    MarkCopied m (op :: ops) address := by
  obtain ⟨before, target, source, size, since, rfl, poisons, stays⟩ := copied
  exact ⟨op :: before, target, source, size, since, rfl, poisons, stays⟩

/-- Beside the stack only copying sets a mark. -/
theorem Poisons.copies (orderly : m.Orderly) (poisons : Poisons m address op)
    (beside : address < m.stack.base ∨ m.stack.limit ≤ address) :
    ∃ target source size, op = .copy target source size := by
  obtain ⟨succeeds, marks⟩ := poisons
  cases op with
  | exit frame =>
    cases frame with
    | elided => exact marks.elim
    | active savedTop depth =>
      obtain ⟨-, innermost⟩ := innermost_of_step_exit succeeds
      have base_le := (orderly.saved savedTop (List.mem_of_mem_head? innermost)).1
      have top_le_limit : m.stack.top ≤ m.stack.limit := (orderly.ordered .stack).top_le_limit
      obtain ⟨savedTop_le, lt_top⟩ := marks
      omega
  | copy target source size => exact ⟨target, source, size, rfl⟩
  | _ => exact marks.elim

/-- A mark beside the stack has been there all the time, or was copied. -/
theorem marked_or_copied (tidy : m.Tidy) (fixed : ∀ op ∈ ops, op.growsStack = false)
    (beside : address < m.stack.base ∨ m.stack.limit ≤ address)
    (marked : (reached ops m).isPoisoned address = true) :
    m.isPoisoned address = true ∧ Along next (fun n _ => n.isPoisoned address = true) ops m ∨
      MarkCopied m ops address := by
  induction ops generalizing m with
  | nil => exact .inl ⟨marked, trivial⟩
  | cons op rest ih =>
    obtain ⟨first, others⟩ := List.forall_mem_cons.mp fixed
    have sound := tidy.toWellFormed
    obtain ⟨base, limit, -, -⟩ := bounds_eq_iff.mp (wellFormed_next sound first).2
    obtain ⟨found, stays⟩ | copied := ih (tidy.next first) others (by rwa [base, limit]) marked
    · cases before : m.isPoisoned address with
      | true => exact .inl ⟨rfl, before, stays⟩
      | false =>
        -- the mark is new, so this operation has set it, and beside the stack that is a copy
        have invalidates := ((tidy.next first).of_isPoisoned found).2
        rw [tidy.checks_next op] at invalidates
        have poisons := poisons_of_isPoisoned_next sound invalidates first before found
        obtain ⟨target, source, size, rfl⟩ := poisons.copies sound.toOrderly beside
        exact .inr ⟨[], target, source, size, rest, rfl, poisons, stays⟩
    · exact .inr copied.cons

/-- Wherever operations lead, failing or not: every marked byte is zero, and without invalidation no
byte is marked. Closing a frame, or failing to, leaves every byte beside the stack and its mark as
they are; a byte there is marked only if a marked byte was copied onto it, and has been marked
since. Only a policy that lets the stack grow is left out. -/
theorem marks_on_zeros {c : Config} {grower : Grower} {start : Memory}
    (created : create c grower = .ok start) (ops : List Operation)
    (fixed : ∀ op ∈ ops, op.growsStack = false) :
    let m := reached ops start
    (∀ address, m.isPoisoned address = true → m.bytes[address]? = some 0) ∧
    (c.checks.stackInvalidation = false → ∀ address, m.isPoisoned address = false) ∧
    ∀ address, address < m.stack.base ∨ m.stack.limit ≤ address →
      (∀ frame, (next m (.exit frame)).image.cell? address = m.image.cell? address) ∧
      (m.isPoisoned address = true → MarkCopied start ops address) := by
  obtain ⟨valid, rfl⟩ := create_eq_ok.mp created
  have startTidy := tidy_start valid grower
  intro m
  have tidy : m.Tidy := startTidy.reached fixed
  refine ⟨fun address marked => (tidy.of_isPoisoned marked).1, fun ignores address => ?unmarked,
    fun address beside =>
      ⟨fun frame => cell?_exit_beside tidy.toOrderly frame beside, fun marked => ?copied⟩⟩
  case unmarked =>
    have checks : m.checks = c.checks := startTidy.checks_reached ops
    refine Bool.eq_false_iff.mpr fun marked => ?_
    have invalidates := (tidy.of_isPoisoned marked).2
    rw [checks, ignores] at invalidates
    cases invalidates
  case copied =>
    obtain ⟨base, limit, -, -⟩ := bounds_eq_iff.mp (startTidy.toWellFormed.reached fixed).2
    have beside : address < (ofLayout c grower).stack.base ∨
        (ofLayout c grower).stack.limit ≤ address := by rwa [← base, ← limit]
    obtain ⟨early, -⟩ | copied := marked_or_copied startTidy fixed beside marked
    · rw [isPoisoned_ofLayout] at early
      cases early
    · exact copied

/-- What a frame left behind is copied into the static region, and there onto itself, and the stack
is used again. The marks that were copied are on zeros. Where nothing is invalidated no byte is
marked. -/
theorem marks_on_zeros_copied :
    ∃ start quiet,
      create { checks := .debug, memory := ⟨64, 512, 512⟩ } .fixed = .ok start ∧
      create { checks := .release, memory := ⟨64, 512, 512⟩ } .fixed = .ok quiet ∧
      let ops := [.enter 16, .fill 8 7 16, .exit (.active 8 1), .copy 84 8 16, .copy 88 84 8,
        .stackAlloc 8]
      let m := reached ops start
      m.isPoisoned 90 = true ∧ m.isPoisoned 10 = false ∧ m.bytes[90]? = some 0 ∧
      MarkCopied start ops 90 ∧
      (∀ frame, (next m (.exit frame)).image.cell? 90 = m.image.cell? 90) ∧
      ∀ address, (reached ops quiet).isPoisoned address = false := by
  have created :=
    create_of_validate (c := { checks := .debug, memory := ⟨64, 512, 512⟩ }) rfl .fixed
  have quiet :=
    create_of_validate (c := { checks := .release, memory := ⟨64, 512, 512⟩ }) rfl .fixed
  obtain ⟨zero, -, beside⟩ := marks_on_zeros created
    [.enter 16, .fill 8 7 16, .exit (.active 8 1), .copy 84 8 16, .copy 88 84 8, .stackAlloc 8]
    (by decide)
  obtain ⟨-, unmarked, -⟩ := marks_on_zeros quiet
    [.enter 16, .fill 8 7 16, .exit (.active 8 1), .copy 84 8 16, .copy 88 84 8, .stackAlloc 8]
    (by decide)
  obtain ⟨kept, copied⟩ := beside 90 (.inr (by decide))
  exact ⟨_, _, created, quiet, rfl, rfl, zero 90 rfl, copied rfl, kept, unmarked rfl⟩

end LinearHost.Memory
