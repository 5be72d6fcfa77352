import LinearHost.Proofs.Memory.Poison

/-!
# What a closed frame leaves behind

With assertions and invalidation, what a closed frame leaves behind is marked, and a byte that is
marked is not read. Both go on along a run: the byte stays marked until it is put to use again, and
copies of it are marked too, so no chain of copies makes it readable.

## Main definitions

* `Memory.Caught`: a byte is marked, and every access to it is refused.
* `Memory.Trail`: a mark travels along a run, from one address to another.
* `Memory.leftovers_caught`: what a closed frame leaves behind is caught until it is used again.
-/

namespace LinearHost.Memory

variable {m : Memory} {op : Operation} {ops : List Operation} {address target start size : Nat}

/-! ### Memories that guard what frames leave behind -/

/-- A well-formed memory that marks what closed frames leave behind and checks the marks. -/
structure Guarded (m : Memory) : Prop extends WellFormed m where
  asserts : m.checks.assertions = true
  invalidates : m.checks.stackInvalidation = true

theorem Guarded.next (guarded : m.Guarded) (fixed : op.growsStack = false) :
    (next m op).Guarded := by
  have change := step_change m guarded.toOrderly op
  have checks : (Memory.next m op).checks = m.checks := change.checks_eq
  have sound := (change.wellFormed guarded.toWellFormed fixed).1
  exact ⟨sound, checks ▸ guarded.asserts, checks ▸ guarded.invalidates⟩

theorem Guarded.reached (guarded : m.Guarded) (fixed : ∀ op ∈ ops, op.growsStack = false) :
    (reached ops m).Guarded :=
  reached_induction (·.growsStack = false) Guarded (fun _ _ guarded fixed => guarded.next fixed)
    fixed guarded

/-! ### Marked bytes are not read -/

def FirstMark (m : Memory) (start stop lowest : Nat) : Prop :=
  start ≤ lowest ∧ lowest < stop ∧ m.isPoisoned lowest = true ∧
    ∀ address, start ≤ address → address < lowest → m.isPoisoned address = false

/-- A byte is marked, and whatever range is read that holds it, the first marked address of the range
is reported. -/
def Caught (m : Memory) (address : Nat) : Prop :=
  m.isPoisoned address = true ∧
    ∀ start size, m.inBounds start size = true → start ≤ address → address < start + size →
      ∃ lowest, m.FirstMark start (start + size) lowest ∧ lowest ≤ address ∧
        (step (.read start size) m).result = .error (.assertion (.staleRead lowest)) ∧
        ∀ type : ScalarType, type.bytes = size →
          (step (.load type start) m).result = .error (.assertion (.staleRead lowest))

/-- The marks of a range are those of the cells read there. -/
theorem isPoisoned_of_lt_window {k : Nat} (lt : k < (m.image.window start size).toList.length) :
    m.isPoisoned (start + k) = (m.image.window start size).toList[k].stale := by
  have found := List.getElem?_eq_getElem lt
  rw [Image.getElem?_window] at found
  split at found
  · rw [isPoisoned, found]
    rfl
  · cases found

/-- The search in a range that holds a marked address finds the first one. -/
theorem findIdx?_window (marked : m.isPoisoned address = true) (start_le : start ≤ address)
    (lt_stop : address < start + size) :
    ∃ offset, (m.image.window start size).findIdx? Cell.stale = some offset ∧
      m.FirstMark start (start + size) (start + offset) ∧ start + offset ≤ address := by
  obtain ⟨c, found, stale⟩ := isPoisoned_eq_true_iff.mp marked
  have there : (m.image.window start size).toList[address - start]? = some c := by
    rw [Image.getElem?_window, if_pos (by omega), Nat.add_sub_cancel' start_le, found]
  rw [Runs.findIdx?_eq]
  cases first : (m.image.window start size).toList.findIdx? Cell.stale with
  | none =>
    have live := List.findIdx?_eq_none_iff.mp first c (List.mem_of_getElem? there)
    rw [stale] at live
    cases live
  | some offset =>
    obtain ⟨bound, markedThere, earlier⟩ := List.findIdx?_eq_some_iff_getElem.mp first
    have live (other : Nat) (start_le : start ≤ other) (lt : other < start + offset) :
        m.isPoisoned other = false := by
      have before : other - start < offset := by omega
      have within := Nat.lt_trans before bound
      rw [← Nat.add_sub_cancel' start_le, isPoisoned_of_lt_window within]
      exact Bool.eq_false_iff.mpr (earlier (other - start) before)
    have le_address : start + offset ≤ address := Nat.le_of_not_lt fun lt => by
      rw [live address start_le lt] at marked
      cases marked
    refine ⟨offset, rfl, ⟨Nat.le_add_right .., by omega, ?_, live⟩, le_address⟩
    rw [isPoisoned_of_lt_window bound, markedThere]

/-- A marked byte is reported by whatever reads it. -/
theorem Guarded.caught (guarded : m.Guarded) (marked : m.isPoisoned address = true) :
    m.Caught address := by
  refine ⟨marked, fun start size inside start_le lt_stop => ?_⟩
  obtain ⟨offset, first, lowest, le_address⟩ := findIdx?_window marked start_le lt_stop
  have refused : m.read start size = .error (.assertion (.staleRead (start + offset))) := by
    simp [read_eq, inside, guarded.asserts, first]
  refine ⟨start + offset, lowest, le_address, ?_, ?_⟩
  · simp [step, refused, Except.map]
  · rintro type rfl
    have unloaded : m.load type start = .error (.assertion (.staleRead (start + offset))) := by
      simp [load, refused, bind, Except.bind]
    simp [step, unloaded, Except.map]

/-! ### Marks along a run -/

/-- A mark travels along a run: it stays where it is unless the operation revives the byte, and a
copy takes it along. -/
inductive Trail : Memory → Nat → List Operation → Nat → Prop where
  | here {m : Memory} {address : Nat} : Trail m address [] address
  | stays {m : Memory} {op : Operation} {rest : List Operation} {address target : Nat}
      (unrevived : ¬ Revives m address op) (onward : Trail (next m op) address rest target) :
      Trail m address (op :: rest) target
  | copied {m : Memory} {onto source size k : Nat} {rest : List Operation} {target : Nat}
      (copies : (step (.copy onto source size) m).result = .ok .done) (within : k < size)
      (onward : Trail (next m (.copy onto source size)) (onto + k) rest target) :
      Trail m (source + k) (.copy onto source size :: rest) target

/-- A mark stays where no operation of a run revives the byte. -/
theorem Trail.of_unrevived (unrevived : Along next (fun n op => ¬ Revives n address op) ops m) :
    Trail m address ops address := by
  induction ops generalizing m with
  | nil => exact .here
  | cons op rest ih => exact .stays unrevived.1 (ih unrevived.2)

/-- A byte that a trail leads to from a marked one is marked, however many copies were made. -/
theorem Trail.isPoisoned (trail : Trail m address ops target) (guarded : m.Guarded)
    (fixed : ∀ op ∈ ops, op.growsStack = false) (served : Along next Served ops m)
    (marked : m.isPoisoned address = true) : (reached ops m).isPoisoned target = true := by
  induction trail with
  | here => exact marked
  | @stays m op rest address target unrevived onward ih =>
    obtain ⟨first, others⟩ := List.forall_mem_cons.mp fixed
    have kept : (next m op).isPoisoned address = true :=
      (isPoisoned_next_iff guarded.toWellFormed guarded.invalidates first served.1).mpr
        (.inr ⟨marked, unrevived⟩)
    exact ih (guarded.next first) others served.2 kept
  | @copied m onto source size k rest target copies within onward ih =>
    obtain ⟨first, others⟩ := List.forall_mem_cons.mp fixed
    have carried : Poisons m (onto + k) (.copy onto source size) := by
      refine ⟨copies, Nat.le_add_right .., by omega, ?_⟩
      rwa [Nat.add_sub_cancel_left]
    have kept : (next m (.copy onto source size)).isPoisoned (onto + k) = true :=
      (isPoisoned_next_iff guarded.toWellFormed guarded.invalidates first served.1).mpr
        (.inl carried)
    exact ih (guarded.next first) others served.2 kept

theorem isPoisoned_ofLayout (c : Config) (grower : Grower) (address : Nat) :
    (ofLayout c grower).isPoisoned address = false := by
  have cell : (ofLayout c grower).image.cell? address = _ := Image.cell?_blank c.memory.initial
  rw [isPoisoned, cell]
  split <;> rfl

/-- Closing a frame clears and marks what lies between the restored top and the old one. -/
theorem cell?_exit (guarded : m.Guarded) {frame : Frame}
    (succeeds : (step (.exit frame) m).result = .ok .done)
    (top_le : (next m (.exit frame)).stack.top ≤ address) (lt_top : address < m.stack.top) :
    (next m (.exit frame)).image.cell? address = some .poisoned := by
  cases frame with
  | elided =>
    have top_le : m.stack.top ≤ address := top_le
    omega
  | active savedTop depth =>
    obtain ⟨rfl, innermost⟩ := innermost_of_step_exit succeeds
    have state := (guarded.step_exit innermost).2
    rw [next, state] at top_le ⊢
    exact cell?_closed guarded.toWellFormed guarded.invalidates top_le lt_top

/-- With assertions and invalidation, wherever operations led: when a frame is closed, every byte
between the restored top and the old one is cleared and marked. As long as every block that is asked
for is handed out, the byte stays caught until an operation revives it, and so do the bytes that
copies of it were made to. Every marked byte is caught. At the start no byte is marked. An operation
leaves marked what it marks itself and what was marked and is not revived; and whatever becomes of
it, it marks nothing but by closing a frame or copying a mark. Only a policy that lets the stack grow
is left out. -/
theorem leftovers_caught {c : Config} {grower : Grower} {start : Memory}
    (created : create c grower = .ok start) (asserts : c.checks.assertions = true)
    (invalidates : c.checks.stackInvalidation = true) (before : List Operation)
    (fixed : ∀ op ∈ before, op.growsStack = false) :
    let m := reached before start
    (∀ address, start.isPoisoned address = false) ∧
    (∀ frame, (step (.exit frame) m).result = .ok .done →
      let after := next m (.exit frame)
      ∀ address, after.stack.top ≤ address → address < m.stack.top →
        after.image.cell? address = some .poisoned ∧
        ∀ ops, (∀ op ∈ ops, op.growsStack = false) → Along next Served ops after →
          (Along next (fun n op => ¬ Revives n address op) ops after →
            (reached ops after).Caught address) ∧
          ∀ target, Trail after address ops target → (reached ops after).Caught target) ∧
    (∀ address, m.isPoisoned address = true → m.Caught address) ∧
    ∀ op, op.growsStack = false → ∀ address,
      (Served m op → ((next m op).isPoisoned address = true ↔
        Poisons m address op ∨ m.isPoisoned address = true ∧ ¬ Revives m address op)) ∧
      (m.isPoisoned address = false → (next m op).isPoisoned address = true →
        Poisons m address op) := by
  obtain ⟨valid, rfl⟩ := create_eq_ok.mp created
  have startGuarded : (ofLayout c grower).Guarded :=
    ⟨ofLayout_wellFormed valid grower, asserts, invalidates⟩
  intro m
  have guarded : m.Guarded := startGuarded.reached fixed
  have sound := guarded.toWellFormed
  refine ⟨isPoisoned_ofLayout c grower, fun frame succeeds => ?_, fun _ => guarded.caught,
    fun op fixed address => ⟨isPoisoned_next_iff sound guarded.invalidates fixed,
      poisons_of_isPoisoned_next sound guarded.invalidates fixed⟩⟩
  intro after address top_le lt_top
  have cleared := cell?_exit guarded succeeds top_le lt_top
  have marked : after.isPoisoned address = true := isPoisoned_eq_true_iff.mpr ⟨_, cleared, rfl⟩
  have afterGuarded : after.Guarded := guarded.next rfl
  refine ⟨cleared, fun ops fixed served => ?_⟩
  have followed (target : Nat) (trail : Trail after address ops target) :
      (reached ops after).Caught target :=
    (afterGuarded.reached fixed).caught (trail.isPoisoned afterGuarded fixed served marked)
  exact ⟨fun unrevived => followed address (.of_unrevived unrevived), followed⟩

/-- A byte of a closed frame is copied to the static region, and the stack is used again: the copy is
still caught. -/
theorem leftovers_caught_copied :
    ∃ start,
      create { checks := .debug, memory := ⟨64, 512, 512⟩ } .fixed = .ok start ∧
      let m := reached [.enter 32, .fill 8 7 32, .staticAlloc 16] start
      let after := next m (.exit (.active 8 1))
      let final := reached [.copy 76 10 4, .stackAlloc 32] after
      (step (.exit (.active 8 1)) m).result = .ok .done ∧
      after.image.cell? 11 = some .poisoned ∧ final.Caught 77 ∧
      (step (.read 72 8) final).result = .error (.assertion (.staleRead 76)) ∧
      final.isPoisoned 11 = false := by
  obtain ⟨-, left, -⟩ := leftovers_caught
    (create_of_validate (c := { checks := .debug, memory := ⟨64, 512, 512⟩ }) rfl .fixed) rfl rfl
    [.enter 32, .fill 8 7 32, .staticAlloc 16] (by decide)
  obtain ⟨cleared, onward⟩ := left (.active 8 1) rfl 11 (by decide) (by decide)
  obtain ⟨-, followed⟩ := onward [.copy 76 10 4, .stackAlloc 32] (by decide)
    ⟨nofun, fun _ => ⟨.address 8, rfl⟩, trivial⟩
  refine ⟨_, create_of_validate rfl .fixed, rfl, cleared,
    followed 77 (.copied (k := 1) rfl (by decide) (.stays ?_ .here)), rfl, rfl⟩
  rintro (⟨done, -⟩ | ⟨block, found, holds⟩)
  · cases done
  · obtain rfl : ⟨.stack, 8, 40, 32⟩ = block := Option.some.inj found
    exact absurd holds.2 (by decide)

end LinearHost.Memory
