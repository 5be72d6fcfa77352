import LinearHost.Proofs.InStep
import LinearHost.Proofs.Memory.Change

/-!
# Memories that resemble each other

Two memories resemble each other if they have the same regions, frames, settings and marks, and the
same bytes but at hidden addresses; the second one may be spared the assertions that the first one
checks. Operations that differ in nothing but the bytes that they put at hidden addresses keep such
memories in step: no decision of an operation depends on a byte.

## Main definitions

* `Cell.RowsAlike`: rows of cells with the same marks, and the same bytes where they are not hidden.
* `Memory.Resembles`: memories that differ in hidden bytes, and in whether assertions are checked.
* `Operation.Veiled`: operations that differ in hidden bytes only.
* `Memory.step_inStep`: such operations keep memories in step.
-/

namespace LinearHost

namespace Cell

variable {hidden wider : Prop} {c d : Option Cell} {f : Cell → Cell}

/-! ### Rows of cells -/

/-- Two cells that may be missing have the same mark, and the same byte unless it is hidden. -/
def Alike (hidden : Prop) (c d : Option Cell) : Prop :=
  c.map stale = d.map stale ∧ (¬ hidden → c = d)

theorem Alike.refl (hidden : Prop) (c : Option Cell) : Alike hidden c c :=
  ⟨rfl, fun _ => rfl⟩

theorem Alike.mono (wide : hidden → wider) (alike : Alike hidden c d) : Alike wider c d :=
  ⟨alike.1, fun visible => alike.2 fun hides => visible (wide hides)⟩

/-- A change after which the mark only depends on the mark before keeps cells alike. -/
theorem Alike.map (marks : ∀ a b : Cell, a.stale = b.stale → (f a).stale = (f b).stale)
    (alike : Alike hidden c d) : Alike hidden (c.map f) (d.map f) := by
  obtain ⟨same, equal⟩ := alike
  refine ⟨?_, fun visible => by rw [equal visible]⟩
  cases c with
  | none => cases d with
    | none => rfl
    | some b => cases same
  | some a => cases d with
    | none => cases same
    | some b => exact congrArg some (marks a b (Option.some.inj same))

/-- Cells that are replaced by the same cell are equal, if they were present in both rows or in
none. -/
theorem Alike.replace (wider : Prop) (e : Cell) (alike : Alike hidden c d) :
    Alike wider (c.map fun _ => e) (d.map fun _ => e) := by
  have present : (c.map fun _ => e) = (d.map fun _ => e) := by
    have same := alike.1
    cases c <;> cases d <;> first | rfl | cases same
  rw [present]
  exact .refl _ _

def RowsAlike (hidden : Nat → Prop) (row other : Runs Cell) : Prop :=
  ∀ k, Alike (hidden k) (row.get? k) (other.get? k)

end Cell

namespace Cell.RowsAlike

variable {hidden wider : Nat → Prop} {row other : Runs Cell} {i j : Image} {start stop size : Nat}
  {f : Cell → Cell}

theorem refl (hidden : Nat → Prop) (row : Runs Cell) : RowsAlike hidden row row :=
  fun k => .refl (hidden k) _

theorem mono (wide : ∀ k, hidden k → wider k) (alike : RowsAlike hidden row other) :
    RowsAlike wider row other :=
  fun k => (alike k).mono (wide k)

theorem marks_eq (alike : RowsAlike hidden row other) :
    row.toList.map stale = other.toList.map stale := by
  refine List.ext_getElem? fun k => ?_
  rw [List.getElem?_map, List.getElem?_map, ← Runs.get?_eq, ← Runs.get?_eq]
  exact (alike k).1

theorem length_eq (alike : RowsAlike hidden row other) : row.length = other.length := by
  simpa using congrArg List.length alike.marks_eq

/-- The first marked cells of rows that are alike stand at the same place. -/
theorem findIdx?_stale_eq (alike : RowsAlike hidden row other) :
    row.findIdx? stale = other.findIdx? stale := by
  have first (xs : Runs Cell) : xs.findIdx? stale = (xs.toList.map stale).findIdx? id := by
    rw [Runs.findIdx?_eq, List.findIdx?_map]
    rfl
  rw [first, first, alike.marks_eq]

/-- Rows that are alike are equal if nothing is hidden. -/
theorem eq (visible : ∀ k, ¬ hidden k) (alike : RowsAlike hidden row other) : row = other := by
  refine Runs.ext_toList (List.ext_getElem? fun k => ?_)
  rw [← Runs.get?_eq, ← Runs.get?_eq]
  exact (alike k).2 (visible k)

/-- Live cells are alike where their bytes are hidden. -/
theorem of_live (length : row.length = other.length) (inside : ∀ k < row.length, hidden k)
    (live : ∀ c ∈ row.toList, c.stale = false) (otherLive : ∀ c ∈ other.toList, c.stale = false) :
    RowsAlike hidden row other := by
  intro k
  have bound : row.toList.length = row.length := Runs.length_toList
  have otherBound : other.toList.length = other.length := Runs.length_toList
  rw [Runs.get?_eq, Runs.get?_eq]
  by_cases lt : k < row.length
  · have there : k < row.toList.length := by omega
    have otherThere : k < other.toList.length := by omega
    rw [List.getElem?_eq_getElem there, List.getElem?_eq_getElem otherThere]
    refine ⟨?_, fun visible => absurd (inside k lt) visible⟩
    rw [Option.map_some, Option.map_some, live _ (List.getElem_mem there),
      otherLive _ (List.getElem_mem otherThere)]
  · rw [List.getElem?_eq_none (by omega), List.getElem?_eq_none (by omega)]
    exact .refl _ _

/-! ### Images -/

theorem window (alike : RowsAlike hidden i.cells j.cells) (start size : Nat) :
    RowsAlike (fun k => k < size ∧ hidden (start + k)) (i.window start size)
      (j.window start size) := by
  intro k
  rw [Runs.get?_eq, Runs.get?_eq, Image.getElem?_window, Image.getElem?_window]
  split
  next lt => exact (alike (start + k)).mono fun hides => ⟨lt, hides⟩
  next => exact .refl _ _

theorem update (marks : ∀ a b : Cell, a.stale = b.stale → (f a).stale = (f b).stale)
    (alike : RowsAlike hidden i.cells j.cells) (start stop : Nat) :
    RowsAlike hidden (i.update start stop f).cells (j.update start stop f).cells := by
  intro a
  show Alike _ ((i.update start stop f).cell? a) ((j.update start stop f).cell? a)
  rw [Image.cell?_update, Image.cell?_update]
  split
  · exact (alike a).map marks
  · exact alike a

/-- Nothing stays hidden where both images are filled with the same cell. -/
theorem update_const (alike : RowsAlike hidden i.cells j.cells) (start stop : Nat) (e : Cell) :
    RowsAlike (fun a => hidden a ∧ ¬ (start ≤ a ∧ a < stop)) (i.update start stop fun _ => e).cells
      (j.update start stop fun _ => e).cells := by
  intro a
  show Alike _ ((i.update start stop _).cell? a) ((j.update start stop _).cell? a)
  rw [Image.cell?_update, Image.cell?_update]
  split
  next => exact (alike a).replace _ e
  next outside => exact (alike a).mono fun hides => ⟨hides, outside⟩

theorem resize (alike : RowsAlike hidden i.cells j.cells) (size : Nat) :
    RowsAlike hidden (i.resize size).cells (j.resize size).cells := by
  intro a
  show Alike _ ((i.resize size).cell? a) ((j.resize size).cell? a)
  have same : i.size = j.size := alike.length_eq
  rw [Image.cell?_resize, Image.cell?_resize, same]
  split
  · split
    · exact alike a
    · exact .refl _ _
  · exact .refl _ _

theorem overwrite (alike : RowsAlike hidden i.cells j.cells) {start : Nat}
    (rows : RowsAlike (fun k => hidden (start + k)) row other) :
    RowsAlike hidden (i.overwrite start row).cells (j.overwrite start other).cells := by
  intro a
  show Alike _ ((i.overwrite start row).cell? a) ((j.overwrite start other).cell? a)
  have same : i.size = j.size := alike.length_eq
  rw [Image.cell?_overwrite, Image.cell?_overwrite, same, rows.length_eq]
  split
  next covered =>
    have there := rows (a - start)
    rw [Runs.get?_eq, Runs.get?_eq] at there
    exact there.mono fun hides => Nat.add_sub_cancel' covered.1 ▸ hides
  next => exact alike a

end Cell.RowsAlike

/-! ### Memories -/

@[simp] theorem type_decode (type : ScalarType) (bytes : List UInt8) :
    (type.decode bytes).type = type := by
  cases type <;> rfl

namespace Memory

open LinearHost.Action (InStep)
open Cell (RowsAlike)

variable {hidden wider : Nat → Prop} {lenient : Bool} {m n : Memory}

/-- The memory with other contents, which checks no assertion if it is lenient. -/
def recast (m : Memory) (image : Image) (lenient : Bool) : Memory :=
  { m with
    image
    checks := { m.checks with assertions := m.checks.assertions && !lenient } }

/-- The second memory differs from the first one in hidden bytes only, and checks the same
assertions, or none if it is lenient. -/
def Resembles (hidden : Nat → Prop) (lenient : Bool) (m n : Memory) : Prop :=
  ∃ image, RowsAlike hidden m.image.cells image.cells ∧ n = m.recast image lenient

def Excused (lenient : Bool) (fault : Fault) : Prop :=
  lenient = true ∧ ∃ broken, fault = .assertion broken

@[simp] theorem recast_image (m : Memory) : m.recast m.image false = m := by
  simp [recast]

theorem Resembles.refl (hidden : Nat → Prop) (m : Memory) : Resembles hidden false m m :=
  ⟨m.image, .refl hidden _, (recast_image m).symm⟩

theorem Resembles.mono (wide : ∀ a, hidden a → wider a) (resembles : Resembles hidden lenient m n) :
    Resembles wider lenient m n := by
  obtain ⟨image, cells, rfl⟩ := resembles
  exact ⟨image, cells.mono wide, rfl⟩

theorem Resembles.size_eq (resembles : Resembles hidden lenient m n) : n.size = m.size := by
  obtain ⟨image, cells, rfl⟩ := resembles
  exact cells.length_eq.symm

theorem Resembles.region_eq (resembles : Resembles hidden lenient m n) (kind : RegionKind) :
    n.region kind = m.region kind := by
  obtain ⟨image, cells, rfl⟩ := resembles
  cases kind <;> rfl

theorem Resembles.stack_eq (resembles : Resembles hidden lenient m n) : n.stack = m.stack :=
  resembles.region_eq .stack

theorem Resembles.frames_eq (resembles : Resembles hidden lenient m n) : n.frames = m.frames := by
  obtain ⟨image, cells, rfl⟩ := resembles
  rfl

theorem Resembles.quantum_eq (resembles : Resembles hidden lenient m n) :
    n.quantum = m.quantum := by
  obtain ⟨image, cells, rfl⟩ := resembles
  rfl

theorem Resembles.cap_eq (resembles : Resembles hidden lenient m n) : n.cap = m.cap := by
  obtain ⟨image, cells, rfl⟩ := resembles
  rfl

theorem Resembles.grower_eq (resembles : Resembles hidden lenient m n) : n.grower = m.grower := by
  obtain ⟨image, cells, rfl⟩ := resembles
  rfl

theorem Resembles.skips_eq (resembles : Resembles hidden lenient m n) (initial : Nat)
    (forced : Bool) : n.skips initial forced = m.skips initial forced := by
  obtain ⟨image, cells, rfl⟩ := resembles
  rfl

theorem Resembles.stackInvalidation_eq (resembles : Resembles hidden lenient m n) :
    n.checks.stackInvalidation = m.checks.stackInvalidation := by
  obtain ⟨image, cells, rfl⟩ := resembles
  rfl

theorem Resembles.assertions_eq (resembles : Resembles hidden lenient m n) :
    n.checks.assertions = (m.checks.assertions && !lenient) := by
  obtain ⟨image, cells, rfl⟩ := resembles
  rfl

/-- Memories that resemble each other differ in nothing if nothing is hidden, but for the
assertions. -/
theorem Resembles.eq (visible : ∀ a, ¬ hidden a) (resembles : Resembles hidden lenient m n) :
    n = m.recast m.image lenient := by
  obtain ⟨image, cells, rfl⟩ := resembles
  rw [Image.ext (cells.eq visible)]

theorem Resembles.hasWindow_eq (resembles : Resembles hidden lenient m n) (start stop : Nat) :
    n.hasWindow start stop = m.hasWindow start stop := by
  rw [hasWindow, hasWindow, resembles.size_eq]

theorem Resembles.inBounds_eq (resembles : Resembles hidden lenient m n) (start size : Nat) :
    n.inBounds start size = m.inBounds start size := by
  rw [inBounds, inBounds, resembles.size_eq]

theorem Resembles.modifyRegion (resembles : Resembles hidden lenient m n) (kind : RegionKind)
    (f : Region → Region) :
    Resembles hidden lenient (m.modifyRegion kind f) (n.modifyRegion kind f) := by
  obtain ⟨image, cells, rfl⟩ := resembles
  cases kind <;> exact ⟨image, cells, rfl⟩

theorem Resembles.resized (resembles : Resembles hidden lenient m n) (kind : RegionKind)
    (size : Nat) : Resembles hidden lenient (m.resized kind size) (n.resized kind size) := by
  obtain ⟨image, cells, rfl⟩ := resembles
  cases kind <;> exact ⟨image.resize size, cells.resize size, rfl⟩

theorem Resembles.claimed (resembles : Resembles hidden lenient m n) (start stop : Nat)
    (zeroFill : Bool) :
    Resembles hidden lenient { m with image := claimed m.image start stop zeroFill }
      { n with image := claimed n.image start stop zeroFill } := by
  obtain ⟨image, cells, rfl⟩ := resembles
  refine ⟨Memory.claimed image start stop zeroFill, cells.update (fun a b _ => ?_) start stop, rfl⟩
  cases zeroFill <;> rfl

theorem Resembles.overwrite (resembles : Resembles hidden lenient m n) {start : Nat}
    {row other : Runs Cell} (rows : RowsAlike (fun k => hidden (start + k)) row other) :
    Resembles hidden lenient { m with image := m.image.overwrite start row }
      { n with image := n.image.overwrite start other } := by
  obtain ⟨image, cells, rfl⟩ := resembles
  exact ⟨image.overwrite start other, cells.overwrite rows, rfl⟩

/-- Closing a frame in both memories reveals what had been hidden on the part of the stack that is
given back: it is cleared. -/
theorem Resembles.closed (invalidates : m.checks.stackInvalidation = true)
    (resembles : Resembles hidden lenient m n) (savedTop : Nat) :
    Resembles (fun a => hidden a ∧ ¬ (savedTop ≤ a ∧ a < m.stack.top)) lenient
      (m.closed savedTop) (n.closed savedTop) := by
  obtain ⟨image, cells, rfl⟩ := resembles
  refine ⟨_, ?_, rfl⟩
  show RowsAlike _ (m.released savedTop).cells ((m.recast image lenient).released savedTop).cells
  by_cases lower : savedTop < m.stack.top
  · have both : m.checks.stackInvalidation = true ∧ savedTop < m.stack.top := ⟨invalidates, lower⟩
    have left : m.released savedTop = _ := if_pos both
    have right : (m.recast image lenient).released savedTop = _ := if_pos both
    rw [left, right]
    exact cells.update_const savedTop m.stack.top .poisoned
  · have neither : ¬ (m.checks.stackInvalidation = true ∧ savedTop < m.stack.top) :=
      fun both => lower both.2
    have left : m.released savedTop = _ := if_neg neither
    have right : (m.recast image lenient).released savedTop = _ := if_neg neither
    rw [left, right]
    exact cells.mono fun a hides => ⟨hides, by omega⟩

/-! ### Actions in step -/

section

variable {excused : Fault → Prop}

theorem inStep_requireWindow (start stop : Nat) :
    InStep excused (Resembles hidden lenient) Eq (requireWindow start stop)
      (requireWindow start stop) := by
  refine .get_bind fun m n resembles => ?_
  rw [resembles.hasWindow_eq, resembles.size_eq]
  exact .require _ _

theorem inStep_fit (kind : RegionKind) (size alignment : Nat) :
    InStep excused (Resembles hidden lenient) Eq (fit kind size alignment)
      (fit kind size alignment) := by
  refine .get_bind fun m n resembles => ?_
  rw [resembles.region_eq]
  dsimp only
  split
  · exact .pure rfl
  · exact .fail _

theorem inStep_grow (kind : RegionKind) (size alignment : Nat) :
    InStep excused (Resembles hidden lenient) Eq (grow kind size alignment)
      (grow kind size alignment) := by
  refine .get_bind fun m n resembles => ?_
  simp only [resembles.size_eq, resembles.region_eq, resembles.cap_eq, resembles.grower_eq,
    grownSize?]
  split
  · exact .pure rfl
  · refine .ite (.bind (.note _ _) fun _ _ _ => .pure rfl) ?_
    refine .bind (.modify fun m n resembles => ?_) fun _ _ _ => ?_
    · obtain ⟨image, cells, rfl⟩ := resembles
      exact ⟨image, cells, rfl⟩
    · split
      · refine .bind (.note _ _) fun _ _ _ => .bind (.modify fun m n resembles => ?_) ?_
        · exact resembles.resized kind _
        · exact fun _ _ _ => .pure rfl
      · exact .bind (.note _ _) fun _ _ _ => .pure rfl

theorem inStep_reserve (policy : Policy) (size alignment : Nat) :
    InStep excused (Resembles hidden lenient) Eq (reserve policy size alignment)
      (reserve policy size alignment) := by
  refine .bind (.attempt (inStep_fit _ _ _)) fun found other agree => ?_
  obtain rfl := agree_eq_iff.mp agree
  cases found with
  | ok top => exact .pure rfl
  | error fault =>
    have again (given other : Bool) (same : given = other) :
        InStep excused (Resembles hidden lenient) Eq
          (do Action.require given fault; fit policy.region size alignment)
          (do Action.require other fault; fit policy.region size alignment) := by
      obtain rfl := same
      exact .bind (.require _ _) fun _ _ _ => inStep_fit _ _ _
    exact .ite (.bind (inStep_grow _ _ _) again) (.bind (.pure rfl) again)

/-- Allocations do not depend on hidden bytes. -/
theorem inStep_alloc (policy : Policy) (size alignment : Nat) :
    InStep excused (Resembles hidden lenient) Eq (alloc policy size alignment)
      (alloc policy size alignment) := by
  refine .get_bind fun m n resembles => ?_
  simp only [resembles.region_eq, effectiveAlignment, resembles.quantum_eq]
  refine .bind (inStep_reserve _ _ _) fun top _ same => ?_
  obtain rfl := same
  refine .bind (.modify fun m n resembles => resembles.modifyRegion _ _) fun _ _ _ => ?_
  refine .bind (inStep_requireWindow _ _) fun _ _ _ => ?_
  exact .bind (.modify fun m n resembles => resembles.claimed _ _ _) fun _ _ _ => .pure rfl

theorem inStep_moveStackTop (top : Nat) :
    InStep excused (Resembles hidden lenient) Eq (moveStackTop top) (moveStackTop top) := by
  refine .get_bind fun m n resembles => ?_
  rw [resembles.stack_eq]
  refine .bind (.ofExcept (agree_eq_iff.mpr rfl)) fun stack _ same => ?_
  obtain rfl := same
  refine .modify fun m n resembles => ?_
  obtain ⟨image, cells, rfl⟩ := resembles
  exact ⟨image, cells, rfl⟩

/-- Hidden bytes may differ in what is put at hidden addresses. -/
theorem inStep_place {address : Nat} {row other : Runs Cell}
    (rows : RowsAlike (fun k => hidden (address + k)) row other) :
    InStep excused (Resembles hidden lenient) Eq (place address row) (place address other) := by
  refine .get_bind fun m n resembles => ?_
  rw [resembles.inBounds_eq, ← rows.length_eq]
  refine .bind (.require _ _) fun _ _ _ => .bind (inStep_requireWindow _ _) fun _ _ _ => ?_
  exact .modify fun m n resembles => resembles.overwrite rows

theorem Resembles.cells_agree (resembles : Resembles hidden lenient m n) (start size : Nat) :
    Agree (RowsAlike fun k => k < size ∧ hidden (start + k)) (m.cells start size)
      (n.cells start size) := by
  rw [cells_eq, cells_eq, resembles.inBounds_eq]
  obtain ⟨image, cells, rfl⟩ := resembles
  split
  · exact .ok (cells.window start size)
  · exact .error _

/-- No hidden byte is copied to an address that is not hidden. -/
theorem inStep_copy {target source size : Nat}
    (carried : ∀ k < size, hidden (source + k) → hidden (target + k)) :
    InStep excused (Resembles hidden lenient) Eq (copy target source size)
      (copy target source size) := by
  refine .ite (.pure rfl) (.get_bind fun m n resembles => ?_)
  refine .bind (.ofExcept (resembles.cells_agree source size)) fun row other rows => ?_
  exact inStep_place (rows.mono fun k ⟨lt, hides⟩ => carried k lt hides)

theorem inStep_staticAlloc (size : Nat) :
    InStep excused (Resembles hidden lenient) Eq (staticAlloc size) (staticAlloc size) := by
  refine .get_bind fun m n resembles => ?_
  rw [resembles.quantum_eq]
  exact inStep_alloc _ _ _

theorem inStep_release (savedTop : Nat) :
    InStep excused (Resembles hidden lenient) Eq (release savedTop) (release savedTop) := by
  refine .get_bind fun m n resembles => ?_
  rw [resembles.stackInvalidation_eq, resembles.stack_eq]
  refine .ite (.bind (inStep_requireWindow _ _) fun _ _ _ => ?_) (.pure rfl)
  refine .modify fun m n resembles => ?_
  obtain ⟨image, cells, rfl⟩ := resembles
  exact ⟨_, cells.update (fun _ _ _ => rfl) _ _, rfl⟩

theorem inStep_exit (frame : Frame) :
    InStep excused (Resembles hidden lenient) Eq (exit frame) (exit frame) := by
  cases frame with
  | elided => exact .pure rfl
  | active savedTop depth =>
    refine .get_bind fun m n resembles => ?_
    rw [Memory.depth, Memory.depth, resembles.frames_eq, resembles.stack_eq]
    refine .bind (.require _ _) fun _ _ _ => .bind (.modify fun m n resembles => ?_) fun _ _ _ => ?_
    · obtain ⟨image, cells, rfl⟩ := resembles
      exact ⟨image, cells, rfl⟩
    · exact .bind (inStep_release _) fun _ _ _ => .bind (.note _ _) fun _ _ _ =>
        inStep_moveStackTop _

end

/-! ### Actions with assertions -/

/-- The second memory need not check what the first one asserts. -/
theorem inStep_assert (holds : Bool) (broken : Assertion) :
    InStep (Excused lenient) (Resembles hidden lenient) Eq (assert holds broken)
      (assert holds broken) := by
  intro m n resembles
  rw [assert_apply, assert_apply, resembles.assertions_eq]
  cases lenient with
  | false =>
    rw [Bool.not_false, Bool.and_true]
    exact .inr ⟨agree_eq_iff.mpr rfl, resembles⟩
  | true =>
    cases m.checks.assertions <;> cases holds
    case true.false => exact .inl ⟨_, rfl, rfl, broken, rfl⟩
    all_goals exact .inr ⟨.ok rfl, resembles⟩

/-- A block of the stack can be given back. -/
theorem alloc_stack_mem {size alignment address : Nat} (ordered : m.stack.Ordered)
    (found : (alloc .stack size alignment m).result = .ok address) :
    let stack := (alloc .stack size alignment m).state.stack
    stack.base ≤ address ∧ address ≤ stack.limit := by
  have allocated := alloc_cases m .stack size alignment
  rw [found] at allocated
  generalize (alloc .stack size alignment m).state = after at allocated ⊢
  cases allocated with
  | taken reserved inside =>
    obtain ⟨rfl, -⟩ := reserved.stack_cases
    exact ⟨ordered.base_le_top, ordered.top_le_limit⟩

theorem stackAlloc_inStep (ordered : m.stack.Ordered) (resembles : Resembles hidden lenient m n)
    (size : Nat) :
    Outcome.InStep (Excused lenient) (Resembles hidden lenient) Eq (stackAlloc size m)
      (stackAlloc size n) := by
  unfold stackAlloc
  rw [Action.get_bind_apply, Action.get_bind_apply, resembles.quantum_eq, resembles.assertions_eq]
  refine Action.bind_inStep (inStep_alloc _ _ _ m n resembles) ?_
  intro address _ s t found left same resembles
  obtain rfl := same
  rw [Action.get_bind_apply, Action.get_bind_apply, resembles.stack_eq]
  cases lenient with
  | false =>
    rw [Bool.not_false, Bool.and_true]
    have back (fault : Fault) :
        InStep (Excused false) (Resembles hidden false) Eq
          (do moveStackTop address; Action.fail (α := Nat) fault)
          (do moveStackTop address; Action.fail fault) :=
      .bind (inStep_moveStackTop _) fun _ _ _ => .fail _
    exact InStep.ite (back _) (.pure rfl) s t resembles
  | true =>
    rw [Bool.not_true, Bool.and_false, Bool.false_and, if_neg Bool.false_ne_true]
    split
    · -- the first block is given back, and that is the fault to be excused
      obtain ⟨base_le, le_limit⟩ := left ▸ alloc_stack_mem ordered found
      refine .inl ⟨.assertion (.stackExhausted s.stack.top s.stack.limit), ?_, rfl, _, rfl⟩
      simp [Action.result_bind, moveStackTop_apply, base_le, le_limit]
    · exact .inr ⟨.ok rfl, resembles⟩

theorem allocate_inStep (ordered : m.stack.Ordered) (resembles : Resembles hidden lenient m n)
    (kind : RegionKind) (size : Nat) :
    Outcome.InStep (Excused lenient) (Resembles hidden lenient) Eq (allocate kind size m)
      (allocate kind size n) := by
  cases kind with
  | stack => exact stackAlloc_inStep ordered resembles size
  | static => exact inStep_staticAlloc size m n resembles

theorem openFrame_inStep (ordered : m.stack.Ordered) (resembles : Resembles hidden lenient m n)
    (initial : Nat) (forced : Bool) :
    Outcome.InStep (Excused lenient) (Resembles hidden lenient) Eq (openFrame initial forced m)
      (openFrame initial forced n) := by
  unfold openFrame
  rw [Action.get_bind_apply, Action.get_bind_apply, resembles.skips_eq, resembles.quantum_eq,
    resembles.stack_eq, Memory.depth, Memory.depth, resembles.frames_eq]
  split
  · exact .inr ⟨.ok rfl, resembles⟩
  · refine Action.bind_inStep (inStep_assert _ _ m n resembles) ?_
    intro _ _ s t _ same _ resembles
    obtain rfl : m = s := by rwa [assert_apply] at same
    have opened (depth top : Nat) :
        let opening : Action Memory Frame := do
          Action.modify fun m => { m with frames := top :: m.frames }
          Action.note (.frameOpened depth top initial)
          return .active top depth
        InStep (Excused lenient) (Resembles hidden lenient) Eq opening opening := by
      refine .bind (.modify fun m n resembles => ?_) fun _ _ _ =>
        .bind (.note _ _) fun _ _ _ => .pure rfl
      obtain ⟨image, cells, rfl⟩ := resembles
      exact ⟨image, cells, rfl⟩
    dsimp only
    rw [Action.ite_apply, Action.ite_apply]
    split
    · refine Action.bind_inStep (stackAlloc_inStep ordered resembles initial) ?_
      exact fun _ _ s t _ _ _ resembles => opened _ _ s t resembles
    · exact opened _ _ m t resembles

/-- Reading answers the same bytes, but for those that are hidden. -/
theorem Resembles.read (resembles : Resembles hidden lenient m n) (start size : Nat) :
    (∃ fault, m.read start size = .error fault ∧ Excused lenient fault) ∨
      Agree (fun bytes others => bytes.length = others.length ∧
          ((∀ a, ¬ hidden a) → bytes = others))
        (m.read start size) (n.read start size) := by
  rw [read_eq, read_eq, resembles.inBounds_eq, resembles.assertions_eq]
  obtain ⟨image, cells, rfl⟩ := resembles
  have rows := cells.window start size
  have answered : Agree (fun bytes others : List UInt8 => bytes.length = others.length ∧
        ((∀ a, ¬ hidden a) → bytes = others))
      (.ok ((m.image.window start size).map Cell.value).toList)
      (.ok ((image.window start size).map Cell.value).toList) := by
    refine .ok ⟨?_, fun visible => ?_⟩
    · simp [rows.length_eq]
    · rw [rows.eq fun k hides => visible _ hides.2]
  dsimp only [recast]
  rw [rows.findIdx?_stale_eq]
  split
  · cases m.checks.assertions with
    | false => exact .inr answered
    | true =>
      cases (image.window start size).findIdx? Cell.stale with
      | none => cases lenient <;> exact .inr answered
      | some offset =>
        cases lenient with
        | false => exact .inr (.error _)
        | true => exact .inl ⟨_, rfl, rfl, _, rfl⟩
  · exact .inr (.error _)

/-- Loading answers a number of the type, and the same one if nothing is hidden. -/
theorem Resembles.load (resembles : Resembles hidden lenient m n) (type : ScalarType)
    (start : Nat) :
    (∃ fault, m.load type start = .error fault ∧ Excused lenient fault) ∨
      Agree (fun x y => x.type = y.type ∧ ((∀ a, ¬ hidden a) → x = y))
        (m.load type start) (n.load type start) := by
  rw [load_eq, load_eq]
  obtain ⟨fault, failed, excuse⟩ | agree := resembles.read start type.bytes
  · rw [failed]
    exact .inl ⟨fault, rfl, excuse⟩
  · refine .inr (agree.map fun bytes others ⟨_, equal⟩ => ⟨?_, fun visible => ?_⟩)
    · simp
    · rw [equal visible]

end Memory

/-! ### Operations -/

/-- The operations differ in nothing but the bytes that they put at hidden addresses, and copy no
hidden byte to an address that is not. -/
inductive Operation.Veiled (hidden : Nat → Prop) : Operation → Operation → Prop where
  | same (op : Operation) (carried : ∀ target source size, op = .copy target source size →
      ∀ k < size, hidden (source + k) → hidden (target + k)) : Veiled hidden op op
  | write (address : Nat) {bytes others : List UInt8} (length : bytes.length = others.length)
      (inside : ∀ k < bytes.length, hidden (address + k)) :
      Veiled hidden (.write address bytes) (.write address others)
  | fill (address : Nat) (value other : UInt8) (size : Nat)
      (inside : ∀ k < size, hidden (address + k)) :
      Veiled hidden (.fill address value size) (.fill address other size)
  | store (address : Nat) {x y : Scalar} (length : x.encode.length = y.encode.length)
      (inside : ∀ k < x.encode.length, hidden (address + k)) :
      Veiled hidden (.store address x) (.store address y)

inductive Answer.Alike (visible : Prop) : Answer → Answer → Prop where
  | same (a : Answer) : Alike visible a a
  | bytes {bs cs : List UInt8} (length : bs.length = cs.length) (equal : visible → bs = cs) :
      Alike visible (.bytes bs) (.bytes cs)
  | scalar {x y : Scalar} (type : x.type = y.type) (equal : visible → x = y) :
      Alike visible (.scalar x) (.scalar y)

theorem Answer.Alike.mono {visible sees : Prop} {a b : Answer} (more : sees → visible)
    (alike : Alike visible a b) : Alike sees a b := by
  cases alike with
  | same => exact .same a
  | bytes length equal => exact .bytes length fun seen => equal (more seen)
  | scalar type equal => exact .scalar type fun seen => equal (more seen)

theorem Answer.Alike.eq {visible : Prop} {a b : Answer} (alike : Alike visible a b)
    (sees : visible) : a = b := by
  cases alike with
  | same => rfl
  | bytes length equal => rw [equal sees]
  | scalar type equal => rw [equal sees]

namespace Memory

open LinearHost.Action (InStep)
open Cell (RowsAlike)

variable {hidden : Nat → Prop} {lenient : Bool} {m n : Memory} {op other : Operation}

theorem inStep_write {address : Nat} {bytes others : List UInt8}
    (length : bytes.length = others.length) (inside : ∀ k < bytes.length, hidden (address + k)) :
    InStep (Excused lenient) (Resembles hidden lenient) Eq (write address bytes)
      (write address others) := by
  refine inStep_place (.of_live ?_ ?_ ?_ ?_)
  · simpa using length
  · simpa using inside
  · simp [Cell.live]
  · simp [Cell.live]

theorem inStep_fill {address size : Nat} (value other : UInt8)
    (inside : ∀ k < size, hidden (address + k)) :
    InStep (Excused lenient) (Resembles hidden lenient) Eq (fill address value size)
      (fill address other size) := by
  refine inStep_place (.of_live ?_ ?_ ?_ ?_)
  · simp
  · simpa using inside
  · simp +contextual [Cell.live]
  · simp +contextual [Cell.live]

/-- The same operation keeps memories in step, unless it copies hidden bytes into view. -/
theorem step_inStep_same (orderly : m.Orderly) (resembles : Resembles hidden lenient m n)
    (op : Operation) (carried : ∀ target source size, op = .copy target source size →
      ∀ k < size, hidden (source + k) → hidden (target + k)) :
    Outcome.InStep (Excused lenient) (Resembles hidden lenient) (Answer.Alike (∀ a, ¬ hidden a))
      (step op m) (step op n) := by
  have stack : m.stack.Ordered := orderly.ordered .stack
  have same {α : Type} {f : α → Answer} (a b : α) (equal : a = b) :
      Answer.Alike (∀ a, ¬ hidden a) (f a) (f b) := equal ▸ .same _
  cases op with
  | alloc policy size alignment =>
    exact Action.bind_pure_inStep (inStep_alloc _ _ _ m n resembles) same
  | stackAlloc size => exact Action.bind_pure_inStep (stackAlloc_inStep stack resembles size) same
  | staticAlloc size => exact Action.bind_pure_inStep (inStep_staticAlloc size m n resembles) same
  | allocate kind size =>
    exact Action.bind_pure_inStep (allocate_inStep stack resembles kind size) same
  | enter initial =>
    exact Action.bind_pure_inStep (openFrame_inStep stack resembles initial false) same
  | enterForced initial =>
    exact Action.bind_pure_inStep (openFrame_inStep stack resembles initial true) same
  | exit frame => exact Action.bind_pure_inStep (inStep_exit frame m n resembles) same
  | restore top => exact Action.bind_pure_inStep (inStep_moveStackTop top m n resembles) same
  | read address size =>
    have read : Outcome.InStep _ _ _ (Action.ofExcept (m.read address size) m)
        (Action.ofExcept (n.read address size) n) :=
      (resembles.read address size).imp id (⟨·, resembles⟩)
    exact Action.bind_pure_inStep read fun _ _ ⟨length, equal⟩ => .bytes length equal
  | write address bytes =>
    exact Action.bind_pure_inStep (inStep_place (.refl _ _) m n resembles) same
  | fill address value size =>
    exact Action.bind_pure_inStep (inStep_place (.refl _ _) m n resembles) same
  | copy target source size =>
    exact Action.bind_pure_inStep (inStep_copy (carried _ _ _ rfl) m n resembles) same
  | load type address =>
    have load : Outcome.InStep _ _ _ (Action.ofExcept (m.load type address) m)
        (Action.ofExcept (n.load type address) n) :=
      (resembles.load type address).imp id (⟨·, resembles⟩)
    exact Action.bind_pure_inStep load fun _ _ ⟨type, equal⟩ => .scalar type equal
  | store address x =>
    exact Action.bind_pure_inStep (inStep_place (.refl _ _) m n resembles) same

/-- Operations that differ in hidden bytes only keep memories in step that do. -/
theorem step_inStep (orderly : m.Orderly) (resembles : Resembles hidden lenient m n)
    (veiled : op.Veiled hidden other) :
    Outcome.InStep (Excused lenient) (Resembles hidden lenient) (Answer.Alike (∀ a, ¬ hidden a))
      (step op m) (step other n) := by
  cases veiled with
  | same _ carried => exact step_inStep_same orderly resembles op carried
  | write address length inside =>
    exact Action.bind_pure_inStep (inStep_write length inside m n resembles) fun _ _ _ => .same _
  | fill address value other size inside =>
    exact Action.bind_pure_inStep (inStep_fill value other inside m n resembles)
      fun _ _ _ => .same _
  | store address length inside =>
    exact Action.bind_pure_inStep (inStep_write length inside m n resembles) fun _ _ _ => .same _

/-! ### Runs -/

theorem trace_cons (op : Operation) (rest : List Operation) (m : Memory) :
    Action.trace step (op :: rest) m =
      ((step op m).result, next m op) :: Action.trace step rest (next m op) := rfl

theorem answers_eq_trace (ops : List Operation) (m : Memory) :
    answers ops m = (Action.trace step ops m).map Prod.fst := by
  induction ops generalizing m with
  | nil => rfl
  | cons op rest ih => rw [answers_cons, trace_cons, List.map_cons, ih]

theorem reached_eq_ending (ops : List Operation) (m : Memory) :
    reached ops m = Action.ending step ops m := by
  induction ops generalizing m with
  | nil => rfl
  | cons op rest ih => rw [reached_cons, Action.ending, next, ih]

end Memory

end LinearHost
