import LinearHost.Memory.Operation
import LinearHost.Proofs.Memory.Frames

/-!
# Actions that do not see the frames

Allocations and accesses take no notice of the open frames, or of whether empty ones are skipped.
Such an action does the same in memories that differ in these only.

## Main definitions

* `Memory.reframed`: the memory with other frames and another choice.
* `Memory.Blind`: the actions that commute with that.
* `Memory.Alike`: memories that blind actions cannot tell apart.
-/

namespace LinearHost.Memory

variable {α β : Type}

def reframed (m : Memory) (frames : List Nat) (skip : Bool) : Memory :=
  { m with frames, checks := { m.checks with skipEmptyFrames := skip } }

/-- The action does not depend on the open frames and leaves them alone. -/
def Blind (x : Action Memory α) : Prop :=
  ∀ m frames skip, x (m.reframed frames skip) =
    ⟨(x m).result, (x m).state.reframed frames skip, (x m).events⟩

/-- The first memory skips empty frames, and beside that only its open frames differ. -/
def Alike (quiet full : Memory) : Prop :=
  quiet = full.reframed quiet.frames true

namespace Blind

/-! ### How blind actions are made -/

theorem pure (a : α) : Blind (Pure.pure a) := fun _ _ _ => rfl

theorem fail (fault : Fault) : Blind (Action.fail (α := α) fault) := fun _ _ _ => rfl

theorem note (event : Event) : Blind (Action.note event) := fun _ _ _ => rfl

theorem ofExcept (result : Except Fault α) : Blind (Action.ofExcept result) := fun _ _ _ => rfl

theorem modify {f : Memory → Memory}
    (commutes : ∀ m frames skip, f (m.reframed frames skip) = (f m).reframed frames skip) :
    Blind (Action.modify f) := by
  intro m frames skip
  simp [commutes]

theorem require (holds : Bool) (fault : Fault) : Blind (Action.require holds fault) := by
  cases holds with
  | true => exact pure ()
  | false => exact fail fault

theorem bind {x : Action Memory α} {f : α → Action Memory β} (first : Blind x)
    (second : ∀ a, Blind (f a)) : Blind (x >>= f) := by
  intro m frames skip
  rw [Action.bind_apply, Action.bind_apply, first]
  cases x m with
  | mk result state events =>
    cases result with
    | ok a => simp [second a state frames skip]
    | error fault => rfl

theorem attempt {x : Action Memory α} (blind : Blind x) : Blind x.attempt := by
  intro m frames skip
  rw [Action.attempt_apply, Action.attempt_apply, blind]

/-- What is read off the memory must not depend on the frames. -/
theorem get_bind {f : Memory → Action Memory α}
    (same : ∀ m frames skip, f (m.reframed frames skip) = f m) (blind : ∀ m, Blind (f m)) :
    Blind (Action.get >>= f) := by
  intro m frames skip
  rw [Action.get_bind_apply, Action.get_bind_apply, same]
  exact blind m m frames skip

theorem ite {holds : Prop} [Decidable holds] {x y : Action Memory α} (yes : Blind x)
    (no : Blind y) : Blind (if holds then x else y) := by
  split
  · exact yes
  · exact no

/-- A blind action keeps the frames and the choice whether empty ones are skipped. -/
theorem kept {x : Action Memory α} (blind : Blind x) (m : Memory) :
    (x m).state.frames = m.frames ∧
      (x m).state.checks.skipEmptyFrames = m.checks.skipEmptyFrames := by
  have same := congrArg Outcome.state (blind m m.frames m.checks.skipEmptyFrames)
  have same : (x m).state = (x m).state.reframed m.frames m.checks.skipEmptyFrames := same
  rw [same]
  exact ⟨rfl, rfl⟩

/-- A blind action does the same to memories that are alike. -/
theorem alike {x : Action Memory α} (blind : Blind x) {quiet full : Memory}
    (same : Alike quiet full) :
    (x quiet).result = (x full).result ∧ Alike (x quiet).state (x full).state := by
  have agree := blind full quiet.frames true
  rw [← same] at agree
  have answer := congrArg Outcome.result agree
  have state := congrArg Outcome.state agree
  refine ⟨answer, ?_⟩
  rw [Alike, (blind.kept quiet).1]
  exact state

end Blind

/-! ### The actions that are blind -/

theorem blind_requireWindow (start stop : Nat) : Blind (requireWindow start stop) :=
  .get_bind (fun _ _ _ => rfl) fun _ => .require _ _

theorem blind_assert (holds : Bool) (broken : Assertion) : Blind (assert holds broken) :=
  .get_bind (fun _ _ _ => rfl) fun _ => .require _ _

theorem blind_fit (kind : RegionKind) (size alignment : Nat) : Blind (fit kind size alignment) := by
  refine .get_bind (fun _ _ _ => rfl) fun m => ?_
  dsimp only
  split
  · exact .pure _
  · exact .fail _

theorem blind_grow (kind : RegionKind) (size alignment : Nat) :
    Blind (grow kind size alignment) := by
  refine .get_bind (fun _ _ _ => rfl) fun m => ?_
  dsimp only
  split
  · exact .pure _
  · refine .ite (.bind (.note _) fun _ => .pure _) ?_
    refine .bind (.modify fun _ _ _ => rfl) fun _ => ?_
    split
    · refine .bind (.note _) fun _ => .bind (.modify fun _ _ _ => ?_) fun _ => .pure _
      cases kind <;> rfl
    · exact .bind (.note _) fun _ => .pure _

theorem blind_reserve (policy : Policy) (size alignment : Nat) :
    Blind (reserve policy size alignment) := by
  refine .bind (.attempt (blind_fit _ _ _)) fun found => ?_
  cases found with
  | ok top => exact .pure top
  | error fault =>
    have again (given : Bool) :
        Blind (do Action.require given fault; fit policy.region size alignment) :=
      .bind (.require _ _) fun _ => blind_fit _ _ _
    exact .ite (.bind (blind_grow _ _ _) again) (.bind (.pure _) again)

theorem blind_alloc (policy : Policy) (size alignment : Nat) :
    Blind (alloc policy size alignment) := by
  refine .get_bind (fun _ _ _ => rfl) fun m => ?_
  refine .bind (blind_reserve _ _ _) fun top => .bind (.modify fun _ _ _ => ?_) fun _ => ?_
  · cases policy.region <;> rfl
  · refine .bind (blind_requireWindow _ _) fun _ => .bind (.modify fun _ _ _ => rfl) fun _ => .pure _

theorem blind_moveStackTop (top : Nat) : Blind (moveStackTop top) :=
  .get_bind (fun _ _ _ => rfl) fun _ =>
    .bind (.ofExcept _) fun _ => .modify fun _ _ _ => rfl

theorem blind_stackAlloc (size : Nat) : Blind (stackAlloc size) := by
  refine .get_bind (fun _ _ _ => rfl) fun before => ?_
  refine .bind (blind_alloc _ _ _) fun address => .get_bind (fun _ _ _ => rfl) fun m => ?_
  exact .ite (.bind (blind_moveStackTop _) fun _ => .fail _) (.pure _)

theorem blind_staticAlloc (size : Nat) : Blind (staticAlloc size) :=
  .get_bind (fun _ _ _ => rfl) fun _ => blind_alloc _ _ _

theorem blind_place (address : Nat) (row : Runs Cell) : Blind (place address row) := by
  refine .get_bind (fun _ _ _ => rfl) fun m => ?_
  refine .bind (.require _ _) fun _ => .bind (blind_requireWindow _ _) fun _ => ?_
  exact .modify fun _ _ _ => rfl

theorem blind_copy (target source size : Nat) : Blind (copy target source size) := by
  refine .ite (.pure _) (.get_bind (fun _ _ _ => rfl) fun m => ?_)
  exact .bind (.ofExcept _) fun row => blind_place _ _

theorem blind_allocate (kind : RegionKind) (size : Nat) : Blind (allocate kind size) := by
  cases kind with
  | stack => exact blind_stackAlloc size
  | static => exact blind_staticAlloc size

theorem blind_frameBlock (initial : Nat) : Blind (frameBlock initial) := by
  refine .get_bind (fun _ _ _ => rfl) fun m => .bind (blind_assert _ _) fun _ => ?_
  exact .ite (.bind (blind_stackAlloc initial) fun _ => .pure _) (.pure _)

theorem blind_step_stackAlloc (size : Nat) : Blind (step (.stackAlloc size)) :=
  .bind (blind_stackAlloc size) fun _ => .pure _

theorem blind_step_staticAlloc (size : Nat) : Blind (step (.staticAlloc size)) :=
  .bind (blind_staticAlloc size) fun _ => .pure _

theorem blind_step_read (address size : Nat) : Blind (step (.read address size)) :=
  .get_bind (fun _ _ _ => rfl) fun _ => .bind (.ofExcept _) fun _ => .pure _

theorem blind_step_write (address : Nat) (bytes : List UInt8) :
    Blind (step (.write address bytes)) :=
  .bind (blind_place _ _) fun _ => .pure _

theorem blind_step_load (type : ScalarType) (address : Nat) : Blind (step (.load type address)) :=
  .get_bind (fun _ _ _ => rfl) fun _ => .bind (.ofExcept _) fun _ => .pure _

theorem blind_step_store (address : Nat) (x : Scalar) : Blind (step (.store address x)) :=
  .bind (blind_place _ _) fun _ => .pure _

/-- An operation opens a frame, or closes one, or it is blind and answers no frame. -/
theorem step_kinds (op : Operation) :
    (Blind (step op) ∧ ∀ m frame, (step op m).result ≠ .ok (.frame frame)) ∨
      (∃ initial forced, step op = do return .frame (← openFrame initial forced)) ∨
      ∃ frame, op = .exit frame := by
  have other {α : Type} {f : α → Answer} (differs : ∀ a frame, f a ≠ .frame frame)
      (x : Action Memory α) (m : Memory) (frame : Frame) :
      ((do return f (← x)) m : Outcome Memory Answer).result ≠ .ok (.frame frame) := by
    rw [Action.result_bind_pure]
    cases (x m).result with
    | ok a => simpa [Except.map] using differs a frame
    | error fault => nofun
  cases op with
  | alloc policy size alignment =>
    exact .inl ⟨.bind (blind_alloc _ _ _) fun _ => .pure _, other nofun _⟩
  | stackAlloc size => exact .inl ⟨blind_step_stackAlloc size, other nofun _⟩
  | staticAlloc size => exact .inl ⟨blind_step_staticAlloc size, other nofun _⟩
  | allocate kind size => exact .inl ⟨.bind (blind_allocate _ _) fun _ => .pure _, other nofun _⟩
  | enter initial => exact .inr (.inl ⟨initial, false, rfl⟩)
  | enterForced initial => exact .inr (.inl ⟨initial, true, rfl⟩)
  | exit frame => exact .inr (.inr ⟨frame, rfl⟩)
  | restore top => exact .inl ⟨.bind (blind_moveStackTop _) fun _ => .pure _, other nofun _⟩
  | read address size => exact .inl ⟨blind_step_read address size, fun m => other nofun _ m⟩
  | write address bytes => exact .inl ⟨blind_step_write address bytes, other nofun _⟩
  | fill address value size => exact .inl ⟨.bind (blind_place _ _) fun _ => .pure _, other nofun _⟩
  | copy target source size => exact .inl ⟨.bind (blind_copy _ _ _) fun _ => .pure _, other nofun _⟩
  | load type address => exact .inl ⟨blind_step_load type address, fun m => other nofun _ m⟩
  | store address x => exact .inl ⟨blind_step_store address x, other nofun _⟩

end LinearHost.Memory
