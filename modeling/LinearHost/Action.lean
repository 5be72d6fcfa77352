import LinearHost.Journal

/-!
# Actions

An action reads and changes a state, notes events, and ends with an answer or a fault. A fault ends
the actions in sequence after it, but keeps what had been changed and noted before it.

## Main definitions

* `Outcome`: the answer, the state and the events that an action leaves behind.
* `Action`: a function from states to outcomes, with the usual operations of a monad.
* `Action.attempt`: turns a fault into an answer.
* `Action.zoom`: runs an action on a part of a larger state.
-/

namespace LinearHost

/-- What an action leaves behind. -/
structure Outcome (σ α : Type) where
  /-- The answer, or the reason why there is none. -/
  result : Except Fault α
  /-- The state afterwards. -/
  state : σ
  /-- The events noted, oldest first. -/
  events : List Event

/-- A step on a state. -/
def Action (σ α : Type) : Type :=
  σ → Outcome σ α

namespace Action

variable {σ τ α β : Type}

/-- Answers without touching the state. -/
def ret (a : α) : Action σ α := fun s => ⟨.ok a, s, []⟩

/-- Runs an action and, unless it fails, the one chosen by its answer. -/
def andThen (x : Action σ α) (f : α → Action σ β) : Action σ β := fun s =>
  match x s with
  | ⟨.ok a, t, noted⟩ =>
    let rest := f a t
    ⟨rest.result, rest.state, noted ++ rest.events⟩
  | ⟨.error fault, t, noted⟩ => ⟨.error fault, t, noted⟩

instance : Monad (Action σ) where
  pure := ret
  bind := andThen

/-- Fails without touching the state. -/
def fail (fault : Fault) : Action σ α := fun s => ⟨.error fault, s, []⟩

/-- Answers with the state. -/
def get : Action σ σ := fun s => ⟨.ok s, s, []⟩

/-- Answers with what a function reads off the state. -/
def gets (f : σ → α) : Action σ α := fun s => ⟨.ok (f s), s, []⟩

/-- Replaces the state. -/
def set (s : σ) : Action σ Unit := fun _ => ⟨.ok (), s, []⟩

/-- Changes the state by a function. -/
def modify (f : σ → σ) : Action σ Unit := fun s => ⟨.ok (), f s, []⟩

/-- Notes an event. -/
def note (event : Event) : Action σ Unit := fun s => ⟨.ok (), s, [event]⟩

/-- Answers or fails as computed. -/
def ofExcept (result : Except Fault α) : Action σ α := fun s => ⟨result, s, []⟩

/-- Fails unless a condition holds. -/
def require (holds : Bool) (fault : Fault) : Action σ Unit :=
  if holds then ret () else fail fault

/-- Turns a fault into an answer. -/
def attempt (x : Action σ α) : Action σ (Except Fault α) := fun s =>
  let outcome := x s
  ⟨.ok outcome.result, outcome.state, outcome.events⟩

/-- Runs an action on the part of a state that `part` reads and `replace` writes. -/
def zoom (part : τ → σ) (replace : τ → σ → τ) (x : Action σ α) : Action τ α := fun t =>
  let outcome := x (part t)
  ⟨outcome.result, replace t outcome.state, outcome.events⟩

/-! ### What each operation leaves behind -/

@[simp] theorem pure_apply (a : α) (s : σ) : (pure a : Action σ α) s = ⟨.ok a, s, []⟩ := rfl

@[simp] theorem ret_apply (a : α) (s : σ) : (ret a : Action σ α) s = ⟨.ok a, s, []⟩ := rfl

theorem bind_apply (x : Action σ α) (f : α → Action σ β) (s : σ) :
    (x >>= f) s =
      match x s with
      | ⟨.ok a, t, noted⟩ => ⟨(f a t).result, (f a t).state, noted ++ (f a t).events⟩
      | ⟨.error fault, t, noted⟩ => ⟨.error fault, t, noted⟩ := rfl

theorem result_bind (x : Action σ α) (f : α → Action σ β) (s : σ) :
    ((x >>= f) s).result =
      match (x s).result with
      | .ok a => (f a (x s).state).result
      | .error fault => .error fault := by
  rw [bind_apply]
  split <;> simp [*]

theorem state_bind (x : Action σ α) (f : α → Action σ β) (s : σ) :
    ((x >>= f) s).state =
      match (x s).result with
      | .ok a => (f a (x s).state).state
      | .error _ => (x s).state := by
  rw [bind_apply]
  split <;> simp [*]

@[simp] theorem fail_apply (fault : Fault) (s : σ) :
    (fail fault : Action σ α) s = ⟨.error fault, s, []⟩ := rfl

@[simp] theorem get_apply (s : σ) : (get : Action σ σ) s = ⟨.ok s, s, []⟩ := rfl

@[simp] theorem gets_apply (f : σ → α) (s : σ) : gets f s = ⟨.ok (f s), s, []⟩ := rfl

@[simp] theorem set_apply (s t : σ) : set s t = ⟨.ok (), s, []⟩ := rfl

@[simp] theorem modify_apply (f : σ → σ) (s : σ) : modify f s = ⟨.ok (), f s, []⟩ := rfl

@[simp] theorem note_apply (event : Event) (s : σ) :
    (note event : Action σ Unit) s = ⟨.ok (), s, [event]⟩ := rfl

@[simp] theorem ofExcept_apply (result : Except Fault α) (s : σ) :
    (ofExcept result : Action σ α) s = ⟨result, s, []⟩ := rfl

@[simp] theorem require_apply (holds : Bool) (fault : Fault) (s : σ) :
    (require holds fault : Action σ Unit) s = ⟨if holds then .ok () else .error fault, s, []⟩ := by
  cases holds <;> rfl

@[simp] theorem ite_apply (c : Prop) [Decidable c] (x y : Action σ α) (s : σ) :
    (if c then x else y) s = if c then x s else y s := by
  split <;> rfl

@[simp] theorem attempt_apply (x : Action σ α) (s : σ) :
    x.attempt s = ⟨.ok (x s).result, (x s).state, (x s).events⟩ := rfl

@[simp] theorem zoom_apply (part : τ → σ) (replace : τ → σ → τ) (x : Action σ α) (t : τ) :
    x.zoom part replace t =
      ⟨(x (part t)).result, replace t (x (part t)).state, (x (part t)).events⟩ := rfl

@[simp] theorem get_bind_apply (f : σ → Action σ α) (s : σ) : (get >>= f) s = f s s := rfl

@[simp] theorem result_bind_pure (x : Action σ α) (f : α → β) (s : σ) :
    ((x >>= fun a => pure (f a)) s).result = (x s).result.map f := by
  rw [result_bind]
  cases (x s).result <;> rfl

@[simp] theorem state_bind_pure (x : Action σ α) (f : α → β) (s : σ) :
    ((x >>= fun a => pure (f a)) s).state = (x s).state := by
  rw [state_bind]
  cases (x s).result <;> rfl

end Action

end LinearHost
