import LinearHost.Action
import LinearHost.Proofs.Along
import Mathlib.Data.List.Forall2

/-!
# Actions in step

Two actions on states of two kinds are in step if they answer alike on related states and leave
related states behind. Actions that are put together from actions in step are in step, and so are
the runs that they make. Faults of the first action may be excused; then nothing is asked of the
second.

## Main definitions

* `Agree`: two answers are values that belong together, or the same fault.
* `Action.InStep`: two actions are in step.
* `Action.trace`, `Action.ending`: what a run of an action answers and leaves behind.
* `Action.inStep_run`: runs of actions in step answer alike at every step.
-/

namespace LinearHost

variable {σ τ α β γ δ ι κ : Type}

/-- Two answers agree: they are values that belong together, or the same fault. -/
inductive Agree (together : α → β → Prop) : Except Fault α → Except Fault β → Prop where
  | ok {a : α} {b : β} (answers : together a b) : Agree together (.ok a) (.ok b)
  | error (fault : Fault) : Agree together (.error fault) (.error fault)

theorem agree_eq_iff {left right : Except Fault α} : Agree Eq left right ↔ left = right := by
  constructor
  · rintro (rfl | fault) <;> rfl
  · rintro rfl
    cases left with
    | ok a => exact .ok rfl
    | error fault => exact .error fault

theorem Agree.mono {together also : α → β → Prop} {left : Except Fault α} {right : Except Fault β}
    (answers : ∀ a b, together a b → also a b) (agree : Agree together left right) :
    Agree also left right := by
  cases agree with
  | ok together => exact .ok (answers _ _ together)
  | error fault => exact .error fault

theorem Agree.map {together : α → β → Prop} {also : γ → δ → Prop} {f : α → γ} {g : β → δ}
    {left : Except Fault α} {right : Except Fault β} (agree : Agree together left right)
    (answers : ∀ a b, together a b → also (f a) (g b)) : Agree also (left.map f) (right.map g) := by
  cases agree with
  | ok together => exact .ok (answers _ _ together)
  | error fault => exact .error fault

/-- Two outcomes are in step: the answers agree and the states are related, unless the first one is
a fault that is excused. -/
def Outcome.InStep (excused : Fault → Prop) (states : σ → τ → Prop) (together : α → β → Prop)
    (left : Outcome σ α) (right : Outcome τ β) : Prop :=
  (∃ fault, left.result = .error fault ∧ excused fault) ∨
    Agree together left.result right.result ∧ states left.state right.state

namespace Action

variable {excused : Fault → Prop} {states : σ → τ → Prop} {together : α → β → Prop}
  {also : γ → δ → Prop} {x : Action σ α} {y : Action τ β} {f : α → Action σ γ}
  {g : β → Action τ δ} {s : σ} {t : τ}

def InStep (excused : Fault → Prop) (states : σ → τ → Prop) (together : α → β → Prop)
    (x : Action σ α) (y : Action τ β) : Prop :=
  ∀ s t, states s t → Outcome.InStep excused states together (x s) (y t)

/-! ### Sequences of actions in step -/

/-- The second parts of two sequences only have to be in step where the first parts lead. -/
theorem bind_inStep (first : Outcome.InStep excused states together (x s) (y t))
    (second : ∀ a b s' t', (x s).result = .ok a → (x s).state = s' → together a b → states s' t' →
      Outcome.InStep excused states also (f a s') (g b t')) :
    Outcome.InStep excused states also ((x >>= f) s) ((y >>= g) t) := by
  unfold Outcome.InStep
  rw [result_bind, result_bind, state_bind, state_bind]
  rcases first with ⟨fault, failed, excuse⟩ | ⟨agree, related⟩
  · rw [failed]
    exact .inl ⟨fault, rfl, excuse⟩
  · generalize found : (x s).result = left at agree
    generalize (y t).result = right at agree
    cases agree with
    | ok answers => exact second _ _ _ _ found rfl answers related
    | error fault => exact .inr ⟨.error fault, related⟩

theorem bind_pure_inStep {f : α → γ} {g : β → δ}
    (first : Outcome.InStep excused states together (x s) (y t))
    (answers : ∀ a b, together a b → also (f a) (g b)) :
    Outcome.InStep excused states also ((x >>= fun a => pure (f a)) s)
      ((y >>= fun b => pure (g b)) t) := by
  refine bind_inStep first fun a b s' t' _ _ belong related => ?_
  exact .inr ⟨.ok (answers a b belong), related⟩

namespace InStep

theorem pure {a : α} {b : β} (belong : together a b) :
    InStep excused states together (Pure.pure a) (Pure.pure b) :=
  fun _ _ related => .inr ⟨.ok belong, related⟩

theorem fail (fault : Fault) :
    InStep excused states together (Action.fail fault) (Action.fail fault) :=
  fun _ _ related => .inr ⟨.error fault, related⟩

theorem note (event other : Event) :
    InStep excused states Eq (Action.note event) (Action.note other) :=
  fun _ _ related => .inr ⟨.ok rfl, related⟩

/-- Results that agree are in step in all states. -/
theorem ofExcept {left : Except Fault α} {right : Except Fault β}
    (agree : Agree together left right) :
    InStep excused states together (Action.ofExcept left) (Action.ofExcept right) :=
  fun _ _ related => .inr ⟨agree, related⟩

/-- Changes that keep the states related are in step. -/
theorem modify {f : σ → σ} {g : τ → τ} (kept : ∀ s t, states s t → states (f s) (g t)) :
    InStep excused states Eq (Action.modify f) (Action.modify g) :=
  fun s t related => .inr ⟨.ok rfl, kept s t related⟩

theorem require (holds : Bool) (fault : Fault) :
    InStep excused states Eq (Action.require holds fault) (Action.require holds fault) := by
  cases holds with
  | true => exact pure rfl
  | false => exact fail fault

theorem bind (first : InStep excused states together x y)
    (second : ∀ a b, together a b → InStep excused states also (f a) (g b)) :
    InStep excused states also (x >>= f) (y >>= g) :=
  fun s t related => bind_inStep (first s t related)
    fun a b s' t' _ _ belong related => second a b belong s' t' related

theorem get_bind {f : σ → Action σ γ} {g : τ → Action τ δ}
    (inStep : ∀ s t, states s t → InStep excused states also (f s) (g t)) :
    InStep excused states also (Action.get >>= f) (Action.get >>= g) :=
  fun s t related => inStep s t related s t related

theorem ite {holds : Prop} [Decidable holds] {x' : Action σ α} {y' : Action τ β}
    (yes : InStep excused states together x y) (no : InStep excused states together x' y') :
    InStep excused states together (if holds then x else x') (if holds then y else y') := by
  split
  · exact yes
  · exact no

theorem refl (x : Action σ α) : InStep excused Eq Eq x x := by
  rintro s _ rfl
  exact .inr ⟨agree_eq_iff.mpr rfl, rfl⟩

/-- Actions on parts of two states are in step if the parts are related, and related parts can be
put in place of them. -/
theorem zoom {parts : γ → δ → Prop} {x : Action γ α} {y : Action δ β} {part : σ → γ}
    {replace : σ → γ → σ} {part' : τ → δ} {replace' : τ → δ → τ}
    (inStep : InStep excused parts together x y)
    (taken : ∀ s t, states s t → parts (part s) (part' t))
    (put : ∀ s t u v, states s t → parts u v → states (replace s u) (replace' t v)) :
    InStep excused states together (x.zoom part replace) (y.zoom part' replace') := by
  intro s t related
  rcases inStep _ _ (taken s t related) with excuse | ⟨agree, kept⟩
  · exact .inl excuse
  · exact .inr ⟨agree, put s t _ _ related kept⟩

/-- Where no fault is excused, the answers agree. -/
theorem agree (inStep : InStep (fun _ => False) states together x y) (related : states s t) :
    Agree together (x s).result (y t).result ∧ states (x s).state (y t).state := by
  rcases inStep s t related with ⟨_, _, excuse⟩ | both
  · exact excuse.elim
  · exact both

/-- A fault that is turned into an answer stays a fault of both, so that none can be excused. -/
theorem attempt (inStep : InStep (fun _ => False) states together x y) :
    InStep excused states (Agree together) x.attempt y.attempt := by
  intro s t related
  obtain ⟨agree, kept⟩ := inStep.agree related
  exact .inr ⟨.ok agree, kept⟩

end InStep

/-! ### Runs -/

def trace (step : ι → Action σ α) : List ι → σ → List (Except Fault α × σ)
  | [], _ => []
  | i :: rest, s => ((step i s).result, (step i s).state) :: trace step rest (step i s).state

def ending (step : ι → Action σ α) : List ι → σ → σ
  | [], s => s
  | i :: rest, s => ending step rest (step i s).state

theorem map_eq_of_forall₂ {r : σ → τ → Prop} {f : σ → γ} {g : τ → γ} {left : List σ}
    {right : List τ} (same : ∀ s t, r s t → f s = g t) (all : List.Forall₂ r left right) :
    left.map f = right.map g := by
  induction all with
  | nil => rfl
  | cons first _ ih => rw [List.map_cons, List.map_cons, same _ _ first, ih]

/-- Runs of actions that are in step wherever they are used answer alike at every step, and lead to
related states. -/
theorem inStep_run {left : ι → Action σ α} {right : κ → Action τ β} {allowed : σ → ι → Prop}
    {shape : ι → κ → Prop}
    (kept : ∀ s t i j, states s t → allowed s i → shape i j →
      Agree together (left i s).result (right j t).result ∧
        states (left i s).state (right j t).state)
    {inputs : List ι} {others : List κ} (shapes : List.Forall₂ shape inputs others)
    (related : states s t)
    (along : Along (fun s i => (left i s).state) allowed inputs s) :
    List.Forall₂ (fun u v => Agree together u.1 v.1 ∧ states u.2 v.2)
        (trace left inputs s) (trace right others t) ∧
      states (ending left inputs s) (ending right others t) := by
  induction shapes generalizing s t with
  | nil => exact ⟨.nil, related⟩
  | cons shape shapes ih =>
    have first := kept s t _ _ related along.1 shape
    obtain ⟨others, last⟩ := ih first.2 along.2
    exact ⟨.cons first others, last⟩

end Action

end LinearHost
