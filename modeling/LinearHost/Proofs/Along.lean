/-!
# Properties along a run

A run meets a list of inputs one after the other, each in the state that those before it led to.
-/

namespace LinearHost

variable {σ ι : Type} {next : σ → ι → σ} {holds left right : σ → ι → Prop} {invariant : σ → Prop}

/-- The property holds of every input of a list and the state that it meets. -/
def Along (next : σ → ι → σ) (holds : σ → ι → Prop) : List ι → σ → Prop
  | [], _ => True
  | i :: rest, s => holds s i ∧ Along next holds rest (next s i)

instance [∀ s i, Decidable (holds s i)] : ∀ inputs s, Decidable (Along next holds inputs s)
  | [], _ => .isTrue trivial
  | i :: rest, s =>
    have : Decidable (Along next holds rest (next s i)) := instDecidableAlong rest (next s i)
    inferInstanceAs (Decidable (holds s i ∧ Along next holds rest (next s i)))

/-- Properties that agree where an invariant holds, and keep it, agree along every run. -/
theorem along_congr (agree : ∀ s i, invariant s → (left s i ↔ right s i))
    (kept : ∀ s i, invariant s → right s i → invariant (next s i)) (inputs : List ι) {s : σ}
    (start : invariant s) : Along next left inputs s ↔ Along next right inputs s := by
  induction inputs generalizing s with
  | nil => exact Iff.rfl
  | cons i rest ih =>
    constructor
    · rintro ⟨first, others⟩
      have first := (agree s i start).mp first
      exact ⟨first, (ih (kept s i start first)).mp others⟩
    · rintro ⟨first, others⟩
      exact ⟨(agree s i start).mpr first, (ih (kept s i start first)).mpr others⟩

/-- What follows from an invariant holds along every run that keeps it. -/
theorem along_of_invariant (follows : ∀ s i, invariant s → holds s i)
    (kept : ∀ s i, invariant s → invariant (next s i)) (inputs : List ι) {s : σ}
    (start : invariant s) : Along next holds inputs s := by
  induction inputs generalizing s with
  | nil => trivial
  | cons i rest ih => exact ⟨follows s i start, ih (kept s i start)⟩

end LinearHost
