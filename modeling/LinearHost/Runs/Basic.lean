/-!
# Runs

A sequence that is constant over long stretches is kept as its runs: the values in order, each with
the number of times that it stands there in a row. Joined and freed of empty ones, the runs of a
sequence are unique, so two sequences are equal exactly if their runs are.

## Main definitions

* `Run`: a repeated value.
* `Run.expand`, `Run.Tight`: the elements of a list of runs, and the lists that are kept.
* `Run.gather`: puts runs in front of a tight list and keeps it tight.
* `Runs`: a sequence, kept as a tight list of runs; `Runs.toList` are its elements.
* `Runs.take`, `Runs.drop`, `Runs.map`, `Runs.get?`, `Runs.findIdx?`: what they do to the elements is
  what the operations of the same names do to lists.
* `Runs.splice`: puts a sequence in place of as many elements of another.
-/

namespace LinearHost

structure Run (α : Type) where
  value : α
  count : Nat
deriving DecidableEq, Repr

namespace Run

variable {α β : Type}

def expand (runs : List (Run α)) : List α :=
  runs.flatMap fun r => List.replicate r.count r.value

def Tight : List (Run α) → Prop
  | [] => True
  | [r] => 0 < r.count
  | r :: s :: rest => 0 < r.count ∧ r.value ≠ s.value ∧ Tight (s :: rest)

/-- Moves runs of the first `n` elements in front of those taken before, last run first. -/
def takeOnto (n : Nat) (taken : List (Run α)) : List (Run α) → List (Run α)
  | [] => taken
  | r :: rest =>
    if n ≤ r.count then ⟨r.value, n⟩ :: taken else takeOnto (n - r.count) (r :: taken) rest

def drop : Nat → List (Run α) → List (Run α)
  | _, [] => []
  | n, r :: rest =>
    if n < r.count then ⟨r.value, r.count - n⟩ :: rest else drop (n - r.count) rest

def get? : List (Run α) → Nat → Option α
  | [], _ => none
  | r :: rest, n => if n < r.count then some r.value else get? rest (n - r.count)

/-- The position of the first element with a property, after `passed` others. -/
def findIdxFrom? (p : α → Bool) (passed : Nat) : List (Run α) → Option Nat
  | [] => none
  | r :: rest =>
    if p r.value && 0 < r.count then some passed else findIdxFrom? p (passed + r.count) rest

theorem tight_of_cons {r : Run α} {runs : List (Run α)} (h : Tight (r :: runs)) : Tight runs := by
  cases runs <;> grind [Tight]

theorem tight_drop {n : Nat} {runs : List (Run α)} (h : Tight runs) : Tight (drop n runs) := by
  fun_induction drop n runs with
  | case1 => trivial
  | case2 n r rest => cases rest <;> grind [Tight]
  | case3 n r rest _ ih => exact ih (tight_of_cons h)

variable [DecidableEq α]

/-- Puts a run in front of others: an equal neighbour absorbs it, and an empty run vanishes. -/
def push (r : Run α) (runs : List (Run α)) : List (Run α) :=
  if r.count = 0 then runs
  else
    match runs with
    | [] => [r]
    | s :: rest =>
      if r.value = s.value then ⟨r.value, r.count + s.count⟩ :: rest else r :: s :: rest

/-- Puts runs, given last first, in front of others. -/
def gather (before after : List (Run α)) : List (Run α) :=
  before.foldl (fun after r => r.push after) after

theorem tight_push {r : Run α} {runs : List (Run α)} (h : Tight runs) : Tight (r.push runs) := by
  cases runs with
  | nil => grind [push, Tight]
  | cons s rest => cases rest <;> grind [push, Tight]

theorem tight_gather {before after : List (Run α)} (h : Tight after) :
    Tight (gather before after) := by
  induction before generalizing after with
  | nil => exact h
  | cons r rest ih => exact ih (tight_push h)

end Run

structure Runs (α : Type) where
  runs : List (Run α)
  tight : Run.Tight runs
deriving DecidableEq

namespace Runs

variable {α β : Type}

def toList (xs : Runs α) : List α := Run.expand xs.runs

def length (xs : Runs α) : Nat := xs.runs.foldl (fun n r => n + r.count) 0

def get? (xs : Runs α) (n : Nat) : Option α := Run.get? xs.runs n

/-- The position of the first element with a property. -/
def findIdx? (p : α → Bool) (xs : Runs α) : Option Nat := Run.findIdxFrom? p 0 xs.runs

def drop (n : Nat) (xs : Runs α) : Runs α := ⟨Run.drop n xs.runs, Run.tight_drop xs.tight⟩

variable [DecidableEq α] [DecidableEq β]

/-- The sequence with the elements of some runs, given last first. -/
def ofReverse (runs : List (Run α)) : Runs α := ⟨Run.gather runs [], Run.tight_gather trivial⟩

def ofList (xs : List α) : Runs α := ofReverse (xs.map (⟨·, 1⟩)).reverse

def replicate (n : Nat) (a : α) : Runs α := ofReverse [⟨a, n⟩]

def take (n : Nat) (xs : Runs α) : Runs α := ofReverse (Run.takeOnto n [] xs.runs)

def map (f : α → β) (xs : Runs α) : Runs β :=
  ofReverse (xs.runs.map fun r => ⟨f r.value, r.count⟩).reverse

/-- Puts `ys` in place of as many elements of `xs` from position `start` on. -/
def splice (xs : Runs α) (start : Nat) (ys : Runs α) : Runs α where
  runs :=
    Run.gather (Run.takeOnto start [] xs.runs)
      (Run.gather ys.runs.reverse (Run.drop (start + ys.length) xs.runs))
  tight := Run.tight_gather (Run.tight_gather (Run.tight_drop xs.tight))

end Runs

end LinearHost
