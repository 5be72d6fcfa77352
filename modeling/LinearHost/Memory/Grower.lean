import LinearHost.Arithmetic.Alignment

/-!
# Growers

A grower decides how far a memory may grow. It may remember what it was asked before, so it is a
function of its history.

## Main definitions

* `Grower`: a policy together with the requests that it has answered.
* `Grower.ask`: puts a request and records the answer.
* `Grower.fixed`, `Grower.doubling`: memory that never grows, or doubles up to a maximum.
-/

namespace LinearHost

structure Growth where
  current : Nat
  requested : Nat
  /-- The new size, or `none` if the request was refused. -/
  answer : Option Nat
deriving DecidableEq, Repr

/-- A collaborator that answers requests for growth. -/
structure Grower where
  /-- The answer to a request, given the earlier requests, newest first. -/
  policy : (history : List Growth) → (current requested : Nat) → Option Nat
  history : List Growth := []

/-- Doubles `size` until it reaches `requested` or the largest word. -/
def doubleUntil (requested size : Nat) : Nat :=
  if size < requested ∧ 0 < size ∧ size < addressSpace - 1 then
    doubleUntil requested (min (2 * size) (addressSpace - 1))
  else size
termination_by addressSpace - 1 - size
decreasing_by omega

namespace Grower

/-- The answer to a request, and the grower that remembers it. -/
def ask (g : Grower) (current requested : Nat) : Option Nat × Grower :=
  let answer := g.policy g.history current requested
  (answer, { g with history := ⟨current, requested, answer⟩ :: g.history })

def fixed : Grower where
  policy _ _ _ := none

/-- The size reached from `current` by doubling, cut to `max`; `none` beyond it. -/
def doubled? (max current requested : Nat) : Option Nat :=
  if max < requested then none
  else some (min (doubleUntil requested (Nat.max current 1)) max)

/-- Doubles the size until the request fits, up to `max`. -/
def doubling (max : Nat) : Grower where
  policy _ := doubled? max

end Grower

end LinearHost
