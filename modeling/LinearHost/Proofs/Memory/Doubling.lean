import LinearHost.Memory.Grower
import Mathlib.Algebra.Group.Nat.Defs
import Mathlib.Data.Set.Operations
import Mathlib.Order.Bounds.Basic

/-!
# Doubling

A size is doubled in words of 64 bits until it is as large as requested. A double that is no word is
cut to the largest one, which no request exceeds. So the doubling ends, with the first power of two
times the size that is large enough, or with the largest word. The maximum of a grower cuts this to
no less than what was requested.

## Main definitions

* `Doubles`: the rounds of doubling, ended by nothing but the request.
* `exists_doubles`: how many rounds are made, and where they lead.
* `Grower.doubling_least`: what the doubling grower answers.
-/

namespace LinearHost

variable {size requested k : Nat}

/-- As long as a size is less than requested it is doubled in words of 64 bits; this ends after a
number of rounds with a final size. -/
inductive Doubles (requested : Nat) : (size rounds final : Nat) → Prop where
  | enough {size : Nat} (le_size : requested ≤ size) : Doubles requested size 0 size
  | again {size rounds final : Nat} (more : size < requested)
      (rest : Doubles requested (min (2 * size) (addressSpace - 1)) rounds final) :
      Doubles requested size (rounds + 1) final

/-! ### The least power of two -/

theorem isLeast_doubling_zero (enough : requested ≤ size) :
    IsLeast {k | requested ≤ size * 2 ^ k} 0 := by
  refine ⟨?_, fun k _ => Nat.zero_le k⟩
  rw [Set.mem_ofPred_eq, Nat.pow_zero, Nat.mul_one]
  exact enough

/-- What is too small needs one doubling more than its double. -/
theorem isLeast_doubling_succ (more : size < requested)
    (least : IsLeast {k | requested ≤ 2 * size * 2 ^ k} k) :
    IsLeast {k | requested ≤ size * 2 ^ k} (k + 1) := by
  have shift (j : Nat) : size * 2 ^ (j + 1) = 2 * size * 2 ^ j := by
    rw [Nat.pow_succ, Nat.mul_comm (2 ^ j), ← Nat.mul_assoc, Nat.mul_comm size]
  obtain ⟨enough, lowest⟩ := least
  constructor
  · rw [Set.mem_ofPred_eq, shift]
    exact enough
  · intro j reaches
    rw [Set.mem_ofPred_eq] at reaches
    cases j with
    | zero => omega
    | succ j =>
      rw [shift] at reaches
      exact Nat.succ_le_succ (lowest reaches)

/-- A word is reached by doubling any size as often as it has bits. -/
theorem le_bits_of_isLeast (positive : 0 < size) (representable : requested < addressSpace)
    (least : IsLeast {k | requested ≤ size * 2 ^ k} k) : k ≤ 64 := by
  refine least.2 ?_
  have le : 1 * addressSpace ≤ size * addressSpace := Nat.mul_le_mul_right _ positive
  rw [Nat.one_mul] at le
  exact Nat.le_trans (Nat.le_of_lt representable) le

/-! ### The rounds of doubling -/

/-- Doubling ends at the first power of two times the size that is large enough, or at the largest
word. -/
theorem exists_doubles (positive : 0 < size) (small : size < addressSpace)
    (representable : requested < addressSpace) :
    ∃ k, IsLeast {k | requested ≤ size * 2 ^ k} k ∧
      Doubles requested size k (doubleUntil requested size) ∧
      doubleUntil requested size = min (size * 2 ^ k) (addressSpace - 1) := by
  induction size using doubleUntil.induct requested with
  | case1 size more ih =>
    rw [doubleUntil, if_pos more]
    by_cases word : 2 * size ≤ addressSpace - 1
    · rw [Nat.min_eq_left word] at ih ⊢
      obtain ⟨k, least, rounds, answer⟩ := ih (by omega) (by omega)
      refine ⟨k + 1, isLeast_doubling_succ more.1 least, .again more.1 ?_, ?_⟩
      · rwa [Nat.min_eq_left word]
      · rw [answer, Nat.pow_succ, Nat.mul_comm (2 ^ k), ← Nat.mul_assoc, Nat.mul_comm size]
    · -- the next double is cut to the largest word, which is always enough
      have largest : min (2 * size) (addressSpace - 1) = addressSpace - 1 :=
        Nat.min_eq_right (by omega)
      rw [largest, doubleUntil, if_neg (by omega)]
      refine ⟨1, isLeast_doubling_succ more.1 (isLeast_doubling_zero (by omega)),
        .again more.1 ?_, ?_⟩
      · rw [largest]
        exact .enough (by omega)
      · omega
  | case2 size done =>
    rw [doubleUntil, if_neg done]
    refine ⟨0, isLeast_doubling_zero (by omega), .enough (by omega), ?_⟩
    omega

namespace Grower

/-- The size that is answered to a request within the maximum. -/
theorem exists_doubled?_eq {cap : Nat} (le_cap : requested ≤ cap) (small : size < addressSpace)
    (representable : cap < addressSpace) :
    ∃ k, IsLeast {k | requested ≤ max size 1 * 2 ^ k} k ∧
      Doubles requested (max size 1) k (min (addressSpace - 1) (max size 1 * 2 ^ k)) ∧
      doubled? cap size requested =
        some (min cap (min (addressSpace - 1) (max size 1 * 2 ^ k))) := by
  have positive : 0 < max size 1 := by omega
  have word : max size 1 < addressSpace := Nat.max_lt.mpr ⟨small, by decide⟩
  obtain ⟨k, least, rounds, answer⟩ :=
    exists_doubles positive word (Nat.lt_of_le_of_lt le_cap representable)
  rw [Nat.min_comm] at answer
  refine ⟨k, least, answer ▸ rounds, ?_⟩
  have whole : Nat.max size 1 = max size 1 := rfl
  rw [doubled?, if_neg (Nat.not_lt_of_le le_cap), whole, answer, Nat.min_comm]

/-- Whatever it was asked before, the doubling grower refuses exactly what exceeds its maximum. To
any other request it answers a size from the requested one up to the maximum. It has doubled the
present size, or 1, until that was as large as requested, in the least number of rounds that can do
so, which is no more than 64; the answer is where they lead, the size times a power of two or the
largest word, cut to the maximum. A memory within the maximum is not made smaller by it. -/
theorem doubling_least {cap current requested : Nat} (representable : cap < addressSpace)
    (small : current < addressSpace) (history : List Growth) :
    let answer := ({ doubling cap with history }.ask current requested).1
    (answer = none ↔ cap < requested) ∧
    (requested ≤ cap → ∃ k final,
      IsLeast {k | requested ≤ max current 1 * 2 ^ k} k ∧ k ≤ 64 ∧
      Doubles requested (max current 1) k (min (addressSpace - 1) (max current 1 * 2 ^ k)) ∧
      answer = some final ∧ requested ≤ final ∧ final ≤ cap ∧
      final = min cap (min (addressSpace - 1) (max current 1 * 2 ^ k)) ∧
      (current ≤ cap → current ≤ final)) := by
  intro answer
  have answer_eq : answer = doubled? cap current requested := rfl
  have granted (le_cap : requested ≤ cap) := exists_doubled?_eq le_cap small representable
  refine ⟨⟨fun refused => ?_, fun beyond => ?_⟩, fun le_cap => ?_⟩
  · refine Nat.lt_of_not_le fun le_cap => ?_
    obtain ⟨k, -, -, doubled⟩ := granted le_cap
    cases (answer_eq.symm.trans refused).symm.trans doubled
  · rw [answer_eq, doubled?, if_pos beyond]
  · obtain ⟨k, least, rounds, doubled⟩ := granted le_cap
    have enough : requested ≤ max current 1 * 2 ^ k := least.1
    have grows : current ≤ max current 1 * 2 ^ k :=
      Nat.le_trans (Nat.le_max_left ..) (Nat.le_mul_of_pos_right _ (Nat.two_pow_pos k))
    have bits := le_bits_of_isLeast (by omega) (Nat.lt_of_le_of_lt le_cap representable) least
    refine ⟨k, _, least, bits, rounds, answer_eq.trans doubled, ?_, Nat.min_le_left .., rfl, ?_⟩
    · omega
    · omega

/-- From nothing the size is doubled twice to hold 3 bytes. A size just above half of all words is
doubled once, to the largest word. Doubling 600 once is cut to the maximum of 1024, beyond which
nothing is answered. -/
theorem doubling_least_saturated :
    ((doubling 1024).ask 0 3).1 = some 4 ∧
    ((doubling (2 ^ 64 - 1)).ask (2 ^ 63 + 1) (2 ^ 64 - 2)).1 = some (2 ^ 64 - 1) ∧
    Doubles (2 ^ 64 - 2) (2 ^ 63 + 1) 1 (2 ^ 64 - 1) ∧
    ((doubling 1024).ask 600 700).1 = some 1024 ∧
    ((doubling 1024).ask 600 1025).1 = none := by
  have capped (current requested : Nat) (small : current < addressSpace) :=
    @doubling_least 1024 current requested (by decide) small []
  have twice : IsLeast {k | 3 ≤ 1 * 2 ^ k} 2 :=
    isLeast_doubling_succ (by decide) (isLeast_doubling_succ (by decide)
      (isLeast_doubling_zero (by decide)))
  have once : IsLeast {k | 2 ^ 64 - 2 ≤ (2 ^ 63 + 1) * 2 ^ k} 1 :=
    isLeast_doubling_succ (by decide) (isLeast_doubling_zero (by decide))
  have again : IsLeast {k | 700 ≤ 600 * 2 ^ k} 1 :=
    isLeast_doubling_succ (by decide) (isLeast_doubling_zero (by decide))
  obtain ⟨k, -, least, -, -, four, -, -, rfl, -⟩ := (capped 0 3 (by decide)).2 (by decide)
  obtain rfl := least.unique twice
  obtain ⟨k, -, least, -, rounds, largest, -, -, rfl, -⟩ :=
    (@doubling_least (2 ^ 64 - 1) (2 ^ 63 + 1) (2 ^ 64 - 2) (by decide) (by decide) []).2
      (by decide)
  obtain rfl := least.unique once
  obtain ⟨k, -, least, -, -, whole, -, -, rfl, -⟩ := (capped 600 700 (by decide)).2 (by decide)
  obtain rfl := least.unique again
  exact ⟨four, largest, rounds, whole, (capped 600 1025 (by decide)).1.mpr (by decide)⟩

end Grower

end LinearHost
