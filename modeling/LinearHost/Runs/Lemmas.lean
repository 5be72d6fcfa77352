import LinearHost.Runs.Basic

/-!
# Lemmas about runs

Each operation on a sequence of runs is described by what it does to the elements, and sequences
with the same elements are equal.
-/

namespace LinearHost

namespace Run

variable {α β : Type} {r : Run α} {runs before after : List (Run α)}

@[simp] theorem expand_nil : expand ([] : List (Run α)) = [] := rfl

@[simp] theorem expand_cons :
    expand (r :: runs) = List.replicate r.count r.value ++ expand runs := rfl

@[simp] theorem expand_append : expand (before ++ after) = expand before ++ expand after := by
  simp [expand]

theorem expand_map (f : α → β) :
    expand (runs.map fun r => ⟨f r.value, r.count⟩) = (expand runs).map f := by
  induction runs with
  | nil => rfl
  | cons r rest ih => simp [ih]

theorem expand_units (xs : List α) : expand (xs.map (⟨·, 1⟩)) = xs := by
  induction xs with
  | nil => rfl
  | cons x rest ih => simp [ih]

/-! ### Positions -/

theorem foldl_count (n : Nat) :
    runs.foldl (fun n r => n + r.count) n = n + (expand runs).length := by
  induction runs generalizing n with
  | nil => rfl
  | cons r rest ih => simp [ih, Nat.add_assoc]

theorem expand_takeOnto (n : Nat) (taken : List (Run α)) :
    expand (takeOnto n taken runs).reverse = expand taken.reverse ++ (expand runs).take n := by
  fun_induction takeOnto n taken runs with
  | case1 => simp
  | case2 n taken r rest h =>
    simp [List.take_append, Nat.min_eq_left h, Nat.sub_eq_zero_of_le h]
  | case3 n taken r rest h ih =>
    simp [ih, List.take_append, Nat.min_eq_right (Nat.le_of_not_le h)]

theorem expand_drop (n : Nat) : expand (drop n runs) = (expand runs).drop n := by
  fun_induction drop n runs with
  | case1 => simp
  | case2 n r rest h => simp [List.drop_append, Nat.sub_eq_zero_of_le (Nat.le_of_lt h)]
  | case3 n r rest h ih =>
    simp [ih, List.drop_append, Nat.sub_eq_zero_of_le (Nat.le_of_not_lt h)]

theorem get?_eq (n : Nat) : get? runs n = (expand runs)[n]? := by
  fun_induction get? runs n <;> grind [expand_nil, expand_cons]

theorem findIdxFrom?_eq (p : α → Bool) (passed : Nat) :
    findIdxFrom? p passed runs = ((expand runs).findIdx? p).map (passed + ·) := by
  induction runs generalizing passed with
  | nil => rfl
  | cons r rest ih =>
    rw [findIdxFrom?, ih, expand_cons, List.findIdx?_append, List.findIdx?_replicate]
    by_cases hp : p r.value <;> by_cases hc : 0 < r.count <;>
      simp [hp, hc, Function.comp_def, Nat.add_comm, Nat.add_left_comm]

/-! ### Tight lists -/

variable [DecidableEq α]

theorem expand_push : expand (r.push runs) = List.replicate r.count r.value ++ expand runs := by
  cases runs <;> grind [push, expand_nil, expand_cons, List.replicate_append_replicate]

theorem expand_gather : expand (gather before after) = expand before.reverse ++ expand after := by
  induction before generalizing after with
  | nil => rfl
  | cons r rest ih => simp [gather] at ih ⊢; simp [ih, expand_push]

theorem gather_append (others : List (Run α)) :
    gather (before ++ others) after = gather others (gather before after) := by
  simp [gather]

theorem push_of_tight (h : Tight (r :: runs)) : r.push runs = r :: runs := by
  cases runs <;> grind [push, Tight]

/-- Pushing a value one by one is pushing its run. -/
theorem gather_replicate (n : Nat) (a : α) :
    gather (List.replicate n ⟨a, 1⟩) runs = push ⟨a, n⟩ runs := by
  induction n generalizing runs with
  | zero => simp [gather, push]
  | succ n ih =>
    simp only [gather, List.replicate_succ, List.foldl_cons] at ih ⊢
    rw [ih]
    cases runs <;> grind [push]

theorem gather_expand (h : Tight runs) :
    gather ((expand runs).map (⟨·, 1⟩)).reverse [] = runs := by
  induction runs with
  | nil => rfl
  | cons r rest ih =>
    have ih := ih (tight_of_cons h)
    rw [expand_cons, List.map_append, List.reverse_append, gather_append, ih, List.map_replicate,
      List.reverse_replicate, gather_replicate, push_of_tight h]

end Run

namespace Runs

variable {α β : Type} {xs ys : Runs α}

@[simp] theorem length_toList : xs.toList.length = xs.length := by
  simp [length, toList, Run.foldl_count]

theorem get?_eq (n : Nat) : xs.get? n = xs.toList[n]? :=
  Run.get?_eq n

theorem findIdx?_eq (p : α → Bool) : xs.findIdx? p = xs.toList.findIdx? p := by
  simp [findIdx?, Run.findIdxFrom?_eq, toList]

@[simp] theorem toList_drop (n : Nat) : (xs.drop n).toList = xs.toList.drop n :=
  Run.expand_drop n

theorem toList_ofReverse [DecidableEq α] (runs : List (Run α)) :
    (ofReverse runs).toList = Run.expand runs.reverse := by
  simp [ofReverse, toList, Run.expand_gather]

@[simp] theorem toList_map [DecidableEq β] (f : α → β) : (xs.map f).toList = xs.toList.map f := by
  rw [map, toList_ofReverse, List.reverse_reverse, Run.expand_map, toList]

variable [DecidableEq α]

@[simp] theorem toList_ofList (as : List α) : (ofList as).toList = as := by
  rw [ofList, toList_ofReverse, List.reverse_reverse, Run.expand_units]

@[simp] theorem ofList_toList (xs : Runs α) : ofList xs.toList = xs := by
  cases xs with
  | mk runs tight => simp only [ofList, ofReverse, toList, Run.gather_expand tight]

theorem ext_toList (h : xs.toList = ys.toList) : xs = ys := by
  rw [← ofList_toList xs, h, ofList_toList]

@[simp] theorem toList_replicate (n : Nat) (a : α) :
    (replicate n a).toList = List.replicate n a := by
  simp [replicate, toList_ofReverse]

@[simp] theorem toList_take (n : Nat) : (xs.take n).toList = xs.toList.take n := by
  rw [take, toList_ofReverse, Run.expand_takeOnto, toList]
  rfl

@[simp] theorem toList_splice (start : Nat) :
    (xs.splice start ys).toList =
      xs.toList.take start ++ ys.toList ++ xs.toList.drop (start + ys.length) := by
  simp [splice, toList, Run.expand_gather, Run.expand_takeOnto, Run.expand_drop]

@[simp] theorem length_ofList (as : List α) : (ofList as).length = as.length := by
  rw [← length_toList, toList_ofList]

@[simp] theorem length_replicate (n : Nat) (a : α) : (replicate n a).length = n := by
  rw [← length_toList, toList_replicate, List.length_replicate]

end Runs

end LinearHost
