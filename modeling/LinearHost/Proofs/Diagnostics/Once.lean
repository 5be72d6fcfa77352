import LinearHost.Diagnostics.Basic

/-!
# Entries that appear once

## Main definitions

* `Sink.noted`: what is noted in the journal about an entry.
* `Diagnostics.addOnce`: the diagnostics after an entry that is to appear only once.
* `Diagnostics.push_apply`, `Diagnostics.pushOnce_apply`: recording never fails.
-/

namespace LinearHost

def Sink.noted (entry : Diagnostic) : Sink → List Event
  | journal => [.reported entry]
  | recorder _ => []

namespace Diagnostics

/-- Whichever sink an entry is passed on to, it is kept. -/
theorem push_apply (entry : Diagnostic) (d : Diagnostics) :
    push entry d = ⟨.ok (), d.add entry, d.sink.noted entry⟩ := by
  cases sink : d.sink <;> simp [push, Action.bind_apply, sink, Sink.noted]

/-- An entry is added unless its message has been seen. -/
def addOnce (d : Diagnostics) (entry : Diagnostic) : Diagnostics :=
  if entry.message ∈ d.seen then d else { d with seen := d.seen ++ [entry.message] }.add entry

/-- A report is dropped if its message has been seen, and answers whether it was new. -/
theorem pushOnce_apply (entry : Diagnostic) (d : Diagnostics) :
    pushOnce entry d =
      ⟨.ok (entry.message ∉ d.seen), d.addOnce entry,
        if entry.message ∈ d.seen then [] else d.sink.noted entry⟩ := by
  by_cases known : entry.message ∈ d.seen
  · rw [pushOnce, Action.get_bind_apply, if_pos (List.contains_iff_mem.mpr known), addOnce,
      if_pos known]
    simp [known]
  · rw [pushOnce, Action.get_bind_apply, if_neg (mt List.contains_iff_mem.mp known), addOnce,
      if_neg known]
    simp [Action.bind_apply, push_apply, known]

end Diagnostics

end LinearHost
