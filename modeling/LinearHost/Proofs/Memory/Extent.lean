import LinearHost.Proofs.Memory.WellFormed

/-!
# How far a memory extends

No operation lets a memory grow beyond its cap, not even a policy that lets the stack grow. So if
the cap is an address, every byte of the memory has one, and a range is in bounds exactly if it ends
within the memory.

## Main definitions

* `Memory.Capped`: the size has not come to exceed the cap.
* `Memory.size_reached_lt`, `Memory.inBounds_iff_of_small`: bytes with addresses, ranges in bounds.
-/

namespace LinearHost.Memory

variable {m after room : Memory} {op : Operation} {policy : Policy} {size alignment : Nat}

/-- The tops lie in their regions, and the image has not grown beyond the cap. -/
structure Capped (m : Memory) : Prop extends Orderly m where
  size_le_cap : m.size ≤ m.cap

theorem Reserved.size_le_cap {result : Except Fault Nat} (capped : m.Capped)
    (reserved : Reserved m policy size alignment result room) : room.size ≤ m.cap := by
  cases reserved with
  | grown full growable stop le_cap granted =>
    rw [size_resized]
    exact (needed_le_of_grownSize? le_cap granted).2
  | _ => exact capped.size_le_cap

/-- No change lets the image exceed the cap. -/
theorem Change.size_le_cap {result : Except Fault Answer} (capped : m.Capped)
    (change : Change m op result after) : after.size ≤ m.cap := by
  have kept := capped.size_le_cap
  cases change with
  | taken uses reserved inside =>
    rw [size_claim]
    exact reserved.size_le_cap capped
  | escaped uses reserved outside =>
    rw [size_modifyRegion]
    exact reserved.size_le_cap capped
  | rejected fit inside asserted => exact Nat.le_trans (Nat.le_of_eq (Image.size_update ..)) kept
  | filled fit inside => exact Nat.le_trans (Nat.le_of_eq (size_claim ..)) kept
  | closed innermost inside => exact Nat.le_trans (Nat.le_of_eq (size_released ..)) kept
  | placed inside => exact Nat.le_trans (Nat.le_of_eq (Image.size_overwrite ..)) kept
  | _ => exact kept

theorem Capped.cap_next (capped : m.Capped) (op : Operation) : (next m op).cap = m.cap :=
  congrArg Settings.cap (capped.toOrderly.settings_next op)

theorem Capped.next (capped : m.Capped) (op : Operation) : (next m op).Capped := by
  have change := step_change m capped.toOrderly op
  exact ⟨change.orderly capped.toOrderly, capped.cap_next op ▸ change.size_le_cap capped⟩

/-- The image stays within the cap along every run, whatever the policies. -/
theorem Capped.reached (capped : m.Capped) (ops : List Operation) : (reached ops m).Capped :=
  reached_induction (fun _ => True) Capped (fun _ op capped _ => capped.next op)
    (fun _ _ => trivial) capped

theorem capped_of_create {c : Config} {grower : Grower} {start : Memory}
    (created : create c grower = .ok start) : start.Capped ∧ start.cap = c.memory.cap := by
  obtain ⟨valid, rfl⟩ := create_eq_ok.mp created
  have sound := ofLayout_wellFormed valid grower
  exact ⟨⟨sound.toOrderly, sound.size_le_cap⟩, rfl⟩

/-- Every byte of a memory whose cap is an address has an address. -/
theorem size_reached_lt {c : Config} {grower : Grower} {start : Memory}
    (created : create c grower = .ok start) (small : c.memory.cap < addressSpace)
    (ops : List Operation) : (Memory.reached ops start).size < addressSpace := by
  obtain ⟨capped, cap⟩ := capped_of_create created
  have kept : (Memory.reached ops start).cap = start.cap :=
    congrArg Settings.cap (capped.toOrderly.settings_reached ops)
  have size_le := (capped.reached ops).size_le_cap
  omega

/-- In a memory every byte of which has an address, a range is in bounds if it ends in the memory.
-/
theorem inBounds_iff_of_small (small : m.size < addressSpace) {address : Nat} :
    m.inBounds address size = true ↔ address + size ≤ m.size := by
  rw [inBounds_iff]
  omega

end LinearHost.Memory
