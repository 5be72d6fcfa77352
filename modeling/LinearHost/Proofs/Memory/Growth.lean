import LinearHost.Memory.Image.Lemmas
import LinearHost.Proofs.Along
import LinearHost.Proofs.Memory.WellFormed

/-!
# Growth

A memory is meant to grow at its end only. Growth of the static region does that. Growth of the stack
does not: the image takes whatever size the grower answers, which may be less than it has, and the
stack then reaches over the static region. An allocation extends the memory exactly if it does not
let the stack grow, or if the size stays the same and the static region has no byte.

## Main definitions

* `Memory.Extends`: what an allocation is meant to leave behind.
* `Memory.alloc_extends_iff`: when one allocation does so.
* `Memory.allocs_extend_iff`: when all allocations of a run do so.
-/

namespace LinearHost.Memory

variable {m after room : Memory} {op : Operation} {policy : Policy} {size alignment : Nat}

/-- The image has not become smaller, cells beside the block that was answered, which ends at the new
top of its region, are as they were, and the regions lie in the image one after the other. -/
structure Extends (m : Memory) (policy : Policy) (result : Except Fault Nat) (after : Memory) :
    Prop where
  size_le : m.size ≤ after.size
  kept : ∀ address, address < m.size →
    (∀ start, result = .ok start → address < start ∨ (after.region policy.region).top ≤ address) →
      after.image.cell? address = m.image.cell? address
  separate : after.stack.limit ≤ after.statics.base
  inside : ∀ kind, (after.region kind).limit ≤ after.size

/-! ### One allocation -/

/-- Where the memory grows for a block, it takes the size that `growth?` tells. -/
theorem Reserved.size_of_growth? {result : Except Fault Nat} {grown : Nat}
    (reserved : Reserved m policy size alignment result room)
    (grows : m.growth? policy size alignment = some grown) :
    room.size = grown ∧ room.statics.base = m.statics.base ∧
      (room.region policy.region).limit = grown := by
  obtain ⟨growable, full, needed, stop, le_cap, granted⟩ := growth?_eq_some.mp grows
  cases reserved with
  | fits fit =>
    rw [fit] at full
    cases full
  | @grown found after _ _ found_stop _ found_granted =>
    obtain rfl : found = needed := Option.some.inj (found_stop.symm.trans stop)
    obtain rfl : after = grown := Option.some.inj (found_granted.symm.trans granted)
    refine ⟨by simp, ?_, by simp⟩
    cases policy.region <;> rfl
  | exhausted _ unasked =>
    have beyond := unasked growable needed stop
    omega
  | @refused found _ _ found_stop _ refused =>
    obtain rfl : found = needed := Option.some.inj (found_stop.symm.trans stop)
    rw [refused] at granted
    cases granted

/-- Room for a block is made at the end of the memory, of blank cells. -/
theorem Reserved.extended {result : Except Fault Nat} (sound : m.WellFormed)
    (idle : m.IdleGrowth policy size alignment)
    (reserved : Reserved m policy size alignment result room) :
    m.size ≤ room.size ∧ ∀ address, room.image.cell? address =
      if address < m.size then m.image.cell? address
      else if address < room.size then some .blank else none := by
  have same (address : Nat) : m.image.cell? address =
      if address < m.size then m.image.cell? address
      else if address < m.size then some .blank else none := by
    split
    · rfl
    next outside => exact Image.cell?_eq_none_iff.mpr (Nat.le_of_not_lt outside)
  cases reserved with
  | @grown needed after full growable stop le_cap granted =>
    have enough := (needed_le_of_grownSize? le_cap granted).1
    have size_le : m.size ≤ after := by
      cases kind : policy.region with
      | stack =>
        obtain ⟨same, -⟩ := idle kind after
          (growth?_eq_some.mpr ⟨growable, full, needed, stop, le_cap, granted⟩)
        omega
      | static =>
        have beyond := Region.limit_lt_of_topAfter? full stop
        rw [kind] at beyond
        have statics_limit := sound.statics_limit
        have beyond : m.statics.limit < needed := beyond
        omega
    rw [size_resized, resized, image_modifyRegion]
    refine ⟨size_le, fun address => (Image.cell?_resize after).trans ?_⟩
    show (if address < after then if address < m.size then m.image.cell? address else _ else _) = _
    by_cases inside : address < m.size
    · rw [if_pos (Nat.lt_of_lt_of_le inside size_le), if_pos inside, if_pos inside]
    · rw [if_neg inside, if_neg inside]
  | _ => exact ⟨Nat.le_refl _, same⟩

/-- Idle growth keeps every cell that was there. -/
theorem Reserved.image_kept {result : Except Fault Nat} (sound : m.WellFormed)
    (idle : m.IdleGrowth policy size alignment)
    (reserved : Reserved m policy size alignment result room) :
    m.size ≤ room.size ∧
      ∀ address, address < m.size → room.image.cell? address = m.image.cell? address := by
  obtain ⟨size_le, cells⟩ := reserved.extended sound idle
  exact ⟨size_le, fun address inside => (cells address).trans (if_pos inside)⟩

theorem Allocated.wellFormed {result : Except Fault Nat} (sound : m.WellFormed)
    (idle : m.IdleGrowth policy size (m.effectiveAlignment alignment))
    (allocated : Allocated m policy size alignment result after) : after.WellFormed := by
  cases allocated with
  | @taken room top reserved inside =>
    have orderly : (room.claim policy top).Orderly :=
      (reserved.orderly_withTop sound.toOrderly).congr rfl rfl rfl
    exact (reserved.wellFormed sound idle).congr orderly (by simp) (by simp) (by simp)
  | escaped reserved outside =>
    rw [reserved.hasWindow sound] at outside
    cases outside
  | failed reserved => exact reserved.wellFormed sound idle

/-- Only cells of the block are changed when it is handed out. -/
theorem cell?_claim (m : Memory) (policy : Policy) {top address : Nat}
    (beside : address < (m.region policy.region).top ∨ top ≤ address) :
    (m.claim policy top).image.cell? address = m.image.cell? address := by
  have beside : ¬ ((m.region policy.region).top ≤ address ∧ address < top) := by omega
  exact Image.cell?_update.trans (if_neg beside)

@[simp] theorem top_claim (m : Memory) (policy : Policy) (top : Nat) :
    ((m.claim policy top).region policy.region).top = top := by
  cases kind : policy.region <;> simp [claim, region, modifyRegion, kind]

theorem Allocated.extends {result : Except Fault Nat} (sound : m.WellFormed)
    (idle : m.IdleGrowth policy size (m.effectiveAlignment alignment))
    (allocated : Allocated m policy size alignment result after) :
    Extends m policy result after := by
  have afterSound := allocated.wellFormed sound idle
  suffices extended : m.size ≤ after.size ∧ ∀ address, address < m.size →
      (∀ start, result = .ok start →
        address < start ∨ (after.region policy.region).top ≤ address) →
      after.image.cell? address = m.image.cell? address from
    ⟨extended.1, extended.2, afterSound.separate, afterSound.limit_le_size⟩
  cases allocated with
  | @taken room top reserved inside =>
    obtain ⟨size_le, same⟩ := reserved.image_kept sound idle
    refine ⟨by simpa using size_le, fun address lt_size beside => ?_⟩
    have beside := beside _ rfl
    rw [top_claim, ← reserved.top_region] at beside
    exact (cell?_claim room policy beside).trans (same address lt_size)
  | escaped reserved outside =>
    rw [reserved.hasWindow sound] at outside
    cases outside
  | failed reserved =>
    obtain ⟨size_le, same⟩ := reserved.image_kept sound idle
    exact ⟨size_le, fun address lt_size _ => same address lt_size⟩

/-- The size and the end of the stack are those of the memory in which room was found. -/
theorem Allocated.found_room {result : Except Fault Nat}
    (allocated : Allocated m policy size alignment result after) :
    ∃ found room, Reserved m policy size (m.effectiveAlignment alignment) found room ∧
      after.size = room.size ∧ after.stack.limit = room.stack.limit ∧
      after.statics.base = room.statics.base := by
  cases allocated with
  | @taken room top reserved inside =>
    refine ⟨_, room, reserved, size_claim .., ?_⟩
    cases kind : policy.region <;> simp [claim, modifyRegion, kind]
  | @escaped room top reserved outside =>
    refine ⟨_, room, reserved, size_modifyRegion .., ?_⟩
    cases kind : policy.region <;> simp [modifyRegion]
  | failed reserved => exact ⟨_, _, reserved, rfl, rfl, rfl⟩

/-- An allocation extends the memory exactly if the stack grows idly for it, or not at all. -/
theorem alloc_extends_iff (sound : m.WellFormed) :
    Extends m policy (alloc policy size alignment m).result (alloc policy size alignment m).state ↔
      m.IdleGrowth policy size (m.effectiveAlignment alignment) := by
  have allocated := alloc_cases m policy size alignment
  constructor
  · intro extended stack grown grows
    obtain ⟨found, room, reserved, size_eq, limit_eq, base_eq⟩ := allocated.found_room
    obtain ⟨room_size, room_base, room_limit⟩ := reserved.size_of_growth? grows
    rw [stack] at room_limit
    have size_le := extended.size_le
    have separate := extended.separate
    have room_limit : room.stack.limit = grown := room_limit
    have statics : m.statics.Ordered := sound.ordered .static
    have base_le_top := statics.base_le_top
    have top_le_limit := statics.top_le_limit
    have statics_limit := sound.statics_limit
    omega
  · intro idle
    exact allocated.extends sound idle

/-! ### Runs -/

def AllocExtends (m : Memory) (op : Operation) : Prop :=
  ∀ policy size alignment, op = .alloc policy size alignment →
    Extends m policy (alloc policy size alignment m).result (alloc policy size alignment m).state

/-- No allocation under a policy lets the stack grow, other than idly. -/
def AllocIdle (m : Memory) (op : Operation) : Prop :=
  ∀ policy size alignment, op = .alloc policy size alignment →
    m.IdleGrowth policy size (m.effectiveAlignment alignment)

/-- Allocations extend a memory exactly if they do not let the stack grow, other than idly. -/
theorem allocExtends_iff (sound : m.WellFormed) (op : Operation) :
    AllocExtends m op ↔ AllocIdle m op := by
  constructor
  · intro extended policy size alignment same
    exact (alloc_extends_iff sound).mp (extended policy size alignment same)
  · intro idle policy size alignment same
    exact (alloc_extends_iff sound).mpr (idle policy size alignment same)

theorem WellFormed.step_of_idle (sound : m.WellFormed) (op : Operation) (idle : AllocIdle m op) :
    (next m op).WellFormed := by
  cases kind : op.growsStack with
  | false => exact (wellFormed_next sound kind).1
  | true =>
    unfold next
    cases op with
    | alloc policy size alignment =>
      have allocated := alloc_cases m policy size alignment
      simpa [step] using allocated.wellFormed sound (idle policy size alignment rfl)
    | _ => cases kind

/-- From the memory that settings describe, all allocations of a run extend the memory exactly if
none of them is granted growth of the stack, other than to the size that the memory has when the
static region holds no byte. -/
theorem allocs_extend_iff {c : Config} {grower : Grower} {start : Memory}
    (created : create c grower = .ok start) (ops : List Operation) :
    Along next AllocExtends ops start ↔ Along next AllocIdle ops start := by
  obtain ⟨valid, rfl⟩ := create_eq_ok.mp created
  have agree (m : Memory) (op : Operation) (sound : m.WellFormed) :
      AllocExtends m op ↔ AllocIdle m op := allocExtends_iff sound op
  have kept (m : Memory) (op : Operation) (sound : m.WellFormed) (idle : AllocIdle m op) :
      (next m op).WellFormed := sound.step_of_idle op idle
  exact along_congr agree kept ops (ofLayout_wellFormed valid grower)

/-- A block of the stack that fits and a static one that the memory grows for extend the memory. -/
theorem allocs_extend_statics :
    ∃ start,
      create { memory := ⟨64, 512, 1024⟩ } (.doubling 1024) = .ok start ∧
      Along next AllocExtends [.alloc ⟨.stack, false, true⟩ 16 0, .alloc .static 600 0] start := by
  refine ⟨_, create_of_validate rfl _, ?_⟩
  refine (allocs_extend_iff
    (create_of_validate (c := { memory := ⟨64, 512, 1024⟩ }) rfl (.doubling 1024)) _).mpr ?_
  refine ⟨?_, ?_, trivial⟩
  · rintro policy size alignment same - after grows
    cases same
    have grows : none = some after := grows
    cases grows
  · rintro policy size alignment same stack
    cases same
    cases stack

/-- A stack that is granted growth to a size below the present one cuts off the end of the memory and
reaches over the start of the static region. -/
theorem alloc_stack_shrinks :
    ∃ start,
      create { memory := ⟨64, 512, 1024⟩ } { policy := fun _ _ requested => some requested } =
        .ok start ∧
      let outcome := alloc ⟨.stack, false, true⟩ 100 0 start
      outcome.result = .ok 8 ∧ start.size = 512 ∧ outcome.state.size = 108 ∧
      outcome.state.stack.limit = 108 ∧ outcome.state.statics.base = 72 ∧
      outcome.state.statics.limit = 512 ∧
      ¬ Extends start ⟨.stack, false, true⟩ outcome.result outcome.state := by
  refine ⟨_, create_of_validate rfl _, rfl, rfl, rfl, rfl, rfl, rfl, fun extended => ?_⟩
  exact absurd extended.size_le (by decide)

/-! ### Operations that let nothing grow -/

/-- Room for a block is found in the memory as it is. -/
theorem Reserved.room_eq {result : Except Fault Nat} (fixed : policy.growable = false)
    (reserved : Reserved m policy size alignment result room) : room = m := by
  cases reserved with
  | fits fit => rfl
  | exhausted full unasked => rfl
  | grown full growable => simp [fixed] at growable
  | refused full growable => simp [fixed] at growable

/-- The size of the memory only changes under a policy that lets it grow. -/
theorem Change.size_eq {result : Except Fault Answer}
    (fixed : ∀ policy, op.policy? = some policy → policy.growable = false)
    (change : Change m op result after) : after.size = m.size := by
  cases change with
  | taken uses reserved inside =>
    obtain rfl := reserved.room_eq (fixed _ uses)
    exact size_claim ..
  | escaped uses reserved outside =>
    obtain rfl := reserved.room_eq (fixed _ uses)
    exact size_modifyRegion ..
  | rejected fit inside asserted => exact Image.size_update ..
  | filled fit inside => exact size_claim ..
  | closed innermost inside => exact size_released ..
  | placed inside => exact Image.size_overwrite ..
  | _ => rfl

theorem Orderly.size_next (orderly : m.Orderly)
    (fixed : ∀ policy, op.policy? = some policy → policy.growable = false) :
    (Memory.next m op).size = m.size :=
  (step_change m orderly op).size_eq fixed

/-! ### Operations that let only the static region grow -/

/-- A memory never becomes smaller unless its stack grows. -/
theorem Change.size_le {result : Except Fault Answer} (sound : m.WellFormed)
    (fixed : op.growsStack = false) (change : Change m op result after) : m.size ≤ after.size := by
  cases change with
  | taken uses reserved inside =>
    have fixed := Operation.growable_of_growsStack fixed uses
    rw [size_claim]
    exact (reserved.image_kept sound (idleGrowth_of_growable fixed)).1
  | escaped uses reserved outside =>
    rw [reserved.hasWindow sound] at outside
    cases outside
  | rejected fit inside asserted => exact Nat.le_of_eq (Image.size_update ..).symm
  | filled fit inside => exact Nat.le_of_eq (size_claim ..).symm
  | closed innermost inside => exact Nat.le_of_eq (size_released ..).symm
  | placed inside => exact Nat.le_of_eq (Image.size_overwrite ..).symm
  | _ => exact Nat.le_refl _

/-- The memory never becomes smaller. -/
theorem WellFormed.size_le_next (sound : m.WellFormed) (fixed : op.growsStack = false) :
    m.size ≤ (Memory.next m op).size :=
  (step_change m sound.toOrderly op).size_le sound fixed

end LinearHost.Memory
