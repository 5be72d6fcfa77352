import LinearHost.Memory.Alloc
import LinearHost.Proofs.Arithmetic.Alignment

/-!
# What an allocation can do

An allocation either fits at once, or fits after the memory grew, or fails; a failure changes
nothing but the grower. The relations below list these cases with their conditions, so that a proof
about allocations goes through the cases and never looks into the program.

## Main definitions

* `Memory.Reserved`, `Memory.reserve_cases`: how room for a block is found.
* `Memory.Allocated`, `Memory.alloc_cases`: what becomes of an allocation under a policy.
* `Memory.StackAllocated`, `Memory.stackAlloc_cases`: the same for a block of the stack, which may
  be given back.
-/

namespace LinearHost

namespace Region

variable {r : Region} {size alignment top : Nat}

structure Ordered (r : Region) : Prop where
  base_le_top : r.base ≤ r.top
  top_le_limit : r.top ≤ r.limit

/-- A block ends at the aligned end of its bytes, if that end is a word before it is aligned. -/
theorem blockStop?_eq_some :
    r.blockStop? size alignment = some top ↔
      r.top + size < addressSpace ∧ alignUp (r.top + size) alignment = top := by
  simp only [blockStop?, blockEnd?]
  split <;> simp [*]

theorem top_add_le_of_blockStop? (stop : r.blockStop? size alignment = some top) :
    r.top + size ≤ top := by
  obtain ⟨-, rfl⟩ := blockStop?_eq_some.mp stop
  exact le_alignUp _ _

/-- A block fits if it ends within the limit. -/
theorem topAfter?_eq_some :
    r.topAfter? size alignment = some top ↔
      r.blockStop? size alignment = some top ∧ top ≤ r.limit := by
  simp [topAfter?, Option.filter_eq_some_iff]

/-- A block that does not fit ends beyond the limit. -/
theorem limit_lt_of_topAfter? (full : r.topAfter? size alignment = none)
    (stop : r.blockStop? size alignment = some top) : r.limit < top := by
  have unfit : ¬ top ≤ r.limit := fun fits => by
    simp [topAfter?_eq_some.mpr ⟨stop, fits⟩] at full
  omega

end Region

namespace Memory

def offer (m : Memory) (needed : Nat) : Option Nat := (m.grower.ask m.size needed).1

def asked (m : Memory) (needed : Nat) : Memory :=
  { m with grower := (m.grower.ask m.size needed).2 }

/-- The size that the memory takes if it grows for a block, or `none` if it does not grow. -/
def growth? (m : Memory) (policy : Policy) (size alignment : Nat) : Option Nat :=
  if policy.growable && ((m.region policy.region).topAfter? size alignment).isNone then
    ((m.region policy.region).blockStop? size alignment).bind fun needed =>
      if needed ≤ m.cap then m.grownSize? needed (m.offer needed) else none
  else none

def claim (m : Memory) (policy : Policy) (top : Nat) : Memory :=
  { m.modifyRegion policy.region fun r => { r with top } with
    image := claimed m.image (m.region policy.region).top top policy.zeroFill }

/-- How room is found for a block of the policy's region. -/
inductive Reserved (m : Memory) (policy : Policy) (size alignment : Nat) :
    Except Fault Nat → Memory → Prop where
  | fits {top : Nat} (fit : (m.region policy.region).topAfter? size alignment = some top) :
      Reserved m policy size alignment (.ok top) m
  | grown {needed after : Nat}
      (full : (m.region policy.region).topAfter? size alignment = none)
      (growable : policy.growable = true)
      (stop : (m.region policy.region).blockStop? size alignment = some needed)
      (le_cap : needed ≤ m.cap)
      (granted : m.grownSize? needed (m.offer needed) = some after) :
      Reserved m policy size alignment (.ok needed) ((m.asked needed).resized policy.region after)
  | exhausted
      (full : (m.region policy.region).topAfter? size alignment = none)
      (unasked : policy.growable = true →
        ∀ needed, (m.region policy.region).blockStop? size alignment = some needed → m.cap < needed) :
      Reserved m policy size alignment (.error ((m.region policy.region).exhausted size)) m
  | refused {needed : Nat}
      (full : (m.region policy.region).topAfter? size alignment = none)
      (growable : policy.growable = true)
      (stop : (m.region policy.region).blockStop? size alignment = some needed)
      (le_cap : needed ≤ m.cap)
      (refused : m.grownSize? needed (m.offer needed) = none) :
      Reserved m policy size alignment (.error ((m.region policy.region).exhausted size))
        (m.asked needed)

inductive Allocated (m : Memory) (policy : Policy) (size alignment : Nat) :
    Except Fault Nat → Memory → Prop where
  | taken {room : Memory} {top : Nat}
      (reserved : Reserved m policy size (m.effectiveAlignment alignment) (.ok top) room)
      (inside : room.hasWindow (m.region policy.region).top top = true) :
      Allocated m policy size alignment (.ok (m.region policy.region).top) (room.claim policy top)
  | escaped {room : Memory} {top : Nat}
      (reserved : Reserved m policy size (m.effectiveAlignment alignment) (.ok top) room)
      (outside : room.hasWindow (m.region policy.region).top top = false) :
      Allocated m policy size alignment
        (.error (.outsideImage (m.region policy.region).top top room.size))
        (room.modifyRegion policy.region fun r => { r with top })
  | failed {room : Memory} {fault : Fault}
      (reserved : Reserved m policy size (m.effectiveAlignment alignment) (.error fault) room) :
      Allocated m policy size alignment (.error fault) room

inductive StackAllocated (m : Memory) (size : Nat) : Except Fault Nat → Memory → Prop where
  | taken {top : Nat} (fit : m.stack.topAfter? size m.quantum.bytes = some top)
      (inside : m.hasWindow m.stack.top top = true)
      (free : m.checks.assertions = true → top < m.stack.limit) :
      StackAllocated m size (.ok m.stack.top) (m.claim .stack top)
  /-- The block used up the stack and is given back, but its cells stay live. -/
  | rejected (fit : m.stack.topAfter? size m.quantum.bytes = some m.stack.limit)
      (inside : m.hasWindow m.stack.top m.stack.limit = true)
      (asserted : m.checks.assertions = true) :
      StackAllocated m size
        (.error (.assertion (.stackExhausted m.stack.limit m.stack.limit)))
        { m with image := claimed m.image m.stack.top m.stack.limit false }
  | escaped {top : Nat} (fit : m.stack.topAfter? size m.quantum.bytes = some top)
      (outside : m.hasWindow m.stack.top top = false) :
      StackAllocated m size (.error (.outsideImage m.stack.top top m.size))
        { m with stack := { m.stack with top } }
  | exhausted (full : m.stack.topAfter? size m.quantum.bytes = none) :
      StackAllocated m size (.error (m.stack.exhausted size)) m

variable {m room : Memory} {policy : Policy} {size alignment needed after top : Nat}

/-- Growth takes what is given if that is enough, up to the cap. -/
theorem grownSize?_eq_some {offered : Option Nat} :
    m.grownSize? needed offered = some after ↔
      ∃ given, offered = some given ∧ needed ≤ given ∧ min given m.cap = after := by
  simp [grownSize?, Option.filter_eq_some_iff, and_assoc]

/-- A memory that grows for a block grows far enough, and not beyond the cap. -/
theorem needed_le_of_grownSize? (le_cap : needed ≤ m.cap) {offered : Option Nat}
    (granted : m.grownSize? needed offered = some after) : needed ≤ after ∧ after ≤ m.cap := by
  obtain ⟨given, -, enough, rfl⟩ := grownSize?_eq_some.mp granted
  omega

theorem growth?_eq_some :
    m.growth? policy size alignment = some after ↔
      policy.growable = true ∧ (m.region policy.region).topAfter? size alignment = none ∧
        ∃ needed, (m.region policy.region).blockStop? size alignment = some needed ∧
          needed ≤ m.cap ∧ m.grownSize? needed (m.offer needed) = some after := by
  simp [growth?, Option.bind_eq_some_iff, and_assoc]

/-- Under a policy that is not growable the memory does not grow. -/
theorem growth?_of_growable (fixed : policy.growable = false) :
    m.growth? policy size alignment = none := by
  simp [growth?, fixed]

@[simp] theorem region_resized (kind : RegionKind) :
    (m.resized kind after).region kind = { m.region kind with limit := after } := by
  cases kind <;> rfl

@[simp] theorem region_asked (kind : RegionKind) : (m.asked needed).region kind = m.region kind := by
  cases kind <;> rfl

theorem fit_apply (m : Memory) (kind : RegionKind) (size alignment : Nat) :
    fit kind size alignment m =
      match (m.region kind).topAfter? size alignment with
      | some top => ⟨.ok top, m, []⟩
      | none => ⟨.error ((m.region kind).exhausted size), m, []⟩ := by
  cases found : (m.region kind).topAfter? size alignment <;>
    simp [fit, Action.bind_apply, found]

/-- After growth the block fits. -/
theorem topAfter?_resized {kind : RegionKind}
    (stop : (m.region kind).blockStop? size alignment = some needed) (le : needed ≤ after) :
    (((m.asked needed).resized kind after).region kind).topAfter? size alignment = some needed := by
  rw [region_resized, region_asked]
  exact Region.topAfter?_eq_some.mpr ⟨stop, le⟩

theorem grow_of_refused {kind : RegionKind}
    (stop : (m.region kind).blockStop? size alignment = some needed) (le_cap : needed ≤ m.cap)
    (refused : m.grownSize? needed (m.offer needed) = none) :
    (grow kind size alignment m).result = .ok false ∧
      (grow kind size alignment m).state = m.asked needed := by
  rw [offer] at refused
  simp [grow, asked, Action.bind_apply, stop, Nat.not_lt.mpr le_cap, refused]

theorem grow_of_granted {kind : RegionKind}
    (stop : (m.region kind).blockStop? size alignment = some needed) (le_cap : needed ≤ m.cap)
    (granted : m.grownSize? needed (m.offer needed) = some after) :
    (grow kind size alignment m).result = .ok true ∧
      (grow kind size alignment m).state = (m.asked needed).resized kind after := by
  rw [offer] at granted
  simp [grow, asked, Action.bind_apply, stop, Nat.not_lt.mpr le_cap, granted]

/-- Room for a block is there, is made by growth, or cannot be had. -/
theorem reserve_cases (m : Memory) (policy : Policy) (size alignment : Nat) :
    Reserved m policy size alignment (reserve policy size alignment m).result
      (reserve policy size alignment m).state := by
  cases full : (m.region policy.region).topAfter? size alignment with
  | some top =>
    simpa [reserve, Action.bind_apply, fit_apply, full] using Reserved.fits full
  | none =>
    cases growable : policy.growable with
    | false =>
      simpa [reserve, Action.bind_apply, fit_apply, full, growable] using
        Reserved.exhausted full (by simp [growable])
    | true =>
      cases stop : (m.region policy.region).blockStop? size alignment with
      | none =>
        simpa [reserve, grow, Action.bind_apply, fit_apply, full, growable, stop] using
          Reserved.exhausted full (by simp [stop])
      | some needed =>
        by_cases capped : m.cap < needed
        · simpa [reserve, grow, Action.bind_apply, fit_apply, full, growable, stop, capped] using
            Reserved.exhausted full (by simp [stop, capped])
        · have le_cap : needed ≤ m.cap := Nat.le_of_not_lt capped
          cases granted : m.grownSize? needed (m.offer needed) with
          | none =>
            obtain ⟨answer, state⟩ := grow_of_refused stop le_cap granted
            simpa [reserve, Action.result_bind, Action.state_bind, fit_apply, full, growable,
              answer, state] using Reserved.refused full growable stop le_cap granted
          | some after =>
            obtain ⟨answer, state⟩ := grow_of_granted stop le_cap granted
            have fits := topAfter?_resized stop (needed_le_of_grownSize? le_cap granted).1
            rw [region_resized, region_asked] at fits
            simpa [reserve, Action.result_bind, Action.state_bind, fit_apply, full, growable,
              answer, state, fits] using Reserved.grown full growable stop le_cap granted

/-- The block that is found ends where it would end if there were no limit. -/
theorem Reserved.blockStop?_eq (reserved : Reserved m policy size alignment (.ok top) room) :
    (m.region policy.region).blockStop? size alignment = some top := by
  cases reserved with
  | fits fit => exact (Region.topAfter?_eq_some.mp fit).1
  | grown full growable stop le_cap granted => exact stop

/-- Growth leaves the top of the region where it was. -/
theorem Reserved.top_region {result : Except Fault Nat}
    (reserved : Reserved m policy size alignment result room) :
    (room.region policy.region).top = (m.region policy.region).top := by
  cases reserved <;> simp

/-- An allocation takes the block for which room was found, or fails. -/
theorem alloc_cases (m : Memory) (policy : Policy) (size alignment : Nat) :
    Allocated m policy size alignment (alloc policy size alignment m).result
      (alloc policy size alignment m).state := by
  have reserved := reserve_cases m policy size (m.effectiveAlignment alignment)
  simp only [alloc, Action.result_bind, Action.state_bind, Action.get_apply]
  generalize (reserve policy size (m.effectiveAlignment alignment) m).result = result at reserved ⊢
  generalize (reserve policy size (m.effectiveAlignment alignment) m).state = room at reserved ⊢
  cases result with
  | error fault => exact .failed reserved
  | ok top =>
    have same := reserved.top_region
    cases inside : room.hasWindow (m.region policy.region).top top with
    | true =>
      have taken := Allocated.taken reserved inside
      simp only [claim, same] at taken
      simpa [inside] using taken
    | false => simpa [inside] using Allocated.escaped reserved inside

theorem moveStackTop_apply (m : Memory) (top : Nat) :
    moveStackTop top m =
      if m.stack.base ≤ top ∧ top ≤ m.stack.limit then
        ⟨.ok (), { m with stack := { m.stack with top } }, []⟩
      else ⟨.error (.invalidAddress top 0), m, []⟩ := by
  by_cases inside : m.stack.base ≤ top ∧ top ≤ m.stack.limit <;>
    simp [moveStackTop, Region.moveTop, Action.bind_apply, inside]

@[simp] theorem effectiveAlignment_bytes (m : Memory) :
    m.effectiveAlignment m.quantum.bytes = m.quantum.bytes := by
  simp [effectiveAlignment]

/-- A block of the stack is only taken where it fits. -/
theorem Reserved.stack_cases {result : Except Fault Nat}
    (reserved : Reserved m .stack size alignment result room) :
    m = room ∧
      ((∃ top, result = .ok top ∧ m.stack.topAfter? size alignment = some top) ∨
        (result = .error (m.stack.exhausted size) ∧ m.stack.topAfter? size alignment = none)) := by
  cases reserved with
  | fits fit => exact ⟨rfl, .inl ⟨_, rfl, fit⟩⟩
  | grown _ growable => simp [Policy.stack] at growable
  | exhausted full _ => exact ⟨rfl, .inr ⟨rfl, full⟩⟩
  | refused _ growable => simp [Policy.stack] at growable

/-- A block of the stack is taken, cannot be had, or is given back because it uses up the region. -/
theorem stackAlloc_cases (m : Memory) (ordered : m.stack.Ordered) (size : Nat) :
    StackAllocated m size (stackAlloc size m).result (stackAlloc size m).state := by
  have allocated := alloc_cases m .stack size m.quantum.bytes
  simp only [stackAlloc, Action.result_bind, Action.state_bind, Action.get_apply, Action.ite_apply]
  generalize (alloc .stack size m.quantum.bytes m).result = result at allocated ⊢
  generalize (alloc .stack size m.quantum.bytes m).state = after at allocated ⊢
  cases allocated with
  | failed reserved =>
    obtain ⟨rfl, ⟨top, answer, -⟩ | ⟨answer, full⟩⟩ := reserved.stack_cases
    · cases answer
    · cases answer
      simpa using StackAllocated.exhausted (by simpa using full)
  | escaped reserved outside =>
    obtain ⟨rfl, ⟨top, answer, fit⟩ | ⟨answer, -⟩⟩ := reserved.stack_cases
    · cases answer
      exact .escaped (by simpa using fit) outside
    · cases answer
  | @taken _ top reserved inside =>
    obtain ⟨rfl, ⟨_, answer, fit⟩ | ⟨answer, -⟩⟩ := reserved.stack_cases
    · obtain rfl := Except.ok.inj answer
      have fit : m.stack.topAfter? size m.quantum.bytes = some top := by simpa using fit
      obtain ⟨stop, top_le_limit⟩ := Region.topAfter?_eq_some.mp fit
      dsimp only
      split
      next full =>
        -- the block used up the stack: its top is the limit, and the old top is restored
        rw [Bool.and_eq_true, decide_eq_true_eq] at full
        obtain ⟨asserted, limit_le_top⟩ := full
        obtain rfl : top = m.stack.limit := Nat.le_antisymm top_le_limit limit_le_top
        have back : m.stack.base ≤ m.stack.top ∧ m.stack.top ≤ m.stack.limit :=
          ⟨ordered.base_le_top, ordered.top_le_limit⟩
        simpa [claim, Policy.stack, region, modifyRegion, moveStackTop_apply, back,
          Action.result_bind, Action.state_bind] using StackAllocated.rejected fit inside asserted
      next free =>
        rw [Bool.and_eq_true, decide_eq_true_eq] at free
        exact .taken fit inside fun asserted => Nat.lt_of_not_le fun le => free ⟨asserted, le⟩
    · cases answer

end Memory

end LinearHost
