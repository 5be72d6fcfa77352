import LinearHost.Proofs.Memory.Failure
import LinearHost.Proofs.Memory.Growth

/-!
# The blocks that operations hand out

An allocation and the opening of a frame hand out a block: the span from the address that is answered
up to the top of the region right after the operation. It starts at the old top. Every other operation
leaves the tops alone, unless it gives the stack back.

## Main definitions

* `Block`: a span of a region, and how many bytes it was asked for.
* `Memory.handedOut?`: the block that an operation hands out, if it does.
* `Memory.Handed`, `Memory.step_handed`: what handing out a block leaves behind.
-/

namespace LinearHost

structure Block where
  region : RegionKind
  start : Nat
  stop : Nat
  /-- The number of bytes that were asked for. -/
  requested : Nat
deriving DecidableEq, Repr

def Block.Apart (a b : Block) : Prop := a.stop ≤ b.start ∨ b.stop ≤ a.start

def Block.Holds (b : Block) (address : Nat) : Prop := b.start ≤ address ∧ address < b.stop

namespace Memory

variable {m after room : Memory} {op : Operation} {policy : Policy} {size alignment top : Nat}
  {answer : Answer} {block : Block}

/-- The block that an operation hands out: from the address that it answers up to where it leaves the
top of the region. -/
def handedOut? (m : Memory) (op : Operation) : Option Block :=
  match op.policy?, (step op m).result with
  | some policy, .ok answer => answer.start?.map fun start =>
    { region := policy.region
      start
      stop := ((next m op).region policy.region).top
      requested := op.requested }
  | _, _ => none

/-- The answer of an operation that asked for a block, and the memory that it leaves behind. -/
inductive Handed (m : Memory) : Policy → Nat → Answer → Memory → Prop where
  | taken {policy : Policy} {size alignment top : Nat} {room : Memory}
      (reserved : Reserved m policy size alignment (.ok top) room) :
      Handed m policy size (.address (m.region policy.region).top) (room.claim policy top)
  | framed {size alignment top : Nat}
      (reserved : Reserved m .stack size alignment (.ok top) m) :
      Handed m .stack size (.frame m.nextFrame) ((m.claim .stack top).withFrame m.stack.top)
  /-- A frame without a block of its own. -/
  | bare : Handed m .stack 0 (.frame m.nextFrame) (m.withFrame m.stack.top)
  | skipped {size : Nat} : Handed m .stack size (.frame .elided) m

/-! ### Handing out a block -/

theorem Allocated.handed {address : Nat}
    (allocated : Allocated m policy size alignment (.ok address) after) :
    Handed m policy size (.address address) after := by
  cases allocated with
  | taken reserved inside => exact .taken reserved

theorem StackAllocated.handed {address : Nat}
    (allocated : StackAllocated m size (.ok address) after) :
    Handed m .stack size (.address address) after := by
  cases allocated with
  | @taken top fit inside free =>
    have reserved : Reserved m .stack size m.quantum.bytes (.ok top) m := .fits fit
    exact .taken reserved

theorem Opened.handed {initial : Nat} {forced : Bool} {frame : Frame}
    (opened : Opened m initial forced (.ok frame) after) :
    Handed m .stack initial (.frame frame) after := by
  cases opened with
  | skipped skip => exact .skipped
  | empty kept aligned zero =>
    cases zero
    exact .bare
  | filled kept aligned positive block =>
    cases block with
    | taken fit inside free => exact .framed (.fits fit)

theorem ok_of_map {α β : Type} {result : Except Fault α} {f : α → β} {b : β}
    (mapped : result.map f = .ok b) : ∃ a, result = .ok a ∧ f a = b := by
  cases result with
  | ok a => exact ⟨a, rfl, Except.ok.inj mapped⟩
  | error fault => cases mapped

/-- Operations that ask for a block and succeed hand out one at the top of its region, or skip a
frame. -/
theorem Stepped.handed {result : Except Fault Answer} (stepped : Stepped m op result after)
    (uses : op.policy? = some policy) (succeeds : result = .ok answer) :
    Handed m policy op.requested answer after := by
  cases stepped with
  | allocated asks block =>
    obtain ⟨address, rfl, rfl⟩ := ok_of_map succeeds
    obtain rfl := asks.policy_eq uses
    exact asks.requested_eq ▸ block.handed
  | stackAllocated asks block =>
    obtain ⟨address, rfl, rfl⟩ := ok_of_map succeeds
    obtain rfl := asks.policy_eq uses
    exact asks.requested_eq ▸ block.handed
  | opened asks opened =>
    obtain ⟨frame, rfl, rfl⟩ := ok_of_map succeeds
    obtain rfl := asks.policy_eq uses
    exact asks.requested_eq ▸ opened.handed
  | closed exits closed =>
    subst exits
    cases uses
  | restored restores base_le le_limit =>
    subst restores
    cases uses
  | placed unasked keeps target inside => cases unasked.symm.trans uses
  | answered unasked keeps startless => cases unasked.symm.trans uses
  | refused unasked returned unexhausted => cases succeeds

/-- An operation that asks for a block and succeeds hands one out, or skips a frame. -/
theorem step_handed (orderly : m.Orderly) (uses : op.policy? = some policy)
    (succeeds : (step op m).result = .ok answer) :
    Handed m policy op.requested answer (next m op) :=
  (step_cases orderly op).handed uses succeeds

/-- Operations that ask for no block answer no start of one. -/
theorem Stepped.start?_eq_none {result : Except Fault Answer} (stepped : Stepped m op result after)
    (unasked : op.policy? = none) (succeeds : result = .ok answer) : answer.start? = none := by
  cases stepped with
  | allocated asks block => exact absurd unasked asks.policy?_ne_none
  | stackAllocated asks block => exact absurd unasked asks.policy?_ne_none
  | opened asks opened => exact absurd unasked asks.policy?_ne_none
  | closed exits closed =>
    obtain ⟨-, -, rfl⟩ := ok_of_map succeeds
    rfl
  | answered unasked keeps startless => exact Except.ok.inj succeeds ▸ startless
  | refused unasked returned unexhausted => cases succeeds
  | _ =>
    cases succeeds
    rfl

/-! ### The regions afterwards -/

theorem region_modifyRegion_of_ne {kind other : RegionKind} (differs : other ≠ kind) (m : Memory)
    (f : Region → Region) : (m.modifyRegion kind f).region other = m.region other := by
  cases kind <;> cases other <;> first | rfl | exact absurd rfl differs

/-- Room for a block is made in its own region. -/
theorem Reserved.region_of_ne {result : Except Fault Nat} {other : RegionKind}
    (differs : other ≠ policy.region) (reserved : Reserved m policy size alignment result room) :
    room.region other = m.region other := by
  cases reserved with
  | grown full growable stop le_cap granted =>
    exact (region_modifyRegion_of_ne differs ..).trans (by cases other <;> rfl)
  | refused full growable stop le_cap refused => exact region_asked other
  | _ => rfl

theorem region_claim_of_ne {other : RegionKind} (differs : other ≠ policy.region) (m : Memory)
    (top : Nat) : (m.claim policy top).region other = m.region other :=
  (region_modifyRegion_of_ne differs m fun r => { r with top }).symm ▸ by cases other <;> rfl

@[simp] theorem region_withFrame (m : Memory) (savedTop : Nat) (kind : RegionKind) :
    (m.withFrame savedTop).region kind = m.region kind := by
  cases kind <;> rfl

/-- The block of an answer starts at the old top of its region, has at least the size that was asked
for, and leaves the other region alone. -/
theorem Handed.spec {start : Nat} (handed : Handed m policy size answer after)
    (answered : answer.start? = some start) :
    start = (m.region policy.region).top ∧ start + size ≤ (after.region policy.region).top ∧
      ∀ other, other ≠ policy.region → after.region other = m.region other := by
  cases handed with
  | taken reserved =>
    cases answered
    refine ⟨rfl, ?_, fun other differs => ?_⟩
    · rw [top_claim]
      exact reserved.top_mem.1
    · rw [region_claim_of_ne differs, reserved.region_of_ne differs]
  | framed reserved =>
    cases answered
    refine ⟨rfl, ?_, fun other differs => ?_⟩
    · rw [region_withFrame, top_claim]
      exact reserved.top_mem.1
    · rw [region_withFrame, region_claim_of_ne differs]
  | bare =>
    cases answered
    exact ⟨rfl, Nat.le_refl _, fun other _ => region_withFrame ..⟩
  | skipped => cases answered

/-- A block starts at the address that is answered and ends at the new top. -/
theorem handedOut?_eq_some :
    m.handedOut? op = some block ↔
      ∃ policy answer, op.policy? = some policy ∧ (step op m).result = .ok answer ∧
        ∃ start, answer.start? = some start ∧
          ⟨policy.region, start, ((next m op).region policy.region).top, op.requested⟩ = block := by
  unfold handedOut?
  split
  next policy answer uses succeeds => simp [uses, succeeds, Option.map_eq_some_iff]
  next nothing =>
    refine ⟨nofun, ?_⟩
    rintro ⟨policy, answer, uses, succeeds, -⟩
    exact absurd succeeds (nothing policy answer uses)

/-- A block starts at the old top of its region and ends at the new one, with room for what was asked
for; the other region is left alone. -/
theorem handedOut?_spec (orderly : m.Orderly) (found : m.handedOut? op = some block) :
    block.start = (m.region block.region).top ∧
      block.stop = ((next m op).region block.region).top ∧
      block.start + block.requested ≤ block.stop ∧
      ∀ other, other ≠ block.region → (next m op).region other = m.region other := by
  obtain ⟨policy, answer, uses, succeeds, start, answered, rfl⟩ := handedOut?_eq_some.mp found
  have handed := step_handed orderly uses succeeds
  obtain ⟨start_eq, fits, others⟩ := handed.spec answered
  exact ⟨start_eq, rfl, fits, others⟩

/-- Operations that ask for no block leave the regions alone, unless they give the stack back. -/
theorem Stepped.region_eq {result : Except Fault Answer} (stepped : Stepped m op result after)
    (unasked : op.policy? = none) {kind : RegionKind} (kept : kind = .stack → op.givesBack = false) :
    after.region kind = m.region kind := by
  have static (gives : op.givesBack = true) : kind = .static := by
    cases kind with
    | stack => simp [kept rfl] at gives
    | static => rfl
  cases stepped with
  | allocated asks block => exact absurd unasked asks.policy?_ne_none
  | stackAllocated asks block => exact absurd unasked asks.policy?_ne_none
  | opened asks opened => exact absurd unasked asks.policy?_ne_none
  | closed exits closed =>
    subst exits
    obtain rfl := static rfl
    cases closed <;> rfl
  | restored restores base_le le_limit =>
    subst restores
    obtain rfl := static rfl
    rfl
  | placed unasked keeps target inside => cases kind <;> rfl
  | answered unasked keeps startless => rfl
  | refused unasked returned unexhausted => rfl

/-- An operation that asks for no block leaves both regions as they are, unless it gives stack back.
-/
theorem region_of_policy?_eq_none (orderly : m.Orderly) (unasked : op.policy? = none)
    {kind : RegionKind} (kept : kind = .stack → op.givesBack = false) :
    (next m op).region kind = m.region kind :=
  (step_cases orderly op).region_eq unasked kept

/-- A failed operation leaves the regions alone. -/
theorem Change.region_of_failed {fault : Fault} (sound : m.WellFormed)
    (change : Change m op (.error fault) after) (kind : RegionKind) :
    after.region kind = m.region kind := by
  have same := (change.contents_of_failed (change.isFatal_eq_false sound)).1
  calc after.region kind
      = { after with grower := m.grower, image := m.image }.region kind := by cases kind <;> rfl
    _ = m.region kind := congrArg (·.region kind) same

theorem Handed.eq_of_skipped (handed : Handed m policy size answer after)
    (unanswered : answer.start? = none) : after = m := by
  cases handed with
  | skipped => rfl
  | _ => cases unanswered

/-- Where no block is handed out the tops stay where they are, unless the stack is given back. -/
theorem top_of_handedOut?_eq_none (sound : m.WellFormed) (nothing : m.handedOut? op = none)
    (kind : RegionKind) (kept : kind = .stack → op.givesBack = false) :
    ((next m op).region kind).top = (m.region kind).top := by
  cases uses : op.policy? with
  | none => rw [region_of_policy?_eq_none sound.toOrderly uses kept]
  | some policy =>
    cases succeeds : (step op m).result with
    | error fault =>
      have change := step_change m sound.toOrderly op
      rw [succeeds] at change
      exact congrArg Region.top (change.region_of_failed sound kind)
    | ok answer =>
      have handed := step_handed sound.toOrderly uses succeeds
      rw [handed.eq_of_skipped (by simpa [handedOut?, uses, succeeds] using nothing)]

/-- A block of the stack is taken from its top. -/
theorem stack_of_handedOut? (orderly : m.Orderly) (found : m.handedOut? op = some block)
    (kind : block.region = .stack) :
    block.start = m.stack.top ∧ block.stop = (next m op).stack.top ∧ block.start ≤ block.stop := by
  obtain ⟨start_eq, stop_eq, fits, -⟩ := handedOut?_spec orderly found
  rw [kind] at start_eq stop_eq
  exact ⟨start_eq, stop_eq, by omega⟩

/-- An operation that fails does not lower the top of the stack. -/
theorem Change.stack_top_le_of_failed {fault : Fault} (change : Change m op (.error fault) after) :
    m.stack.top ≤ after.stack.top := by
  cases change with
  | @escaped policy size alignment top room uses reserved outside =>
    have fits := reserved.top_mem.1
    cases kind : policy.region with
    | stack =>
      rw [kind] at fits
      have fits : m.stack.top + size ≤ top := fits
      show m.stack.top ≤ top
      omega
    | static =>
      have same : room.region .stack = m.region .stack := reserved.region_of_ne (by simp [kind])
      exact Nat.le_of_eq (congrArg Region.top same.symm)
  | _ => exact Nat.le_refl _

/-- Only an operation that gives the stack back lowers its top. -/
theorem stack_top_le_next (orderly : m.Orderly) (kept : op.givesBack = false) :
    m.stack.top ≤ (next m op).stack.top := by
  cases succeeds : (step op m).result with
  | error fault =>
    have change := step_change m orderly op
    rw [succeeds] at change
    exact change.stack_top_le_of_failed
  | ok answer =>
    cases uses : op.policy? with
    | none =>
      have same : (next m op).region .stack = m.region .stack :=
        region_of_policy?_eq_none orderly uses fun _ => kept
      exact Nat.le_of_eq (congrArg Region.top same.symm)
    | some policy =>
      have handed := step_handed orderly uses succeeds
      cases answered : answer.start? with
      | none =>
        have same : next m op = m := handed.eq_of_skipped answered
        exact Nat.le_of_eq (congrArg (·.stack.top) same.symm)
      | some start =>
        obtain ⟨start_eq, fits, others⟩ := handed.spec answered
        cases kind : policy.region with
        | stack =>
          rw [kind] at start_eq fits
          have start_eq : start = m.stack.top := start_eq
          have fits : start + op.requested ≤ (next m op).stack.top := fits
          omega
        | static =>
          have same : (next m op).stack = m.stack := others .stack (by simp [kind])
          exact Nat.le_of_eq (congrArg Region.top same.symm)

end Memory

end LinearHost
