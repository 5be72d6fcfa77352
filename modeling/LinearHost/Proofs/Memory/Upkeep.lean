import LinearHost.Proofs.Memory.Poison
import LinearHost.Proofs.Memory.Secrecy
import LinearHost.Proofs.Memory.Texts
import LinearHost.Proofs.Memory.Writing

/-!
# Bytes that stay

An address that lies between the base and the top of its region is in use. Its byte and its mark stay
as they are as long as nothing is put there and the top of the stack does not fall to it: blocks are
taken above it, the memory grows at its end, and a frame clears only what lies above the top that it
saved.

## Main definitions

* `Memory.InUse`: addresses below the top of a region.
* `Memory.cell?_next`: what an operation leaves as it is.
* `Memory.Holds.textAt_eq_ok`: bytes that are read as a text.
* `Memory.Keeps`, `Memory.Keeps.next`: bytes in use, and what keeps them.
-/

namespace LinearHost

namespace Operation

variable {op : Operation} {start stop address : Nat}

def Spares (op : Operation) (address : Nat) : Prop :=
  address < op.destination.1 ∨ op.destination.1 + op.destination.2 ≤ address

def Avoids (op : Operation) (start stop : Nat) : Prop :=
  op.destination.2 = 0 ∨ stop ≤ op.destination.1 ∨ op.destination.1 + op.destination.2 ≤ start

instance (op : Operation) (start stop : Nat) : Decidable (op.Avoids start stop) :=
  inferInstanceAs (Decidable (_ ∨ _))

theorem Avoids.spares (avoids : op.Avoids start stop) (start_le : start ≤ address)
    (lt_stop : address < stop) : op.Spares address := by
  unfold Avoids at avoids
  unfold Spares
  omega

end Operation

namespace Memory

variable {m after room : Memory} {op : Operation} {policy : Policy} {kind : RegionKind}
  {answer : Answer} {size alignment top address start : Nat} {row : Runs Cell}

def InUse (m : Memory) (kind : RegionKind) (address : Nat) : Prop :=
  (m.region kind).base ≤ address ∧ address < (m.region kind).top

/-! ### What an operation leaves as it is -/

/-- Bytes are put only where an operation does not spare the address. -/
theorem cell?_overwrite_of_spares (spares : op.Spares address)
    (target : op.destination = (start, row.length)) :
    (m.image.overwrite start row).cell? address = m.image.cell? address := by
  rw [Operation.Spares, target] at spares
  have outside : ¬ (start ≤ address ∧ address < start + row.length ∧ address < m.image.size) := by
    omega
  exact Image.cell?_overwrite.trans (if_neg outside)

/-- The stack ends below the static region. -/
theorem WellFormed.stack_top_le (sound : m.WellFormed) : m.stack.top ≤ m.statics.base := by
  have stack : m.stack.Ordered := sound.ordered .stack
  exact Nat.le_trans stack.top_le_limit sound.separate

/-- A range in use ends below the top of a region, or starts above any block that can be taken there:
one of the stack ends below the static region. -/
theorem WellFormed.beside {region : RegionKind} {stop : Nat} (sound : m.WellFormed)
    (base_le : (m.region kind).base ≤ start) (le_top : stop ≤ (m.region kind).top)
    (below : region = .stack → top ≤ m.statics.base) :
    stop ≤ (m.region region).top ∨ top ≤ start := by
  have statics : m.statics.Ordered := sound.ordered .static
  have base_le_top := statics.base_le_top
  have top_le_base := sound.stack_top_le
  cases region with
  | stack =>
    cases kind with
    | stack => exact .inl le_top
    | static => exact .inr (Nat.le_trans (below rfl) base_le)
  | static =>
    cases kind with
    | stack =>
      have le_top : stop ≤ m.stack.top := le_top
      refine .inl ?_
      show stop ≤ m.statics.top
      omega
    | static => exact .inl le_top

/-- Closing a frame clears only what the stack gives back. -/
theorem cell?_released {savedTop : Nat} (beside : address < savedTop ∨ m.stack.top ≤ address) :
    (m.released savedTop).cell? address = m.image.cell? address := by
  rw [released]
  split
  · exact Image.cell?_update.trans (if_neg (by omega))
  · rfl

/-- An operation that asks for no block leaves an address as it is that is in use before and after
it and that it spares. -/
theorem Stepped.cell?_eq (sound : m.WellFormed) {result : Except Fault Answer}
    (stepped : Stepped m op result after) (unasked : op.policy? = none)
    (used : m.InUse kind address) (still : after.InUse kind address)
    (spares : op.Spares address) : after.image.cell? address = m.image.cell? address := by
  cases stepped with
  | allocated asks block => exact absurd unasked asks.policy?_ne_none
  | stackAllocated asks block => exact absurd unasked asks.policy?_ne_none
  | opened asks opened => exact absurd unasked asks.policy?_ne_none
  | closed exits closed =>
    cases closed with
    | closed innermost inside =>
      refine cell?_released ?_
      cases kind with
      | stack => exact .inl still.2
      | static => exact .inr (Nat.le_trans sound.stack_top_le used.1)
    | _ => rfl
  | restored restores base_le le_limit => rfl
  | placed unasked keeps target inside => exact cell?_overwrite_of_spares spares target
  | answered unasked keeps startless => rfl
  | refused unasked returned unexhausted => rfl

/-- A block is taken beside the addresses that are in use. -/
theorem Reserved.beside (sound : m.WellFormed)
    (fixed : policy.region = .stack → policy.growable = false)
    (reserved : Reserved m policy size alignment (.ok top) room) (used : m.InUse kind address) :
    address < (m.region policy.region).top ∨ top ≤ address := by
  refine sound.beside used.1 used.2 fun own => ?_
  -- the block ends with the stack, below the static region
  obtain ⟨-, limit, -, -⟩ := bounds_eq_iff.mp (reserved.bounds fixed)
  have le_limit := reserved.top_mem.2
  rw [own] at le_limit
  have le_limit : top ≤ room.stack.limit := le_limit
  have separate := sound.separate
  omega

/-- A block that is handed out leaves alone what is in use. -/
theorem Handed.cell?_eq (sound : m.WellFormed)
    (fixed : policy.region = .stack → policy.growable = false)
    (handed : Handed m policy size answer after) (used : m.InUse kind address) :
    after.image.cell? address = m.image.cell? address := by
  have inside : address < m.size := by
    have ordered := sound.ordered kind
    have limit_le := sound.limit_le_size kind
    have top_le := ordered.top_le_limit
    exact Nat.lt_of_lt_of_le used.2 (Nat.le_trans top_le limit_le)
  cases handed with
  | taken reserved =>
    have beside := reserved.beside sound fixed used
    rw [← reserved.top_region] at beside
    have kept := (reserved.image_kept sound (idleGrowth_of_growable fixed)).2 address inside
    exact (cell?_claim _ policy beside).trans kept
  | framed reserved => exact cell?_claim m .stack (reserved.beside sound fixed used)
  | bare => rfl
  | skipped => rfl

/-- A block of the stack that is given back lay above the addresses that are in use. -/
theorem Change.cell?_of_failed {fault : Fault} (sound : m.WellFormed)
    (change : Change m op (.error fault) after) (used : m.InUse kind address) :
    after.image.cell? address = m.image.cell? address := by
  cases change with
  | rejected fit inside asserted =>
    have reserved : Reserved m .stack _ _ (.ok m.stack.limit) m := .fits fit
    exact cell?_claim m .stack (reserved.beside sound (fun _ => rfl) used)
  | failed returned unexhausted => rfl
  | refused uses growable => rfl
  | escaped uses reserved outside =>
    rw [reserved.hasWindow sound] at outside
    cases outside
  | unreleased innermost lower outside => rfl

/-- An operation leaves an address as it is that is in use before and after it and that it spares. -/
theorem cell?_next (sound : m.WellFormed) (fixed : op.growsStack = false)
    (used : m.InUse kind address) (still : (next m op).InUse kind address)
    (spares : op.Spares address) : (next m op).image.cell? address = m.image.cell? address := by
  cases uses : op.policy? with
  | none => exact (step_cases sound.toOrderly op).cell?_eq sound uses used still spares
  | some policy =>
    cases answered : (step op m).result with
    | ok answer =>
      exact (step_handed sound.toOrderly uses answered).cell?_eq sound
        (Operation.growable_of_growsStack fixed uses) used
    | error fault =>
      have change := step_change m sound.toOrderly op
      rw [answered] at change
      exact change.cell?_of_failed sound used

/-! ### Where regions begin and end -/

theorem base_region_next (sound : m.WellFormed) (fixed : op.growsStack = false)
    (kind : RegionKind) : ((next m op).region kind).base = (m.region kind).base := by
  obtain ⟨base, -, staticsBase, -⟩ := bounds_eq_iff.mp (wellFormed_next sound fixed).2
  cases kind with
  | stack => exact base
  | static => exact staticsBase

/-- The top of the static region never falls. -/
theorem statics_top_le_next (sound : m.WellFormed) (op : Operation) :
    m.statics.top ≤ (next m op).statics.top := by
  cases found : m.handedOut? op with
  | none =>
    have same : (next m op).statics.top = m.statics.top :=
      top_of_handedOut?_eq_none sound found .static nofun
    exact Nat.le_of_eq same.symm
  | some block =>
    obtain ⟨start_eq, stop_eq, fits, others⟩ := handedOut?_spec sound.toOrderly found
    cases own : block.region with
    | stack =>
      have same : (next m op).statics = m.statics := others .static (by simp [own])
      exact Nat.le_of_eq (congrArg Region.top same.symm)
    | static =>
      rw [own] at start_eq stop_eq
      have start_eq : block.start = m.statics.top := start_eq
      have stop_eq : block.stop = (next m op).statics.top := stop_eq
      omega

/-- The block of an allocation. -/
theorem handedOut?_allocate {region : RegionKind}
    (taken : (step (.allocate region size) m).result = .ok (.address address)) :
    m.handedOut? (.allocate region size) =
      some ⟨region, address, ((next m (.allocate region size)).region region).top, size⟩ := by
  cases region <;> exact handedOut?_eq_some.mpr ⟨_, _, rfl, taken, _, rfl, rfl⟩

/-- A block that is handed out lies beside what is in use. -/
theorem beside_of_handedOut? {block : Block} {stop : Nat} (sound : m.WellFormed)
    (fixed : op.growsStack = false) (found : m.handedOut? op = some block)
    (base_le : (m.region kind).base ≤ start) (le_top : stop ≤ (m.region kind).top) :
    stop ≤ block.start ∨ block.stop ≤ start := by
  obtain ⟨start_eq, stop_eq, -, -⟩ := handedOut?_spec sound.toOrderly found
  rw [start_eq]
  refine sound.beside base_le le_top fun own => ?_
  rw [own] at stop_eq
  have same : (next m op).statics.base = m.statics.base := base_region_next sound fixed .static
  rw [stop_eq, ← same]
  exact (wellFormed_next sound fixed).1.stack_top_le

/-! ### Texts -/

variable {bytes : List UInt8}

/-- Bytes that hold no zero and stand in the memory are read one after the other. -/
theorem Holds.passes (holds : m.Holds start bytes) (nonzero : 0 ∉ bytes)
    (inside : m.inBounds start bytes.length = true) : m.Passes start bytes := by
  induction bytes generalizing start with
  | nil => trivial
  | cons b rest ih =>
    obtain ⟨small, fits⟩ := inBounds_iff.mp inside
    rw [List.length_cons] at small fits
    have both : m.Holds start ([b] ++ rest) := holds
    have first : m.Holds start [b] := both.left
    have others : m.Holds (start + 1) rest := both.right
    have read : m.read start 1 = .ok [b] := first.read (inBounds_iff.mpr (by
      rw [List.length_singleton]
      omega))
    rw [List.mem_cons, not_or] at nonzero
    refine ⟨by rw [readByte, read]; rfl, Ne.symm nonzero.1, ?_⟩
    exact ih others nonzero.2 (inBounds_iff.mpr (by omega))

/-- A row of bytes without a zero byte, and a zero byte after it, are read as a text. -/
theorem Holds.textAt_eq_ok (holds : m.Holds start (bytes ++ [0])) (nonzero : 0 ∉ bytes)
    (inside : m.inBounds start (bytes.length + 1) = true) : m.textAt start = .ok (decode bytes) := by
  obtain ⟨small, fits⟩ := inBounds_iff.mp inside
  refine textAt_of_zero (holds.left.passes nonzero (inBounds_iff.mpr (by omega))) ?_
  have last : m.read (start + bytes.length) 1 = .ok [0] :=
    holds.right.read (inBounds_iff.mpr (by simpa [Nat.add_assoc] using ⟨small, fits⟩))
  rw [readByte, last]
  rfl

/-! ### Bytes in use -/

structure Keeps (m : Memory) (kind : RegionKind) (start : Nat) (bytes : List UInt8) : Prop where
  holds : m.Holds start bytes
  base_le : (m.region kind).base ≤ start
  le_top : start + bytes.length ≤ (m.region kind).top

theorem Keeps.inUse (keeps : m.Keeps kind start bytes) {k : Nat} (lt : k < bytes.length) :
    m.InUse kind (start + k) := by
  have base_le := keeps.base_le
  have le_top := keeps.le_top
  exact ⟨by omega, by omega⟩

theorem Keeps.le_size (sound : m.WellFormed) (keeps : m.Keeps kind start bytes) :
    start + bytes.length ≤ m.size :=
  calc start + bytes.length
      ≤ (m.region kind).top := keeps.le_top
    _ ≤ (m.region kind).limit := (sound.ordered kind).top_le_limit
    _ ≤ m.size := sound.limit_le_size kind

/-- Bytes in use stay as long as nothing is put there and the top of the stack does not fall below
their end. -/
theorem Keeps.next (sound : m.WellFormed) (keeps : m.Keeps kind start bytes)
    (fixed : op.growsStack = false) (avoids : op.Avoids start (start + bytes.length))
    (above : kind = .stack → start + bytes.length ≤ (next m op).stack.top) :
    (next m op).Keeps kind start bytes := by
  have base := base_region_next sound fixed kind
  have le_top : start + bytes.length ≤ ((Memory.next m op).region kind).top := by
    cases kind with
    | stack => exact above rfl
    | static => exact Nat.le_trans keeps.le_top (statics_top_le_next sound op)
  refine ⟨fun k b found => ?_, base ▸ keeps.base_le, le_top⟩
  have lt : k < bytes.length := (List.getElem?_eq_some_iff.mp found).1
  have still : (Memory.next m op).InUse kind (start + k) :=
    ⟨by rw [base]; exact (keeps.inUse lt).1, by omega⟩
  rw [cell?_next sound fixed (keeps.inUse lt) still (avoids.spares (by omega) (by omega))]
  exact keeps.holds k b found

/-- Bytes that are put into another block are put beside them. -/
theorem Keeps.next_stored {region : RegionKind} {others : List UInt8} (sound : m.WellFormed)
    (keeps : m.Keeps kind start bytes)
    (taken : (step (.allocate region others.length) m).result = .ok (.address address)) :
    (Memory.next (Memory.next m (.allocate region others.length)) (.write address others)).Keeps
      kind start bytes := by
  have found := handedOut?_allocate taken
  obtain ⟨-, -, fits, -⟩ := handedOut?_spec sound.toOrderly found
  have beside := beside_of_handedOut? sound rfl found keeps.base_le keeps.le_top
  dsimp only at fits beside
  have room : (Memory.next m (.allocate region others.length)).Keeps kind start bytes := by
    refine keeps.next sound rfl (.inl rfl) ?_
    rintro rfl
    exact Nat.le_trans keeps.le_top (stack_top_le_next sound.toOrderly rfl)
  refine room.next (wellFormed_next sound rfl).1 rfl (.inr ?_) ?_
  · show start + bytes.length ≤ address ∨ address + others.length ≤ start
    omega
  · rintro rfl
    exact Nat.le_trans room.le_top (stack_top_le_next (sound.toOrderly.next _) rfl)

theorem inBounds_of_write (written : (write start bytes m).result = .ok ()) :
    m.inBounds start bytes.length = true := by
  rw [write_apply] at written
  split at written
  next inside => exact inside
  next => cases written

/-- Bytes written to a part in use are kept there. -/
theorem keeps_write (base_le : (m.region kind).base ≤ start)
    (le_top : start + bytes.length ≤ (m.region kind).top)
    (inside : m.inBounds start bytes.length = true) :
    (next m (.write start bytes)).Keeps kind start bytes := by
  have done : Memory.next m (.write start bytes) = m.written start bytes := by
    rw [next_eq_state (f := fun _ => .done) rfl, write_apply, if_pos inside]
  rw [done]
  exact ⟨holds_written inside, by cases kind <;> exact base_le, by cases kind <;> exact le_top⟩

/-- Bytes are kept that are put into a block taken for them. -/
theorem keeps_stored {region : RegionKind} (sound : m.WellFormed)
    (taken : (step (.allocate region bytes.length) m).result = .ok (.address start))
    (inside : (next m (.allocate region bytes.length)).inBounds start bytes.length = true) :
    (next (next m (.allocate region bytes.length)) (.write start bytes)).Keeps region start
      bytes := by
  obtain ⟨start_eq, -, fits, -⟩ :=
    handedOut?_spec sound.toOrderly (handedOut?_allocate taken)
  refine keeps_write ?_ fits inside
  calc ((next m (.allocate region bytes.length)).region region).base
      = (m.region region).base := base_region_next sound rfl region
    _ ≤ (m.region region).top := (sound.ordered region).base_le_top
    _ = start := start_eq.symm

end Memory

end LinearHost
