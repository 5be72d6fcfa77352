import LinearHost.Proofs.Memory.Doubling
import LinearHost.Proofs.Memory.Growth

/-!
# How far static blocks reach

With the grower that settings ask for, a block of the static region is refused only if it would end
beyond the cap. Otherwise the memory grows, if it has to, to its size doubled as often as needed, or
to the cap. Any grower is asked at most once for a block, and only if growing can help.

## Main definitions

* `Memory.StaticAllocated`: what becomes of a block of the static region.
* `Memory.Provided`: a memory that grows as its settings ask for.
* `Memory.staticAlloc_up_to_cap`: which static blocks are handed out.
-/

namespace LinearHost

namespace Memory

variable {m after : Memory} {c : Config} {op : Operation} {ops : List Operation} {policy : Policy}
  {size needed : Nat}

/-! ### Blocks of the static region -/

/-- What becomes of a block of the static region that would end at `needed`, under a policy that lets
the memory grow. -/
inductive StaticAllocated (m : Memory) (policy : Policy) (size needed : Nat) :
    Except Fault Nat → Memory → Prop where
  | fits (representable : m.statics.top + size < addressSpace)
      (le_limit : needed ≤ m.statics.limit) :
      StaticAllocated m policy size needed (.ok m.statics.top) (m.claim policy needed)
  | grown {given : Nat} (representable : m.statics.top + size < addressSpace)
      (full : m.statics.limit < needed) (le_cap : needed ≤ m.cap)
      (granted : m.offer needed = some given) (enough : needed ≤ given) :
      StaticAllocated m policy size needed (.ok m.statics.top)
        (((m.asked needed).resized .static (min given m.cap)).claim policy needed)
  | refused (full : m.statics.limit < needed) (le_cap : needed ≤ m.cap)
      (refused : ∀ given, m.offer needed = some given → given < needed) :
      StaticAllocated m policy size needed (.error (m.statics.exhausted size)) (m.asked needed)
  /-- The block would end beyond the cap, or beyond all addresses. -/
  | capped (beyond : m.cap < needed ∨ addressSpace ≤ needed) :
      StaticAllocated m policy size needed (.error (m.statics.exhausted size)) m

/-- A static block is there, or the memory grows for it, or it is refused. -/
theorem alloc_static_cases (sound : m.WellFormed) (static : policy.region = .static)
    (growable : policy.growable = true) (size alignment : Nat) :
    StaticAllocated m policy size
      (alignUp (m.statics.top + size) (m.effectiveAlignment alignment))
      (alloc policy size alignment m).result (alloc policy size alignment m).state := by
  obtain ⟨_, zeroFill, _⟩ := policy
  cases static
  cases growable
  have allocated := alloc_cases m ⟨.static, zeroFill, true⟩ size alignment
  generalize (alloc ⟨.static, zeroFill, true⟩ size alignment m).result = result at allocated ⊢
  generalize (alloc ⟨.static, zeroFill, true⟩ size alignment m).state = after at allocated ⊢
  cases allocated with
  | taken reserved inside =>
    cases reserved with
    | fits fit =>
      obtain ⟨stop, le_limit⟩ := Region.topAfter?_eq_some.mp fit
      obtain ⟨representable, rfl⟩ := Region.blockStop?_eq_some.mp stop
      exact .fits representable le_limit
    | grown full _ stop le_cap granted =>
      have beyond := Region.limit_lt_of_topAfter? full stop
      obtain ⟨representable, rfl⟩ := Region.blockStop?_eq_some.mp stop
      obtain ⟨given, offered, enough, rfl⟩ := grownSize?_eq_some.mp granted
      exact .grown representable beyond le_cap offered enough
  | escaped reserved outside =>
    rw [reserved.hasWindow sound] at outside
    cases outside
  | failed reserved =>
    cases reserved with
    | exhausted full unasked =>
      refine .capped ?_
      by_cases representable : m.statics.top + size < addressSpace
      · exact .inl (unasked rfl _ (Region.blockStop?_eq_some.mpr ⟨representable, rfl⟩))
      · exact .inr (Nat.le_trans (Nat.le_of_not_lt representable) (le_alignUp ..))
    | refused full _ stop le_cap refused =>
      have beyond := Region.limit_lt_of_topAfter? full stop
      obtain ⟨-, rfl⟩ := Region.blockStop?_eq_some.mp stop
      refine .refused beyond le_cap fun given offered => Nat.lt_of_not_le fun enough => ?_
      have granted := (grownSize?_eq_some (m := m)).mpr ⟨given, offered, enough, rfl⟩
      cases granted.symm.trans refused

theorem staticAlloc_cases (sound : m.WellFormed) (size : Nat) :
    StaticAllocated m .static size (alignUp (m.statics.top + size) m.quantum.bytes)
      (staticAlloc size m).result (staticAlloc size m).state := by
  have allocated : StaticAllocated m .static size _ _ _ :=
    alloc_static_cases sound rfl rfl size m.quantum.bytes
  rwa [effectiveAlignment_bytes] at allocated

/-- The grower is asked once if the block ends beyond the limit but not beyond the cap, and then its
answer decides; otherwise it is not asked. -/
theorem StaticAllocated.asked {size needed : Nat} {result : Except Fault Nat}
    (small : m.cap < addressSpace) (allocated : StaticAllocated m policy size needed result after) :
    (¬ (m.statics.limit < needed ∧ needed ≤ m.cap) →
      after.grower.history = m.grower.history) ∧
    (m.statics.limit < needed → needed ≤ m.cap →
      after.grower.history = ⟨m.size, needed, m.offer needed⟩ :: m.grower.history ∧
      ((∃ address, result = .ok address) ↔
        ∃ given, m.offer needed = some given ∧ needed ≤ given)) := by
  cases allocated with
  | fits representable le_limit =>
    refine ⟨fun _ => ?_, fun full => absurd le_limit (Nat.not_le_of_lt full)⟩
    simp [claim]
  | grown representable full le_cap granted enough =>
    refine ⟨fun unasked => absurd ⟨full, le_cap⟩ unasked, fun _ _ => ⟨?_, ?_⟩⟩
    · simp [claim, resized, Memory.asked, Grower.ask, offer]
    · exact iff_of_true ⟨_, rfl⟩ ⟨_, granted, enough⟩
  | refused full le_cap refused =>
    refine ⟨fun unasked => absurd ⟨full, le_cap⟩ unasked, fun _ _ => ⟨rfl, ?_⟩⟩
    refine iff_of_false ?_ ?_
    · rintro ⟨address, answered⟩
      cases answered
    · rintro ⟨given, offered, enough⟩
      exact Nat.not_le_of_lt (refused given offered) enough
  | capped beyond => exact ⟨fun _ => rfl, fun _ le_cap => by omega⟩

/-! ### The grower that settings ask for -/

/-- A memory that grows as its settings ask for, and is not smaller than at the start. -/
structure Provided (c : Config) (m : Memory) : Prop extends WellFormed m where
  settings_eq : m.settings = (ofLayout c (defaultGrower c)).settings
  initial_le : c.memory.initial ≤ m.size

theorem provided_start (valid : c.validate = .ok ()) :
    (ofLayout c (defaultGrower c)).Provided c where
  toWellFormed := ofLayout_wellFormed valid _
  settings_eq := rfl
  initial_le := Nat.le_of_eq (Image.size_blank _).symm

theorem Provided.next (provided : m.Provided c) (fixed : op.growsStack = false) :
    (next m op).Provided c where
  toWellFormed := (wellFormed_next provided.toWellFormed fixed).1
  settings_eq := (provided.toOrderly.settings_next op).trans provided.settings_eq
  initial_le := Nat.le_trans provided.initial_le (provided.size_le_next fixed)

/-- A memory goes on growing as its settings ask for. -/
theorem Provided.reached (provided : m.Provided c) (fixed : ∀ op ∈ ops, op.growsStack = false) :
    (reached ops m).Provided c :=
  reached_induction (·.growsStack = false) (Provided c)
    (fun _ _ provided fixed => provided.next fixed) fixed provided

theorem WellFormed.size_pos (sound : m.WellFormed) : 0 < m.size := by
  have stack : m.stack.Ordered := sound.ordered .stack
  have limit_le : m.stack.limit ≤ m.size := sound.limit_le_size .stack
  have floor : Config.stackFloor = 8 := rfl
  have floor_le := sound.floor_le
  have base_le_top := stack.base_le_top
  have top_le_limit := stack.top_le_limit
  omega

/-- For a block beyond the present end the memory is offered its size doubled as often as needed, or
the cap. -/
theorem Provided.exists_offer (provided : m.Provided c) (small : c.memory.cap < addressSpace)
    (full : m.statics.limit < needed) (le_cap : needed ≤ c.memory.cap) :
    ∃ k, IsLeast {k | needed ≤ m.size * 2 ^ k} k ∧
      m.offer needed = some (min c.memory.cap (m.size * 2 ^ k)) := by
  have growth : m.grower.policy = (defaultGrower c).policy :=
    congrArg Settings.growth provided.settings_eq
  have initial_le := provided.initial_le
  have statics_limit := provided.statics_limit
  have grows : c.memory.canGrow = true := decide_eq_true (by omega)
  have size_le : m.size ≤ c.memory.cap := by omega
  have whole : max m.size 1 = m.size := Nat.max_eq_left provided.size_pos
  obtain ⟨k, least, -, doubled⟩ :=
    Grower.exists_doubled?_eq le_cap (Nat.lt_of_le_of_lt size_le small) small
  rw [whole] at least doubled
  refine ⟨k, least, ?_⟩
  -- the cap is a word, so the largest word cuts nothing more
  have word : min c.memory.cap (min (addressSpace - 1) (m.size * 2 ^ k)) =
      min c.memory.cap (m.size * 2 ^ k) := by omega
  rw [offer, Grower.ask, growth, defaultGrower, if_pos grows, ← word]
  exact doubled

/-- With the grower that settings ask for, the end of a block decides whether it is handed out, and
how large the memory becomes for it. -/
theorem Provided.staticAllocated {result : Except Fault Nat} (provided : m.Provided c)
    (small : c.memory.cap < addressSpace)
    (allocated : StaticAllocated m .static size needed result after) :
    (needed ≤ c.memory.cap →
      result = .ok m.statics.top ∧ after.statics.top = needed ∧
      (needed ≤ m.statics.limit → after.size = m.size) ∧
      (m.statics.limit < needed → ∃ k, IsLeast {k | needed ≤ m.size * 2 ^ k} k ∧
        after.size = min c.memory.cap (m.size * 2 ^ k))) ∧
    (c.memory.cap < needed →
      result = .error (.outOfMemory .static size m.statics.top m.statics.limit)) := by
  have cap : m.cap = c.memory.cap := congrArg Settings.cap provided.settings_eq
  have kind : m.statics.kind = .static :=
    congrArg (fun settings => settings.kinds.2) provided.settings_eq
  have statics_limit := provided.statics_limit
  have size_le_cap := provided.size_le_cap
  cases allocated with
  | fits representable le_limit =>
    refine ⟨fun _ => ⟨rfl, rfl, fun _ => size_claim .., fun full => ?_⟩, fun beyond => ?_⟩
    · omega
    · omega
  | grown representable full le_cap granted enough =>
    obtain ⟨k, least, offered⟩ := provided.exists_offer small full (cap ▸ le_cap)
    obtain rfl := Option.some.inj (offered.symm.trans granted)
    refine ⟨fun _ => ⟨rfl, rfl, fun fits => ?_, fun _ => ⟨k, least, ?_⟩⟩, fun beyond => ?_⟩
    · omega
    · rw [size_claim, size_resized, cap]
      exact Nat.min_eq_left (Nat.min_le_left ..)
    · omega
  | refused full le_cap refused =>
    -- what is offered is always enough
    rw [cap] at le_cap
    obtain ⟨k, ⟨enough, -⟩, offered⟩ := provided.exists_offer small full le_cap
    rw [Set.mem_ofPred_eq] at enough
    have less := refused _ offered
    omega
  | capped beyond =>
    refine ⟨fun le_cap => ?_, fun _ => ?_⟩
    · omega
    · rw [Region.exhausted, kind]

/-- With the grower that settings ask for, wherever operations lead, a static block is handed out
exactly if it ends within the cap. It starts at the old top and ends at the new one, and the memory
stays as large as it was if the block fits, and otherwise takes its size doubled as often as needed,
or the cap. With any grower, a block that ends within the cap but beyond the limit is asked for once,
and handed out exactly if the answer is large enough; for no other block the grower is asked. -/
theorem staticAlloc_up_to_cap {c : Config} (valid : c.validate = .ok ())
    (small : c.memory.cap < addressSpace) :
    (∃ start, ofConfig c = .ok start ∧
      ∀ before : List Operation, (∀ op ∈ before, op.growsStack = false) → ∀ size,
        let m := reached before start
        let needed := alignUp (m.statics.top + size) c.quantum.bytes
        let outcome := staticAlloc size m
        (needed ≤ c.memory.cap →
          outcome.result = .ok m.statics.top ∧ outcome.state.statics.top = needed ∧
          (needed ≤ m.statics.limit → outcome.state.size = m.size) ∧
          (m.statics.limit < needed → ∃ k, IsLeast {k | needed ≤ m.size * 2 ^ k} k ∧
            outcome.state.size = min c.memory.cap (m.size * 2 ^ k))) ∧
        (c.memory.cap < needed → outcome.result =
          .error (.outOfMemory .static size m.statics.top m.statics.limit))) ∧
    ∀ grower start, create c grower = .ok start →
      ∀ before : List Operation, (∀ op ∈ before, op.growsStack = false) →
      ∀ policy : Policy, policy.region = .static → policy.growable = true → ∀ size alignment,
        let m := reached before start
        let needed := alignUp (m.statics.top + size) (m.effectiveAlignment alignment)
        let outcome := alloc policy size alignment m
        (¬ (m.statics.limit < needed ∧ needed ≤ c.memory.cap) →
          outcome.state.grower.history = m.grower.history) ∧
        (m.statics.limit < needed → needed ≤ c.memory.cap →
          outcome.state.grower.history = ⟨m.size, needed, m.offer needed⟩ :: m.grower.history ∧
          ((∃ address, outcome.result = .ok address) ↔
            ∃ given, m.offer needed = some given ∧ needed ≤ given)) := by
  constructor
  · refine ⟨_, create_of_validate valid _, fun before fixed size => ?_⟩
    intro m
    have provided : m.Provided c := (provided_start valid).reached fixed
    have quantum : m.quantum = c.quantum := congrArg Settings.quantum provided.settings_eq
    have allocated := staticAlloc_cases provided.toWellFormed size
    rw [quantum] at allocated
    exact provided.staticAllocated small allocated
  · intro grower start created before fixed policy static growable size alignment m
    obtain ⟨-, rfl⟩ := create_eq_ok.mp created
    have startSound := ofLayout_wellFormed valid grower
    have sound : m.WellFormed := (startSound.reached fixed).1
    have cap : m.cap = c.memory.cap :=
      congrArg Settings.cap (startSound.toOrderly.settings_reached before)
    have allocated := alloc_static_cases sound static growable size alignment
    exact cap ▸ allocated.asked (cap ▸ small)

/-- A memory of 128 bytes is doubled twice for a block that ends at 372, takes the cap for one that
ends there, and has no room for a larger one. A grower that answers too little is asked once. -/
theorem staticAlloc_up_to_cap_doubled :
    ∃ start, ofConfig { memory := ⟨64, 128, 700⟩ } = .ok start ∧
      (staticAlloc 300 start).result = .ok 72 ∧ (staticAlloc 300 start).state.size = 512 ∧
      (staticAlloc 628 start).state.size = 700 ∧
      (staticAlloc 629 start).result = .error (.outOfMemory .static 629 72 128) ∧
      ∃ stingy, create { memory := ⟨64, 128, 700⟩ } { policy := fun _ _ _ => some 100 } = .ok stingy ∧
        (alloc .static 300 0 stingy).state.grower.history = [⟨128, 372, some 100⟩] ∧
        ¬ ∃ address, (alloc .static 300 0 stingy).result = .ok address := by
  have twice : IsLeast {k | 372 ≤ 128 * 2 ^ k} 2 :=
    isLeast_doubling_succ (by decide) (isLeast_doubling_succ (by decide)
      (isLeast_doubling_zero (by decide)))
  have thrice : IsLeast {k | 700 ≤ 128 * 2 ^ k} 3 :=
    isLeast_doubling_succ (by decide) (isLeast_doubling_succ (by decide)
      (isLeast_doubling_succ (by decide) (isLeast_doubling_zero (by decide))))
  obtain ⟨⟨start, created, blocks⟩, asked⟩ :=
    staticAlloc_up_to_cap (c := { memory := ⟨64, 128, 700⟩ }) rfl (by decide)
  refine ⟨start, created, ?_⟩
  obtain ⟨-, rfl⟩ := create_eq_ok.mp created
  obtain ⟨answer, -, -, grown⟩ := (blocks [] nofun 300).1 (by decide)
  obtain ⟨k, least, size⟩ := grown (by decide)
  obtain rfl := least.unique twice
  obtain ⟨-, -, -, grown⟩ := (blocks [] nofun 628).1 (by decide)
  obtain ⟨k, least, cap⟩ := grown (by decide)
  obtain rfl := least.unique thrice
  have created' := create_of_validate (c := { memory := ⟨64, 128, 700⟩ }) rfl
    { policy := fun _ _ _ => some 100 }
  obtain ⟨history, served⟩ :=
    (asked _ _ created' [] nofun .static rfl rfl 300 0).2 (by decide) (by decide)
  refine ⟨answer, size, cap, (blocks [] nofun 629).2 (by decide), _, created', history, ?_⟩
  intro answered
  obtain ⟨given, offered, enough⟩ := served.mp answered
  cases offered
  exact absurd enough (by decide)

end Memory

end LinearHost
