import LinearHost.Proofs.Memory.Change

/-!
# Well-formed memories

The two regions divide the image, and the static one reaches to its end. Settings that agree give a
memory of this form, and every operation keeps it, failing or not and whatever the grower answers, as
long as no policy lets the stack grow. So no operation ever reaches outside the image.

## Main definitions

* `Memory.WellFormed`: the regions divide the image.
* `Memory.bounds`: the ends of the regions that never move.
* `Memory.run_wellFormed`: every memory that operations lead to has this form.
-/

namespace LinearHost

/-- Settings agree if the stack ends at an address, fits into the memory at the start, and this does
not exceed the cap. -/
theorem Config.validate_eq_ok {c : Config} :
    c.validate = .ok () ↔
      c.stackBase + c.memory.stack < addressSpace ∧
        c.quantum.align (c.stackBase + c.memory.stack) ≤ c.memory.initial ∧
        c.memory.initial ≤ c.memory.cap := by
  unfold validate blockEnd?
  by_cases representable : c.stackBase + c.memory.stack < addressSpace
  · by_cases small : c.memory.initial < c.quantum.align (c.stackBase + c.memory.stack)
    · have unfit : ¬ c.quantum.align (c.stackBase + c.memory.stack) ≤ c.memory.initial := by omega
      simp [representable, small, unfit]
    · by_cases capped : c.memory.cap < c.memory.initial
      · simp [representable, small, capped]
      · simp [representable, small, capped]
        omega
  · simp [representable]

/-- Tells whether an operation may let the memory grow for a block of the stack. -/
def Operation.growsStack : Operation → Bool
  | .alloc policy _ _ => policy.region = .stack && policy.growable
  | _ => false

theorem Operation.growable_of_growsStack {op : Operation} {policy : Policy}
    (fixed : op.growsStack = false) (uses : op.policy? = some policy)
    (stack : policy.region = .stack) : policy.growable = false := by
  cases op with
  | alloc given _ _ =>
    obtain rfl : given = policy := Option.some.inj uses
    simpa [growsStack, stack] using fixed
  | allocate kind _ =>
    cases kind with
    | stack => exact Option.some.inj uses ▸ rfl
    | static => exact absurd stack (Option.some.inj uses ▸ nofun)
  | stackAlloc => exact Option.some.inj uses ▸ rfl
  | enter => exact Option.some.inj uses ▸ rfl
  | enterForced => exact Option.some.inj uses ▸ rfl
  | staticAlloc => exact absurd stack (Option.some.inj uses ▸ nofun)
  | _ => cases uses

namespace Memory

/-- The stack starts at 8 or above, the static region follows it and reaches to the end of the image,
and the image has not grown beyond the cap. -/
structure WellFormed (m : Memory) : Prop extends Orderly m where
  floor_le : Config.stackFloor ≤ m.stack.base
  separate : m.stack.limit ≤ m.statics.base
  statics_limit : m.statics.limit = m.size
  size_le_cap : m.size ≤ m.cap

def bounds (m : Memory) : Nat × Nat × Nat × Nat :=
  (m.stack.base, m.stack.limit, m.statics.base, m.cap)

variable {m after room : Memory} {op : Operation} {policy : Policy} {size alignment top : Nat}

theorem bounds_eq_iff :
    after.bounds = m.bounds ↔
      after.stack.base = m.stack.base ∧ after.stack.limit = m.stack.limit ∧
        after.statics.base = m.statics.base ∧ after.cap = m.cap := by
  simp only [bounds, Prod.mk.injEq]

/-! ### The memory at the start -/

/-- A memory is made exactly from valid settings. -/
theorem create_eq_ok {c : Config} {grower : Grower} {start : Memory} :
    create c grower = .ok start ↔ c.validate = .ok () ∧ start = ofLayout c grower := by
  cases valid : c.validate with
  | ok => simp [create, valid, bind, Except.bind, pure, Except.pure, eq_comm]
  | error fault => simp [create, valid, bind, Except.bind]

theorem create_of_validate {c : Config} (valid : c.validate = .ok ()) (grower : Grower) :
    create c grower = .ok (ofLayout c grower) :=
  create_eq_ok.mpr ⟨valid, rfl⟩

/-- The memory of valid settings is well formed. -/
theorem ofLayout_wellFormed {c : Config} (valid : c.validate = .ok ()) (grower : Grower) :
    (ofLayout c grower).WellFormed := by
  obtain ⟨-, fits, capped⟩ := Config.validate_eq_ok.mp valid
  have separate := c.quantum.le_align (c.stackBase + c.memory.stack)
  refine ⟨⟨fun kind => ?_, nofun⟩, c.quantum.le_align Config.stackFloor, separate, ?_, ?_⟩
  · cases kind with
    | stack => exact ⟨Nat.le_refl _, Nat.le_add_right ..⟩
    | static => exact ⟨Nat.le_refl _, fits⟩
  · exact (Image.size_blank _).symm
  · simpa [ofLayout, Memory.size] using capped

/-! ### What operations keep -/

/-- Every region ends inside the image. -/
theorem WellFormed.limit_le_size (sound : m.WellFormed) (kind : RegionKind) :
    (m.region kind).limit ≤ m.size := by
  have ordered : m.statics.Ordered := sound.ordered .static
  have base_le_top := ordered.base_le_top
  have top_le_limit := ordered.top_le_limit
  have separate := sound.separate
  have statics_limit := sound.statics_limit
  cases kind with
  | stack =>
    show m.stack.limit ≤ m.size
    omega
  | static =>
    show m.statics.limit ≤ m.size
    omega

theorem WellFormed.congr (sound : m.WellFormed) (orderly : after.Orderly)
    (bounds : after.bounds = m.bounds) (limit : after.statics.limit = m.statics.limit)
    (size : after.size = m.size) : after.WellFormed := by
  obtain ⟨base, stackLimit, staticsBase, cap⟩ := bounds_eq_iff.mp bounds
  exact
    { orderly with
      floor_le := base ▸ sound.floor_le
      separate := stackLimit ▸ staticsBase ▸ sound.separate
      statics_limit := by rw [limit, size, sound.statics_limit]
      size_le_cap := size ▸ cap ▸ sound.size_le_cap }

section

variable (m : Memory) (policy : Policy) (top savedTop : Nat)

@[simp] theorem bounds_claim : (m.claim policy top).bounds = m.bounds := by
  cases kind : policy.region <;> simp [claim, bounds, modifyRegion, kind]

@[simp] theorem statics_limit_claim : (m.claim policy top).statics.limit = m.statics.limit := by
  cases kind : policy.region <;> simp [claim, modifyRegion, kind]

@[simp] theorem size_claim : (m.claim policy top).size = m.size := by
  simp [claim, claimed, size]

@[simp] theorem size_released : (m.released savedTop).size = m.image.size := by
  unfold released
  split <;> simp

@[simp] theorem size_resized (kind : RegionKind) (n : Nat) : (m.resized kind n).size = n := by
  simp [resized, size]

end

/-- A block that is found lies inside the image. -/
theorem Reserved.hasWindow (sound : m.WellFormed)
    (reserved : Reserved m policy size alignment (.ok top) room) :
    room.hasWindow (m.region policy.region).top top = true := by
  obtain ⟨top_add_le, le_limit⟩ := reserved.top_mem
  have le_size : top ≤ room.size := by
    cases reserved with
    | fits fit => exact Nat.le_trans le_limit (sound.limit_le_size policy.region)
    | grown full growable stop le_cap granted =>
      rw [size_resized]
      exact (needed_le_of_grownSize? le_cap granted).1
  exact hasWindow_iff.mpr ⟨by omega, le_size⟩

/-- If the stack grows for a block, then to the size that the memory has, and not over any byte of the
static region. -/
def IdleGrowth (m : Memory) (policy : Policy) (size alignment : Nat) : Prop :=
  policy.region = .stack → ∀ after, m.growth? policy size alignment = some after →
    after = m.size ∧ m.statics.base = m.size

/-- A policy that is not growable lets the stack grow in no way. -/
theorem idleGrowth_of_growable (fixed : policy.region = .stack → policy.growable = false) :
    m.IdleGrowth policy size alignment := by
  intro stack after grown
  rw [growth?_of_growable (fixed stack)] at grown
  cases grown

/-- Growth of the static region keeps the form of the memory. -/
theorem Reserved.wellFormed {result : Except Fault Nat} (sound : m.WellFormed)
    (idle : m.IdleGrowth policy size alignment)
    (reserved : Reserved m policy size alignment result room) : room.WellFormed := by
  have orderly := reserved.orderly sound.toOrderly
  cases reserved with
  | fits fit => exact sound
  | @grown needed after full growable stop le_cap granted =>
    have capped := (needed_le_of_grownSize? le_cap granted).2
    cases kind : policy.region with
    | stack =>
      rw [kind] at orderly
      obtain ⟨same, nothing⟩ := idle kind after
        (growth?_eq_some.mpr ⟨growable, full, needed, stop, le_cap, granted⟩)
      refine ⟨orderly, sound.floor_le, ?_, ?_, ?_⟩
      · show after ≤ m.statics.base
        omega
      · rw [size_resized, same]
        exact sound.statics_limit
      · rw [size_resized]
        exact capped
    | static =>
      rw [kind] at orderly
      refine ⟨orderly, sound.floor_le, sound.separate, ?_, ?_⟩
      · rw [size_resized]
        rfl
      · rw [size_resized]
        exact capped
  | exhausted full unasked => exact sound
  | refused full growable stop le_cap refused => exact sound.congr orderly rfl rfl rfl

/-- Where only the static region may grow, the bounds stay where they are. -/
theorem Reserved.bounds {result : Except Fault Nat}
    (fixed : policy.region = .stack → policy.growable = false)
    (reserved : Reserved m policy size alignment result room) : room.bounds = m.bounds := by
  cases reserved with
  | grown full growable stop le_cap granted =>
    cases kind : policy.region with
    | stack => simp [fixed kind] at growable
    | static => rfl
  | _ => rfl

/-- What a closed frame leaves behind lies inside the image. -/
theorem WellFormed.hasWindow_stack (sound : m.WellFormed) {savedTop : Nat}
    (lower : savedTop < m.stack.top) : m.hasWindow savedTop m.stack.top = true := by
  have stack : m.stack.Ordered := sound.ordered .stack
  have top_le_limit := stack.top_le_limit
  have limit_le_size : m.stack.limit ≤ m.size := sound.limit_le_size .stack
  exact hasWindow_iff.mpr ⟨by omega, by omega⟩

/-- A change keeps a memory well formed, unless the stack grows. -/
theorem Change.wellFormed {result : Except Fault Answer} (sound : m.WellFormed)
    (fixed : op.growsStack = false) (change : Change m op result after) :
    after.WellFormed ∧ after.bounds = m.bounds := by
  have orderly := change.orderly sound.toOrderly
  cases change with
  | answered => exact ⟨sound, rfl⟩
  | failed returned unexhausted => exact ⟨sound, rfl⟩
  | refused uses growable => exact ⟨sound.congr orderly rfl rfl rfl, rfl⟩
  | taken uses reserved inside =>
    have fixed := Operation.growable_of_growsStack fixed uses
    have roomSound := reserved.wellFormed sound (idleGrowth_of_growable fixed)
    have kept := reserved.bounds fixed
    exact ⟨roomSound.congr orderly (by simp) (by simp) (by simp), by simpa using kept⟩
  | escaped uses reserved outside =>
    rw [reserved.hasWindow sound] at outside
    cases outside
  | rejected fit inside asserted => exact ⟨sound.congr orderly rfl rfl (Image.size_update ..), rfl⟩
  | opened => exact ⟨sound.congr orderly rfl rfl rfl, rfl⟩
  | filled fit inside => exact ⟨sound.congr orderly rfl rfl (size_claim ..), rfl⟩
  | closed innermost inside => exact ⟨sound.congr orderly rfl rfl (size_released ..), rfl⟩
  | unreleased innermost lower outside => exact ⟨sound.congr orderly rfl rfl rfl, rfl⟩
  | moved base_le le_limit => exact ⟨sound.congr orderly rfl rfl rfl, rfl⟩
  | placed inside => exact ⟨sound.congr orderly rfl rfl (Image.size_overwrite ..), rfl⟩

/-- No operation on a well-formed memory reaches outside the image. -/
theorem Change.isFatal_eq_false {fault : Fault} (sound : m.WellFormed)
    (change : Change m op (.error fault) after) :
    fault.isFatal = false := by
  cases change with
  | failed returned unexhausted => exact returned
  | refused uses growable => rfl
  | escaped uses reserved outside =>
    rw [reserved.hasWindow sound] at outside
    cases outside
  | rejected fit inside asserted => rfl
  | unreleased innermost lower outside =>
    rw [sound.hasWindow_stack lower] at outside
    cases outside

/-! ### Runs -/

theorem wellFormed_next (sound : m.WellFormed) (fixed : op.growsStack = false) :
    (next m op).WellFormed ∧ (next m op).bounds = m.bounds :=
  (step_change m sound.toOrderly op).wellFormed sound fixed

/-- Every run that lets no stack grow keeps a memory well formed. -/
theorem WellFormed.reached {ops : List Operation} (sound : m.WellFormed)
    (fixed : ∀ op ∈ ops, op.growsStack = false) :
    (reached ops m).WellFormed ∧ (reached ops m).bounds = m.bounds := by
  refine reached_induction (·.growsStack = false) (fun n => n.WellFormed ∧ n.bounds = m.bounds)
    (fun n op sound fixed => ?_) fixed ⟨sound, rfl⟩
  obtain ⟨sound, kept⟩ := sound
  obtain ⟨stepSound, stepKept⟩ := wellFormed_next sound fixed
  exact ⟨stepSound, stepKept.trans kept⟩

/-- No operation on a well-formed memory fails fatally. -/
theorem WellFormed.isFatal_eq_false {ops : List Operation} (sound : m.WellFormed)
    (fixed : ∀ op ∈ ops, op.growsStack = false) :
    ∀ result ∈ answers ops m, ∀ fault, result = .error fault → fault.isFatal = false := by
  refine answers_induction (·.growsStack = false) WellFormed
    (fun n op sound fixed => ?_) (fun n op sound fixed fault failed => ?_) fixed sound
  · exact (wellFormed_next sound fixed).1
  · have change := step_change n sound.toOrderly op
    rw [failed] at change
    exact change.isFatal_eq_false sound

/-- Settings that agree give a memory, and wherever operations lead from there, whatever they
answered and whatever the grower answered them, every byte has a mark, the two regions divide the
image from 8 on, their outer ends have not moved, the tops lie in their regions, and no operation
reached outside the image. Only a policy that lets the stack grow is left out. -/
theorem run_wellFormed {c : Config} (valid : c.validate = .ok ()) (grower : Grower) :
    ∃ start, create c grower = .ok start ∧
      ∀ ops : List Operation, (∀ op ∈ ops, op.growsStack = false) →
        (∀ low high size, .error (.outsideImage low high size) ∉ answers ops start) ∧
        let m := reached ops start
        m.bytes.length = m.size ∧ m.marks.length = m.size ∧
        8 ≤ m.stack.base ∧ m.stack.base ≤ m.stack.top ∧ m.stack.top ≤ m.stack.limit ∧
        m.stack.limit ≤ m.statics.base ∧ m.statics.base ≤ m.statics.top ∧
        m.statics.top ≤ m.statics.limit ∧ m.statics.limit = m.size ∧ m.size ≤ c.memory.cap ∧
        m.stack.base = start.stack.base ∧ m.stack.limit = start.stack.limit ∧
        m.statics.base = start.statics.base ∧
        ∀ top ∈ m.frames, m.stack.base ≤ top ∧ top ≤ m.stack.limit := by
  have sound := ofLayout_wellFormed valid grower
  refine ⟨ofLayout c grower, create_of_validate valid grower, fun ops fixed => ?_⟩
  obtain ⟨reachedSound, kept⟩ := sound.reached fixed
  obtain ⟨base, limit, staticsBase, cap⟩ := by simpa only [bounds, Prod.mk.injEq] using kept
  have stack : (reached ops (ofLayout c grower)).stack.Ordered := reachedSound.ordered .stack
  have statics : (reached ops (ofLayout c grower)).statics.Ordered := reachedSound.ordered .static
  have inside (low high size : Nat) :
      .error (.outsideImage low high size) ∉ answers ops (ofLayout c grower) := fun answered =>
    absurd (sound.isFatal_eq_false fixed _ answered _ rfl) nofun
  refine ⟨inside, length_bytes _, length_marks _, reachedSound.floor_le,
    stack.base_le_top, stack.top_le_limit, reachedSound.separate, statics.base_le_top,
    statics.top_le_limit, reachedSound.statics_limit, ?_, base, limit, staticsBase,
    reachedSound.saved⟩
  have cap : (reached ops (ofLayout c grower)).cap = c.memory.cap := cap
  exact cap ▸ reachedSound.size_le_cap

/-- A small memory that grows for a static block after a frame was opened and closed twice. -/
theorem run_wellFormed_small :
    ∃ start,
      create { checks := .debug, memory := ⟨64, 128, 512⟩ } (.doubling 512) = .ok start ∧
      let ops := [.enter 16, .exit (.active 8 1), .exit (.active 8 1), .staticAlloc 100]
      (∀ low high size, .error (.outsideImage low high size) ∉ answers ops start) ∧
      (reached ops start).stack.limit = start.stack.limit ∧ (reached ops start).size ≤ 512 := by
  obtain ⟨start, created, all⟩ :=
    run_wellFormed (c := { checks := .debug, memory := ⟨64, 128, 512⟩ }) rfl (.doubling 512)
  obtain ⟨inside, -, -, -, -, -, -, -, -, -, capped, -, limit, -⟩ :=
    all [.enter 16, .exit (.active 8 1), .exit (.active 8 1), .staticAlloc 100] (by decide)
  exact ⟨start, created, inside, limit, capped⟩

end Memory

end LinearHost
