import LinearHost.Proofs.Along
import LinearHost.Proofs.Layout.Consistency
import LinearHost.Proofs.Layout.Placement

/-!
# What a registry holds

A registration finds a type that is there, or is refused, or adds one type at the end. So the types
stand in the order of their identifiers, none is ever replaced, a name has one type, and a shape
without a name has one type.

## Main definitions

* `Registry.Knows`: fields that embed no foreign struct.
* `Registry.Sound`: what holds of the types of a registry.
* `Registry.registrations_sound`: every registry that registrations lead to is sound.
-/

namespace LinearHost

namespace Registry

variable {r : Registry} {entry : Registration} {type s t : StructType} {fields : List Descriptor}
  {packed : Bool} {name : String} {id : Nat}

/-! ### Types never go away -/

/-- Types are added at the end and never taken away. -/
theorem Consistent.types_reached (consistent : r.Consistent) (entries : List Registration) :
    r.types <+: (Registry.reached entries r).types := by
  induction entries generalizing r with
  | nil => exact List.prefix_refl _
  | cons entry rest ih =>
    refine List.IsPrefix.trans ?_ (ih (consistent.extended entry))
    rcases extended_eq r entry with same | added
    · simp [same]
    · rw [added, consistent.types_add]
      exact List.prefix_append _ _

theorem Consistent.mem_reached (consistent : r.Consistent) (mem : type ∈ r.types)
    (entries : List Registration) : type ∈ (Registry.reached entries r).types :=
  (consistent.types_reached entries).mem mem

/-- An identifier means the same type for ever. -/
theorem Consistent.get?_reached (consistent : r.Consistent) (found : r.get? id = some type)
    (entries : List Registration) : (Registry.reached entries r).get? id = some type := by
  obtain ⟨mem, same⟩ := consistent.get?_eq_some_iff.mp found
  exact (consistent.reached entries).get?_eq_some_iff.mpr
    ⟨consistent.mem_reached mem entries, same⟩

/-- A name means the same type for ever. -/
theorem Consistent.named?_reached (consistent : r.Consistent) (found : r.named? name = some type)
    (entries : List Registration) : (Registry.reached entries r).named? name = some type := by
  obtain ⟨mem, named⟩ := consistent.named?_eq_some_iff.mp found
  exact (consistent.reached entries).named?_eq_some_iff.mpr
    ⟨consistent.mem_reached mem entries, named⟩

theorem Consistent.named?_extended_eq_none_iff (consistent : r.Consistent) :
    (r.extended entry).named? name = none ↔ r.named? name = none ∧ entry.name ≠ some name := by
  have later := consistent.extended entry
  have answered := consistent.perform_cases entry
  generalize (perform entry r).result = result at answered
  generalize r.extended entry = after at answered later ⊢
  cases answered with
  | @present type found named shape =>
    refine ⟨fun absent => ⟨absent, ?_⟩, And.left⟩
    exact named ▸ consistent.named?_eq_none_iff.mp absent type found
  | @refused taken type named found other =>
    refine ⟨fun absent => ⟨absent, ?_⟩, And.left⟩
    rw [named]
    rintro ⟨⟩
    rw [found] at absent
    cases absent
  | added fresh =>
    have named : (r.next entry.name entry.fields entry.packed).name = entry.name := rfl
    simp only [later.named?_eq_none_iff, consistent.named?_eq_none_iff, consistent.mem_types_add,
      or_imp, forall_and, forall_eq, named]

/-- The names of a registry are those that were registered. -/
theorem Consistent.named?_reached_eq_none_iff (consistent : r.Consistent)
    {entries : List Registration} :
    (Registry.reached entries r).named? name = none ↔
      r.named? name = none ∧ ∀ entry ∈ entries, entry.name ≠ some name := by
  induction entries generalizing r with
  | nil => simp [Registry.reached]
  | cons entry rest ih =>
    have step : Registry.reached (entry :: rest) r =
        Registry.reached rest (r.extended entry) := rfl
    rw [step, ih (consistent.extended entry), consistent.named?_extended_eq_none_iff,
      List.forall_mem_cons, and_assoc]

theorem Consistent.size_reached_le (consistent : r.Consistent) (entries : List Registration) :
    (Registry.reached entries r).size ≤ r.size + entries.length := by
  induction entries generalizing r with
  | nil => exact Nat.le_refl _
  | cons entry rest ih =>
    have step : (r.extended entry).size ≤ r.size + 1 := by
      rcases extended_eq r entry with same | added
      · rw [same]
        exact Nat.le_succ _
      · rw [added]
        exact Nat.le_of_eq (consistent.size_add _)
    calc (Registry.reached rest (r.extended entry)).size
        ≤ (r.extended entry).size + rest.length := ih (consistent.extended entry)
      _ ≤ r.size + 1 + rest.length := Nat.add_le_add_right step _
      _ = r.size + (entry :: rest).length := by rw [List.length_cons]; omega

/-! ### Sound registries -/

def Knows (r : Registry) (fields : List Descriptor) : Prop :=
  ∀ type, .struct type ∈ fields → type ∈ r.types

/-- The struct that a field embeds, if it embeds one, is a type of the registry. -/
def KnowsField (r : Registry) (d : Descriptor) : Prop :=
  ∀ type, d = .struct type → type ∈ r.types

/-- A registration embeds types of the registry only. -/
def Admits (r : Registry) (entry : Registration) : Prop := r.Knows entry.fields

structure Sound (r : Registry) : Prop extends Consistent r where
  layout_eq : ∀ type ∈ r.types, type.layout = .ofFields type.fields type.packed r.quantum
  /-- A type embeds older types only. -/
  older : ∀ type ∈ r.types, ∀ inner, .struct inner ∈ type.fields →
    inner ∈ r.types ∧ inner.id < type.id
  /-- Two types differ in their names, or have none and differ in their shapes. -/
  unique : ∀ s ∈ r.types, ∀ t ∈ r.types, s.name = t.name →
    (s.name = none → s.fields = t.fields ∧ s.packed = t.packed) → s = t

theorem sound_empty (q : Quantum) : ({ quantum := q } : Registry).Sound :=
  ⟨consistent_empty q, nofun, nofun, nofun⟩

theorem Sound.knows (sound : r.Sound) (mem : type ∈ r.types) : r.Knows type.fields :=
  fun inner embedded => (sound.older type mem inner embedded).1

/-! ### Shapes -/

/-- Comparing structs by identifier loses nothing among the types of one registry. -/
theorem Sound.same_iff (sound : r.Sound) {d e : Descriptor} (left : r.KnowsField d)
    (right : r.KnowsField e) : d.same e = true ↔ d = e := by
  cases d <;> cases e <;> simp only [Descriptor.same, decide_eq_true_eq, reduceCtorEq,
    Bool.false_eq_true, Descriptor.int.injEq, Descriptor.bytes.injEq, Descriptor.struct.injEq]
  next s t => exact ⟨sound.eq_of_id (left s rfl) (right t rfl), congrArg StructOf.id⟩

theorem Knows.field {d : Descriptor} (knows : r.Knows fields) (mem : d ∈ fields) :
    r.KnowsField d :=
  fun type same => knows type (same ▸ mem)

theorem Knows.tail {d : Descriptor} (knows : r.Knows (d :: fields)) : r.Knows fields :=
  fun type mem => knows type (List.mem_cons_of_mem _ mem)

/-- Nor does comparing the fields of two shapes. -/
theorem Sound.sameAll_iff (sound : r.Sound) {others : List Descriptor} (left : r.Knows fields)
    (right : r.Knows others) : Descriptor.sameAll fields others = true ↔ fields = others := by
  induction fields generalizing others with
  | nil => cases others <;> simp [Descriptor.sameAll]
  | cons d fields ih =>
    cases others with
    | nil => simp [Descriptor.sameAll]
    | cons e others =>
      have first := left.field (List.mem_cons_self ..)
      have second := right.field (List.mem_cons_self ..)
      rw [Descriptor.sameAll, Bool.and_eq_true, sound.same_iff first second,
        ih left.tail right.tail, List.cons.injEq]

/-- A type has a shape exactly if its fields and its packing are equal to those of the shape. -/
theorem Sound.hasShape_iff (sound : r.Sound) (mem : type ∈ r.types) (knows : r.Knows fields) :
    StructType.hasShape type fields packed = true ↔
      type.fields = fields ∧ type.packed = packed := by
  rw [StructType.hasShape, Bool.and_eq_true, decide_eq_true_eq,
    sound.sameAll_iff (sound.knows mem) knows, and_comm]

/-! ### Registrations keep a registry sound -/

/-- A type that is made of older ones, with a fresh name or shape, keeps a registry sound. -/
theorem Sound.added (sound : r.Sound) (knows : r.Knows entry.fields)
    (fresh : ∀ type ∈ r.types, type.name = entry.name →
      entry.name = none ∧ StructType.hasShape type entry.fields entry.packed = false) :
    (r.add (r.next entry.name entry.fields entry.packed)).Sound := by
  -- an older type of the same name has another shape
  have apart (old : StructType) (mem : old ∈ r.types) (same : old.name = entry.name)
      (shapes : old.name = none → old.fields = entry.fields ∧ old.packed = entry.packed) :
      False := by
    obtain ⟨unnamed, other⟩ := fresh old mem same
    rw [(sound.hasShape_iff mem knows).mpr (shapes (same.trans unnamed))] at other
    cases other
  refine ⟨sound.toConsistent.add rfl fun name named => ?_, fun type mem => ?_,
    fun type mem inner embedded => ?_, fun s left t right same shapes => ?_⟩
  · refine sound.named?_eq_none_iff.mpr fun old mem same => ?_
    obtain ⟨unnamed, -⟩ := fresh old mem (same.trans named.symm)
    cases unnamed.symm.trans named
  · obtain old | rfl := sound.mem_types_add.mp mem
    · exact sound.layout_eq type old
    · rfl
  · obtain old | rfl := sound.mem_types_add.mp mem
    · obtain ⟨known, lower⟩ := sound.older type old inner embedded
      exact ⟨sound.mem_types_add.mpr (.inl known), lower⟩
    · have known := knows inner embedded
      have numbered : inner.id < r.nextId :=
        sound.nextId_eq ▸ Nat.lt_succ_of_le (sound.id_mem known).2
      exact ⟨sound.mem_types_add.mpr (.inl known), numbered⟩
  · obtain left | rfl := sound.mem_types_add.mp left
    · obtain right | rfl := sound.mem_types_add.mp right
      · exact sound.unique s left t right same shapes
      · exact (apart s left same shapes).elim
    · obtain right | rfl := sound.mem_types_add.mp right
      · refine (apart t right same.symm fun unnamed => ?_).elim
        obtain ⟨sameFields, samePacked⟩ := shapes (same.trans unnamed)
        exact ⟨sameFields.symm, samePacked.symm⟩
      · rfl

theorem Sound.extended (sound : r.Sound) (admits : r.Admits entry) : (r.extended entry).Sound := by
  have answered := sound.perform_cases entry
  generalize (perform entry r).result = result at answered
  generalize r.extended entry = after at answered ⊢
  cases answered with
  | present | refused => exact sound
  | added fresh => exact sound.added admits fresh

theorem Sound.reached {entries : List Registration} (sound : r.Sound)
    (own : Along Registry.extended Admits entries r) : (reached entries r).Sound := by
  induction entries generalizing r with
  | nil => exact sound
  | cons entry rest ih => exact ih (sound.extended own.1) own.2

/-! ### Looking shapes up -/

/-- A shape leads to the one type without a name that has it. -/
theorem Sound.interned?_eq_some_iff (sound : r.Sound) (knows : r.Knows fields) :
    r.interned? ⟨fields, packed⟩ = some type ↔
      type ∈ r.types ∧ type.name = none ∧ type.fields = fields ∧ type.packed = packed := by
  constructor
  · intro found
    obtain ⟨mem, unnamed, shape⟩ := sound.mem_of_interned? found
    exact ⟨mem, unnamed, (sound.hasShape_iff mem knows).mp shape⟩
  · rintro ⟨mem, unnamed, rfl, rfl⟩
    cases found : r.interned? ⟨type.fields, type.packed⟩ with
    | none =>
      have other := sound.interned?_eq_none_iff.mp found type mem unnamed
      rw [(sound.hasShape_iff mem knows).mpr ⟨rfl, rfl⟩] at other
      cases other
    | some other =>
      obtain ⟨otherMem, otherUnnamed, shape⟩ := sound.mem_of_interned? found
      have same := sound.unique other otherMem type mem (otherUnnamed.trans unnamed.symm)
        fun _ => (sound.hasShape_iff otherMem knows).mp shape
      rw [same]

/-! ### What registrations answer -/

/-- A registration that succeeds answers a type of the name and the shape that were asked for. -/
theorem Sound.of_ok (sound : r.Sound) (admits : r.Admits entry)
    (answer : (perform entry r).result = .ok type) :
    type ∈ (r.extended entry).types ∧ type.name = entry.name ∧ type.fields = entry.fields ∧
      type.packed = entry.packed := by
  have answered := sound.perform_cases entry
  rw [answer] at answered
  generalize r.extended entry = after at answered ⊢
  cases answered with
  | present found named shape => exact ⟨found, named, (sound.hasShape_iff found admits).mp shape⟩
  | added fresh => exact ⟨sound.mem_types_add.mpr (.inr rfl), rfl, rfl, rfl⟩

/-- A type that is there is answered again. -/
theorem Sound.perform_of_mem (sound : r.Sound) (knows : r.Knows type.fields)
    (mem : type ∈ r.types) (entries : List Registration) :
    (perform ⟨type.name, type.fields, type.packed⟩ (Registry.reached entries r)).result =
      .ok type := by
  cases named : type.name with
  | some name =>
    have later := sound.toConsistent.named?_reached (sound.named?_eq_some_iff.mpr ⟨mem, named⟩)
      entries
    obtain ⟨id, bound, found⟩ := Option.bind_eq_some_iff.mp later
    have shape := (sound.hasShape_iff mem knows).mpr ⟨rfl, rfl⟩
    simp [perform, register, Action.bind_apply, bound, found, shape]
  | none =>
    have found := (sound.interned?_eq_some_iff knows).mpr ⟨mem, named, rfl, rfl⟩
    simp [perform, intern, Action.bind_apply, interned?_reached found entries]

/-- Only a name that is bound to another shape is refused. -/
theorem Sound.error_iff (sound : r.Sound) (admits : r.Admits entry) {fault : Fault} :
    (perform entry r).result = .error fault ↔
      ∃ name, entry.name = some name ∧ fault = .nameTaken name ∧
        ∃ type ∈ r.types, type.name = some name ∧
          ¬ (type.fields = entry.fields ∧ type.packed = entry.packed) := by
  have answered := sound.perform_cases entry
  generalize r.extended entry = after at answered
  constructor
  · intro failed
    rw [failed] at answered
    cases answered with
    | @refused name type named found other =>
      obtain ⟨mem, taken⟩ := sound.named?_eq_some_iff.mp found
      refine ⟨name, named, rfl, type, mem, taken, fun same => ?_⟩
      rw [(sound.hasShape_iff mem admits).mpr same] at other
      cases other
  · rintro ⟨name, named, rfl, type, mem, taken, differs⟩
    generalize (perform entry r).result = result at answered
    cases answered with
    | @present found there same shape =>
      obtain rfl := sound.unique found there type mem (by rw [same, named, taken])
        fun unnamed => by
          rw [same, named] at unnamed
          cases unnamed
      exact absurd ((sound.hasShape_iff mem admits).mp shape) differs
    | refused otherNamed =>
      rw [named] at otherNamed
      cases otherNamed
      rfl
    | added fresh =>
      obtain ⟨unnamed, -⟩ := fresh type mem (taken.trans named.symm)
      rw [named] at unnamed
      cases unnamed

/-- A registration that fails changes nothing. -/
theorem Sound.extended_of_error (sound : r.Sound) {fault : Fault}
    (failed : (perform entry r).result = .error fault) : r.extended entry = r := by
  have answered := sound.perform_cases entry
  rw [failed] at answered
  generalize r.extended entry = after at answered ⊢
  cases answered
  rfl

/-- Whatever structs are registered and interned, each made of types of the registry itself: types
are stored under their identifiers, which count from 1 without a gap up to the counter, and an
identifier means the same type for ever. The two indices tell what is in the store: a name is bound
to the identifier of the one type of this name, from its first registration on, and a shape leads to
the one type without a name that has it. Types are laid out for the quantum of the registry and embed
older types only. A registration answers a type of the name and the shape that were asked for, and
the same one when it is repeated. It is refused exactly if the name is bound to another shape, and
then nothing changes. -/
theorem registrations_sound (q : Quantum) (entries : List Registration)
    (own : Along extended Admits entries { quantum := q }) :
    let r := reached entries { quantum := q }
    (r.store.map Prod.fst = List.range' 1 r.size ∧
      r.types.map StructOf.id = List.range' 1 r.size ∧ r.nextId = r.size + 1 ∧
      r.size ≤ entries.length) ∧
    (∀ id, (r.get? id).isSome ↔ 1 ≤ id ∧ id ≤ r.size) ∧
    (∀ id type, r.get? id = some type →
      type.id = id ∧ ∀ more, (reached more r).get? id = some type) ∧
    (∀ name id, r.bound? name = some id ↔ ∃ type, r.get? id = some type ∧ type.name = some name) ∧
    (∀ shape type, (shape, type) ∈ r.shapes ↔
      type ∈ r.types ∧ type.name = none ∧ shape = ⟨type.fields, type.packed⟩) ∧
    (∀ name type, r.named? name = some type ↔ type ∈ r.types ∧ type.name = some name) ∧
    (∀ name, (r.named? name).isSome ↔ ∃ entry ∈ entries, entry.name = some name) ∧
    (∀ s ∈ r.types, ∀ t ∈ r.types, s.name = none → t.name = none → s.fields = t.fields →
      s.packed = t.packed → s = t) ∧
    (∀ type ∈ r.types, type.layout = .ofFields type.fields type.packed q) ∧
    (∀ type ∈ r.types, ∀ inner, .struct inner ∈ type.fields →
      inner ∈ r.types ∧ inner.id < type.id) ∧
    ∀ entry, r.Admits entry →
      (∀ type, (perform entry r).result = .ok type →
        (type ∈ (r.extended entry).types ∧ type.name = entry.name ∧ type.fields = entry.fields ∧
          type.packed = entry.packed) ∧
        ∀ more, (perform entry (reached more (r.extended entry))).result = .ok type) ∧
      (∀ fault, (perform entry r).result = .error fault ↔
        ∃ name, entry.name = some name ∧ fault = .nameTaken name ∧
          ∃ type ∈ r.types, type.name = some name ∧
            ¬ (type.fields = entry.fields ∧ type.packed = entry.packed)) ∧
      ∀ fault, (perform entry r).result = .error fault → r.extended entry = r := by
  intro r
  have sound : r.Sound := (sound_empty q).reached own
  have quantum : r.quantum = q :=
    reached_induction (·.quantum = q) (fun _ _ same => same) entries rfl
  refine ⟨⟨?_, sound.map_id, sound.nextId_eq, ?_⟩, fun _ => sound.isSome_get?_iff,
    fun id type found => ?_, fun name id => ?_, sound.shapes_iff,
    fun _ _ => sound.named?_eq_some_iff, fun name => ?_, ?_, ?_, sound.older,
    fun entry admits => ⟨fun type answer => ?_, fun _ => sound.error_iff admits,
      fun _ => sound.extended_of_error⟩⟩
  · rw [sound.store_eq, List.map_map]
    exact sound.map_id
  · exact Nat.le_trans ((consistent_empty q).size_reached_le entries)
      (Nat.le_of_eq (Nat.zero_add _))
  · exact ⟨(sound.get?_eq_some_iff.mp found).2, sound.toConsistent.get?_reached found⟩
  · simp only [sound.bound?_iff, sound.get?_eq_some_iff, and_assoc]
  · have absent : ({ quantum := q } : Registry).named? name = none := rfl
    rw [Option.isSome_iff_ne_none, ne_eq, (consistent_empty q).named?_reached_eq_none_iff]
    simp [absent]
  · intro s left t right unnamed otherUnnamed fields packed
    exact sound.unique s left t right (unnamed.trans otherUnnamed.symm) fun _ => ⟨fields, packed⟩
  · exact quantum ▸ sound.layout_eq
  · obtain ⟨mem, named, fields, packed⟩ := sound.of_ok admits answer
    have later := sound.extended admits
    refine ⟨⟨mem, named, fields, packed⟩, fun more => ?_⟩
    have again := later.perform_of_mem (later.knows mem) mem more
    rwa [named, fields, packed] at again

/-- A named struct, a shape that embeds it, and the name once more with another shape. -/
theorem registrations_sound_nested :
    let inner := StructType.ofFields 1 (some "Inner") [.int .i16, .int .i32] false .word
    let outer : Registration := ⟨none, [.struct inner], true⟩
    let entries : List Registration :=
      [⟨some "Inner", [.int .i16, .int .i32], false⟩, outer, ⟨some "Inner", [.double], false⟩]
    let r := reached entries { quantum := .word }
    Along extended Admits entries { quantum := .word } ∧
    r.types.map StructOf.id = List.range' 1 r.size ∧ r.size = 2 ∧ r.nextId = 3 ∧
    r.named? "Inner" = some inner ∧ r.Admits outer ∧
    (perform outer (reached [⟨some "Outer", [.float], false⟩] (r.extended outer))).result =
      .ok (.ofFields 2 none [.struct inner] true .word) := by
  intro inner outer entries r
  have knows (r : Registry) (first : r.types[0]? = some inner) : r.Admits outer := by
    intro type mem
    obtain rfl : type = inner := by simpa [outer] using mem
    exact List.mem_of_getElem? first
  have own : Along extended Admits entries { quantum := .word } :=
    ⟨by simp [Admits, Knows], knows _ rfl, by simp [Admits, Knows], trivial⟩
  have size : r.size = 2 := by decide +kernel
  obtain ⟨⟨-, ids, counter, -⟩, -, -, -, -, named, -, -, -, -, answers⟩ :=
    registrations_sound .word entries own
  obtain ⟨again, -⟩ := answers outer (knows r rfl)
  refine ⟨own, ids, size, counter.trans (congrArg (· + 1) size), (named _ _).mpr ⟨?_, rfl⟩,
    knows r rfl, (again _ rfl).2 _⟩
  exact List.mem_of_getElem? (show r.types[0]? = some inner from rfl)

end Registry

end LinearHost
