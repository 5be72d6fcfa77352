import LinearHost.Layout.Registration
import Mathlib.Data.List.Basic

/-!
# The indices of a registry

A registry keeps a type in up to three places: in the store under its identifier, and in the index
of the names or in that of the shapes. A registration that adds a type takes the next identifier and
enters the type in the store and in one of the indices, so that these and the counter always agree.

## Main definitions

* `Registry.next`, `Registry.add`: the type that a registration adds, and the registry with it.
* `Registry.Consistent`: the counter and the indices tell what is in the store.
* `Registry.Answered`, `Registry.perform_cases`: what becomes of a registration.
* `Registry.consistent_reached`: registrations keep a registry consistent.
-/

namespace LinearHost

namespace Registry

variable {r : Registry} {entry : Registration} {type s t : StructType} {fields : List Descriptor}
  {packed : Bool} {name : String} {id : Nat} {shape : Shape}

def named? (r : Registry) (name : String) : Option StructType :=
  (r.bound? name).bind r.get?

/-! ### One type more -/

def next (r : Registry) (name : Option String) (fields : List Descriptor) (packed : Bool) :
    StructType :=
  .ofFields r.nextId name fields packed r.quantum

def add (r : Registry) (type : StructType) : Registry where
  quantum := r.quantum
  store := insert r.nextId type r.store
  nextId := r.nextId + 1
  names := r.names ++ (type.name.map fun name => (name, r.nextId)).toList
  shapes := r.shapes ++ if type.name = none then [(⟨type.fields, type.packed⟩, type)] else []

/-- A name is bound to the first type that was added under it. -/
theorem bound?_add (r : Registry) (type : StructType) (name : String) :
    (r.add type).bound? name =
      (r.bound? name).or (if type.name = some name then some r.nextId else none) := by
  rw [bound?, add, List.lookup_append]
  cases type.name with
  | none => rfl
  | some other =>
    by_cases same : other = name
    · simp [bound?, same]
    · simp [bound?, same, List.lookup_cons, beq_eq_false_iff_ne.mpr (Ne.symm same)]

theorem interned?_add (r : Registry) (type : StructType) (shape : Shape) :
    (r.add type).interned? shape =
      (r.interned? shape).or
        (if type.name = none ∧ StructType.hasShape type shape.fields shape.packed = true then
          some type
        else none) := by
  have same : Shape.same ⟨type.fields, type.packed⟩ shape =
      StructType.hasShape type shape.fields shape.packed := rfl
  rw [interned?, add, List.find?_append, Option.map_or]
  by_cases unnamed : type.name = none
  · cases has : StructType.hasShape type shape.fields shape.packed <;>
      simp [interned?, unnamed, same, has]
  · simp [interned?, unnamed]

/-- A registration adds at most one type. -/
theorem extended_eq (r : Registry) (entry : Registration) :
    r.extended entry = r ∨
      r.extended entry = r.add (r.next entry.name entry.fields entry.packed) := by
  obtain ⟨name, fields, packed⟩ := entry
  cases name with
  | some name =>
    cases bound : r.bound? name with
    | none =>
      right
      simp [extended, perform, register, takeId, put, Action.bind_apply, bound, add, next,
        StructType.ofFields]
    | some id =>
      left
      cases found : r.get? id with
      | none => simp [extended, perform, register, Action.bind_apply, bound, found]
      | some type =>
        cases shape : StructType.hasShape type fields packed <;>
          simp [extended, perform, register, Action.bind_apply, bound, found, shape]
  | none =>
    cases found : r.interned? ⟨fields, packed⟩ with
    | none =>
      right
      simp [extended, perform, intern, takeId, put, Action.bind_apply, found, add, next,
        StructType.ofFields]
    | some type =>
      left
      simp [extended, perform, intern, Action.bind_apply, found]

/-- What one type more keeps, every list of registrations keeps. -/
theorem reached_induction (invariant : Registry → Prop)
    (kept : ∀ r type, invariant r → invariant (r.add type)) (entries : List Registration)
    (start : invariant r) : invariant (reached entries r) := by
  refine List.foldlRecOn entries extended start fun r holds entry _ => ?_
  rcases extended_eq r entry with same | added
  · rw [same]
    exact holds
  · rw [added]
    exact kept r _ holds

theorem interned?_reached (found : r.interned? shape = some type) (entries : List Registration) :
    (reached entries r).interned? shape = some type := by
  refine reached_induction (·.interned? shape = some type) (fun r added found => ?_) entries found
  rw [interned?_add, found, Option.some_or]

/-! ### Consistent registries -/

/-- The counter and the indices tell what is in the store, where the identifiers count from 1. -/
structure Consistent (r : Registry) : Prop where
  store_eq : r.store = r.types.map fun type => (type.id, type)
  id_eq : ∀ i type, r.types[i]? = some type → type.id = i + 1
  nextId_eq : r.nextId = r.size + 1
  bound?_iff : ∀ name id, r.bound? name = some id ↔
    ∃ type ∈ r.types, type.id = id ∧ type.name = some name
  shapes_iff : ∀ shape type, (shape, type) ∈ r.shapes ↔
    type ∈ r.types ∧ type.name = none ∧ shape = ⟨type.fields, type.packed⟩

theorem consistent_empty (q : Quantum) : ({ quantum := q } : Registry).Consistent where
  store_eq := rfl
  id_eq := nofun
  nextId_eq := rfl
  bound?_iff name id := by simp [bound?, types]
  shapes_iff shape type := by simp [types]

theorem length_types (r : Registry) : r.types.length = r.size := List.length_map ..

theorem Consistent.id_mem (consistent : r.Consistent) (mem : type ∈ r.types) :
    1 ≤ type.id ∧ type.id ≤ r.size := by
  obtain ⟨i, found⟩ := List.mem_iff_getElem?.mp mem
  have inside : i < r.types.length := (List.getElem?_eq_some_iff.mp found).1
  have same := consistent.id_eq i type found
  rw [length_types] at inside
  omega

/-- No two types have the same identifier. -/
theorem Consistent.eq_of_id (consistent : r.Consistent) (left : s ∈ r.types)
    (right : t ∈ r.types) (same : s.id = t.id) : s = t := by
  obtain ⟨i, atI⟩ := List.mem_iff_getElem?.mp left
  obtain ⟨j, atJ⟩ := List.mem_iff_getElem?.mp right
  have idI := consistent.id_eq i s atI
  have idJ := consistent.id_eq j t atJ
  obtain rfl : i = j := by omega
  exact Option.some.inj (atI.symm.trans atJ)

/-- Identifiers count from 1 without a gap. -/
theorem Consistent.map_id (consistent : r.Consistent) :
    r.types.map StructOf.id = List.range' 1 r.size := by
  refine List.ext_getElem? fun i => ?_
  rw [List.getElem?_map, ← length_types]
  by_cases inside : i < r.types.length
  · have found : r.types[i]? = some r.types[i] := List.getElem?_eq_getElem inside
    rw [found, Option.map_some, consistent.id_eq i _ found, List.getElem?_range' inside]
    simp [Nat.add_comm]
  · have outside : r.types.length ≤ i := Nat.le_of_not_lt inside
    rw [List.getElem?_eq_none outside, List.getElem?_eq_none (by simpa using outside),
      Option.map_none]

/-! ### Looking types up -/

theorem lookup_map_id (types : List StructType) (id : Nat) :
    (types.map fun type => (type.id, type)).lookup id = types.find? (id == ·.id) := by
  induction types with
  | nil => rfl
  | cons type rest ih =>
    rw [List.map_cons, List.lookup_cons, List.find?_cons, ih]

/-- Every type is found under its identifier. -/
theorem Consistent.get?_eq_some_iff (consistent : r.Consistent) :
    r.get? id = some type ↔ type ∈ r.types ∧ type.id = id := by
  rw [get?, consistent.store_eq, lookup_map_id]
  constructor
  · intro found
    have same := List.find?_some found
    exact ⟨List.mem_of_find?_eq_some found, (beq_iff_eq.mp same).symm⟩
  · rintro ⟨mem, rfl⟩
    cases found : r.types.find? (type.id == ·.id) with
    | none =>
      have differs := List.find?_eq_none.mp found type mem
      simp at differs
    | some other =>
      have same := List.find?_some found
      rw [consistent.eq_of_id (List.mem_of_find?_eq_some found) mem (beq_iff_eq.mp same).symm]

theorem Consistent.isSome_get?_iff (consistent : r.Consistent) :
    (r.get? id).isSome ↔ 1 ≤ id ∧ id ≤ r.size := by
  rw [Option.isSome_iff_exists]
  constructor
  · rintro ⟨type, found⟩
    obtain ⟨mem, rfl⟩ := consistent.get?_eq_some_iff.mp found
    exact consistent.id_mem mem
  · rintro ⟨positive, inside⟩
    have inside : id - 1 < r.types.length := by rw [length_types]; omega
    have found : r.types[id - 1]? = some r.types[id - 1] := List.getElem?_eq_getElem inside
    have same := consistent.id_eq _ _ found
    exact ⟨_, consistent.get?_eq_some_iff.mpr ⟨List.getElem_mem inside, by omega⟩⟩

/-- Every named type is found under its name. -/
theorem Consistent.named?_eq_some_iff (consistent : r.Consistent) :
    r.named? name = some type ↔ type ∈ r.types ∧ type.name = some name := by
  rw [named?, Option.bind_eq_some_iff]
  constructor
  · rintro ⟨id, bound, found⟩
    obtain ⟨mem, rfl⟩ := consistent.get?_eq_some_iff.mp found
    obtain ⟨other, otherMem, same, named⟩ := (consistent.bound?_iff _ _).mp bound
    exact ⟨mem, consistent.eq_of_id otherMem mem same ▸ named⟩
  · rintro ⟨mem, named⟩
    exact ⟨type.id, (consistent.bound?_iff _ _).mpr ⟨type, mem, rfl, named⟩,
      consistent.get?_eq_some_iff.mpr ⟨mem, rfl⟩⟩

/-- No name is bound to an identifier that is not in use. -/
theorem Consistent.bound?_eq_none_iff (consistent : r.Consistent) :
    r.bound? name = none ↔ r.named? name = none := by
  rw [named?, Option.bind_eq_none_iff]
  constructor
  · intro unbound id bound
    cases unbound.symm.trans bound
  · intro missing
    refine Option.eq_none_iff_forall_ne_some.mpr fun id bound => ?_
    obtain ⟨type, mem, same, -⟩ := (consistent.bound?_iff name id).mp bound
    have found := consistent.get?_eq_some_iff.mpr ⟨mem, same⟩
    cases (missing id bound).symm.trans found

theorem Consistent.named?_eq_none_iff (consistent : r.Consistent) :
    r.named? name = none ↔ ∀ type ∈ r.types, type.name ≠ some name := by
  simp only [Option.eq_none_iff_forall_ne_some, ne_eq, consistent.named?_eq_some_iff, not_and]

theorem Consistent.mem_of_interned? (consistent : r.Consistent)
    (found : r.interned? shape = some type) :
    type ∈ r.types ∧ type.name = none ∧
      StructType.hasShape type shape.fields shape.packed = true := by
  obtain ⟨⟨key, stored⟩, first, rfl⟩ := Option.map_eq_some_iff.mp found
  have same := List.find?_some first
  obtain ⟨mem, unnamed, rfl⟩ :=
    (consistent.shapes_iff key stored).mp (List.mem_of_find?_eq_some first)
  exact ⟨mem, unnamed, same⟩

/-- A shape is unknown exactly if no type without a name has it. -/
theorem Consistent.interned?_eq_none_iff (consistent : r.Consistent) :
    r.interned? shape = none ↔ ∀ type ∈ r.types, type.name = none →
      StructType.hasShape type shape.fields shape.packed = false := by
  rw [interned?, Option.map_eq_none_iff, List.find?_eq_none]
  constructor
  · intro absent type mem unnamed
    have differs := absent (⟨type.fields, type.packed⟩, type)
      ((consistent.shapes_iff _ _).mpr ⟨mem, unnamed, rfl⟩)
    exact Bool.eq_false_iff.mpr differs
  · rintro others ⟨key, type⟩ entered same
    obtain ⟨mem, unnamed, rfl⟩ := (consistent.shapes_iff key type).mp entered
    exact Bool.eq_false_iff.mp (others type mem unnamed) same

/-- A name is looked up under up to three spellings. -/
theorem Consistent.find?_eq_or (consistent : r.Consistent) (name : String) :
    r.find? name = (r.named? name).or
      ((r.named? (structPrefix ++ name)).or ((shortName? name).bind r.named?)) := by
  have stored (name : String) (others : Option Nat) :
      ((r.bound? name).or others).bind r.get? = (r.named? name).or (others.bind r.get?) := by
    cases bound : r.bound? name with
    | none => rw [Option.none_or, consistent.bound?_eq_none_iff.mp bound, Option.none_or]
    | some id =>
      obtain ⟨type, mem, same, -⟩ := (consistent.bound?_iff name id).mp bound
      have found := consistent.get?_eq_some_iff.mpr ⟨mem, same⟩
      simp [named?, bound, found]
  have short : ((shortName? name).bind r.bound?).bind r.get? = (shortName? name).bind r.named? :=
    Option.bind_assoc ..
  simp only [find?, identifier?, Option.orElse_eq_orElse, Option.orElse_eq_or, stored, short]

theorem Consistent.mem_of_find? (consistent : r.Consistent) (found : r.find? name = some type) :
    type ∈ r.types := by
  obtain ⟨id, -, found⟩ := Option.bind_eq_some_iff.mp found
  exact (consistent.get?_eq_some_iff.mp found).1

/-! ### What becomes of a registration -/

inductive Answered (r : Registry) (entry : Registration) : Except Fault StructType → Registry → Prop
    where
  | present {type : StructType} (found : type ∈ r.types) (named : type.name = entry.name)
      (shape : StructType.hasShape type entry.fields entry.packed = true) :
      Answered r entry (.ok type) r
  | refused {name : String} {type : StructType} (named : entry.name = some name)
      (found : r.named? name = some type)
      (other : StructType.hasShape type entry.fields entry.packed = false) :
      Answered r entry (.error (.nameTaken name)) r
  | added
      (fresh : ∀ type ∈ r.types, type.name = entry.name →
        entry.name = none ∧ StructType.hasShape type entry.fields entry.packed = false) :
      Answered r entry (.ok (r.next entry.name entry.fields entry.packed))
        (r.add (r.next entry.name entry.fields entry.packed))

/-- Every registration of a consistent registry ends in one of these ways. -/
theorem Consistent.perform_cases (consistent : r.Consistent) (entry : Registration) :
    Answered r entry (perform entry r).result (r.extended entry) := by
  obtain ⟨name, fields, packed⟩ := entry
  cases name with
  | some name =>
    cases bound : r.bound? name with
    | none =>
      have absent := consistent.named?_eq_none_iff.mp (consistent.bound?_eq_none_iff.mp bound)
      have added : Answered r ⟨some name, fields, packed⟩ _ _ := .added fun type mem same =>
        absurd same (absent type mem)
      simpa [extended, perform, register, takeId, put, Action.bind_apply, bound, add, next,
        StructType.ofFields] using added
    | some id =>
      obtain ⟨type, mem, same, named⟩ := (consistent.bound?_iff name id).mp bound
      have stored := consistent.get?_eq_some_iff.mpr ⟨mem, same⟩
      have found := consistent.named?_eq_some_iff.mpr ⟨mem, named⟩
      cases shape : StructType.hasShape type fields packed with
      | true =>
        have present : Answered r ⟨some name, fields, packed⟩ _ _ := .present mem named shape
        simpa [extended, perform, register, Action.bind_apply, bound, stored, shape] using present
      | false =>
        have refused : Answered r ⟨some name, fields, packed⟩ _ _ := .refused rfl found shape
        simpa [extended, perform, register, Action.bind_apply, bound, stored, shape] using refused
  | none =>
    cases found : r.interned? ⟨fields, packed⟩ with
    | none =>
      have added : Answered r ⟨none, fields, packed⟩ _ _ := .added fun type mem unnamed =>
        ⟨rfl, consistent.interned?_eq_none_iff.mp found type mem unnamed⟩
      simpa [extended, perform, intern, takeId, put, Action.bind_apply, found, add, next,
        StructType.ofFields] using added
    | some type =>
      obtain ⟨mem, unnamed, shape⟩ := consistent.mem_of_interned? found
      have present : Answered r ⟨none, fields, packed⟩ _ _ := .present mem unnamed shape
      simpa [extended, perform, intern, Action.bind_apply, found] using present

/-! ### Registrations keep a registry consistent -/

/-- A type whose identifier is above all others comes last. -/
theorem insert_of_lt {entries : List (Nat × StructType)} (above : ∀ entry ∈ entries, entry.1 < id)
    (type : StructType) : insert id type entries = entries ++ [(id, type)] := by
  induction entries with
  | nil => rfl
  | cons entry rest ih =>
    obtain ⟨lower, others⟩ := List.forall_mem_cons.mp above
    rw [insert, if_neg (Nat.not_lt_of_lt lower), if_neg (Nat.ne_of_gt lower), ih others]
    rfl

theorem Consistent.store_add (consistent : r.Consistent) (type : StructType) :
    (r.add type).store = r.store ++ [(r.nextId, type)] := by
  refine insert_of_lt (fun entry stored => ?_) type
  rw [consistent.store_eq] at stored
  obtain ⟨older, mem, rfl⟩ := List.mem_map.mp stored
  rw [consistent.nextId_eq]
  exact Nat.lt_succ_of_le (consistent.id_mem mem).2

theorem Consistent.types_add (consistent : r.Consistent) (type : StructType) :
    (r.add type).types = r.types ++ [type] := by
  rw [types, consistent.store_add, List.map_append]
  rfl

theorem Consistent.size_add (consistent : r.Consistent) (type : StructType) :
    (r.add type).size = r.size + 1 := by
  rw [size, consistent.store_add, List.length_append]
  rfl

theorem Consistent.mem_types_add (consistent : r.Consistent) :
    s ∈ (r.add type).types ↔ s ∈ r.types ∨ s = type := by
  rw [consistent.types_add, List.mem_append, List.mem_singleton]

/-- A registration answers a type of its name, which is stored then. -/
theorem Consistent.of_answered (consistent : r.Consistent)
    (answered : (perform entry r).result = .ok type) :
    type ∈ (r.extended entry).types ∧ type.name = entry.name := by
  have cases := consistent.perform_cases entry
  rw [answered] at cases
  generalize r.extended entry = after at cases ⊢
  cases cases with
  | present found named => exact ⟨found, named⟩
  | added => exact ⟨consistent.mem_types_add.mpr (.inr rfl), rfl⟩

/-- The next type under a fresh name keeps a registry consistent. -/
theorem Consistent.add (consistent : r.Consistent) (numbered : type.id = r.nextId)
    (fresh : ∀ name, type.name = some name → r.named? name = none) : (r.add type).Consistent where
  store_eq := by
    rw [consistent.store_add, consistent.types_add, List.map_append, ← consistent.store_eq,
      ← numbered]
    rfl
  id_eq i other found := by
    rw [consistent.types_add, List.getElem?_append] at found
    split at found
    next => exact consistent.id_eq i other found
    next beyond =>
      obtain ⟨last, rfl⟩ : i - r.types.length = 0 ∧ type = other := by
        simpa [List.getElem?_singleton] using found
      have next := consistent.nextId_eq
      rw [length_types] at beyond last
      omega
  nextId_eq := by
    rw [consistent.size_add, ← consistent.nextId_eq]
    rfl
  bound?_iff name id := by
    rw [bound?_add]
    rw [Option.or_eq_some_iff]
    constructor
    · rintro (bound | ⟨-, added⟩)
      · obtain ⟨older, mem, same, named⟩ := (consistent.bound?_iff name id).mp bound
        exact ⟨older, consistent.mem_types_add.mpr (.inl mem), same, named⟩
      · obtain ⟨named, ⟨⟩⟩ := Option.ite_none_right_eq_some.mp added
        exact ⟨type, consistent.mem_types_add.mpr (.inr rfl), numbered, named⟩
    · rintro ⟨other, mem, rfl, named⟩
      obtain mem | rfl := consistent.mem_types_add.mp mem
      · exact .inl ((consistent.bound?_iff name other.id).mpr ⟨other, mem, rfl, named⟩)
      · exact .inr ⟨consistent.bound?_eq_none_iff.mpr (fresh name named),
          by rw [if_pos named, numbered]⟩
  shapes_iff shape other := by
    have entered : (shape, other) ∈ (r.add type).shapes ↔ (shape, other) ∈ r.shapes ∨
        type.name = none ∧ shape = ⟨type.fields, type.packed⟩ ∧ other = type := by
      rw [Registry.add, List.mem_append]
      by_cases unnamed : type.name = none <;> simp [unnamed]
    rw [entered, consistent.mem_types_add, consistent.shapes_iff, or_and_right]
    refine or_congr_right ⟨?_, ?_⟩
    · rintro ⟨unnamed, same, rfl⟩
      exact ⟨rfl, unnamed, same⟩
    · rintro ⟨rfl, unnamed, same⟩
      exact ⟨unnamed, same, rfl⟩

theorem Consistent.extended (consistent : r.Consistent) (entry : Registration) :
    (r.extended entry).Consistent := by
  have answered := consistent.perform_cases entry
  generalize (perform entry r).result = result at answered
  generalize r.extended entry = after at answered ⊢
  cases answered with
  | present | refused => exact consistent
  | added fresh =>
    refine consistent.add rfl fun name named => ?_
    refine consistent.named?_eq_none_iff.mpr fun type mem same => ?_
    obtain ⟨unnamed, -⟩ := fresh type mem (same.trans named.symm)
    cases unnamed.symm.trans named

theorem Consistent.reached (consistent : r.Consistent) (entries : List Registration) :
    (reached entries r).Consistent :=
  List.foldlRecOn entries Registry.extended consistent fun _ kept entry _ => kept.extended entry

/-- Every registry that can be reached is consistent. -/
theorem consistent_reached (q : Quantum) (entries : List Registration) :
    (reached entries { quantum := q }).Consistent :=
  (consistent_empty q).reached entries

end Registry

end LinearHost
