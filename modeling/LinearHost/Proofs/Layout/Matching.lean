import LinearHost.Proofs.Layout.Leaves

/-!
# Requests that match a struct

Names are laid over the fields of a struct only if they match its shape: as many names as there are
fields, at every level, and names of further fields only on a field that embeds a struct. What comes
back has the shape of the request; otherwise the first place that does not match is reported, in
depth-first order. Where the struct starts only moves the offsets.

## Main definitions

* `FieldName.Fits`: names that match the shape of a field.
* `StructType.mismatches`: the places of a request that do not match.
* `Offsets.request`, `Location.Sized`, `Offsets.raised`: the names of an answer, the sizes in it, and
  the answer for a struct that starts further up.
* `Registry.resolve_mirrors`: what laying names over a registered struct answers.
-/

namespace LinearHost

/-- A leaf fits every field. A group fits a struct if there is one name for each of its fields, and
each fits its own. -/
inductive FieldName.Fits : Descriptor → FieldName → Prop where
  | leaf (d : Descriptor) (name : String) : Fits d (.leaf name)
  | group {type : StructType} {names : List FieldName} (name : String)
      (fields : List.Forall₂ Fits type.fields names) : Fits (.struct type) (.group name names)

/-- A place of a request that does not match the struct it is laid over. -/
structure Mismatch where
  /-- The struct, or the field of a struct that embeds none. -/
  typeName : String
  /-- The number of fields. -/
  expected : Nat
  /-- The number of names. -/
  found : Nat
deriving DecidableEq, Repr

def Mismatch.fault (m : Mismatch) : Fault := .layoutMismatch m.typeName m.expected m.found

def StructType.countMismatch (type : StructType) (names : List FieldName) : List Mismatch :=
  if names.length = type.fields.length then []
  else [⟨type.displayName, type.fields.length, names.length⟩]

mutual

/-- The mismatches of a name that is laid over a field, in depth-first order. -/
def FieldName.mismatches (owner : StructType) (field : Descriptor) : FieldName → List Mismatch
  | .leaf _ => []
  | .group name names =>
    match field with
    | .struct type =>
      StructType.countMismatch type names ++ FieldName.mismatchesAll type type.fields names
    | _ => [⟨s!"{StructType.displayName owner}.{name}", 0, names.length⟩]

def FieldName.mismatchesAll (owner : StructType) :
    List Descriptor → List FieldName → List Mismatch
  | field :: fields, name :: names =>
    FieldName.mismatches owner field name ++ FieldName.mismatchesAll owner fields names
  | _, _ => []

end

def StructType.mismatches (type : StructType) (names : List FieldName) : List Mismatch :=
  StructType.countMismatch type names ++ FieldName.mismatchesAll type type.fields names

mutual

def Location.request (name : String) : Location → FieldName
  | .offset _ => .leaf name
  | .nested ⟨_, located⟩ => .group name (Location.requestAll located)

def Location.requestAll : List (String × Location) → List FieldName
  | [] => []
  | (name, location) :: located => location.request name :: Location.requestAll located

end

/-- The names of an answer, in its order and with its nesting. -/
def Offsets.request (o : Offsets) : List FieldName := Location.requestAll o.fields

/-- Every struct that the location of a field nests has the size of its type. -/
inductive Location.Sized : Descriptor → Location → Prop where
  | offset (d : Descriptor) (n : Nat) : Sized d (.offset n)
  | nested {type : StructType} {located : List (String × Location)}
      (fields : List.Forall₂ (fun d entry => Sized d entry.2) type.fields located) :
      Sized (.struct type) (.nested ⟨type.layout.size, located⟩)

mutual

def Location.raised (rise : Nat) : Location → Location
  | .offset n => .offset (n + rise)
  | .nested ⟨size, located⟩ => .nested ⟨size, Location.raisedAll rise located⟩

def Location.raisedAll (rise : Nat) : List (String × Location) → List (String × Location)
  | [] => []
  | (name, location) :: located =>
    (name, location.raised rise) :: Location.raisedAll rise located

end

def Offsets.raised (rise : Nat) (o : Offsets) : Offsets :=
  { o with fields := Location.raisedAll rise o.fields }

variable {q : Quantum} {r : Registry} {d : Descriptor} {owner type : StructType}
  {fields : List Descriptor} {offsets : List Nat} {names : List FieldName} {base rise : Nat}

/-! ### Names in an answer -/

theorem Offsets.get?_eq_some_iff {o : Offsets} {name : String} {location : Location} :
    o.get? name = some location ↔
      ∃ before after, o.fields = before ++ (name, location) :: after ∧
        ∀ entry ∈ before, entry.1 ≠ name := by
  rw [Offsets.get?, Option.map_eq_some_iff]
  constructor
  · rintro ⟨⟨found, _⟩, first, rfl⟩
    obtain ⟨same, before, after, parts, others⟩ := List.find?_eq_some_iff_append.mp first
    obtain rfl : found = name := by simpa using same
    exact ⟨before, after, parts, by simpa using others⟩
  · rintro ⟨before, after, parts, others⟩
    refine ⟨(name, location), List.find?_eq_some_iff_append.mpr ?_, rfl⟩
    exact ⟨by simp, before, after, parts, by simpa using others⟩

theorem Offsets.get?_eq_none_iff {o : Offsets} {name : String} :
    o.get? name = none ↔ ∀ entry ∈ o.fields, entry.1 ≠ name := by
  simp [Offsets.get?]

/-! ### Requests that fit have no mismatches -/

theorem StructType.countMismatch_eq_nil_iff :
    StructType.countMismatch type names = [] ↔ names.length = type.fields.length := by
  rw [StructType.countMismatch]
  split <;> simp [*]

mutual

/-- Nothing mismatches exactly if the name fits the field. -/
theorem FieldName.mismatches_eq_nil_iff (owner : StructType) (d : Descriptor) (name : FieldName) :
    FieldName.mismatches owner d name = [] ↔ FieldName.Fits d name := by
  cases name with
  | leaf text => exact ⟨fun _ => .leaf d text, fun _ => by rw [FieldName.mismatches]⟩
  | group text names =>
    cases d with
    | struct type =>
      rw [FieldName.mismatches, List.append_eq_nil_iff, StructType.countMismatch_eq_nil_iff]
      constructor
      · rintro ⟨length, none⟩
        exact .group text ((FieldName.mismatchesAll_eq_nil_iff type type.fields names length).mp none)
      · rintro (_ | ⟨_, each⟩)
        have length := each.length_eq.symm
        exact ⟨length, (FieldName.mismatchesAll_eq_nil_iff type type.fields names length).mpr each⟩
    | _ => exact ⟨by simp [FieldName.mismatches], nofun⟩
termination_by sizeOf name

theorem FieldName.mismatchesAll_eq_nil_iff (owner : StructType) (fields : List Descriptor)
    (names : List FieldName) (length : names.length = fields.length) :
    FieldName.mismatchesAll owner fields names = [] ↔ List.Forall₂ FieldName.Fits fields names := by
  cases names with
  | nil =>
    obtain rfl : fields = [] := List.eq_nil_of_length_eq_zero length.symm
    simp [FieldName.mismatchesAll]
  | cons name names =>
    cases fields with
    | nil => cases length
    | cons d fields =>
      rw [FieldName.mismatchesAll, List.append_eq_nil_iff, List.forall₂_cons,
        FieldName.mismatches_eq_nil_iff owner d name,
        FieldName.mismatchesAll_eq_nil_iff owner fields names (Nat.succ.inj length)]
termination_by sizeOf names

end

theorem StructType.mismatches_eq_nil_iff :
    StructType.mismatches type names = [] ↔ List.Forall₂ FieldName.Fits type.fields names := by
  rw [StructType.mismatches, List.append_eq_nil_iff, StructType.countMismatch_eq_nil_iff]
  constructor
  · rintro ⟨length, none⟩
    exact (FieldName.mismatchesAll_eq_nil_iff type type.fields names length).mp none
  · intro each
    have length := each.length_eq.symm
    exact ⟨length, (FieldName.mismatchesAll_eq_nil_iff type type.fields names length).mpr each⟩

/-! ### The first mismatch is reported -/

/-- A result as mismatches decide it: the first one is the fault, and without any there is a good
answer. -/
def Judged {α : Type} (mismatches : List Mismatch) (good : α → Prop) : Except Fault α → Prop
  | .ok a => mismatches = [] ∧ good a
  | .error fault => mismatches.head?.map Mismatch.fault = some fault

section Judged

variable {α β : Type} {first second : List Mismatch} {good fine : α → Prop} {well : β → Prop}
  {result : Except Fault α} {f : α → Except Fault β}

/-- One judged step after the other is judged by the mismatches of both, in order. -/
theorem Judged.bind (judged : Judged first good result)
    (rest : ∀ a, good a → Judged second well (f a)) :
    Judged (first ++ second) well (result >>= f) := by
  cases result with
  | error fault =>
    have reported : first.head?.map Mismatch.fault = some fault := judged
    obtain ⟨m, head, rfl⟩ := Option.map_eq_some_iff.mp reported
    show (first ++ second).head?.map Mismatch.fault = some m.fault
    rw [List.head?_append, head, Option.some_or, Option.map_some]
  | ok a =>
    obtain ⟨rfl, holds⟩ := judged
    exact rest a holds

theorem Judged.map (judged : Judged first good result) {g : α → β}
    (answers : ∀ a, good a → well (g a)) : Judged first well (result.map g) := by
  cases result with
  | error fault => exact judged
  | ok a => exact ⟨judged.1, answers a judged.2⟩

theorem Judged.exists_ok_iff (judged : Judged first good result) :
    (∃ a, result = .ok a) ↔ first = [] := by
  cases result with
  | error fault =>
    refine ⟨nofun, ?_⟩
    rintro rfl
    cases judged
  | ok a => exact ⟨fun _ => judged.1, fun _ => ⟨a, rfl⟩⟩

/-- The fault is that of the first mismatch. -/
theorem Judged.error_iff (judged : Judged first good result) {fault : Fault} :
    result = .error fault ↔ ∃ m, first.head? = some m ∧ fault = m.fault := by
  cases result with
  | error reported =>
    obtain ⟨m, head, rfl⟩ := Option.map_eq_some_iff.mp judged
    simp [head, eq_comm]
  | ok a =>
    obtain ⟨rfl, -⟩ := judged
    simp

end Judged

theorem StructType.judged_checkNames (type : StructType) (names : List FieldName) :
    Judged (StructType.countMismatch type names) (fun _ => names.length = type.fields.length)
      (StructType.checkNames type names) := by
  by_cases same : names.length = type.fields.length
  · rw [StructType.checkNames, if_pos same]
    exact ⟨StructType.countMismatch_eq_nil_iff.mpr same, same⟩
  · rw [StructType.checkNames, if_neg same, StructType.countMismatch, if_neg same]
    rfl

-- The induction is on the request; a struct only has to have an offset for each of its fields, so
-- that none of them is lost where the three lists are walked together.
mutual

/-- To locate a name is judged by its mismatches. -/
theorem FieldName.judged_locate (owner : StructType) {d : Descriptor} (laid : d.Laid) (start : Nat)
    (name : FieldName) :
    Judged (FieldName.mismatches owner d name)
      (fun location => location.request name.name = name ∧ location.Sized d)
      (FieldName.locate owner d start name) := by
  cases name with
  | leaf text =>
    rw [FieldName.mismatches, FieldName.locate]
    exact ⟨rfl, by rw [Location.request, FieldName.name], .offset d start⟩
  | group text names =>
    cases d with
    | struct type =>
      rw [FieldName.mismatches, FieldName.locate_struct]
      refine (StructType.judged_resolve laid start names).map fun o ⟨request, sized⟩ => ⟨?_, sized⟩
      rw [Location.request]
      exact congrArg (FieldName.group text) request
    | _ => simp [FieldName.mismatches, FieldName.locate, Judged, Mismatch.fault]
termination_by (sizeOf name, 0)

/-- To lay names over a struct is judged by theirs. -/
theorem StructType.judged_resolve {type : StructType} (laid : (Descriptor.struct type).Laid)
    (base : Nat) (names : List FieldName) :
    Judged (StructType.mismatches type names)
      (fun o : Offsets => o.request = names ∧ Location.Sized (.struct type) (.nested o))
      (StructType.resolve type names base) := by
  cases laid with
  | struct q layout each =>
    have offsets : type.layout.offsets.length = type.fields.length := by
      rw [layout, Layout.offsets_ofFields, length_placeFrom]
    refine (StructType.judged_checkNames type names).bind fun _ length => ?_
    exact (FieldName.judged_locateAll type each offsets base names length).map
      fun located ⟨request, sized⟩ => ⟨request, .nested sized⟩
termination_by (sizeOf names, 1)

theorem FieldName.judged_locateAll (owner : StructType) {fields : List Descriptor}
    {offsets : List Nat} (laid : ∀ d ∈ fields, d.Laid) (placed : offsets.length = fields.length)
    (base : Nat) (names : List FieldName) (length : names.length = fields.length) :
    Judged (FieldName.mismatchesAll owner fields names)
      (fun located => Location.requestAll located = names ∧
        List.Forall₂ (fun d entry => Location.Sized d entry.2) fields located)
      (FieldName.locateAll owner base (fields.zip offsets) names) := by
  cases names with
  | nil =>
    obtain rfl : fields = [] := List.eq_nil_of_length_eq_zero length.symm
    rw [FieldName.mismatchesAll, FieldName.locateAll]
    · exact ⟨rfl, by rw [Location.requestAll], .nil⟩
    all_goals nofun
  | cons name names =>
    cases fields with
    | nil => cases length
    | cons d fields =>
      cases offsets with
      | nil => cases placed
      | cons offset offsets =>
        obtain ⟨first, others⟩ := List.forall_mem_cons.mp laid
        rw [FieldName.mismatchesAll, List.zip_cons_cons, FieldName.locateAll]
        refine (FieldName.judged_locate owner first (base + offset) name).bind
          fun location ⟨named, sized⟩ => ?_
        refine (FieldName.judged_locateAll owner others (Nat.succ.inj placed) base names
          (Nat.succ.inj length)).map fun located ⟨request, all⟩ => ⟨?_, .cons sized all⟩
        rw [Location.requestAll, named, request]
termination_by (sizeOf names, 0)

end

/-! ### Structs that start further up -/

mutual

/-- To raise the start raises all offsets. -/
theorem FieldName.locate_add (owner : StructType) (d : Descriptor) (start rise : Nat)
    (name : FieldName) :
    FieldName.locate owner d (start + rise) name =
      (FieldName.locate owner d start name).map (Location.raised rise) := by
  cases name with
  | leaf text =>
    rw [FieldName.locate, FieldName.locate, Except.map, Location.raised]
  | group text names =>
    cases d with
    | struct type =>
      rw [FieldName.locate_struct, FieldName.locate_struct, StructType.resolve_add]
      cases StructType.resolve type names start with
      | error fault => rfl
      | ok o => exact congrArg Except.ok (by rw [Location.raised, Offsets.raised])
    | _ => simp [FieldName.locate, Except.map]
termination_by (sizeOf name, 0)

/-- Offsets are counted from where the struct starts. -/
theorem StructType.resolve_add (type : StructType) (names : List FieldName) (base rise : Nat) :
    StructType.resolve type names (base + rise) =
      (StructType.resolve type names base).map (Offsets.raised rise) := by
  rw [StructType.resolve, StructType.resolve,
    FieldName.locateAll_add type (StructType.placed type) base rise names]
  cases StructType.checkNames type names with
  | error fault => rfl
  | ok => cases FieldName.locateAll type base (StructType.placed type) names <;> rfl
termination_by (sizeOf names, 1)

theorem FieldName.locateAll_add (owner : StructType) (placed : List (Descriptor × Nat))
    (base rise : Nat) (names : List FieldName) :
    FieldName.locateAll owner (base + rise) placed names =
      (FieldName.locateAll owner base placed names).map (Location.raisedAll rise) := by
  cases placed with
  | nil => simp [FieldName.locateAll, Except.map, Location.raisedAll]
  | cons field placed =>
    obtain ⟨d, offset⟩ := field
    cases names with
    | nil => simp [FieldName.locateAll, Except.map, Location.raisedAll]
    | cons name names =>
      rw [FieldName.locateAll, FieldName.locateAll, Nat.add_right_comm,
        FieldName.locate_add owner d (base + offset) rise name,
        FieldName.locateAll_add owner placed base rise names]
      cases FieldName.locate owner d (base + offset) name with
      | error fault => rfl
      | ok location =>
        cases FieldName.locateAll owner base placed names with
        | error fault => rfl
        | ok located => exact congrArg Except.ok (by rw [Location.raisedAll])
termination_by (sizeOf names, 0)

end

/-! ### Names over registered structs -/

namespace Registry

/-- A registry whose registrations embed laid out structs holds only such structs. -/
theorem Consistent.laid_reached (consistent : r.Consistent) {entries : List Registration}
    (laid : ∀ entry ∈ entries, ∀ d ∈ entry.fields, d.Laid)
    (start : ∀ type ∈ r.types, (Descriptor.struct type).Laid) :
    ∀ type ∈ (Registry.reached entries r).types, (Descriptor.struct type).Laid := by
  induction entries generalizing r with
  | nil => exact start
  | cons entry rest ih =>
    obtain ⟨first, others⟩ := List.forall_mem_cons.mp laid
    refine ih (consistent.extended entry) others ?_
    rcases extended_eq r entry with same | added
    · rw [same]
      exact start
    · rw [added]
      intro type mem
      obtain old | rfl := consistent.mem_types_add.mp mem
      · exact start type old
      · exact Descriptor.laid_ofFields _ _ _ _ first

/-- Whatever structs are registered, of which those that are embedded have the layouts of their
fields: laying names over a struct fails for want of a type exactly if its name means none.
Otherwise it succeeds exactly if the names fit, at every level as many as there are fields and
groups only on structs; the fault is the first mismatch in depth-first order. An answer has the
names of the request in their order and nesting, and every struct in it the size of its type. A
name means the first entry that has it. Where the struct starts is only added to the offsets. -/
theorem resolve_mirrors (q : Quantum) (entries : List Registration)
    (laid : ∀ entry ∈ entries, ∀ d ∈ entry.fields, d.Laid) (names : List FieldName)
    (typeName : String) (base : Nat) :
    let r := reached entries { quantum := q }
    (∀ missing, r.resolve names typeName base = .error (.typeNotFound missing) ↔
      r.find? typeName = none ∧ missing = typeName) ∧
    (∀ type, r.find? typeName = some type →
      ((∃ o, r.resolve names typeName base = .ok o) ↔
        List.Forall₂ FieldName.Fits type.fields names) ∧
      (∀ fault, r.resolve names typeName base = .error fault ↔
        ∃ m, (StructType.mismatches type names).head? = some m ∧
          fault = .layoutMismatch m.typeName m.expected m.found) ∧
      ∀ o, r.resolve names typeName base = .ok o →
        o.request = names ∧ Location.Sized (.struct type) (.nested o)) ∧
    (∀ (o : Offsets) name,
      (∀ location, o.get? name = some location ↔
        ∃ before after, o.fields = before ++ (name, location) :: after ∧
          ∀ entry ∈ before, entry.1 ≠ name) ∧
      (o.get? name = none ↔ ∀ entry ∈ o.fields, entry.1 ≠ name)) ∧
    ∀ rise, r.resolve names typeName (base + rise) =
      (r.resolve names typeName base).map (Offsets.raised rise) := by
  intro r
  -- the struct that a name means is one of those that were registered, so its layout is its own
  have all : ∀ type ∈ r.types, (Descriptor.struct type).Laid :=
    (consistent_empty q).laid_reached laid fun type mem => absurd mem List.not_mem_nil
  have consistent : r.Consistent := consistent_reached q entries
  refine ⟨fun missing => ?_, fun type found => ?_,
    fun o name => ⟨fun _ => Offsets.get?_eq_some_iff, Offsets.get?_eq_none_iff⟩, fun rise => ?_⟩
  · rw [resolve]
    cases found : r.find? typeName with
    | none => simp [eq_comm]
    | some type =>
      have judged := StructType.judged_resolve (all type (consistent.mem_of_find? found)) base names
      refine ⟨fun failed => ?_, fun absent => absurd absent.1 (Option.some_ne_none type)⟩
      obtain ⟨m, -, fault⟩ := judged.error_iff.mp failed
      cases fault
  · have judged := StructType.judged_resolve (all type (consistent.mem_of_find? found)) base names
    have resolved : r.resolve names typeName base = StructType.resolve type names base := by
      rw [resolve, found]
    rw [resolved]
    refine ⟨judged.exists_ok_iff.trans StructType.mismatches_eq_nil_iff,
      fun fault => judged.error_iff, fun o answer => ?_⟩
    rw [answer] at judged
    exact judged.2
  · rw [resolve, resolve]
    cases r.find? typeName with
    | none => rfl
    | some type => exact StructType.resolve_add type names base rise

/-- Two mismatches, one inside an embedded struct and one after it, of which the first is reported;
with the right names the same struct is resolved, at 100 and at 116. -/
theorem resolve_mirrors_nested :
    let inner := StructType.ofFields 1 (some "Inner") [.int .i16, .int .i32] false .word
    let outer := StructType.ofFields 2 (some "Outer") [.int .i8, .struct inner, .pointer] false .word
    let entries : List Registration :=
      [⟨some "Inner", inner.fields, false⟩, ⟨some "Outer", outer.fields, false⟩]
    let r := reached entries { quantum := .word }
    let short : List FieldName := [.leaf "tag", .group "pair" [.leaf "first"], .group "next" []]
    let names : List FieldName :=
      [.leaf "tag", .group "pair" [.leaf "x", .leaf "x"], .leaf "next"]
    (∀ entry ∈ entries, ∀ d ∈ entry.fields, d.Laid) ∧ r.find? "Outer" = some outer ∧
    StructType.mismatches outer short = [⟨"Inner", 2, 1⟩, ⟨"Outer.next", 0, 0⟩] ∧
    r.resolve short "Outer" 100 = .error (.layoutMismatch "Inner" 2 1) ∧
    (∃ o, r.resolve names "Outer" 100 = .ok o) ∧
    r.resolve names "Outer" (100 + 16) = (r.resolve names "Outer" 100).map (Offsets.raised 16) := by
  intro inner outer entries r short names
  have members : ∀ d ∈ inner.fields, d.Laid :=
    List.forall_mem_cons.mpr ⟨.int .i16, List.forall_mem_cons.mpr ⟨.int .i32, nofun⟩⟩
  have embedded : (Descriptor.struct inner).Laid :=
    Descriptor.laid_ofFields 1 (some "Inner") false .word members
  have laid : ∀ entry ∈ entries, ∀ d ∈ entry.fields, d.Laid :=
    List.forall_mem_cons.mpr ⟨members, List.forall_mem_cons.mpr
      ⟨List.forall_mem_cons.mpr ⟨.int .i8, List.forall_mem_cons.mpr
        ⟨embedded, List.forall_mem_cons.mpr ⟨.pointer, nofun⟩⟩⟩, nofun⟩⟩
  have found : r.find? "Outer" = some outer := rfl
  have mismatches :
      StructType.mismatches outer short = [⟨"Inner", 2, 1⟩, ⟨"Outer.next", 0, 0⟩] := by
    decide +kernel
  obtain ⟨-, answers, -⟩ := resolve_mirrors .word entries laid short "Outer" 100
  obtain ⟨-, faults, -⟩ := answers outer found
  obtain ⟨-, resolved, -, raised⟩ := resolve_mirrors .word entries laid names "Outer" 100
  obtain ⟨succeeds, -⟩ := resolved outer found
  refine ⟨laid, found, mismatches, (faults _).mpr ⟨_, congrArg List.head? mismatches, rfl⟩,
    succeeds.mpr ?_, raised 16⟩
  exact .cons (.leaf _ _) (.cons (.group _ (.cons (.leaf _ _) (.cons (.leaf _ _) .nil)))
    (.cons (.leaf _ _) .nil))

end Registry

end LinearHost
