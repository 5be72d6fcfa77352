import LinearHost.Proofs.Layout.Leaves

/-!
# Fields given on the spot

The offsets of fields that are given on the spot are computed without a registry. They are those that
the same fields get as a registered struct, which is looked up by its name and laid over by theirs.

## Main definitions

* `StructType.resolve_leaves`: the offsets of plain names.
* `Registry.resolve_registered`: the offsets of a registered struct are those of its fields.
-/

namespace LinearHost

variable {r : Registry} {name : String}

/-! ### Plain names -/

/-- Leaves are located at the offsets of their fields, raised to the base. -/
theorem FieldName.locateAll_leaves (owner : StructType) (base : Nat)
    (placed : List (Descriptor × Nat)) (names : List String) :
    FieldName.locateAll owner base placed (names.map .leaf) =
      .ok (names.zip (placed.map fun field => .offset (base + field.2))) := by
  induction placed generalizing names with
  | nil => simp [FieldName.locateAll]
  | cons field placed ih =>
    cases names with
    | nil => simp [FieldName.locateAll]
    | cons name names =>
      rw [List.map_cons, FieldName.locateAll, FieldName.locate, ih]
      rfl

/-- Plain names get the offsets of the fields in their order. -/
theorem StructType.resolve_leaves {type : StructType} {names : List String}
    (length : names.length = type.fields.length)
    (placed : type.layout.offsets.length = type.fields.length) (base : Nat) :
    StructType.resolve type (names.map .leaf) base =
      .ok ⟨type.layout.size,
        names.zip (type.layout.offsets.map fun offset => .offset (base + offset))⟩ := by
  refine StructType.resolve_eq_ok.mpr ⟨by simpa using length, rfl, ?_⟩
  have offsets : (StructType.placed type).map Prod.snd = type.layout.offsets :=
    List.map_snd_zip (Nat.le_of_eq placed)
  rw [FieldName.locateAll_leaves, ← offsets, List.map_map]
  rfl

namespace Registry

/-! ### Registering under a fresh name -/

theorem perform_of_fresh (fresh : r.bound? name = none) (fields : List Descriptor)
    (packed : Bool) :
    (perform ⟨some name, fields, packed⟩ r).result = .ok (r.next (some name) fields packed) := by
  simp [perform, register, takeId, put, Action.bind_apply, fresh, next]

/-- A name that was fresh means the struct that is registered under it, and goes on doing so. -/
theorem Consistent.find?_of_fresh (consistent : r.Consistent) (fresh : r.bound? name = none)
    (fields : List Descriptor) (packed : Bool) (more : List Registration) :
    (Registry.reached more (r.extended ⟨some name, fields, packed⟩)).find? name =
      some (r.next (some name) fields packed) := by
  have added := consistent.extended ⟨some name, fields, packed⟩
  have found := added.named?_eq_some_iff.mpr
    (consistent.of_answered (perform_of_fresh fresh fields packed))
  rw [(added.reached more).find?_eq_or, added.named?_reached found more, Option.some_or]

/-- Fields that are registered unpacked under a fresh name, and then resolved by plain names in a
struct that starts at 0, get the size and the offsets that they get on the spot. Nothing that is
registered later changes that. -/
theorem resolve_registered (q : Quantum) (entries : List Registration)
    (fresh : ∀ entry ∈ entries, entry.name ≠ some name) (fields : List (Descriptor × String))
    (more : List Registration) :
    let r := reached entries { quantum := q }
    let entry : Registration := ⟨some name, fields.map Prod.fst, false⟩
    (∃ type, (perform entry r).result = .ok type) ∧
    (reached more (r.extended entry)).resolve (fields.map fun field => .leaf field.2) name 0 =
      .ok (Offsets.inline fields q) := by
  intro r entry
  have consistent : r.Consistent := consistent_reached q entries
  have absent : r.bound? name = none := consistent.bound?_eq_none_iff.mpr
    ((consistent_empty q).named?_reached_eq_none_iff.mpr ⟨rfl, fresh⟩)
  have quantum : r.quantum = q :=
    reached_induction (·.quantum = q) (fun _ _ same => same) entries rfl
  refine ⟨⟨_, perform_of_fresh absent _ _⟩, ?_⟩
  have names : fields.map (fun field => FieldName.leaf field.2) =
      (fields.map Prod.snd).map .leaf := by
    rw [List.map_map]
    rfl
  have placed : (Layout.ofFields (fields.map Prod.fst) false q).offsets.length =
      (fields.map Prod.fst).length := by
    rw [Layout.offsets_ofFields, length_placeFrom]
  have laidOut : (r.next (some name) (fields.map Prod.fst) false).layout =
      .ofFields (fields.map Prod.fst) false q := by
    rw [← quantum]
    rfl
  rw [resolve, consistent.find?_of_fresh absent, names]
  dsimp only
  rw [StructType.resolve_leaves (by simp [next, StructType.ofFields])
    (by rw [laidOut]; exact placed), laidOut, Offsets.inline]
  simp only [Nat.zero_add]

/-- An embedded struct and a field without bytes, two of them under one name, in a registry to which
another struct is added afterwards. -/
theorem resolve_registered_repeated :
    let inner := StructType.ofFields 1 (some "Inner") [.int .i16, .int .i32] false .word
    let entries : List Registration := [⟨some "Inner", inner.fields, false⟩]
    let fields := [(.int .i8, "x"), (.struct inner, "x"), (.bytes 0, "")]
    let r := reached entries { quantum := .word }
    (∀ entry ∈ entries, entry.name ≠ some "S") ∧
    (reached [⟨some "%struct.S", [.double], true⟩]
        (r.extended ⟨some "S", fields.map Prod.fst, false⟩)).resolve
        [.leaf "x", .leaf "x", .leaf ""] "S" 0 =
      .ok ⟨12, [("x", .offset 0), ("x", .offset 4), ("", .offset 12)]⟩ := by
  intro inner entries fields r
  have fresh : ∀ entry ∈ entries, entry.name ≠ some "S" := by decide
  have inline : Offsets.inline fields .word =
      ⟨12, [("x", .offset 0), ("x", .offset 4), ("", .offset 12)]⟩ := by
    have offsets : (Layout.ofFields (fields.map Prod.fst) false .word).offsets = [0, 4, 12] := by
      decide +kernel
    have size : (Layout.ofFields (fields.map Prod.fst) false .word).size = 12 := by decide +kernel
    rw [Offsets.inline, offsets, size]
    rfl
  refine ⟨fresh, ?_⟩
  rw [← inline]
  exact (resolve_registered .word entries fresh fields _).2

end Registry

end LinearHost
