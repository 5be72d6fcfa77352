import LinearHost.Proofs.Layout.Grammar
import LinearHost.Proofs.Layout.Spelling

/-!
# Names that denote structs

Any text can be the name of a struct, but a text is only looked up as a name after blanks around it
are gone and if it does not denote a pointer, a number or a row of bytes by its form. So a struct is
found by its name when that is parsed exactly if the name has no blanks around it and no such form.
Nothing is said of names like `b+1`, which have no form but are read as if they had one.

## Main definitions

* `Registry.Nameable`: the names that are to be looked up as they are.
* `Registry.parseType_registered_iff`: when the name of a struct denotes it.
-/

namespace LinearHost.Registry

variable {r : Registry} {name text : String} {type : StructType} {d : Descriptor}

/-! ### Parsing names -/

/-- A text without blanks around it that denotes no type by its form. -/
structure Nameable (name : String) : Prop where
  trimmed : Blank.trim name = name
  free : ∀ d, ¬ Form name d

theorem fixed?_eq_none_iff (unsigned : ∀ n, ¬ SignedRow text n) :
    fixed? text = none ↔ ∀ d, ¬ Form text d := by
  constructor
  · intro unread d form
    cases form.fixed?.symm.trans unread
  · intro free
    refine Option.eq_none_iff_forall_ne_some.mpr fun d read => ?_
    obtain form | ⟨n, signed, -⟩ := fixed?_eq_some_iff.mp read
    · exact free d form
    · exact unsigned n signed

/-- Only blanks at the end can be missing from a trimmed text that the prefix has been taken from. -/
theorem trim_eq_self_of_structPrefix_append (parts : structPrefix ++ Blank.trim name = name) :
    Blank.trim name = name := by
  rw [Blank.trim_eq_self_iff, Blank.trimChars_eq_self_iff]
  have chars : name.toList = structPrefix.toList ++ Blank.trimChars name.toList := by
    rw [← String.toList_inj, String.toList_append, Blank.trim, String.toList_ofList] at parts
    exact parts.symm
  refine ⟨fun c first => ?_, fun c last => ?_⟩
  · rw [chars] at first
    cases first
    decide
  · rw [chars, List.getLast?_append] at last
    cases inner : (Blank.trimChars name.toList).getLast? with
    | some e =>
      rw [inner] at last
      cases last
      exact Blank.isBlank_getLast?_trimChars inner
    | none =>
      rw [inner] at last
      cases last
      decide

/-- A text with blanks around it is not among the spellings of what is left without them. -/
theorem not_mem_spellings_trim (blanks : Blank.trim name ≠ name) :
    name ∉ spellings (Blank.trim name) := by
  intro mem
  rw [spellings, List.mem_cons, List.mem_cons, Option.mem_toList] at mem
  obtain same | parts | short := mem
  · exact blanks same.symm
  · exact blanks (trim_eq_self_of_structPrefix_append parts.symm)
  · have longer := congrArg String.length (shortName?_eq_some_iff.mp short)
    have shorter := Nat.le_trans (Blank.length_trimChars_le name.toList)
      (List.dropWhile_suffix Blank.isBlank).length_le
    rw [length_prefix_append, Blank.trim, String.length_ofList] at longer
    rw [String.length_toList] at shorter
    omega

/-- A struct is what its name denotes exactly if the name is to be looked up as it is. -/
theorem Consistent.parseType_name_iff (consistent : r.Consistent)
    (named : r.named? name = some type) (unsigned : ∀ n, ¬ SignedRow name n) :
    r.parseType name = .ok (.struct type) ↔ Nameable name := by
  rw [parseType_eq_ok_iff, typeOf?_eq]
  constructor
  · intro denotes
    obtain fixed | ⟨unfixed, denotes⟩ := Option.or_eq_some_iff.mp denotes
    · cases struct?_of_fixed? fixed
    obtain ⟨_, found, ⟨⟩⟩ := Option.map_eq_some_iff.mp denotes
    obtain ⟨spelling, mem, exact, -⟩ := consistent.find?_eq_some_iff.mp found
    -- a type has one name, so it was found under the name itself
    have ownName := (consistent.named?_eq_some_iff.mp named).2
    obtain rfl : name = spelling :=
      Option.some.inj (ownName.symm.trans (consistent.named?_eq_some_iff.mp exact).2)
    have trimmed : Blank.trim name = name :=
      Decidable.byContradiction fun blanks => not_mem_spellings_trim blanks mem
    rw [trimmed] at unfixed
    exact ⟨trimmed, (fixed?_eq_none_iff unsigned).mp unfixed⟩
  · rintro ⟨trimmed, free⟩
    have unfixed : fixed? name = none := (fixed?_eq_none_iff unsigned).mpr free
    rw [trimmed, unfixed, Option.none_or, consistent.find?_eq_or, named, Option.some_or,
      Option.map_some]

/-- A form denotes the same type in every registry, and it is not a struct. -/
theorem Form.parseType (form : Form (Blank.trim text) d) :
    d.struct? = none ∧ ∀ r : Registry, r.parseType text = .ok d := by
  refine ⟨struct?_of_fixed? form.fixed?, fun r => ?_⟩
  rw [parseType_eq_ok_iff, typeOf?_eq, form.fixed?, Option.some_or]

/-! ### Registered names -/

/-- However a registry came about, a struct that was registered under a name is what this name
denotes, at once and after further registrations, exactly if the name has no blanks around it and
denotes no type by its form; so the text of a named struct denotes it under the same condition. Names
of the form of a row of bytes but for a plus sign are left out. A text that has a form but for blanks
denotes the same type in every registry, and it is not a struct. -/
theorem parseType_registered_iff (q : Quantum) (past more : List Registration)
    (fields : List Descriptor) (packed : Bool)
    (answered : (perform ⟨some name, fields, packed⟩ (reached past { quantum := q })).result =
      .ok type) :
    let later := reached (past ++ ⟨some name, fields, packed⟩ :: more) { quantum := q }
    ((∀ n, ¬ SignedRow name n) →
      (later.parseType name = .ok (.struct type) ↔ Nameable name)) ∧
    (∀ s ∈ later.types, ∀ other, s.name = some other → (∀ n, ¬ SignedRow other n) →
      (later.parseType (Descriptor.struct s).text = .ok (.struct s) ↔ Nameable other)) ∧
    ∀ text d, Form (Blank.trim text) d →
      d.struct? = none ∧ ∀ r : Registry, r.parseType text = .ok d := by
  intro later
  have consistent : later.Consistent := consistent_reached q _
  have before := consistent_reached q past
  refine ⟨fun unsigned => ?_, fun s mem other named unsigned => ?_, fun text d => Form.parseType⟩
  · obtain ⟨mem, named⟩ := before.of_answered answered
    have added := before.extended ⟨some name, fields, packed⟩
    have found := added.named?_reached (added.named?_eq_some_iff.mpr ⟨mem, named⟩) more
    have later_eq : later = reached more
        ((reached past { quantum := q }).extended ⟨some name, fields, packed⟩) := by
      simp only [later, reached, List.foldl_append, List.foldl_cons]
    exact consistent.parseType_name_iff (later_eq ▸ found) unsigned
  · have text : (Descriptor.struct s).text = other := by
      simp only [Descriptor.text, StructType.displayName, named]
    rw [text]
    exact consistent.parseType_name_iff (consistent.named?_eq_some_iff.mpr ⟨mem, named⟩) unsigned

/-- A struct with a plain name among structs of other names. -/
theorem parseType_registered_plain :
    let past : List Registration := [⟨some "b5", [.int .i8], false⟩]
    let type := StructType.ofFields 2 (some "Pair") [.int .i8, .int .i32] false .word
    (perform ⟨some "Pair", [.int .i8, .int .i32], false⟩
      (reached past { quantum := .word })).result = .ok type ∧
    (∀ n, ¬ SignedRow "Pair" n) ∧ Nameable "Pair" ∧
    (reached (past ++ [⟨some "Pair", [.int .i8, .int .i32], false⟩])
      { quantum := .word }).parseType "Pair" = .ok (.struct type) := by
  intro past type
  have answered : (perform ⟨some "Pair", [.int .i8, .int .i32], false⟩
      (reached past { quantum := .word })).result = .ok type := rfl
  have unread : fixed? "Pair" = none := rfl
  have unsigned : ∀ n, ¬ SignedRow "Pair" n := by
    intro n signed
    cases signed.fixed?.symm.trans unread
  have nameable : Nameable "Pair" := ⟨by decide, (fixed?_eq_none_iff unsigned).mp unread⟩
  exact ⟨answered, unsigned, nameable,
    ((parseType_registered_iff .word past [] _ _ answered).1 unsigned).mpr nameable⟩

/-- A struct that is named like a number is not what its name denotes. -/
theorem parseType_registered_number :
    let type := StructType.ofFields 1 (some "i32") [.int .i8] false .word
    (perform ⟨some "i32", [.int .i8], false⟩ { quantum := .word }).result = .ok type ∧
    (reached [⟨some "i32", [.int .i8], false⟩] { quantum := .word }).parseType "i32" =
      .ok (.int .i32) ∧
    (reached [⟨some "i32", [.int .i8], false⟩] { quantum := .word }).parseType
      (Descriptor.struct type).text = .ok (.int .i32) :=
  ⟨rfl, rfl, rfl⟩

end LinearHost.Registry
