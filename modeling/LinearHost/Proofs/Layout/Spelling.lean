import LinearHost.Layout.Offsets
import LinearHost.Proofs.Layout.Registry

/-!
# The spellings of a struct name

A name is looked up as it is, then with the struct prefix, then without it. A registration only checks
the exact spelling, so another spelling of a name that is known can be registered for another type;
if it is one that is looked up earlier, the name changes its meaning.

## Main definitions

* `Registry.spellings`, `Registry.Consistent.find?_eq_some_iff`: the order in which spellings are
  looked up.
* `Registry.Consistent.find?_eq_find?_prefix_iff`: when the short and the long spelling mean the same
  type.
* `Registry.meaning_stays_iff`: when a name keeps its meaning.
-/

namespace LinearHost.Registry

variable {r : Registry} {name spelling : String} {type : StructType}

/-! ### The order of looking up -/

/-- The spellings under which a name is looked up, the first one first. -/
def spellings (name : String) : List String :=
  name :: (structPrefix ++ name) :: (shortName? name).toList

def spellingsBefore (name spelling : String) : List String :=
  (spellings name).takeWhile (· ≠ spelling)

/-- The first spelling that is registered is the one that is found. -/
theorem Consistent.find?_eq (consistent : r.Consistent) (name : String) :
    r.find? name = (spellings name).findSome? r.named? := by
  have last : (shortName? name).toList.findSome? r.named? = (shortName? name).bind r.named? := by
    cases shortName? name with
    | none => rfl
    | some short => cases found : r.named? short <;> simp [found]
  rw [consistent.find?_eq_or, spellings, List.findSome?_cons, List.findSome?_cons, last]
  cases r.named? name <;> cases r.named? (structPrefix ++ name) <;> rfl

theorem takeWhile_ne_append {before after : List String} (differs : spelling ∉ before) :
    (before ++ spelling :: after).takeWhile (· ≠ spelling) = before := by
  rw [List.takeWhile_append_of_pos]
  · simp
  · intro s mem
    exact decide_eq_true fun same => differs (same ▸ mem)

/-- A name means the type of its first spelling that was registered. -/
theorem Consistent.find?_eq_some_iff (consistent : r.Consistent) :
    r.find? name = some type ↔
      ∃ spelling ∈ spellings name, r.named? spelling = some type ∧
        ∀ s ∈ spellingsBefore name spelling, r.named? s = none := by
  rw [consistent.find?_eq, List.findSome?_eq_some_iff]
  constructor
  · rintro ⟨before, spelling, after, parts, found, absent⟩
    have differs : spelling ∉ before := fun mem => by
      rw [absent spelling mem] at found
      cases found
    refine ⟨spelling, ?_, found, ?_⟩
    · rw [parts]
      exact List.mem_append_right _ (List.mem_cons_self ..)
    · rw [spellingsBefore, parts, takeWhile_ne_append differs]
      exact absent
  · rintro ⟨spelling, mem, found, absent⟩
    obtain ⟨before, after, parts, differs⟩ := List.eq_append_cons_of_mem mem
    rw [spellingsBefore, parts, takeWhile_ne_append differs] at absent
    exact ⟨before, spelling, after, parts, found, absent⟩

/-- Types that were registered under two spellings differ. -/
theorem Consistent.ne_of_named? (consistent : r.Consistent) {other : String} {s t : StructType}
    (left : r.named? spelling = some s) (right : r.named? other = some t)
    (lengths : spelling.length ≠ other.length) : s ≠ t := by
  rintro rfl
  have leftName := (consistent.named?_eq_some_iff.mp left).2
  have same := leftName.symm.trans (consistent.named?_eq_some_iff.mp right).2
  exact lengths (congrArg String.length (Option.some.inj same))

/-! ### Short and long spellings -/

theorem shortName?_eq_some_iff {short : String} :
    shortName? name = some short ↔ name = structPrefix ++ short := by
  rw [shortName?, Option.map_eq_some_iff]
  constructor
  · rintro ⟨rest, found, rfl⟩
    have parts := List.isPrefixOf?_eq_some_iff_append_eq.mp found
    rw [← String.toList_inj, String.toList_append, String.toList_ofList, parts]
  · rintro rfl
    refine ⟨short.toList, ?_, String.ofList_toList⟩
    rw [List.isPrefixOf?_eq_some_iff_append_eq, String.toList_append]

theorem length_prefix_append (name : String) :
    (structPrefix ++ name).length = 8 + name.length := by
  rw [String.length_append]
  rfl

/-- The short and the long spelling of a name mean the same, or are both unknown, exactly if only the
long one was registered, or neither the long one nor one that is longer still; in the second case the
short one was registered, or none that is shorter still. -/
theorem Consistent.find?_eq_find?_prefix_iff (consistent : r.Consistent) :
    r.find? name = r.find? (structPrefix ++ name) ↔
      (r.named? name = none ∧ r.named? (structPrefix ++ name) ≠ none) ∨
      (r.named? (structPrefix ++ name) = none ∧
        r.named? (structPrefix ++ (structPrefix ++ name)) = none ∧
        (r.named? name = none → (shortName? name).bind r.named? = none)) := by
  have short : shortName? (structPrefix ++ name) = some name := shortName?_eq_some_iff.mpr rfl
  rw [consistent.find?_eq_or, consistent.find?_eq_or, short, Option.bind_some]
  cases exact : r.named? name with
  | some type =>
    cases long : r.named? (structPrefix ++ name) with
    | some other =>
      have differs : type ≠ other :=
        consistent.ne_of_named? exact long (by rw [length_prefix_append]; omega)
      simp [differs]
    | none =>
      cases longer : r.named? (structPrefix ++ (structPrefix ++ name)) with
      | some other =>
        have differs : type ≠ other :=
          consistent.ne_of_named? exact longer
            (by rw [length_prefix_append, length_prefix_append]; omega)
        simp [differs]
      | none => simp
  | none =>
    cases long : r.named? (structPrefix ++ name) with
    | some other => simp
    | none =>
      cases longer : r.named? (structPrefix ++ (structPrefix ++ name)) with
      | none => simp
      | some other =>
        have differs : (shortName? name).bind r.named? ≠ some other := by
          intro both
          obtain ⟨shorter, parts, found⟩ := Option.bind_eq_some_iff.mp both
          have parts := congrArg String.length (shortName?_eq_some_iff.mp parts)
          have lengths : shorter.length ≠ (structPrefix ++ (structPrefix ++ name)).length := by
            rw [length_prefix_append] at parts
            rw [length_prefix_append, length_prefix_append]
            omega
          exact consistent.ne_of_named? found longer lengths rfl
        simp [differs]

/-! ### Names that keep their meaning -/

/-- In every registry that registrations lead to: once a name means a type, it goes on meaning it
exactly until a spelling is registered that is looked up before the one that was found. As long as it
does, the name denotes the same when it is parsed and when fields are named. The short and the long
spelling mean the same type, or neither means one, exactly if only the long one was registered, or
neither the long one nor one that is longer still. -/
theorem meaning_stays_iff (q : Quantum) (past more : List Registration)
    (found : (reached past { quantum := q }).find? name = some type) :
    let r := reached past { quantum := q }
    let later := reached more r
    (∃ spelling ∈ spellings name, type.name = some spelling ∧
      (later.find? name = some type ↔
        ∀ s ∈ spellingsBefore name spelling, ∀ entry ∈ more, entry.name ≠ some s)) ∧
    (later.find? name = some type →
      (∀ text, Blank.trim text = name → later.parseType text = r.parseType text) ∧
      ∀ fields base, later.resolve fields name base = r.resolve fields name base) ∧
    ∀ short, later.find? short = later.find? (structPrefix ++ short) ↔
      (later.named? short = none ∧ later.named? (structPrefix ++ short) ≠ none) ∨
      (later.named? (structPrefix ++ short) = none ∧
        later.named? (structPrefix ++ (structPrefix ++ short)) = none ∧
        (later.named? short = none → (shortName? short).bind later.named? = none)) := by
  intro r later
  have consistent : r.Consistent := consistent_reached q past
  have still : later.Consistent := consistent.reached more
  refine ⟨?_, fun same => ⟨fun text trimmed => ?_, fun fields base => ?_⟩,
    fun _ => still.find?_eq_find?_prefix_iff⟩
  · obtain ⟨spelling, mem, exact, absent⟩ := consistent.find?_eq_some_iff.mp found
    have named := (consistent.named?_eq_some_iff.mp exact).2
    refine ⟨spelling, mem, named, ?_⟩
    constructor
    · intro stays s before entry registered
      obtain ⟨other, -, otherExact, otherAbsent⟩ := still.find?_eq_some_iff.mp stays
      obtain rfl : spelling = other :=
        Option.some.inj (named.symm.trans (still.named?_eq_some_iff.mp otherExact).2)
      have unknown := consistent.named?_reached_eq_none_iff.mp (otherAbsent s before)
      exact unknown.2 entry registered
    · intro unregistered
      refine still.find?_eq_some_iff.mpr
        ⟨spelling, mem, consistent.named?_reached exact more, fun s before => ?_⟩
      exact consistent.named?_reached_eq_none_iff.mpr
        ⟨absent s before, unregistered s before⟩
  · subst trimmed
    simp only [parseType, typeOf?, same, r, found]
  · simp only [resolve, same, r, found]

/-- A name that is known by its short spelling keeps its meaning when other names are registered. -/
theorem meaning_stays_other :
    let r := reached [⟨some "S", [.int .i8], false⟩] { quantum := .word }
    let later := reached [⟨some "T", [.int .i32], false⟩, ⟨none, [.int .i32], false⟩] r
    let type := StructType.ofFields 1 (some "S") [.int .i8] false .word
    r.find? "%struct.S" = some type ∧ later.find? "%struct.S" = some type := by
  intro r later type
  have found : r.find? "%struct.S" = some type := rfl
  obtain ⟨⟨spelling, -, named, stays⟩, -⟩ := meaning_stays_iff .word
    [⟨some "S", [.int .i8], false⟩]
    [⟨some "T", [.int .i32], false⟩, ⟨none, [.int .i32], false⟩] found
  obtain rfl : "S" = spelling := Option.some.inj named
  refine ⟨found, stays.mpr ?_⟩
  decide +kernel

/-- The long spelling of a name means another type once it is registered itself. -/
theorem meaning_changes :
    let r := reached [⟨some "S", [.int .i8], false⟩] { quantum := .word }
    let later := reached [⟨some "%struct.S", [.int .i32], false⟩] r
    let type := StructType.ofFields 1 (some "S") [.int .i8] false .word
    let other := StructType.ofFields 2 (some "%struct.S") [.int .i32] false .word
    r.find? "%struct.S" = some type ∧ later.find? "%struct.S" = some other ∧
    later.find? "S" = some type ∧ type.id ≠ other.id :=
  ⟨rfl, rfl, rfl, by decide⟩

end LinearHost.Registry
