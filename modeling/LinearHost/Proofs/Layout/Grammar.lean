import LinearHost.Layout.Registration
import Mathlib.Logic.ExistsUnique

/-!
# The texts that denote types

Without the blanks around it, a text denotes a type by its form or as the name of a struct; all
other texts are unknown. The length of a row of bytes is read as a number, and a number may carry a
plus sign: rows with a sign are the only texts that are read otherwise than the forms say.

## Main definitions

* `Blank.Strips`: what is left of a text without the blanks around it.
* `Registry.Form`, `Registry.SignedRow`: the forms, and rows of bytes with a sign.
* `Registry.Denotes`: what a text is to denote.
* `Registry.parseType_denotes_iff`: when parsing gives what a text is to denote.
-/

namespace LinearHost

/-! ### Without the blanks around it -/

namespace Blank

variable {cs : List Char} {p : Char → Bool}

theorem dropWhile_eq_self_iff : cs.dropWhile p = cs ↔ ∀ c ∈ cs.head?, p c = false := by
  cases cs with
  | nil => simp
  | cons c rest =>
    rw [List.dropWhile_cons]
    split
    next drops =>
      have shorter := (List.dropWhile_suffix p (l := rest)).length_le
      refine iff_of_false (fun same => ?_) fun stays => ?_
      · rw [same] at shorter
        exact Nat.not_succ_le_self _ shorter
      · rw [stays c rfl] at drops
        cases drops
    next stays => simpa using stays

theorem length_trimChars_le (cs : List Char) :
    (trimChars cs).length ≤ (cs.dropWhile isBlank).length := by
  have shorter := (List.dropWhile_suffix isBlank (l := (cs.dropWhile isBlank).reverse)).length_le
  rw [List.length_reverse] at shorter
  rwa [trimChars, List.length_reverse]

/-- Trimming keeps exactly the texts that neither start nor end with a blank. -/
theorem trimChars_eq_self_iff :
    trimChars cs = cs ↔
      (∀ c ∈ cs.head?, isBlank c = false) ∧ ∀ c ∈ cs.getLast?, isBlank c = false := by
  rw [← List.head?_reverse, ← dropWhile_eq_self_iff, ← dropWhile_eq_self_iff]
  constructor
  · intro same
    have le := length_trimChars_le cs
    rw [same] at le
    have front := (List.dropWhile_suffix isBlank (l := cs)).eq_of_length_le le
    refine ⟨front, ?_⟩
    rw [trimChars, front] at same
    rw [← List.reverse_eq_iff, same]
  · rintro ⟨front, back⟩
    rw [trimChars, front, back, List.reverse_reverse]

theorem isBlank_getLast?_trimChars {c : Char} (last : c ∈ (trimChars cs).getLast?) :
    isBlank c = false := by
  have first := List.head?_dropWhile_not isBlank (cs.dropWhile isBlank).reverse
  rw [trimChars, List.getLast?_reverse] at last
  rwa [Option.mem_def.mp last] at first

theorem trim_eq_self_iff {s : String} : trim s = s ↔ trimChars s.toList = s.toList := by
  rw [trim, ← String.toList_inj, String.toList_ofList]

/-- `rest` is the text between the blanks at the two ends of a text. -/
structure Strips (text rest : String) : Prop where
  parts : ∃ front back : List Char, text.toList = front ++ rest.toList ++ back ∧
    (∀ c ∈ front, isBlank c = true) ∧ ∀ c ∈ back, isBlank c = true
  first : ∀ c ∈ rest.toList.head?, isBlank c = false
  last : ∀ c ∈ rest.toList.getLast?, isBlank c = false

theorem isBlank_of_mem_takeWhile {cs : List Char} {c : Char} (mem : c ∈ cs.takeWhile isBlank) :
    isBlank c = true :=
  List.all_eq_true.mp List.all_takeWhile c mem

/-- Only blanks are taken from the end once the front is free of them. -/
theorem dropWhile_eq_trimChars_append (cs : List Char) :
    cs.dropWhile isBlank =
      trimChars cs ++ ((cs.dropWhile isBlank).reverse.takeWhile isBlank).reverse := by
  rw [trimChars, ← List.reverse_append, List.takeWhile_append_dropWhile, List.reverse_reverse]

theorem isBlank_head?_trimChars {cs : List Char} {c : Char} (first : c ∈ (trimChars cs).head?) :
    isBlank c = false := by
  have still : c ∈ (cs.dropWhile isBlank).head? := by
    rw [dropWhile_eq_trimChars_append, List.head?_append, Option.mem_def.mp first]
    rfl
  have plain := List.head?_dropWhile_not isBlank cs
  rwa [Option.mem_def.mp still] at plain

/-- Trimming takes the blanks off both ends and nothing else. -/
theorem strips_trim (text : String) : Strips text (trim text) := by
  have toList : (trim text).toList = trimChars text.toList := String.toList_ofList
  constructor
  · refine ⟨text.toList.takeWhile isBlank,
      ((text.toList.dropWhile isBlank).reverse.takeWhile isBlank).reverse, ?_, ?_, ?_⟩
    · rw [toList, List.append_assoc, ← dropWhile_eq_trimChars_append,
        List.takeWhile_append_dropWhile]
    · intro c mem
      exact isBlank_of_mem_takeWhile mem
    · intro c mem
      exact isBlank_of_mem_takeWhile (List.mem_reverse.mp mem)
  · intro c first
    rw [toList] at first
    exact isBlank_head?_trimChars first
  · intro c last
    rw [toList] at last
    exact isBlank_getLast?_trimChars last

theorem trimChars_append {front back : List Char} (blank : ∀ c ∈ front, isBlank c = true)
    (blanks : ∀ c ∈ back, isBlank c = true) (cs : List Char) :
    trimChars (front ++ cs ++ back) = trimChars cs := by
  rw [trimChars, List.append_assoc, List.dropWhile_append_of_pos blank, List.dropWhile_append]
  split
  next empty =>
    have none : back.dropWhile isBlank = [] := by
      rw [← List.append_nil back, List.dropWhile_append_of_pos blanks]
      rfl
    rw [trimChars, none, List.isEmpty_iff.mp empty]
  next =>
    rw [trimChars, List.reverse_append, List.dropWhile_append_of_pos]
    intro c mem
    exact blanks c (List.mem_reverse.mp mem)

/-- There is one way to take the blanks at the ends from a text. -/
theorem strips_iff {text rest : String} : Strips text rest ↔ rest = trim text := by
  constructor
  · rintro ⟨⟨front, back, parts, blank, blanks⟩, first, last⟩
    rw [← trim_eq_self_iff.mpr (trimChars_eq_self_iff.mpr ⟨first, last⟩), trim, trim, parts,
      trimChars_append blank blanks]
  · rintro rfl
    exact strips_trim text

end Blank

namespace Registry

variable {r : Registry} {text : String} {d : Descriptor} {digits row : List Char} {value n : Nat}
  {result : Except Fault Descriptor}

/-! ### Forms -/

inductive Form : String → Descriptor → Prop where
  | pointer (text : String) : Form (text ++ "*") .pointer
  | float : Form "float" .float
  | double : Form "double" .double
  | int (width : IntWidth) : Form width.text (.int width)
  | bytes (digits : List Char) (some : digits ≠ []) (decimal : ∀ c ∈ digits, c.isDigit = true)
      (fits : Nat.ofDigitChars 10 digits 0 < addressSpace) :
      Form (String.ofList ('b' :: digits)) (.bytes (Nat.ofDigitChars 10 digits 0))

/-- The texts like those of rows of bytes, with a plus sign before the length. -/
inductive SignedRow : String → Nat → Prop where
  | intro (digits : List Char) (some : digits ≠ []) (decimal : ∀ c ∈ digits, c.isDigit = true)
      (fits : Nat.ofDigitChars 10 digits 0 < addressSpace) :
      SignedRow (String.ofList ('b' :: '+' :: digits)) (Nat.ofDigitChars 10 digits 0)

/-- What a text without blanks around it is to denote. -/
inductive Denotes (r : Registry) (text : String) : Except Fault Descriptor → Prop where
  | form {d : Descriptor} (form : Form text d) : Denotes r text (.ok d)
  | struct {type : StructType} (other : ∀ d, ¬ Form text d) (found : r.find? text = some type) :
      Denotes r text (.ok (.struct type))
  | unknown (other : ∀ d, ¬ Form text d) (absent : r.find? text = none) :
      Denotes r text (.error (.unknownType text))

/-! ### Digits -/

theorem digit?_eq_some_iff {c : Char} :
    Numeral.digit? c = some n ↔ c.isDigit = true ∧ c.toNat - '0'.toNat = n := by
  have same : c.isDigit = true ↔ '0' ≤ c ∧ c ≤ '9' := by
    rw [Char.isDigit_iff_toNat]
    rfl
  rw [Numeral.digit?, same]
  split <;> simp [*]

theorem decimalFrom?_eq_some_iff :
    Numeral.decimalFrom? value digits = some n ↔
      (∀ c ∈ digits, c.isDigit = true) ∧ Nat.ofDigitChars 10 digits value = n := by
  induction digits generalizing value with
  | nil => simp [Numeral.decimalFrom?]
  | cons c rest ih =>
    simp only [Numeral.decimalFrom?, Option.bind_eq_some_iff, digit?_eq_some_iff, ih,
      List.forall_mem_cons, Nat.ofDigitChars_cons, and_assoc]
    constructor
    · rintro ⟨_, digit, rfl, rest⟩
      exact ⟨digit, rest⟩
    · rintro ⟨digit, rest⟩
      exact ⟨_, digit, rfl, rest⟩

/-- A number is read exactly from a row of digits that is not empty. -/
theorem decimal?_eq_some_iff :
    Numeral.decimal? digits = some n ↔
      digits ≠ [] ∧ (∀ c ∈ digits, c.isDigit = true) ∧ Nat.ofDigitChars 10 digits 0 = n := by
  cases digits with
  | nil => simp [Numeral.decimal?]
  | cons c rest => simp [Numeral.decimal?, decimalFrom?_eq_some_iff]

/-- A row of digits is read as the number that it denotes, with or without a plus sign. -/
theorem length?_digits (some : digits ≠ []) (decimal : ∀ c ∈ digits, c.isDigit = true)
    (fits : Nat.ofDigitChars 10 digits 0 < addressSpace) :
    length? digits = .some (Nat.ofDigitChars 10 digits 0) ∧
      length? ('+' :: digits) = .some (Nat.ofDigitChars 10 digits 0) := by
  have value : (Numeral.decimal? digits).filter (· < addressSpace) =
      .some (Nat.ofDigitChars 10 digits 0) := by
    rw [decimal?_eq_some_iff.mpr ⟨some, decimal, rfl⟩]
    exact Option.filter_some_pos (decide_eq_true fits)
  refine ⟨?_, value⟩
  unfold length?
  split
  next rest => cases decimal '+' (List.mem_cons_self ..)
  next => exact value

/-- Only digits that fit a 64-bit word are read, with or without a plus sign. -/
theorem exists_digits (read : (length? row).isSome = true) :
    ∃ digits, (row = digits ∨ row = '+' :: digits) ∧ digits ≠ [] ∧
      (∀ c ∈ digits, c.isDigit = true) ∧ Nat.ofDigitChars 10 digits 0 < addressSpace := by
  have value {digits : List Char}
      (read : ((Numeral.decimal? digits).filter (· < addressSpace)).isSome = true) :
      digits ≠ [] ∧ (∀ c ∈ digits, c.isDigit = true) ∧
        Nat.ofDigitChars 10 digits 0 < addressSpace := by
    obtain ⟨n, found⟩ := Option.isSome_iff_exists.mp read
    obtain ⟨denotes, fits⟩ := Option.filter_eq_some_iff.mp found
    obtain ⟨some, decimal, rfl⟩ := decimal?_eq_some_iff.mp denotes
    exact ⟨some, decimal, of_decide_eq_true fits⟩
  unfold length? at read
  split at read
  next rest => exact ⟨rest, .inr rfl, value read⟩
  next => exact ⟨row, .inl rfl, value read⟩

/-! ### Texts that are read by their form -/

/-- The type that a text denotes whatever structs there are. -/
def fixed? (text : String) : Option Descriptor :=
  if text.toList.getLast? = some '*' then some .pointer
  else (floating? text).or (((IntWidth.ofText? text).map .int).or (byteRow? text))

/-- A text denotes a type by its form, or else a struct by its name. -/
theorem typeOf?_eq (r : Registry) (text : String) :
    r.typeOf? text = (fixed? text).or ((r.find? text).map .struct) := by
  unfold typeOf? fixed?
  split
  · rfl
  · simp [Option.or_assoc]

theorem struct?_of_fixed? (found : fixed? text = some d) : d.struct? = none := by
  unfold fixed? at found
  split at found
  · cases found
    rfl
  rw [Option.or_eq_some_iff, Option.or_eq_some_iff] at found
  obtain float | ⟨-, int | ⟨-, row⟩⟩ := found
  · unfold floating? at float
    split at float <;> cases float <;> rfl
  · obtain ⟨width, -, rfl⟩ := Option.map_eq_some_iff.mp int
    rfl
  · unfold byteRow? at row
    split at row
    · obtain ⟨n, -, rfl⟩ := Option.map_eq_some_iff.mp row
      rfl
    · cases row

theorem isSome_floating?_iff :
    (floating? text).isSome = true ↔ text = "float" ∨ text = "double" := by
  unfold floating?
  split
  · simp
  · simp
  next float double => exact iff_of_false nofun fun same => same.elim float double

theorem isSome_ofText?_iff :
    (IntWidth.ofText? text).isSome = true ↔ ∃ width, IntWidth.text width = text := by
  rw [IntWidth.ofText?, List.find?_isSome]
  constructor
  · rintro ⟨width, -, same⟩
    exact ⟨width, of_decide_eq_true same⟩
  · rintro ⟨width, same⟩
    exact ⟨width, by cases width <;> decide, decide_eq_true same⟩

theorem isSome_byteRow?_iff :
    (byteRow? text).isSome = true ↔
      ∃ row, text.toList = 'b' :: row ∧ (length? row).isSome = true := by
  unfold byteRow?
  split
  next row same => simp [same]
  next other => exact iff_of_false nofun fun ⟨row, same, _⟩ => other row same

/-- A text that starts with `b` and ends in a digit can only be read as a row of bytes. -/
theorem fixed?_row {row : List Char} (digit : ∀ c ∈ row.getLast?, c.isDigit = true)
    (read : length? row = .some n) : fixed? (String.ofList ('b' :: row)) = .some (.bytes n) := by
  have chars : (String.ofList ('b' :: row)).toList = 'b' :: row := String.toList_ofList
  have star : (String.ofList ('b' :: row)).toList.getLast? ≠ .some '*' := by
    intro last
    rw [chars, List.getLast?_cons] at last
    cases end_eq : row.getLast? with
    | none => simp [end_eq] at last
    | some c =>
      obtain rfl : c = '*' := by simpa [end_eq] using last
      cases digit '*' end_eq
  have float : floating? (String.ofList ('b' :: row)) = none := by
    rw [← Option.not_isSome_iff_eq_none, isSome_floating?_iff]
    rintro (same | same) <;>
    · have first := congrArg (fun text => text.toList.head?) same
      rw [chars] at first
      cases first
  have int : IntWidth.ofText? (String.ofList ('b' :: row)) = none := by
    rw [← Option.not_isSome_iff_eq_none, isSome_ofText?_iff]
    rintro ⟨width, same⟩
    have first := congrArg (fun text => text.toList.head?) same
    rw [chars] at first
    cases width <;> cases first
  have bytes : byteRow? (String.ofList ('b' :: row)) = .some (.bytes n) := by
    unfold byteRow?
    rw [chars]
    exact congrArg (Option.map Descriptor.bytes) read
  rw [fixed?, if_neg star, float, int, bytes]
  rfl

theorem isDigit_getLast? (decimal : ∀ c ∈ digits, c.isDigit = true) :
    ∀ c ∈ digits.getLast?, c.isDigit = true :=
  fun c last => decimal c (List.mem_of_getLast? last)

/-- A text of a form denotes its type. -/
theorem Form.fixed? (form : Form text d) : fixed? text = .some d := by
  cases form with
  | pointer text => exact if_pos (by simp)
  | float => rfl
  | double => rfl
  | int width => cases width <;> rfl
  | bytes digits some decimal fits =>
    exact fixed?_row (isDigit_getLast? decimal) (length?_digits some decimal fits).1

theorem SignedRow.fixed? (signed : SignedRow text n) : fixed? text = .some (.bytes n) := by
  cases signed with
  | intro digits some decimal fits =>
    refine fixed?_row (fun c last => ?_) (length?_digits some decimal fits).2
    rw [List.getLast?_cons_of_ne_nil some] at last
    exact isDigit_getLast? decimal c last

/-- A sign is no digit, so a row with a sign has no form. -/
theorem SignedRow.not_form (signed : SignedRow text n) : ¬ Form text d := by
  intro form
  obtain rfl : d = .bytes n := Option.some.inj (form.fixed?.symm.trans signed.fixed?)
  obtain ⟨digits, some, decimal, fits⟩ := signed
  generalize same : String.ofList ('b' :: '+' :: digits) = text at form
  generalize row : Descriptor.bytes _ = d at form
  cases form with
  | bytes others _ decimal _ =>
    obtain rfl : '+' :: digits = others := (List.cons.inj (String.ofList_injective same)).2
    cases decimal '+' (List.mem_cons_self ..)
  | pointer | float | double | int => cases row

/-- A text is read by its form, or as a row of bytes with a sign. -/
theorem form_or_signedRow (read : (Registry.fixed? text).isSome = true) :
    (∃ d, Form text d) ∨ ∃ n, SignedRow text n := by
  rw [Registry.fixed?] at read
  split at read
  next star =>
    obtain ⟨front, parts⟩ := List.getLast?_eq_some_iff.mp star
    have same : text = String.ofList front ++ "*" := by
      rw [← String.toList_inj, parts, String.toList_append, String.toList_ofList]
      rfl
    exact .inl ⟨.pointer, same ▸ .pointer _⟩
  next =>
    rw [Option.isSome_or, Option.isSome_or, Option.isSome_map, Bool.or_eq_true, Bool.or_eq_true,
      isSome_floating?_iff, isSome_ofText?_iff, isSome_byteRow?_iff] at read
    obtain (rfl | rfl) | ⟨width, rfl⟩ | ⟨row, same, length⟩ := read
    · exact .inl ⟨_, .float⟩
    · exact .inl ⟨_, .double⟩
    · exact .inl ⟨_, .int width⟩
    · obtain ⟨digits, rfl | rfl, some, decimal, fits⟩ := exists_digits length
      · rw [← String.ofList_toList (s := text), same]
        exact .inl ⟨_, .bytes row some decimal fits⟩
      · rw [← String.ofList_toList (s := text), same]
        exact .inr ⟨_, .intro digits some decimal fits⟩

/-- A text denotes a type whatever structs there are if it has a form, or if it is a row of bytes
with a plus sign. -/
theorem fixed?_eq_some_iff :
    Registry.fixed? text = some d ↔ Form text d ∨ ∃ n, SignedRow text n ∧ d = .bytes n := by
  constructor
  · intro found
    obtain ⟨other, form⟩ | ⟨n, signed⟩ := form_or_signedRow (Option.isSome_of_mem found)
    · obtain rfl : other = d := Option.some.inj (form.fixed?.symm.trans found)
      exact .inl form
    · exact .inr ⟨n, signed, Option.some.inj (found.symm.trans signed.fixed?)⟩
  · rintro (form | ⟨n, signed, rfl⟩)
    · exact form.fixed?
    · exact signed.fixed?

theorem parseType_eq_ok_iff :
    r.parseType text = .ok d ↔ r.typeOf? (Blank.trim text) = some d := by
  simp only [parseType]
  cases r.typeOf? (Blank.trim text) <;> simp

/-! ### What a text is to denote -/

/-- A text is to denote one thing only. -/
theorem Denotes.unique {one other : Except Fault Descriptor} (first : r.Denotes text one)
    (second : r.Denotes text other) : one = other := by
  cases first with
  | form form =>
    cases second with
    | form again => rw [Option.some.inj (form.fixed?.symm.trans again.fixed?)]
    | struct none | unknown none => exact absurd form (none _)
  | struct none found =>
    cases second with
    | form form => exact absurd form (none _)
    | struct _ again => rw [Option.some.inj (found.symm.trans again)]
    | unknown _ absent => cases found.symm.trans absent
  | unknown none absent =>
    cases second with
    | form form => exact absurd form (none _)
    | struct _ found => cases found.symm.trans absent
    | unknown => rfl

/-- Every text is to denote something, be it a fault. -/
theorem exists_denotes (r : Registry) (text : String) : ∃ result, r.Denotes text result := by
  by_cases formed : ∃ d, Form text d
  · obtain ⟨d, form⟩ := formed
    exact ⟨_, .form form⟩
  · have other : ∀ d, ¬ Form text d := not_exists.mp formed
    cases looked : r.find? text with
    | some type => exact ⟨_, .struct other looked⟩
    | none => exact ⟨_, .unknown other looked⟩

theorem parseType_eq_error (unread : fixed? (Blank.trim text) = none)
    (absent : r.find? (Blank.trim text) = none) :
    r.parseType text = .error (.unknownType (Blank.trim text)) := by
  have untyped : r.typeOf? (Blank.trim text) = none := by
    rw [typeOf?_eq, unread, absent]
    rfl
  simp only [parseType, untyped]

/-- Parsing gives what a text is to denote unless the text is a row with a sign. -/
theorem parseType_denotes (unsigned : ∀ n, ¬ SignedRow (Blank.trim text) n) :
    r.Denotes (Blank.trim text) (r.parseType text) := by
  cases read : fixed? (Blank.trim text) with
  | some d =>
    have parsed : r.parseType text = .ok d := by
      rw [parseType_eq_ok_iff, typeOf?_eq, read, Option.some_or]
    obtain form | ⟨n, signed, -⟩ := fixed?_eq_some_iff.mp read
    · rw [parsed]
      exact .form form
    · exact absurd signed (unsigned n)
  | none =>
    have other (d : Descriptor) : ¬ Form (Blank.trim text) d := by
      intro form
      cases form.fixed?.symm.trans read
    cases looked : r.find? (Blank.trim text) with
    | some type =>
      have parsed : r.parseType text = .ok (.struct type) := by
        rw [parseType_eq_ok_iff, typeOf?_eq, read, looked]
        rfl
      rw [parsed]
      exact .struct other looked
    | none =>
      rw [parseType_eq_error read looked]
      exact .unknown other looked

theorem SignedRow.parseType (signed : SignedRow (Blank.trim text) n) (r : Registry) :
    r.parseType text = .ok (.bytes n) := by
  rw [parseType_eq_ok_iff, typeOf?_eq, signed.fixed?, Option.some_or]

theorem SignedRow.not_denotes (signed : SignedRow text n) :
    ¬ r.Denotes text (.ok (.bytes n)) := by
  intro denotes
  cases denotes with
  | form form => exact signed.not_form form

/-- Only a struct is read by looking its name up. -/
theorem parseType_eq_ok_iff_of_struct? (plain : d.struct? = none) :
    r.parseType text = .ok d ↔ fixed? (Blank.trim text) = some d := by
  rw [parseType_eq_ok_iff, typeOf?_eq, Option.or_eq_some_iff]
  refine or_iff_left ?_
  rintro ⟨-, found⟩
  obtain ⟨type, -, rfl⟩ := Option.map_eq_some_iff.mp found
  cases plain

/-- In every registry a text without the blanks around it is to denote one thing, and this is what
parsing gives exactly if the text is not a row of bytes with a plus sign before its length. Such a
row is read as if the sign was not there; apart from it, the texts that are read as a pointer, a
number or a row of bytes are those of these forms. -/
theorem parseType_denotes_iff (r : Registry) (text : String) :
    let rest := Blank.trim text
    (∀ t, Blank.Strips text t ↔ t = rest) ∧
    (∃! result, r.Denotes rest result) ∧
    (r.Denotes rest (r.parseType text) ↔ ∀ n, ¬ SignedRow rest n) ∧
    (∀ n, SignedRow rest n → r.parseType text = .ok (.bytes n)) ∧
    ∀ d, d.struct? = none →
      (r.parseType text = .ok d ↔ Form rest d ∨ ∃ n, SignedRow rest n ∧ d = .bytes n) := by
  intro rest
  refine ⟨fun t => Blank.strips_iff, ?_, ?_, ?_, ?_⟩
  · obtain ⟨result, denotes⟩ := exists_denotes r rest
    exact ⟨result, denotes, fun other again => again.unique denotes⟩
  · constructor
    · intro denotes n signed
      rw [signed.parseType r] at denotes
      exact signed.not_denotes denotes
    · intro unsigned
      exact parseType_denotes unsigned
  · intro n signed
    exact signed.parseType r
  · intro d plain
    rw [parseType_eq_ok_iff_of_struct? plain, fixed?_eq_some_iff]

/-- Zeros before the digits and blanks around the text do not count. -/
example : ({ quantum := .word } : Registry).parseType " b007 " = .ok (.bytes 7) := rfl

/-- A sign makes a text denote a row of bytes that is to be unknown. -/
theorem parseType_signed_row :
    let r : Registry := { quantum := .word }
    r.parseType "b+5" = .ok (.bytes 5) ∧ r.Denotes "b+5" (.error (.unknownType "b+5")) ∧
      ¬ r.Denotes "b+5" (.ok (.bytes 5)) := by
  have signed : SignedRow "b+5" 5 :=
    .intro ['5'] (by decide) (List.forall_mem_singleton.mpr rfl) (by decide)
  intro r
  exact ⟨rfl, .unknown (fun d => signed.not_form) rfl, signed.not_denotes⟩

end Registry

end LinearHost
