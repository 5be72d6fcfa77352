import LinearHost.Signature
import Mathlib.Data.String.Basic

/-!
# Signatures and their texts

A text is a signature exactly if it is a letter of a kind, followed by letters of kinds that values
can have. It is the only text of its signature, so signatures can be told apart by their texts.

## Main definitions

* `Signature.render`: the text of a signature.
* `Signature.Spelled`: texts of signatures.
* `Signature.parse_eq_ok_iff`: parsing takes rendering back.
* `Signature.parse_exact`: which texts are parsed, and what parsing gives.
-/

namespace LinearHost

variable {c : Char} {k : Kind} {params : List Kind} {cs : List Char} {text : String}
  {s : Signature}

/-! ### Letters -/

namespace Kind

theorem ofCode?_eq_some_iff : ofCode? c = some k ↔ k.code = c := by
  constructor
  · intro found
    unfold ofCode? at found
    split at found <;> cases found <;> rfl
  · rintro rfl
    cases k <;> rfl

theorem mem_letters_iff : c ∈ "vijfd".toList ↔ ∃ k : Kind, k.code = c := by
  constructor
  · intro mem
    have letter : c = 'v' ∨ c = 'i' ∨ c = 'j' ∨ c = 'f' ∨ c = 'd' := by simpa using mem
    rcases letter with rfl | rfl | rfl | rfl | rfl
    exacts [⟨void, rfl⟩, ⟨i32, rfl⟩, ⟨i64, rfl⟩, ⟨f32, rfl⟩, ⟨f64, rfl⟩]
  · rintro ⟨k, rfl⟩
    cases k <;> decide

theorem mem_paramLetters_iff : c ∈ "ijfd".toList ↔ ∃ k : Kind, k.code = c ∧ k ≠ .void := by
  constructor
  · intro mem
    obtain ⟨k, rfl⟩ := mem_letters_iff.mp (List.mem_cons_of_mem 'v' mem)
    refine ⟨k, rfl, ?_⟩
    rintro rfl
    exact absurd mem (by decide)
  · rintro ⟨k, rfl, nonvoid⟩
    cases k with
    | void => exact absurd rfl nonvoid
    | _ => decide

/-- Letters are single bytes. -/
theorem utf8Len_map_code (kinds : List Kind) :
    String.utf8Len (kinds.map code) = kinds.length := by
  induction kinds with
  | nil => rfl
  | cons k kinds ih =>
    have single : k.code.utf8Size = 1 := by cases k <;> rfl
    rw [List.map_cons, String.utf8Len_cons, ih, single, List.length_cons]

end Kind

namespace Signature

def render (result : Kind) (params : List Kind) : String :=
  String.ofList (result.code :: params.map Kind.code)

/-- The text is a letter of any kind, and then letters of kinds other than `void`. -/
def Spelled (text : String) : Prop :=
  ∃ first rest, text.toList = first :: rest ∧ first ∈ "vijfd".toList ∧
    ∀ c ∈ rest, c ∈ "ijfd".toList

theorem toList_render (result : Kind) (params : List Kind) :
    (render result params).toList = result.code :: params.map Kind.code :=
  String.toList_ofList

theorem exists_params (letters : ∀ c ∈ cs, c ∈ "ijfd".toList) :
    ∃ params : List Kind, params.map Kind.code = cs ∧ ∀ k ∈ params, k ≠ .void := by
  induction cs with
  | nil => exact ⟨[], rfl, nofun⟩
  | cons c cs ih =>
    obtain ⟨first, others⟩ := List.forall_mem_cons.mp letters
    obtain ⟨k, rfl, nonvoid⟩ := Kind.mem_paramLetters_iff.mp first
    obtain ⟨params, rfl, nonvoids⟩ := ih others
    exact ⟨k :: params, rfl, List.forall_mem_cons.mpr ⟨nonvoid, nonvoids⟩⟩

/-- A text is spelled right exactly if it is the text of some kinds. -/
theorem spelled_iff :
    Spelled text ↔ ∃ result params, render result params = text ∧ ∀ k ∈ params, k ≠ .void := by
  constructor
  · rintro ⟨first, rest, parts, letter, letters⟩
    obtain ⟨result, rfl⟩ := Kind.mem_letters_iff.mp letter
    obtain ⟨params, rfl, nonvoid⟩ := exists_params letters
    exact ⟨result, params, by rw [render, ← parts, String.ofList_toList], nonvoid⟩
  · rintro ⟨result, params, rfl, nonvoid⟩
    refine ⟨_, _, toList_render result params, Kind.mem_letters_iff.mpr ⟨result, rfl⟩, ?_⟩
    intro c mem
    obtain ⟨k, member, rfl⟩ := List.mem_map.mp mem
    exact Kind.mem_paramLetters_iff.mpr ⟨k, rfl, nonvoid k member⟩

/-! ### Parsing -/

theorem param?_eq_some_iff : param? c = some k ↔ k.code = c ∧ k ≠ .void := by
  rw [param?, Option.filter_eq_some_iff, Kind.ofCode?_eq_some_iff, decide_eq_true_eq]

/-- Letters are read as kinds exactly if they are the codes of these. -/
theorem mapM_param?_eq_some_iff :
    cs.mapM param? = some params ↔ params.map Kind.code = cs ∧ ∀ k ∈ params, k ≠ .void := by
  induction cs generalizing params with
  | nil => cases params <;> simp
  | cons c cs ih =>
    rw [List.mapM_cons]
    cases params with
    | nil => simp [Option.bind_eq_some_iff]
    | cons k params =>
      simp [Option.bind_eq_some_iff, param?_eq_some_iff, ih, and_assoc, and_left_comm]

/-- Parsing a text gives the signature that it is the text of. -/
theorem parse_eq_ok_iff :
    parse text = .ok s ↔
      s.text = text ∧ render s.result s.params = text ∧ ∀ k ∈ s.params, k ≠ .void := by
  obtain ⟨own, result, params⟩ := s
  have chars : render result params = text ↔ result.code :: params.map Kind.code = text.toList := by
    rw [← String.toList_inj, toList_render]
  rw [parse, chars]
  cases text.toList with
  | nil => simp
  | cons first rest =>
    dsimp only
    rw [List.cons.injEq, ← Kind.ofCode?_eq_some_iff, and_assoc, ← mapM_param?_eq_some_iff]
    cases Kind.ofCode? first <;> cases rest.mapM param? <;> simp [eq_comm]

theorem parse_eq_error_iff {fault : Fault} :
    parse text = .error fault ↔ (¬ ∃ s, parse text = .ok s) ∧ fault = .invalidSignature text := by
  rw [parse]
  split
  · simp [eq_comm]
  · split <;> simp [eq_comm]

/-- Exactly the texts that are spelled right are parsed. -/
theorem exists_parse_iff : (∃ s, parse text = .ok s) ↔ Spelled text := by
  rw [spelled_iff]
  constructor
  · rintro ⟨s, parsed⟩
    exact ⟨s.result, s.params, (parse_eq_ok_iff.mp parsed).2⟩
  · rintro ⟨result, params, rendered⟩
    exact ⟨⟨text, result, params⟩, parse_eq_ok_iff.mpr ⟨rfl, rendered⟩⟩

/-! ### Lengths -/

theorem length_render (result : Kind) (params : List Kind) :
    (render result params).length = params.length + 1 := by
  rw [render, String.length_ofList, List.length_cons, List.length_map]

theorem utf8ByteSize_render (result : Kind) (params : List Kind) :
    (render result params).utf8ByteSize = params.length + 1 := by
  rw [render, String.utf8ByteSize_ofList]
  exact Kind.utf8Len_map_code (result :: params)

/-- Arguments fit if there is one for each parameter. -/
theorem checkArguments_eq_ok_iff {arguments : List Value} :
    s.checkArguments arguments = .ok () ↔ arguments.length + 1 = s.arity := by
  rw [checkArguments, arity, Nat.add_sub_cancel, Nat.add_right_cancel_iff]
  by_cases fits : arguments.length = s.params.length <;> simp [fits]

/-- A text is parsed exactly if it is a letter of a kind and then letters of kinds other than `void`;
every other text is refused as a whole. The kinds of the signature spell the text, of which there is
one letter, and one byte, for each; so a signature has one text. It takes as many arguments as the
text has letters after the first, of any kinds. Whatever kinds are rendered, but `void` among the
parameters, parsing gives them back. -/
theorem parse_exact (text : String) :
    ((∃ s, parse text = .ok s) ↔ Spelled text) ∧
    (∀ fault, parse text = .error fault ↔ ¬ Spelled text ∧ fault = .invalidSignature text) ∧
    (∀ s, parse text = .ok s →
      render s.result s.params = text ∧ s.text = text ∧
      s.arity = text.length ∧ s.arity = text.utf8ByteSize ∧
      (∀ arguments, s.checkArguments arguments = .ok () ↔ arguments.length + 1 = text.length) ∧
      ∀ other t, parse other = .ok t →
        (s = t ↔ text = other) ∧ (s.result = t.result ∧ s.params = t.params ↔ text = other)) ∧
    ∀ result params, (∀ k ∈ params, k ≠ .void) →
      parse (render result params) = .ok ⟨render result params, result, params⟩ := by
  refine ⟨exists_parse_iff, fun fault => ?_, fun s parsed => ?_,
    fun result params nonvoid => parse_eq_ok_iff.mpr ⟨rfl, rfl, nonvoid⟩⟩
  · rw [parse_eq_error_iff, exists_parse_iff]
  · obtain ⟨own, rendered, nonvoid⟩ := parse_eq_ok_iff.mp parsed
    have length : s.arity = text.length := by rw [← rendered, length_render, arity]
    refine ⟨rendered, own, length, ?_, fun arguments => ?_, fun other t also => ?_⟩
    · rw [← rendered, utf8ByteSize_render, arity]
    · rw [checkArguments_eq_ok_iff, length]
    · obtain ⟨otherOwn, otherRendered, -⟩ := parse_eq_ok_iff.mp also
      have texts : s = t → text = other := fun same => by rw [← own, same, otherOwn]
      have kinds : s.result = t.result ∧ s.params = t.params → text = other := fun ⟨left, right⟩ => by
        rw [← rendered, left, right, otherRendered]
      have back : text = other → s = t := fun same =>
        Except.ok.inj (parsed.symm.trans (same ▸ also))
      exact ⟨⟨texts, back⟩, kinds, fun same => by rw [back same]; exact ⟨rfl, rfl⟩⟩

example : parse "vij" = .ok ⟨"vij", .void, [.i32, .i64]⟩ ∧
    parse "ivi" = .error (.invalidSignature "ivi") := by decide +kernel

end Signature

end LinearHost
