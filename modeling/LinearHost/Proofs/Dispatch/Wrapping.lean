import LinearHost.Proofs.Dispatch.Indices
import Mathlib.Data.List.Basic

/-!
# Wrappers follow the first request

The first request for the index of a function builds its wrapper, which every later request gets
again: the wrappers are numbered in the order in which they were built, so that one that is built
anew would have another number. A request through another signature is warned about once: the text
of a warning tells the index and both signatures, so no two of them are taken for one.

## Main definitions

* `Switchboard.granted`: the requests for wrappers that were answered.
* `Switchboard.indices`, `Switchboard.first?`, `Switchboard.differing`: the indices requested, the
  first request for an index, and those that differ from it.
* `Switchboard.index_eq_of_message`, `Switchboard.text_eq_of_message`: what the text of a warning
  tells.
* `Switchboard.Follows`: wrappers and warnings are what requests make of them.
* `Switchboard.wrappers_follow_requests`: every list of operations leads to such a switchboard.
-/

namespace LinearHost

/-- A signature that was read from its text. -/
def Signature.Genuine (s : Signature) : Prop := Signature.parse s.text = .ok s

theorem Signature.Genuine.eq_of_text {a b : Signature} (left : a.Genuine) (right : b.Genuine)
    (same : a.text = b.text) : a = b := by
  have parsed : Signature.parse a.text = .ok b := same ▸ right
  exact Except.ok.inj (left.symm.trans parsed)

theorem eraseDups_append_singleton {α : Type} [BEq α] [LawfulBEq α] [DecidableEq α] (row : List α)
    (a : α) :
    (row ++ [a]).eraseDups = if a ∈ row then row.eraseDups else row.eraseDups ++ [a] := by
  rw [List.eraseDups_append]
  split <;> simp [List.removeAll, List.eraseDups_cons, *]

namespace Switchboard

open Table (registered)

variable {s : Switchboard} {w v : Wrapper} {a b signature : Signature} {index other : Nat}
  {requests : List (Nat × Signature)} {request : Nat × Signature} {op : BoardOperation}

/-! ### The text of a warning -/

theorem message_conflict (index : Nat) (bound requested : Signature) :
    (conflict index bound requested).message =
      "function " ++ (index.repr ++ (" wrapped as '" ++ (bound.text ++
        ("' but requested as '" ++ (requested.text ++ "'"))))) := by
  simp only [conflict, toString, String.append_assoc]

/-- The number in a warning ends where the blank after it begins. -/
theorem takeWhile_isDigit (n : Nat) (rest : List Char) :
    (n.repr.toList ++ (" wrapped as '".toList ++ rest)).takeWhile Char.isDigit =
      Nat.toDigits 10 n := by
  rw [Nat.toList_repr, List.takeWhile_append_of_pos]
  · simp
  · exact fun c mem => Nat.isDigit_of_mem_toDigits (by decide) (by decide) mem

/-- Equal warnings are about the same index. -/
theorem index_eq_of_message {bound requested : Signature}
    (same : (conflict index a b).message = (conflict other bound requested).message) :
    index = other := by
  rw [message_conflict, message_conflict, String.append_right_inj, ← String.toList_inj] at same
  simp only [String.toList_append] at same
  have digits := congrArg (List.takeWhile Char.isDigit) same
  rw [takeWhile_isDigit, takeWhile_isDigit] at digits
  calc index = Nat.ofDigitChars 10 (Nat.toDigits 10 index) 0 :=
        Nat.ofDigitChars_ten_toDigits.symm
    _ = Nat.ofDigitChars 10 (Nat.toDigits 10 other) 0 := by rw [digits]
    _ = other := Nat.ofDigitChars_ten_toDigits

/-- Equal warnings about an index and its wrapper name the same text. -/
theorem text_eq_of_message
    (same : (conflict index signature a).message = (conflict index signature b).message) :
    a.text = b.text := by
  simpa [message_conflict] using same

/-! ### Requests -/

def indices (requests : List (Nat × Signature)) : List Nat :=
  (requests.map Prod.fst).eraseDups

def first? (requests : List (Nat × Signature)) (index : Nat) : Option Signature :=
  (requests.find? (·.1 = index)).map Prod.snd

/-- The requests through another signature than the first one for their index. -/
def differing (requests : List (Nat × Signature)) : List (Nat × Signature) :=
  requests.filter fun request => first? requests request.1 ≠ some request.2

def warning (requests : List (Nat × Signature)) (request : Nat × Signature) : Diagnostic :=
  conflict request.1 ((first? requests request.1).getD request.2) request.2

theorem mem_indices : index ∈ indices requests ↔ index ∈ requests.map Prod.fst :=
  List.mem_eraseDups

theorem indices_append (requests : List (Nat × Signature)) (request : Nat × Signature) :
    indices (requests ++ [request]) =
      if request.1 ∈ indices requests then indices requests
      else indices requests ++ [request.1] := by
  rw [indices, List.map_append, List.map_singleton, eraseDups_append_singleton, ← indices]
  simp only [mem_indices]

/-- A request is the first one for its index if there was none before. -/
theorem first?_append (requests : List (Nat × Signature)) (request : Nat × Signature)
    (index : Nat) :
    first? (requests ++ [request]) index =
      (first? requests index).or (if request.1 = index then some request.2 else none) := by
  rw [first?, first?, List.find?_append, List.find?_singleton]
  cases requests.find? (·.1 = index) with
  | some found => rfl
  | none => by_cases same : request.1 = index <;> simp [same]

theorem first?_eq_none_iff : first? requests index = none ↔ index ∉ indices requests := by
  rw [first?, Option.map_eq_none_iff, List.find?_eq_none, mem_indices]
  constructor
  · intro others mem
    obtain ⟨request, mem, same⟩ := List.mem_map.mp mem
    exact others request mem (by simpa using same)
  · intro absent request mem same
    exact absent (List.mem_map.mpr ⟨request, mem, by simpa using same⟩)

theorem first?_append_known (known : first? requests request.1 = some a) :
    first? (requests ++ [request]) = first? requests := by
  funext index
  rw [first?_append]
  by_cases same : request.1 = index
  · rw [← same, known, Option.some_or]
  · rw [if_neg same, Option.or_none]

/-- A request for a new index says nothing about the others. -/
theorem first?_append_other (absent : first? requests request.1 = none)
    {other : Nat × Signature} (mem : other ∈ requests) :
    first? (requests ++ [request]) other.1 = first? requests other.1 := by
  rw [first?_append, if_neg, Option.or_none]
  intro same
  exact first?_eq_none_iff.mp absent (mem_indices.mpr (same ▸ List.mem_map_of_mem mem))

theorem differing_append_known (known : first? requests request.1 = some a) :
    differing (requests ++ [request]) =
      differing requests ++ if a = request.2 then [] else [request] := by
  rw [differing, first?_append_known known, List.filter_append, differing]
  by_cases same : a = request.2 <;> simp [known, same]

theorem differing_append_new (absent : first? requests request.1 = none) :
    differing (requests ++ [request]) = differing requests := by
  have own : first? (requests ++ [request]) request.1 = some request.2 := by
    rw [first?_append, absent, if_pos rfl, Option.none_or]
  have others :
      requests.filter (fun other => first? (requests ++ [request]) other.1 ≠ some other.2) =
        requests.filter fun other => first? requests other.1 ≠ some other.2 :=
    List.filter_congr fun other mem => by rw [first?_append_other absent mem]
  rw [differing, List.filter_append, others, differing]
  simp [own]

/-- Warnings about different requests have different texts. -/
theorem eq_of_warning (genuine : ∀ request ∈ requests, request.2.Genuine)
    (known : first? requests request.1 = some a) (own : request.2.Genuine)
    {other : Nat × Signature} (mem : other ∈ requests)
    (same : (warning requests other).message = (warning requests request).message) :
    other = request := by
  have index : other.1 = request.1 := index_eq_of_message same
  rw [warning, warning, index, known] at same
  have text : other.2.text = request.2.text := text_eq_of_message same
  exact Prod.ext index ((genuine other mem).eq_of_text own text)

/-! ### What requests make of a switchboard -/

def grantedBy (s : Switchboard) : BoardOperation → Option (Nat × Signature)
  | .wrapper index signature =>
    match (wrapper index signature s).result with
    | .ok _ => some (index, signature)
    | .error _ => none
  | _ => none

/-- The requests for wrappers that were answered in the course of some operations. -/
def granted : List BoardOperation → Switchboard → List (Nat × Signature)
  | [], _ => []
  | op :: rest, s => (s.grantedBy op).toList ++ granted rest (next s op)

/-- Wrappers and warnings are those that the requests called for. -/
structure Follows (s : Switchboard) (requests : List (Nat × Signature)) : Prop where
  /-- A wrapper is bound to its first request, and its number is that of the indices before it. -/
  wrapper?_eq : ∀ index, s.wrapper? index =
    (first? requests index).map (Wrapper.mk ((indices requests).idxOf index) index)
  /-- Each wrapper is the one found for its index. -/
  found : ∀ w ∈ s.wrappers, s.wrapper? w.index = some w
  indices_eq : s.wrappers.map Wrapper.index = indices requests
  /-- None was built that was not kept. -/
  built_eq : s.built = (indices requests).length
  entries_eq : s.diagnostics.entries = (differing requests).eraseDups.map (warning requests)
  seen_eq : s.diagnostics.seen = s.diagnostics.entries.map Diagnostic.message

theorem follows_empty (table : Table) (sink : Sink) :
    Follows { table, diagnostics := { sink } } [] :=
  ⟨fun _ => rfl, nofun, rfl, rfl, rfl, rfl⟩

/-- Nothing else matters than wrappers, entries and the texts of warnings. -/
theorem Follows.withTable (follows : s.Follows requests) (table : Table) :
    Follows { s with table } requests :=
  ⟨follows.wrapper?_eq, follows.found, follows.indices_eq, follows.built_eq, follows.entries_eq,
    follows.seen_eq⟩

/-- A wrapper that is found was built by the first request for its index. -/
theorem Follows.of_found (follows : s.Follows requests) (found : s.wrapper? index = some w) :
    w.serial = (indices requests).idxOf index ∧ w.index = index ∧
      first? requests index = some w.signature := by
  rw [follows.wrapper?_eq, Option.map_eq_some_iff] at found
  obtain ⟨signature, known, rfl⟩ := found
  exact ⟨rfl, rfl, known⟩

theorem Follows.first?_of_absent (follows : s.Follows requests)
    (absent : s.wrapper? index = none) : first? requests index = none := by
  rwa [follows.wrapper?_eq, Option.map_eq_none_iff] at absent

/-- A further request for a known index adds no index. -/
theorem indices_append_known (known : first? requests request.1 = some a) :
    indices (requests ++ [request]) = indices requests := by
  rw [indices_append, if_pos]
  refine Decidable.byContradiction fun absent => ?_
  rw [first?_eq_none_iff.mpr absent] at known
  cases known

/-- The part of the switchboard that a further request for a known index leaves alone. -/
theorem Follows.known (follows : s.Follows requests)
    (known : first? requests request.1 = some a) :
    (∀ index, s.wrapper? index = (first? (requests ++ [request]) index).map
        (Wrapper.mk ((indices (requests ++ [request])).idxOf index) index)) ∧
      s.wrappers.map Wrapper.index = indices (requests ++ [request]) ∧
      s.built = (indices (requests ++ [request])).length := by
  rw [first?_append_known known, indices_append_known known]
  exact ⟨follows.wrapper?_eq, follows.indices_eq, follows.built_eq⟩

theorem Follows.again (follows : s.Follows requests) (request : Nat × Signature)
    (known : first? requests request.1 = some request.2) : s.Follows (requests ++ [request]) := by
  obtain ⟨wrapper?_eq, indices_eq, built_eq⟩ := follows.known known
  refine ⟨wrapper?_eq, follows.found, indices_eq, built_eq, ?_, follows.seen_eq⟩
  rw [differing_append_known known, if_pos rfl, List.append_nil, follows.entries_eq]
  unfold warning
  rw [first?_append_known known]

/-- A request through another signature adds its warning, unless it is there. -/
theorem Follows.warned (follows : s.Follows requests) (request : Nat × Signature)
    (genuine : ∀ request ∈ requests, request.2.Genuine) (own : request.2.Genuine)
    (known : first? requests request.1 = some a) (other : a ≠ request.2) :
    Follows { s with diagnostics := s.diagnostics.addOnce (conflict request.1 a request.2) }
      (requests ++ [request]) := by
  obtain ⟨wrapper?_eq, indices_eq, built_eq⟩ := follows.known known
  have warning_eq : conflict request.1 a request.2 = warning requests request := by
    rw [warning, known, Option.getD_some]
  have warnings : warning (requests ++ [request]) = warning requests := by
    unfold warning
    rw [first?_append_known known]
  -- a warning has been seen exactly if the same request was made before
  have seen_iff : (warning requests request).message ∈ s.diagnostics.seen ↔
      request ∈ differing requests := by
    rw [follows.seen_eq, follows.entries_eq, List.map_map, List.mem_map]
    constructor
    · rintro ⟨before, mem, same⟩
      have mem := List.mem_eraseDups.mp mem
      rwa [← eq_of_warning genuine known own (List.mem_filter.mp mem).1 same]
    · exact fun mem => ⟨request, List.mem_eraseDups.mpr mem, rfl⟩
  have differing_eq : differing (requests ++ [request]) = differing requests ++ [request] := by
    rw [differing_append_known known, if_neg other]
  have entries := follows.entries_eq
  rw [warning_eq]
  refine ⟨wrapper?_eq, follows.found, indices_eq, built_eq, ?_, ?_⟩
  · rw [differing_eq, warnings, eraseDups_append_singleton, Diagnostics.addOnce]
    by_cases before : request ∈ differing requests
    · rw [if_pos (seen_iff.mpr before), if_pos before, entries]
    · rw [if_neg (mt seen_iff.mp before), if_neg before, List.map_append, ← entries]
      rfl
  · rw [Diagnostics.addOnce]
    split
    · exact follows.seen_eq
    · simp [Diagnostics.add, follows.seen_eq]

/-- The first request for an index adds its wrapper. -/
theorem Follows.built (follows : s.Follows requests) (request : Nat × Signature)
    (absent : first? requests request.1 = none) :
    Follows { s with
        wrappers := s.wrappers ++ [⟨s.built, request.1, request.2⟩]
        built := s.built + 1 } (requests ++ [request]) := by
  have new : request.1 ∉ indices requests := first?_eq_none_iff.mp absent
  have indices_eq : indices (requests ++ [request]) = indices requests ++ [request.1] := by
    rw [indices_append, if_neg new]
  refine ⟨fun index => ?_, fun w mem => ?_, ?_, ?_, ?_, follows.seen_eq⟩
  · have before := follows.wrapper?_eq index
    rw [wrapper?] at before
    rw [wrapper?, List.find?_append, before, first?_append, List.find?_singleton, indices_eq]
    cases known : first? requests index with
    | some signature =>
      have old : index ∈ indices requests := by
        refine Decidable.byContradiction fun unknown => ?_
        rw [first?_eq_none_iff.mpr unknown] at known
        cases known
      simp [List.idxOf_append_of_mem old]
    | none =>
      by_cases same : request.1 = index
      · subst same
        simp [List.idxOf_append_of_notMem new, follows.built_eq]
      · simp [same]
  · rw [wrapper?, List.find?_append]
    obtain mem | new := List.mem_append.mp mem
    · have found := follows.found w mem
      rw [wrapper?] at found
      rw [found, Option.some_or]
    · obtain rfl := List.mem_singleton.mp new
      have none := follows.wrapper?_eq request.1
      rw [absent, wrapper?] at none
      simp [none]
  · rw [List.map_append, List.map_singleton, indices_eq, follows.indices_eq]
  · rw [indices_eq, List.length_append, ← follows.built_eq]
    rfl
  · rw [differing_append_new absent, follows.entries_eq]
    refine List.map_congr_left fun other mem => ?_
    have mem := (List.mem_filter.mp (List.mem_eraseDups.mp mem)).1
    rw [warning, warning, first?_append_other absent mem]

/-- What an operation requests is a request of its own. -/
theorem mem_of_grantedBy (answered : s.grantedBy op = some request) :
    op = .wrapper request.1 request.2 := by
  cases op with
  | wrapper index signature =>
    rw [grantedBy] at answered
    split at answered
    · cases answered
      rfl
    · cases answered
  | _ => cases answered

/-- One operation keeps what was built and warned about in step with the requests. -/
theorem Follows.next (follows : s.Follows requests)
    (genuine : ∀ request ∈ requests, request.2.Genuine)
    (own : ∀ index signature, op = .wrapper index signature → signature.Genuine) :
    (next s op).Follows (requests ++ (s.grantedBy op).toList) := by
  have none : requests = requests ++ (none : Option (Nat × Signature)).toList :=
    (List.append_nil requests).symm
  cases op with
  | table op =>
    rw [next_table]
    exact none ▸ follows.withTable _
  | invoke w arguments =>
    rw [next_invoke]
    exact none ▸ follows.withTable _
  | wrapper index signature =>
    obtain ⟨result, after, answer, state, wrapped⟩ := wrapper_cases index signature s
    rw [grantedBy, answer, state]
    cases wrapped with
    | again found same =>
      obtain ⟨-, -, known⟩ := follows.of_found found
      exact follows.again (index, signature) (same ▸ known)
    | warned found other =>
      obtain ⟨-, -, known⟩ := follows.of_found found
      exact follows.warned (index, signature) genuine (own _ _ rfl) known other
    | built absent registered =>
      exact follows.built (index, signature) (follows.first?_of_absent absent)
    | refused absent unknown => exact none ▸ follows

theorem Follows.reached {ops : List BoardOperation} (follows : s.Follows requests)
    (genuine : ∀ request ∈ requests, request.2.Genuine)
    (own : ∀ index signature, .wrapper index signature ∈ ops → signature.Genuine) :
    (reached ops s).Follows (requests ++ granted ops s) := by
  induction ops generalizing s requests with
  | nil => exact (List.append_nil requests).symm ▸ follows
  | cons op rest ih =>
    rw [granted, ← List.append_assoc]
    refine ih (follows.next genuine fun index signature same => ?_) (fun request mem => ?_)
      fun index signature mem => own index signature (List.mem_cons_of_mem op mem)
    · exact own index signature (same ▸ List.mem_cons_self ..)
    · obtain mem | mem := List.mem_append.mp mem
      · exact genuine request mem
      · have made := mem_of_grantedBy (Option.mem_toList.mp mem)
        exact own _ _ (by rw [← made]; exact List.mem_cons_self ..)

/-! ### Wrappers stay -/

theorem wrapper?_next (found : s.wrapper? index = some w) (op : BoardOperation) :
    (next s op).wrapper? index = some w := by
  cases op with
  | table op =>
    rw [next_table]
    exact found
  | invoke w arguments =>
    rw [next_invoke]
    exact found
  | wrapper other signature =>
    obtain ⟨result, after, -, state, wrapped⟩ := wrapper_cases other signature s
    rw [state]
    cases wrapped with
    | built absent known =>
      rw [wrapper?] at found
      rw [wrapper?, List.find?_append, found, Option.some_or]
    | _ => exact found

/-- A wrapper is never replaced. -/
theorem wrapper?_reached (found : s.wrapper? index = some w) (ops : List BoardOperation) :
    (reached ops s).wrapper? index = some w :=
  List.foldlRecOn (motive := fun s => s.wrapper? index = some w) ops next found
    fun _ found op _ => wrapper?_next found op

/-- A wrapper that is there is what later requests get. -/
theorem result_wrapper (found : s.wrapper? index = some w) (signature : Signature) :
    (wrapper index signature s).result = .ok w := by
  obtain ⟨result, after, answer, -, wrapped⟩ := wrapper_cases index signature s
  rw [answer]
  cases wrapped with
  | again again same => exact congrArg Except.ok (Option.some.inj (again.symm.trans found))
  | warned again other => exact congrArg Except.ok (Option.some.inj (again.symm.trans found))
  | built absent known => exact nomatch absent.symm.trans found
  | refused absent unknown => exact nomatch absent.symm.trans found

/-- A wrapper that was handed out is found from then on. -/
theorem wrapper?_of_result (answer : (wrapper index signature s).result = .ok w) :
    (next s (.wrapper index signature)).wrapper? index = some w := by
  obtain ⟨result, after, handed, state, wrapped⟩ := wrapper_cases index signature s
  rw [handed] at answer
  subst answer
  rw [state]
  cases wrapped with
  | again found same => exact found
  | warned found other => exact found
  | built absent known =>
    rw [wrapper?] at absent
    simp [wrapper?, List.find?_append, absent]

/-- A request for the index of a function is answered with the wrapper of the first request. -/
theorem Follows.result_wrapper_eq (follows : s.Follows requests) (wired : s.Wired) (index : Nat)
    (signature : Signature) :
    (wrapper index signature s).result =
      if s.table.contains index then
        .ok ⟨(indices requests).idxOf index, index, (first? requests index).getD signature⟩
      else .error (.invalidTableIndex index) := by
  cases found : s.wrapper? index with
  | some w =>
    obtain ⟨serial, rfl, known⟩ := follows.of_found found
    have mem : w ∈ s.wrappers := List.mem_of_find?_eq_some found
    rw [result_wrapper found, if_pos (wired w mem), known, Option.getD_some, ← serial]
  | none =>
    obtain ⟨result, after, answer, -, wrapped⟩ := wrapper_cases index signature s
    rw [answer]
    cases wrapped with
    | again again same => exact nomatch found.symm.trans again
    | warned again other => exact nomatch found.symm.trans again
    | built absent known =>
      have first := follows.first?_of_absent absent
      have last : (indices requests).idxOf index = (indices requests).length :=
        List.idxOf_eq_length (first?_eq_none_iff.mp first)
      rw [if_pos known, first, Option.getD_none, last, follows.built_eq]
    | refused absent unknown => simp [unknown]

/-! ### All histories -/

/-- After any operations, exactly the requests for indices of functions are answered, each with the
wrapper that the first request for the index built, whose number is that of the indices requested
before; later requests get the very same, and requests for other indices get another one. There is a
wrapper for each index that was requested, and a warning for each pair of an index and a signature
other than the first that was requested. Calling a wrapper is a call through its signature. -/
theorem wrappers_follow_requests (mode : DispatchMode) (sink : Sink) (ops : List BoardOperation)
    (genuine : ∀ index signature, .wrapper index signature ∈ ops → signature.Genuine) :
    let start : Switchboard := { table := { mode }, diagnostics := { sink } }
    let s := reached ops start
    let requests := granted ops start
    (∀ index signature, (wrapper index signature s).result =
        if s.table.contains index then
          .ok ⟨(indices requests).idxOf index, index, (first? requests index).getD signature⟩
        else .error (.invalidTableIndex index)) ∧
      (∀ index, s.table.contains index = true ↔
        ∃ k < (registered (traffic ops { mode })).length, index = 2 + 2 * k) ∧
      (∀ index signature w, (wrapper index signature s).result = .ok w → ∀ later other,
        (wrapper index other (reached later (next s (.wrapper index signature)))).result = .ok w) ∧
      (s.wrappers.map Wrapper.index = indices requests ∧
        s.wrappers.length = (indices requests).length ∧ s.built = (indices requests).length ∧
        ∀ w ∈ s.wrappers, ∀ v ∈ s.wrappers, w.serial = v.serial ↔ w.index = v.index) ∧
      (s.diagnostics.entries = (differing requests).eraseDups.map (warning requests) ∧
        s.diagnostics.entries.map Diagnostic.tableIndex =
          (differing requests).eraseDups.map fun request => some request.1) ∧
      ∀ w ∈ s.wrappers, first? requests w.index = some w.signature ∧ ∀ arguments,
        let called := Table.call w.signature w.index arguments s.table
        invoke w arguments s =
          ⟨called.result.map fun _ => (), { s with table := called.state }, called.events⟩ := by
  intro start s requests
  have follows : s.Follows requests := (follows_empty { mode } sink).reached nofun genuine
  have wired : s.Wired := Wired.reached (s := start) nofun ops
  have table : s.table = ({ mode } : Table).amid (traffic ops { mode }) := table_reached ops _
  have lists : s.table.Lists (registered (traffic ops { mode })) :=
    table ▸ Table.lists_registered (traffic ops { mode }) mode
  refine ⟨follows.result_wrapper_eq wired, fun index => lists.contains_iff,
    fun index signature w answer later other => ?_,
    ⟨follows.indices_eq, ?_, follows.built_eq, fun w left v right => ?_⟩,
    ⟨follows.entries_eq, ?_⟩, fun w mem => ⟨?_, fun arguments => ?_⟩⟩
  · exact result_wrapper (wrapper?_reached (wrapper?_of_result answer) later) other
  · rw [← follows.indices_eq, List.length_map]
  · have mem : w.index ∈ indices requests := follows.indices_eq ▸ List.mem_map_of_mem left
    rw [(follows.of_found (follows.found w left)).1, (follows.of_found (follows.found v right)).1]
    exact List.idxOf_inj mem
  · rw [follows.entries_eq, List.map_map]
    rfl
  · exact (follows.of_found (follows.found w mem)).2.2
  · exact invoke_apply w arguments s

/-- Requests through three signatures, one of them repeated, and one for an index without a
function. -/
theorem wrappers_follow_requests_warned :
    let i : Signature := ⟨"i", .i32, []⟩
    let ii : Signature := ⟨"ii", .i32, [.i32]⟩
    let v : Signature := ⟨"v", .void, []⟩
    let f := Function.ofPure fun _ => .error (.invalidShift 64)
    let ops : List BoardOperation :=
      [.table (.register f), .wrapper 2 i, .wrapper 2 ii, .wrapper 3 i, .wrapper 2 v, .wrapper 2 ii,
        .table (.register f), .wrapper 4 v]
    let s := reached ops { table := { mode := .routed } }
    (∀ index signature, .wrapper index signature ∈ ops → signature.Genuine) ∧
      s.diagnostics.entries.map Diagnostic.message =
        ["function 2 wrapped as 'i' but requested as 'ii'",
          "function 2 wrapped as 'i' but requested as 'v'"] ∧
      s.wrappers.map Wrapper.index = [2, 4] ∧ (wrapper 4 i s).result = .ok ⟨1, 4, v⟩ ∧
      (invoke ⟨0, 2, i⟩ [] s).result = .error (.invalidShift 64) := by
  intro i ii v f ops s
  have genuine : ∀ index signature, .wrapper index signature ∈ ops → signature.Genuine := by
    have parsed : i.Genuine ∧ ii.Genuine ∧ v.Genuine := by
      refine ⟨?_, ?_, ?_⟩ <;> (unfold Signature.Genuine; cbv)
    intro index signature mem
    obtain ⟨-, rfl⟩ | ⟨-, rfl⟩ | ⟨-, rfl⟩ | ⟨-, rfl⟩ | ⟨-, rfl⟩ | ⟨-, rfl⟩ := by
      simpa [ops] using mem
    all_goals simp only [parsed]
  obtain ⟨answers, -, -, ⟨order, -⟩, ⟨entries, -⟩, calls⟩ :=
    wrappers_follow_requests .routed .journal ops genuine
  have known : s.table.contains 4 = true := by decide +kernel
  have first : first? (granted ops { table := { mode := .routed } }) 4 = some v := by decide +kernel
  have second : (indices (granted ops { table := { mode := .routed } })).idxOf 4 = 1 := by
    decide +kernel
  refine ⟨genuine, ?_, order.trans (by decide +kernel), ?_, ?_⟩
  · rw [entries]
    decide +kernel
  · rw [answers, if_pos known, first, Option.getD_some, second]
  · have table : s.table = Table.amid (traffic ops { mode := .routed }) { mode := .routed } :=
      table_reached ops _
    have plain : s.table.Plain i.text := table ▸ Table.plain_amid rfl .routed
    have ends : .ofStart (Table.visit 2 [] s.table).result =
        Script.done (.error (.invalidShift 64)) := by
      rw [table]
      rfl
    have ended : (Table.call i 2 [] s.table).result = .error (.invalidShift 64) :=
      (Table.call_plain plain rfl ends).1
    have invoked : invoke ⟨0, 2, i⟩ [] s =
        ⟨(Table.call i 2 [] s.table).result.map fun _ => (), _, _⟩ :=
      (calls ⟨0, 2, i⟩ (by decide +kernel)).2 []
    rw [invoked, ended]
    rfl

end Switchboard

end LinearHost
