import LinearHost.Proofs.Along
import LinearHost.Proofs.Dispatch.Indices

/-!
# Direct and routed calls

A table that routes calls by signature answers like one that calls functions directly, as long as
nothing is installed for the signatures that are used: the generic trampoline asks for the function
that a direct call enters at once. So routed calls differ in the requests that they make, and the
calls that wait for a result stand among trampolines that hand it on.

A trampoline of the caller's own runs in a routed table only. What it registers there, a direct table
does not have.

## Main definitions

* `Table.Called`: what a call answers where functions depend on their arguments only.
* `Script.Through`: scripts that call through certain texts only.
* `Table.endsWithin`: calls that end after some requests.
* `Padded`: waiting calls with trampolines between them.
* `Table.Twins`, `Table.advance_twins`: a direct and a routed table, kept alike by each request.
* `Table.modes_agree`: registrations and calls are answered alike after any list of operations.
-/

namespace LinearHost

/-! ### Functions of their arguments -/

namespace Table

variable {t u d r : Table} {s : Signature} {index : Nat} {arguments : List Value}

/-- The indices of the functions entered on the way from one table to another. -/
def entered (t u : Table) : List Nat := u.visits.toList.drop t.visits.size

/-- A call answers the same in both tables, and enters the same functions in the same order. -/
def AlikeOn (t u : Table) (s : Signature) (index : Nat) (arguments : List Value) : Prop :=
  (call s index arguments t).result = (call s index arguments u).result ∧
    t.entered (call s index arguments t).state = u.entered (call s index arguments u).state

/-- What a call answers, and which functions it enters, where functions depend on their arguments
only: the number of arguments matters first, then the index, then what the function answers. -/
inductive Called (t : Table) (s : Signature) (index : Nat) (arguments : List Value) :
    Except Fault Value → List Nat → Prop where
  | unfit (other : arguments.length ≠ s.arity - 1) :
      Called t s index arguments
        (.error (.arityMismatch s.text (s.arity - 1) arguments.length)) []
  | unknown (fit : arguments.length = s.arity - 1) (absent : t.function? index = none) :
      Called t s index arguments (.error (.invalidTableIndex index)) []
  | answered {g : List Value → Except Fault Value} (fit : arguments.length = s.arity - 1)
      (found : t.function? index = some (.ofPure g)) :
      Called t s index arguments (g arguments) [index]

theorem entered_of_eq (same : u.visits = t.visits) : t.entered u = [] := by
  simp [entered, same]

theorem entered_of_push (pushed : u.visits = t.visits.push index) : t.entered u = [index] := by
  simp [entered, pushed]

/-- A plain call enters the function and ends as it does. -/
theorem call_pure {g : List Value → Except Fault Value} (plain : t.Plain s.text)
    (fit : arguments.length = s.arity - 1) (found : t.function? index = some (.ofPure g)) :
    (call s index arguments t).result = g arguments ∧
      (call s index arguments t).state.visits = t.visits.push index := by
  obtain ⟨history, found⟩ := function?_eq_some_iff.mp found
  have ended : (call s index arguments t).result = _ ∧ _ :=
    call_plain plain fit (by rw [visit_of_some found]; rfl)
  rwa [visit_of_some found] at ended

/-- Where functions depend on their arguments only, all tables with the same functions answer a
plain call alike. -/
theorem exists_called (s : Signature) (arguments : List Value)
    (pure : ∀ f, t.function? index = some f → ∃ g, f = .ofPure g) :
    ∃ answer visited, Called t s index arguments answer visited ∧
      ∀ u : Table, u.function? index = t.function? index → u.Plain s.text →
        (call s index arguments u).result = answer ∧
          u.entered (call s index arguments u).state = visited := by
  by_cases fit : arguments.length = s.arity - 1
  · cases found : t.function? index with
    | none =>
      refine ⟨_, _, .unknown fit found, fun u same plain => ?_⟩
      obtain ⟨result, visits⟩ := call_unknown plain fit same
      exact ⟨result, entered_of_eq visits⟩
    | some f =>
      obtain ⟨g, rfl⟩ := pure f found
      refine ⟨_, _, .answered fit found, fun u same plain => ?_⟩
      obtain ⟨result, visits⟩ := call_pure plain fit same
      exact ⟨result, entered_of_push visits⟩
  · refine ⟨_, _, .unfit fit, fun u _ _ => ?_⟩
    rw [call_unfit fit]
    exact ⟨rfl, entered_of_eq rfl⟩

/-- Tables that list the same functions of their arguments answer a plain call alike. -/
theorem Lists.alikeOn {functions : List Function} (lists : t.Lists functions)
    (others : u.Lists functions) (pure : ∀ f ∈ functions, ∃ g, f = .ofPure g)
    (plain : t.Plain s.text) (otherPlain : u.Plain s.text) (index : Nat) (arguments : List Value) :
    t.AlikeOn u s index arguments ∧
      Called t s index arguments (call s index arguments t).result
        (t.entered (call s index arguments t).state) := by
  obtain ⟨answer, visited, called, all⟩ :=
    exists_called s arguments fun f found => pure f (lists.mem found)
  obtain ⟨result, entered⟩ := all t rfl plain
  obtain ⟨otherResult, otherEntered⟩ := all u (lists.function?_unique others index) otherPlain
  refine ⟨⟨result.trans otherResult.symm, entered.trans otherEntered.symm⟩, ?_⟩
  rwa [result, entered]

/-- Where functions end at once, those that a direct table is asked to run make no requests. -/
theorem chain_pure (direct : t.mode = .direct)
    (pure : ∀ index f, t.function? index = some f → ∃ g, f = .ofPure g) (request : Request) :
    chain request t = [request] := by
  have nothing (index : Nat) (arguments : List Value) {script : Script}
      (entered : (visit index arguments t).result = .ok script) :
      served callLimit (.follow script []) (visit index arguments t).state = [] := by
    cases found : t.function? index with
    | none =>
      rw [visit_of_none found] at entered
      cases entered
    | some f =>
      obtain ⟨g, rfl⟩ := pure index f found
      obtain ⟨history, found⟩ := function?_eq_some_iff.mp found
      rw [visit_of_some found] at entered
      cases entered
      exact served_ended ..
  cases request with
  | register f | install s adapter | look => rfl
  | get index =>
    cases known : t.get index <;> simp [chain, course, Action.bind_apply, known]
  | trampoline s =>
    obtain ⟨reply, answered⟩ := exists_reply s t
    exact chain_of_reply answered
  | enter index arguments =>
    rw [chain, result_course_enter, state_course_enter]
    cases entered : (visit index arguments t).result with
    | error fault => rfl
    | ok script => exact congrArg (_ :: ·) (nothing index arguments entered)
  | call s index arguments =>
    rw [chain, result_course_call, state_course_call]
    by_cases fit : arguments.length = s.arity - 1
    · rw [approach_direct direct fit]
      cases entered : (visit index arguments t).result with
      | error fault => rfl
      | ok script => exact congrArg (_ :: ·) (nothing index arguments entered)
    · rw [approach_unfit fit]
      rfl

/-- Where functions end at once, a direct table serves what its caller asks for and nothing else. -/
theorem traffic_pure {functions : List Function} {ops : List Request} (direct : t.mode = .direct)
    (lists : t.Lists functions)
    (pure : ∀ f ∈ functions ++ registered ops, ∃ g, f = .ofPure g) : traffic ops t = ops := by
  induction ops generalizing t functions with
  | nil => rfl
  | cons request rest ih =>
    have own : chain request t = [request] :=
      chain_pure direct (fun index f found => pure f (by simp [lists.mem found])) request
    rw [traffic, next_eq_amid, own]
    refine congrArg (request :: ·) (ih ?_ (lists.course request) ?_)
    · rw [amid_cons]
      exact (mode_course request t).trans direct
    · rwa [List.append_assoc, ← registered_cons]

end Table

/-! ### Functions that make requests -/

variable {allowed : String → Prop} {request : Request}

/-- The answer does not depend on which trampolines are in place. -/
def Request.Common : Request → Prop
  | .trampoline _ | .look => False
  | _ => True

mutual

def Request.Through (allowed : String → Prop) : Request → Prop
  | .register f => f.Through allowed
  | .call s _ _ => allowed s.text
  | .install s _ => ¬allowed s.text
  | .get _ | .enter .. | .trampoline _ | .look => True

/-- A script makes its calls through allowed texts and its installations for others, whatever the
answers are, and does not ask which trampolines are in place. -/
def Script.Through (allowed : String → Prop) : Script → Prop
  | .done _ => True
  | .ask request next =>
    request.Common ∧ request.Through allowed ∧ ∀ answer, (next answer).Through allowed

def Function.Through (allowed : String → Prop) : Function → Prop
  | ⟨run⟩ => ∀ history arguments, (run history arguments).Through allowed

end

def Progress.Through (allowed : String → Prop) : Progress → Prop
  | .ended _ => True
  | .asking request next waiting =>
    request.Common ∧ request.Through allowed ∧
      ∀ other ∈ next :: waiting, ∀ answer, (other answer).Through allowed

/-- Going on after a result keeps to the allowed texts. -/
theorem Progress.through_follow {script : Script}
    {waiting : List (Except Fault Reply → Script)} (through : script.Through allowed)
    (others : ∀ next ∈ waiting, ∀ answer, (next answer).Through allowed) :
    (follow script waiting).Through allowed := by
  induction waiting generalizing script with
  | nil =>
    cases script with
    | done result => trivial
    | ask request next => exact ⟨through.1, through.2.1, by simpa using through.2.2⟩
  | cons first waiting ih =>
    cases script with
    | done result =>
      obtain ⟨own, others⟩ := List.forall_mem_cons.mp others
      exact ih (own _) others
    | ask request next =>
      exact ⟨through.1, through.2.1, List.forall_mem_cons.mpr ⟨through.2.2, others⟩⟩

theorem Progress.through_resume {start : Except Fault Course} {next : Except Fault Reply → Script}
    {waiting : List (Except Fault Reply → Script)}
    (scripted : ∀ script, start = .ok (.script script) → script.Through allowed)
    (others : ∀ other ∈ next :: waiting, ∀ answer, (other answer).Through allowed) :
    (resume start next waiting).Through allowed := by
  obtain ⟨own, rest⟩ := List.forall_mem_cons.mp others
  cases start with
  | error fault => exact through_follow (own _) rest
  | ok start =>
    cases start with
    | answer reply => exact through_follow (own _) rest
    | script script => exact through_follow (scripted script rfl) others

/-! ### Waiting calls among trampolines -/

/-- The second row of waiting calls is the first one with trampolines between them, which hand on
every result as it is. -/
inductive Padded :
    List (Except Fault Reply → Script) → List (Except Fault Reply → Script) → Prop where
  | nil : Padded [] []
  | cons {waiting padded} (next) (rest : Padded waiting padded) :
      Padded (next :: waiting) (next :: padded)
  | pad {waiting padded} (rest : Padded waiting padded) :
      Padded waiting (Script.relay :: padded)

inductive Progress.Padded : Progress → Progress → Prop where
  | ended (result : Except Fault Value) : Progress.Padded (.ended result) (.ended result)
  | asking {waiting padded} (request : Request) (next : Except Fault Reply → Script)
      (rest : LinearHost.Padded waiting padded) :
      Progress.Padded (.asking request next waiting) (.asking request next padded)

/-- Trampolines that hand results on do not change what is asked next. -/
theorem Padded.follow {waiting padded : List (Except Fault Reply → Script)}
    (rows : Padded waiting padded) (script : Script) :
    (Progress.follow script waiting).Padded (.follow script padded) := by
  induction rows generalizing script with
  | nil =>
    cases script with
    | done result => exact .ended result
    | ask request next => exact .asking request next .nil
  | @cons waiting padded first rest ih =>
    cases script with
    | done result => exact ih (first _)
    | ask request next => exact .asking request next (.cons first rest)
  | @pad waiting padded rest ih =>
    cases script with
    | done result =>
      have same : Progress.follow (.done result) (Script.relay :: padded) =
          .follow (.done result) padded := by
        rw [Progress.follow, Script.relay_map_value]
      exact same ▸ ih (.done result)
    | ask request next =>
      simp only [Progress.follow]
      exact .asking request next (.pad rest)

/-- An answer is handed on to the same script in both rows. -/
theorem Padded.resume {waiting padded : List (Except Fault Reply → Script)}
    (rows : Padded waiting padded) (start : Except Fault Course)
    (next : Except Fault Reply → Script) :
    (Progress.resume start next waiting).Padded (.resume start next padded) := by
  cases start with
  | error fault => exact rows.follow _
  | ok start =>
    cases start with
    | answer reply => exact rows.follow _
    | script script => exact (Padded.cons next rows).follow script

theorem Progress.resume_script (script : Script) (next : Except Fault Reply → Script)
    (waiting : List (Except Fault Reply → Script)) :
    resume (.ok (.script script)) next waiting = follow script (next :: waiting) := rfl

namespace Table

variable {t u d r : Table} {s : Signature} {index : Nat} {arguments : List Value}

def endsWithin : (limit : Nat) → Progress → Table → Bool
  | _, .ended _, _ => true
  | 0, .asking .., _ => false
  | limit + 1, .asking request next waiting, t =>
    endsWithin limit (.resume (course request t).result next waiting) (course request t).state

theorem endsWithin_mono {limit more : Nat} (le : limit ≤ more) {progress : Progress}
    (ends : endsWithin limit progress t = true) : endsWithin more progress t = true := by
  induction limit generalizing more progress t with
  | zero =>
    cases progress with
    | ended result => cases more <;> rfl
    | asking request next waiting => cases ends
  | succ limit ih =>
    cases progress with
    | ended result => cases more <;> rfl
    | asking request next waiting =>
      obtain ⟨more, rfl⟩ : ∃ n, more = n + 1 := ⟨more - 1, by omega⟩
      exact ih (Nat.le_of_succ_le_succ le) ends

theorem exists_of_endsWithin {limit : Nat} {next : Except Fault Reply → Script}
    {waiting : List (Except Fault Reply → Script)}
    (ends : endsWithin limit (.asking request next waiting) t = true) :
    ∃ fewer, limit = fewer + 1 ∧
      endsWithin fewer (.resume (course request t).result next waiting)
        (course request t).state = true := by
  cases limit with
  | zero => cases ends
  | succ fewer => exact ⟨fewer, rfl, ends⟩

def answersWithin (limit : Nat) (request : Request) (t : Table) : Bool :=
  match (course request t).result with
  | .ok (.script script) => endsWithin limit (.follow script []) (course request t).state
  | _ => true

theorem answersWithin_mono {limit more : Nat} (le : limit ≤ more)
    (ends : answersWithin limit request t = true) : answersWithin more request t = true := by
  unfold answersWithin at ends ⊢
  split
  next script leads =>
    rw [leads] at ends
    exact endsWithin_mono le ends
  next => rfl

/-- What a request leads to comes to its end. -/
def Ends (t : Table) (request : Request) : Prop :=
  answersWithin callLimit request t = true

theorem Ends.script {script : Script} (ends : t.Ends request)
    (leads : (course request t).result = .ok (.script script)) :
    endsWithin callLimit (.follow script []) (course request t).state = true := by
  rwa [Ends, answersWithin, leads] at ends

/-- Two tables that differ in the way they call functions, and in trampolines. -/
structure Twins (allowed : String → Prop) (d r : Table) : Prop where
  direct : d.mode = .direct
  routed : r.mode = .routed
  slots : d.slots = r.slots
  visits : d.visits = r.visits
  route : ∀ text, allowed text → r.route text = .generic
  functions : ∀ index f, r.function? index = some f → f.Through allowed

theorem twins_empty (allowed : String → Prop) :
    Twins allowed { mode := .direct } { mode := .routed } where
  direct := rfl
  routed := rfl
  slots := rfl
  visits := rfl
  route _ _ := rfl
  functions index f found := by
    exact nomatch (lists_empty .routed).mem found

namespace Twins

theorem add (twins : Twins allowed d r) {f : Function} (through : f.Through allowed) :
    Twins allowed (d.add f) (r.add f) where
  direct := twins.direct
  routed := twins.routed
  slots := congrArg (fun slots => (slots.push (.function f [])).push .padding) twins.slots
  visits := twins.visits
  route := twins.route
  functions index g found := by
    rw [function?_add] at found
    split at found
    · cases found
      exact through
    · exact twins.functions index g found

theorem visit (twins : Twins allowed d r) (index : Nat) (arguments : List Value) :
    (visit index arguments d).result = (visit index arguments r).result ∧
      Twins allowed (visit index arguments d).state (visit index arguments r).state := by
  obtain ⟨result, slots, visits⟩ := visit_congr twins.slots twins.visits index arguments
  refine ⟨result, ?_, ?_, slots, visits, fun text quiet => ?_, fun entered f found => ?_⟩
  · rw [mode_visit, twins.direct]
  · rw [mode_visit, twins.routed]
  · rw [route_visit, twins.route text quiet]
  · rw [function?_visit] at found
    exact twins.functions entered f found

theorem through_visit (twins : Twins allowed d r) (index : Nat) (arguments : List Value) :
    (Script.ofStart (Table.visit index arguments r).result).Through allowed := by
  cases found : r.function? index with
  | none =>
    rw [visit_of_none found]
    trivial
  | some f =>
    obtain ⟨history, slot⟩ := function?_eq_some_iff.mp found
    rw [visit_of_some slot]
    have through := twins.functions index f found
    cases f with
    | mk run => exact through history arguments

theorem place (twins : Twins allowed d r) {text : String} (loud : ¬allowed text)
    (adapter : Trampoline) :
    Twins allowed (d.place text adapter) (r.place text adapter) where
  direct := twins.direct
  routed := twins.routed
  slots := twins.slots
  visits := twins.visits
  functions := twins.functions
  route other quiet := by
    rw [route_place, if_neg, twins.route other quiet]
    rintro rfl
    exact loud quiet

/-- To look up a trampoline changes nothing that matters in the routed table. -/
theorem looked (twins : Twins allowed d r) (s : Signature) :
    Twins allowed d (trampoline s r).state where
  direct := twins.direct
  routed := (mode_trampoline s r).trans twins.routed
  slots := twins.slots.trans (slots_trampoline s r).symm
  visits := twins.visits.trans (visits_trampoline s r).symm
  route text quiet := (route_trampoline s r text).trans (twins.route text quiet)
  functions index f found :=
    twins.functions index f ((function?_trampoline s r index).symm.trans found)

theorem trampoline (twins : Twins allowed d r) (s : Signature) :
    Twins allowed (trampoline s d).state (trampoline s r).state where
  direct := (mode_trampoline s d).trans twins.direct
  slots := (slots_trampoline s d).trans (twins.looked s).slots
  visits := (visits_trampoline s d).trans (twins.looked s).visits
  routed := (twins.looked s).routed
  route := (twins.looked s).route
  functions := (twins.looked s).functions

/-- Both tables take a request the same way, unless it is a call that fits. -/
theorem course (twins : Twins allowed d r) (through : request.Through allowed)
    (unfit : ∀ s index arguments, request = .call s index arguments →
      arguments.length ≠ s.arity - 1) :
    Twins allowed (course request d).state (course request r).state ∧
      (request.Common → (Table.course request d).result = (Table.course request r).result) ∧
      ∀ script, (Table.course request r).result = .ok (.script script) →
        script.Through allowed := by
  cases request with
  | register f =>
    have same : d.size = r.size := congrArg Array.size twins.slots
    have answer (t : Table) :
        (Table.course (.register f) t).result = .ok (.answer (.index t.size)) := rfl
    refine ⟨twins.add through, fun _ => ?_, fun script leads => ?_⟩
    · rw [answer, answer, same]
    · cases leads
  | get index =>
    have same : d.get index = r.get index := by rw [get, get, function?, function?, twins.slots]
    have answer (t : Table) : (Table.course (.get index) t).result =
        (t.get index).map fun _ => .answer .done := Action.result_bind_pure ..
    rw [state_course_get, state_course_get, answer, answer, same]
    refine ⟨twins, fun _ => rfl, fun script leads => ?_⟩
    cases known : r.get index <;> rw [known] at leads <;> cases leads
  | enter index arguments =>
    obtain ⟨result, entered⟩ := twins.visit index arguments
    have scripted := twins.through_visit index arguments
    rw [state_course_enter, state_course_enter, result_course_enter, result_course_enter, result]
    refine ⟨entered, fun _ => rfl, fun script leads => ?_⟩
    cases answer : (Table.visit index arguments r).result with
    | error fault =>
      rw [answer] at leads
      cases leads
    | ok found =>
      rw [answer] at leads scripted
      cases leads
      exact scripted
  | call s index arguments =>
    have refused (t : Table) : approach s index arguments t =
        ⟨.error (.arityMismatch s.text (s.arity - 1) arguments.length), t, []⟩ :=
      approach_unfit (unfit s index arguments rfl)
    rw [state_course_call, state_course_call, result_course_call, result_course_call, refused d,
      refused r]
    refine ⟨twins, fun _ => rfl, fun script leads => ?_⟩
    cases leads
  | install s adapter =>
    refine ⟨twins.place through adapter, fun _ => rfl, fun script leads => ?_⟩
    cases leads
  | trampoline s =>
    rw [state_course_trampoline, state_course_trampoline]
    refine ⟨twins.trampoline s, False.elim, fun script leads => ?_⟩
    rw [Table.course, Action.result_bind_pure] at leads
    cases answer : (Table.trampoline s r).result <;> rw [answer] at leads <;> cases leads
  | look =>
    refine ⟨twins, False.elim, fun script leads => ?_⟩
    cases leads

/-- A routed call through an allowed text leads to the generic trampoline. -/
theorem call_routed (twins : Twins allowed d r) (quiet : allowed s.text)
    (fit : arguments.length = s.arity - 1) (index : Nat) :
    (Table.course (.call s index arguments) r).result =
        .ok (.script (Trampoline.generic.run index arguments)) ∧
      (Table.course (.call s index arguments) r).state = (Table.trampoline s r).state := by
  rw [result_course_call, state_course_call, approach_routed twins.routed fit,
    twins.route s.text quiet]
  exact ⟨rfl, rfl⟩

end Twins

/-- A routed table that has ended its calls after so many requests answers what its direct twin
answers, with at most as many requests there. -/
def Matched (allowed : String → Prop) (limit : Nat) : Prop :=
  ∀ {more : Nat} {p q : Progress} {noted others : List Event} {d r : Table},
    Twins allowed d r → p.Padded q → p.Through allowed → endsWithin limit q r = true →
    limit ≤ more →
    (advance more p noted d).result = (advance limit q others r).result ∧
      Twins allowed (advance more p noted d).state (advance limit q others r).state

/-- The generic trampoline takes one request more than the function that it asks for. -/
theorem matched_generic {limit more : Nat} {noted others : List Event}
    {waiting padded : List (Except Fault Reply → Script)}
    (fewer : ∀ n < limit, Matched allowed n) (twins : Twins allowed d r)
    (rows : Padded waiting padded)
    (through : ∀ other ∈ waiting, ∀ answer, (other answer).Through allowed)
    (ends : endsWithin limit (.follow (Trampoline.generic.run index arguments) padded) r = true)
    (le : limit ≤ more + 1) :
    let entered := visit index arguments d
    let direct := advance more (.follow (.ofStart entered.result) waiting) noted entered.state
    let routed := advance limit (.follow (Trampoline.generic.run index arguments) padded) others r
    direct.result = routed.result ∧ Twins allowed direct.state routed.state := by
  intro entered direct routed
  rw [follow_generic] at ends
  obtain ⟨limit, rfl, soon⟩ := exists_of_endsWithin ends
  have scripted := twins.through_visit index arguments
  obtain ⟨result, kept⟩ := twins.visit index arguments
  rw [result_course_enter, state_course_enter, Progress.resume_map_script] at soon
  simp only [direct, routed, entered, follow_generic, advance, result_course_enter,
    state_course_enter, Progress.resume_map_script, result]
  exact fewer limit (Nat.lt_succ_self _) kept (rows.pad.follow _)
    (Progress.through_follow scripted through) soon (by omega)

/-- Routed calls that end are matched, by induction on the number of requests that are left to them.
-/
theorem matched (limit : Nat) : Matched allowed limit := by
  induction limit using Nat.strongRecOn with
  | ind limit ih =>
    intro more p q noted others d r twins rows through ends le
    cases rows with
    | ended result =>
      rw [advance_ended, advance_ended]
      exact ⟨rfl, twins⟩
    | @asking waiting padded request next rest =>
      obtain ⟨limit, rfl, soon⟩ := exists_of_endsWithin ends
      obtain ⟨more, rfl⟩ : ∃ n, more = n + 1 := ⟨more - 1, by omega⟩
      obtain ⟨common, own, later⟩ := through
      by_cases fits : ∃ s index arguments, request = .call s index arguments ∧
          arguments.length = s.arity - 1
      · obtain ⟨s, index, arguments, rfl, fit⟩ := fits
        obtain ⟨leads, looked⟩ := twins.call_routed own fit index
        rw [leads, looked, Progress.resume_script] at soon
        simp only [advance, leads, looked, Progress.resume_script, result_course_call,
          state_course_call, approach_direct twins.direct fit, Progress.resume_map_script]
        exact matched_generic (fun n lt => ih n (by omega)) (twins.looked s) (.cons next rest)
          later soon (by omega)
      · obtain ⟨kept, same, scripted⟩ := twins.course own
          fun s index arguments is_call fit => fits ⟨s, index, arguments, is_call, fit⟩
        simp only [advance, same common]
        exact ih limit (by omega) kept (rest.resume _ next)
          (Progress.through_resume scripted later) soon (by omega)

/-- Scripts that start and go on alike in both tables are carried out alike. -/
theorem carry_twins (twins : Twins allowed d r) {script : Script} (through : script.Through allowed)
    (ends : endsWithin callLimit (.follow script []) r = true) :
    (carry script d).result = (carry script r).result ∧
      Twins allowed (carry script d).state (carry script r).state :=
  matched callLimit twins (Padded.nil.follow script) (Progress.through_follow through nofun) ends
    (Nat.le_refl _)

/-- A call that fits is answered alike by both tables. -/
theorem call_twins (twins : Twins allowed d r) (quiet : allowed s.text)
    (fit : arguments.length = s.arity - 1) (ends : r.Ends (.call s index arguments)) :
    (call s index arguments d).result = (call s index arguments r).result ∧
      Twins allowed (call s index arguments d).state (call s index arguments r).state := by
  obtain ⟨leads, looked⟩ := twins.call_routed quiet fit index
  have soon := ends.script leads
  rw [looked] at soon
  obtain ⟨called, left⟩ := call_eq_carry s index arguments d
  obtain ⟨otherCalled, otherLeft⟩ := call_eq_carry s index arguments r
  rw [called, otherCalled, left, otherLeft, approach_direct twins.direct fit,
    approach_routed twins.routed fit, twins.route s.text quiet]
  exact matched_generic (fun n _ => matched n) (twins.looked s) .nil nofun soon
    (Nat.le_succ callLimit)

theorem Twins.alikeOn (twins : Twins allowed d r) (quiet : allowed s.text)
    (ends : r.Ends (.call s index arguments)) : d.AlikeOn r s index arguments := by
  have before : d.visits = r.visits := twins.visits
  by_cases fit : arguments.length = s.arity - 1
  · obtain ⟨result, kept⟩ := call_twins twins quiet fit ends
    refine ⟨result, ?_⟩
    rw [entered, entered, before, kept.visits]
  · rw [AlikeOn, call_unfit fit, call_unfit fit, entered, entered, before]
    exact ⟨rfl, rfl⟩

/-- What is asked of both tables leads to the same answer, unless it depends on the trampolines in
place, and keeps the tables alike. -/
theorem Twins.step (twins : Twins allowed d r) (through : request.Through allowed)
    (ends : r.Ends request) :
    Twins allowed (next d request) (next r request) ∧
      (request.Common → (step request d).result = (step request r).result) := by
  by_cases fits : ∃ s index arguments, request = .call s index arguments ∧
      arguments.length = s.arity - 1
  · obtain ⟨s, index, arguments, rfl, fit⟩ := fits
    obtain ⟨result, kept⟩ := call_twins twins through fit ends
    obtain ⟨answer, left⟩ := next_call s index arguments d
    obtain ⟨otherAnswer, otherLeft⟩ := next_call s index arguments r
    rw [answer, otherAnswer, left, otherLeft, result]
    exact ⟨kept, fun _ => rfl⟩
  · obtain ⟨kept, same, scripted⟩ := twins.course through
      fun s index arguments is_call fit => fits ⟨s, index, arguments, is_call, fit⟩
    by_cases common : request.Common
    · rw [next, next, Table.step, Action.state_bind, Action.state_bind, Action.result_bind,
        Action.result_bind, same common]
      cases leads : (Table.course request r).result with
      | error fault => exact ⟨kept, fun _ => rfl⟩
      | ok start =>
        cases start with
        | answer reply => exact ⟨kept, fun _ => rfl⟩
        | script script =>
          obtain ⟨result, carried⟩ := carry_twins kept (scripted script leads) (ends.script leads)
          simp only [Action.state_bind_pure, Action.result_bind_pure, result]
          exact ⟨carried, fun _ => trivial⟩
    · refine ⟨?_, fun always => (common always).elim⟩
      cases request with
      | trampoline s =>
        obtain ⟨reply, answered⟩ := exists_reply s d
        obtain ⟨otherReply, otherAnswered⟩ := exists_reply s r
        rwa [next_eq_amid, next_eq_amid, chain_of_reply answered, chain_of_reply otherAnswered]
      | look => exact kept
      | _ => exact (common trivial).elim

/-- Requests that come to an end keep the tables alike. -/
theorem Twins.reached {ops : List Request} (twins : Twins allowed d r)
    (through : ∀ request ∈ ops, request.Through allowed) (ends : Along next Ends ops r) :
    Twins allowed (reached ops d) (reached ops r) := by
  induction ops generalizing d r with
  | nil => exact twins
  | cons request rest ih =>
    obtain ⟨first, others⟩ := List.forall_mem_cons.mp through
    exact ih (twins.step first ends.1).1 others ends.2

/-! ### All histories -/

/-- After any operations, both ways of calling answer registrations and calls alike: where functions
depend on their arguments only and no running call has registered one, calls through a text for which
neither a caller nor a running call has installed anything, whatever is installed for others; and
where functions remember earlier calls and make requests of their own, calls through a text of those
that all calls go through, if nothing is installed for these and the calls come to an end. -/
theorem modes_agree (ops : List Request) :
    let direct := reached ops { mode := .direct }
    let routed := reached ops { mode := .routed }
    let made := traffic ops { mode := .routed }
    ((∀ f, .register f ∈ ops → ∃ g, f = .ofPure g) → registered made = registered ops →
      (∀ f, (step (.register f) direct).result = (step (.register f) routed).result) ∧
        ∀ s index arguments, latest? s.text made = none →
          direct.AlikeOn routed s index arguments ∧
            Called direct s index arguments (call s index arguments direct).result
              (direct.entered (call s index arguments direct).state)) ∧
      ∀ allowed, (∀ request ∈ ops, request.Through allowed) →
        Along next Ends ops { mode := .routed } →
        (∀ f, (step (.register f) direct).result = (step (.register f) routed).result) ∧
          ∀ s index arguments, allowed s.text → routed.Ends (.call s index arguments) →
            direct.AlikeOn routed s index arguments := by
  intro direct routed made
  have answer (f : Function) (t : Table) : (step (.register f) t).result = .ok (.index t.size) := rfl
  refine ⟨fun pure alone => ?_, fun allowed through ends => ?_⟩
  · have pure : ∀ f ∈ registered ops, ∃ g, f = .ofPure g :=
      fun f mem => pure f (mem_registered mem)
    have straight : traffic ops { mode := .direct } = ops :=
      traffic_pure rfl (lists_empty .direct) pure
    have directLists : direct.Lists (registered ops) := by
      simp only [direct, reached_eq_amid, straight]
      exact lists_registered ops .direct
    have routedLists : routed.Lists (registered ops) := by
      simp only [routed, reached_eq_amid, ← alone]
      exact lists_registered made .routed
    have plain (text : String) : direct.Plain text := by
      intro routed
      have mode : direct.mode = .direct := by
        simp only [direct, reached_eq_amid, mode_amid]
      cases mode.symm.trans routed
    refine ⟨fun f => ?_, fun s index arguments none => ?_⟩
    · rw [answer, answer, directLists.size_eq, routedLists.size_eq]
    · refine directLists.alikeOn routedLists pure (plain s.text) ?_ index arguments
      simp only [routed, reached_eq_amid]
      exact plain_amid none .routed
  · have twins := (twins_empty allowed).reached through ends
    refine ⟨fun f => ?_, fun s index arguments quiet last => twins.alikeOn quiet last⟩
    have same : direct.size = routed.size := congrArg Array.size twins.slots
    rw [answer, answer, same]

/-- A failing function beside calls that take another way in a routed table; and a function that
counts its calls, registers another one and makes a call of its own. -/
theorem modes_agree_nested :
    let s : Signature := ⟨"i", .i32, []⟩
    let other : Signature := ⟨"v", .void, []⟩
    let adapter : Trampoline := ⟨fun _ _ => .done (.ok (.i32 7))⟩
    let failing := Function.ofPure fun _ => .error (.invalidShift 64)
    let counting : Function := ⟨fun history _ => .ask (.register failing) fun _ =>
      .ask (.call s 2 []) fun _ => .done (.ok (.i32 (Int32.ofNat history.length)))⟩
    let ops : List Request :=
      [.register failing, .call s 2 [], .install other adapter, .call other 2 []]
    let more : List Request :=
      [.register failing, .register counting, .install other adapter, .call s 4 []]
    let direct := reached ops { mode := .direct }
    let routed := reached ops { mode := .routed }
    registered (traffic ops { mode := .routed }) = registered ops ∧
      latest? s.text (traffic ops { mode := .routed }) = none ∧
      direct.AlikeOn routed s 2 [] ∧ Called direct s 2 [] (.error (.invalidShift 64)) [2] ∧
      (∀ request ∈ more, request.Through (· = "i")) ∧
      Along next Ends more { mode := .routed } ∧
      (reached more { mode := .direct }).AlikeOn (reached more { mode := .routed }) s 4 [] := by
  intro s other adapter failing counting ops more direct routed
  obtain ⟨pure, -⟩ := modes_agree ops
  obtain ⟨-, nested⟩ := modes_agree more
  have answering (f : Function) (mem : .register f ∈ ops) : ∃ g, f = .ofPure g := by
    obtain rfl : f = failing := by simpa [ops] using mem
    exact ⟨_, rfl⟩
  have through : ∀ request ∈ more, request.Through (· = "i") := by
    have failing_through : failing.Through (· = "i") := fun _ _ => trivial
    have counting_through : counting.Through (· = "i") := fun _ _ =>
      ⟨trivial, failing_through, fun _ => ⟨trivial, rfl, fun _ => trivial⟩⟩
    have loud : other.text ≠ "i" := by decide
    simpa [more, Request.Through] using ⟨failing_through, counting_through, loud, rfl⟩
  -- the call enters a function that registers another one and makes a call of its own
  have ends (t : Table) (soon : answersWithin 5 (.call s 4 []) t = true) :
      t.Ends (.call s 4 []) := answersWithin_mono (by decide) soon
  have along : Along next Ends more { mode := .routed } :=
    ⟨rfl, rfl, rfl, ends _ (by decide +kernel), trivial⟩
  have last : (reached more { mode := .routed }).Ends (.call s 4 []) :=
    ends _ (by decide +kernel)
  have alone : registered (traffic ops { mode := .routed }) = registered ops := rfl
  have none : latest? s.text (traffic ops { mode := .routed }) = none := rfl
  have answer : (call s 2 [] direct).result = .error (.invalidShift 64) := by cbv
  have visited : direct.entered (call s 2 [] direct).state = [2] := by decide +kernel
  obtain ⟨alike, called⟩ := (pure answering alone).2 s 2 [] none
  rw [answer, visited] at called
  exact ⟨alone, none, alike, called, through, along,
    (nested _ through along).2 s 4 [] rfl last⟩

/-- A function that makes a call through a signature whose trampoline answers in its place; and a
trampoline that registers a function, which a direct table never does. -/
theorem modes_differ :
    let i : Signature := ⟨"i", .i32, []⟩
    let v : Signature := ⟨"v", .void, []⟩
    let seven := Function.ofPure fun _ => .ok (.i32 7)
    let calling : Function := ⟨fun _ _ => .forward (.call v 2 [])⟩
    let nine : Trampoline := ⟨fun _ _ => .done (.ok (.i32 9))⟩
    let registering : Trampoline := ⟨fun _ _ => .forward (.register seven)⟩
    let ops : List Request := [.register seven, .register calling, .install v nine]
    let more : List Request := [.register seven, .install v registering, .call v 2 []]
    (latest? i.text (traffic ops { mode := .routed }) = none ∧
      (call i 4 [] (reached ops { mode := .direct })).result = .ok (.i32 7) ∧
      (call i 4 [] (reached ops { mode := .routed })).result = .ok (.i32 9)) ∧
    (step (.register seven) (reached more { mode := .direct })).result = .ok (.index 4) ∧
      (step (.register seven) (reached more { mode := .routed })).result = .ok (.index 6) :=
  ⟨⟨rfl, rfl, rfl⟩, rfl, rfl⟩

end Table

end LinearHost
