import LinearHost.Proofs.Dispatch.Serving

/-!
# Which trampoline a call takes

Trampolines are chosen by the text of a signature. The one installed last for a text is the one
that calls through it take; before the first installation they take the generic one, which is put in
place when it is first needed and stays the same object until it is replaced. Installations count
whoever makes them, also a trampoline that is running. A table that calls functions directly has no
use for trampolines.

## Main definitions

* `Request.installed?`, `Table.latest?`: the installations in a list of requests.
* `Table.route_amid`: the route of a text is the last trampoline installed for it.
* `Table.Takes`: calls through a signature run a trampoline, and look-ups answer with it.
* `Table.routes_follow_installs`: what calls and look-ups do after any list of operations.
-/

namespace LinearHost

/-- The trampoline that a request installs for a text, if it is an installation for this text. -/
def Request.installed? (text : String) : Request → Option Trampoline
  | .install s adapter => if s.text = text then some adapter else none
  | _ => none

def Request.text? : Request → Option String
  | .call s .. | .install s _ | .trampoline s => some s.text
  | _ => none

/-- The text that a request looks a trampoline up for. -/
def Request.sought? (mode : DispatchMode) : Request → Option String
  | .call s _ arguments =>
    if mode = .routed ∧ arguments.length = s.arity - 1 then some s.text else none
  | .trampoline s => some s.text
  | _ => none

theorem Request.sought?_eq_none {mode : DispatchMode} {request : Request} {text : String}
    (other : request.text? ≠ some text) : request.sought? mode ≠ some text := by
  cases request with
  | call s index arguments =>
    rw [sought?]
    split
    · exact other
    · nofun
  | trampoline s => exact other
  | _ => nofun

theorem Request.installed?_eq_none {request : Request} {text : String}
    (other : request.text? ≠ some text) : request.installed? text = none := by
  cases request with
  | install s adapter => exact if_neg fun same => other (congrArg some same)
  | _ => rfl

namespace Table

variable {t : Table} {s : Signature} {request : Request} {requests : List Request}
  {text : String} {installed : Installed} {index : Nat} {arguments : List Value}

def latest? (text : String) (requests : List Request) : Option Trampoline :=
  (requests.filterMap (·.installed? text)).getLast?

theorem latest?_cons (text : String) (request : Request) (rest : List Request) :
    latest? text (request :: rest) = (latest? text rest).or (request.installed? text) := by
  unfold latest?
  rw [List.filterMap_cons]
  cases request.installed? text with
  | none => exact (Option.or_none ..).symm
  | some adapter =>
    rw [List.getLast?_cons]
    cases (rest.filterMap (·.installed? text)).getLast? <;> rfl

/-- No trampoline is the last one exactly if none was installed. -/
theorem latest?_eq_none_iff :
    latest? text requests = none ↔ ∀ request ∈ requests, request.installed? text = none := by
  rw [latest?, List.getLast?_eq_none_iff, List.filterMap_eq_nil_iff]

/-! ### Routes -/

/-- An installation changes the route of its own text only. -/
theorem route_place (t : Table) (placed : String) (adapter : Trampoline) (text : String) :
    (t.place placed adapter).route text =
      if placed = text then adapter else t.route text := by
  rw [route, installed?_place]
  split <;> rfl

/-- A request changes no route but that of the text it installs a trampoline for. -/
theorem route_course (request : Request) (t : Table) (text : String) :
    (course request t).state.route text = (request.installed? text).getD (t.route text) := by
  cases request with
  | install s adapter =>
    rw [state_course_install, route_place, Request.installed?]
    split <;> rfl
  | _ =>
    refine course_keeps (motive := fun u => u.route text = t.route text) rfl (fun f _ => rfl)
      (fun index arguments => route_visit ..) ?_ fun s => route_trampoline ..
    rintro s adapter ⟨⟩

/-- The route of a text is the last trampoline installed for it, or the old one. -/
theorem route_amid (requests : List Request) (t : Table) (text : String) :
    (t.amid requests).route text = (latest? text requests).getD (t.route text) := by
  induction requests generalizing t with
  | nil => rfl
  | cons request rest ih =>
    rw [amid_cons, ih, route_course, latest?_cons]
    cases latest? text rest <;> rfl

theorem mode_course (request : Request) (t : Table) : (course request t).state.mode = t.mode :=
  course_keeps (motive := fun u => u.mode = t.mode) rfl (fun _ _ => rfl)
    (fun _ _ => mode_visit ..) (fun _ _ _ => rfl) fun _ => mode_trampoline ..

theorem mode_amid (requests : List Request) (t : Table) : (t.amid requests).mode = t.mode :=
  List.foldlRecOn (motive := fun u => u.mode = t.mode) requests _ rfl
    fun u same request _ => (mode_course request u).trans same

/-! ### Trampolines in place stay in place -/

theorem installed?_trampoline (found : t.installed? text = some installed) (s : Signature) :
    (trampoline s t).state.installed? text = some installed := by
  obtain ⟨-, -, state⟩ | ⟨absent, state⟩ := trampoline_cases s t
  · rw [state, found]
  · rw [state, installed?_place, if_neg, found]
    rintro rfl
    rw [absent] at found
    cases found

theorem installed?_course (found : t.installed? text = some installed)
    (other : request.installed? text = none) :
    (course request t).state.installed? text = some installed := by
  refine course_keeps (t := t) (motive := (installed? · text = some installed)) found
    (fun f _ => found) (fun index arguments => ?_) ?_ (installed?_trampoline found)
  · rw [installed?_visit, found]
  · rintro s adapter rfl
    simp only [Request.installed?, ite_eq_right_iff, reduceCtorEq, imp_false] at other
    rw [installed?_place, if_neg other, found]

/-- A trampoline stays in place as long as none is installed for its text. -/
theorem installed?_amid (found : t.installed? text = some installed)
    (others : ∀ request ∈ requests, request.installed? text = none) :
    (t.amid requests).installed? text = some installed :=
  List.foldlRecOn (motive := (installed? · text = some installed)) requests _ found
    fun _ found request mem => installed?_course found (others request mem)

theorem installed?_trampoline_other (other : s.text ≠ text) (t : Table) :
    (trampoline s t).state.installed? text = t.installed? text := by
  obtain ⟨-, -, state⟩ | ⟨-, state⟩ := trampoline_cases s t
  · rw [state]
  · rw [state, installed?_place, if_neg other]

/-- A request that neither looks a trampoline up for a text nor installs one leaves the one in place
for it alone. -/
theorem installed?_course_of_not_sought (unsought : request.sought? t.mode ≠ some text)
    (other : request.installed? text = none) :
    (course request t).state.installed? text = t.installed? text := by
  cases request with
  | call s index arguments =>
    rw [state_course_call]
    by_cases fit : arguments.length = s.arity - 1
    · cases mode : t.mode with
      | direct => rw [approach_direct mode fit, installed?_visit]
      | routed =>
        rw [approach_routed mode fit]
        refine installed?_trampoline_other (fun same => ?_) t
        simp [Request.sought?, mode, fit, same] at unsought
    · rw [approach_unfit fit]
  | install s adapter =>
    rw [state_course_install, installed?_place, if_neg]
    rintro rfl
    simp [Request.installed?] at other
  | trampoline s =>
    rw [state_course_trampoline]
    exact installed?_trampoline_other (fun same => unsought (congrArg some same)) t
  | enter index arguments => rw [state_course_enter, installed?_visit]
  | get index => rw [state_course_get]
  | register f => rfl
  | look => rfl

/-- Requests about other texts leave the trampoline of a text alone. -/
theorem installed?_amid_of_text_ne {others : List Request}
    (apart : ∀ request ∈ others, request.text? ≠ some text) (t : Table) :
    (t.amid others).installed? text = t.installed? text :=
  List.foldlRecOn (motive := (installed? · text = t.installed? text)) others _ rfl
    fun _ same request mem => (installed?_course_of_not_sought
      (Request.sought?_eq_none (apart request mem))
      (Request.installed?_eq_none (apart request mem))).trans same

/-! ### Serial numbers tell installations apart -/

def Counted (t : Table) : Prop :=
  ∀ text installed, t.installed? text = some installed → installed.serial < t.installations

theorem Counted.place (counted : t.Counted) (text : String) (adapter : Trampoline) :
    (t.place text adapter).Counted := by
  intro other installed found
  rw [installed?_place] at found
  split at found
  · cases found
    exact Nat.lt_succ_self _
  · exact Nat.lt_succ_of_lt (counted other installed found)

theorem Counted.course (counted : t.Counted) (request : Request) :
    (course request t).state.Counted := by
  refine course_keeps counted (fun f _ => counted) (fun index arguments => ?_)
    (fun s adapter _ => counted.place s.text adapter) fun s => ?_
  · intro text installed found
    rw [installed?_visit] at found
    rw [installations_visit]
    exact counted text installed found
  · obtain ⟨-, -, state⟩ | ⟨-, state⟩ := trampoline_cases s t
    · rw [state]
      exact counted
    · rw [state]
      exact counted.place _ _

theorem Counted.amid (counted : t.Counted) (requests : List Request) :
    (t.amid requests).Counted :=
  List.foldlRecOn requests _ counted fun _ counted request _ => counted.course request

theorem counted_empty (mode : DispatchMode) : ({ mode } : Table).Counted := nofun

/-! ### Calls and look-ups -/

/-- While a trampoline is the one of a signature, a call that fits carries out the script of this
trampoline and no other, and a look-up answers with it. -/
structure Takes (t : Table) (s : Signature) (chosen : Trampoline) : Prop where
  approach : ∀ index arguments, arguments.length = s.arity - 1 →
    approach s index arguments t =
      ⟨.ok (chosen.run index arguments), (trampoline s t).state, (trampoline s t).events⟩
  call : ∀ index arguments, arguments.length = s.arity - 1 →
    (call s index arguments t).result =
        (carry (chosen.run index arguments) (trampoline s t).state).result ∧
      (Table.call s index arguments t).state =
        (carry (chosen.run index arguments) (trampoline s t).state).state
  found : ∃ installed, (trampoline s t).result = .ok installed ∧
    (trampoline s t).state.installed? s.text = some installed ∧ installed.trampoline = chosen

/-- Calls and look-ups take the route of their signature. -/
theorem takes_route (routed : t.mode = .routed) (s : Signature) : t.Takes s (t.route s.text) where
  approach _ _ fit := approach_routed routed fit
  call index arguments fit := by
    have carried := call_eq_carry s index arguments t
    rwa [approach_routed routed fit] at carried
  found := exists_looked s t

/-- A look-up answers the same as long as nothing is installed for its text. -/
theorem trampoline_amid {later : List Request}
    (others : ∀ request ∈ later, request.installed? s.text = none) (t : Table) :
    (trampoline s ((trampoline s t).state.amid later)).result = (trampoline s t).result := by
  obtain ⟨installed, answer, found, -⟩ := exists_looked s t
  rw [trampoline_of_some (installed?_amid found others), answer]

/-- An installation puts a new object in place. -/
theorem trampoline_install (counted : t.Counted) (s : Signature) (adapter : Trampoline) :
    ∃ fresh, (trampoline s (t.place s.text adapter)).result = .ok fresh ∧
      fresh.trampoline = adapter ∧ ∀ old, t.installed? s.text = some old → fresh ≠ old := by
  have found : (t.place s.text adapter).installed? s.text =
      some ⟨s.text, t.installations, adapter⟩ := by
    rw [installed?_place, if_pos rfl]
  refine ⟨⟨s.text, t.installations, adapter⟩, ?_, rfl, ?_⟩
  · rw [trampoline_of_some found]
  · rintro old inPlace rfl
    exact Nat.lt_irrefl _ (counted s.text _ inPlace)

/-! ### Calls that go straight to a function -/

/-- Nothing stands between calls through a text and the functions that they name. -/
def Plain (t : Table) (text : String) : Prop :=
  t.mode = .routed → t.route text = .generic

/-- Without an installation for their text, calls go straight to functions. -/
theorem plain_amid (none : latest? text requests = none) (mode : DispatchMode) :
    (({ mode } : Table).amid requests).Plain text := by
  intro _
  rw [route_amid, none]
  rfl

theorem call_unfit (unfit : arguments.length ≠ s.arity - 1) :
    call s index arguments t =
      ⟨.error (.arityMismatch s.text (s.arity - 1) arguments.length), t, []⟩ := by
  rw [call, Action.bind_apply, approach_unfit unfit]

theorem exists_callLimit : ∃ limit, callLimit = limit + 1 :=
  ⟨callLimit - 1, by decide⟩

/-- The generic trampoline asks for the function at once. -/
theorem follow_generic (index : Nat) (arguments : List Value)
    (waiting : List (Except Fault Reply → Script)) :
    Progress.follow (Trampoline.generic.run index arguments) waiting =
      .asking (.enter index arguments) Script.relay waiting := by
  simp only [Trampoline.generic, Script.forward, Progress.follow]

/-- The generic trampoline to a function that ends at once, or cannot be entered, ends as this
does. -/
theorem carry_generic {answer : Except Fault Value}
    (ends : .ofStart (visit index arguments t).result = Script.done answer) :
    (carry (Trampoline.generic.run index arguments) t).result = answer ∧
      (carry (Trampoline.generic.run index arguments) t).state =
        (visit index arguments t).state := by
  obtain ⟨limit, callLimit_eq⟩ := exists_callLimit
  rw [carry, follow_generic, callLimit_eq]
  simp only [advance, result_course_enter, state_course_enter, Progress.resume_map_script, ends,
    Progress.follow, Script.relay_map_value, advance_ended]
  exact ⟨trivial, trivial⟩

/-- A plain call to a function that ends at once, or cannot be entered, ends as the function does. -/
theorem call_plain (plain : t.Plain s.text) (fit : arguments.length = s.arity - 1)
    {answer : Except Fault Value}
    (ends : .ofStart (visit index arguments t).result = Script.done answer) :
    (call s index arguments t).result = answer ∧
      (call s index arguments t).state.visits = (visit index arguments t).state.visits := by
  obtain ⟨result, state⟩ := call_eq_carry s index arguments t
  rw [result, state]
  cases mode : t.mode with
  | direct =>
    rw [approach_direct mode fit, ends, carry_done]
    exact ⟨rfl, rfl⟩
  | routed =>
    -- looking up the trampoline leaves the functions as they are
    obtain ⟨same, -, visits⟩ :=
      visit_congr (slots_trampoline s t) (visits_trampoline s t) index arguments
    rw [approach_routed mode fit, plain mode]
    obtain ⟨carried, left⟩ := carry_generic (same ▸ ends)
    exact ⟨carried, left.symm ▸ visits⟩

/-- A plain call to an index without a function fails and enters nothing. -/
theorem call_unknown (plain : t.Plain s.text) (fit : arguments.length = s.arity - 1)
    (absent : t.function? index = none) :
    (call s index arguments t).result = .error (.invalidTableIndex index) ∧
      (call s index arguments t).state.visits = t.visits := by
  have ended : (call s index arguments t).result = _ ∧ _ :=
    call_plain plain fit (by rw [visit_of_none absent]; rfl)
  rwa [visit_of_none absent] at ended

/-! ### All histories -/

/-- Whatever operations there were on a table that routes calls by signature, and whatever calls
that are running have asked for since: the trampoline installed last for a text, by a caller or by a
running call, is the one that calls through it take, and the generic one if there was none. A look-up
answers with the same object until the next installation for its text, which puts a new one in place.
Requests about other texts, however many and whoever makes them, leave the trampoline of this one
alone. Where calls are direct, they run the function at the index whatever is installed. -/
theorem routes_follow_installs (ops more : List Request) (s : Signature) :
    let t := (reached ops { mode := .routed }).amid more
    let made := traffic ops { mode := .routed } ++ more
    t.Takes s ((latest? s.text made).getD .generic) ∧
      (∀ later, (∀ request ∈ later, request.installed? s.text = none) →
        (trampoline s ((trampoline s t).state.amid later)).result = (trampoline s t).result) ∧
      (∀ adapter, ∃ fresh,
        (trampoline s (course (.install s adapter) t).state).result = .ok fresh ∧
        fresh.trampoline = adapter ∧ ∀ old, t.installed? s.text = some old → fresh ≠ old) ∧
      (∀ others : List Request, (∀ request ∈ others, request.text? ≠ some s.text) →
        (t.amid others).installed? s.text = t.installed? s.text) ∧
      ∀ index arguments, arguments.length = s.arity - 1 →
        let d := (reached ops { mode := .direct }).amid more
        approach s index arguments d = visit index arguments d := by
  intro t made
  have all : t = ({ mode := .routed } : Table).amid made := by
    simp only [t, made, reached_eq_amid, amid_append]
  have routed : t.mode = .routed := all ▸ mode_amid made _
  have route : t.route s.text = (latest? s.text made).getD .generic :=
    all ▸ route_amid made _ s.text
  refine ⟨?_, fun later others => trampoline_amid others t, fun adapter => ?_,
    fun others apart => installed?_amid_of_text_ne apart t, fun index arguments fit => ?_⟩
  · rw [← route]
    exact takes_route routed s
  · exact trampoline_install (all ▸ (counted_empty .routed).amid made) s adapter
  · refine approach_direct ?_ fit
    rw [reached_eq_amid, mode_amid, mode_amid]

/-- A trampoline that installs another one for the signature of the next call, after the generic one
has been used there; look-ups with requests about another signature between them; and a direct call
past a trampoline. -/
theorem routes_follow_installs_replaced :
    let s : Signature := ⟨"i", .i32, []⟩
    let other : Signature := ⟨"v", .void, []⟩
    let constant (n : Int32) : Trampoline := ⟨fun _ _ => .done (.ok (.i32 n))⟩
    let installing : Trampoline := ⟨fun _ _ => .forward (.install s (constant 7))⟩
    let f := Function.ofPure fun _ => .ok (.i32 1)
    let ops : List Request :=
      [.register f, .call s 2 [], .install other installing, .call other 0 []]
    let later : List Request := [.install other (constant 8), .call s 2 []]
    let others : List Request := [.install other (constant 8), .call other 2 []]
    let t := reached ops { mode := .routed }
    let d := reached ops { mode := .direct }
    latest? s.text (traffic ops { mode := .routed }) = some (constant 7) ∧
      (call s 2 [] t).result = .ok (.i32 7) ∧
      (∀ request ∈ later, request.installed? s.text = none) ∧
      (trampoline s ((trampoline s t).state.amid later)).result = (trampoline s t).result ∧
      (t.amid others).installed? s.text = t.installed? s.text ∧
      approach other 2 [] d = visit 2 [] d := by
  intro s other constant installing f ops later others t d
  obtain ⟨takes, again, -, apart, direct⟩ := routes_follow_installs ops [] s
  obtain ⟨-, -, -, -, straight⟩ := routes_follow_installs ops [] other
  have differs : other.text ≠ s.text := by decide
  have chosen : latest? s.text (traffic ops { mode := .routed }) = some (constant 7) := rfl
  have uninstalled : ∀ request ∈ later, request.installed? s.text = none := by
    simp [later, Request.installed?, differs]
  have answer : (call s 2 [] t).result = .ok (.i32 7) := by
    have called := (takes.call 2 [] rfl).1
    rw [List.append_nil, chosen, Option.getD_some, carry_done] at called
    exact called
  refine ⟨chosen, answer, uninstalled, again later uninstalled, apart others ?_, straight 2 [] rfl⟩
  simpa [others, Request.text?] using differs

end Table

end LinearHost
