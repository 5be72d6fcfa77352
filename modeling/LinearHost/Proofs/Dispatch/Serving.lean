import LinearHost.Dispatch.Operation

/-!
# Serving requests

Whatever a call leads to, its requests are served one after the other. Each of them is turned away,
registers a function or enters one, looks a trampoline up or puts one in place. So what every request
keeps, every operation keeps, and what a list of requests makes of a table is all that has to be
known of the operations that made them.

## Main definitions

* `Table.route`: the trampoline that calls through a text are to take.
* `Table.course_keeps`: what a request can do to a table.
* `Table.amid`: the table that a request of a running call meets.
* `Table.chain`, `Table.traffic`: the requests that are served in the course of one operation and of
  a list of them.
* `Table.reached_eq_amid`: operations do to a table what their requests do.
-/

namespace LinearHost

/-- The course of what could not be started: it ends at once. -/
def Script.ofStart : Except Fault Script → Script
  | .ok script => script
  | .error fault => .done (.error fault)

theorem Progress.resume_map_script (start : Except Fault Script)
    (next : Except Fault Reply → Script) (waiting : List (Except Fault Reply → Script)) :
    resume (start.map .script) next waiting = follow (.ofStart start) (next :: waiting) := by
  cases start with
  | ok script => rfl
  | error fault => rw [Script.ofStart, follow]; rfl

namespace Table

variable {t : Table} {s : Signature} {index : Nat} {arguments : List Value} {f : Function}
  {text : String} {installed : Installed}

/-! ### Functions -/

theorem function?_eq_some_iff :
    t.function? index = some f ↔ ∃ history, t.slots[index]? = some (.function f history) := by
  unfold function?
  split
  next g history found => simp [found]
  next other =>
    constructor
    · nofun
    · rintro ⟨history, found⟩
      exact (other f history found).elim

theorem get_eq_ok (found : t.function? index = some f) : t.get index = .ok f := by
  rw [get, found]

theorem get_eq_error (absent : t.function? index = none) :
    t.get index = .error (.invalidTableIndex index) := by
  rw [get, absent]

theorem contains_iff : t.contains index = true ↔ ∃ f, t.function? index = some f :=
  Option.isSome_iff_exists

/-- The function registered last is found at the end of the slots. -/
theorem function?_add (t : Table) (f : Function) (index : Nat) :
    (t.add f).function? index = if index = t.size then some f else t.function? index := by
  have slots : (t.add f).slots = (t.slots.push (.function f [])).push .padding := rfl
  have pushed : (t.slots.push (Slot.function f [])).size = t.slots.size + 1 := Array.size_push ..
  unfold function? size
  rw [slots, Array.getElem?_push, Array.getElem?_push, pushed]
  by_cases last : index = t.slots.size + 1
  · simp [last]
  · by_cases same : index = t.slots.size <;> simp [last, same]

theorem size_add (t : Table) (f : Function) : (t.add f).size = t.size + 2 := by
  simp [add, size]

theorem visit_of_none (absent : t.function? index = none) (arguments : List Value) :
    visit index arguments t = ⟨.error (.invalidTableIndex index), t, []⟩ := by
  unfold visit
  split
  next f history found =>
    rw [function?_eq_some_iff.mpr ⟨history, found⟩] at absent
    cases absent
  next => rfl

theorem visit_of_some {history : List (List Value)}
    (found : t.slots[index]? = some (.function f history)) (arguments : List Value) :
    visit index arguments t =
      ⟨.ok (f.run history arguments),
        { t with
          slots := t.slots.setIfInBounds index (.function f (arguments :: history))
          visits := t.visits.push index }, []⟩ := by
  simp [visit, found]

/-- Entering a function leaves all as it is, or marks a registered function as entered. -/
theorem visit_cases (t : Table) (index : Nat) (arguments : List Value) :
    (t.function? index = none ∧ (visit index arguments t).state = t) ∨
      ∃ f history, t.slots[index]? = some (.function f history) ∧
        (visit index arguments t).state =
          { t with
            slots := t.slots.setIfInBounds index (.function f (arguments :: history))
            visits := t.visits.push index } := by
  cases found : t.function? index with
  | none => exact .inl ⟨rfl, by rw [visit_of_none found]⟩
  | some f =>
    obtain ⟨history, found⟩ := function?_eq_some_iff.mp found
    exact .inr ⟨f, history, found, by rw [visit_of_some found]⟩

/-- Entering a function replaces none. -/
@[simp] theorem function?_visit (t : Table) (entered : Nat) (arguments : List Value)
    (index : Nat) : (visit entered arguments t).state.function? index = t.function? index := by
  obtain ⟨-, state⟩ | ⟨f, history, found, state⟩ := visit_cases t entered arguments
  · rw [state]
  · rw [state]
    by_cases same : entered = index
    · subst same
      have inside : entered < t.slots.size := (Array.getElem?_eq_some_iff.mp found).1
      rw [function?_eq_some_iff.mpr ⟨history, found⟩]
      exact function?_eq_some_iff.mpr ⟨arguments :: history, by simp [inside]⟩
    · simp [function?, same]

@[simp] theorem size_visit (t : Table) (entered : Nat) (arguments : List Value) :
    (visit entered arguments t).state.size = t.size := by
  obtain ⟨-, state⟩ | ⟨f, history, found, state⟩ := visit_cases t entered arguments <;>
    simp [state, size]

@[simp] theorem mode_visit (t : Table) (entered : Nat) (arguments : List Value) :
    (visit entered arguments t).state.mode = t.mode := by
  obtain ⟨-, state⟩ | ⟨f, history, found, state⟩ := visit_cases t entered arguments <;>
    exact (congrArg Table.mode state :)

@[simp] theorem installed?_visit (t : Table) (entered : Nat) (arguments : List Value)
    (text : String) :
    (visit entered arguments t).state.installed? text = t.installed? text := by
  obtain ⟨-, state⟩ | ⟨f, history, found, state⟩ := visit_cases t entered arguments <;>
    exact (congrArg (Table.installed? · text) state :)

@[simp] theorem installations_visit (t : Table) (entered : Nat) (arguments : List Value) :
    (visit entered arguments t).state.installations = t.installations := by
  obtain ⟨-, state⟩ | ⟨f, history, found, state⟩ := visit_cases t entered arguments <;>
    exact (congrArg Table.installations state :)

/-- Entering a function depends on the slots only, and adds to the functions entered. -/
theorem visit_congr {u : Table} (slots : u.slots = t.slots) (visits : u.visits = t.visits)
    (index : Nat) (arguments : List Value) :
    (visit index arguments u).result = (visit index arguments t).result ∧
      (visit index arguments u).state.slots = (visit index arguments t).state.slots ∧
      (visit index arguments u).state.visits = (visit index arguments t).state.visits := by
  unfold visit
  rw [slots, visits]
  split
  next => exact ⟨rfl, rfl, rfl⟩
  next => exact ⟨rfl, slots, visits⟩

/-! ### Trampolines -/

/-- The trampoline that a call through a text takes: the one in place, or else the generic one. -/
def route (t : Table) (text : String) : Trampoline :=
  ((t.installed? text).map Installed.trampoline).getD .generic

/-- A trampoline takes the place of the one of the same text. -/
theorem installed?_place (t : Table) (placed : String) (trampoline : Trampoline)
    (text : String) :
    (t.place placed trampoline).installed? text =
      if placed = text then some ⟨placed, t.installations, trampoline⟩ else t.installed? text := by
  unfold installed? place
  split
  next same => simp [same]
  next other =>
    have kept (entry : Installed) :
        (!decide (entry.signature = placed) && decide (entry.signature = text)) =
          decide (entry.signature = text) := by
      by_cases same : entry.signature = text
      · simp [same, Ne.symm other]
      · simp [same]
    simp [other, List.find?_filter, kept]

theorem trampoline_of_some (found : t.installed? s.text = some installed) :
    trampoline s t = ⟨.ok installed, t, []⟩ := by
  simp [trampoline, found]

theorem trampoline_of_none (absent : t.installed? s.text = none) :
    trampoline s t =
      ⟨.ok ⟨s.text, t.installations, .generic⟩, t.place s.text .generic,
        [.trampolineInstalled s.text]⟩ := by
  simp [trampoline, absent, Action.bind_apply]

/-- A look-up leaves all as it is, or puts the generic trampoline where there was none. -/
theorem trampoline_cases (s : Signature) (t : Table) :
    (∃ installed, t.installed? s.text = some installed ∧ (trampoline s t).state = t) ∨
      (t.installed? s.text = none ∧ (trampoline s t).state = t.place s.text .generic) := by
  cases found : t.installed? s.text with
  | some installed => exact .inl ⟨installed, rfl, by rw [trampoline_of_some found]⟩
  | none => exact .inr ⟨rfl, by rw [trampoline_of_none found]⟩

/-- A look-up answers with the trampoline that is in place afterwards. -/
theorem exists_looked (s : Signature) (t : Table) :
    ∃ installed, (trampoline s t).result = .ok installed ∧
      (trampoline s t).state.installed? s.text = some installed ∧
      installed.trampoline = t.route s.text := by
  cases found : t.installed? s.text with
  | some installed =>
    refine ⟨installed, ?_⟩
    simp [trampoline_of_some found, found, route]
  | none =>
    refine ⟨⟨s.text, t.installations, .generic⟩, ?_⟩
    simp [trampoline_of_none found, found, route, installed?_place]

@[simp] theorem function?_trampoline (s : Signature) (t : Table) (index : Nat) :
    (trampoline s t).state.function? index = t.function? index := by
  obtain ⟨-, -, state⟩ | ⟨-, state⟩ := trampoline_cases s t <;>
    exact (congrArg (Table.function? · index) state :)

@[simp] theorem size_trampoline (s : Signature) (t : Table) :
    (trampoline s t).state.size = t.size := by
  obtain ⟨-, -, state⟩ | ⟨-, state⟩ := trampoline_cases s t <;>
    exact (congrArg Table.size state :)

@[simp] theorem mode_trampoline (s : Signature) (t : Table) :
    (trampoline s t).state.mode = t.mode := by
  obtain ⟨-, -, state⟩ | ⟨-, state⟩ := trampoline_cases s t <;>
    exact (congrArg Table.mode state :)

@[simp] theorem visits_trampoline (s : Signature) (t : Table) :
    (trampoline s t).state.visits = t.visits := by
  obtain ⟨-, -, state⟩ | ⟨-, state⟩ := trampoline_cases s t <;>
    exact (congrArg Table.visits state :)

@[simp] theorem slots_trampoline (s : Signature) (t : Table) :
    (trampoline s t).state.slots = t.slots := by
  obtain ⟨-, -, state⟩ | ⟨-, state⟩ := trampoline_cases s t <;>
    exact (congrArg Table.slots state :)

/-- No look-up changes a route. -/
@[simp] theorem route_trampoline (s : Signature) (t : Table) (text : String) :
    (trampoline s t).state.route text = t.route text := by
  obtain ⟨-, -, state⟩ | ⟨absent, state⟩ := trampoline_cases s t
  · rw [state]
  · rw [state, route, route, installed?_place]
    split
    next same => rw [← same, absent]; rfl
    next => rfl

@[simp] theorem route_visit (t : Table) (entered : Nat) (arguments : List Value) (text : String) :
    (visit entered arguments t).state.route text = t.route text := by
  rw [route, route, installed?_visit]

/-! ### One request -/

theorem approach_unfit (unfit : arguments.length ≠ s.arity - 1) :
    approach s index arguments t =
      ⟨.error (.arityMismatch s.text (s.arity - 1) arguments.length), t, []⟩ := by
  simp [approach, Signature.checkArguments, unfit, Action.bind_apply]

theorem approach_direct (direct : t.mode = .direct) (fit : arguments.length = s.arity - 1) :
    approach s index arguments t = visit index arguments t := by
  simp [approach, Signature.checkArguments, fit, Action.bind_apply, direct]

/-- A routed call looks the trampoline up and runs it. -/
theorem approach_routed (routed : t.mode = .routed) (fit : arguments.length = s.arity - 1) :
    approach s index arguments t =
      ⟨.ok ((t.route s.text).run index arguments), (trampoline s t).state,
        (trampoline s t).events⟩ := by
  obtain ⟨installed, answer, -, route⟩ := exists_looked s t
  rw [← route]
  cases found : trampoline s t with
  | mk result after events =>
    rw [found] at answer
    cases answer
    simp [approach, Signature.checkArguments, fit, Action.bind_apply, routed, found]

@[simp] theorem state_course_register (f : Function) (t : Table) :
    (course (.register f) t).state = t.add f := rfl

@[simp] theorem state_course_get (index : Nat) (t : Table) :
    (course (.get index) t).state = t := by
  simp only [course, Action.get_bind_apply, Action.state_bind_pure, Action.ofExcept_apply]

@[simp] theorem state_course_enter (index : Nat) (arguments : List Value) (t : Table) :
    (course (.enter index arguments) t).state = (visit index arguments t).state :=
  Action.state_bind_pure ..

@[simp] theorem state_course_call (s : Signature) (index : Nat) (arguments : List Value)
    (t : Table) :
    (course (.call s index arguments) t).state = (approach s index arguments t).state :=
  Action.state_bind_pure ..

@[simp] theorem state_course_install (s : Signature) (adapter : Trampoline) (t : Table) :
    (course (.install s adapter) t).state = t.place s.text adapter := rfl

@[simp] theorem state_course_trampoline (s : Signature) (t : Table) :
    (course (.trampoline s) t).state = (trampoline s t).state :=
  Action.state_bind_pure ..

@[simp] theorem state_course_look (t : Table) : (course .look t).state = t := rfl

@[simp] theorem result_course_enter (index : Nat) (arguments : List Value) (t : Table) :
    (course (.enter index arguments) t).result =
      (visit index arguments t).result.map .script :=
  Action.result_bind_pure ..

@[simp] theorem result_course_call (s : Signature) (index : Nat) (arguments : List Value)
    (t : Table) :
    (course (.call s index arguments) t).result =
      (approach s index arguments t).result.map .script :=
  Action.result_bind_pure ..

/-- A request registers a function or enters one, looks a trampoline up or puts one in place, or
leaves all as it is. -/
theorem course_keeps {motive : Table → Prop} {request : Request} (start : motive t)
    (registered : ∀ f, request = .register f → motive (t.add f))
    (visited : ∀ index arguments, motive (visit index arguments t).state)
    (placed : ∀ s adapter, request = .install s adapter → motive (t.place s.text adapter))
    (looked : ∀ s, motive (trampoline s t).state) : motive (course request t).state := by
  cases request with
  | register f => exact registered f rfl
  | get index =>
    rw [state_course_get]
    exact start
  | enter index arguments =>
    rw [state_course_enter]
    exact visited index arguments
  | call s index arguments =>
    rw [state_course_call]
    by_cases fit : arguments.length = s.arity - 1
    · cases mode : t.mode with
      | direct =>
        rw [approach_direct mode fit]
        exact visited index arguments
      | routed =>
        rw [approach_routed mode fit]
        exact looked s
    · rw [approach_unfit fit]
      exact start
  | install s adapter => exact placed s adapter rfl
  | trampoline s =>
    rw [state_course_trampoline]
    exact looked s
  | look => exact start

/-! ### Serving one request after the other -/

theorem advance_ended (limit : Nat) (result : Except Fault Value) (noted : List Event)
    (t : Table) : advance limit (.ended result) noted t = ⟨result, t, noted.reverse⟩ := by
  cases limit <;> rfl

/-- The table after some requests that running calls have made. -/
def amid (requests : List Request) (t : Table) : Table :=
  requests.foldl (fun t request => (course request t).state) t

theorem amid_cons (request : Request) (rest : List Request) (t : Table) :
    t.amid (request :: rest) = (course request t).state.amid rest := rfl

theorem amid_append (first second : List Request) (t : Table) :
    t.amid (first ++ second) = (t.amid first).amid second :=
  List.foldl_append ..

def served : (limit : Nat) → Progress → Table → List Request
  | _, .ended _, _ => []
  | 0, .asking .., _ => []
  | limit + 1, .asking request next waiting, t =>
    request :: served limit (.resume (course request t).result next waiting)
      (course request t).state

theorem served_ended (limit : Nat) (result : Except Fault Value) (t : Table) :
    served limit (.ended result) t = [] := by
  cases limit <;> rfl

/-- A running call does to the table what the requests do that it serves. -/
theorem state_advance (limit : Nat) (progress : Progress) (noted : List Event) (t : Table) :
    (advance limit progress noted t).state = t.amid (served limit progress t) := by
  induction limit generalizing progress noted t with
  | zero => cases progress <;> rfl
  | succ limit ih =>
    cases progress with
    | ended result => rfl
    | asking request next waiting => exact ih ..

/-! ### The requests of operations -/

/-- The requests that are served when one is made of the table, itself first. -/
def chain (request : Request) (t : Table) : List Request :=
  request :: match (course request t).result with
    | .ok (.script script) =>
      served callLimit (.follow script []) (course request t).state
    | _ => []

/-- A request that is turned away leads to no others. -/
theorem chain_of_error {request : Request} {fault : Fault}
    (refused : (course request t).result = .error fault) : chain request t = [request] := by
  rw [chain, refused]

/-- A request that is answered at once leads to no others. -/
theorem chain_of_reply {request : Request} {reply : Reply}
    (answered : (course request t).result = .ok (.answer reply)) :
    chain request t = [request] := by
  rw [chain, answered]

theorem exists_reply (s : Signature) (t : Table) :
    ∃ reply, (course (.trampoline s) t).result = .ok (.answer reply) := by
  obtain ⟨installed, answer, -⟩ := exists_looked s t
  refine ⟨.trampoline installed.serial, ?_⟩
  rw [course, Action.result_bind_pure, answer]
  rfl

def traffic : List Request → Table → List Request
  | [], _ => []
  | request :: rest, t => chain request t ++ traffic rest (next t request)

/-- An operation does to the table what the requests do that it leads to. -/
theorem next_eq_amid (request : Request) (t : Table) : next t request = t.amid (chain request t) := by
  rw [next, step, Action.state_bind, chain, amid_cons]
  cases (course request t).result with
  | error fault => rfl
  | ok start =>
    cases start with
    | answer reply => rfl
    | script script => exact (Action.state_bind_pure ..).trans (state_advance ..)

theorem reached_cons (request : Request) (rest : List Request) (t : Table) :
    reached (request :: rest) t = reached rest (next t request) := rfl

/-- Operations do to a table what all the requests do that they lead to. -/
theorem reached_eq_amid (requests : List Request) (t : Table) :
    reached requests t = t.amid (traffic requests t) := by
  induction requests generalizing t with
  | nil => rfl
  | cons request rest ih => rw [reached_cons, ih, traffic, amid_append, next_eq_amid]

theorem carry_done (result : Except Fault Value) (t : Table) :
    carry (.done result) t = ⟨result, t, []⟩ := by
  rw [carry, Progress.follow, advance_ended]
  rfl

/-- A call carries out the script that it leads to. -/
theorem call_eq_carry (s : Signature) (index : Nat) (arguments : List Value) (t : Table) :
    let start := approach s index arguments t
    (call s index arguments t).result = (carry (.ofStart start.result) start.state).result ∧
      (call s index arguments t).state = (carry (.ofStart start.result) start.state).state := by
  intro start
  rw [call, Action.result_bind, Action.state_bind]
  cases start.result with
  | ok script => exact ⟨rfl, rfl⟩
  | error fault =>
    rw [Script.ofStart, carry_done]
    exact ⟨rfl, rfl⟩

theorem next_call (s : Signature) (index : Nat) (arguments : List Value) (t : Table) :
    (step (.call s index arguments) t).result = (call s index arguments t).result.map .value ∧
      next t (.call s index arguments) = (call s index arguments t).state := by
  rw [next, step, call, Action.result_bind, Action.state_bind, Action.result_bind,
    Action.state_bind, result_course_call, state_course_call]
  cases (approach s index arguments t).result with
  | error fault => exact ⟨rfl, rfl⟩
  | ok script => exact ⟨Action.result_bind_pure .., Action.state_bind_pure ..⟩

end Table

end LinearHost
