import LinearHost.Proofs.Dispatch.Board
import LinearHost.Proofs.Dispatch.Indices

/-!
# Failures before a function is entered

An operation that fails before it enters a function leaves wrappers and diagnostics as they were.
But a call that is routed by signature has looked a trampoline up by then, which puts the generic one
in place where there was none, and a trampoline of the caller's own may have made requests of all
kinds. So the table is as it was exactly if these requests neither register nor install anything, and
look up only such trampolines as were there.

## Main definitions

* `Table.sought`: the texts that requests look trampolines up for.
* `Table.installed?_amid_eq_iff`: when requests leave the trampoline of a text alone.
* `Table.slots_amid`: what requests that enter no function make of the slots.
* `Switchboard.failed_unentered_iff`: what a failed operation leaves behind.
-/

namespace LinearHost

namespace Table

variable {t u : Table} {request : Request} {requests : List Request} {text : String}
  {s : Signature} {index : Nat} {arguments : List Value}

/-! ### Trampolines -/

def sought (t : Table) (requests : List Request) : List String :=
  requests.filterMap (·.sought? t.mode)

theorem mem_sought_cons {rest : List Request} :
    text ∈ t.sought (request :: rest) ↔
      request.sought? t.mode = some text ∨ text ∈ (course request t).state.sought rest := by
  rw [sought, sought, mode_course, List.filterMap_cons]
  cases request.sought? t.mode with
  | none => simp
  | some other => simp [eq_comm]

theorem installations_course_le (request : Request) (t : Table) :
    t.installations ≤ (course request t).state.installations := by
  refine course_keeps (t := t) (motive := (t.installations ≤ installations ·)) (Nat.le_refl _)
    (fun f _ => Nat.le_refl _) (fun index arguments => ?_) (fun s adapter _ => Nat.le_succ _)
    fun s => ?_
  · simp [installations_visit]
  · obtain ⟨-, -, state⟩ | ⟨-, state⟩ := trampoline_cases s t
    · simp [state]
    · rw [state]
      exact Nat.le_succ _

/-- A trampoline that was put in place later than a number of others stands for a text. -/
def Renewed (count : Nat) (text : String) (t : Table) : Prop :=
  count ≤ t.installations ∧
    ∃ installed, t.installed? text = some installed ∧ count ≤ installed.serial

theorem renewed_place (t : Table) (text : String) (adapter : Trampoline) :
    (t.place text adapter).Renewed t.installations text :=
  ⟨Nat.le_succ _, _, (installed?_place ..).trans (if_pos rfl), Nat.le_refl _⟩

theorem Renewed.course {count : Nat} (renewed : t.Renewed count text) (request : Request) :
    (course request t).state.Renewed count text := by
  obtain ⟨counted, installed, found, late⟩ := renewed
  refine ⟨Nat.le_trans counted (installations_course_le request t), ?_⟩
  cases installs : request.installed? text with
  | none => exact ⟨installed, installed?_course found installs, late⟩
  | some adapter =>
    cases request with
    | install s adapter =>
      obtain ⟨rfl, -⟩ := Option.ite_none_right_eq_some.mp installs
      exact ⟨_, (installed?_place ..).trans (if_pos rfl), counted⟩
    | _ => cases installs

/-- Whatever requests follow, what stands for the text was put in place since. -/
theorem Renewed.amid {count : Nat} (renewed : t.Renewed count text) (requests : List Request) :
    (t.amid requests).Renewed count text :=
  List.foldlRecOn requests _ renewed fun _ renewed request _ => renewed.course request

/-- A trampoline put in place since is another one than before. -/
theorem Renewed.installed?_ne (renewed : u.Renewed t.installations text) (counted : t.Counted) :
    u.installed? text ≠ t.installed? text := by
  obtain ⟨-, installed, found, late⟩ := renewed
  intro same
  exact Nat.not_lt_of_le late (counted text installed (same ▸ found))

/-- A request that installs a trampoline for a text, or looks one up that is not there, puts a new
one in place. -/
theorem renewed_course
    (touched : request.installed? text ≠ none ∨
      request.sought? t.mode = some text ∧ t.installed? text = none) :
    (course request t).state.Renewed t.installations text := by
  have placed (s : Signature) (same : s.text = text) (absent : t.installed? text = none) :
      (trampoline s t).state.Renewed t.installations text := by
    subst same
    rw [trampoline_of_none absent]
    exact renewed_place t s.text .generic
  cases request with
  | install s adapter =>
    obtain installs | ⟨⟨⟩, -⟩ := touched
    rw [state_course_install]
    obtain rfl : s.text = text :=
      Decidable.byContradiction fun other => installs (if_neg other)
    exact renewed_place t s.text adapter
  | call s index arguments =>
    obtain installs | ⟨seeks, absent⟩ := touched
    · exact (installs rfl).elim
    obtain ⟨⟨routed, fit⟩, same⟩ := Option.ite_none_right_eq_some.mp seeks
    rw [state_course_call, approach_routed routed fit]
    exact placed s (Option.some.inj same) absent
  | trampoline s =>
    obtain installs | ⟨seeks, absent⟩ := touched
    · exact (installs rfl).elim
    rw [state_course_trampoline]
    exact placed s (Option.some.inj seeks) absent
  | register f | get index | enter index arguments | look =>
    obtain installs | ⟨⟨⟩, -⟩ := touched
    exact (installs rfl).elim

/-- Requests leave the trampoline of a text alone exactly if none of them installs one, and none
looks it up unless it is there. -/
theorem installed?_amid_eq_iff (counted : t.Counted) (requests : List Request) (text : String) :
    (t.amid requests).installed? text = t.installed? text ↔
      (∀ request ∈ requests, request.installed? text = none) ∧
        (text ∈ t.sought requests → t.installed? text ≠ none) := by
  induction requests generalizing t with
  | nil => simp [amid, sought]
  | cons request rest ih =>
    rw [amid_cons, List.forall_mem_cons, mem_sought_cons]
    by_cases touched : request.installed? text ≠ none ∨
        request.sought? t.mode = some text ∧ t.installed? text = none
    · refine iff_of_false (((renewed_course touched).amid rest).installed?_ne counted) ?_
      rintro ⟨⟨uninstalled, -⟩, there⟩
      obtain installs | ⟨seeks, absent⟩ := touched
      · exact installs uninstalled
      · exact there (.inl seeks) absent
    · obtain ⟨uninstalled, known⟩ := not_or.mp touched
      have uninstalled : request.installed? text = none := Decidable.not_not.mp uninstalled
      have same : (course request t).state.installed? text = t.installed? text := by
        cases found : t.installed? text with
        | some installed => exact installed?_course found uninstalled
        | none =>
          rw [← found]
          exact installed?_course_of_not_sought (fun seeks => known ⟨seeks, found⟩) uninstalled
      rw [← same, ih (counted.course request), same]
      constructor
      · rintro ⟨others, there⟩
        refine ⟨⟨uninstalled, others⟩, ?_⟩
        rintro (seeks | mem)
        · exact fun absent => known ⟨seeks, absent⟩
        · exact there mem
      · rintro ⟨⟨-, others⟩, there⟩
        exact ⟨others, fun mem => there (.inr mem)⟩

/-! ### Slots -/

/-- No request takes back that a function was entered. -/
theorem size_visits_amid_le (requests : List Request) (t : Table) :
    t.visits.size ≤ (t.amid requests).visits.size := by
  induction requests generalizing t with
  | nil => exact Nat.le_refl _
  | cons request rest ih =>
    refine Nat.le_trans ?_ (ih (course request t).state)
    refine course_keeps (t := t) (motive := fun u => t.visits.size ≤ u.visits.size)
      (Nat.le_refl _) (fun f _ => Nat.le_refl _) (fun index arguments => ?_)
      (fun s adapter _ => Nat.le_refl _) fun s => ?_
    · obtain ⟨-, state⟩ | ⟨f, history, -, state⟩ := visit_cases t index arguments
      · simp [state]
      · simp [state]
    · simp [visits_trampoline]

/-- If some requests enter no function, neither the first nor the others do. -/
theorem visits_course (unentered : (t.amid (request :: requests)).visits = t.visits) :
    (course request t).state.visits = t.visits ∧
      ((course request t).state.amid requests).visits = (course request t).state.visits := by
  have rest : ((course request t).state.amid requests).visits = t.visits := unentered
  have more := size_visits_amid_le requests (course request t).state
  have first : (course request t).state.visits = t.visits := by
    refine course_keeps (t := t)
      (motive := fun u => u.visits.size ≤ t.visits.size → u.visits = t.visits) (fun _ => rfl)
      (fun f _ _ => rfl) (fun index arguments fewer => ?_) (fun s adapter _ _ => rfl)
      (fun s _ => visits_trampoline s t) (rest ▸ more)
    obtain ⟨-, state⟩ | ⟨f, history, -, state⟩ := visit_cases t index arguments
    · rw [state]
    · rw [state, Array.size_push] at fewer
      exact absurd fewer (Nat.not_succ_le_self _)
  exact ⟨first, rest.trans first.symm⟩

/-- Nothing can be entered at an index where no function was entered. -/
theorem function?_of_unentered (unentered : (visit index arguments t).state.visits = t.visits) :
    t.function? index = none := by
  obtain ⟨absent, -⟩ | ⟨f, history, -, state⟩ := visit_cases t index arguments
  · exact absent
  · rw [state] at unentered
    have size := congrArg Array.size unentered
    simp at size

/-- A request that enters no function leaves the slots alone, or adds a function to them. -/
theorem slots_course (unentered : (course request t).state.visits = t.visits) :
    (course request t).state.slots = (request.registered?.toList.foldl add t).slots := by
  cases request with
  | register f => rfl
  | _ =>
    refine course_keeps (t := t) (motive := fun u => u.visits = t.visits → u.slots = t.slots)
      (fun _ => rfl) (by rintro f ⟨⟩) (fun index arguments still => ?_) (fun s adapter _ _ => rfl)
      (fun s _ => slots_trampoline s t) unentered
    rw [visit_of_none (function?_of_unentered still)]

theorem slots_foldl_add (same : t.slots = u.slots) (functions : List Function) :
    (functions.foldl add t).slots = (functions.foldl add u).slots := by
  induction functions generalizing t u with
  | nil => exact same
  | cons f rest ih =>
    refine ih ?_
    rw [add, add, same]

theorem size_foldl_add (functions : List Function) (t : Table) :
    (functions.foldl add t).size = t.size + 2 * functions.length := by
  induction functions generalizing t with
  | nil => rfl
  | cons f rest ih =>
    rw [List.foldl_cons, ih, size_add, List.length_cons]
    omega

/-- Requests that enter no function do nothing to the slots but to add the functions that they
register. -/
theorem slots_amid (unentered : (t.amid requests).visits = t.visits) :
    (t.amid requests).slots = ((registered requests).foldl add t).slots := by
  induction requests generalizing t with
  | nil => rfl
  | cons request rest ih =>
    obtain ⟨first, others⟩ := visits_course unentered
    rw [amid_cons, ih others, registered_cons, List.foldl_append]
    exact slots_foldl_add (slots_course first) _

/-- The slots are as before exactly if nothing was registered. -/
theorem slots_amid_eq_iff (unentered : (t.amid requests).visits = t.visits) :
    (t.amid requests).slots = t.slots ↔ registered requests = [] := by
  rw [slots_amid unentered]
  constructor
  · intro same
    have more := size_foldl_add (registered requests) t
    rw [size, size, same] at more
    exact List.length_eq_zero_iff.mp (by omega)
  · intro none
    rw [none]
    rfl

/-! ### What a call asks for -/

/-- A request that fails before a function is entered, and is no routed call with arguments that
fit, changes nothing. -/
theorem amid_chain_of_unrouted {fault : Fault} (failed : (step request t).result = .error fault)
    (unentered : (t.amid (chain request t)).visits = t.visits)
    (unrouted : ∀ s index arguments, request = .call s index arguments →
      t.mode = .direct ∨ arguments.length ≠ s.arity - 1) :
    t.amid (chain request t) = t := by
  have first := (visits_course unentered).1
  cases request with
  | register f | install s adapter | look => cases failed
  | trampoline s =>
    obtain ⟨reply, answered⟩ := exists_reply s t
    rw [step, Action.result_bind, answered] at failed
    cases failed
  | get index =>
    rw [chain, amid_cons, state_course_get]
    cases known : t.get index <;> simp [course, Action.bind_apply, known, amid]
  | enter index arguments =>
    rw [state_course_enter] at first
    have absent := function?_of_unentered first
    have refused : (course (.enter index arguments) t).result =
        .error (.invalidTableIndex index) := by
      rw [result_course_enter, visit_of_none absent]
      rfl
    rw [chain_of_error refused, amid_cons, state_course_enter, visit_of_none absent]
    rfl
  | call s index arguments =>
    obtain ⟨fault, refused⟩ : ∃ fault, approach s index arguments t = ⟨.error fault, t, []⟩ := by
      by_cases fit : arguments.length = s.arity - 1
      · have direct : t.mode = .direct := (unrouted s index arguments rfl).resolve_right (· fit)
        rw [state_course_call, approach_direct direct fit] at first
        rw [approach_direct direct fit, visit_of_none (function?_of_unentered first)]
        exact ⟨_, rfl⟩
      · exact ⟨_, approach_unfit fit⟩
    have answer : (course (.call s index arguments) t).result = .error fault := by
      rw [result_course_call, refused]
      rfl
    rw [chain_of_error answer, amid_cons, state_course_call, refused]
    rfl

/-- The generic trampoline asks for the function and for nothing else. -/
theorem chain_generic (routed : t.mode = .routed) (fit : arguments.length = s.arity - 1)
    (generic : t.route s.text = .generic)
    (unentered : (t.amid (chain (.call s index arguments) t)).visits = t.visits) :
    chain (.call s index arguments) t = [.call s index arguments, .enter index arguments] := by
  obtain ⟨limit, callLimit_eq⟩ := exists_callLimit
  have leads : (course (.call s index arguments) t).result =
      .ok (.script (Trampoline.generic.run index arguments)) := by
    rw [result_course_call, approach_routed routed fit, generic]
    rfl
  have looked : (course (.call s index arguments) t).state = (trampoline s t).state := by
    rw [state_course_call, approach_routed routed fit]
  rw [chain, leads, looked] at unentered ⊢
  simp only [follow_generic, callLimit_eq, served] at unentered ⊢
  -- the second request enters nothing either, so it is turned away
  obtain ⟨-, rest⟩ := visits_course unentered
  obtain ⟨second, -⟩ := visits_course rest
  rw [looked, state_course_enter] at second
  rw [result_course_enter, visit_of_none (function?_of_unentered second),
    Progress.resume_map_script]
  simp only [Script.ofStart, Progress.follow, Except.map, Script.relay, served_ended]

end Table

/-! ### Operations on a switchboard -/

/-- The requests that an operation makes of the table, with those that they lead to. -/
def BoardOperation.made (op : BoardOperation) (t : Table) : List Request :=
  op.request?.elim [] (Table.chain · t)

namespace Switchboard

open Table (registered latest?)

variable {s : Switchboard} {op : BoardOperation} {fault : Fault}

/-- A failed operation changes nothing but what the requests that it made have changed. -/
theorem next_of_failed (failed : (step op s).result = .error fault) :
    next s op = { s with table := s.table.amid (op.made s.table) } := by
  cases op with
  | table request =>
    rw [next_table, Table.next_eq_amid]
    rfl
  | wrapper index signature =>
    obtain ⟨result, after, answer, state, wrapped⟩ := wrapper_cases index signature s
    rw [step, Action.result_bind_pure, answer] at failed
    rw [state]
    cases wrapped with
    | again | warned | built => cases failed
    | refused => rfl
  | invoke w arguments =>
    rw [next_invoke, Table.next_eq_amid]
    rfl

theorem eq_error_of_map {α β : Type} {f : α → β} {x : Except Fault α}
    (failed : x.map f = .error fault) : x = .error fault := by
  cases x with
  | error other =>
    cases failed
    rfl
  | ok a => cases failed

/-- An operation fails with the request that it makes. -/
theorem step_request_of_failed {request : Request} (asks : op.request? = some request)
    (failed : (step op s).result = .error fault) :
    (Table.step request s.table).result = .error fault := by
  cases op with
  | table request =>
    cases asks
    rw [step, Action.result_bind_pure] at failed
    exact eq_error_of_map failed
  | wrapper index signature => cases asks
  | invoke w arguments =>
    cases asks
    have answer : (step (.invoke w arguments) s).result =
        (invoke w arguments s).result.map fun _ => .done := Action.result_bind_pure ..
    rw [answer, invoke_apply] at failed
    rw [(Table.next_call ..).1, eq_error_of_map (eq_error_of_map failed)]
    rfl

/-- After any operations, one that fails before it enters a function leaves the wrappers and the
diagnostics as they were. The slots are as before exactly if the requests that it made register
nothing, and the trampoline of a text is exactly if they install none for it and do not look it up
where there is none. What they did register and install is there afterwards. An operation that is no
routed call with arguments that fit makes no such requests, and leaves all as it was; a routed call
to an index without a function, whose signature has the generic trampoline or none, asks for the
trampoline and the function only. -/
theorem failed_unentered_iff (mode : DispatchMode) (d : Diagnostics) (ops : List BoardOperation)
    (op : BoardOperation)
    (failed : (step op (reached ops { table := { mode }, diagnostics := d })).result =
      .error fault)
    (unentered :
      (step op (reached ops { table := { mode }, diagnostics := d })).state.table.visits =
        (reached ops { table := { mode }, diagnostics := d }).table.visits) :
    let s := reached ops { table := { mode }, diagnostics := d }
    let after := (step op s).state
    let made := op.made s.table
    after = { s with table := after.table } ∧
      (after.table.slots = ((registered made).foldl Table.add s.table).slots ∧
        (after.table.slots = s.table.slots ↔ registered made = [])) ∧
      (∀ text, after.table.route text = (latest? text made).getD (s.table.route text) ∧
        (after.table.installed? text = s.table.installed? text ↔
          (∀ request ∈ made, request.installed? text = none) ∧
            (text ∈ s.table.sought made → s.table.installed? text ≠ none))) ∧
      ((∀ signature index arguments, op.request? = some (.call signature index arguments) →
        mode = .direct ∨ arguments.length ≠ signature.arity - 1) → after = s) ∧
      ∀ signature index arguments, op.request? = some (.call signature index arguments) →
        mode = .routed → arguments.length = signature.arity - 1 →
        s.table.route signature.text = .generic →
        made = [.call signature index arguments, .enter index arguments] := by
  intro s after made
  have state : after = { s with table := s.table.amid made } := next_of_failed failed
  have reached_eq : s.table = ({ mode } : Table).amid (traffic ops { mode }) := table_reached ops _
  have counted : s.table.Counted := reached_eq ▸ (Table.counted_empty mode).amid _
  have mode_eq : s.table.mode = mode := reached_eq ▸ Table.mode_amid _ _
  have table : after.table = s.table.amid made := by rw [state]
  have still : (s.table.amid made).visits = s.table.visits := table ▸ unentered
  rw [table]
  refine ⟨state, ⟨Table.slots_amid still, Table.slots_amid_eq_iff still⟩, fun text =>
    ⟨Table.route_amid made s.table text, Table.installed?_amid_eq_iff counted made text⟩, ?_, ?_⟩
  · intro unrouted
    have nothing : s.table.amid made = s.table := by
      cases asks : op.request? with
      | none => simp only [made, BoardOperation.made, asks, Option.elim_none, Table.amid,
          List.foldl_nil]
      | some request =>
        simp only [made, BoardOperation.made, asks, Option.elim_some] at still ⊢
        refine Table.amid_chain_of_unrouted (step_request_of_failed asks failed) still ?_
        rintro signature index arguments rfl
        rw [mode_eq]
        exact unrouted signature index arguments asks
    rw [state, nothing]
  · intro signature index arguments asks routed fit generic
    have made_eq : made = Table.chain (.call signature index arguments) s.table := by
      simp only [made, BoardOperation.made, asks, Option.elim_some]
    rw [made_eq] at still ⊢
    exact Table.chain_generic (mode_eq.trans routed) fit generic still

/-- A wrapper whose trampoline registers a function and calls an unknown index through another
signature. -/
theorem failed_unentered_iff_detour :
    let v : Signature := ⟨"v", .void, []⟩
    let i : Signature := ⟨"i", .i32, []⟩
    let f := Function.ofPure fun _ => .ok .void
    let detour : Trampoline :=
      ⟨fun _ arguments => .ask (.register f) fun _ => .forward (.call i 9 arguments)⟩
    let ops : List BoardOperation :=
      [.table (.register f), .wrapper 2 v, .table (.install v detour)]
    let s := reached ops { table := { mode := .routed } }
    let after := step (.invoke ⟨0, 2, v⟩ []) s
    after.result = .error (.invalidTableIndex 9) ∧ after.state.table.visits = s.table.visits ∧
      after.state.wrappers = s.wrappers ∧ after.state.table.slots ≠ s.table.slots ∧
      after.state.table.installed? "v" = s.table.installed? "v" ∧
      after.state.table.installed? "i" ≠ s.table.installed? "i" := by
  intro v i f detour ops
  have failed :
      (step (.invoke ⟨0, 2, v⟩ []) (reached ops { table := { mode := .routed } })).result =
        .error (.invalidTableIndex 9) := rfl
  have unentered :
      (step (.invoke ⟨0, 2, v⟩ [])
          (reached ops { table := { mode := .routed } })).state.table.visits =
        (reached ops { table := { mode := .routed } }).table.visits := by decide +kernel
  obtain ⟨state, ⟨-, slots⟩, texts, -, -⟩ :=
    failed_unentered_iff .routed {} ops (.invoke ⟨0, 2, v⟩ []) failed unentered
  refine ⟨failed, unentered, ?_, fun same => ?_, ?_, fun same => ?_⟩
  · rw [state]
  · have none := congrArg List.length (slots.mp same)
    revert none
    decide +kernel
  · refine (texts "v").2.mpr ⟨Table.latest?_eq_none_iff.mp ?_, fun _ => ?_⟩
    · exact Option.isNone_iff_eq_none.mp (by decide +kernel)
    · exact Option.isSome_iff_ne_none.mp (by decide +kernel)
  · have known := ((texts "i").2.mp same).2 (by decide +kernel)
    exact known (Option.isNone_iff_eq_none.mp (by decide +kernel))

/-- A call to an unknown index puts the generic trampoline of its signature in place. -/
theorem failed_call_installs :
    let s : Switchboard := { table := { mode := .routed } }
    let after := step (.table (.call ⟨"i", .i32, []⟩ 2 [])) s
    after.result = .error (.invalidTableIndex 2) ∧ after.state.table.visits = s.table.visits ∧
      s.table.trampolines = [] ∧ after.state.table.trampolines = [⟨"i", 0, .generic⟩] :=
  ⟨rfl, rfl, rfl, rfl⟩

end Switchboard

end LinearHost
