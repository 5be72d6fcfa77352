import LinearHost.Proofs.Diagnostics.Once
import LinearHost.Proofs.Dispatch.Serving

/-!
# Operations on a switchboard

A switchboard hands requests on to its table; calling a wrapper is a call through the signature that
it is bound to. Asking for a wrapper finds one, builds one, or is refused.

## Main definitions

* `Switchboard.requests`, `Switchboard.traffic`: what operations on a switchboard ask of its table,
  and all that is served there on their account.
* `Switchboard.Wrapped`, `Switchboard.wrapper_cases`: what becomes of a request for a wrapper.
-/

namespace LinearHost

def BoardOperation.request? : BoardOperation → Option Request
  | .table request => some request
  | .wrapper .. => none
  | .invoke w arguments => some (.call w.signature w.index arguments)

namespace Switchboard

variable {s : Switchboard} {index : Nat}

def requests (ops : List BoardOperation) : List Request :=
  ops.filterMap BoardOperation.request?

/-- The requests that a table serves in the course of some operations, those of running calls
included. -/
def traffic (ops : List BoardOperation) (t : Table) : List Request :=
  Table.traffic (requests ops) t

/-! ### One operation -/

inductive Wrapped (s : Switchboard) (index : Nat) (signature : Signature) :
    Except Fault Wrapper → Switchboard → Prop where
  | again {w : Wrapper} (found : s.wrapper? index = some w) (same : w.signature = signature) :
      Wrapped s index signature (.ok w) s
  | warned {w : Wrapper} (found : s.wrapper? index = some w) (other : w.signature ≠ signature) :
      Wrapped s index signature (.ok w)
        { s with diagnostics := s.diagnostics.addOnce (conflict index w.signature signature) }
  | built (absent : s.wrapper? index = none) (known : s.table.contains index = true) :
      Wrapped s index signature (.ok ⟨s.built, index, signature⟩)
        { s with wrappers := s.wrappers ++ [⟨s.built, index, signature⟩], built := s.built + 1 }
  | refused (absent : s.wrapper? index = none) (unknown : s.table.contains index = false) :
      Wrapped s index signature (.error (.invalidTableIndex index)) s

theorem wrapper_refused (absent : s.wrapper? index = none)
    (unknown : s.table.contains index = false) (signature : Signature) :
    wrapper index signature s = ⟨.error (.invalidTableIndex index), s, []⟩ := by
  rw [wrapper, Action.get_bind_apply, absent]
  simp [Action.bind_apply, unknown]

/-- A request for a wrapper ends in one of these ways. -/
theorem wrapper_cases (index : Nat) (signature : Signature) (s : Switchboard) :
    ∃ result after, (wrapper index signature s).result = result ∧
      next s (.wrapper index signature) = after ∧ Wrapped s index signature result after := by
  refine ⟨_, _, rfl, rfl, ?_⟩
  rw [next, step, Action.state_bind_pure]
  cases found : s.wrapper? index with
  | some w =>
    rw [wrapper, Action.get_bind_apply, found]
    by_cases same : w.signature = signature
    · simpa [same] using Wrapped.again found same
    · have pushed := Diagnostics.pushOnce_apply (conflict index w.signature signature) s.diagnostics
      simpa [same, Action.bind_apply, onDiagnostics, pushed] using Wrapped.warned found same
  | none =>
    cases known : s.table.contains index with
    | false =>
      rw [wrapper_refused found known]
      exact .refused found known
    | true =>
      rw [wrapper, Action.get_bind_apply, found]
      simpa [build, Action.bind_apply, known] using Wrapped.built found known

/-- Calling a wrapper is a call through its signature whose value is dropped. -/
theorem invoke_apply (w : Wrapper) (arguments : List Value) (s : Switchboard) :
    let called := Table.call w.signature w.index arguments s.table
    invoke w arguments s =
      ⟨called.result.map fun _ => (), { s with table := called.state }, called.events⟩ := by
  cases called : Table.call w.signature w.index arguments s.table with
  | mk result after events =>
    cases result <;> simp [invoke, onTable, Action.bind_apply, called] <;> rfl

theorem next_table (s : Switchboard) (request : Request) :
    next s (.table request) = { s with table := Table.next s.table request } := by
  simp only [next, step, Action.state_bind_pure]
  rfl

theorem next_invoke (s : Switchboard) (w : Wrapper) (arguments : List Value) :
    next s (.invoke w arguments) =
      { s with table := Table.next s.table (.call w.signature w.index arguments) } := by
  have state : (step (.invoke w arguments) s).state = (invoke w arguments s).state :=
    Action.state_bind_pure ..
  rw [next, state, invoke_apply, (Table.next_call ..).2]

/-- Only requests of the table change it, made by the caller or through a wrapper. -/
theorem table_next (s : Switchboard) (op : BoardOperation) :
    (next s op).table = (op.request?.map (Table.next s.table)).getD s.table := by
  cases op with
  | table request => rw [next_table]; rfl
  | invoke w arguments => rw [next_invoke]; rfl
  | wrapper index signature =>
    obtain ⟨result, after, -, state, wrapped⟩ := wrapper_cases index signature s
    rw [state]
    cases wrapped <;> rfl

/-- Operations do to the table what the requests do that are served on their account. -/
theorem table_reached (ops : List BoardOperation) (s : Switchboard) :
    (reached ops s).table = s.table.amid (traffic ops s.table) := by
  rw [traffic, ← Table.reached_eq_amid]
  induction ops generalizing s with
  | nil => rfl
  | cons op rest ih =>
    have reached_cons : reached (op :: rest) s = reached rest (next s op) := rfl
    rw [reached_cons, ih, table_next, requests, requests, List.filterMap_cons]
    cases op.request? <;> rfl

end Switchboard

end LinearHost
