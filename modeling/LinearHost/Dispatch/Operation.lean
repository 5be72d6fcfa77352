import LinearHost.Dispatch.Switchboard

/-!
# Operations on a switchboard

Every operation on a switchboard as a value, so that its past is a list of operations. What a caller
can do to the table is what a script can ask for.

## Main definitions

* `Table.step`, `Table.reached`: carrying out one request, and where a list of requests leads.
* `BoardOperation`, `BoardAnswer`: the operations on a switchboard and what they answer.
* `Switchboard.step`, `Switchboard.reached`: carrying out one operation, and a list of them.
-/

namespace LinearHost

namespace Table

/-- Serves a request and all those that it leads to. -/
def step (request : Request) : Action Table Reply := do
  match ← course request with
  | .answer reply => return reply
  | .script script => return .value (← carry script)

/-- The table after one request. -/
def next (t : Table) (request : Request) : Table := (step request t).state

/-- The table after some requests, whether they fail or not. -/
def reached (requests : List Request) (t : Table) : Table := requests.foldl next t

end Table

inductive BoardOperation where
  | table (request : Request)
  | wrapper (index : Nat) (s : Signature)
  | invoke (w : Wrapper) (arguments : List Value)

inductive BoardAnswer where
  | done
  | table (reply : Reply)
  | wrapper (w : Wrapper)

namespace Switchboard

def step : BoardOperation → Action Switchboard BoardAnswer
  | .table request => return .table (← onTable (Table.step request))
  | .wrapper index s => return .wrapper (← wrapper index s)
  | .invoke w arguments => do invoke w arguments; return .done

/-- The switchboard after one operation. -/
def next (s : Switchboard) (op : BoardOperation) : Switchboard := (step op s).state

/-- The switchboard after some operations, whether they fail or not. -/
def reached (ops : List BoardOperation) (s : Switchboard) : Switchboard := ops.foldl next s

end Switchboard

end LinearHost
