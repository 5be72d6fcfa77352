import LinearHost.Dispatch.Table

/-!
# Calls through the table

A call may ask for a further call before it ends, and that one for another. The calls that wait for
a result stand in a row, innermost first, so that nesting is limited by nothing but the number of
requests.

## Main definitions

* `Progress`: where a row of nested calls stands.
* `Progress.follow`: runs the scripts in the row until one of them asks for something.
* `Table.advance`: serves the requests that are made until the outermost call ends.
* `Table.call`, `Table.enter`: a call through a signature, and of a function itself.
-/

namespace LinearHost

inductive Progress where
  | ended (result : Except Fault Value)
  /-- A script has made a request and goes on with the answer. The calls that wait for the script
  go on with its result, innermost first. -/
  | asking (request : Request) (next : Except Fault Reply → Script)
      (waiting : List (Except Fault Reply → Script))

namespace Progress

/-- Runs a script, and those that wait for its result, until one of them asks for something. -/
def follow (script : Script) (waiting : List (Except Fault Reply → Script)) : Progress :=
  match script, waiting with
  | .ask request next, waiting => .asking request next waiting
  | .done result, [] => .ended result
  | .done result, next :: waiting => follow (next (result.map .value)) waiting

/-- Goes on after a request: with its answer, or first with the script that it leads to. -/
def resume (start : Except Fault Course) (next : Except Fault Reply → Script)
    (waiting : List (Except Fault Reply → Script)) : Progress :=
  match start with
  | .ok (.script script) => follow script (next :: waiting)
  | .ok (.answer reply) => follow (next (.ok reply)) waiting
  | .error fault => follow (next (.error fault)) waiting

end Progress

namespace Table

/-- Serves up to `limit` requests, or as many as it takes to end the outermost call. The events noted
before are given newest first. -/
def advance : (limit : Nat) → Progress → (noted : List Event) → Action Table Value
  | _, .ended result, noted, t => ⟨result, t, noted.reverse⟩
  | 0, .asking .., noted, t => ⟨.error (.assertion .endlessCall), t, noted.reverse⟩
  | limit + 1, .asking request next waiting, noted, t =>
    let start := course request t
    advance limit (.resume start.result next waiting) (start.events.reverse ++ noted) start.state

/-- More requests than a host can serve; a call that makes more does not end. -/
def callLimit : Nat := 1 <<< 62

/-- Carries out a script and all that it asks for. -/
def carry (script : Script) : Action Table Value :=
  advance callLimit (.follow script []) []

def enter (index : Nat) (arguments : List Value) : Action Table Value := do
  carry (← visit index arguments)

/-- Calls the function at an index through a signature. -/
def call (s : Signature) (index : Nat) (arguments : List Value) : Action Table Value := do
  carry (← approach s index arguments)

end Table

end LinearHost
