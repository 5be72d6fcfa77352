import LinearHost.Action

/-!
# Collected diagnostics

Entries are passed on to a sink and then kept in order. An entry can be asked to appear only once;
what counts then is its message.

## Main definitions

* `Sink`: where entries go as they arrive.
* `Diagnostics.push`, `Diagnostics.pushOnce`: recording an entry.
* `Diagnostics.summary`: a report of the errors and warnings.
-/

namespace LinearHost

inductive Sink where
  | journal
  /-- To a recorder, which holds what it received, oldest first. -/
  | recorder (received : List Diagnostic)
deriving DecidableEq, Repr

structure Diagnostics where
  entries : List Diagnostic := []
  /-- The messages of the entries that were asked to appear only once, oldest first. -/
  seen : List String := []
  sink : Sink := .journal
deriving DecidableEq, Repr

def Sink.receive (entry : Diagnostic) : Sink → Sink
  | journal => journal
  | recorder received => recorder (received ++ [entry])

namespace Diagnostics

def add (d : Diagnostics) (entry : Diagnostic) : Diagnostics :=
  { d with entries := d.entries ++ [entry], sink := d.sink.receive entry }

def push (entry : Diagnostic) : Action Diagnostics Unit := do
  let d ← Action.get
  Action.set (d.add entry)
  match d.sink with
  | .journal => Action.note (.reported entry)
  | .recorder _ => return

/-- Records an entry unless one with its message was recorded in this way before; tells whether it
was recorded. -/
def pushOnce (entry : Diagnostic) : Action Diagnostics Bool := do
  if (← Action.get).seen.contains entry.message then
    return false
  else
    Action.modify fun d => { d with seen := d.seen ++ [entry.message] }
    push entry
    return true

def report (severity : Severity) (category : Category) (message : String) :
    Action Diagnostics Unit :=
  push { severity, category, message }

/-- Records a warning unless its message was recorded in this way before. -/
def warnOnce (category : Category) (message : String) : Action Diagnostics Bool :=
  pushOnce { severity := .warning, category, message }

def count (d : Diagnostics) : Nat := d.entries.length

def ofSeverity (d : Diagnostics) (severity : Severity) : List Diagnostic :=
  d.entries.filter (·.severity = severity)

def ofCategory (d : Diagnostics) (category : Category) : List Diagnostic :=
  d.entries.filter (·.category = category)

def countOf (d : Diagnostics) (severity : Severity) : Nat :=
  (d.ofSeverity severity).length

def hasAny (d : Diagnostics) : Bool := 0 < d.count

/-- Tells whether there is an entry of a severity. -/
def has (d : Diagnostics) (severity : Severity) : Bool :=
  d.entries.any (·.severity = severity)

/-- The entries of a severity under a heading; nothing if there are none. -/
def listing (d : Diagnostics) (severity : Severity) : String :=
  match d.ofSeverity severity with
  | [] => ""
  | entries =>
    s!"\n{severity.text}:\n" ++ String.join (entries.map fun entry => s!"  {entry.text}\n")

/-- The number of entries by severity, the errors and the warnings. -/
def summary (d : Diagnostics) : String :=
  s!"Diagnostics: {d.countOf .error} error(s), {d.countOf .warning} warning(s), " ++
    s!"{d.countOf .info} info(s)\n" ++ d.listing .error ++ d.listing .warning

def description (d : Diagnostics) : String :=
  s!"Diagnostics \x7b entries: {d.count}, seen: {d.seen.length}, .. \x7d"

end Diagnostics

end LinearHost
