import LinearHost.Diagnostics.Basic
import LinearHost.Dispatch.Call

/-!
# The switchboard

A function of the table can be handed out as a wrapper, bound to its index and to a signature. There
is one wrapper for each index: a later request with another signature gets the first wrapper again,
and a warning is recorded once.

## Main definitions

* `Wrapper`: a callable bound to an index.
* `Switchboard`: a table, the wrappers over it and the diagnostics that they warn into.
* `Switchboard.wrapper`, `Switchboard.invoke`: handing out and calling a wrapper.
-/

namespace LinearHost

/-- A callable bound to a table index and a signature. The serial number tells whether two of them
are the same object. -/
structure Wrapper where
  serial : Nat
  index : Nat
  signature : Signature
deriving DecidableEq, Repr

def Wrapper.description (w : Wrapper) : String :=
  s!"FuncWrapper \x7b index: {w.index}, signature: \"{w.signature.text}\" \x7d"

structure Switchboard where
  table : Table
  /-- The wrappers handed out, oldest first, one for each index. -/
  wrappers : List Wrapper := []
  /-- The number of wrappers built so far, whether they were kept or not. -/
  built : Nat := 0
  diagnostics : Diagnostics := {}

namespace Switchboard

variable {α : Type}

def onTable (x : Action Table α) : Action Switchboard α :=
  x.zoom Switchboard.table fun s table => { s with table }

def onDiagnostics (x : Action Diagnostics α) : Action Switchboard α :=
  x.zoom Switchboard.diagnostics fun s diagnostics => { s with diagnostics }

def wrapper? (s : Switchboard) (index : Nat) : Option Wrapper :=
  s.wrappers.find? (·.index = index)

/-- The warning about a wrapper that was requested through another signature. -/
def conflict (index : Nat) (bound requested : Signature) : Diagnostic where
  severity := .warning
  category := .dispatch
  message :=
    s!"function {index} wrapped as '{bound.text}' but requested as '{requested.text}'"
  tableIndex := some index

/-- Makes a new wrapper and keeps it. -/
def build (index : Nat) (signature : Signature) : Action Switchboard Wrapper := do
  let w : Wrapper := { serial := (← Action.get).built, index, signature }
  Action.modify fun s => { s with wrappers := s.wrappers ++ [w], built := s.built + 1 }
  return w

/-- The wrapper of an index, which has to name a function; it is built on the first request. -/
def wrapper (index : Nat) (signature : Signature) : Action Switchboard Wrapper := do
  let s ← Action.get
  match s.wrapper? index with
  | some w =>
    if w.signature ≠ signature then
      let _ ← onDiagnostics (Diagnostics.pushOnce (conflict index w.signature signature))
    return w
  | none =>
    Action.require (s.table.contains index) (.invalidTableIndex index)
    build index signature

/-- Calls a wrapped function and drops its value. -/
def invoke (w : Wrapper) (arguments : List Value) : Action Switchboard Unit := do
  let _ ← onTable (Table.call w.signature w.index arguments)
  return

def wrapperDescription (s : Switchboard) : String :=
  s!"FuncWrapperCache \x7b wrappers: {s.wrappers.length}, .. \x7d"

end Switchboard

end LinearHost
