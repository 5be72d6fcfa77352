import LinearHost.Text.Numeral

/-!
# Diagnostic entries

An entry records a condition that was noticed while the program ran, whether or not an operation
failed for it.

## Main definitions

* `Diagnostic`: severity, category, message and an optional location.
* `Diagnostic.text`: the line shown for an entry.
-/

namespace LinearHost

inductive Severity where
  | info
  | warning
  | error
deriving DecidableEq, Repr

def Severity.text : Severity → String
  | info => "INFO"
  | warning => "WARN"
  | error => "ERROR"

def Severity.all : List Severity := [info, warning, error]

def Severity.ofText? (text : String) : Option Severity :=
  all.find? (·.text = text)

/-- The part of the host that an entry comes from. -/
inductive Category where
  | memory
  | layout
  | numeric
  | dispatch
  | codec
  | general
deriving DecidableEq, Repr

def Category.text : Category → String
  | memory => "Memory"
  | layout => "Layout"
  | numeric => "Numeric"
  | dispatch => "Dispatch"
  | codec => "Codec"
  | general => "General"

def Category.all : List Category := [memory, layout, numeric, dispatch, codec, general]

def Category.ofText? (text : String) : Option Category :=
  all.find? (·.text = text)

structure Diagnostic where
  severity : Severity
  category : Category
  message : String
  address : Option Nat := none
  tableIndex : Option Nat := none
deriving DecidableEq, Repr

def Diagnostic.text (d : Diagnostic) : String :=
  let location := match d.address with
    | some address => s!" (address: 0x{Numeral.hexPadded 8 address})"
    | none => ""
  let function := match d.tableIndex with
    | some index => s!" (table index: {index})"
    | none => ""
  s!"[{d.severity.text}] {d.category.text}: {d.message}{location}{function}"

end LinearHost
