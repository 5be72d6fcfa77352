import LinearHost.Dispatch.Script

/-!
# The function table

Compiled code has no pointers to functions; it stores table indices. Every registration takes a slot
for the function and a padding slot after it, and the first two slots are reserved, so that
functions have even indices and index 0 names none.

## Main definitions

* `Slot`, `Table`: functions with what they remember, trampolines, and the record of the functions
  entered.
* `Table.register`, `Table.function?`: adding and finding functions.
* `Table.install`, `Table.trampoline`: the adapters of signatures.
* `Table.visit`, `Table.approach`: the script of a function, and the one that a call leads to.
* `Table.course`: what becomes of a request.
-/

namespace LinearHost

inductive Slot where
  /-- A registered function, with the arguments of its earlier calls, newest first. -/
  | function (f : Function) (history : List (List Value))
  | padding

/-- A trampoline in its place. The serial number tells one installation from another. -/
structure Installed where
  signature : String
  serial : Nat
  trampoline : Trampoline

structure Table where
  mode : DispatchMode
  slots : Array Slot := #[.padding, .padding]
  /-- The trampolines in place, one for each signature. -/
  trampolines : List Installed := []
  installations : Nat := 0
  /-- The indices of the functions entered, in order. -/
  visits : Array Nat := #[]

/-- What a request leads to: an answer, or a script that has to end first. -/
inductive Course where
  | answer (reply : Reply)
  | script (script : Script)

namespace Table

def reservedSlots : Nat := 2

def size (t : Table) : Nat := t.slots.size

def functionCount (t : Table) : Nat :=
  (t.size - reservedSlots) / 2

/-! ### Functions -/

/-- The table with a function in the next slot, and padding after it. -/
def add (t : Table) (f : Function) : Table :=
  { t with slots := (t.slots.push (.function f [])).push .padding }

def register (f : Function) : Action Table Nat := do
  let index := (← Action.get).size
  Action.modify fun t => t.add f
  Action.note (.functionRegistered index)
  return index

def function? (t : Table) (index : Nat) : Option Function :=
  match t.slots[index]? with
  | some (.function f _) => some f
  | _ => none

def get (t : Table) (index : Nat) : Except Fault Function :=
  match t.function? index with
  | some f => .ok f
  | none => .error (.invalidTableIndex index)

def contains (t : Table) (index : Nat) : Bool :=
  (t.function? index).isSome

/-- Enters the function at an index, which remembers the call, and answers its course. -/
def visit (index : Nat) (arguments : List Value) : Action Table Script := fun t =>
  match t.slots[index]? with
  | some (.function f history) =>
    let slots := t.slots.setIfInBounds index (.function f (arguments :: history))
    ⟨.ok (f.run history arguments), { t with slots, visits := t.visits.push index }, []⟩
  | _ => ⟨.error (.invalidTableIndex index), t, []⟩

/-! ### Trampolines -/

def installed? (t : Table) (text : String) : Option Installed :=
  t.trampolines.find? (·.signature = text)

/-- The table with a trampoline put in place of the one before it. -/
def place (t : Table) (text : String) (trampoline : Trampoline) : Table :=
  { t with
    trampolines :=
      { signature := text, serial := t.installations, trampoline } ::
        t.trampolines.filter (·.signature ≠ text)
    installations := t.installations + 1 }

def install (s : Signature) (trampoline : Trampoline) : Action Table Unit :=
  Action.modify fun t => t.place s.text trampoline

/-- The trampoline of a signature; the generic one is installed if there is none. -/
def trampoline (s : Signature) : Action Table Installed := do
  let t ← Action.get
  match t.installed? s.text with
  | some installed => return installed
  | none =>
    Action.modify fun t => t.place s.text .generic
    Action.note (.trampolineInstalled s.text)
    return { signature := s.text, serial := t.installations, trampoline := .generic }

/-! ### Requests -/

/-- The script that a call leads to: of the function itself, or of a trampoline on the way to it. -/
def approach (s : Signature) (index : Nat) (arguments : List Value) : Action Table Script := do
  Action.ofExcept (s.checkArguments arguments)
  match ← Action.gets Table.mode with
  | .direct => visit index arguments
  | .routed =>
    let installed ← trampoline s
    return installed.trampoline.run index arguments

def course : Request → Action Table Course
  | .register f => return .answer (.index (← register f))
  | .get index => do
    let t ← Action.get
    let _ ← Action.ofExcept (t.get index)
    return .answer .done
  | .enter index arguments => return .script (← visit index arguments)
  | .call s index arguments => return .script (← approach s index arguments)
  | .install s trampoline => do
    install s trampoline
    return .answer .done
  | .trampoline s => return .answer (.trampoline (← trampoline s).serial)
  | .look => do
    let t ← Action.get
    return .answer (.seen t.mode t.size t.trampolines.length)

def description (t : Table) : String :=
  s!"DispatchTable \x7b mode: {t.mode.name}, functions: {t.functionCount}, " ++
    s!"trampolines: {t.trampolines.length} \x7d"

end Table

end LinearHost
