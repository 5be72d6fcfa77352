import LinearHost.Arithmetic.WordPair
import LinearHost.Dispatch.Switchboard
import LinearHost.Layout.Offsets
import LinearHost.Memory.Frame
import LinearHost.Memory.Scalar
import LinearHost.Memory.Text

/-!
# The host

A host is what a compiled program talks to: it joins a linear memory, a registry of struct types and
a switchboard, and it keeps a slot of 8 bytes in static memory through which 64-bit results are
handed back. Its own operations are those of the parts, except that every failure is also recorded
as a diagnostic entry.

## Main definitions

* `Host`: the parts and the settings.
* `Host.recording`: records the fault of an action.
* `Host.allocate`, `Host.enter`, `Host.shift`, `Host.call`, `Host.storeText`, …: the operations.
-/

namespace LinearHost

structure Host where
  config : Config
  memory : Memory
  types : Registry
  /-- The function table, the wrappers over it and the diagnostics. -/
  switchboard : Switchboard
  scratch : Nat

def Fault.entry (fault : Fault) (category : Category) : Diagnostic where
  severity := .error
  category := category
  message := fault.message
  address := match fault with
    | invalidAddress address _ => some address
    | _ => none
  tableIndex := match fault with
    | invalidTableIndex index => some index
    | _ => none

namespace Host

variable {α : Type}

def diagnostics (h : Host) : Diagnostics := h.switchboard.diagnostics

def table (h : Host) : Table := h.switchboard.table

/-! ### Actions on the parts -/

def onMemory (x : Action Memory α) : Action Host α :=
  x.zoom Host.memory fun h memory => { h with memory }

def onTypes (x : Action Registry α) : Action Host α :=
  x.zoom Host.types fun h types => { h with types }

def onSwitchboard (x : Action Switchboard α) : Action Host α :=
  x.zoom Host.switchboard fun h switchboard => { h with switchboard }

def onTable (x : Action Table α) : Action Host α :=
  onSwitchboard (Switchboard.onTable x)

def onDiagnostics (x : Action Diagnostics α) : Action Host α :=
  onSwitchboard (Switchboard.onDiagnostics x)

/-- Runs an action and records its fault, if it fails, as an error of a category. -/
def recording (category : Category) (x : Action Host α) : Action Host α := do
  match ← x.attempt with
  | .ok a => return a
  | .error fault =>
    onDiagnostics (Diagnostics.push (fault.entry category))
    Action.fail fault

/-! ### Memory -/

def stackAlloc (size : Nat) : Action Host Nat :=
  recording .memory (onMemory (Memory.stackAlloc size))

/-- Takes a block of a region. Growth of the memory is recorded, whether or not the block fits
then. -/
def allocate (region : RegionKind) (size : Nat) : Action Host Nat := do
  let before := (← Action.get).memory.size
  let result ← (onMemory (Memory.allocate region size)).attempt
  let after := (← Action.get).memory.size
  if before < after then
    onDiagnostics
      (Diagnostics.report .info .memory
        s!"{region.text} region grew memory from {before} to {after} bytes")
  recording .memory (Action.ofExcept result)

def staticAlloc (size : Nat) : Action Host Nat :=
  allocate .static size

/-- Opens a frame, or skips it if it is empty and may be skipped. -/
def enter (initial : Nat) : Action Host Frame :=
  recording .memory (onMemory (Memory.enter initial))

def enterForced (initial : Nat) : Action Host Frame :=
  recording .memory (onMemory (Memory.enterForced initial))

def exit (frame : Frame) : Action Host Unit :=
  recording .memory (onMemory (Memory.exit frame))

def restore (top : Nat) : Action Host Unit :=
  recording .memory (onMemory (Memory.restore top))

/-! ### Struct types -/

def parseType (text : String) : Action Host Descriptor :=
  recording .layout do
    Action.ofExcept ((← Action.get).types.parseType text)

/-- Registers a struct whose field types are given as texts. -/
def registerStruct (name : String) (fields : List String) (packed : Bool) :
    Action Host StructType :=
  recording .layout do
    let types := (← Action.get).types
    let fields ← Action.ofExcept (fields.mapM types.parseType)
    onTypes (Registry.register name fields packed)

/-- Lays names over the fields of a registered struct that starts at `base`. -/
def resolve (names : List FieldName) (typeName : String) (base : Nat) : Action Host Offsets :=
  recording .layout do
    Action.ofExcept ((← Action.get).types.resolve names typeName base)

/-- The offsets of fields given by type text and name. -/
def inlineOffsets (fields : List (String × String)) : Action Host Offsets :=
  recording .layout do
    let h ← Action.get
    let typed ← Action.ofExcept (fields.mapM fun (type, name) => do
      return (← h.types.parseType type, name))
    return .inline typed h.config.quantum

/-! ### Numbers -/

/-- Aligns to `quantum`, or to the quantum of the host if that is 0. -/
def align (h : Host) (target quantum : Nat) : Nat :=
  h.config.quantum.alignWith target quantum

/-- Reads a signed number as unsigned, under the sign check of the settings. -/
def toUnsigned (value : Int64) (bits : Nat) : Action Host UInt64 :=
  recording .numeric do
    Action.ofExcept (LinearHost.toUnsigned value bits (← Action.get).config.signCheck)

/-- Reads an unsigned number as signed, under the sign check of the settings. -/
def toSigned (value : UInt64) (bits : Nat) : Action Host Int64 :=
  recording .numeric do
    Action.ofExcept (LinearHost.toSigned value bits (← Action.get).config.signCheck)

/-- Shifts a pair of words and leaves the result in the scratch slot as well. -/
def shift (w : WordPair) (op : ShiftOp) (bits : Nat) : Action Host WordPair :=
  recording .numeric do
    let shifted ← Action.ofExcept (w.shift op bits)
    onMemory (Memory.store (← Action.get).scratch (.i64 shifted))
    return shifted

/-! ### Functions -/

def registerFunction (f : Function) : Action Host Nat :=
  onTable (Table.register f)

/-- Calls a function of the table through the text of a signature. -/
def call (signature : String) (index : Nat) (arguments : List Value) : Action Host Value :=
  recording .dispatch do
    let signature ← Action.ofExcept (Signature.parse signature)
    onTable (Table.call signature index arguments)

def wrapper (index : Nat) (signature : String) : Action Host Wrapper :=
  recording .dispatch do
    let signature ← Action.ofExcept (Signature.parse signature)
    onSwitchboard (Switchboard.wrapper index signature)

/-- Calls a wrapped function. Only the caller learns of a failure. -/
def invoke (w : Wrapper) (arguments : List Value) : Action Host Unit :=
  onSwitchboard (Switchboard.invoke w arguments)

/-! ### Texts and diagnostics -/

def warnOnce (message : String) : Action Host Bool :=
  onDiagnostics (Diagnostics.warnOnce .general message)

/-- Puts a text, ended by a zero byte, into a block of a region. -/
def storeText (text : String) (region : RegionKind) : Action Host Nat := do
  let bytes := encode text ++ [0]
  let address ← allocate region bytes.length
  recording .codec (onMemory (Memory.write address bytes))
  return address

/-- The text at an address, which ends before a zero byte. -/
def loadText (address : Nat) : Action Host String :=
  recording .codec do
    Action.ofExcept ((← Action.get).memory.textAt address)

/-- Closes the host and hands back its diagnostics. -/
def finish : Action Host Diagnostics := do
  let diagnostics := (← Action.get).diagnostics
  if diagnostics.hasAny then
    Action.note (.closed diagnostics.summary)
  return diagnostics

end Host

end LinearHost
