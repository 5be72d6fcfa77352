import LinearHost.Host.Basic

/-!
# Building a host

A builder collects settings, later ones replacing earlier ones. Nothing is checked until the host is
built.

## Main definitions

* `Builder.Setting`, `Builder.apply`: the settings and what each of them changes.
* `Builder.build`: the host for the settings, if they agree.
-/

namespace LinearHost

structure Builder where
  config : Config := {}
  /-- A quantum in bytes that was asked for and not checked yet. -/
  quantum : Option Nat := none
  grower : Option Grower := none
  sink : Option Sink := none

namespace Builder

inductive Setting where
  | config (c : Config)
  | debug
  | release
  | quantum (bytes : Nat)
  | checks (c : Checks)
  | enable (c : Checks)
  | disable (c : Checks)
  | dispatch (mode : DispatchMode)
  | stackSize (bytes : Nat)
  | initialMemory (bytes : Nat)
  | maxMemory (bytes : Nat)
  | grower (g : Grower)
  | sink (s : Sink)

def modifyConfig (b : Builder) (f : Config → Config) : Builder :=
  { b with config := f b.config }

def modifySizes (b : Builder) (f : MemorySizes → MemorySizes) : Builder :=
  b.modifyConfig fun c => { c with memory := f c.memory }

def modifyChecks (b : Builder) (f : Checks → Checks) : Builder :=
  b.modifyConfig fun c => { c with checks := f c.checks }

def apply (b : Builder) : Setting → Builder
  | .config c => { b with config := c, quantum := none }
  | .debug => b.modifyChecks fun _ => .debug
  | .release => b.modifyChecks fun _ => .release
  | .quantum bytes => { b with quantum := some bytes }
  | .checks c => b.modifyChecks fun _ => c
  | .enable c => b.modifyChecks (·.union c)
  | .disable c => b.modifyChecks (·.diff c)
  | .dispatch mode => b.modifyConfig fun c => { c with dispatch := mode }
  | .stackSize bytes => b.modifySizes fun sizes => { sizes with stack := bytes }
  | .initialMemory bytes => b.modifySizes fun sizes => { sizes with initial := bytes }
  | .maxMemory bytes => b.modifySizes fun sizes => { sizes with cap := bytes }
  | .grower g => { b with grower := some g }
  | .sink s => { b with sink := some s }

/-- Applies settings in order to the default ones. -/
def ofSettings (settings : List Setting) : Builder :=
  settings.foldl apply {}

/-- The settings with the quantum that was asked for. -/
def complete (b : Builder) : Except Fault Config :=
  match b.quantum with
  | none => .ok b.config
  | some bytes => (Quantum.ofBytes bytes).map fun quantum => { b.config with quantum }

def createMemory (b : Builder) (c : Config) : Except Fault Memory :=
  Memory.create c (b.grower.getD (Memory.defaultGrower c))

/-- The host around a memory whose scratch slot was allocated. -/
def assemble (b : Builder) (c : Config) (memory : Memory) (scratch : Nat) : Host where
  config := c
  memory := memory
  types := { quantum := c.quantum }
  switchboard :=
    { table := { mode := c.dispatch }
      diagnostics := { sink := b.sink.getD .journal } }
  scratch := scratch

def readyEvent (h : Host) : Event :=
  .ready h.config.quantum h.memory.size h.memory.stack.base h.memory.stack.limit h.config.checks

/-- Builds the host, with the events noted on the way. -/
def build (b : Builder) : Except Fault (Host × List Event) := do
  let c ← b.complete
  let memory ← b.createMemory c
  let allocated := Memory.staticAlloc 8 memory
  let scratch ← allocated.result
  let host := b.assemble c allocated.state scratch
  return (host, allocated.events ++ [readyEvent host])

end Builder

/-- Builds a host from settings, with the default grower and sink. -/
def Host.ofConfig (c : Config) : Except Fault (Host × List Event) :=
  (Builder.ofSettings [.config c]).build

end LinearHost
