import LinearHost.Config
import LinearHost.Diagnostics.Entry

/-!
# The journal

Operations note in a journal what they did. An entry of the journal is an event; its level and its
text are derived from it.

## Main definitions

* `Event`: what can be noted.
* `Event.level`, `Event.text`: how a note is graded and worded.
-/

namespace LinearHost

open Numeral

inductive Level where
  | error
  | warn
  | info
  | debug
  | trace
deriving DecidableEq, Repr

def Level.text : Level → String
  | error => "ERROR"
  | warn => "WARN"
  | info => "INFO"
  | debug => "DEBUG"
  | trace => "TRACE"

inductive Event where
  /-- A region would need more memory than the cap allows. -/
  | growthCapped (region : RegionKind) (needed cap : Nat)
  | grown (region : RegionKind) (before after : Nat)
  | growthRefused (region : RegionKind) (needed size : Nat)
  | frameOpened (depth top size : Nat)
  | frameClosed (depth top restored : Nat)
  | structRegistered (name : String) (size align : Nat)
  | functionRegistered (index : Nat)
  | trampolineInstalled (signature : String)
  | reported (entry : Diagnostic)
  | ready (quantum : Quantum) (size stackBase stackLimit : Nat) (checks : Checks)
  | closed (summary : String)
deriving DecidableEq, Repr

namespace Event

def level : Event → Level
  | growthCapped .. | grown .. | growthRefused .. | ready .. | closed .. => .debug
  | frameOpened .. | frameClosed .. | structRegistered .. | functionRegistered ..
  | trampolineInstalled .. => .trace
  | reported entry =>
    match entry.severity with
    | .info => .info
    | .warning => .warn
    | .error => .error

def text : Event → String
  | growthCapped region needed cap =>
    s!"grow of {region.text} region to {needed} bytes exceeds the {cap} byte cap"
  | grown region before after => s!"growing {region.text} region: {before} -> {after} bytes"
  | growthRefused region needed size =>
    s!"grow of {region.text} region to {needed} bytes refused at {size} bytes"
  | frameOpened depth top size => s!"enter frame {depth} at 0x{hex top} (+{size})"
  | frameClosed depth top restored =>
    s!"exit frame {depth}, 0x{hex top} -> 0x{hex restored}"
  | structRegistered name size align =>
    s!"registered struct {name} (size {size}, align {align})"
  | functionRegistered index => s!"registered table function at index {index}"
  | trampolineInstalled signature => s!"installing generic trampoline for '{signature}'"
  | reported entry => entry.text
  | ready quantum size stackBase stackLimit checks =>
    s!"runtime ready: quantum {quantum.bytes}, {size} bytes of memory, " ++
      s!"stack 0x{hex stackBase}..0x{hex stackLimit}, checks {checks.text}"
  | closed summary => summary

end Event

end LinearHost
