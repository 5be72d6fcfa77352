import LinearHost.Diagnostics.Basic

/-!
# Reports

Everything that can be reported to diagnostics as a value, so that their past is a list of reports.

## Main definitions

* `Report`: an entry that is always recorded, or one that is to appear only once.
* `Diagnostics.perform`, `Diagnostics.performAll`: passing on one report, or some in order.
-/

namespace LinearHost

inductive Report where
  /-- A condition that is described by a message alone. -/
  | plain (severity : Severity) (category : Category) (message : String)
  | push (entry : Diagnostic)
  | warnOnce (category : Category) (message : String)
  | pushOnce (entry : Diagnostic)
deriving DecidableEq, Repr

namespace Diagnostics

/-- Carries out a report; tells whether its entry was recorded. -/
def perform : Report → Action Diagnostics Bool
  | .plain severity category message => do report severity category message; return true
  | .push entry => do push entry; return true
  | .warnOnce category message => warnOnce category message
  | .pushOnce entry => pushOnce entry

/-- Carries out reports in order; tells of each whether its entry was recorded. -/
def performAll : List Report → Action Diagnostics (List Bool)
  | [] => return []
  | report :: rest => return (← perform report) :: (← performAll rest)

end Diagnostics

end LinearHost
