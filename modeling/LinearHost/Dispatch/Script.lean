import LinearHost.Action
import LinearHost.Config
import LinearHost.Signature

/-!
# Scripts of functions

A function of the host is a script: it ends with a value or a fault, or it asks something of the
function table and goes on with the answer. Trampolines are given the table and functions may know
it, so a script can ask for everything that a caller can: besides calls it may register functions
and install trampolines, all while other calls wait for its result. Like a grower, a function may
remember how it was called before, so it is a function of its history.

## Main definitions

* `Request`, `Reply`: what can be asked of the table, and the answers.
* `Script`: the course of a function.
* `Function`, `Trampoline`: what the table holds.
-/

namespace LinearHost

inductive Reply where
  | done
  | index (i : Nat)
  | value (v : Value)
  /-- The serial number tells whether it is the same trampoline as before. What a script does with
  a trampoline that it has found is part of its own course. -/
  | trampoline (serial : Nat)
  | seen (mode : DispatchMode) (slots trampolines : Nat)

mutual

inductive Request where
  | register (f : Function)
  /-- Look up the function at an index. To run it is a request of its own. -/
  | get (index : Nat)
  /-- Run the function at an index, whatever the mode. -/
  | enter (index : Nat) (arguments : List Value)
  | call (s : Signature) (index : Nat) (arguments : List Value)
  | install (s : Signature) (trampoline : Trampoline)
  /-- Look up the trampoline of a signature. -/
  | trampoline (s : Signature)
  /-- Read off what the table shows of itself. -/
  | look

inductive Script where
  | done (result : Except Fault Value)
  | ask (request : Request) (next : Except Fault Reply → Script)

structure Function where
  /-- The course of a call, given the arguments of the earlier calls, newest first. -/
  run : (history : List (List Value)) → (arguments : List Value) → Script

structure Trampoline where
  run : (index : Nat) → (arguments : List Value) → Script

end

def Reply.result : Reply → Value
  | .value v => v
  | _ => .void

namespace Script

/-- Ends as a call that was asked for did. -/
def relay : Except Fault Reply → Script
  | .ok reply => .done (.ok reply.result)
  | .error fault => .done (.error fault)

def forward (request : Request) : Script := .ask request relay

@[simp] theorem relay_map_value (result : Except Fault Value) :
    relay (result.map .value) = .done result := by
  cases result <;> rfl

end Script

/-- A function without a memory that asks for nothing. -/
def Function.ofPure (f : List Value → Except Fault Value) : Function where
  run _ arguments := .done (f arguments)

/-- The adapter that runs the function at the index. -/
def Trampoline.generic : Trampoline where
  run index arguments := .forward (.enter index arguments)

end LinearHost
