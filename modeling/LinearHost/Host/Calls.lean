import LinearHost.Host.Basic

/-!
# Calls of a host

Every operation of a host as a value, so that a program that uses a host is a list of calls.

## Main definitions

* `HostCall`, `HostReply`: the calls and what they answer.
* `Host.perform`: carries out one call.
-/

namespace LinearHost

inductive HostCall where
  | stackAlloc (size : Nat)
  | staticAlloc (size : Nat)
  | allocate (region : RegionKind) (size : Nat)
  | enter (initial : Nat)
  | enterForced (initial : Nat)
  | exit (frame : Frame)
  /-- Ask for the top of the stack. -/
  | save
  | restore (top : Nat)
  | parseType (text : String)
  | registerStruct (name : String) (fields : List String) (packed : Bool)
  | resolve (names : List FieldName) (typeName : String) (base : Nat)
  | inlineOffsets (fields : List (String × String))
  | toUnsigned (value : Int64) (bits : Nat)
  | toSigned (value : UInt64) (bits : Nat)
  | shift (w : WordPair) (op : ShiftOp) (bits : Nat)
  | registerFunction (f : Function)
  | call (signature : String) (index : Nat) (arguments : List Value)
  | wrapper (index : Nat) (signature : String)
  | warnOnce (message : String)
  | storeText (text : String) (region : RegionKind)
  | loadText (address : Nat)

inductive HostReply where
  | done
  | address (a : Nat)
  | frame (f : Frame)
  | type (d : Descriptor)
  | struct (s : StructType)
  | offsets (o : Offsets)
  | unsigned (n : UInt64)
  | signed (n : Int64)
  | words (w : WordPair)
  | index (i : Nat)
  | value (v : Value)
  | wrapper (w : Wrapper)
  /-- Whether a warning was recorded. -/
  | recorded (fresh : Bool)
  | text (s : String)

namespace Host

def perform : HostCall → Action Host HostReply
  | .stackAlloc size => return .address (← stackAlloc size)
  | .staticAlloc size => return .address (← staticAlloc size)
  | .allocate region size => return .address (← allocate region size)
  | .enter initial => return .frame (← enter initial)
  | .enterForced initial => return .frame (← enterForced initial)
  | .exit frame => do exit frame; return .done
  | .save => return .address (← Action.get).memory.stack.top
  | .restore top => do restore top; return .done
  | .parseType text => return .type (← parseType text)
  | .registerStruct name fields packed => return .struct (← registerStruct name fields packed)
  | .resolve names typeName base => return .offsets (← resolve names typeName base)
  | .inlineOffsets fields => return .offsets (← inlineOffsets fields)
  | .toUnsigned value bits => return .unsigned (← toUnsigned value bits)
  | .toSigned value bits => return .signed (← toSigned value bits)
  | .shift w op bits => return .words (← shift w op bits)
  | .registerFunction f => return .index (← registerFunction f)
  | .call signature index arguments => return .value (← call signature index arguments)
  | .wrapper index signature => return .wrapper (← wrapper index signature)
  | .warnOnce message => return .recorded (← warnOnce message)
  | .storeText text region => return .address (← storeText text region)
  | .loadText address => return .text (← loadText address)

end Host

end LinearHost
