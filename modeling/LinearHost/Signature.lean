import LinearHost.Value

/-!
# Call signatures

A signature is a text of type codes: first the return type, then the parameter types. `"dij"`
returns a 64-bit float and takes a 32-bit and a 64-bit integer.

## Main definitions

* `Signature.parse`: reads a text.
* `Signature.checkArguments`: compares an argument list with the number of parameters.
-/

namespace LinearHost

structure Signature where
  text : String
  result : Kind
  params : List Kind
deriving DecidableEq, Repr

namespace Signature

/-- The kind of a parameter with the given letter: any but `void`. -/
def param? (code : Char) : Option Kind :=
  (Kind.ofCode? code).filter (· ≠ .void)

def parse (text : String) : Except Fault Signature :=
  match text.toList with
  | [] => .error (.invalidSignature text)
  | first :: rest =>
    match Kind.ofCode? first, rest.mapM param? with
    | some result, some params => .ok { text, result, params }
    | _, _ => .error (.invalidSignature text)

/-- The number of kinds in the signature, the returned one included. -/
def arity (s : Signature) : Nat :=
  s.params.length + 1

/-- Accepts argument lists with one value for each parameter. -/
def checkArguments (s : Signature) (arguments : List Value) : Except Fault Unit :=
  if arguments.length = s.arity - 1 then .ok ()
  else .error (.arityMismatch s.text (s.arity - 1) arguments.length)

end Signature

end LinearHost
