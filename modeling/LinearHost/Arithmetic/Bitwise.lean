import LinearHost.Arithmetic.WordPair

/-!
# Bitwise operations on approximated 64-bit integers

Where exact words are not at hand, a 64-bit integer is carried as one floating-point number. A
bitwise operation splits its operands into a low word, exact modulo `2 ^ 32`, and a rounded high
word, combines the words and puts the result together again.

## Main definitions

* `BitwiseOp.combine`: the operation on two numbers.
-/

namespace LinearHost

inductive BitwiseOp where
  | or
  | and
  | xor
deriving DecidableEq, Repr

namespace BitwiseOp

def name : BitwiseOp → String
  | or => "Or"
  | and => "And"
  | xor => "Xor"

def all : List BitwiseOp := [or, and, xor]

def ofName? (name : String) : Option BitwiseOp :=
  all.find? (·.name = name)

def apply (op : BitwiseOp) (a b : Int32) : Int32 :=
  match op with
  | or => a ||| b
  | and => a &&& b
  | xor => a ^^^ b

/-- The high word of a number: its quotient by `2 ^ 32`, rounded half up, modulo `2 ^ 32`. -/
def highWord (x : Binary64) : Int32 :=
  if x.isFinite then Int32.ofInt (Binary64.roundedQuotient x.scaled (Binary64.unit <<< 32))
  else 0

def combine (op : BitwiseOp) (x y : Binary64) : Binary64 :=
  let low := op.apply x.toInt32 y.toInt32
  let high := op.apply (highWord x) (highWord y)
  Binary64.ofInt (low.toInt + high.toInt * 0x100000000)

end BitwiseOp

end LinearHost
