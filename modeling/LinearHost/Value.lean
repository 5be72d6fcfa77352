import LinearHost.Arithmetic.WordPair

/-!
# Values passed to and from functions

## Main definitions

* `Kind`: the type codes of values, as they stand in call signatures.
* `Value`: a value of one of the kinds.
-/

namespace LinearHost

inductive Kind where
  | void
  | i32
  | i64
  | f32
  | f64
deriving DecidableEq, Repr

namespace Kind

def code : Kind → Char
  | void => 'v'
  | i32 => 'i'
  | i64 => 'j'
  | f32 => 'f'
  | f64 => 'd'

def ofCode? : Char → Option Kind
  | 'v' => some void
  | 'i' => some i32
  | 'j' => some i64
  | 'f' => some f32
  | 'd' => some f64
  | _ => none

def name : Kind → String
  | void => "Void"
  | i32 => "I32"
  | i64 => "I64"
  | f32 => "F32"
  | f64 => "F64"

end Kind

/-- A value passed to a function or returned from it. Pointers are 32-bit integers. -/
inductive Value where
  | void
  | i32 (n : Int32)
  | i64 (w : WordPair)
  | f32 (x : Binary32)
  | f64 (x : Binary64)
deriving DecidableEq, Repr

namespace Value

def kind : Value → Kind
  | void => .void
  | i32 _ => .i32
  | i64 _ => .i64
  | f32 _ => .f32
  | f64 _ => .f64

def i32? : Value → Option Int32
  | i32 n => some n
  | _ => none

def i64? : Value → Option WordPair
  | i64 w => some w
  | _ => none

/-- The content of a float, a 32-bit one widened. -/
def f64? : Value → Option Binary64
  | f32 x => some x.widen
  | f64 x => some x
  | _ => none

def isVoid : Value → Bool
  | void => true
  | _ => false

end Value

end LinearHost
