import LinearHost.Arithmetic.Alignment

/-!
# Types of struct fields

A field has one of a closed set of types. A struct type carries its layout, so that a field that
embeds a struct knows its size and alignment. Struct types are the same if they have the same
identifier, whatever their fields.

## Main definitions

* `IntWidth`, `Descriptor`, `StructType`: the types.
* `Layout`: where the fields of a struct lie.
* `Descriptor.size`, `Descriptor.naturalAlign`: the space a field takes.
-/

namespace LinearHost

inductive IntWidth where
  | i1
  | i8
  | i16
  | i32
  | i64
deriving DecidableEq, Repr

namespace IntWidth

def all : List IntWidth := [i1, i8, i16, i32, i64]

def bits : IntWidth → Nat
  | i1 => 1
  | i8 => 8
  | i16 => 16
  | i32 => 32
  | i64 => 64

def bytes : IntWidth → Nat
  | i1 | i8 => 1
  | i16 => 2
  | i32 => 4
  | i64 => 8

def text : IntWidth → String
  | i1 => "i1"
  | i8 => "i8"
  | i16 => "i16"
  | i32 => "i32"
  | i64 => "i64"

def name : IntWidth → String
  | i1 => "I1"
  | i8 => "I8"
  | i16 => "I16"
  | i32 => "I32"
  | i64 => "I64"

def ofText? (text : String) : Option IntWidth :=
  all.find? fun width => width.text = text

end IntWidth

structure Layout where
  /-- The size of the struct, a multiple of its alignment. -/
  size : Nat
  /-- The largest effective alignment among the fields, or 1. -/
  align : Nat
  offsets : List Nat
  /-- The distance between consecutive fields if it is the same everywhere, else the size. -/
  factor : Nat
  needsFlattening : Bool
deriving DecidableEq, Repr

/-- A struct type whose fields have types in `F`. -/
structure StructOf (F : Type) where
  id : Nat
  /-- The name it was registered under; interned shapes have none. -/
  name : Option String
  fields : List F
  /-- Whether fields are placed without regard to alignment. -/
  packed : Bool
  layout : Layout

inductive Descriptor where
  | int (width : IntWidth)
  | float
  | double
  | pointer
  | struct (type : StructOf Descriptor)
  | bytes (length : Nat)

abbrev StructType := StructOf Descriptor

/-- The name of a struct in messages; interned shapes show their identifier. -/
def StructType.displayName (type : StructType) : String :=
  match type.name with
  | some name => name
  | none => s!"<anon#{type.id}>"

namespace Descriptor

/-- Tells whether two types are the same; struct types are compared by identifier. -/
def same : Descriptor → Descriptor → Bool
  | int a, int b => a = b
  | float, float | double, double | pointer, pointer => true
  | struct a, struct b => a.id = b.id
  | bytes a, bytes b => a = b
  | _, _ => false

/-- Tells whether two rows of types are the same. -/
def sameAll : List Descriptor → List Descriptor → Bool
  | [], [] => true
  | a :: as, b :: bs => a.same b && sameAll as bs
  | _, _ => false

/-- Tells whether the type is an integer or a float. -/
def isNumber : Descriptor → Bool
  | int _ | float | double => true
  | _ => false

def isPointer : Descriptor → Bool
  | pointer => true
  | _ => false

def struct? : Descriptor → Option StructType
  | struct type => some type
  | _ => none

/-- The size in bytes. With a quantum of one byte every number and pointer takes one cell. -/
def size (q : Quantum) : Descriptor → Nat
  | struct type => type.layout.size
  | bytes length => length
  | int width => if q = .byte then 1 else width.bytes
  | float => if q = .byte then 1 else 4
  | double => if q = .byte then 1 else 8
  | pointer => if q = .byte then 1 else q.bytes

/-- The alignment before it is cut to the quantum. -/
def naturalAlign (q : Quantum) : Descriptor → Nat
  | struct type => type.layout.align
  | bytes _ => 1
  | other => other.size q

/-- The size of a slot that holds one value: at least one quantum. -/
def slotSize (q : Quantum) (d : Descriptor) : Nat :=
  max (d.size q) q.bytes

def text : Descriptor → String
  | int width => width.text
  | float => "float"
  | double => "double"
  | pointer => "i8*"
  | struct type => StructType.displayName type
  | bytes length => s!"b{length}"

end Descriptor

/-- Tells whether a struct has exactly the given fields and packing. -/
def StructType.hasShape (type : StructType) (fields : List Descriptor) (packed : Bool) : Bool :=
  type.packed = packed && Descriptor.sameAll type.fields fields

end LinearHost
