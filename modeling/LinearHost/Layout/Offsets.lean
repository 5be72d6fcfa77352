import LinearHost.Layout.Registry

/-!
# Offsets of named fields

Compiled code refers to struct fields by name. A list of names is laid over the fields of a struct,
and each name gets the offset of its field; a name that stands for an embedded struct brings the
names of that struct's fields along.

## Main definitions

* `FieldName`: a requested name.
* `Offsets`: the offsets of named fields, nested like the request.
* `Registry.resolve`: the offsets for the fields of a registered struct.
* `Offsets.inline`: the offsets for fields given on the spot.
-/

namespace LinearHost

inductive FieldName where
  | leaf (name : String)
  | group (name : String) (fields : List FieldName)

def FieldName.name : FieldName → String
  | leaf name | group name _ => name

structure OffsetsOf (L : Type) where
  size : Nat
  /-- The names and their locations, in order of declaration. -/
  fields : List (String × L)

inductive Location where
  | offset (n : Nat)
  | nested (inner : OffsetsOf Location)

/-- The locations of the named fields of a struct. -/
abbrev Offsets := OffsetsOf Location

namespace Offsets

def get? (o : Offsets) (name : String) : Option Location :=
  (o.fields.find? fun field => field.1 = name).map Prod.snd

def length (o : Offsets) : Nat := o.fields.length

def isEmpty (o : Offsets) : Bool := o.fields.isEmpty

end Offsets

def StructType.placed (type : StructType) : List (Descriptor × Nat) :=
  type.fields.zip type.layout.offsets

/-- Accepts as many names as the struct has fields. -/
def StructType.checkNames (type : StructType) (names : List FieldName) : Except Fault Unit :=
  if names.length = type.fields.length then .ok ()
  else .error (.layoutMismatch type.displayName type.fields.length names.length)

mutual

/-- The location that a name gets when it is laid over a field at an absolute offset. -/
def FieldName.locate (owner : StructType) (field : Descriptor) (offset : Nat) :
    FieldName → Except Fault Location
  | .leaf _ => .ok (.offset offset)
  | .group name fields =>
    match field with
    | .struct inner => do
      StructType.checkNames inner fields
      let located ← FieldName.locateAll inner offset (StructType.placed inner) fields
      return .nested { size := inner.layout.size, fields := located }
    | _ => .error (.layoutMismatch s!"{StructType.displayName owner}.{name}" 0 fields.length)

/-- The locations that names get when they are laid over fields of a struct that starts at
`base`. -/
def FieldName.locateAll (owner : StructType) (base : Nat) :
    List (Descriptor × Nat) → List FieldName → Except Fault (List (String × Location))
  | (field, offset) :: fields, name :: names => do
    let location ← FieldName.locate owner field (base + offset) name
    let rest ← FieldName.locateAll owner base fields names
    return (name.name, location) :: rest
  | _, _ => .ok []

end

/-- Lays names over the fields of a struct that starts at `base`. -/
def StructType.resolve (type : StructType) (names : List FieldName) (base : Nat) :
    Except Fault Offsets := do
  type.checkNames names
  let located ← FieldName.locateAll type base type.placed names
  return { size := type.layout.size, fields := located }

/-- Lays names over the fields of a registered struct that starts at `base`. -/
def Registry.resolve (r : Registry) (names : List FieldName) (typeName : String) (base : Nat) :
    Except Fault Offsets :=
  match r.find? typeName with
  | some type => type.resolve names base
  | none => .error (.typeNotFound typeName)

/-- The offsets of fields given on the spot, in an unpacked struct that starts at 0. -/
def Offsets.inline (fields : List (Descriptor × String)) (q : Quantum) : Offsets :=
  let layout := Layout.ofFields (fields.map Prod.fst) false q
  { size := layout.size
    fields := (fields.map Prod.snd).zip (layout.offsets.map .offset) }

end LinearHost
