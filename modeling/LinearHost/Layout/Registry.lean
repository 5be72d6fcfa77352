import LinearHost.Action
import LinearHost.Layout.Placement
import LinearHost.Text.Blank

/-!
# The registry of struct types

A registry holds the struct types of a host by their identifiers, which count from 1. Named structs
are registered once, and an index leads from their names to the identifiers. Shapes without a name
are interned, so that each exists once; a second index leads from the shapes to their types. The
identifier of a new type comes from a counter, which does not run out here: a host that registers
fewer than 2^32 - 1 types does not meet its end.

## Main definitions

* `Registry`: the types, the counter and the two indices.
* `Registry.register`, `Registry.intern`: adding a type.
* `Registry.find?`: look-up by name, with or without the prefix `%struct.`.
* `Registry.parseType`: the type that a text denotes.
-/

namespace LinearHost

structure Shape where
  fields : List Descriptor
  packed : Bool

/-- Tells whether two shapes are the same. -/
def Shape.same (shape other : Shape) : Bool :=
  shape.packed = other.packed && Descriptor.sameAll shape.fields other.fields

structure Registry where
  quantum : Quantum := .word
  /-- The types under their identifiers, in ascending order of these. -/
  store : List (Nat × StructType) := []
  nextId : Nat := 1
  /-- The identifiers of the named types. -/
  names : List (String × Nat) := []
  /-- The types without a name. -/
  shapes : List (Shape × StructType) := []

namespace Registry

def structPrefix : String := "%struct."

/-! ### The store and the indices -/

/-- Puts a type in its place; one with the same identifier makes way. -/
def insert (id : Nat) (type : StructType) : List (Nat × StructType) → List (Nat × StructType)
  | [] => [(id, type)]
  | entry :: rest =>
    if id < entry.1 then (id, type) :: entry :: rest
    else if id = entry.1 then (id, type) :: rest
    else entry :: insert id type rest

/-- All types, in ascending order of their identifiers. -/
def types (r : Registry) : List StructType := r.store.map Prod.snd

def get? (r : Registry) (id : Nat) : Option StructType := r.store.lookup id

def size (r : Registry) : Nat := r.store.length

def namedCount (r : Registry) : Nat := r.names.length

/-- The identifier registered under exactly this name. -/
def bound? (r : Registry) (name : String) : Option Nat := r.names.lookup name

/-- The type of a shape without a name. -/
def interned? (r : Registry) (shape : Shape) : Option StructType :=
  (r.shapes.find? fun entry => entry.1.same shape).map Prod.snd

/-! ### Registration -/

/-- Answers an identifier that was not given before. -/
def takeId : Action Registry Nat := do
  let id := (← Action.get).nextId
  Action.modify fun r => { r with nextId := id + 1 }
  return id

/-- Stores a type under an identifier. -/
def put (id : Nat) (type : StructType) : Action Registry Unit :=
  Action.modify fun r => { r with store := insert id type r.store }

/-- Registers a named struct. The same name with the same shape gives the same type again. -/
def register (name : String) (fields : List Descriptor) (packed : Bool) :
    Action Registry StructType := do
  let r ← Action.get
  match r.bound? name with
  | some id =>
    match r.get? id with
    | some type =>
      Action.require (StructType.hasShape type fields packed) (.nameTaken name)
      return type
    | none => Action.fail (.danglingName name)
  | none =>
    let id ← takeId
    let type := StructType.ofFields id (some name) fields packed r.quantum
    put id type
    Action.modify fun r => { r with names := r.names ++ [(name, id)] }
    Action.note (.structRegistered name type.layout.size type.layout.align)
    return type

/-- The shared struct of a shape without a name, which is added on first use. -/
def intern (fields : List Descriptor) (packed : Bool) : Action Registry StructType := do
  let r ← Action.get
  match r.interned? ⟨fields, packed⟩ with
  | some type => return type
  | none =>
    let id ← takeId
    let type := StructType.ofFields id none fields packed r.quantum
    put id type
    Action.modify fun r => { r with shapes := r.shapes ++ [(⟨fields, packed⟩, type)] }
    return type

/-! ### Look-up -/

/-- The text after the struct prefix, if it starts with it. -/
def shortName? (name : String) : Option String :=
  (structPrefix.toList.isPrefixOf? name.toList).map String.ofList

/-- The identifier of a name, which may be given with or without the struct prefix. -/
def identifier? (r : Registry) (name : String) : Option Nat :=
  r.bound? name <|> r.bound? (structPrefix ++ name) <|> (shortName? name).bind r.bound?

/-- The struct with a name, which may be given with or without the struct prefix. -/
def find? (r : Registry) (name : String) : Option StructType :=
  (r.identifier? name).bind r.get?

/-! ### Types as texts -/

/-- The number that a digit row denotes, if it fits a 64-bit word. A plus sign may stand before
it. -/
def length? (digits : List Char) : Option Nat :=
  let digits := match digits with
    | '+' :: rest => rest
    | other => other
  (Numeral.decimal? digits).filter (· < addressSpace)

/-- The opaque row of bytes that a text such as `b12` denotes. -/
def byteRow? (text : String) : Option Descriptor :=
  match text.toList with
  | 'b' :: digits => (length? digits).map .bytes
  | _ => none

def floating? : String → Option Descriptor
  | "float" => some .float
  | "double" => some .double
  | _ => none

/-- The type that a text without surrounding blanks denotes. -/
def typeOf? (r : Registry) (text : String) : Option Descriptor :=
  if text.toList.getLast? = some '*' then some .pointer
  else
    floating? text <|> (IntWidth.ofText? text).map .int <|> byteRow? text <|>
      (r.find? text).map .struct

/-- The type that a text denotes: a pointer, a number, a row of bytes or a struct by its name.
Blanks around it do not count. -/
def parseType (r : Registry) (text : String) : Except Fault Descriptor :=
  let trimmed := Blank.trim text
  match r.typeOf? trimmed with
  | some d => .ok d
  | none => .error (.unknownType trimmed)

def description (r : Registry) : String :=
  s!"TypeRegistry \x7b quantum: {r.quantum.bytes}, types: {r.size}, named: {r.namedCount}, .. \x7d"

end Registry

end LinearHost
