import LinearHost.Layout.Registry

/-!
# Registrations

Adding a struct type to a registry as a value, so that the past of a registry is a list of
registrations.

## Main definitions

* `Registration`: a named struct, or a shape without a name.
* `Registry.perform`: carries out one registration.
* `Registry.reached`: the registry that a list of registrations leads to.
-/

namespace LinearHost

structure Registration where
  /-- The name to register; without one the shape is interned. -/
  name : Option String
  fields : List Descriptor
  packed : Bool

namespace Registry

def perform : Registration → Action Registry StructType
  | ⟨some name, fields, packed⟩ => register name fields packed
  | ⟨none, fields, packed⟩ => intern fields packed

/-- The registry after one registration. -/
def extended (r : Registry) (entry : Registration) : Registry := (perform entry r).state

/-- The registry after some registrations, whether they fail or not. -/
def reached (entries : List Registration) (r : Registry) : Registry :=
  entries.foldl extended r

end Registry

end LinearHost
