import LinearHost.Layout.Descriptor

/-!
# Placement of fields

Fields are placed in order of declaration, each at the next offset that its effective alignment
allows: the natural alignment cut to the quantum, or 1 in a packed struct. The size of a struct is
rounded up to the largest effective alignment in it. Offsets and sizes are unbounded numbers here; a
host computes the same ones as long as no struct reaches the end of the address space.

## Main definitions

* `effectiveAlign`: the alignment that a field is placed with.
* `placeFrom`: the offsets of fields placed from an offset on.
* `uniformStride?`: the distance between consecutive offsets, if it is the same everywhere.
* `Layout.ofFields`: the layout of a struct.
-/

namespace LinearHost

def effectiveAlign (packed : Bool) (q : Quantum) (d : Descriptor) : Nat :=
  if packed then 1 else max (min (d.naturalAlign q) q.bytes) 1

/-- Places fields from the offset `running` on; answers their offsets and the end of the last. -/
def placeFrom (packed : Bool) (q : Quantum) (running : Nat) : List Descriptor → List Nat × Nat
  | [] => ([], running)
  | d :: rest =>
    let offset := alignUp running (effectiveAlign packed q d)
    let (offsets, stop) := placeFrom packed q (offset + d.size q) rest
    (offset :: offsets, stop)

/-- The largest effective alignment among fields, or 1. -/
def structAlign (packed : Bool) (q : Quantum) (fields : List Descriptor) : Nat :=
  fields.foldl (fun align d => max align (effectiveAlign packed q d)) 1

/-- Tells whether each offset lies `stride` above the one before it. -/
def hasStride (stride : Nat) : List Nat → Bool
  | a :: b :: rest => b - a = stride && hasStride stride (b :: rest)
  | _ => true

/-- The distance between consecutive offsets, if there are two and it is the same everywhere. -/
def uniformStride? : List Nat → Option Nat
  | a :: b :: rest => if hasStride (b - a) (a :: b :: rest) then some (b - a) else none
  | _ => none

namespace Layout

/-- The layout of a struct with the given fields. -/
def ofFields (fields : List Descriptor) (packed : Bool) (q : Quantum) : Layout :=
  let (offsets, stop) := placeFrom packed q 0 fields
  let align := structAlign packed q fields
  let size := alignUp stop align
  if offsets.length ≤ 1 then
    { size, align, offsets, factor := size, needsFlattening := size ≠ 1 }
  else
    match uniformStride? offsets with
    | some stride => { size, align, offsets, factor := stride, needsFlattening := stride ≠ 1 }
    | none => { size, align, offsets, factor := size, needsFlattening := true }

end Layout

/-- The struct type with the given fields, laid out for a quantum. -/
def StructType.ofFields (id : Nat) (name : Option String) (fields : List Descriptor)
    (packed : Bool) (q : Quantum) : StructType where
  id := id
  name := name
  fields := fields
  packed := packed
  layout := .ofFields fields packed q

end LinearHost
