import LinearHost.Memory.Basic
import LinearHost.Memory.Image.Lemmas

/-!
# Access to bytes

Reading and writing of byte ranges. Writing a byte takes its mark away; copying carries marks
along; with assertions, reading a marked byte fails.

## Main definitions

* `Memory.read`, `Memory.write`, `Memory.fill`, `Memory.copy`.
* `Memory.poisonMarks`: the marks of a range of addresses.
-/

namespace LinearHost.Memory

/-- Tells whether a range lies inside the memory. -/
def inBounds (m : Memory) (address size : Nat) : Bool :=
  match blockEnd? address size with
  | some stop => stop ≤ m.size
  | none => false

theorem inBounds_iff {m : Memory} {address size : Nat} :
    m.inBounds address size = true ↔ address + size < addressSpace ∧ address + size ≤ m.size := by
  unfold inBounds blockEnd?
  by_cases representable : address + size < addressSpace <;> simp [representable]

def cells (m : Memory) (address size : Nat) : Except Fault (Runs Cell) :=
  if m.inBounds address size then
    if m.hasWindow address (address + size) then .ok (m.image.window address size)
    else .error (.outsideImage address (address + size) m.size)
  else .error (.invalidAddress address size)

def read (m : Memory) (address size : Nat) : Except Fault (List UInt8) := do
  let row ← m.cells address size
  match if m.checks.assertions then row.findIdx? Cell.stale else none with
  | some offset => throw (.assertion (.staleRead (address + offset)))
  | none => return (row.map Cell.value).toList

/-- Tells for each address of a range whether a closed frame left its byte behind. -/
def poisonMarks (m : Memory) (address size : Nat) : List Bool :=
  let row := ((m.image.window address size).map Cell.stale).toList
  row ++ List.replicate (size - row.length) false

theorem getElem?_poisonMarks (m : Memory) (address size k : Nat) :
    (m.poisonMarks address size)[k]? =
      if k < size then some (m.isPoisoned (address + k)) else none := by
  have bound := Image.isSome_cell? (i := m.image) (a := address + k)
  simp only [poisonMarks, isPoisoned, List.getElem?_append, List.getElem?_replicate,
    List.getElem?_map, List.length_map, Runs.toList_map, Runs.length_toList, Image.getElem?_window,
    Image.length_window]
  cases cell : m.image.cell? (address + k) <;> simp only [cell] at bound ⊢ <;> grind

def place (address : Nat) (row : Runs Cell) : Action Memory Unit := do
  let m ← Action.get
  Action.require (m.inBounds address row.length) (.invalidAddress address row.length)
  requireWindow address (address + row.length)
  Action.modify fun m => { m with image := m.image.overwrite address row }

def write (address : Nat) (bytes : List UInt8) : Action Memory Unit :=
  place address (.ofList (bytes.map .live))

def fill (address : Nat) (value : UInt8) (size : Nat) : Action Memory Unit :=
  place address (.replicate size (.live value))

/-- Copies bytes and marks; the ranges may overlap. -/
def copy (target source size : Nat) : Action Memory Unit := do
  if size = 0 then
    return
  else
    let row ← Action.ofExcept ((← Action.get).cells source size)
    place target row

end LinearHost.Memory
