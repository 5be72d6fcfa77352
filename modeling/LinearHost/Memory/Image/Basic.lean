import LinearHost.Runs.Basic

/-!
# Memory images

An image is the contents of a memory: a row of cells, each a byte together with a mark that tells
whether a closed frame left it behind. Byte and mark live in one cell, so they never get out of
step. Most of a memory is blank, so the row is kept as its runs.

## Main definitions

* `Cell`: a byte and its mark.
* `Image.update`: changes every cell of a window by a function.
* `Image.overwrite`, `Image.window`: writes and reads rows of cells.
* `Image.resize`: cuts the image, or extends it with blank cells.
-/

namespace LinearHost

structure Cell where
  value : UInt8 := 0
  stale : Bool := false
deriving DecidableEq, Repr, Inhabited

namespace Cell

def live (value : UInt8) : Cell := { value }

def blank : Cell := {}

def poisoned : Cell := { stale := true }

def revived (c : Cell) : Cell := { c with stale := false }

end Cell

@[ext] structure Image where
  cells : Runs Cell
deriving DecidableEq

namespace Image

def blank (size : Nat) : Image := ⟨.replicate size .blank⟩

def size (i : Image) : Nat := i.cells.length

def cell? (i : Image) (address : Nat) : Option Cell := i.cells.get? address

/-- The row of cells from an address on, of at most the given length. -/
def window (i : Image) (start count : Nat) : Runs Cell :=
  (i.cells.drop start).take count

/-- Changes the cells of the window from `start` up to `stop`. -/
def update (i : Image) (start stop : Nat) (f : Cell → Cell) : Image :=
  ⟨i.cells.splice start ((i.window start (stop - start)).map f)⟩

/-- Puts a row of cells in place of those from an address on. -/
def overwrite (i : Image) (start : Nat) (row : Runs Cell) : Image :=
  ⟨i.cells.splice start (row.take (i.size - start))⟩

/-- The image cut to a size, or filled up to it with blank cells. -/
def resize (i : Image) (size : Nat) : Image :=
  ⟨(i.cells.splice i.size (.replicate (size - i.size) .blank)).take size⟩

end Image

end LinearHost
