import LinearHost.Arithmetic.Alignment

/-!
# Regions

A region is a span of addresses that is used up from below: blocks are taken at its top, which moves
toward its limit. The bytes themselves belong to the image of the memory.

## Main definitions

* `Region`: base, top and limit of a region.
* `Region.topAfter?`: where the top comes to lie when a block fits.
* `Policy`: how a kind of allocation treats its region.
-/

namespace LinearHost

structure Region where
  kind : RegionKind
  base : Nat
  top : Nat
  limit : Nat
deriving DecidableEq, Repr

namespace Region

def empty (kind : RegionKind) (base limit : Nat) : Region :=
  { kind, base, top := base, limit }

def used (r : Region) : Nat := r.top - r.base

def remaining (r : Region) : Nat := r.limit - r.top

def contains (r : Region) (address : Nat) : Bool :=
  r.base ≤ address && address < r.limit

/-- The aligned end of a block taken at the top, if it is an address. -/
def blockStop? (r : Region) (size alignment : Nat) : Option Nat :=
  (blockEnd? r.top size).map (alignUp · alignment)

/-- The top after taking a block, if the block fits. -/
def topAfter? (r : Region) (size alignment : Nat) : Option Nat :=
  (r.blockStop? size alignment).filter (· ≤ r.limit)

def exhausted (r : Region) (size : Nat) : Fault :=
  .outOfMemory r.kind size r.top r.limit

/-- The region with its top moved, which must stay between base and limit. -/
def moveTop (r : Region) (top : Nat) : Except Fault Region :=
  if r.base ≤ top ∧ top ≤ r.limit then .ok { r with top }
  else .error (.invalidAddress top 0)

end Region

structure Policy where
  region : RegionKind
  zeroFill : Bool
  /-- Whether the memory may grow when a block does not fit. -/
  growable : Bool
deriving DecidableEq, Repr

namespace Policy

/-- Stack blocks keep what they hold and never grow the memory. -/
def stack : Policy := ⟨.stack, false, false⟩

/-- Static blocks are cleared and may grow the memory. -/
def static : Policy := ⟨.static, true, true⟩

end Policy

end LinearHost
