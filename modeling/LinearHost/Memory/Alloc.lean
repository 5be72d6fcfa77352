import LinearHost.Memory.Basic

/-!
# Allocation

A block is taken at the top of a region. If it does not fit, a policy may let the memory grow once
before the allocation fails.

## Main definitions

* `Memory.grow`: asks the grower for room for a block.
* `Memory.alloc`: takes a block under a policy.
* `Memory.stackAlloc`, `Memory.staticAlloc`, `Memory.allocate`: the usual allocations.
-/

namespace LinearHost.Memory

/-- The image after handing out the cells from `start` up to `stop`: they are live again, and
cleared if asked for. -/
def claimed (image : Image) (start stop : Nat) (zeroFill : Bool) : Image :=
  image.update start stop fun c => if zeroFill then .blank else c.revived

/-- The size that the memory takes when `offered` was answered to a request of `needed`, or `none`
if that counts as a refusal. -/
def grownSize? (m : Memory) (needed : Nat) (offered : Option Nat) : Option Nat :=
  (offered.filter (needed ≤ ·)).map (min · m.cap)

/-- Resizes the memory and lets a region reach to its new end. -/
def resized (m : Memory) (kind : RegionKind) (size : Nat) : Memory :=
  { m with image := m.image.resize size }.modifyRegion kind fun r => { r with limit := size }

/-- Asks the grower for room for a block at the top of a region, and tells whether it was given. -/
def grow (kind : RegionKind) (size alignment : Nat) : Action Memory Bool := do
  let m ← Action.get
  match (m.region kind).blockStop? size alignment with
  | none => return false
  | some needed =>
    if m.cap < needed then
      Action.note (.growthCapped kind needed m.cap)
      return false
    else
      let (offered, grower) := m.grower.ask m.size needed
      Action.modify fun m => { m with grower }
      match m.grownSize? needed offered with
      | some after =>
        Action.note (.grown kind m.size after)
        Action.modify fun m => m.resized kind after
        return true
      | none =>
        Action.note (.growthRefused kind needed m.size)
        return false

/-- Answers where the top of a region comes to lie when a block is taken, if the block fits. -/
def fit (kind : RegionKind) (size alignment : Nat) : Action Memory Nat := do
  let region := (← Action.get).region kind
  match region.topAfter? size alignment with
  | some top => return top
  | none => Action.fail (region.exhausted size)

/-- Makes sure that a block fits at the top of the policy's region, and answers where the top will
be. The memory may grow once for it. -/
def reserve (policy : Policy) (size alignment : Nat) : Action Memory Nat := do
  match ← (fit policy.region size alignment).attempt with
  | .ok top => return top
  | .error fault =>
    let given ← if policy.growable then grow policy.region size alignment else pure false
    Action.require given fault
    fit policy.region size alignment

/-- The alignment of a block: the quantum if none is given. -/
def effectiveAlignment (m : Memory) (alignment : Nat) : Nat :=
  if alignment = 0 then m.quantum.bytes else alignment

/-- Takes a block of `size` bytes and answers its address. The new top is aligned to `alignment`, or
to the quantum if that is 0. -/
def alloc (policy : Policy) (size alignment : Nat) : Action Memory Nat := do
  let m ← Action.get
  let address := (m.region policy.region).top
  let top ← reserve policy size (m.effectiveAlignment alignment)
  Action.modify fun m => m.modifyRegion policy.region fun r => { r with top }
  requireWindow address top
  Action.modify fun m => { m with image := claimed m.image address top policy.zeroFill }
  return address

def moveStackTop (top : Nat) : Action Memory Unit := do
  let m ← Action.get
  let stack ← Action.ofExcept (m.stack.moveTop top)
  Action.modify fun m => { m with stack }

/-- Takes an aligned block of the stack, which keeps what it held. With assertions the block must
leave the stack's limit free; one that does not is given back. -/
def stackAlloc (size : Nat) : Action Memory Nat := do
  let before ← Action.get
  let address ← alloc .stack size before.quantum.bytes
  let stack := (← Action.get).stack
  if before.checks.assertions && stack.limit ≤ stack.top then
    moveStackTop address
    Action.fail (.assertion (.stackExhausted stack.top stack.limit))
  else
    return address

/-- Takes an aligned, cleared block of the static region. -/
def staticAlloc (size : Nat) : Action Memory Nat := do
  alloc .static size (← Action.get).quantum.bytes

def allocate : RegionKind → Nat → Action Memory Nat
  | .stack, size => stackAlloc size
  | .static, size => staticAlloc size

end LinearHost.Memory
