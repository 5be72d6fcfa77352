import LinearHost.Action
import LinearHost.Memory.Grower
import LinearHost.Memory.Image.Basic
import LinearHost.Memory.Region

/-!
# Linear memories

A linear memory is an image divided into two regions. The stack starts at the first aligned address
from 8 on, so that address 0 is never handed out; the static region follows it and reaches to the
end of the image.

## Main definitions

* `Memory`: the image, its regions, the open frames and the settings they obey.
* `Memory.create`, `Memory.ofConfig`: a memory as the settings describe it.
* `Memory.requireWindow`: what every window of the image has to pass before it is read or changed.
-/

namespace LinearHost

structure Memory where
  image : Image
  stack : Region
  statics : Region
  /-- The stack tops saved by the open frames, innermost first. -/
  frames : List Nat
  quantum : Quantum
  checks : Checks
  cap : Nat
  grower : Grower

namespace Memory

/-- The memory that agreeing settings describe, with a grower of its own. -/
def ofLayout (c : Config) (grower : Grower) : Memory where
  image := .blank c.memory.initial
  stack := .empty .stack c.stackBase (c.stackBase + c.memory.stack)
  statics := .empty .static (c.quantum.align (c.stackBase + c.memory.stack)) c.memory.initial
  frames := []
  quantum := c.quantum
  checks := c.checks
  cap := c.memory.cap
  grower := grower

/-- A memory for settings that agree, growing through `grower`. -/
def create (c : Config) (grower : Grower) : Except Fault Memory := do
  c.validate
  return ofLayout c grower

/-- The grower that settings ask for: doubling up to the cap, or none if there is no room. -/
def defaultGrower (c : Config) : Grower :=
  if c.memory.canGrow then .doubling c.memory.cap else .fixed

/-- A memory for settings that agree, with the grower they ask for. -/
def ofConfig (c : Config) : Except Fault Memory :=
  create c (defaultGrower c)

def size (m : Memory) : Nat := m.image.size

def depth (m : Memory) : Nat := m.frames.length

/-- Tells whether a closed frame left behind the byte at an address. -/
def isPoisoned (m : Memory) (address : Nat) : Bool :=
  ((m.image.cell? address).map Cell.stale).getD false

def region (m : Memory) : RegionKind → Region
  | .stack => m.stack
  | .static => m.statics

def modifyRegion (m : Memory) (kind : RegionKind) (f : Region → Region) : Memory :=
  match kind with
  | .stack => { m with stack := f m.stack }
  | .static => { m with statics := f m.statics }

section

variable (m : Memory) (kind : RegionKind) (f : Region → Region)

@[simp] theorem region_modifyRegion : (m.modifyRegion kind f).region kind = f (m.region kind) := by
  cases kind <;> rfl

@[simp] theorem image_modifyRegion : (m.modifyRegion kind f).image = m.image := by
  cases kind <;> rfl

@[simp] theorem frames_modifyRegion : (m.modifyRegion kind f).frames = m.frames := by
  cases kind <;> rfl

@[simp] theorem quantum_modifyRegion : (m.modifyRegion kind f).quantum = m.quantum := by
  cases kind <;> rfl

@[simp] theorem checks_modifyRegion : (m.modifyRegion kind f).checks = m.checks := by
  cases kind <;> rfl

@[simp] theorem cap_modifyRegion : (m.modifyRegion kind f).cap = m.cap := by
  cases kind <;> rfl

@[simp] theorem grower_modifyRegion : (m.modifyRegion kind f).grower = m.grower := by
  cases kind <;> rfl

@[simp] theorem size_modifyRegion : (m.modifyRegion kind f).size = m.size := by
  cases kind <;> rfl

end

/-- Tells whether a window lies inside the image. -/
def hasWindow (m : Memory) (start stop : Nat) : Bool :=
  start ≤ stop && stop ≤ m.size

/-- Fails if a window does not lie inside the image. -/
def requireWindow (start stop : Nat) : Action Memory Unit := do
  let m ← Action.get
  Action.require (m.hasWindow start stop) (.outsideImage start stop m.size)

theorem hasWindow_iff {m : Memory} {start stop : Nat} :
    m.hasWindow start stop = true ↔ start ≤ stop ∧ stop ≤ m.size := by
  simp [hasWindow]

@[simp] theorem hasWindow_modifyRegion (m : Memory) (kind : RegionKind) (f : Region → Region)
    (start stop : Nat) : (m.modifyRegion kind f).hasWindow start stop = m.hasWindow start stop := by
  simp [hasWindow]

@[simp] theorem requireWindow_apply (start stop : Nat) (m : Memory) :
    requireWindow start stop m =
      ⟨if m.hasWindow start stop then .ok () else .error (.outsideImage start stop m.size),
        m, []⟩ := by
  simp [requireWindow, Action.bind_apply]

/-- Fails with a violated invariant if assertions are checked and the condition does not hold. -/
def assert (holds : Bool) (broken : Assertion) : Action Memory Unit := do
  let m ← Action.get
  Action.require (!m.checks.assertions || holds) (.assertion broken)

theorem assert_apply (holds : Bool) (broken : Assertion) (m : Memory) :
    assert holds broken m =
      ⟨if !m.checks.assertions || holds then .ok () else .error (.assertion broken), m, []⟩ := by
  simp [assert, Action.bind_apply]

end Memory

end LinearHost
