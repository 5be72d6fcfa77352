import LinearHost.Memory.Alloc

/-!
# Stack frames

Opening a frame saves the top of the stack, closing it restores the top. Frames are closed in the
reverse order of their opening. A frame without content can be skipped: its token does nothing.

## Main definitions

* `Frame`: the token of a frame.
* `Memory.enter`, `Memory.exit`: opening and closing.
-/

namespace LinearHost

inductive Frame where
  | active (savedTop depth : Nat)
  | elided
deriving DecidableEq, Repr

namespace Frame

def isElided : Frame → Bool
  | active .. => false
  | elided => true

/-- The top of the stack when the frame was opened. -/
def savedTop? : Frame → Option Nat
  | active savedTop _ => some savedTop
  | elided => none

/-- The number of frames that were open then, this one included. -/
def depth? : Frame → Option Nat
  | active _ depth => some depth
  | elided => none

end Frame

namespace Memory

/-- Tells whether a frame of `initial` bytes is skipped. -/
def skips (m : Memory) (initial : Nat) (forced : Bool) : Bool :=
  initial = 0 && !forced && m.checks.skipEmptyFrames && !m.checks.stackInvalidation

/-- Opens a frame that starts with a block of `initial` bytes. A forced frame is never skipped. -/
def openFrame (initial : Nat) (forced : Bool) : Action Memory Frame := do
  let m ← Action.get
  if m.skips initial forced then
    return .elided
  else
    assert (m.quantum.isAligned initial) (.unalignedFrame initial m.quantum.bytes)
    let savedTop := m.stack.top
    let _ ← if 0 < initial then stackAlloc initial else pure savedTop
    let depth := m.depth + 1
    Action.modify fun m => { m with frames := savedTop :: m.frames }
    Action.note (.frameOpened depth savedTop initial)
    return .active savedTop depth

/-- Opens a frame, or skips it if it is empty and may be skipped. -/
def enter (initial : Nat) : Action Memory Frame :=
  openFrame initial false

def enterForced (initial : Nat) : Action Memory Frame :=
  openFrame initial true

/-- Clears and poisons what the stack leaves behind when its top falls back to `savedTop`, if that is
asked for. -/
def release (savedTop : Nat) : Action Memory Unit := do
  let m ← Action.get
  if m.checks.stackInvalidation && savedTop < m.stack.top then
    requireWindow savedTop m.stack.top
    Action.modify fun m =>
      { m with image := m.image.update savedTop m.stack.top fun _ => .poisoned }
  else
    return

/-- Closes the innermost frame and restores the top that it saved. -/
def exit : Frame → Action Memory Unit
  | .elided => return
  | .active savedTop depth => do
    let m ← Action.get
    Action.require (m.depth = depth && m.frames.head? = some savedTop)
      (.frameOrder m.depth depth)
    Action.modify fun m => { m with frames := m.frames.tail }
    release savedTop
    Action.note (.frameClosed depth m.stack.top savedTop)
    moveStackTop savedTop

def restore (top : Nat) : Action Memory Unit :=
  moveStackTop top

end Memory

end LinearHost
