import LinearHost.Memory.Frame
import LinearHost.Proofs.Memory.Allocation

/-!
# What opening and closing a frame can do

A frame is skipped, refused, or opened with or without a block of its own. It is closed only when it
is the innermost one, and then the top that it saved is restored.

## Main definitions

* `Memory.Opened`, `Memory.openFrame_cases`: what becomes of opening a frame.
* `Memory.Closed`, `Memory.exit_cases`: what becomes of closing one.
-/

namespace LinearHost.Memory

def withFrame (m : Memory) (savedTop : Nat) : Memory := { m with frames := savedTop :: m.frames }

def nextFrame (m : Memory) : Frame := .active m.stack.top (m.depth + 1)

def popped (m : Memory) : Memory := { m with frames := m.frames.tail }

def released (m : Memory) (savedTop : Nat) : Image :=
  if m.checks.stackInvalidation = true ∧ savedTop < m.stack.top then
    m.image.update savedTop m.stack.top fun _ => .poisoned
  else m.image

def closed (m : Memory) (savedTop : Nat) : Memory :=
  { m with
    frames := m.frames.tail
    image := m.released savedTop
    stack := { m.stack with top := savedTop } }

inductive Opened (m : Memory) (initial : Nat) (forced : Bool) : Except Fault Frame → Memory → Prop where
  | skipped (skip : m.skips initial forced = true) : Opened m initial forced (.ok .elided) m
  | unaligned (kept : m.skips initial forced = false) (asserted : m.checks.assertions = true)
      (unaligned : m.quantum.isAligned initial = false) :
      Opened m initial forced
        (.error (.assertion (.unalignedFrame initial m.quantum.bytes))) m
  | empty (kept : m.skips initial forced = false)
      (aligned : m.checks.assertions = true → m.quantum.isAligned initial = true)
      (zero : initial = 0) :
      Opened m initial forced (.ok m.nextFrame) (m.withFrame m.stack.top)
  | filled {room : Memory} (kept : m.skips initial forced = false)
      (aligned : m.checks.assertions = true → m.quantum.isAligned initial = true)
      (positive : 0 < initial) (block : StackAllocated m initial (.ok m.stack.top) room) :
      Opened m initial forced (.ok m.nextFrame) (room.withFrame m.stack.top)
  | failed {room : Memory} {fault : Fault} (kept : m.skips initial forced = false)
      (aligned : m.checks.assertions = true → m.quantum.isAligned initial = true)
      (positive : 0 < initial) (block : StackAllocated m initial (.error fault) room) :
      Opened m initial forced (.error fault) room

inductive Closed (m : Memory) : Frame → Except Fault Unit → Memory → Prop where
  | elided : Closed m .elided (.ok ()) m
  /-- The frame is not the innermost one. -/
  | unordered {savedTop depth : Nat}
      (other : ¬ (m.depth = depth ∧ m.frames.head? = some savedTop)) :
      Closed m (.active savedTop depth) (.error (.frameOrder m.depth depth)) m
  | closed {savedTop : Nat} (innermost : m.frames.head? = some savedTop)
      (inside : m.checks.stackInvalidation = true → savedTop < m.stack.top →
        m.hasWindow savedTop m.stack.top = true) :
      Closed m (.active savedTop m.depth) (.ok ()) (m.closed savedTop)
  /-- What the stack leaves behind reaches outside the image. -/
  | escaped {savedTop : Nat} (innermost : m.frames.head? = some savedTop)
      (checked : m.checks.stackInvalidation = true) (lower : savedTop < m.stack.top)
      (outside : m.hasWindow savedTop m.stack.top = false) :
      Closed m (.active savedTop m.depth) (.error (.outsideImage savedTop m.stack.top m.size))
        m.popped

theorem StackAllocated.address_eq {m room : Memory} {size address : Nat}
    (allocated : StackAllocated m size (.ok address) room) : address = m.stack.top := by
  cases allocated
  rfl

/-- Taking a block of the stack leaves the open frames alone. -/
theorem StackAllocated.frames_eq {m room : Memory} {size : Nat} {result : Except Fault Nat}
    (allocated : StackAllocated m size result room) : room.frames = m.frames := by
  cases allocated <;> rfl

/-- A frame is skipped, opened with its block, or not opened because of its size. -/
theorem openFrame_cases (m : Memory) (ordered : m.stack.Ordered) (initial : Nat) (forced : Bool) :
    Opened m initial forced (openFrame initial forced m).result
      (openFrame initial forced m).state := by
  cases kept : m.skips initial forced with
  | true => simpa [openFrame, Action.bind_apply, kept] using Opened.skipped kept
  | false =>
    cases passes : !m.checks.assertions || m.quantum.isAligned initial with
    | false =>
      obtain ⟨asserted, unaligned⟩ :
          m.checks.assertions = true ∧ m.quantum.isAligned initial = false := by
        simpa using passes
      simpa [openFrame, assert_apply, Action.bind_apply, kept, passes] using
        Opened.unaligned kept asserted unaligned
    | true =>
      have aligned : m.checks.assertions = true → m.quantum.isAligned initial = true := by
        simpa [Decidable.imp_iff_not_or] using passes
      by_cases positive : 0 < initial
      · have block := stackAlloc_cases m ordered initial
        cases answer : (stackAlloc initial m).result with
        | error fault =>
          rw [answer] at block
          simpa [openFrame, assert_apply, Action.result_bind, Action.state_bind, kept, passes,
            positive, answer] using Opened.failed kept aligned positive block
        | ok address =>
          rw [answer] at block
          obtain rfl := block.address_eq
          simpa [openFrame, assert_apply, Action.result_bind, Action.state_bind, kept, passes,
            positive, answer, nextFrame, withFrame] using Opened.filled kept aligned positive block
      · obtain rfl : initial = 0 := by omega
        simpa [openFrame, assert_apply, Action.bind_apply, kept, passes, nextFrame, withFrame] using
          Opened.empty kept aligned rfl

/-- What is done for a frame before it counts as open. -/
def frameBlock (initial : Nat) : Action Memory Unit := do
  let m ← Action.get
  assert (m.quantum.isAligned initial) (.unalignedFrame initial m.quantum.bytes)
  if 0 < initial then
    let _ ← stackAlloc initial
    return
  else
    return

theorem frameBlock_zero (m : Memory) : frameBlock 0 m = ⟨.ok (), m, []⟩ := by
  simp [frameBlock, assert_apply, Action.bind_apply, Quantum.isAligned]

/-- A frame that is not skipped is opened once its block is taken. -/
theorem openFrame_of_kept {m : Memory} {initial : Nat} {forced : Bool}
    (kept : m.skips initial forced = false) :
    (openFrame initial forced m).result =
        (frameBlock initial m).result.map (fun _ => m.nextFrame) ∧
      (openFrame initial forced m).state =
        match (frameBlock initial m).result with
        | .ok _ => (frameBlock initial m).state.withFrame m.stack.top
        | .error _ => (frameBlock initial m).state := by
  cases passes : !m.checks.assertions || m.quantum.isAligned initial with
  | false =>
    simp [openFrame, frameBlock, kept, assert_apply, passes, Action.bind_apply, Except.map]
  | true =>
    by_cases positive : 0 < initial
    · cases answer : (stackAlloc initial m).result <;>
        simp [openFrame, frameBlock, kept, assert_apply, passes, positive, Action.result_bind,
          Action.state_bind, answer, Except.map, nextFrame, withFrame]
    · simp [openFrame, frameBlock, kept, assert_apply, passes, positive, Action.bind_apply,
        Except.map, nextFrame, withFrame]

/-- What a frame leaves behind is cleared and marked only if that is asked for. -/
theorem release_apply (m : Memory) (savedTop : Nat) :
    release savedTop m =
      if m.checks.stackInvalidation = true ∧ savedTop < m.stack.top then
        if m.hasWindow savedTop m.stack.top then ⟨.ok (), { m with image := m.released savedTop }, []⟩
        else ⟨.error (.outsideImage savedTop m.stack.top m.size), m, []⟩
      else ⟨.ok (), m, []⟩ := by
  by_cases lower : m.checks.stackInvalidation = true ∧ savedTop < m.stack.top
  · cases inside : m.hasWindow savedTop m.stack.top <;>
      simp [release, released, Action.bind_apply, lower, inside]
  · simp [release, Action.bind_apply, lower]

/-- Closing the innermost frame pops it, releases its cells and moves the top, in this order. -/
theorem exit_innermost {m : Memory} {savedTop : Nat} (innermost : m.frames.head? = some savedTop) :
    exit (.active savedTop m.depth) m =
      (do
        release savedTop
        Action.note (.frameClosed m.depth m.stack.top savedTop)
        moveStackTop savedTop) m.popped := by
  simp [exit, Action.bind_apply, innermost, popped]

/-- The innermost frame is closed, a skipped one needs nothing, and all others are refused. -/
theorem exit_cases (m : Memory) (saved : ∀ top ∈ m.frames, m.stack.base ≤ top ∧ top ≤ m.stack.limit)
    (frame : Frame) : Closed m frame (exit frame m).result (exit frame m).state := by
  cases frame with
  | elided => exact .elided
  | active savedTop depth =>
    by_cases innermost : m.depth = depth ∧ m.frames.head? = some savedTop
    · obtain ⟨rfl, innermost⟩ := innermost
      have back := saved savedTop (List.mem_of_mem_head? innermost)
      rw [exit_innermost innermost]
      by_cases lower : m.checks.stackInvalidation = true ∧ savedTop < m.stack.top
      · cases inside : m.hasWindow savedTop m.stack.top with
        | true =>
          have release : release savedTop m.popped =
              ⟨.ok (), { m.popped with image := m.released savedTop }, []⟩ := by
            rw [release_apply]
            exact (if_pos lower).trans (if_pos inside)
          have closed := Closed.closed innermost fun _ _ => inside
          simp only [Action.bind_apply, release]
          simpa [moveStackTop_apply, popped, back, Memory.closed] using closed
        | false =>
          have release : release savedTop m.popped =
              ⟨.error (.outsideImage savedTop m.stack.top m.size), m.popped, []⟩ := by
            rw [release_apply]
            refine (if_pos lower).trans (if_neg ?_)
            show ¬ m.hasWindow savedTop m.stack.top = true
            simp [inside]
          simpa [Action.bind_apply, release] using
            Closed.escaped innermost lower.1 lower.2 inside
      · have release : release savedTop m.popped = ⟨.ok (), m.popped, []⟩ := by
          rw [release_apply]
          exact if_neg lower
        have kept : m.released savedTop = m.image := if_neg lower
        have closed := Closed.closed innermost fun checked less => absurd ⟨checked, less⟩ lower
        simp only [Action.bind_apply, release]
        simpa [moveStackTop_apply, popped, back, Memory.closed, kept] using closed
    · simpa [exit, Action.result_bind, Action.state_bind, innermost] using Closed.unordered innermost

end LinearHost.Memory
