import LinearHost.Proofs.Along
import LinearHost.Proofs.Memory.Blind
import LinearHost.Proofs.Memory.Change

/-!
# Programs that close their frames in order

A program that keeps the tokens of its frames and closes them in the reverse order of their opening
is a list of commands on a session. Its tokens are always those of the open frames, so no frame is
ever refused.

## Main definitions

* `Command`, `Session`: programs that hold the tokens of their frames, and their steps.
* `Session.trace`: what a program gets to see.
* `Session.Balanced`: the stack is back where it was whenever a skipped frame is closed.
* `Session.Tracked`: the tokens are those of the open frames.
-/

namespace LinearHost

/-- A command of a program that closes its frames in the reverse order of their opening. -/
inductive Command where
  | enter (initial : Nat)
  | enterForced (initial : Nat)
  /-- Close the frame whose token was given last, among those not closed yet. -/
  | leave
  | stackAlloc (size : Nat)
  | staticAlloc (size : Nat)
  | read (address size : Nat)
  | write (address : Nat) (bytes : List UInt8)
  | load (type : ScalarType) (address : Nat)
  | store (address : Nat) (x : Scalar)
deriving DecidableEq, Repr

structure Token where
  frame : Frame
  top : Nat
deriving DecidableEq, Repr

/-- A memory and the tokens that a program holds, the last one first. -/
structure Session where
  memory : Memory
  held : List Token

namespace Session

def plain (s : Session) (op : Operation) : Except Fault Answer × Session :=
  let outcome := Memory.step op s.memory
  (outcome.result, { s with memory := outcome.state })

/-- Opening a frame; its token is kept, not seen. -/
def opening (s : Session) (initial : Nat) (forced : Bool) : Except Fault Answer × Session :=
  let outcome := Memory.openFrame initial forced s.memory
  match outcome.result with
  | .ok frame => (.ok .done, ⟨outcome.state, ⟨frame, s.memory.stack.top⟩ :: s.held⟩)
  | .error fault => (.error fault, ⟨outcome.state, s.held⟩)

def closing (s : Session) : Except Fault Answer × Session :=
  match s.held with
  | [] => (.ok .done, s)
  | token :: rest =>
    let outcome := Memory.exit token.frame s.memory
    (outcome.result.map fun _ => .done, ⟨outcome.state, rest⟩)

def step (s : Session) : Command → Except Fault Answer × Session
  | .enter initial => s.opening initial false
  | .enterForced initial => s.opening initial true
  | .leave => s.closing
  | .stackAlloc size => s.plain (.stackAlloc size)
  | .staticAlloc size => s.plain (.staticAlloc size)
  | .read address size => s.plain (.read address size)
  | .write address bytes => s.plain (.write address bytes)
  | .load type address => s.plain (.load type address)
  | .store address x => s.plain (.store address x)

def next (s : Session) (command : Command) : Session := (s.step command).2

/-- What a program gets to see: the answer to each command, and where the top of the stack is then. -/
def trace (s : Session) : List Command → List (Except Fault Answer × Nat)
  | [] => []
  | command :: rest =>
    ((s.step command).1, (s.next command).memory.stack.top) :: (s.next command).trace rest

/-- When a skipped frame is closed, the top is where it was when the frame was skipped. -/
def BalancedAt (s : Session) (command : Command) : Prop :=
  command = .leave → ∀ token rest, s.held = token :: rest → token.frame = .elided →
    s.memory.stack.top = token.top

/-- When a frame is closed, this succeeds, and the top is back where it was when it was opened. -/
def RestoredAt (s : Session) (command : Command) : Prop :=
  command = .leave → ∀ token rest, s.held = token :: rest →
    (s.step command).1 = .ok .done ∧ (s.next command).memory.stack.top = token.top

/-- No skipped frame is closed with blocks on the stack that were taken since. -/
def Balanced (s : Session) (commands : List Command) : Prop := Along next BalancedAt commands s

def Restored (s : Session) (commands : List Command) : Prop := Along next RestoredAt commands s

/-! ### Tokens and open frames -/

inductive Matching : List Token → List Nat → Prop where
  | nil : Matching [] []
  | active {held : List Token} {frames : List Nat} {savedTop : Nat}
      (rest : Matching held frames) :
      Matching (⟨.active savedTop (frames.length + 1), savedTop⟩ :: held) (savedTop :: frames)
  | elided {held : List Token} {frames : List Nat} {top : Nat} (rest : Matching held frames) :
      Matching (⟨.elided, top⟩ :: held) frames

/-- The tokens are those of the open frames, and closing a frame clears nothing. -/
structure Tracked (s : Session) : Prop where
  orderly : s.memory.Orderly
  unpoisoned : s.memory.checks.stackInvalidation = false
  matching : Matching s.held s.memory.frames

end Session

namespace Memory

variable {m : Memory} {savedTop : Nat}

def returned (m : Memory) (frames : List Nat) (top : Nat) : Memory :=
  { m with frames, stack := { m.stack with top } }

/-- Without invalidation, closing the innermost frame only pops it and restores the top. -/
theorem exit_of_innermost (orderly : m.Orderly) (unpoisoned : m.checks.stackInvalidation = false)
    {rest : List Nat} (frames : m.frames = savedTop :: rest) :
    (exit (.active savedTop (rest.length + 1)) m).result = .ok () ∧
      (exit (.active savedTop (rest.length + 1)) m).state = m.returned rest savedTop := by
  have innermost : m.frames.head? = some savedTop := by simp [frames]
  have depth : rest.length + 1 = m.depth := by simp [Memory.depth, frames]
  rw [depth]
  have closed := exit_cases m orderly.saved (.active savedTop m.depth)
  generalize (exit (.active savedTop m.depth) m).result = result at closed ⊢
  generalize (exit (.active savedTop m.depth) m).state = state at closed ⊢
  generalize found : Frame.active savedTop m.depth = frame at closed
  cases closed with
  | elided => cases found
  | unordered other =>
    cases found
    exact absurd ⟨rfl, innermost⟩ other
  | closed _ inside =>
    obtain ⟨rfl, -⟩ := Frame.active.inj found
    refine ⟨rfl, ?_⟩
    simp [Memory.closed, returned, released, unpoisoned, frames]
  | escaped _ checked lower outside => simp [unpoisoned] at checked

theorem Orderly.returned (orderly : m.Orderly) {frames : List Nat}
    (open_frames : m.frames = savedTop :: frames) : (m.returned frames savedTop).Orderly := by
  have saved : ∀ top ∈ savedTop :: frames, m.stack.base ≤ top ∧ top ≤ m.stack.limit :=
    open_frames ▸ orderly.saved
  obtain ⟨base_le, le_limit⟩ := saved savedTop (List.mem_cons_self ..)
  refine ⟨fun kind => ?_, fun top opened => saved top (List.mem_cons_of_mem _ opened)⟩
  cases kind with
  | stack => exact ⟨base_le, le_limit⟩
  | static => exact orderly.ordered .static

end Memory

namespace Session

variable {s : Session} {op : Operation} {token : Token} {rest : List Token}

/-- A command is about no frame, or it opens one, or it closes one. -/
theorem step_cases (command : Command) :
    (∃ op, Memory.Blind (Memory.step op) ∧ ∀ s : Session, s.step command = s.plain op) ∨
      (∃ initial forced, ∀ s : Session, s.step command = s.opening initial forced) ∨
      command = .leave := by
  cases command with
  | enter initial => exact .inr (.inl ⟨initial, false, fun _ => rfl⟩)
  | enterForced initial => exact .inr (.inl ⟨initial, true, fun _ => rfl⟩)
  | leave => exact .inr (.inr rfl)
  | stackAlloc size => exact .inl ⟨_, Memory.blind_step_stackAlloc size, fun _ => rfl⟩
  | staticAlloc size => exact .inl ⟨_, Memory.blind_step_staticAlloc size, fun _ => rfl⟩
  | read address size => exact .inl ⟨_, Memory.blind_step_read address size, fun _ => rfl⟩
  | write address bytes => exact .inl ⟨_, Memory.blind_step_write address bytes, fun _ => rfl⟩
  | load type address => exact .inl ⟨_, Memory.blind_step_load type address, fun _ => rfl⟩
  | store address x => exact .inl ⟨_, Memory.blind_step_store address x, fun _ => rfl⟩

theorem opening_of_ok {initial : Nat} {forced : Bool} {frame : Frame}
    (answer : (Memory.openFrame initial forced s.memory).result = .ok frame) :
    s.opening initial forced =
      (.ok .done, ⟨(Memory.openFrame initial forced s.memory).state,
        ⟨frame, s.memory.stack.top⟩ :: s.held⟩) := by
  simp [Session.opening, answer]

theorem opening_of_error {initial : Nat} {forced : Bool} {fault : Fault}
    (answer : (Memory.openFrame initial forced s.memory).result = .error fault) :
    s.opening initial forced =
      (.error fault, ⟨(Memory.openFrame initial forced s.memory).state, s.held⟩) := by
  simp [Session.opening, answer]

theorem Tracked.plain (blind : Memory.Blind (Memory.step op)) (tracked : s.Tracked) :
    (s.plain op).2.Tracked := by
  have change := Memory.step_change s.memory tracked.orderly op
  refine ⟨change.orderly tracked.orderly, ?_, ?_⟩
  · have checks := change.checks_eq
    exact (congrArg Checks.stackInvalidation checks).trans tracked.unpoisoned
  · have frames := (blind.kept s.memory).1
    exact frames ▸ tracked.matching

theorem Tracked.opening (tracked : s.Tracked) (initial : Nat) (forced : Bool) :
    (s.opening initial forced).2.Tracked := by
  have opened := Memory.openFrame_cases s.memory (tracked.orderly.ordered .stack) initial forced
  simp only [Session.opening]
  generalize (Memory.openFrame initial forced s.memory).result = result at opened ⊢
  generalize (Memory.openFrame initial forced s.memory).state = state at opened ⊢
  have change : Memory.Change s.memory (.enter initial) (result.map .frame) state :=
    opened.change rfl
  have orderly := change.orderly tracked.orderly
  have unpoisoned := (congrArg Checks.stackInvalidation change.checks_eq).trans tracked.unpoisoned
  have matching := tracked.matching
  cases opened with
  | skipped skip => exact ⟨orderly, unpoisoned, .elided matching⟩
  | unaligned kept asserted unaligned => exact ⟨orderly, unpoisoned, matching⟩
  | empty kept aligned zero => exact ⟨orderly, unpoisoned, .active matching⟩
  | filled kept aligned positive block =>
    refine ⟨orderly, unpoisoned, ?_⟩
    have frames := block.frames_eq
    simpa [Memory.withFrame, Memory.nextFrame, Memory.depth, frames] using
      Matching.active matching
  | failed kept aligned positive block =>
    exact ⟨orderly, unpoisoned, block.frames_eq ▸ matching⟩

/-- Closing the frame of a token does nothing if the frame was skipped, and otherwise returns to the
top at which the token was given. -/
theorem Tracked.closing_cases (tracked : s.Tracked) (held : s.held = token :: rest) :
    (token.frame = .elided ∧ s.closing = (.ok .done, ⟨s.memory, rest⟩) ∧
        Matching rest s.memory.frames) ∨
      (token.frame ≠ .elided ∧ ∃ frames, s.memory.frames = token.top :: frames ∧
        s.closing = (.ok .done, ⟨s.memory.returned frames token.top, rest⟩) ∧
        Matching rest frames) := by
  have matching := tracked.matching
  generalize found : s.memory.frames = frames at matching
  rw [held] at matching
  cases matching with
  | elided others =>
    refine .inl ⟨rfl, ?_, others⟩
    simp [Session.closing, held, Memory.exit, Except.map]
  | active others =>
    obtain ⟨answer, state⟩ :=
      Memory.exit_of_innermost tracked.orderly tracked.unpoisoned found
    refine .inr ⟨fun skipped => ?_, _, rfl, ?_, others⟩
    · cases skipped
    · simp [Session.closing, held, answer, state, Except.map]

/-- Closing a frame keeps the tokens those of the open frames. -/
theorem Tracked.closing (tracked : s.Tracked) : s.closing.2.Tracked := by
  cases held : s.held with
  | nil => simpa [Session.closing, held] using tracked
  | cons token rest =>
    obtain ⟨-, closing, others⟩ | ⟨-, frames, found, closing, others⟩ := tracked.closing_cases held
    · rw [closing]
      exact ⟨tracked.orderly, tracked.unpoisoned, others⟩
    · rw [closing]
      exact ⟨tracked.orderly.returned found, tracked.unpoisoned, others⟩

theorem Tracked.next (tracked : s.Tracked) (command : Command) : (s.next command).Tracked := by
  unfold Session.next
  rcases step_cases command with ⟨op, blind, plain⟩ | ⟨initial, forced, opening⟩ | rfl
  · rw [plain]
    exact tracked.plain blind
  · rw [opening]
    exact tracked.opening initial forced
  · exact tracked.closing

/-- Closing a frame gives the stack back exactly if the frame was open, or the stack is as it was. -/
theorem Tracked.restoredAt_iff (tracked : s.Tracked) (command : Command) :
    s.RestoredAt command ↔ s.BalancedAt command := by
  constructor
  · rintro restored rfl token rest held skipped
    obtain ⟨-, top⟩ := restored rfl token rest held
    obtain ⟨-, closing, -⟩ | ⟨opened, -⟩ := tracked.closing_cases held
    · simpa [Session.next, step, closing] using top
    · exact absurd skipped opened
  · rintro balanced rfl token rest held
    obtain ⟨skipped, closing, -⟩ | ⟨-, frames, -, closing, -⟩ := tracked.closing_cases held
    · have top := balanced rfl token rest held skipped
      simpa [Session.next, step, closing] using top
    · simp [Session.next, step, closing, Memory.returned]

end Session

end LinearHost
