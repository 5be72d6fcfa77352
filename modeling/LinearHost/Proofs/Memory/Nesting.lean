import LinearHost.Proofs.Along
import LinearHost.Proofs.Memory.Blind
import LinearHost.Proofs.Memory.WellFormed

/-!
# Nesting of frames

Frames nest: an operation opens one more, closes the innermost one, or leaves them all alone. So the
top that a frame saved is kept as long as the frame is open, whatever happens to the stack meanwhile,
and closing the frame returns to it. A token is only its saved top and its depth. Once its frame is
closed it is refused, until a later frame is opened at the same top and depth, whose token it then
is.

## Main definitions

* `Memory.saved?`: the top that an open frame saved.
* `Memory.StaysOpen`: the frames up to a depth are not closed.
* `Memory.exit_returns`: frames are closed in the reverse order of their opening.
* `Memory.LeavesOpen`: an operation of a run answers a token, whose frame stays open.
* `Memory.stale_exit_refused_iff`: when the token of a closed frame is refused.
-/

namespace LinearHost.Memory

variable {m : Memory} {op : Operation} {ops : List Operation} {savedTop depth outer : Nat}

/-! ### Closing a frame -/

/-- A token that is not the one of the innermost frame is refused. -/
theorem step_exit_of_other (other : ¬ (depth = m.depth ∧ m.frames.head? = some savedTop)) :
    (step (.exit (.active savedTop depth)) m).result = .error (.frameOrder m.depth depth) ∧
      (step (.exit (.active savedTop depth)) m).state = m := by
  have other : ¬ (m.depth = depth ∧ m.frames.head? = some savedTop) := by
    rwa [eq_comm (a := m.depth)]
  simp [step, exit, Action.result_bind, Action.state_bind, other]

/-- The innermost frame is closed, unless what it leaves behind reaches outside the image. -/
theorem step_exit_of_innermost (orderly : m.Orderly)
    (innermost : m.frames.head? = some savedTop) :
    let outcome := step (.exit (.active savedTop m.depth)) m
    outcome.result = .ok .done ∧ outcome.state = m.closed savedTop ∨
      outcome.result = .error (.outsideImage savedTop m.stack.top m.size) ∧
        m.hasWindow savedTop m.stack.top = false ∧ savedTop < m.stack.top ∧
        outcome.state = m.popped := by
  have closed := exit_cases m orderly.saved (.active savedTop m.depth)
  simp only [step, Action.result_bind_pure, Action.state_bind_pure]
  generalize (exit (.active savedTop m.depth) m).result = result at closed ⊢
  generalize (exit (.active savedTop m.depth) m).state = after at closed ⊢
  cases closed with
  | unordered other => exact absurd ⟨rfl, innermost⟩ other
  | closed _ inside => exact .inl ⟨rfl, rfl⟩
  | escaped _ checked lower outside => exact .inr ⟨rfl, outside, lower, rfl⟩

/-- In a well-formed memory the innermost frame is closed. -/
theorem WellFormed.step_exit (sound : m.WellFormed)
    (innermost : m.frames.head? = some savedTop) :
    (step (.exit (.active savedTop m.depth)) m).result = .ok .done ∧
      (step (.exit (.active savedTop m.depth)) m).state = m.closed savedTop := by
  obtain closed | ⟨-, outside, lower, -⟩ := step_exit_of_innermost sound.toOrderly innermost
  · exact closed
  · rw [sound.hasWindow_stack lower] at outside
    cases outside

/-- Only the token of the innermost frame closes a frame. -/
theorem innermost_of_step_exit
    (succeeds : (step (.exit (.active savedTop depth)) m).result = .ok .done) :
    depth = m.depth ∧ m.frames.head? = some savedTop := by
  refine Decidable.byContradiction fun other => ?_
  rw [(step_exit_of_other other).1] at succeeds
  cases succeeds

/-- No frame is closed that saved a top outside the stack. -/
theorem step_exit_ne_invalidAddress (orderly : m.Orderly) (frame : Frame) (address size : Nat) :
    (step (.exit frame) m).result ≠ .error (.invalidAddress address size) := by
  have closed := exit_cases m orderly.saved frame
  simp only [step, Action.result_bind_pure]
  generalize (exit frame m).result = result at closed ⊢
  generalize (exit frame m).state = after at closed
  cases closed <;> simp [Except.map]

/-! ### What a step does to the open frames -/

inductive Nested (m : Memory) : Except Fault Answer → List Nat → Prop where
  | kept {result : Except Fault Answer}
      (unopened : ∀ savedTop depth, result ≠ .ok (.frame (.active savedTop depth))) :
      Nested m result m.frames
  | opened : Nested m (.ok (.frame m.nextFrame)) (m.stack.top :: m.frames)
  | closed {result : Except Fault Answer} {savedTop : Nat} {frames : List Nat}
      (unopened : ∀ savedTop depth, result ≠ .ok (.frame (.active savedTop depth)))
      (innermost : m.frames = savedTop :: frames) : Nested m result frames

/-- What fails opens no frame. -/
theorem Nested.failed (fault : Fault) : Nested m (.error fault) m.frames := .kept nofun

theorem Opened.nested {initial : Nat} {forced : Bool} {result : Except Fault Frame}
    {after : Memory} (opened : Opened m initial forced result after) :
    Nested m (result.map .frame) after.frames := by
  cases opened with
  | skipped skip => exact .kept (by simp [Except.map])
  | unaligned kept asserted unaligned => exact .failed _
  | empty kept aligned zero => exact .opened
  | filled kept aligned positive block =>
    rw [withFrame, block.frames_eq]
    exact .opened
  | failed kept aligned positive block =>
    rw [block.frames_eq]
    exact .failed _

theorem Closed.nested {frame : Frame} {result : Except Fault Unit} {after : Memory}
    (closed : Closed m frame result after) :
    Nested m (result.map fun _ => .done) after.frames := by
  have popped {savedTop : Nat} (innermost : m.frames.head? = some savedTop) :
      m.frames = savedTop :: m.frames.tail := by
    obtain ⟨rest, frames⟩ := List.head?_eq_some_iff.mp innermost
    rw [frames, List.tail_cons]
  cases closed with
  | elided => exact .kept nofun
  | unordered other => exact .failed _
  | closed innermost inside => exact .closed nofun (popped innermost)
  | escaped innermost checked lower outside => exact .closed nofun (popped innermost)

/-- An operation opens a frame and answers its token, or closes the innermost frame, or does
neither. -/
theorem step_nested (orderly : m.Orderly) (op : Operation) :
    Nested m (step op m).result (next m op).frames := by
  obtain ⟨blind, unopened⟩ | ⟨initial, forced, opening⟩ | ⟨frame, rfl⟩ := step_kinds op
  · rw [next, (blind.kept m).1]
    exact .kept fun _ _ => unopened m _
  · have opened := openFrame_cases m (orderly.ordered .stack) initial forced
    simpa [next, opening] using opened.nested
  · simpa [next, step] using (exit_cases m orderly.saved frame).nested

/-- A token is answered for a frame that saves the present top. -/
theorem frames_of_opened (orderly : m.Orderly)
    (opened : (step op m).result = .ok (.frame (.active savedTop depth))) :
    savedTop = m.stack.top ∧ depth = m.depth + 1 ∧
      (next m op).frames = m.stack.top :: m.frames := by
  have nested := step_nested orderly op
  rw [opened] at nested
  generalize (next m op).frames = frames at nested ⊢
  generalize found : Except.ok (Answer.frame (.active savedTop depth)) = result at nested
  cases nested with
  | kept unopened => exact absurd found.symm (unopened savedTop depth)
  | opened =>
    cases found
    exact ⟨rfl, rfl, rfl⟩
  | closed unopened innermost => exact absurd found.symm (unopened savedTop depth)

/-! ### Frames that stay open -/

/-- The top that the frame saved which has `outer` frames around it. -/
def saved? (m : Memory) (outer : Nat) : Option Nat := m.frames.reverse[outer]?

/-- Along a run the number of open frames never falls below `depth`. -/
def StaysOpen (depth : Nat) (ops : List Operation) (m : Memory) : Prop :=
  Along next (fun m op => depth ≤ (next m op).depth) ops m

instance (depth : Nat) (ops : List Operation) (m : Memory) : Decidable (StaysOpen depth ops m) :=
  inferInstanceAs (Decidable (Along ..))

theorem saved?_of_depth (innermost : m.depth = outer + 1) : m.saved? outer = m.frames.head? := by
  rw [depth] at innermost
  rw [saved?, List.getElem?_reverse (by omega), innermost, List.head?_eq_getElem?]
  congr 1
  omega

/-- A frame that is open before and after an operation is the same frame. -/
theorem saved?_next (orderly : m.Orderly) (before : outer < m.depth)
    (after : outer < (next m op).depth) : (next m op).saved? outer = m.saved? outer := by
  have nested := step_nested orderly op
  unfold saved? depth at *
  generalize (next m op).frames = frames at nested after ⊢
  generalize (step op m).result = result at nested
  cases nested with
  | kept unopened => rfl
  | opened =>
    rw [List.reverse_cons, List.getElem?_append_left]
    simpa using before
  | closed unopened innermost =>
    rw [innermost, List.reverse_cons, List.getElem?_append_left]
    simpa using after

/-- Only an operation that answers the token of a frame opens it. -/
theorem opened_of_depth (orderly : m.Orderly) (before : m.depth ≤ outer)
    (after : outer < (next m op).depth) :
    m.depth = outer ∧ (step op m).result = .ok (.frame (.active m.stack.top (outer + 1))) ∧
      (next m op).saved? outer = some m.stack.top := by
  have nested := step_nested orderly op
  unfold saved? depth at *
  generalize (next m op).frames = frames at nested after ⊢
  generalize (step op m).result = result at nested ⊢
  cases nested with
  | kept unopened => omega
  | opened =>
    rw [List.length_cons] at after
    obtain rfl : m.frames.length = outer := by omega
    refine ⟨rfl, rfl, ?_⟩
    rw [List.reverse_cons, ← List.length_reverse, List.getElem?_concat_length]
  | closed unopened innermost =>
    rw [innermost, List.length_cons] at before
    omega

/-- An open frame keeps the top that it saved. -/
theorem saved?_reached (orderly : m.Orderly) (before : outer < m.depth)
    (stays : StaysOpen (outer + 1) ops m) : (reached ops m).saved? outer = m.saved? outer := by
  induction ops generalizing m with
  | nil => rfl
  | cons op rest ih =>
    obtain ⟨after, others⟩ := stays
    rw [reached_cons]
    exact (ih (orderly.next op) after others).trans
      (saved?_next orderly before after)

/-- A frame that stays open until it is the innermost one again still has its token. -/
theorem innermost_of_staysOpen (orderly : m.Orderly)
    (opened : (step op m).result = .ok (.frame (.active savedTop depth)))
    (stays : StaysOpen depth ops (next m op)) (closable : (reached ops (next m op)).depth = depth) :
    (reached ops (next m op)).frames.head? = some savedTop := by
  obtain ⟨rfl, rfl, frames⟩ := frames_of_opened orderly opened
  have nextDepth : (next m op).depth = m.depth + 1 := congrArg List.length frames
  calc (reached ops (next m op)).frames.head?
      = (reached ops (next m op)).saved? m.depth := (saved?_of_depth closable).symm
    _ = (next m op).saved? m.depth := saved?_reached (orderly.next op) (by omega) stays
    _ = (next m op).frames.head? := saved?_of_depth nextDepth
    _ = some m.stack.top := by rw [frames, List.head?_cons]

theorem growsStack_of_opened {frame : Frame} (opened : (step op m).result = .ok (.frame frame)) :
    op.growsStack = false := by
  cases op with
  | alloc policy size alignment =>
    simp only [step, Action.result_bind_pure] at opened
    cases answer : (alloc policy size alignment m).result <;> simp [answer, Except.map] at opened
  | _ => rfl

/-- An operation of a run answers a token, and its frame stays open from then on. -/
def LeavesOpen (savedTop depth : Nat) : List Operation → Memory → Prop
  | [], _ => False
  | op :: rest, m =>
    (step op m).result = .ok (.frame (.active savedTop depth)) ∧ StaysOpen depth rest (next m op) ∨
      LeavesOpen savedTop depth rest (next m op)

/-- A frame that is open at the end of a run was open all along, or was opened during the run and has
been open since. -/
theorem saved?_reached_cases (orderly : m.Orderly)
    (found : (reached ops m).saved? outer = some savedTop) :
    outer < m.depth ∧ StaysOpen (outer + 1) ops m ∨ LeavesOpen savedTop (outer + 1) ops m := by
  induction ops generalizing m with
  | nil =>
    obtain ⟨inside, -⟩ := List.getElem?_eq_some_iff.mp found
    rw [List.length_reverse] at inside
    exact .inl ⟨inside, trivial⟩
  | cons op rest ih =>
    obtain ⟨after, stays⟩ | leaves := ih (orderly.next op) found
    · by_cases before : outer < m.depth
      · exact .inl ⟨before, after, stays⟩
      · -- the frame was opened by this very operation
        obtain ⟨-, opened, saved⟩ := opened_of_depth orderly (Nat.le_of_not_lt before) after
        have kept := saved?_reached (orderly.next op) after stays
        obtain rfl : m.stack.top = savedTop := by
          rw [reached_cons, kept, saved] at found
          exact Option.some.inj found
        exact .inr (.inl ⟨opened, stays⟩)
    · exact .inr (.inr leaves)

/-- The frame that a run leaves open is the innermost one if no other is open inside it. -/
theorem LeavesOpen.innermost (orderly : m.Orderly) (leaves : LeavesOpen savedTop depth ops m)
    (closable : (reached ops m).depth = depth) :
    (reached ops m).frames.head? = some savedTop := by
  induction ops generalizing m with
  | nil => exact leaves.elim
  | cons op rest ih =>
    obtain ⟨opened, stays⟩ | leaves := leaves
    · exact innermost_of_staysOpen orderly opened stays closable
    · exact ih (orderly.next op) leaves closable

/-- To close a frame takes one frame away. -/
theorem depth_of_step_exit (orderly : m.Orderly)
    (closes : (step (.exit (.active savedTop depth)) m).result = .ok .done) :
    (next m (.exit (.active savedTop depth))).depth + 1 = depth := by
  obtain ⟨rfl, innermost⟩ := innermost_of_step_exit closes
  obtain ⟨-, state⟩ | ⟨answer, -⟩ := step_exit_of_innermost orderly innermost
  · obtain ⟨frames, innermost⟩ := List.head?_eq_some_iff.mp innermost
    rw [next, state, closed, Memory.depth, Memory.depth, innermost, List.tail_cons,
      List.length_cons]
  · rw [closes] at answer
    cases answer

/-- Once a frame is closed its token is refused and changes nothing, wherever operations lead, exactly
as long as the innermost frame is not one that was opened later and answered the same token. -/
theorem stale_exit_refused_iff {c : Config} {grower : Grower} {start : Memory}
    (created : create c grower = .ok start) (before : List Operation) {savedTop depth : Nat}
    (closes : (step (.exit (.active savedTop depth)) (reached before start)).result = .ok .done)
    (later : List Operation) :
    let closed := next (reached before start) (.exit (.active savedTop depth))
    let m := reached later closed
    let outcome := step (.exit (.active savedTop depth)) m
    outcome.result = .error (.frameOrder m.depth depth) ∧ outcome.state = m ↔
      ¬ (LeavesOpen savedTop depth later closed ∧ m.depth = depth) := by
  obtain ⟨valid, rfl⟩ := create_eq_ok.mp created
  have beforeOrderly := (ofLayout_wellFormed valid grower).toOrderly.reached before
  intro closed m outcome
  have closedOrderly : closed.Orderly := beforeOrderly.next _
  have orderly : m.Orderly := closedOrderly.reached later
  have closedDepth : closed.depth + 1 = depth := depth_of_step_exit beforeOrderly closes
  constructor
  · rintro ⟨refused, -⟩ ⟨leaves, closable⟩
    have innermost : m.frames.head? = some savedTop := leaves.innermost closedOrderly closable
    have accepted := step_exit_of_innermost orderly innermost
    rw [closable] at accepted
    obtain ⟨answer, -⟩ | ⟨answer, -⟩ := accepted
    · cases refused.symm.trans answer
    · cases refused.symm.trans answer
  · intro unissued
    refine step_exit_of_other ?_
    rintro ⟨same, innermost⟩
    have saved : m.saved? closed.depth = some savedTop :=
      (saved?_of_depth (same.symm.trans closedDepth.symm)).trans innermost
    obtain ⟨stillOpen, -⟩ | leaves := saved?_reached_cases closedOrderly saved
    · omega
    · exact unissued ⟨closedDepth ▸ leaves, same.symm⟩

/-- A frame that is opened later at the same depth, but at another top, does not revive a token. -/
theorem stale_exit_refused_elsewhere :
    ∃ start,
      create { checks := .debug, memory := ⟨64, 512, 512⟩ } .fixed = .ok start ∧
      let closed := next (reached [.enter 8] start) (.exit (.active 8 1))
      let m := reached [.stackAlloc 4, .enter 8] closed
      (step (.exit (.active 8 1)) m).result = .error (.frameOrder 1 1) ∧
      (step (.exit (.active 8 1)) m).state = m := by
  refine ⟨_, create_of_validate rfl _, ?_⟩
  have refused := stale_exit_refused_iff
    (create_of_validate (c := { checks := .debug, memory := ⟨64, 512, 512⟩ }) rfl .fixed)
    [.enter 8] (show (step (.exit (.active 8 1)) _).result = .ok .done from rfl)
    [.stackAlloc 4, .enter 8]
  refine refused.mpr ?_
  rintro ⟨⟨opened, -⟩ | ⟨opened, -⟩ | leaves, -⟩
  · cases opened
  · cases opened
  · exact leaves

/-- The token of a closed frame closes one that was opened later at the same top. -/
theorem stale_exit_closes_later_frame :
    ∃ start,
      create { checks := .debug, memory := ⟨64, 512, 512⟩ } .fixed = .ok start ∧
      let m := reached [.enter 8] start
      let reopened := reached [.enterForced 16] (next m (.exit (.active 8 1)))
      (step (.enter 8) start).result = .ok (.frame (.active 8 1)) ∧
      (step (.exit (.active 8 1)) m).result = .ok .done ∧
      reopened.depth = 1 ∧
      (step (.exit (.active 8 1)) reopened).result = .ok .done ∧
      (next reopened (.exit (.active 8 1))).depth = 0 ∧
      ¬ ((step (.exit (.active 8 1)) reopened).result = .error (.frameOrder 1 1) ∧
        next reopened (.exit (.active 8 1)) = reopened) := by
  refine ⟨_, create_of_validate rfl _, rfl, rfl, rfl, rfl, rfl, ?_⟩
  rintro ⟨refused, -⟩
  cases refused

end LinearHost.Memory
