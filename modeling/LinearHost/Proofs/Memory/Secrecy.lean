import LinearHost.Proofs.Memory.Block
import LinearHost.Proofs.Memory.Nesting
import LinearHost.Proofs.Memory.Resemblance

/-!
# Closed frames keep their secrets

Two runs that only differ in the bytes that they put into a frame differ in nothing else as long as
the frame is open: all differences lie between the top that the frame saved and the present one.
Closing a frame clears what the stack gives back, so nothing is left of the values once the frame is
closed.

## Main definitions

* `Operation.SameShape`: operations that differ in the values of bytes only.
* `Memory.Secret`: the addresses at which two such runs may differ.
* `Memory.Confined`: operations that put bytes at such addresses only.
* `Memory.exit_erases`: closing a frame makes memories equal that differ in its bytes.
-/

namespace LinearHost

namespace Operation

/-- The operations are the same, but for the values of the bytes that they put in. -/
inductive SameShape : Operation → Operation → Prop where
  | same (op : Operation) : SameShape op op
  | write (address : Nat) {bytes others : List UInt8} (length : bytes.length = others.length) :
      SameShape (.write address bytes) (.write address others)
  | fill (address : Nat) (value other : UInt8) (size : Nat) :
      SameShape (.fill address value size) (.fill address other size)
  | store (address : Nat) {x y : Scalar} (length : x.encode.length = y.encode.length) :
      SameShape (.store address x) (.store address y)

def restores : Operation → Bool
  | .restore _ => true
  | _ => false

variable {hidden : Nat → Prop} {op other : Operation}

theorem SameShape.veiled (shape : SameShape op other)
    (inside : ∀ k < op.destination.2, hidden (op.destination.1 + k)) : Veiled hidden op other := by
  cases shape with
  | same =>
    refine .same op ?_
    rintro target source size rfl k lt -
    exact inside k lt
  | write address length => exact .write address length inside
  | fill address value other size => exact .fill address value other size inside
  | store address length => exact .store address length inside

end Operation

def Answer.SameShape : Answer → Answer → Prop := Answer.Alike False

namespace Memory

open Operation (SameShape)

variable {m n : Memory} {op other : Operation} {ops others : List Operation} {floor : Nat}

def Secret (floor : Nat) (m : Memory) (address : Nat) : Prop :=
  floor ≤ address ∧ address < m.stack.top

/-- An operation puts bytes only to the part of the stack from `floor` on, and does not restore a
top that was saved without a frame. -/
def Confined (floor : Nat) (m : Memory) (op : Operation) : Prop :=
  op.restores = false ∧
    (0 < op.destination.2 →
      floor ≤ op.destination.1 ∧ op.destination.1 + op.destination.2 ≤ m.stack.top)

instance (floor : Nat) (m : Memory) (op : Operation) : Decidable (Confined floor m op) :=
  inferInstanceAs (Decidable (_ ∧ _))

theorem Confined.secret (confined : Confined floor m op) :
    ∀ k < op.destination.2, Secret floor m (op.destination.1 + k) := by
  intro k lt
  have inside := confined.2 (by omega)
  exact ⟨by omega, by omega⟩

/-! ### Closing a frame -/

/-- The top of the stack only falls when a frame is closed. -/
theorem closes_of_stack_top_lt (orderly : m.Orderly) (unrestored : op.restores = false)
    (falls : (next m op).stack.top < m.stack.top) :
    ∃ savedTop depth, op = .exit (.active savedTop depth) ∧ (step op m).result = .ok .done := by
  have gives : op.givesBack = true := by
    refine Decidable.byContradiction fun keeps => ?_
    have top_le := stack_top_le_next orderly (Bool.eq_false_iff.mpr keeps)
    omega
  cases op with
  | exit frame =>
    cases frame with
    | elided => exact absurd falls (Nat.lt_irrefl _)
    | active savedTop depth =>
      refine ⟨savedTop, depth, rfl, ?_⟩
      have change := step_change m orderly (.exit (.active savedTop depth))
      cases answer : (step (.exit (.active savedTop depth)) m).result with
      | ok a =>
        simp only [step, Action.result_bind_pure] at answer
        obtain ⟨-, -, rfl⟩ := ok_of_map answer
        rfl
      | error fault =>
        rw [answer] at change
        have top_le := change.stack_top_le_of_failed
        have top_le : m.stack.top ≤ (next m (.exit (.active savedTop depth))).stack.top := top_le
        omega
  | restore top => cases unrestored
  | _ => cases gives

/-- To close the innermost frame restores its top and clears what lay above. -/
theorem next_of_closes {savedTop depth : Nat} (orderly : m.Orderly)
    (closes : (step (.exit (.active savedTop depth)) m).result = .ok .done) :
    next m (.exit (.active savedTop depth)) = m.closed savedTop := by
  obtain ⟨rfl, innermost⟩ := innermost_of_step_exit closes
  obtain ⟨-, closed⟩ | ⟨failed, -⟩ := step_exit_of_innermost orderly innermost
  · exact closed
  · rw [closes] at failed
    cases failed

/-- A token is accepted by both of two memories that resemble each other, or refused by both. -/
theorem Resembles.result_exit_eq {hidden : Nat → Prop} {lenient : Bool}
    (resembles : Resembles hidden lenient m n) (frame : Frame) :
    (step (.exit frame) n).result = (step (.exit frame) m).result := by
  obtain ⟨agree, -⟩ := (inStep_exit frame).agree resembles
  simp only [step, Action.result_bind_pure]
  rw [agree_eq_iff.mp agree]

/-! ### Runs with different secrets -/

/-- Two memories that only differ on the stack from `floor` on, and there only in bytes. -/
structure SameBut (floor : Nat) (m n : Memory) : Prop where
  orderly : m.Orderly
  invalidates : m.checks.stackInvalidation = true
  resembles : Resembles (Secret floor m) false m n

theorem SameBut.refl (floor : Nat) (orderly : m.Orderly)
    (invalidates : m.checks.stackInvalidation = true) : SameBut floor m m :=
  ⟨orderly, invalidates, .refl _ m⟩

theorem SameBut.otherOrderly (same : SameBut floor m n) : n.Orderly := by
  obtain ⟨orderly, -, image, -, rfl⟩ := same
  exact orderly.congr rfl rfl rfl

/-- Closing a frame leaves nothing secret above its saved top. -/
theorem SameBut.closed {savedTop depth : Nat} (same : SameBut floor m n)
    (closes : (step (.exit (.active savedTop depth)) m).result = .ok .done) :
    Resembles (fun a => floor ≤ a ∧ a < savedTop) false
      (next m (.exit (.active savedTop depth))) (next n (.exit (.active savedTop depth))) := by
  have otherCloses := (same.resembles.result_exit_eq _).trans closes
  rw [next_of_closes same.orderly closes, next_of_closes same.otherOrderly otherCloses]
  refine (same.resembles.closed same.invalidates savedTop).mono ?_
  rintro a ⟨⟨floor_le, lt_top⟩, kept⟩
  exact ⟨floor_le, by omega⟩

/-- The runs take the same course, and stay the same but for the secrets of the frame. -/
theorem SameBut.next (same : SameBut floor m n) (confined : Confined floor m op)
    (shape : SameShape op other) :
    Agree Answer.SameShape (step op m).result (step other n).result ∧
      SameBut floor (next m op) (next n other) := by
  have veiled := shape.veiled confined.secret
  obtain ⟨fault, -, excuse, -⟩ | ⟨agree, related⟩ := step_inStep same.orderly same.resembles veiled
  · cases excuse
  refine ⟨agree.mono fun a b alike => alike.mono False.elim, same.orderly.next op, ?_, ?_⟩
  · rw [same.orderly.checks_next, same.invalidates]
  by_cases falls : (Memory.next m op).stack.top < m.stack.top
  · -- a frame is closed: what the stack gives back is cleared in both memories
    obtain ⟨savedTop, depth, rfl, closes⟩ :=
      closes_of_stack_top_lt same.orderly confined.1 falls
    cases shape with
    | same =>
      have top : (Memory.next m (.exit (.active savedTop depth))).stack.top = savedTop := by
        rw [next_of_closes same.orderly closes]
        rfl
      refine (same.closed closes).mono ?_
      rintro a ⟨floor_le, lt⟩
      exact ⟨floor_le, by rwa [top]⟩
  · exact related.mono fun a ⟨floor_le, lt⟩ => ⟨floor_le, by omega⟩

/-- Runs of one shape that are confined to a part of the stack differ there only. -/
theorem SameBut.run (same : SameBut floor m n) (shapes : List.Forall₂ SameShape ops others)
    (confined : Along Memory.next (Confined floor) ops m) :
    List.Forall₂ (Agree Answer.SameShape) (answers ops m) (answers others n) ∧
      SameBut floor (reached ops m) (reached others n) := by
  have kept (m n : Memory) (op other : Operation) (same : SameBut floor m n)
      (confined : Confined floor m op) (shape : SameShape op other) :
      Agree Answer.SameShape (step op m).result (step other n).result ∧
        SameBut floor (step op m).state (step other n).state := same.next confined shape
  obtain ⟨trace, ending⟩ := Action.inStep_run kept shapes same confined
  rw [answers_eq_trace, answers_eq_trace, reached_eq_ending, reached_eq_ending,
    List.forall₂_map_left_iff, List.forall₂_map_right_iff]
  exact ⟨trace.imp fun _ _ both => both.1, ending⟩

/-- Where frames are invalidated, take any memory that operations lead to, a frame that is opened
there, and two runs from there that only differ in the values of the bytes that they write, fill in
and store, all of them on the part of the stack that the frame has used so far. Then the runs answer
alike, except for bytes that are read; the token of the frame is accepted after both or after none;
and once it is accepted the two memories are equal, so that no later operation tells them apart. If
no policy lets the stack grow, it is accepted as soon as the frames opened since are closed. -/
theorem exit_erases {c : Config} {grower : Grower} {start : Memory}
    (created : create c grower = .ok start) (invalidates : c.checks.stackInvalidation = true)
    (before : List Operation) {opening : Operation} {savedTop depth : Nat}
    (opened : (step opening (reached before start)).result = .ok (.frame (.active savedTop depth)))
    (left right : List Operation) (shapes : List.Forall₂ SameShape left right)
    (confined : Along next (Confined savedTop) left (next (reached before start) opening)) :
    let inner := next (reached before start) opening
    let close : Operation := .exit (.active savedTop depth)
    let m := reached left inner
    let n := reached right inner
    List.Forall₂ (Agree Answer.SameShape) (answers left inner) (answers right inner) ∧
      (step close m).result = (step close n).result ∧
      ((step close m).result = .ok .done →
        next m close = next n close ∧
          ∀ later, run later (next m close) = run later (next n close)) ∧
      ((∀ op ∈ before ++ left, op.growsStack = false) → StaysOpen depth left inner →
        m.depth = depth → (step close m).result = .ok .done) := by
  obtain ⟨valid, rfl⟩ := create_eq_ok.mp created
  have startSound := ofLayout_wellFormed valid grower
  have beforeOrderly := startSound.toOrderly.reached before
  intro inner close m n
  have orderly : inner.Orderly := beforeOrderly.next opening
  have checks : inner.checks = c.checks :=
    (beforeOrderly.checks_next opening).trans (startSound.toOrderly.checks_reached before)
  have same : SameBut savedTop inner inner := .refl savedTop orderly (by rw [checks, invalidates])
  obtain ⟨answers, same⟩ := same.run shapes confined
  refine ⟨answers, (same.resembles.result_exit_eq _).symm, fun closes => ?_, ?_⟩
  · have visible (a : Nat) : ¬ (savedTop ≤ a ∧ a < savedTop) := by omega
    have equal : next n close = next m close := by
      rw [(same.closed closes).eq visible, recast_image]
    exact ⟨equal.symm, fun later => by rw [equal]⟩
  · intro fixed stays closable
    obtain ⟨beforeFixed, leftFixed⟩ := List.forall_mem_append.mp fixed
    have sound := (startSound.reached beforeFixed).1
    have innerSound : inner.WellFormed :=
      ((step_change _ beforeOrderly opening).wellFormed sound (growsStack_of_opened opened)).1
    have closed := ((innerSound.reached leftFixed).1.step_exit
      (innermost_of_staysOpen beforeOrderly opened stays closable)).1
    rwa [closable] at closed

/-- A frame with another one inside it, where what is stored in the inner one is copied to the outer
one, while a static block is taken. -/
theorem exit_erases_nested :
    ∃ start,
      create { checks := { stackInvalidation := true }, memory := ⟨64, 128, 512⟩ } .fixed =
        .ok start ∧
      let inner := next (reached [.stackAlloc 4, .write 8 [5]] start) (.enter 16)
      let left := [.write 12 [1, 2, 3], .enter 8, .store 28 (.i32 7), .copy 12 28 4, .staticAlloc 8,
        .exit (.active 28 2), .fill 16 9 4]
      let right := [.write 12 [4, 5, 6], .enter 8, .store 28 (.f32 ⟨0⟩), .copy 12 28 4,
        .staticAlloc 8, .exit (.active 28 2), .fill 16 255 4]
      (step (.read 12 4) (reached left inner)).result ≠
        (step (.read 12 4) (reached right inner)).result ∧
      next (reached left inner) (.exit (.active 12 1)) =
        next (reached right inner) (.exit (.active 12 1)) := by
  refine ⟨_, create_of_validate rfl _, by decide, ?_⟩
  obtain ⟨-, -, erases, closes⟩ := exit_erases
    (create_of_validate
      (c := { checks := { stackInvalidation := true }, memory := ⟨64, 128, 512⟩ }) rfl .fixed)
    rfl [.stackAlloc 4, .write 8 [5]]
    (show (step (.enter 16) _).result = .ok (.frame (.active 12 1)) from rfl)
    [.write 12 [1, 2, 3], .enter 8, .store 28 (.i32 7), .copy 12 28 4, .staticAlloc 8,
      .exit (.active 28 2), .fill 16 9 4]
    [.write 12 [4, 5, 6], .enter 8, .store 28 (.f32 ⟨0⟩), .copy 12 28 4,
        .staticAlloc 8, .exit (.active 28 2), .fill 16 255 4]
    (.cons (.write 12 rfl) <| .cons (.same _) <| .cons (.store 28 rfl) <| .cons (.same _) <|
      .cons (.same _) <| .cons (.same _) <| .cons (.fill 16 9 255 4) .nil)
    (by decide)
  exact (erases (closes (by decide) (by decide) rfl)).1

end Memory

end LinearHost
