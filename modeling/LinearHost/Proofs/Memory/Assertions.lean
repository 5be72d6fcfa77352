import LinearHost.Proofs.Memory.Resemblance
import LinearHost.Proofs.Memory.WellFormed

/-!
# Assertions only observe

A memory that checks assertions and one that does not take the same steps, until an assertion is
violated. So what has run with assertions runs without them, with the same answers, contents and
requests for growth, and fails for the same reason if that is not an assertion.

## Main definitions

* `Memory.asserting`: the memory with assertions checked or not.
* `Memory.step_asserting`: a step that violates no assertion is the same without them.
* `Memory.assertions_observe`: runs with and without assertions.
-/

namespace LinearHost

def Config.asserting (c : Config) (on : Bool) : Config :=
  { c with checks := { c.checks with assertions := on } }

namespace Memory

open LinearHost.Action (trace)

variable {m : Memory} {op : Operation} {ops : List Operation}

/-- The memory with assertions checked or not. -/
def asserting (m : Memory) (on : Bool) : Memory :=
  { m with checks := { m.checks with assertions := on } }

theorem recast_true (m : Memory) : m.recast m.image true = m.asserting false := by
  simp [recast, asserting]

/-- A memory resembles the one without assertions in every byte. -/
theorem resembles_asserting (m : Memory) : Resembles (fun _ => False) true m (m.asserting false) :=
  ⟨m.image, .refl _ _, (recast_true m).symm⟩

theorem ofLayout_asserting (c : Config) (grower : Grower) :
    ofLayout (c.asserting false) grower = (ofLayout (c.asserting true) grower).asserting false :=
  rfl

/-- A step that violates no assertion is the same without assertions. -/
theorem step_asserting (orderly : m.Orderly)
    (unviolated : ∀ broken, (step op m).result ≠ .error (.assertion broken)) :
    (step op (m.asserting false)).result = (step op m).result ∧
      next (m.asserting false) op = (next m op).asserting false := by
  obtain ⟨fault, failed, -, broken, rfl⟩ | ⟨agree, related⟩ :=
    step_inStep_same orderly (resembles_asserting m) op fun _ _ _ _ _ _ => False.elim
  · exact absurd failed (unviolated broken)
  · constructor
    · exact (agree_eq_iff.mp (agree.mono fun _ _ alike => alike.eq fun _ => False.elim)).symm
    · exact (related.eq fun _ => False.elim).trans (recast_true _)

/-- A run that violates no assertion is the same without assertions. -/
theorem trace_asserting (orderly : m.Orderly)
    (unviolated : ∀ broken, .error (.assertion broken) ∉ answers ops m) :
    trace step ops (m.asserting false) =
        (trace step ops m).map (Prod.map id (asserting · false)) ∧
      reached ops (m.asserting false) = (reached ops m).asserting false := by
  induction ops generalizing m with
  | nil => exact ⟨rfl, rfl⟩
  | cons op rest ih =>
    have first (broken : Assertion) : (step op m).result ≠ .error (.assertion broken) :=
      fun violated => unviolated broken (by simp [answers_cons, violated])
    have others (broken : Assertion) : .error (.assertion broken) ∉ answers rest (next m op) :=
      fun violated => unviolated broken (by simp [answers_cons, violated])
    obtain ⟨answer, state⟩ := step_asserting orderly first
    obtain ⟨trace, ending⟩ := ih (orderly.next op) others
    constructor
    · rw [trace_cons, trace_cons, List.map_cons, answer, state, trace]
      rfl
    · rw [reached_cons, reached_cons, state, ending]

/-- Take settings that agree, any grower, and the same operations on a memory with and on one
without assertions. As long as none is violated, and so if all operations succeed, both memories
give the same answers and are the same after every operation, in their contents, marks, regions and
frames and in what the grower was asked. If all operations succeed and the next one violates no
assertion, but fails, it fails for the same reason without assertions. -/
theorem assertions_observe {c : Config} (valid : c.validate = .ok ()) (grower : Grower) :
    ∃ checked plain, create (c.asserting true) grower = .ok checked ∧
      create (c.asserting false) grower = .ok plain ∧
      (∀ ops, (∀ broken, .error (.assertion broken) ∉ answers ops checked) →
        trace step ops plain =
          (trace step ops checked).map (Prod.map id (asserting · false))) ∧
      ∀ ops op fault, (∀ result ∈ answers ops checked, ∃ answer, result = .ok answer) →
        (step op (reached ops checked)).result = .error fault →
        (∀ broken, fault ≠ .assertion broken) →
        answers ops plain = answers ops checked ∧
          (step op (reached ops plain)).result = .error fault := by
  have sound := ofLayout_wellFormed (c := c.asserting true) valid grower
  have created (on : Bool) :
      create (c.asserting on) grower = .ok (ofLayout (c.asserting on) grower) :=
    create_of_validate (c := c.asserting on) valid grower
  refine ⟨_, _, created true, created false, ?_, ?_⟩
  · intro ops unviolated
    rw [ofLayout_asserting]
    exact (trace_asserting sound.toOrderly unviolated).1
  · intro ops op fault succeed failed other
    rw [ofLayout_asserting]
    have unviolated (broken : Assertion) :
        .error (.assertion broken) ∉ answers ops (ofLayout (c.asserting true) grower) := by
      intro violated
      obtain ⟨answer, succeeds⟩ := succeed _ violated
      cases succeeds
    obtain ⟨same, ending⟩ := trace_asserting sound.toOrderly unviolated
    constructor
    · rw [answers_eq_trace, answers_eq_trace, same, List.map_map]
      rfl
    · rw [ending, (step_asserting (sound.toOrderly.reached ops) _).1, failed]
      intro broken violated
      rw [failed] at violated
      exact other broken (Except.error.inj violated)

/-- A static block that does not fit is refused for the same reason with and without assertions,
after a frame was opened, filled and closed. -/
theorem assertions_observe_exhausted :
    ∃ checked plain, create { checks := .debug, memory := ⟨64, 128, 128⟩ } .fixed = .ok checked ∧
      create { checks := { Checks.debug with assertions := false }, memory := ⟨64, 128, 128⟩ }
        .fixed = .ok plain ∧
      let ops := [.enter 16, .write 8 [1], .read 8 1, .exit (.active 8 1)]
      answers ops plain = answers ops checked ∧
      (step (.staticAlloc 100) (reached ops plain)).result =
        .error (.outOfMemory .static 100 72 128) := by
  obtain ⟨checked, plain, created, createdPlain, -, fails⟩ := assertions_observe
    (c := { checks := .debug, memory := ⟨64, 128, 128⟩ }) rfl .fixed
  refine ⟨checked, plain, created, createdPlain, ?_⟩
  obtain ⟨-, rfl⟩ := create_eq_ok.mp created
  have succeed (result : Except Fault Answer) (member : result ∈
      [.ok (.frame (.active 8 1)), .ok .done, .ok (.bytes [1]), .ok .done]) :
      ∃ answer, result = .ok answer := by
    simp only [List.mem_cons, List.not_mem_nil, or_false] at member
    obtain rfl | rfl | rfl | rfl := member <;> exact ⟨_, rfl⟩
  exact fails [.enter 16, .write 8 [1], .read 8 1, .exit (.active 8 1)] (.staticAlloc 100) _ succeed
    rfl nofun

end Memory

end LinearHost
