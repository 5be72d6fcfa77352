import LinearHost.Proofs.Along
import LinearHost.Proofs.Memory.Session
import LinearHost.Proofs.Memory.WellFormed

/-!
# Skipping empty frames

A program that closes its frames in the reverse order of their opening hardly notices whether empty
ones are skipped. The token of a skipped frame does nothing when it is closed, while that of an open
frame restores the top of the stack, so the two agree exactly if the top is back by then.

## Main definitions

* `Session.Matched`: a session that skips empty frames beside one that does not.
* `Memory.traces_agree_iff`: skipping changes what a program sees exactly if it is not balanced.
-/

namespace LinearHost

def Config.skipping (c : Config) (skip : Bool) : Config :=
  { c with checks := { c.checks with skipEmptyFrames := skip } }

namespace Memory

theorem Alike.top_eq {quiet full : Memory} (alike : Alike quiet full) :
    quiet.stack.top = full.stack.top :=
  congrArg (·.stack.top) alike

theorem Alike.withFrame {quiet full : Memory} (alike : Alike quiet full) (top other : Nat) :
    Alike (quiet.withFrame top) (full.withFrame other) := by
  have same := congrArg (fun m : Memory => { m with frames := top :: quiet.frames }) alike
  exact same

theorem Alike.returned {quiet full : Memory} (alike : Alike quiet full) (frames others : List Nat)
    (top : Nat) : Alike (quiet.returned frames top) (full.returned others top) := by
  have same := congrArg (fun m : Memory => m.returned frames top) alike
  exact same

end Memory

namespace Session

variable {s quiet full : Session} {op : Operation} {token : Token} {rest : List Token}

/-! ### Sessions that skip no frame -/

/-- Every token that is held is that of an open frame. -/
structure Unskipped (s : Session) : Prop extends Tracked s where
  unskipped : s.memory.checks.skipEmptyFrames = false
  active : ∀ token ∈ s.held, token.frame ≠ .elided

theorem Unskipped.kept (full : s.Unskipped) (initial : Nat) (forced : Bool) :
    s.memory.skips initial forced = false := by
  simp [Memory.skips, full.unskipped]

theorem Unskipped.plain (blind : Memory.Blind (Memory.step op)) (full : s.Unskipped) :
    (s.plain op).2.Unskipped :=
  ⟨full.toTracked.plain blind, (blind.kept s.memory).2.trans full.unskipped, full.active⟩

theorem Unskipped.opening (full : s.Unskipped) (initial : Nat) (forced : Bool) :
    (s.opening initial forced).2.Unskipped := by
  have tracked := full.toTracked.opening initial forced
  have opened :=
    Memory.openFrame_cases s.memory (full.orderly.ordered .stack) initial forced
  have change : Memory.Change s.memory (.enter initial) _ _ := opened.change rfl
  have unskipped := (congrArg Checks.skipEmptyFrames change.checks_eq).trans full.unskipped
  obtain ⟨answer, -⟩ := Memory.openFrame_of_kept (full.kept initial forced)
  cases block : (Memory.frameBlock initial s.memory).result with
  | ok =>
    rw [block] at answer
    rw [opening_of_ok answer] at tracked ⊢
    exact ⟨tracked, unskipped, List.forall_mem_cons.mpr ⟨nofun, full.active⟩⟩
  | error fault =>
    rw [block] at answer
    rw [opening_of_error answer] at tracked ⊢
    exact ⟨tracked, unskipped, full.active⟩

/-- Where no frame is skipped, every one that is closed gives the stack back as it was. -/
theorem Unskipped.closing_cons (full : s.Unskipped) (held : s.held = token :: rest) :
    ∃ frames, s.closing = (.ok .done, ⟨s.memory.returned frames token.top, rest⟩) := by
  obtain ⟨skipped, -⟩ | ⟨-, frames, -, closing, -⟩ := full.closing_cases held
  · exact absurd skipped (full.active token (held ▸ List.mem_cons_self ..))
  · exact ⟨frames, closing⟩

theorem Unskipped.closing (full : s.Unskipped) : s.closing.2.Unskipped := by
  have tracked := full.toTracked.closing
  cases held : s.held with
  | nil => simpa [Session.closing, held] using full
  | cons token rest =>
    obtain ⟨frames, closing⟩ := full.closing_cons held
    have active := full.active
    rw [held] at active
    rw [closing] at tracked ⊢
    exact ⟨tracked, full.unskipped, (List.forall_mem_cons.mp active).2⟩

/-- A session that skips no frame holds tokens of open frames only. -/
theorem Unskipped.next (full : s.Unskipped) (command : Command) :
    (s.next command).Unskipped := by
  unfold Session.next
  rcases step_cases command with ⟨op, blind, plain⟩ | ⟨initial, forced, opening⟩ | rfl
  · rw [plain]
    exact full.plain blind
  · rw [opening]
    exact full.opening initial forced
  · exact full.closing

/-- Such a session gets the stack back with every frame that it closes. -/
theorem Unskipped.restored (full : s.Unskipped) (commands : List Command) :
    s.Restored commands := by
  refine along_of_invariant (fun s command (full : s.Unskipped) => ?_)
    (fun s command full => full.next command) commands full
  refine (full.restoredAt_iff command).mpr fun _ token rest held skipped => ?_
  exact absurd skipped (full.active token (held ▸ List.mem_cons_self ..))

/-! ### Two sessions side by side -/

/-- A session that skips empty frames and one that does not, after the same commands. -/
structure Matched (quiet full : Session) : Prop where
  alike : Memory.Alike quiet.memory full.memory
  tops : quiet.held.map Token.top = full.held.map Token.top
  tracked : quiet.Tracked
  unskipped : full.Unskipped

theorem Matched.plain (matched : Matched quiet full)
    (blind : Memory.Blind (Memory.step op)) :
    (quiet.plain op).1 = (full.plain op).1 ∧ Matched (quiet.plain op).2 (full.plain op).2 := by
  obtain ⟨answer, alike⟩ := blind.alike matched.alike
  exact ⟨answer, alike, matched.tops, matched.tracked.plain blind, matched.unskipped.plain blind⟩

/-- A frame that one session skips is opened by the other, which then takes no block. -/
theorem Matched.opening_of_skips (matched : Matched quiet full) {initial : Nat} {forced : Bool}
    (skips : quiet.memory.skips initial forced = true) :
    (quiet.opening initial forced).1 = (full.opening initial forced).1 ∧
      Matched (quiet.opening initial forced).2 (full.opening initial forced).2 := by
  obtain rfl : initial = 0 := by
    simp only [Memory.skips, Bool.and_eq_true, decide_eq_true_eq] at skips
    exact skips.1.1.1
  have tracked := matched.tracked.opening 0 forced
  have unskipped := matched.unskipped.opening 0 forced
  have skipped : Memory.openFrame 0 forced quiet.memory = ⟨.ok .elided, quiet.memory, []⟩ := by
    simp [Memory.openFrame, skips]
  obtain ⟨answer, state⟩ := Memory.openFrame_of_kept (matched.unskipped.kept 0 forced)
  rw [Memory.frameBlock_zero] at answer state
  rw [opening_of_ok (congrArg Outcome.result skipped)] at tracked ⊢
  rw [opening_of_ok answer] at unskipped ⊢
  refine ⟨rfl, ?_, ?_, tracked, unskipped⟩
  · show Memory.Alike (Memory.openFrame 0 forced quiet.memory).state _
    rw [skipped, state]
    exact matched.alike
  · simp [matched.tops, matched.alike.top_eq]

/-- A frame that neither session skips is opened by both, or by none. -/
theorem Matched.opening_of_kept (matched : Matched quiet full) {initial : Nat} {forced : Bool}
    (kept : quiet.memory.skips initial forced = false) :
    (quiet.opening initial forced).1 = (full.opening initial forced).1 ∧
      Matched (quiet.opening initial forced).2 (full.opening initial forced).2 := by
  have tracked := matched.tracked.opening initial forced
  have unskipped := matched.unskipped.opening initial forced
  obtain ⟨answer, state⟩ := Memory.openFrame_of_kept kept
  obtain ⟨full_answer, full_state⟩ :=
    Memory.openFrame_of_kept (matched.unskipped.kept initial forced)
  obtain ⟨same, alike⟩ := (Memory.blind_frameBlock initial).alike matched.alike
  rw [same] at answer state
  cases block : (Memory.frameBlock initial full.memory).result with
  | error fault =>
    rw [block] at answer state full_answer full_state
    rw [opening_of_error answer] at tracked ⊢
    rw [opening_of_error full_answer] at unskipped ⊢
    refine ⟨rfl, ?_, matched.tops, tracked, unskipped⟩
    show Memory.Alike (Memory.openFrame initial forced quiet.memory).state _
    rw [state, full_state]
    exact alike
  | ok =>
    rw [block] at answer state full_answer full_state
    rw [opening_of_ok answer] at tracked ⊢
    rw [opening_of_ok full_answer] at unskipped ⊢
    refine ⟨rfl, ?_, ?_, tracked, unskipped⟩
    · show Memory.Alike (Memory.openFrame initial forced quiet.memory).state _
      rw [state, full_state]
      exact alike.withFrame _ _
    · simp [matched.tops, matched.alike.top_eq]

theorem Matched.held_cons (matched : Matched quiet full) (held : quiet.held = token :: rest) :
    ∃ other others, full.held = other :: others ∧ token.top = other.top ∧
      rest.map Token.top = others.map Token.top := by
  have tops := matched.tops
  cases full_held : full.held with
  | nil => simp [held, full_held] at tops
  | cons other others =>
    rw [held, full_held] at tops
    obtain ⟨top, tops⟩ := List.cons.inj tops
    exact ⟨other, others, rfl, top, tops⟩

/-- The sessions stay matched when a frame is closed, provided that one which was skipped finds the
stack as it was. -/
theorem Matched.closing (matched : Matched quiet full) (balanced : quiet.BalancedAt .leave) :
    quiet.closing.1 = full.closing.1 ∧ Matched quiet.closing.2 full.closing.2 := by
  have tracked := matched.tracked.closing
  have unskipped := matched.unskipped.closing
  cases held : quiet.held with
  | nil =>
    have tops := matched.tops
    rw [held] at tops
    have none_held : full.held = [] := List.map_eq_nil_iff.mp tops.symm
    simpa [Session.closing, held, none_held] using matched
  | cons token rest =>
    obtain ⟨other, others, full_held, top_eq, tops⟩ := matched.held_cons held
    obtain ⟨full_frames, full_closing⟩ := matched.unskipped.closing_cons full_held
    rw [full_closing, ← top_eq] at unskipped ⊢
    obtain ⟨skipped, closing, -⟩ | ⟨-, frames, -, closing, -⟩ := matched.tracked.closing_cases held
    · -- the skipped frame leaves the stack alone, and the open one finds its top already there
      have top := balanced rfl token rest held skipped
      rw [closing] at tracked ⊢
      refine ⟨rfl, ?_, tops, tracked, unskipped⟩
      have same := matched.alike.returned quiet.memory.frames full_frames token.top
      rw [← top] at same ⊢
      exact same
    · rw [closing] at tracked ⊢
      exact ⟨rfl, matched.alike.returned frames full_frames token.top, tops, tracked, unskipped⟩

/-- Sessions that match stay matched, and see the same, as long as they are balanced. -/
theorem Matched.next (matched : Matched quiet full) (command : Command)
    (balanced : quiet.BalancedAt command) :
    (quiet.step command).1 = (full.step command).1 ∧
      Matched (quiet.next command) (full.next command) := by
  unfold Session.next
  rcases step_cases command with ⟨op, blind, plain⟩ | ⟨initial, forced, opening⟩ | rfl
  · rw [plain, plain]
    exact matched.plain blind
  · rw [opening, opening]
    cases skips : quiet.memory.skips initial forced with
    | true => exact matched.opening_of_skips skips
    | false => exact matched.opening_of_kept skips
  · exact matched.closing balanced

/-- A skipped frame that is closed with another top on the stack shows. -/
theorem Matched.balancedAt_of_top (matched : Matched quiet full) (command : Command)
    (seen : (quiet.next command).memory.stack.top = (full.next command).memory.stack.top) :
    quiet.BalancedAt command := by
  rintro rfl token rest held skipped
  obtain ⟨other, others, full_held, top_eq, -⟩ := matched.held_cons held
  obtain ⟨full_frames, full_closing⟩ := matched.unskipped.closing_cons full_held
  obtain ⟨-, closing, -⟩ | ⟨opened, -⟩ := matched.tracked.closing_cases held
  · have seen : quiet.memory.stack.top = other.top := by
      simpa [Session.next, step, closing, full_closing, Memory.returned] using seen
    exact seen.trans top_eq.symm
  · exact absurd skipped opened

/-- Matched sessions see the same exactly if the one that skips frames is balanced. -/
theorem Matched.trace_eq_iff (matched : Matched quiet full) (commands : List Command) :
    quiet.trace commands = full.trace commands ↔ quiet.Balanced commands := by
  induction commands generalizing quiet full with
  | nil => exact ⟨fun _ => trivial, fun _ => rfl⟩
  | cons command commands ih =>
    constructor
    · intro same
      obtain ⟨first, others⟩ := List.cons.inj same
      have balanced := matched.balancedAt_of_top command (Prod.mk.inj first).2
      have after := (matched.next command balanced).2
      exact ⟨balanced, (ih after).mp others⟩
    · rintro ⟨balanced, others⟩
      obtain ⟨answer, after⟩ := matched.next command balanced
      rw [trace, trace, answer, after.alike.top_eq, (ih after).mpr others]

def start (m : Memory) : Session := ⟨m, []⟩

/-- At the start of a program there are no tokens and nothing to clear. -/
theorem tracked_start {c : Config} (valid : c.validate = .ok ())
    (unpoisoned : c.checks.stackInvalidation = false) (grower : Grower) :
    (start (Memory.ofLayout c grower)).Tracked :=
  ⟨(Memory.ofLayout_wellFormed valid grower).toOrderly, unpoisoned, .nil⟩

theorem matched_start {c : Config} (valid : c.validate = .ok ())
    (unpoisoned : c.checks.stackInvalidation = false) (grower : Grower) :
    Matched (start (Memory.ofLayout (c.skipping true) grower))
      (start (Memory.ofLayout (c.skipping false) grower)) where
  alike := rfl
  tops := rfl
  tracked := tracked_start (c := c.skipping true) valid unpoisoned grower
  unskipped := ⟨tracked_start (c := c.skipping false) valid unpoisoned grower, rfl, nofun⟩

end Session

namespace Memory

open Session

/-- A program that closes its frames in the reverse order of their opening sees the same with and
without the skipping of empty frames exactly if the stack is back where it was whenever a skipped
frame is closed. Then, and only then, each of its frames gives the stack back as it was; without
skipping they always do. -/
theorem traces_agree_iff {c : Config} (valid : c.validate = .ok ())
    (unpoisoned : c.checks.stackInvalidation = false) (grower : Grower) :
    ∃ quiet full,
      create (c.skipping true) grower = .ok quiet ∧
      create (c.skipping false) grower = .ok full ∧
      ∀ commands : List Command,
        ((start quiet).trace commands = (start full).trace commands ↔
          (start quiet).Balanced commands) ∧
        ((start quiet).Restored commands ↔ (start quiet).Balanced commands) ∧
        (start full).Restored commands := by
  have matched := matched_start valid unpoisoned grower
  refine ⟨_, _, create_of_validate (c := c.skipping true) valid grower,
    create_of_validate (c := c.skipping false) valid grower, fun commands => ⟨?_, ?_, ?_⟩⟩
  · exact matched.trace_eq_iff commands
  · have agree (s : Session) (command : Command) (tracked : s.Tracked) :
        s.RestoredAt command ↔ s.BalancedAt command := tracked.restoredAt_iff command
    have kept (s : Session) (command : Command) (tracked : s.Tracked)
        (_ : s.BalancedAt command) : (s.next command).Tracked := tracked.next command
    exact along_congr agree kept commands matched.tracked
  · exact matched.unskipped.restored commands

/-- A skipped frame around an open one is balanced. -/
theorem traces_agree_nested :
    ∃ quiet full,
      create (Config.skipping { memory := ⟨64, 512, 512⟩ } true) .fixed = .ok quiet ∧
      create (Config.skipping { memory := ⟨64, 512, 512⟩ } false) .fixed = .ok full ∧
      let commands := [.enter 0, .enterForced 0, .stackAlloc 4, .leave, .leave]
      (start quiet).trace commands = (start full).trace commands := by
  obtain ⟨quiet, full, created, full_created, agree⟩ :=
    traces_agree_iff (c := { memory := ⟨64, 512, 512⟩ }) rfl rfl .fixed
  obtain ⟨-, rfl⟩ := create_eq_ok.mp created
  refine ⟨_, full, created, full_created, (agree _).1.mpr ⟨nofun, nofun, nofun, ?_, ?_, trivial⟩⟩
  · intro _ token rest held skipped
    have held : [⟨.active 8 1, 8⟩, ⟨.elided, 8⟩] = token :: rest := held
    cases held
    cases skipped
  · intro _ token rest held skipped
    have held : [⟨.elided, 8⟩] = token :: rest := held
    cases held
    rfl

/-- A block taken in a skipped frame outlives it. -/
theorem skipped_frame_keeps_block :
    ∃ quiet full,
      create (Config.skipping { memory := ⟨64, 512, 512⟩ } true) .fixed = .ok quiet ∧
      create (Config.skipping { memory := ⟨64, 512, 512⟩ } false) .fixed = .ok full ∧
      let commands := [.enter 0, .stackAlloc 4, .leave]
      (start quiet).trace commands =
        [(.ok .done, 8), (.ok (.address 8), 12), (.ok .done, 12)] ∧
      (start full).trace commands =
        [(.ok .done, 8), (.ok (.address 8), 12), (.ok .done, 8)] ∧
      (start quiet).trace commands ≠ (start full).trace commands := by
  refine ⟨_, _, rfl, rfl, rfl, rfl, fun same => ?_⟩
  have tops := congrArg (List.map Prod.snd) same
  exact absurd tops (by decide)

end Memory

end LinearHost
