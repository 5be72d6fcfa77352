import LinearHost.Proofs.Host.Parts
import LinearHost.Proofs.Memory.Growth

/-!
# What a host records

Every call of a host that fails leaves one error among the diagnostics, and every call that enlarges
the memory one note. Whatever else is recorded is a warning. So the diagnostics tell the failures
and the growth of a whole run, in order.

## Main definitions

* `Host.Quiet`: what a host does without an error and without growth.
* `Host.Accounted`: an error for a failure, and a note for growth.
* `Host.perform_accounted`: every call is accounted for.
* `Host.refines_parts`: a host answers as its parts do, and accounts for failures and growth.
-/

namespace LinearHost

variable {α β : Type}

def errorText? : Except Fault α → Option String
  | .ok _ => none
  | .error fault => some fault.message

def growthText? (before after : Nat) : Option String :=
  if before < after then
    some s!"{RegionKind.static.text} region grew memory from {before} to {after} bytes"
  else none

/-- The texts about the calls that have enlarged a memory, given its size at the start and after
each call. -/
def growthTexts (start : Nat) (sizes : List Nat) : List String :=
  ((start :: sizes).zip sizes).filterMap fun pair => growthText? pair.1 pair.2

@[simp] theorem errorText?_map (f : α → β) (result : Except Fault α) :
    errorText? (result.map f) = errorText? result := by
  cases result <;> rfl

theorem growthText?_self (size : Nat) : growthText? size size = none :=
  if_neg (Nat.lt_irrefl size)

/-- Growth is told call by call. -/
theorem growthTexts_cons (start size : Nat) (sizes : List Nat) :
    growthTexts start (size :: sizes) =
      (growthText? start size).toList ++ growthTexts size sizes := by
  rw [growthTexts, List.zip_cons_cons, List.filterMap_cons]
  dsimp only
  cases growthText? start size <;> rfl

namespace Diagnostics

variable {d e : Diagnostics}

def messages (d : Diagnostics) (severity : Severity) : List String :=
  (d.ofSeverity severity).map Diagnostic.message

theorem messages_add (entry : Diagnostic) (d : Diagnostics) (severity : Severity) :
    (d.add entry).messages severity =
      d.messages severity ++ if entry.severity = severity then [entry.message] else [] := by
  rw [messages, ofSeverity, add, List.filter_append, List.map_append]
  split
  next same => simp [messages, ofSeverity, same]
  next other => simp [messages, ofSeverity, other]

/-- Only warnings have been recorded since. -/
def Warns (d e : Diagnostics) : Prop :=
  ∃ warned, (∀ entry ∈ warned, entry.severity = .warning) ∧ e.entries = d.entries ++ warned

theorem Warns.refl (d : Diagnostics) : Warns d d :=
  ⟨[], nofun, (List.append_nil _).symm⟩

theorem Warns.trans {f : Diagnostics} (first : Warns d e) (second : Warns e f) : Warns d f := by
  obtain ⟨warned, warnings, entries⟩ := first
  obtain ⟨more, others, all⟩ := second
  refine ⟨warned ++ more, ?_, ?_⟩
  · intro entry member
    rcases List.mem_append.mp member with member | member
    · exact warnings entry member
    · exact others entry member
  · rw [all, entries, List.append_assoc]

/-- Warnings leave the messages of other severities alone. -/
theorem Warns.messages_eq (warns : Warns d e) {severity : Severity} (other : severity ≠ .warning) :
    e.messages severity = d.messages severity := by
  obtain ⟨warned, warnings, entries⟩ := warns
  have none : warned.filter (·.severity = severity) = [] := by
    refine List.filter_eq_nil_iff.mpr fun entry member => ?_
    rw [warnings entry member]
    simpa using other.symm
  rw [messages, messages, ofSeverity, ofSeverity, entries, List.filter_append, none,
    List.append_nil]

/-- A warning that is to appear only once is recorded or not, and this never fails. -/
theorem pushOnce_warns {entry : Diagnostic} (warning : entry.severity = .warning)
    (d : Diagnostics) :
    (∃ fresh, (pushOnce entry d).result = .ok fresh) ∧ Warns d (pushOnce entry d).state := by
  rw [pushOnce_apply]
  refine ⟨⟨_, rfl⟩, ?_⟩
  rw [addOnce]
  split
  · exact .refl d
  · exact ⟨[entry], by simpa using warning, rfl⟩

end Diagnostics

theorem Switchboard.wrapper_warns (index : Nat) (signature : Signature) (s : Switchboard) :
    s.diagnostics.Warns (wrapper index signature s).state.diagnostics := by
  rw [wrapper, Action.get_bind_apply]
  cases s.wrapper? index with
  | some w =>
    dsimp only
    rw [Action.ite_apply]
    split
    · have warning : (conflict index w.signature signature).severity = .warning := rfl
      obtain ⟨⟨fresh, answer⟩, warns⟩ := Diagnostics.pushOnce_warns warning s.diagnostics
      simpa [Action.state_bind, onDiagnostics, answer] using warns
    · exact .refl _
  | none =>
    have kept : (build index signature s).state.diagnostics = s.diagnostics := rfl
    cases known : s.table.contains index <;>
      simpa [Action.state_bind, known, kept] using Diagnostics.Warns.refl s.diagnostics

namespace Host

open LinearHost.Action (trace ending)

variable {h after : Host} {x : Action Host α}

def messages (h : Host) (severity : Severity) : List String := h.diagnostics.messages severity

/-! ### What goes without a record -/

/-- The memory has not grown, and nothing has been recorded but warnings. -/
structure Quiet (h after : Host) : Prop where
  orderly : after.memory.Orderly
  size_eq : after.memory.size = h.memory.size
  warns : h.diagnostics.Warns after.diagnostics

theorem Quiet.refl (orderly : h.memory.Orderly) : Quiet h h :=
  ⟨orderly, rfl, .refl _⟩

theorem Quiet.trans {last : Host} (first : Quiet h after) (second : Quiet after last) :
    Quiet h last :=
  ⟨second.orderly, second.size_eq.trans first.size_eq, first.warns.trans second.warns⟩

/-- The action only leads to hosts like that. -/
def Discreet (x : Action Host α) : Prop :=
  ∀ h : Host, h.memory.Orderly → Quiet h (x h).state

theorem Discreet.pure (a : α) : Discreet (Pure.pure a) :=
  fun _ orderly => .refl orderly

theorem Discreet.ofExcept (result : Except Fault α) : Discreet (Action.ofExcept result) :=
  fun _ orderly => .refl orderly

theorem Discreet.bind {f : α → Action Host β} (first : Discreet x)
    (second : ∀ a, Discreet (f a)) : Discreet (x >>= f) := by
  intro h orderly
  have quiet := first h orderly
  rw [Action.state_bind]
  split
  · exact quiet.trans (second _ _ quiet.orderly)
  · exact quiet

theorem Discreet.get_bind {f : Host → Action Host α} (discreet : ∀ h, Discreet (f h)) :
    Discreet (Action.get >>= f) :=
  fun h orderly => discreet h h orderly

/-- An operation on the memory that lets nothing grow. -/
theorem Discreet.onMemory {x : Action Memory α} {f : α → Answer} (op : Operation)
    (same : Memory.step op = do return f (← x))
    (fixed : ∀ policy, op.policy? = some policy → policy.growable = false) :
    Discreet (Host.onMemory x) := by
  intro h orderly
  have state : (Host.onMemory x h).state.memory = Memory.next h.memory op :=
    (Memory.next_eq_state same h.memory).symm
  refine ⟨?_, ?_, .refl _⟩
  · rw [state]
    exact orderly.next op
  · rw [state]
    exact orderly.size_next fixed

theorem Discreet.onTypes (x : Action Registry α) : Discreet (Host.onTypes x) :=
  fun _ orderly => ⟨orderly, rfl, .refl _⟩

theorem Discreet.onTable (x : Action Table α) : Discreet (Host.onTable x) :=
  fun _ orderly => ⟨orderly, rfl, .refl _⟩

theorem Discreet.wrapper (index : Nat) (signature : Signature) :
    Discreet (onSwitchboard (Switchboard.wrapper index signature)) :=
  fun h orderly => ⟨orderly, rfl, Switchboard.wrapper_warns index signature h.switchboard⟩

theorem Discreet.warnOnce (message : String) : Discreet (Host.warnOnce message) :=
  fun h orderly => ⟨orderly, rfl, (Diagnostics.pushOnce_warns rfl h.diagnostics).2⟩

theorem warnOnce_eq_ok (message : String) (h : Host) :
    ∃ fresh, (Host.warnOnce message h).result = .ok fresh :=
  (Diagnostics.pushOnce_warns rfl h.diagnostics).1

/-! ### Failures and growth -/

/-- A failure has been recorded as an error, growth as a note, and nothing else of either kind. -/
structure Accounted (h : Host) (result : Except Fault α) (after : Host) : Prop where
  orderly : after.memory.Orderly
  errors : after.messages .error = h.messages .error ++ (errorText? result).toList
  notes : after.messages .info =
    h.messages .info ++ (growthText? h.memory.size after.memory.size).toList

theorem messages_reported (h : Host) (entry : Diagnostic) :
    (h.reported entry).messages entry.severity = h.messages entry.severity ++ [entry.message] :=
  (Diagnostics.messages_add entry h.diagnostics entry.severity).trans (by rw [if_pos rfl]; rfl)

theorem messages_reported_of_ne (h : Host) {entry : Diagnostic} {severity : Severity}
    (other : entry.severity ≠ severity) :
    (h.reported entry).messages severity = h.messages severity :=
  (Diagnostics.messages_add entry h.diagnostics severity).trans
    (by rw [if_neg other]; exact List.append_nil _)

theorem Quiet.messages_eq (quiet : Quiet h after) {severity : Severity}
    (other : severity ≠ .warning) : after.messages severity = h.messages severity :=
  quiet.warns.messages_eq other

theorem Accounted.refl (a : α) (orderly : h.memory.Orderly) : Accounted h (.ok a) h where
  orderly := orderly
  errors := by simp [errorText?]
  notes := by simp [growthText?_self]

/-- An account does not depend on the value that is answered. -/
theorem Accounted.map {result : Except Fault α} (f : α → β) (accounted : Accounted h result after) :
    Accounted h (result.map f) after :=
  ⟨accounted.orderly, by rw [errorText?_map, accounted.errors], accounted.notes⟩

variable {mid : Host} {a : α}

theorem Accounted.quiet (accounted : Accounted h (.ok a) mid) (quiet : Quiet mid after) (b : β) :
    Accounted h (.ok b) after where
  orderly := quiet.orderly
  errors := by
    have same : after.messages .error = mid.messages .error := quiet.messages_eq nofun
    exact same.trans accounted.errors
  notes := by
    have same : after.messages .info = mid.messages .info := quiet.messages_eq nofun
    rw [quiet.size_eq]
    exact same.trans accounted.notes

/-- Recording a failure accounts for it. -/
theorem Accounted.reported (accounted : Accounted h (.ok a) mid) (fault : Fault)
    (category : Category) :
    Accounted h (.error fault : Except Fault β) (mid.reported (fault.entry category)) where
  orderly := accounted.orderly
  errors := by
    have none : mid.messages .error = h.messages .error := by
      simpa [errorText?] using accounted.errors
    rw [← none]
    exact mid.messages_reported (fault.entry category)
  notes := by
    have same : (mid.reported (fault.entry category)).messages .info = mid.messages .info :=
      mid.messages_reported_of_ne (by simp [Fault.entry])
    exact same.trans accounted.notes

/-- A recorded action leaves one error if it fails. -/
theorem Accounted.recording (accounted : Accounted h (.ok a) mid) (category : Category)
    {x : Action Host β} (discreet : Discreet x) :
    Accounted h (recording category x mid).result (recording category x mid).state := by
  have quiet := discreet mid accounted.orderly
  rw [result_recording, state_recording]
  cases (x mid).result with
  | ok b => exact accounted.quiet quiet b
  | error fault => exact (accounted.quiet quiet a).reported fault category

/-- Only the static region grows. -/
theorem Accounted.grown {region : RegionKind} {memory : Memory} (orderly : memory.Orderly)
    (static : h.memory.size < memory.size → region = .static) :
    Accounted h (.ok ()) (h.grown region memory) := by
  rw [Host.grown]
  split
  next larger =>
    obtain rfl := static larger
    refine ⟨orderly, ?_, ?_⟩
    · rw [errorText?, Option.toList_none, List.append_nil]
      exact messages_reported_of_ne _ (show Severity.info ≠ .error by decide)
    · show _ = _ ++ (growthText? h.memory.size memory.size).toList
      rw [growthText?, if_pos larger]
      exact messages_reported _ _
  next kept =>
    refine ⟨orderly, (List.append_nil _).symm, ?_⟩
    show _ = _ ++ (growthText? h.memory.size memory.size).toList
    rw [growthText?, if_neg kept]
    exact (List.append_nil _).symm

/-- An allocation is accounted for, whether it succeeds, grows the memory or fails. -/
theorem Accounted.allocate (region : RegionKind) (size : Nat) (orderly : h.memory.Orderly) :
    Accounted h (allocate region size h).result (allocate region size h).state := by
  have state := (Memory.next_allocate region size h.memory).symm
  have grown : Accounted h (.ok ())
      (h.grown region (Memory.allocate region size h.memory).state) := by
    rw [state]
    refine .grown (orderly.next _) fun larger => ?_
    cases region with
    | stack =>
      have fixed : (Memory.next h.memory (.allocate .stack size)).size = h.memory.size :=
        orderly.size_next fun policy uses => by
          cases uses
          rfl
      omega
    | static => rfl
  have recorded := grown.recording .memory
    (Discreet.ofExcept (Memory.allocate region size h.memory).result)
  rw [result_recording] at recorded
  rw [(allocate_apply region size h).1, (allocate_apply region size h).2]
  exact recorded

theorem Accounted.storeText (text : String) (region : RegionKind) (orderly : h.memory.Orderly) :
    Accounted h (storeText text region h).result (storeText text region h).state := by
  have allocated := Accounted.allocate region (encode text ++ [0]).length orderly
  unfold Host.storeText
  rw [Action.result_bind, Action.state_bind]
  generalize (Host.allocate region (encode text ++ [0]).length h).result = result at allocated ⊢
  generalize (Host.allocate region (encode text ++ [0]).length h).state = mid at allocated ⊢
  cases result with
  | error fault => exact allocated
  | ok address =>
    have written := allocated.recording .codec
      (.onMemory (f := fun _ => .done) (.write address (encode text ++ [0])) rfl nofun)
    dsimp only
    rw [Action.result_bind_pure, Action.state_bind_pure]
    exact written.map fun _ => address

/-- Every call leaves one error if it fails and one note if it enlarges the memory, and nothing else
but warnings. -/
theorem perform_accounted (orderly : h.memory.Orderly) (call : HostCall) :
    Accounted h (perform call h).result (perform call h).state := by
  have answered {α : Type} (f : α → HostReply) {x : Action Host α}
      (accounted : Accounted h (x h).result (x h).state) :
      Accounted h ((do return f (← x)) h).result ((do return f (← x)) h : Outcome ..).state := by
    rw [Action.result_bind_pure, Action.state_bind_pure]
    exact accounted.map f
  have recorded {α : Type} (f : α → HostReply) (category : Category) {x : Action Host α}
      (discreet : Discreet x) :=
    answered f ((Accounted.refl () orderly).recording category discreet)
  cases call with
  | stackAlloc size =>
    exact recorded _ _ (.onMemory (f := .address) (.stackAlloc size) rfl
      fun policy uses => by cases uses; rfl)
  | staticAlloc size => exact answered _ (.allocate .static size orderly)
  | allocate region size => exact answered _ (.allocate region size orderly)
  | enter initial =>
    exact recorded _ _ (.onMemory (f := .frame) (.enter initial) rfl
      fun policy uses => by cases uses; rfl)
  | enterForced initial =>
    exact recorded _ _ (.onMemory (f := .frame) (.enterForced initial) rfl
      fun policy uses => by cases uses; rfl)
  | exit frame =>
    exact recorded (fun _ => .done) _
      (.onMemory (f := fun _ => .done) (.exit frame) rfl nofun)
  | save => exact .refl _ orderly
  | restore top =>
    exact recorded (fun _ => .done) _
      (.onMemory (f := fun _ => .done) (.restore top) rfl nofun)
  | parseType text => exact recorded _ _ (.get_bind fun _ => .ofExcept _)
  | registerStruct name fields packed =>
    exact recorded _ _ (.get_bind fun _ => .bind (.ofExcept _) fun _ => .onTypes _)
  | resolve names typeName base => exact recorded _ _ (.get_bind fun _ => .ofExcept _)
  | inlineOffsets fields =>
    exact recorded _ _ (.get_bind fun _ => .bind (.ofExcept _) fun _ => .pure _)
  | toUnsigned value bits => exact recorded _ _ (.get_bind fun _ => .ofExcept _)
  | toSigned value bits => exact recorded _ _ (.get_bind fun _ => .ofExcept _)
  | shift w op bits =>
    refine recorded _ _ (.bind (.ofExcept _) fun shifted => .get_bind fun h => ?_)
    exact .bind (.onMemory (f := fun _ => .done) (.store h.scratch (.i64 shifted)) rfl nofun)
      fun _ => .pure _
  | registerFunction f =>
    exact answered _ ((Accounted.refl () orderly).quiet (Discreet.onTable _ h orderly) _)
  | call signature index arguments =>
    exact recorded _ _ (.bind (.ofExcept _) fun _ => .onTable _)
  | wrapper index signature =>
    exact recorded _ _ (.bind (.ofExcept _) fun _ => .wrapper _ _)
  | warnOnce message =>
    have warned : Accounted h (warnOnce message h).result (warnOnce message h).state := by
      obtain ⟨fresh, answer⟩ := warnOnce_eq_ok message h
      rw [answer]
      exact (Accounted.refl () orderly).quiet (Discreet.warnOnce message h orderly) fresh
    exact answered _ warned
  | storeText text region => exact answered _ (.storeText text region orderly)
  | loadText address => exact recorded _ _ (.get_bind fun _ => .ofExcept _)

/-- Errors and growth are recorded call by call, in order. -/
theorem ending_messages (orderly : h.memory.Orderly) (calls : List HostCall) :
    (ending perform calls h).messages .error =
        h.messages .error ++ ((trace perform calls h).map Prod.fst).filterMap errorText? ∧
      (ending perform calls h).messages .info =
        h.messages .info ++
          growthTexts h.memory.size ((trace perform calls h).map (·.2.memory.size)) := by
  induction calls generalizing h with
  | nil => simp [ending, trace, growthTexts]
  | cons call rest ih =>
    have accounted := perform_accounted orderly call
    obtain ⟨errors, notes⟩ := ih accounted.orderly
    rw [ending, trace, errors, notes, accounted.errors, accounted.notes, List.map_cons,
      List.map_cons, growthTexts_cons, List.append_assoc, List.append_assoc, List.filterMap_cons]
    refine ⟨?_, rfl⟩
    cases errorText? (perform call h).result <;> rfl

/-! ### Built hosts -/

end Host

def Parts.ofConfig (c : Config) (memory : Memory) : Parts where
  memory := memory
  types := { quantum := c.quantum }
  switchboard := { table := { mode := c.dispatch } }

theorem Builder.build_eq_ok {b : Builder} {host : Host} {events : List Event}
    (built : b.build = .ok (host, events)) :
    ∃ c memory scratch, b.complete = .ok c ∧
      Memory.create c (b.grower.getD (Memory.defaultGrower c)) = .ok memory ∧
      (Memory.staticAlloc 8 memory).result = .ok scratch ∧
      host = b.assemble c (Memory.staticAlloc 8 memory).state scratch := by
  cases completed : b.complete with
  | error fault => simp [build, completed, bind, Except.bind] at built
  | ok c =>
    cases created : b.createMemory c with
    | error fault => simp [build, completed, created, bind, Except.bind] at built
    | ok memory =>
      cases reserved : (Memory.staticAlloc 8 memory).result with
      | error fault => simp [build, completed, created, reserved, bind, Except.bind] at built
      | ok scratch =>
        refine ⟨c, memory, scratch, rfl, created, reserved, ?_⟩
        simp only [build, completed, created, reserved, bind, Except.bind, pure, Except.pure,
          Except.ok.injEq, Prod.mk.injEq] at built
        exact built.1.symm

namespace Host

open LinearHost.Action (trace ending)

/-- A run of a host and one of its parts answer alike at every step. -/
theorem trace_around {c : Config} {slot : Nat} {h : Host} {p : Parts} (around : Around c slot h p)
    (calls : List HostCall) :
    List.Forall₂ (fun u v => u.1 = v.1 ∧ Around c slot u.2 v.2) (trace perform calls h)
      (trace (Parts.perform c slot) calls p) := by
  have kept (h : Host) (p : Parts) (call other : HostCall) (around : Around c slot h p)
      (_ : True) (same : call = other) :
      Agree Eq (perform call h).result (Parts.perform c slot other p).result ∧
        Around c slot (perform call h).state (Parts.perform c slot other p).state :=
    same ▸ (perform_inStep call).agree around
  have unrestricted : Along (fun h call => (perform call h).state) (fun _ _ => True) calls h :=
    along_of_invariant (fun _ _ (_ : True) => trivial) (fun _ _ _ => trivial) calls trivial
  obtain ⟨trace, -⟩ :=
    Action.inStep_run kept (List.forall₂_same.mpr fun _ _ => rfl) around unrestricted
  exact trace.imp fun _ _ both => ⟨agree_eq_iff.mp both.1, both.2⟩

/-- The diagnostics of a run tell the failures and the growth of a run of the parts. -/
theorem ending_messages_around {c : Config} {slot : Nat} {h : Host} {p : Parts}
    (around : Around c slot h p) (orderly : h.memory.Orderly) (calls : List HostCall) :
    let bare := trace (Parts.perform c slot) calls p
    (ending perform calls h).messages .error =
        h.messages .error ++ (bare.map Prod.fst).filterMap errorText? ∧
      (ending perform calls h).messages .info =
        h.messages .info ++ growthTexts p.memory.size (bare.map (·.2.memory.size)) := by
  intro bare
  have agree := trace_around around calls
  have answers := Action.map_eq_of_forall₂ (fun _ _ same => same.1) agree
  have sizes := Action.map_eq_of_forall₂
    (fun _ _ same => congrArg Memory.size same.2.memory) agree
  rw [← answers, ← sizes, ← around.memory]
  exact ending_messages orderly calls

theorem memory_assemble (b : Builder) (c : Config) (memory : Memory) (scratch : Nat) :
    (b.assemble c memory scratch).memory = memory := rfl

theorem messages_assemble (b : Builder) (c : Config) (memory : Memory) (scratch : Nat)
    (severity : Severity) : (b.assemble c memory scratch).messages severity = [] := rfl

/-- Every host that is built, for any settings and any grower, answers all calls of a run exactly as
its parts do without it: the memory for these settings, of which 8 static bytes have been taken, the
registry of types and the switchboard. After every call its memory, its types and its functions are
theirs. Its errors are the texts of the calls that failed, and its notes those about the calls that
have enlarged the memory, all of them once and in order. -/
theorem refines_parts {b : Builder} {host : Host} {events : List Event}
    (built : b.build = .ok (host, events)) :
    ∃ c memory, b.complete = .ok c ∧
      Memory.create c (b.grower.getD (Memory.defaultGrower c)) = .ok memory ∧
      (Memory.staticAlloc 8 memory).result = .ok host.scratch ∧
      ∀ calls : List HostCall,
        let parts := Parts.ofConfig c (Memory.staticAlloc 8 memory).state
        let bare := trace (Parts.perform c host.scratch) calls parts
        let last := ending perform calls host
        List.Forall₂ (fun u v => u.1 = v.1 ∧ Around c host.scratch u.2 v.2)
            (trace perform calls host) bare ∧
          last.messages .error = (bare.map Prod.fst).filterMap errorText? ∧
          last.messages .info =
            growthTexts parts.memory.size (bare.map (·.2.memory.size)) := by
  obtain ⟨c, memory, scratch, completed, created, reserved, assembled⟩ := Builder.build_eq_ok built
  obtain ⟨valid, rfl⟩ := Memory.create_eq_ok.mp created
  have start := Memory.ofLayout_wellFormed valid (b.grower.getD (Memory.defaultGrower c))
  have slot : host.scratch = scratch := by rw [assembled]; rfl
  refine ⟨c, _, completed, created, slot ▸ reserved, fun calls => ?_⟩
  intro parts bare last
  have around : Around c host.scratch host parts := by
    rw [assembled]
    exact ⟨rfl, rfl, rfl, rfl, rfl, rfl, rfl, rfl⟩
  have orderly : host.memory.Orderly := by
    have taken := start.toOrderly.next (.staticAlloc 8)
    rw [Memory.next, Memory.step, Action.state_bind_pure] at taken
    rwa [assembled, memory_assemble]
  have fresh (severity : Severity) : host.messages severity = [] := by
    rw [assembled, messages_assemble]
  obtain ⟨errors, notes⟩ := ending_messages_around around orderly calls
  rw [fresh, List.nil_append] at errors notes
  exact ⟨trace_around around calls, errors, notes⟩

/-- A host in which a block of the stack does not fit, the static region grows for a block, a frame
that is not open is closed, and a text is no type. -/
theorem refines_parts_failing :
    ∃ host events,
      (Builder.ofSettings [.config { memory := ⟨64, 128, 512⟩ },
        .grower { policy := fun _ _ requested => some requested }]).build = .ok (host, events) ∧
      let last := ending perform
        [.stackAlloc 100, .staticAlloc 100, .exit (.active 8 1), .save, .parseType "nope"] host
      last.messages .error =
          ["Out of memory in stack region - requested 100 bytes at top 0x8 (limit 0x48)",
            "Stack frames must be closed in LIFO order - expected depth 0, got 1",
            "Unclear type: nope"] ∧
        last.messages .info = ["static region grew memory from 128 to 180 bytes"] := by
  refine ⟨_, _, rfl, ?_⟩
  obtain ⟨c, memory, completed, created, reserved, all⟩ := refines_parts
    (show (Builder.ofSettings [.config { memory := ⟨64, 128, 512⟩ },
      .grower { policy := fun _ _ requested => some requested }]).build = .ok (_, _) from rfl)
  obtain rfl := Except.ok.inj completed
  obtain ⟨-, rfl⟩ := Memory.create_eq_ok.mp created
  obtain ⟨-, errors, notes⟩ := all
    [.stackAlloc 100, .staticAlloc 100, .exit (.active 8 1), .save, .parseType "nope"]
  refine ⟨?_, ?_⟩
  · rw [errors]
    decide
  · rw [notes]
    decide

end Host

end LinearHost
