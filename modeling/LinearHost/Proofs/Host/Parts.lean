import LinearHost.Host.Builder
import LinearHost.Host.Calls
import LinearHost.Proofs.Diagnostics.Once
import LinearHost.Proofs.InStep

/-!
# A host and its parts

A host adds a record of failures to its parts and changes nothing else: every call answers what the
parts answer, and leaves them as the parts alone would be.

## Main definitions

* `Parts`: a memory, a registry of types and a switchboard, without a host around them.
* `Parts.perform`: carries out a call on the parts themselves.
* `Host.Around`: a host is built around parts.
* `Host.perform_inStep`: a host and its parts are in step.
-/

namespace LinearHost

/-- The parts of a host, without the host's own record of failures. -/
structure Parts where
  memory : Memory
  types : Registry
  switchboard : Switchboard

namespace Parts

variable {α : Type}

/-! ### Calls on the parts -/

def onMemory (x : Action Memory α) : Action Parts α :=
  x.zoom Parts.memory fun p memory => { p with memory }

def onTypes (x : Action Registry α) : Action Parts α :=
  x.zoom Parts.types fun p types => { p with types }

def onSwitchboard (x : Action Switchboard α) : Action Parts α :=
  x.zoom Parts.switchboard fun p switchboard => { p with switchboard }

def onTable (x : Action Table α) : Action Parts α :=
  onSwitchboard (Switchboard.onTable x)

def parseType (text : String) : Action Parts Descriptor := do
  Action.ofExcept ((← Action.get).types.parseType text)

def registerStruct (name : String) (fields : List String) (packed : Bool) :
    Action Parts StructType := do
  let types := (← Action.get).types
  let fields ← Action.ofExcept (fields.mapM types.parseType)
  onTypes (Registry.register name fields packed)

def resolve (names : List FieldName) (typeName : String) (base : Nat) : Action Parts Offsets := do
  Action.ofExcept ((← Action.get).types.resolve names typeName base)

def inlineOffsets (quantum : Quantum) (fields : List (String × String)) :
    Action Parts Offsets := do
  let types := (← Action.get).types
  let typed ← Action.ofExcept (fields.mapM fun (type, name) => do
    return (← types.parseType type, name))
  return .inline typed quantum

def shift (slot : Nat) (w : WordPair) (op : ShiftOp) (bits : Nat) : Action Parts WordPair := do
  let shifted ← Action.ofExcept (w.shift op bits)
  onMemory (Memory.store slot (.i64 shifted))
  return shifted

def call (signature : String) (index : Nat) (arguments : List Value) : Action Parts Value := do
  let signature ← Action.ofExcept (Signature.parse signature)
  onTable (Table.call signature index arguments)

def wrapper (index : Nat) (signature : String) : Action Parts Wrapper := do
  let signature ← Action.ofExcept (Signature.parse signature)
  onSwitchboard (Switchboard.wrapper index signature)

def warnOnce (message : String) : Action Parts Bool :=
  onSwitchboard (Switchboard.onDiagnostics (Diagnostics.warnOnce .general message))

def storeText (text : String) (region : RegionKind) : Action Parts Nat := do
  let bytes := encode text ++ [0]
  let address ← onMemory (Memory.allocate region bytes.length)
  onMemory (Memory.write address bytes)
  return address

def loadText (address : Nat) : Action Parts String := do
  Action.ofExcept ((← Action.get).memory.textAt address)

/-- Carries out a call on the parts themselves, for a quantum and a sign check; 64-bit results are
stored in `slot` as well. -/
def perform (c : Config) (slot : Nat) : HostCall → Action Parts HostReply
  | .stackAlloc size => return .address (← onMemory (Memory.stackAlloc size))
  | .staticAlloc size => return .address (← onMemory (Memory.staticAlloc size))
  | .allocate region size => return .address (← onMemory (Memory.allocate region size))
  | .enter initial => return .frame (← onMemory (Memory.enter initial))
  | .enterForced initial => return .frame (← onMemory (Memory.enterForced initial))
  | .exit frame => do onMemory (Memory.exit frame); return .done
  | .save => return .address (← Action.get).memory.stack.top
  | .restore top => do onMemory (Memory.restore top); return .done
  | .parseType text => return .type (← parseType text)
  | .registerStruct name fields packed => return .struct (← registerStruct name fields packed)
  | .resolve names typeName base => return .offsets (← resolve names typeName base)
  | .inlineOffsets fields => return .offsets (← inlineOffsets c.quantum fields)
  | .toUnsigned value bits =>
    return .unsigned (← Action.ofExcept (LinearHost.toUnsigned value bits c.signCheck))
  | .toSigned value bits =>
    return .signed (← Action.ofExcept (LinearHost.toSigned value bits c.signCheck))
  | .shift w op bits => return .words (← shift slot w op bits)
  | .registerFunction f => return .index (← onTable (Table.register f))
  | .call signature index arguments => return .value (← call signature index arguments)
  | .wrapper index signature => return .wrapper (← wrapper index signature)
  | .warnOnce message => return .recorded (← warnOnce message)
  | .storeText text region => return .address (← storeText text region)
  | .loadText address => return .text (← loadText address)

end Parts

/-! ### Recording -/

namespace Host

variable {α β : Type} {c : Config} {slot : Nat} {h : Host} {p : Parts} {excused : Fault → Prop}

def reported (h : Host) (entry : Diagnostic) : Host :=
  { h with switchboard := { h.switchboard with diagnostics := h.diagnostics.add entry } }

theorem onDiagnostics_push (entry : Diagnostic) (h : Host) :
    (onDiagnostics (Diagnostics.push entry) h).result = .ok () ∧
      (onDiagnostics (Diagnostics.push entry) h).state = h.reported entry := by
  have pushed : Diagnostics.push entry h.switchboard.diagnostics = _ :=
    Diagnostics.push_apply entry h.diagnostics
  simp [onDiagnostics, onSwitchboard, Switchboard.onDiagnostics, pushed, reported]

/-- An action that is recorded answers as it does without. -/
theorem result_recording (category : Category) (x : Action Host α) (h : Host) :
    (recording category x h).result = (x h).result := by
  cases failed : (x h).result with
  | ok a => simp [recording, Action.result_bind, failed]
  | error fault =>
    have pushed := (onDiagnostics_push (fault.entry category) (x h).state).1
    simp [recording, Action.result_bind, failed, pushed]

/-- A fault is recorded after what the action itself left behind. -/
theorem state_recording (category : Category) (x : Action Host α) (h : Host) :
    (recording category x h).state =
      match (x h).result with
      | .ok _ => (x h).state
      | .error fault => (x h).state.reported (fault.entry category) := by
  cases failed : (x h).result with
  | ok a => simp [recording, Action.state_bind, failed]
  | error fault =>
    obtain ⟨pushed, state⟩ := onDiagnostics_push (fault.entry category) (x h).state
    simp [recording, Action.state_bind, failed, pushed, state]

def growthEntry (region : RegionKind) (before after : Nat) : Diagnostic where
  severity := .info
  category := .memory
  message := s!"{region.text} region grew memory from {before} to {after} bytes"

def grown (h : Host) (region : RegionKind) (memory : Memory) : Host :=
  if h.memory.size < memory.size then
    { h with memory }.reported (growthEntry region h.memory.size memory.size)
  else { h with memory }

/-- An allocation of a host is that of its memory, with a note if the memory has grown. -/
theorem allocate_apply (region : RegionKind) (size : Nat) (h : Host) :
    let outcome := Memory.allocate region size h.memory
    (allocate region size h).result = outcome.result ∧
      (allocate region size h).state =
        (recording .memory (Action.ofExcept outcome.result)
          (h.grown region outcome.state)).state := by
  intro outcome
  let note := Diagnostics.push (growthEntry region h.memory.size outcome.state.size)
  let record : Action Host Nat := recording .memory (Action.ofExcept outcome.result)
  obtain ⟨noted, reported⟩ :
      (onDiagnostics note { h with memory := outcome.state }).result = _ ∧ _ :=
    onDiagnostics_push _ _
  show ((if h.memory.size < outcome.state.size then onDiagnostics note >>= fun _ => record
      else record) { h with memory := outcome.state }).result = _ ∧
    ((if h.memory.size < outcome.state.size then onDiagnostics note >>= fun _ => record
      else record) { h with memory := outcome.state }).state = _
  rw [grown]
  split
  · rw [Action.result_bind, Action.state_bind, noted, reported]
    exact ⟨result_recording .., rfl⟩
  · exact ⟨result_recording .., rfl⟩

end Host

/-! ### A host around its parts -/

/-- Two switchboards that answer alike: the entries of their diagnostics may differ, but not those
that are to appear only once. -/
structure Switchboard.Alike (s t : Switchboard) : Prop where
  table : s.table = t.table
  wrappers : s.wrappers = t.wrappers
  built : s.built = t.built
  seen : s.diagnostics.seen = t.diagnostics.seen

structure Host.Around (c : Config) (slot : Nat) (h : Host) (p : Parts) : Prop where
  config : h.config = c
  scratch : h.scratch = slot
  memory : h.memory = p.memory
  types : h.types = p.types
  switchboard : h.switchboard.Alike p.switchboard

open LinearHost.Action (InStep)

variable {α : Type} {c : Config} {slot : Nat} {excused : Fault → Prop}

/-! ### Switchboards in step -/

theorem Diagnostics.inStep_push (entry : Diagnostic) :
    InStep excused (fun d e => d.seen = e.seen) Eq (push entry) (push entry) := by
  intro d e same
  rw [push_apply, push_apply]
  exact .inr ⟨.ok rfl, same⟩

theorem Diagnostics.inStep_pushOnce (entry : Diagnostic) :
    InStep excused (fun d e => d.seen = e.seen) Eq (pushOnce entry) (pushOnce entry) := by
  refine .get_bind fun d e same => ?_
  rw [same]
  refine .ite (.pure rfl) (.bind (.modify fun d e same => ?_) fun _ _ _ => ?_)
  · rw [same]
  · exact .bind (inStep_push entry) fun _ _ _ => .pure rfl

theorem Switchboard.inStep_onTable (x : Action Table α) :
    InStep excused Switchboard.Alike Eq (onTable x) (onTable x) :=
  .zoom (.refl x) (fun _ _ alike => alike.table) fun _ _ _ _ alike same =>
    ⟨same, alike.wrappers, alike.built, alike.seen⟩

theorem Switchboard.inStep_onDiagnostics {x : Action Diagnostics α}
    (inStep : InStep excused (fun d e => d.seen = e.seen) Eq x x) :
    InStep excused Switchboard.Alike Eq (onDiagnostics x) (onDiagnostics x) :=
  .zoom inStep (fun _ _ alike => alike.seen) fun _ _ _ _ alike same =>
    ⟨alike.table, alike.wrappers, alike.built, same⟩

theorem Switchboard.inStep_build (index : Nat) (signature : Signature) :
    InStep excused Switchboard.Alike Eq (build index signature) (build index signature) := by
  refine .get_bind fun s t alike => ?_
  rw [alike.built]
  refine .bind (.modify fun s t alike => ?_) fun _ _ _ => .pure rfl
  exact ⟨alike.table, congrArg (· ++ _) alike.wrappers, congrArg (· + 1) alike.built, alike.seen⟩

/-- Switchboards that answer alike hand out the same wrappers. -/
theorem Switchboard.inStep_wrapper (index : Nat) (signature : Signature) :
    InStep excused Switchboard.Alike Eq (wrapper index signature) (wrapper index signature) := by
  refine .get_bind fun s t alike => ?_
  rw [wrapper?, wrapper?, alike.wrappers, alike.table]
  split
  · exact .ite (.bind (inStep_onDiagnostics (Diagnostics.inStep_pushOnce _)) fun _ _ _ => .pure rfl)
      (.pure rfl)
  · exact .bind (.require _ _) fun _ _ _ => inStep_build index signature

/-! ### The host and its parts in step -/

namespace Host

theorem Around.reported {h : Host} {p : Parts} (around : Around c slot h p) (entry : Diagnostic) :
    Around c slot (h.reported entry) p :=
  ⟨around.config, around.scratch, around.memory, around.types, around.switchboard.table,
    around.switchboard.wrappers, around.switchboard.built, around.switchboard.seen⟩

/-- Recording a failure concerns no part. -/
theorem inStep_recording (category : Category) {x : Action Host α} {y : Action Parts α}
    (inStep : InStep excused (Around c slot) Eq x y) :
    InStep excused (Around c slot) Eq (recording category x) y := by
  intro h p around
  unfold Outcome.InStep
  rw [result_recording, state_recording]
  obtain excuse | ⟨agree, kept⟩ := inStep h p around
  · exact .inl excuse
  · refine .inr ⟨agree, ?_⟩
    split
    · exact kept
    · exact kept.reported _

theorem inStep_onMemory (x : Action Memory α) :
    InStep excused (Around c slot) Eq (onMemory x) (Parts.onMemory x) :=
  .zoom (.refl x) (fun _ _ around => around.memory) fun _ _ _ _ around same =>
    ⟨around.config, around.scratch, same, around.types, around.switchboard⟩

theorem inStep_onTypes (x : Action Registry α) :
    InStep excused (Around c slot) Eq (onTypes x) (Parts.onTypes x) :=
  .zoom (.refl x) (fun _ _ around => around.types) fun _ _ _ _ around same =>
    ⟨around.config, around.scratch, around.memory, same, around.switchboard⟩

theorem inStep_onSwitchboard {x : Action Switchboard α}
    (inStep : InStep excused Switchboard.Alike Eq x x) :
    InStep excused (Around c slot) Eq (onSwitchboard x) (Parts.onSwitchboard x) :=
  .zoom inStep (fun _ _ around => around.switchboard) fun _ _ _ _ around same =>
    ⟨around.config, around.scratch, around.memory, around.types, same⟩

theorem inStep_onTable (x : Action Table α) :
    InStep excused (Around c slot) Eq (onTable x) (Parts.onTable x) :=
  inStep_onSwitchboard (Switchboard.inStep_onTable x)

/-- What is read off the types and the settings is the same. -/
theorem inStep_ofExcept {result : Host → Except Fault α} {other : Parts → Except Fault α}
    (same : ∀ h p, Around c slot h p → result h = other p) :
    InStep excused (Around c slot) Eq (do Action.ofExcept (result (← Action.get)))
      (do Action.ofExcept (other (← Action.get))) := by
  refine .get_bind fun h p around => ?_
  rw [same h p around]
  exact .ofExcept (agree_eq_iff.mpr rfl)

theorem inStep_parseType (text : String) :
    InStep excused (Around c slot) Eq (parseType text) (Parts.parseType text) :=
  inStep_recording _ (inStep_ofExcept fun _ _ around => by rw [around.types])

theorem inStep_registerStruct (name : String) (fields : List String) (packed : Bool) :
    InStep excused (Around c slot) Eq (registerStruct name fields packed)
      (Parts.registerStruct name fields packed) := by
  refine inStep_recording _ (.get_bind fun h p around => ?_)
  rw [around.types]
  refine .bind (.ofExcept (agree_eq_iff.mpr rfl)) fun fields _ same => ?_
  exact same ▸ inStep_onTypes _

theorem inStep_resolve (names : List FieldName) (typeName : String) (base : Nat) :
    InStep excused (Around c slot) Eq (resolve names typeName base)
      (Parts.resolve names typeName base) :=
  inStep_recording _ (inStep_ofExcept fun _ _ around => by rw [around.types])

theorem inStep_inlineOffsets (fields : List (String × String)) :
    InStep excused (Around c slot) Eq (inlineOffsets fields)
      (Parts.inlineOffsets c.quantum fields) := by
  refine inStep_recording _ (.get_bind fun h p around => ?_)
  rw [around.types, around.config]
  refine .bind (.ofExcept (agree_eq_iff.mpr rfl)) fun typed _ same => ?_
  exact same ▸ .pure rfl

/-- An allocation answers as the memory does, whether or not growth is recorded. -/
theorem inStep_allocate (region : RegionKind) (size : Nat) :
    InStep excused (Around c slot) Eq (allocate region size)
      (Parts.onMemory (Memory.allocate region size)) := by
  intro h p around
  have kept : Around c slot { h with memory := (Memory.allocate region size h.memory).state }
      (Parts.onMemory (Memory.allocate region size) p).state :=
    ⟨around.config, around.scratch, by rw [around.memory]; rfl, around.types, around.switchboard⟩
  unfold Outcome.InStep
  rw [(allocate_apply region size h).1, (allocate_apply region size h).2, state_recording]
  refine .inr ⟨agree_eq_iff.mpr (by rw [around.memory]; rfl), ?_⟩
  have grown : Around c slot (h.grown region (Memory.allocate region size h.memory).state)
      (Parts.onMemory (Memory.allocate region size) p).state := by
    rw [Host.grown]
    split
    · exact kept.reported _
    · exact kept
  split
  · exact grown
  · exact grown.reported _

theorem inStep_toUnsigned (value : Int64) (bits : Nat) :
    InStep excused (Around c slot) Eq (toUnsigned value bits)
      (Action.ofExcept (LinearHost.toUnsigned value bits c.signCheck)) := by
  refine inStep_recording _ fun h p around => ?_
  rw [Action.get_bind_apply, around.config]
  exact .inr ⟨agree_eq_iff.mpr rfl, around⟩

theorem inStep_toSigned (value : UInt64) (bits : Nat) :
    InStep excused (Around c slot) Eq (toSigned value bits)
      (Action.ofExcept (LinearHost.toSigned value bits c.signCheck)) := by
  refine inStep_recording _ fun h p around => ?_
  rw [Action.get_bind_apply, around.config]
  exact .inr ⟨agree_eq_iff.mpr rfl, around⟩

theorem inStep_shift (w : WordPair) (op : ShiftOp) (bits : Nat) :
    InStep excused (Around c slot) Eq (shift w op bits) (Parts.shift slot w op bits) := by
  refine inStep_recording _ (.bind (.ofExcept (agree_eq_iff.mpr rfl)) fun shifted _ same => ?_)
  subst same
  intro h p around
  rw [Action.get_bind_apply, around.scratch]
  exact InStep.bind (inStep_onMemory _) (fun _ _ _ => .pure rfl) h p around

theorem inStep_call (signature : String) (index : Nat) (arguments : List Value) :
    InStep excused (Around c slot) Eq (call signature index arguments)
      (Parts.call signature index arguments) := by
  refine inStep_recording _ (.bind (.ofExcept (agree_eq_iff.mpr rfl)) fun parsed _ same => ?_)
  exact same ▸ inStep_onTable _

theorem inStep_wrapper (index : Nat) (signature : String) :
    InStep excused (Around c slot) Eq (wrapper index signature)
      (Parts.wrapper index signature) := by
  refine inStep_recording _ (.bind (.ofExcept (agree_eq_iff.mpr rfl)) fun parsed _ same => ?_)
  exact same ▸ inStep_onSwitchboard (Switchboard.inStep_wrapper _ _)

theorem inStep_warnOnce (message : String) :
    InStep excused (Around c slot) Eq (warnOnce message) (Parts.warnOnce message) :=
  inStep_onSwitchboard (Switchboard.inStep_onDiagnostics (Diagnostics.inStep_pushOnce _))

/-- A text is stored in the same block by the parts. -/
theorem inStep_storeText (text : String) (region : RegionKind) :
    InStep excused (Around c slot) Eq (storeText text region) (Parts.storeText text region) := by
  refine .bind (inStep_allocate _ _) fun address _ same => ?_
  subst same
  exact .bind (inStep_recording _ (inStep_onMemory _)) fun _ _ _ => .pure rfl

theorem inStep_loadText (address : Nat) :
    InStep excused (Around c slot) Eq (loadText address) (Parts.loadText address) := by
  refine inStep_recording _ (.get_bind fun h p around => ?_)
  rw [around.memory]
  exact .ofExcept (agree_eq_iff.mpr rfl)

/-- Every call answers what the parts answer, and leaves them as the parts alone would be. -/
theorem perform_inStep (call : HostCall) :
    InStep excused (Around c slot) Eq (perform call) (Parts.perform c slot call) := by
  have same {α : Type} (f : α → HostReply) {x : Action Host α} {y : Action Parts α}
      (inStep : InStep excused (Around c slot) Eq x y) :
      InStep excused (Around c slot) Eq (do return f (← x)) (do return f (← y)) :=
    .bind inStep fun _ _ equal => .pure (congrArg f equal)
  cases call with
  | stackAlloc size => exact same _ (inStep_recording _ (inStep_onMemory _))
  | staticAlloc size => exact same _ (inStep_allocate .static size)
  | allocate region size => exact same _ (inStep_allocate region size)
  | enter initial => exact same _ (inStep_recording _ (inStep_onMemory _))
  | enterForced initial => exact same _ (inStep_recording _ (inStep_onMemory _))
  | exit frame => exact same (fun _ => .done) (inStep_recording _ (inStep_onMemory _))
  | save =>
    refine .get_bind fun h p around => ?_
    rw [around.memory]
    exact .pure rfl
  | restore top => exact same (fun _ => .done) (inStep_recording _ (inStep_onMemory _))
  | parseType text => exact same _ (inStep_parseType text)
  | registerStruct name fields packed => exact same _ (inStep_registerStruct name fields packed)
  | resolve names typeName base => exact same _ (inStep_resolve names typeName base)
  | inlineOffsets fields => exact same _ (inStep_inlineOffsets fields)
  | toUnsigned value bits => exact same _ (inStep_toUnsigned value bits)
  | toSigned value bits => exact same _ (inStep_toSigned value bits)
  | shift w op bits => exact same _ (inStep_shift w op bits)
  | registerFunction f => exact same _ (inStep_onTable _)
  | call signature index arguments => exact same _ (inStep_call signature index arguments)
  | wrapper index signature => exact same _ (inStep_wrapper index signature)
  | warnOnce message => exact same _ (inStep_warnOnce message)
  | storeText text region => exact same _ (inStep_storeText text region)
  | loadText address => exact same _ (inStep_loadText address)

end Host

end LinearHost
