import LinearHost.Proofs.Host.Steps
import LinearHost.Proofs.Text.RoundTrip

/-!
# Texts that stay

A text that a host has put into a block is read back from it as it was, for as long as nothing else
is put into the block and, if the block is on the stack, the top does not fall below its end. The
calls of the host keep away from the block themselves: they take other blocks beside it, and the
scratch slot lies apart from it.

## Main definitions

* `Host.Leaves`: a step that leaves a block alone.
* `Host.Bears`: bytes that a host has put into a block.
* `Host.texts_survive`: texts are read back after everything that leaves their blocks alone.
-/

namespace LinearHost

/-! ### The bytes of a text -/

/-- A text takes as many bytes as its encoding in UTF-8. -/
theorem length_encode (text : String) : (encode text).length = text.utf8ByteSize := by
  calc (encode text).length
      = text.toList.utf8Encode.size := List.size_toByteArray.symm
    _ = (String.ofList text.toList).toByteArray.size := by rw [String.toByteArray_ofList]
    _ = text.utf8ByteSize := by rw [String.ofList_toList, String.size_toByteArray]

theorem zero_notMem_utf8EncodeChar {c : Char} (nonzero : c ≠ '\x00') :
    0 ∉ String.utf8EncodeChar c := by
  have positive : c.val.toNat ≠ 0 := fun same =>
    nonzero (Char.ext (UInt32.toNat_inj.mp same))
  have byte {n : Nat} (positive : n ≠ 0) (lt : n < 256) : 0 ≠ UInt8.ofNat n := by
    intro zero
    have same : (UInt8.ofNat n).toNat = n := UInt8.toNat_ofNat_of_lt' lt
    exact positive (same.symm.trans (congrArg UInt8.toNat zero.symm))
  fun_cases String.utf8EncodeChar c with
  | case1 v ascii => simp [byte positive (n := v) (by omega)]
  | case2 v wide two =>
    simp only [List.mem_cons, List.not_mem_nil, or_false, not_or]
    exact ⟨byte (by omega) (by omega), byte (by omega) (by omega)⟩
  | case3 v _ _ three =>
    simp only [List.mem_cons, List.not_mem_nil, or_false, not_or]
    exact ⟨byte (by omega) (by omega), byte (by omega) (by omega), byte (by omega) (by omega)⟩
  | case4 v _ _ _ =>
    simp only [List.mem_cons, List.not_mem_nil, or_false, not_or]
    exact ⟨byte (by omega) (by omega), byte (by omega) (by omega), byte (by omega) (by omega),
      byte (by omega) (by omega)⟩

/-- Only U+0000 is encoded with a zero byte. -/
theorem zero_notMem_encode {text : String} (nonzero : ∀ c ∈ text.toList, c ≠ '\x00') :
    0 ∉ encode text := by
  intro zero
  obtain ⟨c, member, zero⟩ := List.mem_flatMap.mp zero
  exact zero_notMem_utf8EncodeChar (nonzero c member) zero

namespace Host

variable {h : Host} {region : RegionKind} {start address : Nat} {bytes : List UInt8}
  {text : String} {step : HostStep}

/-- A step leaves a block of a region alone: it lets no stack grow, it puts nothing into the block,
and if the block is on the stack, it leaves the top at its end or above. -/
def Leaves (region : RegionKind) (start stop : Nat) (h : Host) (step : HostStep) : Prop :=
  step.growsStack = false ∧ step.Avoids start stop ∧
    (region = .stack → stop ≤ (h.advance step).memory.stack.top)

instance (region : RegionKind) (start stop : Nat) (h : Host) (step : HostStep) :
    Decidable (Leaves region start stop h step) :=
  inferInstanceAs (Decidable (_ ∧ _))

structure Bears (region : RegionKind) (start : Nat) (bytes : List UInt8) (h : Host) : Prop where
  sound : h.Sound
  keeps : h.memory.Keeps region start bytes
  small : start + bytes.length < addressSpace
  apart : start + bytes.length ≤ h.scratch ∨ h.scratch + 8 ≤ start

/-! ### What keeps bytes -/

theorem Bears.effect {after : Memory} (bears : Bears region start bytes h) (effect : Effect h after)
    (above : region = .stack → start + bytes.length ≤ after.stack.top) :
    after.Keeps region start bytes := by
  have sound := bears.sound.wellFormed
  have keeps := bears.keeps
  cases effect with
  | unchanged => exact keeps
  | silent fixed nowhere => exact keeps.next sound fixed (.inl nowhere) above
  | shifted w =>
    refine keeps.next sound rfl (.inr ?_) above
    show _ ≤ h.scratch ∨ h.scratch + (Scalar.i64 w).encode.length ≤ start
    rw [Scalar.length_encode]
    exact bears.apart
  | stored taken => exact keeps.next_stored sound taken

/-- A step that leaves the block alone leaves the bytes in it. -/
theorem Bears.advance (bears : Bears region start bytes h)
    (leaves : Leaves region start (start + bytes.length) h step) :
    Bears region start bytes (h.advance step) := by
  obtain ⟨fixed, avoids, above⟩ := leaves
  refine ⟨bears.sound.advance fixed, ?_, bears.small, h.scratch_advance step ▸ bears.apart⟩
  cases step with
  | call c => exact bears.effect (h.perform_effect c) above
  | memory op => exact bears.keeps.next bears.sound.wellFormed fixed avoids above

theorem Bears.reached {steps : List HostStep} (bears : Bears region start bytes h)
    (along : Along Host.advance (Leaves region start (start + bytes.length)) steps h) :
    Bears region start bytes (reached steps h) := by
  induction steps generalizing h with
  | nil => exact bears
  | cons step rest ih => exact ih (bears.advance along.1) along.2

/-! ### Storing and loading a text -/

/-- A text that is stored stands in a new block, apart from the scratch slot. -/
theorem bears_storeText (sound : h.Sound) (stored : (storeText text region h).result = .ok address) :
    Bears region address (encode text ++ [0]) (storeText text region h).state := by
  obtain ⟨agree, around⟩ := (inStep_storeText text region).agree h.around_parts
  have same := agree_eq_iff.mp agree
  rw [Parts.storeText_eq] at same around
  rw [stored] at same
  have after : (storeText text region h).state.Sound := by
    have advanced : (h.advance (.call (.storeText text region))).Sound := sound.advance rfl
    rwa [advance, perform, Action.state_bind_pure] at advanced
  generalize encode text ++ [0] = bytes at same around ⊢
  obtain ⟨fault, failed, -⟩ | ⟨a, taken, result, state⟩ := Parts.place_cases h.parts bytes region
  · rw [failed] at same
    cases same
  rw [result] at same
  obtain ⟨_, written, rfl⟩ := Memory.ok_of_map same.symm
  have inside := Memory.inBounds_of_write written
  refine ⟨after, ?_, (Memory.inBounds_iff.mp inside).1, ?_⟩
  · rw [around.memory, state]
    exact Memory.keeps_stored sound.wellFormed taken inside
  · have found := Memory.handedOut?_allocate taken
    obtain ⟨-, -, fits, -⟩ := Memory.handedOut?_spec sound.wellFormed.toOrderly found
    -- the slot is in use, and a new block lies beside what is
    have base_le : (h.memory.region .static).base ≤ h.scratch := sound.base_le
    have beside := Memory.beside_of_handedOut? sound.wellFormed rfl found base_le sound.le_top
    dsimp only at fits beside
    rw [around.scratch]
    omega

/-- A text is loaded from its bytes as it was stored. -/
theorem Bears.loadText_eq_ok (bears : Bears region address (encode text ++ [0]) h)
    (plain : ∀ c ∈ text.toList, c ≠ '\x00' ∧ c.toNat < 0x10000) :
    (loadText address h).result = .ok text := by
  have sound := bears.sound.wellFormed
  have inside : h.memory.inBounds address (encode text ++ [0]).length = true :=
    Memory.inBounds_iff.mpr ⟨bears.small, bears.keeps.le_size sound⟩
  rw [List.length_append, List.length_singleton] at inside
  have found : h.memory.textAt address = .ok (decode (encode text)) :=
    bears.keeps.holds.textAt_eq_ok (zero_notMem_encode fun c member => (plain c member).1) inside
  rw [loadText, result_recording, Action.get_bind_apply, found, Action.ofExcept_apply,
    decode_encode fun c member => (plain c member).2]

/-- Whatever a program has done with a host that was built, for any settings and any grower, as long
as no policy has let the stack grow: a text without U+0000, all of whose characters are in the Basic
Multilingual Plane, is read back from the address that it was stored at. This stays so through every
further run of calls and operations on the memory that puts nothing into the block of the text, and,
if the text is on the stack, never moves the top below the end of the block. -/
theorem texts_survive {b : Builder} {host : Host} {events : List Event}
    (built : b.build = .ok (host, events)) {past : List HostStep}
    (fixed : ∀ step ∈ past, step.growsStack = false) {text : String}
    (plain : ∀ c ∈ text.toList, c ≠ '\x00' ∧ c.toNat < 0x10000) {region : RegionKind}
    {address : Nat} (stored : (storeText text region (reached past host)).result = .ok address) :
    let h := (storeText text region (reached past host)).state
    (loadText address h).result = .ok text ∧
      ∀ more : List HostStep,
        Along advance (Leaves region address (address + (text.utf8ByteSize + 1))) more h →
          (loadText address (reached more h)).result = .ok text := by
  intro h
  have bears := bears_storeText ((sound_of_build built).reached fixed) stored
  refine ⟨bears.loadText_eq_ok plain, fun more along => ?_⟩
  have length : (encode text ++ [0]).length = text.utf8ByteSize + 1 := by
    rw [List.length_append, length_encode, List.length_singleton]
  rw [← length] at along
  exact (bears.reached along).loadText_eq_ok plain

/-- A text with characters of one, two and three bytes is stored on the stack. It stays while the
memory grows, a frame with a text of its own is closed and cleared, the top is restored, a result is
put into the scratch slot and a byte is put right behind it. -/
theorem texts_survive_growing :
    ∃ host events,
      (Builder.ofSettings [.config { checks := .debug, memory := ⟨64, 128, 512⟩ },
        .grower { policy := fun _ _ requested => some requested }]).build = .ok (host, events) ∧
      let past : List HostStep := [.call (.enter 8), .memory (.write 100 [1, 2, 3])]
      let more : List HostStep :=
        [.call (.staticAlloc 100), .call (.enter 4), .call (.storeText "inner" .stack),
          .call (.exit (.active 24 2)), .call (.stackAlloc 8), .call (.restore 24),
          .call (.shift ⟨1, 2⟩ .left 3), .memory (.fill 23 7 1)]
      let outcome := storeText "a\u00f1\u20ac" .stack (reached past host)
      outcome.result = .ok 16 ∧
        (loadText 16 outcome.state).result = .ok "a\u00f1\u20ac" ∧
        (reached more outcome.state).memory.size = 180 ∧
        (loadText 16 (reached more outcome.state)).result = .ok "a\u00f1\u20ac" := by
  refine ⟨_, _, rfl, ?_⟩
  intro past more outcome
  have plain : ∀ c ∈ "a\u00f1\u20ac".toList, c ≠ '\x00' ∧ c.toNat < 0x10000 := by simp
  have stored : outcome.result = .ok 16 := by decide
  obtain ⟨now, later⟩ := texts_survive
    (show (Builder.ofSettings [.config { checks := .debug, memory := ⟨64, 128, 512⟩ },
      .grower { policy := fun _ _ requested => some requested }]).build = .ok (_, _) from rfl)
    (show ∀ step ∈ past, step.growsStack = false by decide) plain stored
  exact ⟨stored, now, by decide +kernel, later more (by decide +kernel)⟩

end Host

end LinearHost
