import LinearHost.Proofs.Host.Steps

/-!
# What loading a text answers

Whatever a program has done with a host, the memory of the host stays below its cap. So if the cap
is an address, a text that is loaded is found at every address in the same way: its bytes end before
the first zero byte, unless a byte that assertions refuse or the end of the memory comes first. The
host only takes note of a failure.

## Main definitions

* `Host.Limited`: the memory stays below a cap.
* `Host.loads_to_zero`: the text that is loaded, or the fault, and what is left behind.
-/

namespace LinearHost.Host

variable {h : Host} {cap : Nat}

/-- The memory of the host has not come to exceed the cap that it has had from the start. -/
structure Limited (cap : Nat) (h : Host) : Prop where
  capped : h.memory.Capped
  cap_eq : h.memory.cap = cap

theorem Limited.next (limited : Limited cap h) (op : Operation) :
    Limited cap { h with memory := Memory.next h.memory op } :=
  ⟨limited.capped.next op, (limited.capped.cap_next op).trans limited.cap_eq⟩

theorem Limited.effect {after : Memory} (limited : Limited cap h) (effect : Effect h after) :
    Limited cap { h with memory := after } := by
  cases effect with
  | unchanged => exact limited
  | silent fixed nowhere => exact limited.next _
  | shifted w => exact limited.next _
  | stored taken => exact (limited.next (.allocate _ _)).next (.write _ _)

theorem Limited.advance (limited : Limited cap h) (step : HostStep) :
    Limited cap (h.advance step) := by
  cases step with
  | memory op => exact limited.next op
  | call c =>
    have kept := limited.effect (h.perform_effect c)
    exact ⟨kept.capped, kept.cap_eq⟩

/-- No step lets the memory exceed its cap. -/
theorem Limited.reached (limited : Limited cap h) (steps : List HostStep) :
    Limited cap (reached steps h) :=
  reached_induction (fun _ => True) (Limited cap) (fun _ step limited _ => limited.advance step)
    (fun _ _ => trivial) limited

theorem limited_of_build {b : Builder} {events : List Event} (built : b.build = .ok (h, events)) :
    Limited h.config.memory.cap h := by
  obtain ⟨c, memory, scratch, -, created, -, rfl⟩ := Builder.build_eq_ok built
  obtain ⟨capped, cap⟩ := Memory.capped_of_create created
  have slot := Memory.next_staticAlloc 8 memory
  exact ⟨slot ▸ capped.next _, slot ▸ (capped.cap_next _).trans cap⟩

theorem Limited.size_lt (limited : Limited cap h) (small : cap < addressSpace) :
    h.memory.size < addressSpace := by
  have size_le := limited.capped.size_le_cap
  have cap_eq := limited.cap_eq
  omega

theorem result_loadText (address : Nat) (h : Host) :
    (loadText address h).result = h.memory.textAt address := by
  rw [loadText, result_recording]
  rfl

theorem state_loadText_of_ok {address : Nat} {text : String}
    (found : h.memory.textAt address = .ok text) : (loadText address h).state = h := by
  rw [loadText, state_recording, Action.get_bind_apply, found]
  rfl

/-- A failure is recorded, and nothing else happens. -/
theorem state_loadText_of_error {address : Nat} {fault : Fault}
    (failed : h.memory.textAt address = .error fault) :
    (loadText address h).state = h.reported (fault.entry .codec) := by
  rw [loadText, state_recording, Action.get_bind_apply, failed]
  rfl

/-- Whatever a program has done with a host that was built, for any settings and any grower, if the
cap on its memory is an address: a text is loaded from any address if a zero byte of the memory
follows and no byte up to it is refused, and then it is decoded from the bytes before the first one.
Otherwise the first byte that is refused is reported, or the end of the memory if it comes before,
or the address itself if it lies beyond. The memory is left as it is; a fault, and only a fault,
adds one entry to the diagnostics, which is an error. -/
theorem loads_to_zero {b : Builder} {host : Host} {events : List Event}
    (built : b.build = .ok (host, events)) (small : host.config.memory.cap < addressSpace)
    (past : List HostStep) (address : Nat) :
    let h := reached past host
    let m := h.memory
    let outcome := loadText address h
    (∀ text, outcome.result = .ok text ↔
      ∃ stop, address ≤ stop ∧ m.Clear address stop ∧ m.bytes[stop]? = some 0 ∧ ¬ m.Refused stop ∧
        text = decode ((m.bytes.drop address).take (stop - address))) ∧
    (∀ fault, outcome.result = .error fault ↔
      (∃ stop, address ≤ stop ∧ m.Clear address stop ∧ m.Refused stop ∧
        fault = .assertion (.staleRead stop)) ∨
      (m.Clear address m.size ∧ fault = .invalidAddress (max address m.size) 1)) ∧
    (∀ text, outcome.result = .ok text → outcome.state = h) ∧
    ∀ fault, outcome.result = .error fault →
      outcome.state = h.reported (fault.entry .codec) ∧ outcome.state.memory = m ∧
        outcome.state.diagnostics.entries = h.diagnostics.entries ++ [fault.entry .codec] ∧
        (fault.entry .codec).severity = .error := by
  intro h m outcome
  have small : m.size < addressSpace := ((limited_of_build built).reached past).size_lt small
  have result : outcome.result = m.textAt address := result_loadText address h
  rw [result]
  refine ⟨fun text => Memory.textAt_eq_ok_iff small, fun fault => Memory.textAt_eq_error_iff small,
    fun text found => state_loadText_of_ok found, fun fault failed => ?_⟩
  have reported : outcome.state = h.reported (fault.entry .codec) := state_loadText_of_error failed
  rw [reported]
  exact ⟨rfl, rfl, rfl, rfl⟩

/-- A zero byte ends a text within a sequence of two bytes, whose first one is dropped. The text
before it runs into a byte that a closed frame left behind, and the last one into the end of the
memory. -/
theorem loads_to_zero_or_fails :
    ∃ host events,
      (Builder.ofSettings [.config { checks := .debug, memory := ⟨64, 128, 512⟩ }]).build =
        .ok (host, events) ∧
      let h := reached [.call (.enter 16), .call (.exit (.active 8 1)), .memory (.write 8 [0x61]),
        .memory (.write 80 [0x61, 0xC3, 0, 0xA9]), .memory (.fill 120 0x61 8)] host
      (loadText 80 h).result = .ok "a" ∧ (loadText 80 h).state = h ∧
        (loadText 8 h).result = .error (.assertion (.staleRead 9)) ∧
        (loadText 120 h).result = .error (.invalidAddress 128 1) ∧
        (loadText 300 h).result = .error (.invalidAddress 300 1) ∧
        (loadText 300 h).state.diagnostics.entries =
          h.diagnostics.entries ++ [(Fault.invalidAddress 300 1).entry .codec] := by
  refine ⟨_, _, rfl, ?_⟩
  have loads := loads_to_zero
    (show (Builder.ofSettings [.config { checks := .debug, memory := ⟨64, 128, 512⟩ }]).build =
      .ok (_, _) from rfl)
    (by decide) [.call (.enter 16), .call (.exit (.active 8 1)), .memory (.write 8 [0x61]),
      .memory (.write 80 [0x61, 0xC3, 0, 0xA9]), .memory (.fill 120 0x61 8)]
  have text := ((loads 80).1 "a").mpr ⟨82, by decide, by decide, by decide, by decide, by decide⟩
  have stale := ((loads 8).2.1 (.assertion (.staleRead 9))).mpr
    (.inl ⟨9, by decide, by decide, by decide, rfl⟩)
  have ends := ((loads 120).2.1 (.invalidAddress 128 1)).mpr (.inr ⟨by decide, rfl⟩)
  have beyond := ((loads 300).2.1 (.invalidAddress 300 1)).mpr (.inr ⟨by decide, rfl⟩)
  exact ⟨text, (loads 80).2.2.1 "a" text, stale, ends, beyond,
    ((loads 300).2.2.2 _ beyond).2.2.1⟩

end LinearHost.Host
