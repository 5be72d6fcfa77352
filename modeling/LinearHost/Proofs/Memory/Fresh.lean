import LinearHost.Proofs.Memory.Upkeep

/-!
# Fresh static blocks

A block of the static region is cleared when it is handed out, whatever stood there before. So are the
bytes that the memory grows by. Nothing else changes: the bytes beside the block, the stack and the
open frames are as they were, and the block can be read at once.

## Main definitions

* `Memory.cell?_claim_of_mem`: what a block holds when it is handed out.
* `Memory.Cleared`: what a static block leaves behind.
* `Memory.staticAlloc_clears`: every static block is fresh, and nothing else is changed.
-/

namespace LinearHost.Memory

variable {m after room : Memory} {policy : Policy} {size alignment top address : Nat}

/-- Inside a block that is cleared every cell is blank. -/
theorem cell?_claim_of_mem (clears : policy.zeroFill = true)
    (start_le : (m.region policy.region).top ≤ address) (lt_top : address < top)
    (inside : address < m.size) : (m.claim policy top).image.cell? address = some .blank := by
  have found : (m.image.cell? address).isSome := Image.isSome_cell?.mpr inside
  obtain ⟨cell, found⟩ := Option.isSome_iff_exists.mp found
  refine (Image.cell?_update.trans (if_pos ⟨start_le, lt_top⟩)).trans ?_
  rw [found, Option.map_some, clears]
  rfl

/-- What a block of `size` bytes at an address of the static region leaves behind: its cells and those
that the memory grew by are blank, the others are as before, and so is the stack. -/
structure Cleared (m : Memory) (address size : Nat) (after : Memory) : Prop where
  address_eq : address = m.statics.top
  add_le : address + size ≤ after.statics.top
  top_le : after.statics.top ≤ after.size
  size_le : m.size ≤ after.size
  block : ∀ a, address ≤ a → a < after.statics.top → after.image.cell? a = some .blank
  beside : ∀ a, a < m.size → a < address ∨ after.statics.top ≤ a →
    after.image.cell? a = m.image.cell? a
  added : ∀ a, m.size ≤ a → a < after.size → after.image.cell? a = some .blank
  stack : after.stack = m.stack
  frames : after.frames = m.frames

/-- A block for which room was found is handed out cleared. -/
theorem Reserved.cleared (sound : m.WellFormed)
    (reserved : Reserved m .static size alignment (.ok top) room) :
    Cleared m m.statics.top size (room.claim .static top) := by
  have idle : m.IdleGrowth .static size alignment := idleGrowth_of_growable nofun
  obtain ⟨size_le, cells⟩ := reserved.extended sound idle
  obtain ⟨add_le, -⟩ := reserved.top_mem
  obtain ⟨-, top_le⟩ := hasWindow_iff.mp (reserved.hasWindow sound)
  have start : room.statics.top = m.statics.top := reserved.top_region
  have stack : room.region .stack = m.region .stack := reserved.region_of_ne (by decide)
  have block (a : Nat) (start_le : m.statics.top ≤ a) (lt_top : a < top) :
      (room.claim .static top).image.cell? a = some .blank :=
    cell?_claim_of_mem rfl (Nat.le_trans (Nat.le_of_eq start) start_le) lt_top (by omega)
  have beside (a : Nat) (apart : a < m.statics.top ∨ top ≤ a) :
      (room.claim .static top).image.cell? a = room.image.cell? a :=
    cell?_claim room .static (apart.imp_left fun lt => Nat.lt_of_lt_of_eq lt start.symm)
  refine
    { address_eq := rfl
      add_le := add_le
      top_le := by rwa [size_claim]
      size_le := by rwa [size_claim]
      block := block
      beside := fun a inside apart => ?beside
      added := fun a beyond inside => ?added
      stack := stack
      frames := reserved.frames_eq }
  case beside => rw [beside a apart, cells, if_pos inside]
  case added =>
    rw [size_claim] at inside
    by_cases within : m.statics.top ≤ a ∧ a < top
    · exact block a within.1 within.2
    · rw [beside a (by omega), cells, if_neg (Nat.not_lt_of_le beyond), if_pos inside]

/-- A block can be read as soon as it is handed out. -/
theorem Cleared.read (cleared : Cleared m address size after)
    (representable : address + size < addressSpace) :
    after.read address size = .ok (List.replicate size 0) := by
  have add_le := cleared.add_le
  have top_le := cleared.top_le
  have holds : after.Holds address (List.replicate size 0) := by
    intro k b found
    obtain ⟨inside, rfl⟩ := List.getElem?_eq_some_iff.mp found
    rw [List.length_replicate] at inside
    rw [List.getElem_replicate]
    exact cleared.block (address + k) (by omega) (by omega)
  have inside : after.inBounds address size = true := inBounds_iff.mpr (by omega)
  simpa using holds.read (by simpa using inside)

theorem Allocated.cleared (sound : m.WellFormed)
    (allocated : Allocated m .static size alignment (.ok address) after) :
    Cleared m address size after ∧ after.read address size = .ok (List.replicate size 0) := by
  cases allocated with
  | taken reserved inside =>
    have cleared := reserved.cleared sound
    have representable := (Region.blockStop?_eq_some.mp reserved.blockStop?_eq).1
    exact ⟨cleared, cleared.read representable⟩

/-- Wherever operations lead, and whatever the grower answers, a static block that is handed out is
zero and live, whatever was written or marked there before; every byte beside it that was there keeps
its value and its mark; every byte that the memory grows by is zero and live; the stack and the open
frames are as they were; and the bytes asked for are read as zeros. -/
theorem staticAlloc_clears {c : Config} {grower : Grower} {start : Memory}
    (created : create c grower = .ok start) (before : List Operation)
    (fixed : ∀ op ∈ before, op.growsStack = false) {size address : Nat}
    (taken : (staticAlloc size (reached before start)).result = .ok address) :
    let m := reached before start
    let after := (staticAlloc size m).state
    Cleared m address size after ∧ after.read address size = .ok (List.replicate size 0) := by
  obtain ⟨valid, rfl⟩ := create_eq_ok.mp created
  intro m after
  have sound : m.WellFormed := ((ofLayout_wellFormed valid grower).reached fixed).1
  have allocated := alloc_cases m .static size m.quantum.bytes
  rw [← staticAlloc_apply, taken] at allocated
  exact allocated.cleared sound

/-- A mark was copied to where the block starts and bytes were written there; the memory grows for
it. -/
theorem staticAlloc_clears_marked :
    ∃ start,
      create { checks := .debug, memory := ⟨64, 128, 512⟩ }
        { policy := fun _ _ requested => some (requested + 50) } = .ok start ∧
      let m := reached [.enter 16, .exit (.active 8 1), .copy 72 8 8, .fill 84 7 44] start
      (m.isPoisoned 72 = true ∧ m.image.cell? 100 = some (.live 7)) ∧
      (staticAlloc 30 m).result = .ok 72 ∧
      (staticAlloc 30 m).state.image.cell? 72 = some .blank ∧
      (staticAlloc 30 m).state.image.cell? 120 = some (.live 7) ∧
      (staticAlloc 30 m).state.read 72 30 = .ok (List.replicate 30 0) ∧
      (staticAlloc 100 m).state.size = 222 ∧
      (staticAlloc 100 m).state.image.cell? 200 = some .blank := by
  have created := create_of_validate
    (c := { checks := .debug, memory := ⟨64, 128, 512⟩ }) rfl
    { policy := fun _ _ requested => some (requested + 50) }
  have clears := fun size address => @staticAlloc_clears _ _ _ created
    [.enter 16, .exit (.active 8 1), .copy 72 8 8, .fill 84 7 44] (by decide) size address
  obtain ⟨small, read⟩ := clears 30 72 rfl
  obtain ⟨large, -⟩ := clears 100 72 rfl
  exact ⟨_, created, ⟨rfl, rfl⟩, rfl, small.block 72 (by decide) (by decide),
    (small.beside 120 (by decide) (.inr (by decide))).trans rfl, read, rfl,
    large.added 200 (by decide) (by decide)⟩

end LinearHost.Memory
