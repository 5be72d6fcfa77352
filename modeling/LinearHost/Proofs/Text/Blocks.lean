import LinearHost.Text.Decoder

/-!
# Blocks of bytes

A row of bytes falls into blocks from the left, whether it is well-formed or not: the first byte of
a block tells its length, and only the last block can be too short. A decoder that is fed the bytes
one by one emits what these blocks mean, each with the last byte of its block, and waits for more
bytes exactly if the last block is too short.

## Main definitions

* `Decoder.blocks`, `Decoder.unit?`: the blocks of a row of bytes and their meaning.
* `Decoder.Shaped`: how much of a block a decoder can have read.
* `Decoder.decodes_blocks`: what a decoder emits for a row of bytes.
-/

namespace LinearHost

namespace Decoder

variable {d : Decoder} {bytes block more : List UInt8} {lead middle last b : UInt8}

theorem after_append (d : Decoder) (xs ys : List UInt8) :
    d.after (xs ++ ys) = (d.after xs).after ys :=
  List.foldl_append

theorem emitted_append (d : Decoder) (xs ys : List UInt8) :
    d.emitted (xs ++ ys) = d.emitted xs ++ (d.after xs).emitted ys := by
  induction xs generalizing d with
  | nil => rfl
  | cons b rest ih => simp [ih, after]

/-! ### The blocks of a row -/

def blockLength (lead : UInt8) : Nat :=
  if lead < 128 then 1 else if 192 ≤ lead ∧ lead ≤ 223 then 2 else 3

/-- The blocks of a row of bytes; the last of them may be too short. -/
def blocks : List UInt8 → List (List UInt8)
  | [] => []
  | lead :: rest =>
    (lead :: rest.take (blockLength lead - 1)) :: blocks (rest.drop (blockLength lead - 1))
termination_by bytes => bytes.length
decreasing_by
  rw [List.length_drop, List.length_cons]
  omega

def isComplete : List UInt8 → Bool
  | [] => false
  | lead :: more => more.length + 1 = blockLength lead

def unit? : List UInt8 → Option UInt16
  | [b0] => if b0 < 128 then some b0.toUInt16 else none
  | [b0, b1] =>
    if 192 ≤ b0 ∧ b0 ≤ 223 then some (((b0.toUInt16 &&& 31) <<< 6) ||| (b1.toUInt16 &&& 63))
    else none
  | [b0, b1, b2] =>
    some (((b0.toUInt16 &&& 15) <<< 12) ||| ((b1.toUInt16 &&& 63) <<< 6) ||| (b2.toUInt16 &&& 63))
  | _ => none

/-- What the bytes of a block emit: the unit of the block, with the last of them. -/
def withUnit (block : List UInt8) : List (Option UInt16) :=
  List.replicate (block.length - 1) none ++ [unit? block]

theorem blockLength_pos (lead : UInt8) : 0 < blockLength lead := by
  unfold blockLength
  split
  · decide
  · split <;> decide

/-- A block that is too short is the last one. -/
theorem drop_eq_nil_of_isComplete
    (short : isComplete (lead :: bytes.take (blockLength lead - 1)) = false) :
    bytes.drop (blockLength lead - 1) = [] := by
  have positive := blockLength_pos lead
  simp only [isComplete, List.length_take, decide_eq_false_iff_not] at short
  exact List.drop_eq_nil_of_le (by omega)

theorem eq_append_drop (lead : UInt8) (rest : List UInt8) :
    lead :: rest =
      (lead :: rest.take (blockLength lead - 1)) ++ rest.drop (blockLength lead - 1) := by
  rw [List.cons_append, List.take_append_drop]

/-- Blocks cut a row of bytes without loss. -/
theorem flatten_blocks (bytes : List UInt8) : (blocks bytes).flatten = bytes := by
  fun_induction blocks bytes with
  | case1 => rfl
  | case2 lead rest ih => rw [List.flatten_cons, ih, ← eq_append_drop]

/-- Only the last block can be too short. -/
theorem isComplete_of_mem_dropLast (member : block ∈ (blocks bytes).dropLast) :
    isComplete block = true := by
  fun_induction blocks bytes with
  | case1 => cases member
  | case2 lead rest ih =>
    cases short : isComplete (lead :: rest.take (blockLength lead - 1)) with
    | false =>
      rw [drop_eq_nil_of_isComplete short, blocks, List.dropLast_singleton] at member
      cases member
    | true =>
      cases others : blocks (rest.drop (blockLength lead - 1)) with
      | nil =>
        rw [others, List.dropLast_singleton] at member
        cases member
      | cons second later =>
        rw [others, List.dropLast_cons_cons] at member
        obtain rfl | member := List.mem_cons.mp member
        · exact short
        · exact ih (others ▸ member)

/-! ### The states of a decoder -/

def afterLead2 (lead : UInt8) : Decoder := ⟨#v[lead, 0, 0], 1, 1⟩

def afterLead3 (lead : UInt8) : Decoder := ⟨#v[lead, 0, 0], 1, 2⟩

def afterMiddle (lead middle : UInt8) : Decoder := ⟨#v[lead, middle, 0], 2, 1⟩

theorem feed_ready_single (single : b < 128) : ready.feed b = (ready, some b.toUInt16) := by
  simp [feed, ready, single]

theorem feed_ready_lead2 (multi : ¬ b < 128) (two : 192 ≤ b ∧ b ≤ 223) :
    ready.feed b = (afterLead2 b, none) := by
  simp [feed, ready, Decoder.start, afterLead2, multi, two]

theorem feed_ready_lead3 (multi : ¬ b < 128) (other : ¬ (192 ≤ b ∧ b ≤ 223)) :
    ready.feed b = (afterLead3 b, none) := by
  simp [feed, ready, Decoder.start, afterLead3, multi, other]

@[simp] theorem feed_afterLead2 : (afterLead2 lead).feed last = (ready, some (unit2 lead last)) :=
  rfl

@[simp] theorem feed_afterLead3 : (afterLead3 lead).feed middle = (afterMiddle lead middle, none) :=
  rfl

@[simp] theorem feed_afterMiddle :
    (afterMiddle lead middle).feed last = (ready, some (unit3 lead middle last)) :=
  rfl

/-- A decoder has read nothing of a block, its first byte, or two bytes of a block of three. -/
def Shaped (d : Decoder) : Prop :=
  (d.length, d.needed) ∈ [(0, 0), (1, 1), (1, 2), (2, 1)]

theorem Shaped.feed (shaped : d.Shaped) (b : UInt8) : (d.feed b).1.Shaped := by
  obtain ⟨pending, length, needed⟩ := d
  simp only [Shaped, List.mem_cons, Prod.mk.injEq, List.not_mem_nil, or_false] at shaped
  obtain ⟨rfl, rfl⟩ | ⟨rfl, rfl⟩ | ⟨rfl, rfl⟩ | ⟨rfl, rfl⟩ := shaped
  case inl =>
    by_cases single : b < 128
    · simp [Decoder.feed, Shaped, single]
    · by_cases two : 192 ≤ b ∧ b ≤ 223 <;> simp [Decoder.feed, start, Shaped, single, two]
  all_goals simp [Decoder.feed, add, ready, Shaped]

/-- A decoder is in one of these states whatever it has read. -/
theorem Shaped.after (shaped : d.Shaped) (bytes : List UInt8) : (d.after bytes).Shaped := by
  induction bytes generalizing d with
  | nil => exact shaped
  | cons b rest ih => exact ih (shaped.feed b)

theorem shaped_ready : ready.Shaped := by simp [Shaped, ready]

/-- A byte that is added has a place among the pending ones. -/
theorem Shaped.length_lt (shaped : d.Shaped) : d.length < 3 := by
  simp only [Shaped, List.mem_cons, Prod.mk.injEq, List.not_mem_nil, or_false] at shaped
  omega

/-! ### One block -/

structure Reads (block : List UInt8) : Prop where
  emitted : ready.emitted block = withUnit block
  complete : isComplete block = true → ready.after block = ready
  short : isComplete block = false → (ready.after block).isPending = true

theorem reads_single (single : lead < 128) : Reads [lead] where
  emitted := by simp [feed_ready_single single, withUnit, unit?, single]
  complete _ := by simp [after, feed_ready_single single]
  short short := by simp [isComplete, blockLength, single] at short

theorem reads_two (multi : ¬ lead < 128) (two : 192 ≤ lead ∧ lead ≤ 223)
    (lt : more.length < 2) : Reads (lead :: more) := by
  have first := feed_ready_lead2 multi two
  match more with
  | [] =>
    refine ⟨?_, ?_, ?_⟩
    · simp [first, withUnit, unit?, multi]
    · simp [isComplete, blockLength, multi, two]
    · simp [after, first, isPending, afterLead2]
  | [last] =>
    refine ⟨?_, ?_, ?_⟩
    · simp [first, withUnit, unit?, two, unit2]
    · simp [after, first]
    · simp [isComplete, blockLength, multi, two]

theorem reads_three (multi : ¬ lead < 128) (other : ¬ (192 ≤ lead ∧ lead ≤ 223))
    (lt : more.length < 3) : Reads (lead :: more) := by
  have first := feed_ready_lead3 multi other
  match more with
  | [] =>
    refine ⟨?_, ?_, ?_⟩
    · simp [first, withUnit, unit?, multi]
    · simp [isComplete, blockLength, multi, other]
    · simp [after, first, isPending, afterLead3]
  | [middle] =>
    refine ⟨?_, ?_, ?_⟩
    · simp [first, withUnit, unit?, other]
    · simp [isComplete, blockLength, multi, other]
    · simp [after, first, isPending, afterMiddle]
  | [middle, last] =>
    refine ⟨?_, ?_, ?_⟩
    · simp [first, withUnit, unit?, unit3, List.replicate]
    · simp [after, first]
    · simp [isComplete, blockLength, multi, other]

/-- A block emits nothing before its last byte. -/
theorem reads_block (lt : more.length < blockLength lead) : Reads (lead :: more) := by
  unfold blockLength at lt
  split at lt
  next single =>
    obtain rfl := List.length_eq_zero_iff.mp (Nat.lt_one_iff.mp lt)
    exact reads_single single
  next multi =>
    split at lt
    next two => exact reads_two multi two lt
    next other => exact reads_three multi other lt

theorem reads_first (lead : UInt8) (rest : List UInt8) :
    Reads (lead :: rest.take (blockLength lead - 1)) := by
  have positive := blockLength_pos lead
  refine reads_block ?_
  rw [List.length_take]
  omega

/-! ### Rows of blocks -/

/-- A decoder emits block by block. -/
theorem emitted_blocks (bytes : List UInt8) :
    ready.emitted bytes = (blocks bytes).flatMap withUnit := by
  fun_induction blocks bytes with
  | case1 => rfl
  | case2 lead rest ih =>
    have reads := reads_first lead rest
    rw [List.flatMap_cons, ← ih, eq_append_drop lead rest, emitted_append, reads.emitted]
    cases short : isComplete (lead :: rest.take (blockLength lead - 1)) with
    | true => rw [reads.complete short]
    | false => rw [drop_eq_nil_of_isComplete short, emitted_nil, emitted_nil]

/-- A decoder waits for more bytes exactly if the last block is too short. -/
theorem isPending_after_iff (bytes : List UInt8) :
    (ready.after bytes).isPending = true ↔
      ∃ block, (blocks bytes).getLast? = some block ∧ isComplete block = false := by
  fun_induction blocks bytes with
  | case1 => exact iff_of_false nofun nofun
  | case2 lead rest ih =>
    have reads := reads_first lead rest
    rw [List.getLast?_cons, eq_append_drop lead rest, after_append]
    cases short : isComplete (lead :: rest.take (blockLength lead - 1)) with
    | false =>
      rw [drop_eq_nil_of_isComplete short, blocks]
      exact iff_of_true (reads.short short) ⟨_, rfl, short⟩
    | true =>
      rw [reads.complete short, ih]
      cases (blocks (rest.drop (blockLength lead - 1))).getLast? with
      | none => simp [short]
      | some block => simp

/-- What is emitted are the units of the blocks that have one. -/
theorem filterMap_withUnit (row : List (List UInt8)) :
    (row.flatMap withUnit).filterMap id = row.filterMap unit? := by
  induction row with
  | nil => rfl
  | cons block others ih =>
    rw [List.flatMap_cons, List.filterMap_append, ih, withUnit, List.filterMap_append,
      List.filterMap_replicate_of_none rfl, List.nil_append]
    cases unit : unit? block <;> simp [unit]

/-- On every row of bytes, well-formed or not, a new decoder emits what the blocks of the row mean:
nothing before the last byte of a block, and with it the code unit of the block, unless this is the
last one and too short. It waits for more bytes exactly in that case. It is always in one of four
shapes, so the next byte of a block has its place among the pending ones. -/
theorem decodes_blocks (bytes : List UInt8) :
    (blocks bytes).flatten = bytes ∧
    (∀ block ∈ (blocks bytes).dropLast, isComplete block = true) ∧
    ready.emitted bytes = (blocks bytes).flatMap withUnit ∧
    decodeUnits bytes = (blocks bytes).filterMap unit? ∧
    ((ready.after bytes).isPending = true ↔
      ∃ block, (blocks bytes).getLast? = some block ∧ isComplete block = false) ∧
    let d := ready.after bytes
    (d.length, d.needed) ∈ [(0, 0), (1, 1), (1, 2), (2, 1)] ∧ d.length < d.pending.size := by
  have shaped : (ready.after bytes).Shaped := shaped_ready.after bytes
  refine ⟨flatten_blocks bytes, fun _ => isComplete_of_mem_dropLast, emitted_blocks bytes, ?_,
    isPending_after_iff bytes, shaped, shaped.length_lt⟩
  rw [decodeUnits, emitted_blocks, filterMap_withUnit]

/-- Stray continuations lead a block of three bytes, and a block that is cut off means nothing. -/
example :
    decodeUnits [0x80, 0x80, 0x80, 0x61, 0xF0, 0x9F] = [0, 0x61] ∧
      (ready.after [0x80, 0x80, 0x80, 0x61, 0xF0, 0x9F]).isPending = true := by decide

end Decoder

end LinearHost
