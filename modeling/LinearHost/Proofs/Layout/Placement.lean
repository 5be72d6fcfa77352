import LinearHost.Layout.Placement
import LinearHost.Proofs.Arithmetic.Alignment
import Mathlib.Data.List.Forall2

/-!
# The least placement of fields

The fields of a struct are placed as low as their order, their sizes and their effective alignments
allow: no other placement has an offset that is lower, or a size that is. All alignments are powers
of two, so the largest one is a multiple of every other.

## Main definitions

* `Descriptor.Laid`: embedded structs have the layouts of their fields.
* `Placement`: offsets at which fields lie in order, aligned and apart.
* `Layout.ofFields_least`: a layout is the least placement.
-/

namespace LinearHost

variable {packed : Bool} {q : Quantum} {d : Descriptor} {fields : List Descriptor}
  {offsets : List Nat} {start running size : Nat}

/-! ### Alignments -/

/-- Structs that are embedded to any depth have layouts that were computed for their fields, each
for a quantum of its own. -/
inductive Descriptor.Laid : Descriptor → Prop where
  | int (width : IntWidth) : Laid (.int width)
  | float : Laid .float
  | double : Laid .double
  | pointer : Laid .pointer
  | bytes (length : Nat) : Laid (.bytes length)
  | struct {type : StructType} (q : Quantum)
      (layout : type.layout = .ofFields type.fields type.packed q)
      (fields : ∀ d ∈ type.fields, Laid d) : Laid (.struct type)

/-- A struct type that is made of such fields is laid out itself. -/
theorem Descriptor.laid_ofFields (id : Nat) (name : Option String) (packed : Bool) (q : Quantum)
    (laid : ∀ d ∈ fields, d.Laid) :
    (Descriptor.struct (StructType.ofFields id name fields packed q)).Laid :=
  .struct q rfl laid

theorem isPowerOfTwo_bytes (q : Quantum) : q.bytes.isPowerOfTwo :=
  ⟨q.log2, Nat.one_shiftLeft _⟩

/-- Of two powers of two the smaller one divides the other. -/
theorem dvd_of_isPowerOfTwo {a b : Nat} (left : a.isPowerOfTwo) (right : b.isPowerOfTwo)
    (le : a ≤ b) : a ∣ b := by
  obtain ⟨j, rfl⟩ := left
  obtain ⟨k, rfl⟩ := right
  exact Nat.pow_dvd_pow 2 ((Nat.pow_le_pow_iff_right Nat.one_lt_two).mp le)

theorem effectiveAlign_pos (packed : Bool) (q : Quantum) (d : Descriptor) :
    0 < effectiveAlign packed q d := by
  rw [effectiveAlign]
  split <;> omega

/-- Cutting a power of two to the quantum gives a power of two. -/
theorem isPowerOfTwo_effectiveAlign (packed : Bool) (natural : (d.naturalAlign q).isPowerOfTwo) :
    (effectiveAlign packed q d).isPowerOfTwo := by
  rw [effectiveAlign]
  split
  · exact Nat.isPowerOfTwo_one
  · rcases Nat.le_total (d.naturalAlign q) q.bytes with le | le
    · rw [Nat.min_eq_left le, Nat.max_eq_left (Nat.pos_of_isPowerOfTwo natural)]
      exact natural
    · rw [Nat.min_eq_right le, Nat.max_eq_left (Nat.pos_of_isPowerOfTwo (isPowerOfTwo_bytes q))]
      exact isPowerOfTwo_bytes q

theorem foldl_max (f : Descriptor → Nat) (a b : Nat) (fields : List Descriptor) :
    fields.foldl (fun align d => max align (f d)) (max a b) =
      max a (fields.foldl (fun align d => max align (f d)) b) := by
  induction fields generalizing b with
  | nil => rfl
  | cons d fields ih => rw [List.foldl_cons, List.foldl_cons, Nat.max_assoc, ih]

@[simp] theorem structAlign_nil : structAlign packed q [] = 1 := rfl

@[simp] theorem structAlign_cons :
    structAlign packed q (d :: fields) =
      max (effectiveAlign packed q d) (structAlign packed q fields) := by
  rw [structAlign, List.foldl_cons, Nat.max_comm, foldl_max, structAlign]

/-- The alignment of a struct is not below those of its fields. -/
theorem effectiveAlign_le_structAlign (mem : d ∈ fields) :
    effectiveAlign packed q d ≤ structAlign packed q fields := by
  induction fields with
  | nil => cases mem
  | cons other fields ih =>
    rw [structAlign_cons]
    obtain rfl | mem := List.mem_cons.mp mem
    · exact Nat.le_max_left ..
    · exact Nat.le_trans (ih mem) (Nat.le_max_right ..)

/-- The alignment of a struct is the effective alignment of one of its fields. -/
theorem exists_structAlign_eq (packed : Bool) (q : Quantum) (nonempty : fields ≠ []) :
    ∃ d ∈ fields, effectiveAlign packed q d = structAlign packed q fields := by
  induction fields with
  | nil => exact absurd rfl nonempty
  | cons d fields ih =>
    rw [structAlign_cons]
    have positive := effectiveAlign_pos packed q d
    rcases fields with _ | ⟨next, rest⟩
    · refine ⟨d, List.mem_cons_self .., ?_⟩
      rw [structAlign_nil]
      omega
    · obtain ⟨found, mem, same⟩ := ih nofun
      rcases Nat.le_total (structAlign packed q (next :: rest)) (effectiveAlign packed q d)
        with le | le
      · exact ⟨d, List.mem_cons_self .., (Nat.max_eq_left le).symm⟩
      · exact ⟨found, List.mem_cons_of_mem _ mem, same.trans (Nat.max_eq_right le).symm⟩

theorem structAlign_pos (packed : Bool) (q : Quantum) (fields : List Descriptor) :
    0 < structAlign packed q fields := by
  induction fields with
  | nil => exact Nat.one_pos
  | cons d fields ih =>
    rw [structAlign_cons]
    omega

/-- The alignment of a struct is a power of two. -/
theorem isPowerOfTwo_structAlign
    (natural : ∀ d ∈ fields, (d.naturalAlign q).isPowerOfTwo) :
    (structAlign packed q fields).isPowerOfTwo := by
  by_cases empty : fields = []
  · rw [empty, structAlign_nil]
    exact Nat.isPowerOfTwo_one
  · obtain ⟨d, mem, same⟩ := exists_structAlign_eq packed q empty
    rw [← same]
    exact isPowerOfTwo_effectiveAlign packed (natural d mem)

/-! ### The parts of a layout -/

theorem Layout.ofFields_eq (fields : List Descriptor) (packed : Bool) (q : Quantum) :
    ∃ factor needsFlattening, Layout.ofFields fields packed q =
      { size := alignUp (placeFrom packed q 0 fields).2 (structAlign packed q fields)
        align := structAlign packed q fields
        offsets := (placeFrom packed q 0 fields).1
        factor, needsFlattening } := by
  rw [Layout.ofFields]
  split
  next offsets stop placed =>
    dsimp only
    rw [placed]
    split
    · exact ⟨_, _, rfl⟩
    · split <;> exact ⟨_, _, rfl⟩

@[simp] theorem Layout.align_ofFields :
    (Layout.ofFields fields packed q).align = structAlign packed q fields := by
  obtain ⟨_, _, parts⟩ := Layout.ofFields_eq fields packed q
  rw [parts]

@[simp] theorem Layout.offsets_ofFields :
    (Layout.ofFields fields packed q).offsets = (placeFrom packed q 0 fields).1 := by
  obtain ⟨_, _, parts⟩ := Layout.ofFields_eq fields packed q
  rw [parts]

@[simp] theorem Layout.size_ofFields :
    (Layout.ofFields fields packed q).size =
      alignUp (placeFrom packed q 0 fields).2 (structAlign packed q fields) := by
  obtain ⟨_, _, parts⟩ := Layout.ofFields_eq fields packed q
  rw [parts]

theorem isPowerOfTwo_unlessByte {n : Nat} (q : Quantum) (power : n.isPowerOfTwo) :
    (if q = Quantum.byte then 1 else n).isPowerOfTwo := by
  split
  · exact Nat.isPowerOfTwo_one
  · exact power

/-- However deep structs are embedded, natural alignments are powers of two. -/
theorem Descriptor.Laid.isPowerOfTwo_naturalAlign (laid : d.Laid) (q : Quantum) :
    (d.naturalAlign q).isPowerOfTwo := by
  induction laid generalizing q with
  | int width =>
    refine isPowerOfTwo_unlessByte q ?_
    cases width with
    | i1 | i8 => exact ⟨0, rfl⟩
    | i16 => exact ⟨1, rfl⟩
    | i32 => exact ⟨2, rfl⟩
    | i64 => exact ⟨3, rfl⟩
  | float => exact isPowerOfTwo_unlessByte q ⟨2, rfl⟩
  | double => exact isPowerOfTwo_unlessByte q ⟨3, rfl⟩
  | pointer => exact isPowerOfTwo_unlessByte q (isPowerOfTwo_bytes q)
  | bytes length => exact Nat.isPowerOfTwo_one
  | @struct type own layout fields ih =>
    show type.layout.align.isPowerOfTwo
    rw [layout, Layout.align_ofFields]
    exact isPowerOfTwo_structAlign fun d mem => ih d mem own

/-! ### Placements -/

/-- Offsets at which fields lie in order from `start` on: each is a multiple of the effective
alignment of its field and not below the end of the field before it, and the last field ends at or
before `size`. -/
inductive Placement (packed : Bool) (q : Quantum) :
    (start : Nat) → List Descriptor → (offsets : List Nat) → (size : Nat) → Prop where
  | nil {start size : Nat} (inside : start ≤ size) : Placement packed q start [] [] size
  | cons {start offset size : Nat} {d : Descriptor} {fields : List Descriptor}
      {offsets : List Nat} (after : start ≤ offset) (aligned : effectiveAlign packed q d ∣ offset)
      (rest : Placement packed q (offset + d.size q) fields offsets size) :
      Placement packed q start (d :: fields) (offset :: offsets) size

theorem Placement.start_le (placement : Placement packed q start fields offsets size) :
    start ≤ size := by
  induction placement with
  | nil inside => exact inside
  | cons after aligned rest ih => omega

theorem placeFrom_cons :
    placeFrom packed q running (d :: fields) =
      let offset := alignUp running (effectiveAlign packed q d)
      let rest := placeFrom packed q (offset + d.size q) fields
      (offset :: rest.1, rest.2) := rfl

theorem length_placeFrom (packed : Bool) (q : Quantum) (running : Nat) (fields : List Descriptor) :
    (placeFrom packed q running fields).1.length = fields.length := by
  induction fields generalizing running with
  | nil => rfl
  | cons d fields ih => simp [placeFrom_cons, ih]

/-- Fields placed one after the other lie in order. -/
theorem placeFrom_placement (packed : Bool) (q : Quantum) (running : Nat)
    (fields : List Descriptor) (inside : (placeFrom packed q running fields).2 ≤ size) :
    Placement packed q running fields (placeFrom packed q running fields).1 size := by
  induction fields generalizing running with
  | nil => exact .nil inside
  | cons d fields ih =>
    have aligned := dvd_alignUp running (effectiveAlign_pos packed q d)
    exact .cons (le_alignUp ..) aligned (ih _ inside)

/-- A placement that starts no lower has no offset that is lower, and does not end lower. -/
theorem Placement.placeFrom_le (placement : Placement packed q start fields offsets size)
    (lower : running ≤ start) :
    List.Forall₂ (· ≤ ·) (placeFrom packed q running fields).1 offsets ∧
      (placeFrom packed q running fields).2 ≤ size := by
  induction placement generalizing running with
  | nil inside => exact ⟨.nil, Nat.le_trans lower inside⟩
  | @cons start offset size d fields offsets after aligned rest ih =>
    have le := alignUp_le_of_dvd (effectiveAlign_pos packed q d) aligned
      (Nat.le_trans lower after)
    obtain ⟨others, inside⟩ := ih (Nat.add_le_add_right le _)
    exact ⟨.cons le others, inside⟩

/-- Fields that are added go after those that were placed. -/
theorem placeFrom_append (packed : Bool) (q : Quantum) (running : Nat)
    (fields more : List Descriptor) :
    placeFrom packed q running (fields ++ more) =
      let first := placeFrom packed q running fields
      let rest := placeFrom packed q first.2 more
      (first.1 ++ rest.1, rest.2) := by
  induction fields generalizing running with
  | nil => rfl
  | cons d fields ih => simp [placeFrom_cons, ih]

end LinearHost
