import LinearHost.Proofs.Arithmetic.Rounding
import LinearHost.Proofs.Layout.Placement

/-!
# The stride of a layout

Fields lie in ascending order from 0 on, so the distance between two that follow each other never
falls below 0, and a common distance tells where each field lies. A layout has it as its factor;
where fields have no common distance, the size stands in for it, and the layout is to be flattened.

## Main definitions

* `Strided`: offsets that are the multiples of a stride in order.
* `uniformStride?_eq_some_iff`: the stride of ascending offsets from 0 on.
* `Layout.ofFields_stride`: what factor and flattening say about the offsets.
-/

namespace LinearHost

variable {packed : Bool} {q : Quantum} {fields : List Descriptor} {offsets rest : List Nat}
  {start size stride a : Nat}

def Strided (stride : Nat) (offsets : List Nat) : Prop :=
  ∀ i < offsets.length, offsets[i]? = some (i * stride)

instance (stride : Nat) (offsets : List Nat) : Decidable (Strided stride offsets) :=
  inferInstanceAs (Decidable (∀ i < offsets.length, offsets[i]? = some (i * stride)))

theorem strided_iff : Strided stride offsets ↔ offsets = List.range' 0 offsets.length stride := by
  constructor
  · intro strided
    refine List.ext_getElem? fun i => ?_
    by_cases lt : i < offsets.length
    · rw [strided i lt, List.getElem?_range' lt, Nat.zero_add, Nat.mul_comm]
    · simp [lt]
  · intro same i lt
    rw [same, List.getElem?_range' lt, Nat.zero_add, Nat.mul_comm]

theorem strided_one_iff : Strided 1 offsets ↔ offsets = List.range offsets.length := by
  rw [strided_iff, List.range_eq_range']

/-! ### Ascending offsets -/

theorem Placement.start_le_of_mem (placement : Placement packed q start fields offsets size)
    (member : a ∈ offsets) : start ≤ a := by
  induction placement with
  | nil inside => cases member
  | cons after aligned rest ih =>
    rcases List.mem_cons.mp member with rfl | member
    · exact after
    · have below := ih member
      omega

/-- No field lies below one that was declared before it. -/
theorem Placement.ascending (placement : Placement packed q start fields offsets size) :
    offsets.Pairwise (· ≤ ·) := by
  induction placement with
  | nil inside => exact .nil
  | cons after aligned rest ih =>
    refine .cons (fun a member => ?_) ih
    have below := rest.start_le_of_mem member
    omega

/-- The first field lies at 0. -/
theorem head_placeFrom {d : Descriptor} :
    (placeFrom packed q 0 (d :: fields)).1 = 0 :: (placeFrom packed q (d.size q) fields).1 := by
  have zero : alignUp 0 (effectiveAlign packed q d) = 0 :=
    alignUp_eq_self_iff.mpr (Nat.dvd_zero _)
  simp [placeFrom_cons, zero]

/-- Among ascending offsets a difference is a distance. -/
theorem hasStride_iff (ascending : (a :: rest).Pairwise (· ≤ ·)) :
    hasStride stride (a :: rest) = true ↔
      a :: rest = List.range' a (rest.length + 1) stride := by
  induction rest generalizing a with
  | nil => simp [hasStride]
  | cons b rest ih =>
    obtain ⟨below, others⟩ := List.pairwise_cons.mp ascending
    have le := below b List.mem_cons_self
    have distance : b - a = stride ↔ b = a + stride := by omega
    rw [hasStride, Bool.and_eq_true, decide_eq_true_iff, distance, ih others, List.length_cons,
      List.range'_succ (n := rest.length + 1), List.cons.injEq]
    constructor
    · rintro ⟨here, same⟩
      exact ⟨rfl, here ▸ same⟩
    · rintro ⟨-, same⟩
      have here : b = a + stride := (List.cons.inj (same.trans List.range'_succ)).1
      exact ⟨here, here ▸ same⟩

/-- A stride is found exactly if field `i` lies at `i` times the stride. -/
theorem uniformStride?_eq_some_iff (ascending : (0 :: rest).Pairwise (· ≤ ·)) (more : rest ≠ []) :
    uniformStride? (0 :: rest) = some stride ↔ Strided stride (0 :: rest) := by
  obtain ⟨b, others, rfl⟩ := List.exists_cons_of_ne_nil more
  have uniform (s : Nat) : hasStride s (0 :: b :: others) = true ↔ Strided s (0 :: b :: others) :=
    (hasStride_iff ascending).trans strided_iff.symm
  rw [uniformStride?, ← uniform]
  constructor
  · intro found
    split at found
    next same => exact Option.some.inj found ▸ same
    next => cases found
  · intro same
    have distance : b - 0 = stride := by
      simp only [hasStride, Bool.and_eq_true, decide_eq_true_iff] at same
      exact same.1
    rw [distance, if_pos same]

namespace Layout

/-! ### Factor and flattening -/

theorem length_offsets (fields : List Descriptor) (packed : Bool) (q : Quantum) :
    (ofFields fields packed q).offsets.length = fields.length := by
  rw [offsets_ofFields, length_placeFrom]

theorem ascending_offsets (fields : List Descriptor) (packed : Bool) (q : Quantum) :
    (ofFields fields packed q).offsets.Pairwise (· ≤ ·) := by
  rw [offsets_ofFields]
  exact (placeFrom_placement packed q 0 fields (Nat.le_refl _)).ascending

/-- The stride of a layout with a second field. -/
theorem uniformStride?_offsets (packed : Bool) (q : Quantum) (many : 2 ≤ fields.length) :
    uniformStride? (ofFields fields packed q).offsets = some stride ↔
      Strided stride (ofFields fields packed q).offsets := by
  have ascending := ascending_offsets fields packed q
  match fields, many with
  | d :: e :: others, _ =>
    rw [offsets_ofFields, head_placeFrom] at ascending ⊢
    exact uniformStride?_eq_some_iff ascending nofun

/-- Without a second field the size is the factor. -/
theorem factor_of_few (packed : Bool) (q : Quantum) (few : fields.length ≤ 1) :
    let layout := ofFields fields packed q
    layout.factor = layout.size ∧ (layout.needsFlattening = true ↔ layout.size ≠ 1) := by
  have length := length_placeFrom packed q 0 fields
  simp [ofFields, length, few]

/-- With a second field a stride is the factor. -/
theorem factor_of_strided (many : 2 ≤ fields.length)
    (strided : Strided stride (ofFields fields packed q).offsets) :
    let layout := ofFields fields packed q
    layout.factor = stride ∧ (layout.needsFlattening = true ↔ stride ≠ 1) := by
  have found := (uniformStride?_offsets packed q many).mpr strided
  have length := length_placeFrom packed q 0 fields
  have more : ¬ fields.length ≤ 1 := by omega
  rw [offsets_ofFields] at found
  simp [ofFields, length, more, found]

/-- With a second field and no stride the size is the factor, and the layout is to be flattened. -/
theorem factor_of_unstrided (many : 2 ≤ fields.length)
    (unstrided : ¬ ∃ stride, Strided stride (ofFields fields packed q).offsets) :
    let layout := ofFields fields packed q
    layout.factor = layout.size ∧ layout.needsFlattening = true := by
  have length := length_placeFrom packed q 0 fields
  have more : ¬ fields.length ≤ 1 := by omega
  cases found : uniformStride? (ofFields fields packed q).offsets with
  | some stride =>
    exact absurd ⟨stride, (uniformStride?_offsets packed q many).mp found⟩ unstrided
  | none =>
    rw [offsets_ofFields] at found
    simp [ofFields, length, more, found]

/-- A single field lies at 0. -/
theorem strided_of_few (packed : Bool) (q : Quantum) (few : fields.length ≤ 1) :
    Strided stride (ofFields fields packed q).offsets := by
  match fields, few with
  | [], _ => exact nofun
  | [d], _ =>
    rw [offsets_ofFields, head_placeFrom]
    intro i lt
    obtain rfl : i = 0 := Nat.lt_one_iff.mp lt
    simp

/-- Fields that lie at 0, 1, 2 and so on are all that is needed if there are two of them. -/
theorem needsFlattening_eq_false_iff (packed : Bool) (q : Quantum) (many : 2 ≤ fields.length) :
    (ofFields fields packed q).needsFlattening = false ↔
      Strided 1 (ofFields fields packed q).offsets := by
  by_cases found : ∃ stride, Strided stride (ofFields fields packed q).offsets
  · obtain ⟨stride, strided⟩ := found
    obtain ⟨factor, flattened⟩ := factor_of_strided many strided
    constructor
    · intro unflattened
      obtain rfl : stride = 1 := by simpa [unflattened] using flattened
      exact strided
    · intro one
      obtain ⟨-, flattened⟩ := factor_of_strided many one
      simpa using flattened
  · obtain ⟨-, flattened⟩ := factor_of_unstrided many found
    exact iff_of_false (by simp [flattened]) fun one => found ⟨1, one⟩

end Layout

end LinearHost
