import InfiniRT.Tensor.Contiguity
import InfiniRT.Tensor.StoredView

/-!
# Views without strides

The recurrence of `FillDefaultStrides` in words of 64 bits: each stride is the product of the later
sizes modulo `2 ^ 64`, however the shape was passed.  `IsContiguous` recomputes the same products,
but refuses a dimension of size 1 with stride 0, and an empty dimension makes every stride before it
0.  Proved:

* **`defaultStrides_agree`** — default strides agree on every path;
* **`ofShape_isContiguous_iff`** — when a view without strides is contiguous.
-/

namespace InfiniRT.Tensor

open InfiniRT.Library
open InfiniRT.Metadata
open InfiniRT.Metadata.SmallVector (Holds)
open InfiniRT.Metadata.ShapeStridesStorage (getElem?_defaultStrides length_defaultStrides)

variable {ls : List Size} {i : ℕ}

/-- The product of all sizes after position `i`. -/
def sizesAfter (ls : List Size) (i : ℕ) : ℕ := ((ls.drop (i + 1)).map BitVec.toNat).prod

/-- A signed stride times an unsigned size is a product of words. -/
theorem foldr_mul (ls : List Size) :
    ls.foldr (fun (size : Size) (stride : Stride) => stride * size) 1 =
      BitVec.ofNat 64 (ls.map BitVec.toNat).prod := by
  induction ls with
  | nil => rfl
  | cons size sizes ih =>
    rw [List.foldr_cons, ih, List.map_cons, List.prod_cons, Nat.mul_comm, BitVec.ofNat_mul,
      BitVec.ofNat_toNat, BitVec.setWidth_eq]

theorem getElem?_wordStrides (hi : i < ls.length) :
    (defaultStrides (1 : Stride) (· * ·) ls)[i]? = some (BitVec.ofNat 64 (sizesAfter ls i)) := by
  rw [getElem?_defaultStrides hi, foldr_mul, sizesAfter]

/-- **Default strides agree on every path**, and only an allocator that refuses memory stops one. -/
theorem defaultStrides_agree (n : InlineCapacity) (m : ViewMemory)
    (arg : ShapeArgument Size (wordConfig n)) (ls : List Size) (hlen : ls.length < 2 ^ 32)
    (harg : arg.Lists m ls) :
    (∃ s lt, (arg.constructor (1 : Stride) (· * ·)).run (arg.start m) = (.ok (), s) ∧
      s.this.readShape s.memory = .ok ls ∧ s.this.readStrides s.memory = .ok lt ∧
      lt.length = ls.length ∧
      ∀ i < ls.length, ∃ stride, lt[i]? = some stride ∧
        stride.toInt = (sizesAfter ls i : ℤ).bmod (2 ^ 64) ∧
        (sizesAfter ls i < 2 ^ 63 → stride.toInt = sizesAfter ls i)) ∨
    ¬m.Granting ∧
      ∃ s, (arg.constructor (1 : Stride) (· * ·)).run (arg.start m) = (.error .badAlloc, s) := by
  have hmax : ls.length ≤ (wordConfig n).shapeMaxSize := by
    show ls.length ≤ 2 ^ 60 - 1
    omega
  rcases ShapeArgument.constructor_builds (1 : Stride) (· * ·) harg fun _ _ _ => hmax with
    ⟨s, hrun, hbuilt⟩ | ⟨s, hrun, -⟩ | ⟨s, -, hfits⟩
  · refine .inl ⟨s, _, hrun, hbuilt.keeps.readShape, hbuilt.keeps.readStrides,
      length_defaultStrides _ _ ls, fun i hi => ⟨_, getElem?_wordStrides hi, ?_, fun hsmall => ?_⟩⟩
    · exact BitVec.toInt_ofNat' ..
    · exact TensorView.toInt_ofNat hsmall
  · exact .inr ⟨fun hgranting => (arg.constructor_granted (1 : Stride) (· * ·) hgranting harg hmax
      hmax).ne_error hrun, s, hrun⟩
  · rw [length_defaultStrides] at hfits
    exact absurd (fits_of_lt n hlen hlen) hfits

/-- Two sizes in a heap array of four, which is more than two inline elements. -/
def pairMemory : ViewMemory where
  shapes := ⟨fun p => if p = 0 then some (4, [some 2, some 3, none, none]) else none, some⟩
  strides := ⟨fun _ => none, some⟩
  combined := ⟨fun _ => none, some⟩

def twoInline : InlineCapacity := ⟨2, by decide⟩

def movedPair : ShapeArgument Size (wordConfig twoInline) :=
  .movedShape { storage := .heapData 0, size := 2, capacity := 4 }

theorem defaultStrides_agree_of_movedPair :
    ∃ s lt, (movedPair.constructor (1 : Stride) (· * ·)).run (movedPair.start pairMemory) =
        (.ok (), s) ∧
      s.this.readShape s.memory = .ok [2, 3] ∧ s.this.readStrides s.memory = .ok lt ∧
      ∃ stride, lt[0]? = some stride ∧ stride.toInt = 3 := by
  have hholds : movedPair.Lists pairMemory [2, 3] :=
    ⟨rfl, [none, none], .allocated (by decide) (by decide) rfl rfl⟩
  rcases defaultStrides_agree twoInline pairMemory movedPair [2, 3] (by decide) hholds with
    ⟨s, lt, hrun, hshape, hstrides, -, hvalues⟩ | ⟨-, s, hrun⟩
  · obtain ⟨stride, hstride, -, hexact⟩ := hvalues 0 (by decide)
    exact ⟨s, lt, hrun, hshape, hstrides, stride, hstride, hexact (by decide)⟩
  · have hok : ((movedPair.constructor (1 : Stride) (· * ·)).run (movedPair.start pairMemory)).1 =
        .ok () := rfl
    rw [hrun] at hok
    cases hok

/-! ## `IsContiguous` of a view without strides -/

theorem weight_eq_sizesAfter (t : TensorView) (i : ℕ) : t.weight i = sizesAfter t.shape i := by
  rw [TensorView.weight, TensorView.sizes, sizesAfter, List.map_drop]

/-- The view of lists that a view without strides is. -/
def defaultView (data : Pointer) (ls : List Size) (dtype : DataType) (device : Device)
    (hlen : ls.length < 2 ^ 32) : TensorView where
  data
  shape := ls
  strides := defaultStrides 1 (· * ·) ls
  dtype
  device
  shape_lt := hlen
  strides_lt := by rwa [length_defaultStrides]

theorem isContiguous_defaultView (data : Pointer) (dtype : DataType) (device : Device)
    (hlen : ls.length < 2 ^ 32) (hproducts : ∀ i < ls.length, sizesAfter ls i < 2 ^ 63) :
    ∃ answer, (defaultView data ls dtype device hlen).isContiguous = .ok answer ∧
      (answer = true ↔ ¬(defaultView data ls dtype device hlen).OneBeforeEmpty) := by
  refine TensorView.isContiguous_of_hasWeights (fun i hi => ?_) (length_defaultStrides _ _ ls)
    fun i => ?_
  · exact (getElem?_wordStrides hi).trans (by rw [weight_eq_sizesAfter])
  · rcases Nat.lt_or_ge i ls.length with hi | hi
    · rw [weight_eq_sizesAfter]
      exact hproducts i hi
    · rw [TensorView.weight_of_le (Nat.le_succ_of_le hi)]
      decide

/-- **A view without strides is contiguous** exactly if no dimension of size 1 comes before an empty
one.  Unless an allocator refuses memory, there is a view. -/
theorem ofShape_isContiguous_iff (m : ViewMemory) (data : Pointer)
    (arg : ShapeArgument Size (wordConfig inlineMetadataCapacity)) (ls : List Size)
    (dtype : DataType) (device : Device) (hlen : ls.length < 2 ^ 32) (harg : arg.Lists m ls)
    (hproducts : ∀ i < ls.length, sizesAfter ls i < 2 ^ 63) :
    (∃ v rest m' t answer, (StoredView.ofShape data arg dtype device).run m = (.ok (v, rest), m') ∧
      v.toView m' = .ok t ∧ t.shape = ls ∧ t.isContiguous = .ok answer ∧
      (answer = true ↔ ¬∃ i j : ℕ, i < j ∧ ls[i]? = some 1 ∧ ls[j]? = some 0)) ∨
    ¬m.Granting ∧
      ∃ m', (StoredView.ofShape data arg dtype device).run m = (.error .badAlloc, m') := by
  have hmax : ls.length ≤ (wordConfig inlineMetadataCapacity).shapeMaxSize := by
    show ls.length ≤ 2 ^ 60 - 1
    omega
  obtain ⟨answer, hanswer, hiff⟩ := isContiguous_defaultView data dtype device hlen hproducts
  rcases ShapeArgument.constructor_builds (1 : Stride) (· * ·) harg fun _ _ _ => hmax with
    ⟨s, hrun, hbuilt⟩ | ⟨s, hrun, -⟩ | ⟨s, -, hfits⟩
  · have hshows : StoredView.Shows s.memory ⟨data, s.this, dtype, device⟩
        (defaultView data ls dtype device hlen) := ⟨hbuilt.keeps, rfl, rfl, rfl⟩
    exact .inl ⟨_, s.shape, s.memory, _, answer,
      StoredView.construct_ok data dtype device arg.start hrun, hshows.toView, rfl, hanswer, hiff⟩
  · exact .inr ⟨fun hgranting => (arg.constructor_granted (1 : Stride) (· * ·) hgranting harg hmax
      hmax).ne_error hrun, s.memory, StoredView.construct_error data dtype device arg.start hrun⟩
  · rw [length_defaultStrides] at hfits
    exact absurd (fits_of_lt inlineMetadataCapacity hlen hlen) hfits

/-- A forward range of words. -/
def words (ls : List Size) : ShapeArgument Size (wordConfig inlineMetadataCapacity) :=
  .range ⟨.forward, ls.map fun size => .fixed (some size)⟩

/-- One row of no columns. -/
theorem ofShape_isContiguous_iff_of_row :
    ∃ v rest m' t, (StoredView.ofShape 0 (words [1, 0]) .float32 {}).run pairMemory =
        (.ok (v, rest), m') ∧
      v.toView m' = .ok t ∧ t.shape = [1, 0] ∧ t.isContiguous = .ok false := by
  have hrefers : (words [1, 0]).Lists pairMemory [1, 0] :=
    .cons (.pure _ _) (.cons (.pure _ _) .nil)
  rcases ofShape_isContiguous_iff pairMemory 0 (words [1, 0]) [1, 0] .float32 {} (by decide) hrefers
      (by decide) with
    ⟨v, rest, m', t, answer, hrun, hview, hshape, hanswer, hiff⟩ | ⟨-, m', hrun⟩
  · have hrefused : answer ≠ true := fun htrue => hiff.mp htrue ⟨0, 1, by decide, rfl, rfl⟩
    exact ⟨v, rest, m', t, hrun, hview, hshape, Bool.eq_false_of_not_eq_true hrefused ▸ hanswer⟩
  · have hok : ∃ r, ((StoredView.ofShape 0 (words [1, 0]) .float32 {}).run pairMemory).1 = .ok r :=
      ⟨_, rfl⟩
    rw [hrun] at hok
    cases hok.choose_spec

/-- A view of one row without columns is not contiguous. -/
theorem ofShape_refuses_empty_row :
    ¬∀ v rest m' t, (StoredView.ofShape 0 (words [1, 0]) .float32 {}).run pairMemory =
        (.ok (v, rest), m') → v.toView m' = .ok t → t.isContiguous = .ok true := by
  intro hall
  have hcontiguous := hall _ _ _ ⟨0, [1, 0], [0, 1], .float32, {}, by decide, by decide⟩ rfl rfl
  exact absurd hcontiguous (by decide)

end InfiniRT.Tensor
