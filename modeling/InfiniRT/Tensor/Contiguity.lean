import InfiniRT.Library.RowMajor
import InfiniRT.Tensor.TensorView
import Mathlib.Algebra.BigOperators.Ring.Finset
import Mathlib.Algebra.BigOperators.Ring.List
import Mathlib.Algebra.Order.BigOperators.GroupWithZero.List
import Mathlib.Data.Int.ConditionallyCompleteOrder
import Mathlib.Order.ConditionallyCompleteLattice.Basic

/-!
# `IsContiguous`

`IsContiguous` compares each stride with the next one and the next size, in 64-bit words, and the
last stride with 1.  Going backwards from the last dimension, the comparisons determine every
stride: it is the product of the later sizes, as a word.  Proved:

* **`isContiguous_exact`** — which strides `IsContiguous` accepts;
* **`isContiguous_iff_rowMajor`** — where no dimension is empty these are the row-major strides, and
  they number the elements.
-/

namespace InfiniRT.Tensor.TensorView

open InfiniRT.Library (Fault)
open InfiniRT.Library.RowMajor

variable {v : TensorView} {i : ℕ}

/-! ## Reads -/

/-- A number below the largest index is the same number as a word and as an index. -/
theorem toInt_ofNat (hi : i < 2 ^ 63) : (BitVec.ofNat 64 i).toInt = i := by
  rw [BitVec.toInt_ofNat', Int.bmod_eq_of_le] <;> omega

theorem getEffectiveIndex_ofNat (hi : i < 2 ^ 63) (size : Size) :
    getEffectiveIndex (BitVec.ofNat 64 i) size = BitVec.ofNat 64 i := by
  have hnonneg : ¬ (BitVec.ofNat 64 i).slt 0 := by
    rw [BitVec.slt_iff_toInt_lt, toInt_ofNat hi]
    exact not_lt_of_ge (Int.natCast_nonneg i)
  rw [getEffectiveIndex, if_neg hnonneg]

theorem toNat_ofNat (hi : i < 2 ^ 63) : (BitVec.ofNat 64 i).toNat = i := by
  rw [BitVec.toNat_ofNat]
  omega

theorem size_ofNat (hi : i < v.shape.length) : v.size (BitVec.ofNat 64 i) = .ok v.shape[i] := by
  have hlt := v.shape_lt
  rw [size, getEffectiveIndex_ofNat (by omega), toNat_ofNat (by omega),
    element_of_getElem? (List.getElem?_eq_getElem hi)]

theorem stride_ofNat (hi : i < v.strides.length) :
    v.stride (BitVec.ofNat 64 i) = .ok v.strides[i] := by
  have hlt := v.strides_lt
  rw [stride, getEffectiveIndex_ofNat (by omega), toNat_ofNat (by omega),
    element_of_getElem? (List.getElem?_eq_getElem hi)]

/-! ## The comparisons -/

/-- Dimension `i` has size 1 and stride 0. -/
def Degenerate (v : TensorView) (i : ℕ) : Prop := v.shape[i]? = some 1 ∧ v.strides[i]? = some 0

/-- The stride of dimension `i` steps over dimension `i + 1`. -/
def StepsOver (v : TensorView) (i : ℕ) : Prop :=
  ∃ size stride, v.shape[i + 1]? = some size ∧ v.strides[i + 1]? = some stride ∧
    v.strides[i]? = some (size * stride)

theorem degenerate_iff (hshape : i < v.shape.length) (hstrides : i < v.strides.length) :
    v.Degenerate i ↔ v.shape[i] = 1 ∧ v.strides[i] = 0 := by
  rw [Degenerate, List.getElem?_eq_getElem hshape, List.getElem?_eq_getElem hstrides,
    Option.some_inj, Option.some_inj]

theorem stepsOver_iff (hshape : i + 1 < v.shape.length) (hstrides : i + 1 < v.strides.length) :
    v.StepsOver i ↔ v.strides[i] = v.shape[i + 1] * v.strides[i + 1] := by
  simp only [StepsOver, List.getElem?_eq_getElem hshape, List.getElem?_eq_getElem hstrides,
    List.getElem?_eq_getElem (Nat.lt_of_succ_lt hstrides), Option.some_inj, exists_eq_left',
    ↓existsAndEq, true_and]

/-- One turn of the loop. -/
theorem isMergeableFrom_succ (dims : ℕ) (hshape : i + 1 < v.shape.length)
    (hstrides : i + 1 < v.strides.length) :
    (v.Degenerate i ∨ ¬ v.StepsOver i) ∧ v.isMergeableFrom (dims + 1) (BitVec.ofNat 64 i) =
      .ok false ∨
      ¬ v.Degenerate i ∧ v.StepsOver i ∧
        v.isMergeableFrom (dims + 1) (BitVec.ofNat 64 i) =
          v.isMergeableFrom dims (BitVec.ofNat 64 (i + 1)) := by
  have hnext : BitVec.ofNat 64 i + 1 = BitVec.ofNat 64 (i + 1) := (BitVec.ofNat_add i 1).symm
  rw [degenerate_iff (by omega) (by omega), stepsOver_iff hshape hstrides, isMergeableFrom, hnext]
  simp only [size_ofNat hshape, stride_ofNat hstrides, size_ofNat (Nat.lt_of_succ_lt hshape),
    stride_ofNat (Nat.lt_of_succ_lt hstrides), ok_bind]
  by_cases hdegenerate : v.shape[i] = 1 ∧ v.strides[i] = 0
  · exact .inl ⟨.inl hdegenerate, if_pos hdegenerate⟩
  · rw [if_neg hdegenerate]
    by_cases hsteps : v.strides[i] = v.shape[i + 1] * v.strides[i + 1]
    · exact .inr ⟨hdegenerate, hsteps, if_neg (not_not.mpr hsteps)⟩
    · exact .inl ⟨.inr hsteps, if_pos hsteps⟩

/-- The whole loop. -/
theorem isMergeableFrom_run (dims : ℕ) (hlen : v.strides.length = v.shape.length)
    (hdims : i + dims < v.shape.length) :
    ∃ found, v.isMergeableFrom dims (BitVec.ofNat 64 i) = .ok found ∧
      (found = true ↔ ∀ k, i ≤ k → k < i + dims → ¬ v.Degenerate k ∧ v.StepsOver k) := by
  induction dims generalizing i with
  | zero => exact ⟨true, rfl, iff_of_true rfl fun k hle hlt => absurd hle (by omega)⟩
  | succ dims ih =>
    rcases isMergeableFrom_succ (v := v) (i := i) dims (by omega) (by omega) with
      ⟨hfail, hrun⟩ | ⟨hdegenerate, hsteps, hrun⟩
    · refine ⟨false, hrun, iff_of_false Bool.false_ne_true fun hall => ?_⟩
      obtain ⟨hdegenerate, hsteps⟩ := hall i le_rfl (by omega)
      exact hfail.elim hdegenerate (· hsteps)
    · obtain ⟨found, hfound, hiff⟩ := ih (i := i + 1) (by omega)
      refine ⟨found, hrun.trans hfound,
        hiff.trans ⟨fun hall k hle hlt => ?_, fun hall k hle hlt => ?_⟩⟩
      · rcases hle.lt_or_eq with hlt' | rfl
        · exact hall k hlt' (by omega)
        · exact ⟨hdegenerate, hsteps⟩
      · exact hall k (by omega) (by omega)

theorem isMergeable_run {last : ℕ} (hlen : v.strides.length = v.shape.length)
    (hlast : last + 1 = v.shape.length) :
    ∃ found, v.isMergeable 0 (BitVec.ofNat 64 last) = .ok found ∧
      (found = true ↔ ∀ i < last, ¬ v.Degenerate i ∧ v.StepsOver i) := by
  have hlt := v.shape_lt
  have hword := toNat_ofNat (i := last) (by omega)
  rcases Nat.eq_zero_or_pos last with rfl | hpos
  · exact ⟨true, rfl, iff_of_true rfl fun i hi => absurd hi (Nat.not_lt_zero i)⟩
  · have hne : (0 : Size) ≠ BitVec.ofNat 64 last := by
      intro heq
      rw [← heq] at hword
      exact hpos.ne hword
    obtain ⟨found, hfound, hiff⟩ := isMergeableFrom_run (i := 0) last hlen (by omega)
    refine ⟨found, ?_, hiff.trans ?_⟩
    · rw [isMergeable, if_neg hne, hword]
      exact hfound
    · simp only [Nat.zero_le, true_implies, Nat.zero_add]

/-- **`IsContiguous` looks at every pair of neighbours and at the last stride.** -/
theorem isContiguous_run (hlen : v.strides.length = v.shape.length) :
    ∃ answer, v.isContiguous = .ok answer ∧
      (answer = true ↔ (∀ i, i + 1 < v.shape.length → ¬ v.Degenerate i ∧ v.StepsOver i) ∧
        ∀ i, i + 1 = v.shape.length → v.strides[i]? = some 1) := by
  have hlt := v.shape_lt
  rcases Nat.eq_zero_or_pos v.shape.length with hzero | hpos
  · refine ⟨true, ?_, iff_of_true rfl ⟨fun i hi => ?_, fun i hi => ?_⟩⟩
    · rw [isContiguous, ndim, hzero]
      rfl
    · omega
    · omega
  · obtain ⟨last, hlast⟩ := Nat.exists_eq_succ_of_ne_zero hpos.ne'
    have hne : v.ndim ≠ 0 := by
      intro heq
      have hword := toNat_ofNat (i := v.shape.length) (by omega)
      rw [← ndim, heq] at hword
      exact hpos.ne hword
    have hsub : v.ndim - 1 = BitVec.ofNat 64 last := by
      rw [ndim, hlast, Nat.succ_eq_add_one, BitVec.ofNat_add]
      exact BitVec.add_sub_cancel _ _
    obtain ⟨found, hfound, hiff⟩ := isMergeable_run hlen hlast.symm
    have hstride := stride_ofNat (v := v) (i := last) (by omega)
    have hpairs : (∀ i, i + 1 < v.shape.length → ¬ v.Degenerate i ∧ v.StepsOver i) ↔
        ∀ i < last, ¬ v.Degenerate i ∧ v.StepsOver i := by
      rw [hlast]
      exact forall_congr' fun i => by rw [Nat.succ_lt_succ_iff]
    have hone : (∀ i, i + 1 = v.shape.length → v.strides[i]? = some 1) ↔ v.strides[last] = 1 := by
      rw [hlast]
      refine ⟨fun h => ?_, fun h i hi => ?_⟩
      · rw [← Option.some_inj, ← List.getElem?_eq_getElem]
        exact h last rfl
      · obtain rfl : i = last := Nat.succ.inj hi
        rw [List.getElem?_eq_getElem (by omega), h]
    refine ⟨found && decide (v.strides[last] = 1), ?_, ?_⟩
    · rw [isContiguous, if_neg hne, hsub, hfound]
      cases found with
      | false => rfl
      | true =>
        rw [hstride]
        rfl
    · rw [Bool.and_eq_true, decide_eq_true_iff, hiff, hpairs, hone]

/-! ## The layout -/

/-- The sizes as numbers. -/
def sizes (v : TensorView) : List ℕ := v.shape.map BitVec.toNat

/-- The product of the sizes after `i`. -/
def weight (v : TensorView) (i : ℕ) : ℕ := (v.sizes.drop (i + 1)).prod

@[simp] theorem length_sizes (v : TensorView) : v.sizes.length = v.shape.length := List.length_map _

theorem weight_of_le (h : v.shape.length ≤ i + 1) : v.weight i = 1 := by
  rw [weight, List.drop_eq_nil_of_le (by rwa [length_sizes]), List.prod_nil]

theorem weight_of_lt (h : i + 1 < v.shape.length) :
    v.weight i = v.shape[i + 1].toNat * v.weight (i + 1) := by
  have hsizes : i + 1 < v.sizes.length := by rwa [length_sizes]
  rw [weight, List.drop_eq_getElem_cons hsizes, List.prod_cons, weight]
  simp only [sizes, List.getElem_map]

theorem ofNat_weight (h : i + 1 < v.shape.length) :
    BitVec.ofNat 64 (v.weight i) = v.shape[i + 1] * BitVec.ofNat 64 (v.weight (i + 1)) := by
  rw [weight_of_lt h, BitVec.ofNat_mul, BitVec.ofNat_toNat, BitVec.setWidth_eq]

/-- Every stride is the product of the later sizes, as a word. -/
def HasWeights (v : TensorView) : Prop :=
  ∀ i < v.shape.length, v.strides[i]? = some (BitVec.ofNat 64 (v.weight i))

/-- The comparisons determine every stride. -/
theorem hasWeights_iff :
    v.HasWeights ↔ (∀ i, i + 1 < v.shape.length → v.StepsOver i) ∧
      ∀ i, i + 1 = v.shape.length → v.strides[i]? = some 1 := by
  constructor
  · intro h
    refine ⟨fun i hi => ⟨_, _, List.getElem?_eq_getElem hi, h (i + 1) hi, ?_⟩, fun i hi => ?_⟩
    · rw [h i (by omega), ofNat_weight hi]
    · rw [h i (by omega), weight_of_le hi.ge]
      rfl
  · rintro ⟨hsteps, hlast⟩ i hi
    -- from the last dimension towards the first
    induction hd : v.shape.length - (i + 1) generalizing i with
    | zero =>
      have heq : i + 1 = v.shape.length := by omega
      rw [hlast i heq, weight_of_le heq.ge]
      rfl
    | succ d ih =>
      have hnext : i + 1 < v.shape.length := by omega
      obtain ⟨size, stride, hsize, hstride, hproduct⟩ := hsteps i hnext
      rw [ih (i + 1) hnext (by omega)] at hstride
      rw [List.getElem?_eq_getElem hnext] at hsize
      rw [hproduct, ofNat_weight hnext, ← Option.some.inj hsize, ← Option.some.inj hstride]

/-- **`IsContiguous` accepts the strides of the row-major layout**, except for a dimension of size 1
and stride 0 that is not the last one. -/
theorem isContiguous_exact (hlen : v.strides.length = v.shape.length) :
    ∃ answer, v.isContiguous = .ok answer ∧
      (answer = true ↔ v.HasWeights ∧ ∀ i, i + 1 < v.shape.length → ¬ v.Degenerate i) := by
  obtain ⟨answer, hrun, hiff⟩ := isContiguous_run hlen
  refine ⟨answer, hrun, hiff.trans ?_⟩
  rw [hasWeights_iff]
  constructor
  · rintro ⟨hpairs, hlast⟩
    exact ⟨⟨fun i hi => (hpairs i hi).2, hlast⟩, fun i hi => (hpairs i hi).1⟩
  · rintro ⟨⟨hsteps, hlast⟩, hdegenerate⟩
    exact ⟨fun i hi => ⟨hdegenerate i hi, hsteps i hi⟩, hlast⟩

/-! ## Offsets -/

/-- The element offset of a multi-index: the sum of its entries, each times the stride. -/
def offset (v : TensorView) (is : List ℕ) : ℤ :=
  (List.zipWith (fun (i : ℕ) (stride : Stride) => (i : ℤ) * stride.toInt) is v.strides).sum

/-- The strides are those of the row-major layout. -/
def RowMajor (v : TensorView) : Prop :=
  ∀ i (h : i < v.strides.length), v.strides[i].toInt = v.weight i

theorem one_le_weight (hpos : ∀ size ∈ v.shape, 1 ≤ size.toNat) (i : ℕ) : 1 ≤ v.weight i := by
  refine List.one_le_prod fun size hsize => ?_
  obtain ⟨word, hword, rfl⟩ := List.mem_map.mp (List.mem_of_mem_drop hsize)
  exact hpos word hword

theorem weight_le (hpos : ∀ size ∈ v.shape, 1 ≤ size.toNat) (i : ℕ) :
    v.weight i ≤ v.sizes.prod := by
  have htake : 1 ≤ (v.sizes.take (i + 1)).prod := by
    refine List.one_le_prod fun size hsize => ?_
    obtain ⟨word, hword, rfl⟩ := List.mem_map.mp (List.mem_of_mem_take hsize)
    exact hpos word hword
  calc v.weight i ≤ (v.sizes.take (i + 1)).prod * v.weight i := Nat.le_mul_of_pos_left _ htake
    _ = v.sizes.prod := List.prod_take_mul_prod_drop v.sizes (i + 1)

theorem foldl_mul (xs : List Size) (a : Size) :
    xs.foldl (· * ·) a = a * BitVec.ofNat 64 (xs.map BitVec.toNat).prod := by
  induction xs generalizing a with
  | nil => exact (BitVec.mul_one a).symm
  | cons x xs ih =>
    rw [List.foldl_cons, ih, List.map_cons, List.prod_cons, BitVec.ofNat_mul, BitVec.ofNat_toNat,
      BitVec.setWidth_eq, BitVec.mul_assoc]

/-- `numel` is the number of multi-indices. -/
theorem toNat_numel (hnumel : v.sizes.prod < 2 ^ 64) : v.numel.toNat = v.sizes.prod := by
  rw [numel, foldl_mul]
  refine (congrArg BitVec.toNat (BitVec.one_mul _)).trans ?_
  rw [BitVec.toNat_ofNat]
  exact Nat.mod_eq_of_lt hnumel

theorem rowMajor_iff_hasWeights (hlen : v.strides.length = v.shape.length)
    (hweights : ∀ i, v.weight i < 2 ^ 63) : v.RowMajor ↔ v.HasWeights := by
  constructor
  · intro h i hi
    have hstrides : i < v.strides.length := hlen ▸ hi
    rw [List.getElem?_eq_getElem hstrides, Option.some_inj]
    exact BitVec.eq_of_toInt_eq ((h i hstrides).trans (toInt_ofNat (hweights i)).symm)
  · intro h i hi
    have hstride := h i (hlen ▸ hi)
    rw [List.getElem?_eq_getElem hi, Option.some_inj] at hstride
    rw [hstride, toInt_ofNat (hweights i)]

theorem RowMajor.toInt_strides (h : v.RowMajor) (hlen : v.strides.length = v.shape.length) :
    v.strides.map BitVec.toInt = (weights v.sizes).map Nat.cast := by
  refine List.ext_getElem (by simp [hlen]) fun i hi _ => ?_
  rw [List.length_map] at hi
  have hweight := getElem?_weights v.sizes i
  rw [length_sizes, if_pos (hlen ▸ hi), List.getElem?_eq_some_iff] at hweight
  obtain ⟨_, hweight⟩ := hweight
  rw [List.getElem_map, List.getElem_map, hweight, h i hi, weight]

/-- In the row-major layout the offset of a multi-index is its rank. -/
theorem RowMajor.offset_eq_rank (h : v.RowMajor) (hlen : v.strides.length = v.shape.length)
    {is : List ℕ} (his : is.length = v.sizes.length) : v.offset is = rank v.sizes is := by
  rw [rank_eq_sum his, Nat.cast_list_sum, List.map_zipWith]
  calc v.offset is = (List.zipWith (fun (i : ℕ) (stride : ℤ) => i * stride) is
        (v.strides.map BitVec.toInt)).sum := by rw [List.zipWith_map_right, offset]
    _ = (List.zipWith (fun (i w : ℕ) => (i : ℤ) * w) is (weights v.sizes)).sum := by
      rw [h.toInt_strides hlen, List.zipWith_map_right]
    _ = _ := by simp only [Nat.cast_mul]

theorem RowMajor.bijOn_offset (h : v.RowMajor) (hlen : v.strides.length = v.shape.length)
    (hnumel : v.sizes.prod < 2 ^ 64) :
    Set.BijOn v.offset {is | InBox v.sizes is} (Set.Ico 0 (v.numel.toNat : ℤ)) := by
  have hrank : Set.EqOn (fun is => (rank v.sizes is : ℤ)) v.offset {is | InBox v.sizes is} :=
    fun is his => (h.offset_eq_rank hlen his.length_eq).symm
  refine Set.BijOn.congr ?_ hrank
  refine Set.BijOn.comp (t := Set.Iio v.sizes.prod) ?_ (bijOn_rank v.sizes)
  rw [toNat_numel hnumel]
  refine ⟨fun r hr => ⟨Int.natCast_nonneg r, Int.ofNat_lt.mpr hr⟩,
    fun r _ r' _ heq => Int.ofNat_inj.mp heq, fun z hz => ?_⟩
  exact ⟨z.toNat, (Int.toNat_lt hz.1).mpr hz.2, Int.toNat_of_nonneg hz.1⟩

/-- **`IsContiguous` characterises the row-major layout.** -/
theorem isContiguous_iff_rowMajor (v : TensorView) (hlen : v.strides.length = v.shape.length)
    (hpos : ∀ size ∈ v.shape, 1 ≤ size.toNat) (hnumel : v.sizes.prod < 2 ^ 63) :
    ∃ answer, v.isContiguous = .ok answer ∧ (answer = true ↔ v.RowMajor) ∧
      (answer = true → (∀ is, InBox v.sizes is → v.offset is = rank v.sizes is) ∧
        Set.BijOn v.offset {is | InBox v.sizes is} (Set.Ico 0 (v.numel.toNat : ℤ))) := by
  obtain ⟨answer, hrun, hiff⟩ := isContiguous_exact hlen
  have hweights : ∀ i, v.weight i < 2 ^ 63 := fun i => (weight_le hpos i).trans_lt hnumel
  have hlayout := rowMajor_iff_hasWeights hlen hweights
  -- a stride of the layout is not zero, so no dimension is degenerate
  have hdegenerate : v.HasWeights → ∀ i, i + 1 < v.shape.length → ¬ v.Degenerate i := by
    rintro h i hi ⟨-, hzero⟩
    have hword := Option.some.inj ((h i (by omega)).symm.trans hzero)
    have hweight := toNat_ofNat (hweights i)
    rw [hword] at hweight
    exact absurd (one_le_weight hpos i) (by rw [← hweight]; decide)
  have hanswer : answer = true ↔ v.RowMajor :=
    hiff.trans ((and_iff_left_of_imp hdegenerate).trans hlayout.symm)
  refine ⟨answer, hrun, hanswer, fun htrue => ?_⟩
  have hrowMajor := hanswer.mp htrue
  exact ⟨fun is his => hrowMajor.offset_eq_rank hlen his.length_eq,
    hrowMajor.bijOn_offset hlen (hnumel.trans (by decide))⟩

/-- Two rows of three columns. -/
def matrix : TensorView where
  data := 0
  shape := [2, 3]
  strides := [3, 1]
  dtype := .float32
  device := {}
  shape_lt := by decide
  strides_lt := by decide

theorem isContiguous_iff_rowMajor_of_matrix :
    matrix.RowMajor ∧
      Set.BijOn matrix.offset {is | InBox matrix.sizes is} (Set.Ico 0 (6 : ℤ)) := by
  obtain ⟨answer, hrun, hiff, hlayout⟩ :=
    isContiguous_iff_rowMajor matrix rfl (by simp [matrix]) (by simp [sizes, matrix])
  have htrue : answer = true := Except.ok.inj (hrun.symm.trans (by decide : _ = Except.ok true))
  exact ⟨hiff.mp htrue, (hlayout htrue).2⟩

/-! ## Empty dimensions -/

/-- A dimension of size 1 comes before an empty dimension. -/
def OneBeforeEmpty (v : TensorView) : Prop :=
  ∃ i j : ℕ, i < j ∧ v.shape[i]? = some 1 ∧ v.shape[j]? = some 0

theorem weight_eq_zero_iff : v.weight i = 0 ↔ ∃ j, i < j ∧ v.shape[j]? = some 0 := by
  rw [weight, List.prod_eq_zero_iff, List.mem_iff_getElem?]
  have hzero : ∀ j : ℕ, v.sizes[j]? = some 0 ↔ v.shape[j]? = some 0 := by
    intro j
    rw [sizes, List.getElem?_map, Option.map_eq_some_iff]
    refine ⟨?_, fun h => ⟨0, h, rfl⟩⟩
    rintro ⟨word, hword, hnat⟩
    rwa [← BitVec.eq_of_toNat_eq (x := word) (y := 0) hnat]
  constructor
  · rintro ⟨k, hk⟩
    rw [List.getElem?_drop] at hk
    exact ⟨i + 1 + k, by omega, (hzero _).mp hk⟩
  · rintro ⟨j, hij, hj⟩
    refine ⟨j - (i + 1), ?_⟩
    rw [List.getElem?_drop, Nat.add_sub_cancel' hij]
    exact (hzero j).mpr hj

/-- The row-major strides of a shape are refused when a dimension of size 1 gets the stride 0 that
an empty dimension causes. -/
theorem isContiguous_of_hasWeights (h : v.HasWeights) (hlen : v.strides.length = v.shape.length)
    (hweights : ∀ i, v.weight i < 2 ^ 63) :
    ∃ answer, v.isContiguous = .ok answer ∧ (answer = true ↔ ¬ v.OneBeforeEmpty) := by
  obtain ⟨answer, hrun, hiff⟩ := isContiguous_exact hlen
  refine ⟨answer, hrun, hiff.trans ⟨fun hall => ?_, fun hnone => ⟨h, fun i hi => ?_⟩⟩⟩
  · rintro ⟨i, j, hij, hone, hzero⟩
    have hj := (List.getElem?_eq_some_iff.mp hzero).1
    refine hall.2 i (by omega) ⟨hone, ?_⟩
    rw [h i (by omega), weight_eq_zero_iff.mpr ⟨j, hij, hzero⟩]
    rfl
  · rintro ⟨hone, hzero⟩
    have hword := Option.some.inj ((h i (by omega)).symm.trans hzero)
    have hweight := toNat_ofNat (hweights i)
    rw [hword] at hweight
    obtain ⟨j, hij, hj⟩ := weight_eq_zero_iff.mp hweight.symm
    exact hnone ⟨i, j, hij, hone, hj⟩

end InfiniRT.Tensor.TensorView
