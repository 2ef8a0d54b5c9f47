import InfiniRT.Tensor.TensorView
import Mathlib.Order.Nat
import Mathlib.Tactic.Common

/-!
# `HasBroadcastDim`

The predicate of `HasBroadcastDim` moves its counter only past a dimension whose size is not 1: on a
dimension of size 1 the condition is decided before the counter is reached, and every later call
looks at that dimension again.  So the answer is about the dimensions before the first one of size
1.  Proved:

* **`hasBroadcastDim_exact_iff`** — the exact condition under which the answer is right.
-/

namespace InfiniRT.Tensor.TensorView

open InfiniRT.Library (Fault)

variable {v : TensorView} {i j : ℕ}

/-- Dimension `i` has several elements at one address. -/
def IsBroadcast (v : TensorView) (i : ℕ) : Prop :=
  ∃ size, v.shape[i]? = some size ∧ size ≠ 1 ∧ v.strides[i]? = some 0

theorem IsBroadcast.lt (h : v.IsBroadcast i) : i < v.shape.length := by
  obtain ⟨size, hshape, -⟩ := h
  exact (List.getElem?_eq_some_iff.mp hshape).1

/-- The predicate moves on from dimension `i` and has not found anything. -/
def Passes (v : TensorView) (i : ℕ) : Prop :=
  ∃ size stride, v.shape[i]? = some size ∧ v.strides[i]? = some stride ∧ size ≠ 1 ∧ stride ≠ 0

theorem Passes.lt (h : v.Passes i) : i < v.shape.length := by
  obtain ⟨size, stride, hshape, -⟩ := h
  exact (List.getElem?_eq_some_iff.mp hshape).1

theorem Passes.ne_one (h : v.Passes i) : v.shape[i]? ≠ some 1 := by
  obtain ⟨size, stride, hshape, -, hsize, -⟩ := h
  rw [hshape]
  exact fun heq => hsize (Option.some.inj heq)

theorem Passes.not_isBroadcast (h : v.Passes i) : ¬ v.IsBroadcast i := by
  obtain ⟨size, stride, -, hstrides, -, hstride⟩ := h
  rintro ⟨_, -, -, hzero⟩
  rw [hstrides] at hzero
  exact hstride (Option.some.inj hzero)

/-- Where the predicate does not move on, the dimensions end, or one has size 1 or is broadcast. -/
theorem stops_cases (hlen : v.strides.length = v.shape.length) (h : ¬ v.Passes i) :
    v.shape.length ≤ i ∨ v.shape[i]? = some 1 ∨ v.IsBroadcast i := by
  by_cases hi : i < v.shape.length
  · have hshape := List.getElem?_eq_getElem hi
    have hstrides := List.getElem?_eq_getElem (l := v.strides) (hlen ▸ hi)
    by_cases hsize : v.shape[i] = 1
    · exact .inr (.inl (hsize ▸ hshape))
    · by_cases hstride : v.strides[i] = 0
      · exact .inr (.inr ⟨_, hshape, hsize, hstride ▸ hstrides⟩)
      · exact absurd ⟨_, _, hshape, hstrides, hsize, hstride⟩ h
  · exact .inl (Nat.le_of_not_lt hi)

theorem exists_first_stop (v : TensorView) : ∃ i, ¬ v.Passes i ∧ ∀ k < i, v.Passes k := by
  classical
  have hstop : ∃ i, ¬ v.Passes i := ⟨v.shape.length, fun h => absurd h.lt (lt_irrefl _)⟩
  exact ⟨Nat.find hstop, Nat.find_spec hstop, fun k hk => not_not.mp (Nat.find_min hstop hk)⟩

/-! ## One call of the predicate -/

theorem isBroadcastDim_of_one {x : Size} (h : v.shape[i]? = some 1) :
    v.isBroadcastDim x i = .ok (false, i) := by
  simp only [isBroadcastDim, element_of_getElem? h, ok_bind, if_pos]
  rfl

theorem isBroadcastDim_of_ne {x size : Size} {stride : Stride} (hshape : v.shape[i]? = some size)
    (hsize : size ≠ 1) (hstrides : v.strides[i]? = some stride) :
    v.isBroadcastDim x i =
      if i = intMax then .error .undefined else .ok (decide (stride = 0), i + 1) := by
  simp only [isBroadcastDim, element_of_getElem? hshape, element_of_getElem? hstrides, ok_bind,
    if_neg hsize]
  split <;> rfl

/-! ## Runs of `std::any_of` -/

/-- The predicate is stuck at a dimension of size 1. -/
theorem anyOf_of_one (h : v.shape[i]? = some 1) (xs : List Size) :
    anyOf v.isBroadcastDim xs i = .ok false := by
  induction xs with
  | nil => rfl
  | cons x xs ih =>
    rw [anyOf, isBroadcastDim_of_one h]
    exact ih

/-- The dimensions that the predicate moves past are skipped. -/
theorem hasBroadcastDim_of_passes (h : ∀ k < i, v.Passes k) (hi : i ≤ intMax) :
    v.hasBroadcastDim = anyOf v.isBroadcastDim (v.shape.drop i) i := by
  induction i with
  | zero => rfl
  | succ i ih =>
    have hpasses := h i (Nat.lt_succ_self i)
    obtain ⟨size, stride, hshape, hstrides, hsize, hstride⟩ := hpasses
    rw [ih (fun k hk => h k (Nat.lt_succ_of_lt hk)) (by omega),
      List.drop_eq_getElem_cons (h i (by omega)).lt, anyOf,
      isBroadcastDim_of_ne hshape hsize hstrides, if_neg (by omega), decide_eq_false hstride]
    rfl

theorem hasBroadcastDim_of_end (h : ∀ k < i, v.Passes k) (hi : i ≤ intMax)
    (hend : v.shape.length ≤ i) : v.hasBroadcastDim = .ok false := by
  rw [hasBroadcastDim_of_passes h hi, List.drop_eq_nil_of_le hend, anyOf]

theorem hasBroadcastDim_of_one (h : ∀ k < i, v.Passes k) (hi : i ≤ intMax)
    (hone : v.shape[i]? = some 1) : v.hasBroadcastDim = .ok false := by
  rw [hasBroadcastDim_of_passes h hi, anyOf_of_one hone]

theorem hasBroadcastDim_of_isBroadcast (h : ∀ k < i, v.Passes k) (hi : i < intMax)
    (hbroadcast : v.IsBroadcast i) : v.hasBroadcastDim = .ok true := by
  obtain ⟨size, hshape, hsize, hstrides⟩ := hbroadcast
  rw [hasBroadcastDim_of_passes h hi.le,
    List.drop_eq_getElem_cons (List.getElem?_eq_some_iff.mp hshape).1, anyOf,
    isBroadcastDim_of_ne hshape hsize hstrides, if_neg (by omega), decide_eq_true rfl]
  rfl

/-- The counter is an `int`, and it cannot move past the largest one. -/
theorem hasBroadcastDim_of_overflow (h : ∀ k < intMax, v.Passes k) {size : Size} {stride : Stride}
    (hshape : v.shape[intMax]? = some size) (hsize : size ≠ 1)
    (hstrides : v.strides[intMax]? = some stride) : v.hasBroadcastDim = .error .undefined := by
  rw [hasBroadcastDim_of_passes h le_rfl,
    List.drop_eq_getElem_cons (List.getElem?_eq_some_iff.mp hshape).1, anyOf,
    isBroadcastDim_of_ne hshape hsize hstrides, if_pos rfl]
  rfl

/-! ## Exactness -/

/-- The answer says whether some dimension is broadcast. -/
def BroadcastAnswered (v : TensorView) : Prop :=
  ∃ found, v.hasBroadcastDim = .ok found ∧ (found = true ↔ ∃ i, v.IsBroadcast i)

/-- Some broadcast dimension comes before every dimension of size 1, if there is one at all. -/
def BroadcastFirst (v : TensorView) : Prop :=
  ∀ i, v.IsBroadcast i → ∃ j, v.IsBroadcast j ∧ ∀ k < j, v.shape[k]? ≠ some 1

/-- The counter does not pass the largest `int`. -/
def CounterFits (v : TensorView) : Prop :=
  v.shape.length ≤ intMax ∨ (∃ k ≤ intMax, v.shape[k]? = some 1) ∨ ∃ k < intMax, v.IsBroadcast k

theorem broadcastAnswered_of_end (h : ∀ k < i, v.Passes k) (hi : i ≤ intMax)
    (hend : v.shape.length ≤ i) : v.BroadcastAnswered ∧ v.BroadcastFirst ∧ v.CounterFits := by
  have hnone : ∀ k, ¬ v.IsBroadcast k := by
    intro k hk
    exact (h k (hk.lt.trans_le hend)).not_isBroadcast hk
  exact ⟨⟨false, hasBroadcastDim_of_end h hi hend, by simp [hnone]⟩,
    fun k hk => absurd hk (hnone k), .inl (hend.trans hi)⟩

theorem broadcastAnswered_iff_of_one (h : ∀ k < i, v.Passes k) (hi : i ≤ intMax)
    (hone : v.shape[i]? = some 1) : v.BroadcastAnswered ↔ v.BroadcastFirst ∧ v.CounterFits := by
  have hfits : v.CounterFits := .inr (.inl ⟨i, hi, hone⟩)
  have hrun := hasBroadcastDim_of_one h hi hone
  constructor
  · rintro ⟨found, hfound, hiff⟩
    obtain rfl := Except.ok.inj (hrun.symm.trans hfound)
    exact ⟨fun k hk => absurd (hiff.mpr ⟨k, hk⟩) Bool.false_ne_true, hfits⟩
  · rintro ⟨hfirst, -⟩
    refine ⟨false, hrun, iff_of_false Bool.false_ne_true ?_⟩
    rintro ⟨k, hk⟩
    obtain ⟨j, hj, hbefore⟩ := hfirst k hk
    -- the broadcast dimension that comes first is neither before `i`, nor `i`, nor after it
    rcases Nat.lt_trichotomy j i with hlt | rfl | hgt
    · exact (h j hlt).not_isBroadcast hj
    · obtain ⟨size, hshape, hsize, -⟩ := hj
      exact hsize (Option.some.inj (hshape.symm.trans hone))
    · exact hbefore i hgt hone

theorem broadcastAnswered_of_isBroadcast (h : ∀ k < i, v.Passes k) (hi : i < intMax)
    (hbroadcast : v.IsBroadcast i) : v.BroadcastAnswered ∧ v.BroadcastFirst ∧ v.CounterFits :=
  ⟨⟨true, hasBroadcastDim_of_isBroadcast h hi hbroadcast, iff_of_true rfl ⟨i, hbroadcast⟩⟩,
    fun _ _ => ⟨i, hbroadcast, fun k hk => (h k hk).ne_one⟩, .inr (.inr ⟨i, hi, hbroadcast⟩)⟩

theorem not_counterFits (h : ∀ k < intMax, v.Passes k) (hlt : intMax < v.shape.length)
    (hone : v.shape[intMax]? ≠ some 1) : ¬ v.CounterFits := by
  rintro (hend | ⟨k, hk, hkone⟩ | ⟨k, hk, hbroadcast⟩)
  · omega
  · rcases hk.lt_or_eq with hlt | rfl
    · exact (h k hlt).ne_one hkone
    · exact hone hkone
  · exact (h k hk).not_isBroadcast hbroadcast

/-- **`HasBroadcastDim` is exact on these tensors and on no others.** -/
theorem hasBroadcastDim_exact_iff (v : TensorView) (hlen : v.strides.length = v.shape.length) :
    v.BroadcastAnswered ↔ v.BroadcastFirst ∧ v.CounterFits := by
  obtain ⟨i, hstop, hpasses⟩ := v.exists_first_stop
  rcases Nat.lt_or_ge intMax i with hgt | hle
  · -- the counter passes the largest `int`
    obtain ⟨size, stride, hshape, hstrides, hsize, -⟩ := hpasses intMax hgt
    have hbelow : ∀ k < intMax, v.Passes k := fun k hk => hpasses k (hk.trans hgt)
    have hrun := hasBroadcastDim_of_overflow hbelow hshape hsize hstrides
    refine iff_of_false ?_ fun h => ?_
    · rintro ⟨found, hfound, -⟩
      exact nomatch hrun.symm.trans hfound
    · exact not_counterFits hbelow (hpasses intMax hgt).lt (hpasses intMax hgt).ne_one h.2
  · rcases stops_cases hlen hstop with hend | hone | hbroadcast
    · have hall := broadcastAnswered_of_end hpasses hle hend
      exact iff_of_true hall.1 hall.2
    · exact broadcastAnswered_iff_of_one hpasses hle hone
    · rcases hle.lt_or_eq with hlt | rfl
      · have hall := broadcastAnswered_of_isBroadcast hpasses hlt hbroadcast
        exact iff_of_true hall.1 hall.2
      · -- the broadcast dimension is the last one an `int` can count
        obtain ⟨size, hshape, hsize, hstrides⟩ := hbroadcast
        have hrun := hasBroadcastDim_of_overflow hpasses hshape hsize hstrides
        refine iff_of_false ?_ fun h => ?_
        · rintro ⟨found, hfound, -⟩
          exact nomatch hrun.symm.trans hfound
        · refine not_counterFits hpasses (List.getElem?_eq_some_iff.mp hshape).1 ?_ h.2
          exact fun hone => hsize (Option.some.inj (hshape.symm.trans hone))

/-- A matrix whose rows are broadcast. -/
def broadcastRows : TensorView where
  data := 0
  shape := [2, 1]
  strides := [0, 1]
  dtype := .float32
  device := {}
  shape_lt := by decide
  strides_lt := by decide

theorem hasBroadcastDim_exact_iff_of_rows : broadcastRows.BroadcastAnswered := by
  refine (hasBroadcastDim_exact_iff broadcastRows rfl).mpr ⟨?_, .inl (by decide)⟩
  exact fun _ _ => ⟨0, ⟨2, rfl, by decide, rfl⟩, fun k hk => absurd hk (Nat.not_lt_zero k)⟩

/-- A matrix with one row whose columns are broadcast. -/
def broadcastColumns : TensorView where
  data := 0
  shape := [1, 2]
  strides := [1, 0]
  dtype := .float32
  device := {}
  shape_lt := by decide
  strides_lt := by decide

/-- The columns are broadcast, and the answer is no. -/
theorem hasBroadcastDim_misses_columns :
    broadcastColumns.strides.length = broadcastColumns.shape.length ∧
      broadcastColumns.IsBroadcast 1 ∧ broadcastColumns.hasBroadcastDim = .ok false ∧
      ¬ broadcastColumns.BroadcastAnswered := by
  have hrun : broadcastColumns.hasBroadcastDim = .ok false := by decide
  have hcolumns : broadcastColumns.IsBroadcast 1 := ⟨2, rfl, by decide, rfl⟩
  refine ⟨rfl, hcolumns, hrun, ?_⟩
  rintro ⟨found, hfound, hiff⟩
  obtain rfl := Except.ok.inj (hrun.symm.trans hfound)
  exact absurd (hiff.mpr ⟨1, hcolumns⟩) Bool.false_ne_true

end InfiniRT.Tensor.TensorView
