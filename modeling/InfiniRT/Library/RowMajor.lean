import Mathlib.Algebra.BigOperators.Group.List.Basic
import Mathlib.Algebra.GroupWithZero.Nat
import Mathlib.Data.List.Forall2
import Mathlib.Data.Set.Function
import Mathlib.Order.Interval.Set.Defs

/-!
# Row-major numbering

The elements of a box with given sizes are numbered with the last axis running fastest.  The rank of
a multi-index is the sum of its entries, each with the product of the sizes after it as its weight,
and ranks number the box without gaps or repetitions.  Proved:

* **`rank_eq_sum`** — the rank is the sum of the entries with their weights;
* **`unrank_rank`** — numbers and multi-indices are converted back and forth;
* **`bijOn_rank`** — ranks number the box.
-/

namespace InfiniRT.Library.RowMajor

variable {sizes is js : List ℕ} {i n r : ℕ}

/-- The multi-index lies in the box. -/
abbrev InBox (sizes is : List ℕ) : Prop := List.Forall₂ (· < ·) is sizes

/-- The weight of each axis: the product of the sizes after it. -/
def weights : List ℕ → List ℕ
  | [] => []
  | _ :: sizes => sizes.prod :: weights sizes

/-- The number of a multi-index. -/
def rank : List ℕ → List ℕ → ℕ
  | _ :: sizes, i :: is => i * sizes.prod + rank sizes is
  | _, _ => 0

/-- The multi-index with a given number. -/
def unrank : List ℕ → ℕ → List ℕ
  | [], _ => []
  | _ :: sizes, r => r / sizes.prod :: unrank sizes (r % sizes.prod)

@[simp] theorem length_weights (sizes : List ℕ) : (weights sizes).length = sizes.length := by
  induction sizes with
  | nil => rfl
  | cons n sizes ih => simp [weights, ih]

theorem getElem?_weights (sizes : List ℕ) (i : ℕ) :
    (weights sizes)[i]? = if i < sizes.length then some (sizes.drop (i + 1)).prod else none := by
  induction sizes generalizing i with
  | nil => simp [weights]
  | cons n sizes ih =>
    cases i with
    | zero => simp [weights]
    | succ i => simp [weights, ih]

/-- The rank is the weighted sum of the entries. -/
theorem rank_eq_sum (h : is.length = sizes.length) :
    rank sizes is = (List.zipWith (· * ·) is (weights sizes)).sum := by
  induction sizes generalizing is with
  | nil =>
    obtain rfl := List.length_eq_zero_iff.mp h
    rfl
  | cons n sizes ih =>
    cases is with
    | nil => cases h
    | cons i is =>
      rw [List.length_cons, List.length_cons, Nat.add_right_cancel_iff] at h
      simp only [rank, weights, List.zipWith_cons_cons, List.sum_cons, ih h]

theorem rank_lt (h : InBox sizes is) : rank sizes is < sizes.prod := by
  induction h with
  | nil => simp [rank]
  | @cons i n is sizes hi _ ih =>
    rw [rank, List.prod_cons]
    calc i * sizes.prod + rank sizes is
        < i * sizes.prod + sizes.prod := Nat.add_lt_add_left ih _
      _ = (i + 1) * sizes.prod := (Nat.succ_mul _ _).symm
      _ ≤ n * sizes.prod := Nat.mul_le_mul_right _ hi

theorem prod_pos_of_lt (h : r < (n :: sizes).prod) : 0 < sizes.prod := by
  rw [List.prod_cons] at h
  exact Nat.pos_of_ne_zero fun hzero => by simp [hzero] at h

theorem unrank_inBox (h : r < sizes.prod) : InBox sizes (unrank sizes r) := by
  induction sizes generalizing r with
  | nil => exact .nil
  | cons n sizes ih =>
    have hpos := prod_pos_of_lt h
    rw [List.prod_cons] at h
    exact .cons ((Nat.div_lt_iff_lt_mul hpos).mpr h) (ih (Nat.mod_lt r hpos))

theorem rank_unrank (h : r < sizes.prod) : rank sizes (unrank sizes r) = r := by
  induction sizes generalizing r with
  | nil =>
    rw [List.prod_nil] at h
    simp only [rank]
    omega
  | cons n sizes ih =>
    rw [unrank, rank, ih (Nat.mod_lt r (prod_pos_of_lt h)), Nat.mul_comm]
    exact Nat.div_add_mod r sizes.prod

theorem unrank_rank (h : InBox sizes is) : unrank sizes (rank sizes is) = is := by
  induction h with
  | nil => rfl
  | @cons i n is sizes hi his ih =>
    have hlt := rank_lt his
    have hpos : 0 < sizes.prod := Nat.lt_of_le_of_lt (Nat.zero_le _) hlt
    rw [rank, unrank, Nat.mul_comm, Nat.mul_add_div hpos, Nat.mul_add_mod, Nat.div_eq_of_lt hlt,
      Nat.mod_eq_of_lt hlt, Nat.add_zero, ih]

/-- **Ranks number the box**, from zero to one below the product of the sizes. -/
theorem bijOn_rank (sizes : List ℕ) :
    Set.BijOn (rank sizes) {is | InBox sizes is} (Set.Iio sizes.prod) := by
  refine ⟨fun is his => rank_lt his, fun is his js hjs heq => ?_, fun r hr => ?_⟩
  · rw [← unrank_rank his, ← unrank_rank hjs, heq]
  · exact ⟨unrank sizes r, unrank_inBox hr, rank_unrank hr⟩

end InfiniRT.Library.RowMajor
