import InfiniRT.Tensor.StoredView
import Mathlib.Tactic.Ring

/-!
# Indexing

`operator[]` adds the product of an index, a stride and the element size to the address.  The words
wrap around, so a negative index or stride is the same word as the integer it stands for, and a
chain of `operator[]` ends at the base plus the element size times a sum of integers.  Each link of
the chain builds its metadata anew from what is left of its parent's.  Proved:

* **`indexAll_eq`** — a chain of `operator[]` ends at the base plus the element size times a sum;
* **`indexing_composes`** — the same of objects, whatever their metadata is kept in, and of
  transposes.
-/

namespace InfiniRT.Tensor

open InfiniRT.Library
open InfiniRT.Metadata
open InfiniRT.Metadata.ShapeStridesStorage (Keeps)

/-- The index from the start of a dimension. -/
def fromStart (index : Index) (size : Size) : ℤ :=
  if 0 ≤ index.toInt then index.toInt else index.toInt + size.toNat

/-- The sum of the products of indices and strides. -/
def stridedSum (is : List Index) (shape : List Size) (strides : List Stride) : ℤ :=
  (List.zipWith (fun (i : ℤ) (stride : Stride) => i * stride.toInt)
    (List.zipWith fromStart is shape) strides).sum

theorem stridedSum_cons (i : Index) (is : List Index) (size : Size) (shape : List Size)
    (stride : Stride) (strides : List Stride) :
    stridedSum (i :: is) (size :: shape) (stride :: strides) =
      fromStart i size * stride.toInt + stridedSum is shape strides := by
  simp only [stridedSum, List.zipWith_cons_cons, List.sum_cons]

theorem getEffectiveIndex_eq (i : Index) (size : Size) :
    getEffectiveIndex i size = BitVec.ofInt 64 (fromStart i size) := by
  have hslt : i.slt 0 ↔ i.toInt < 0 := BitVec.slt_iff_toInt_lt
  unfold getEffectiveIndex fromStart
  by_cases hi : 0 ≤ i.toInt
  · rw [if_neg (by rw [hslt]; omega), if_pos hi, BitVec.ofInt_toInt]
  · rw [if_pos (by rw [hslt]; omega), if_neg hi, BitVec.ofInt_add, BitVec.ofInt_toInt,
      BitVec.ofInt_natCast, BitVec.ofNat_toNat, BitVec.setWidth_eq]

/-- A step from an address that is the word of an integer. -/
theorem step_eq (address : ℤ) (i : Index) (size : Size) (stride : Stride) (elementSize : Size) :
    BitVec.ofInt 64 address + getEffectiveIndex i size * stride * elementSize =
      BitVec.ofInt 64 (address + elementSize.toNat * (fromStart i size * stride.toInt)) := by
  have hproduct : getEffectiveIndex i size * stride * elementSize =
      BitVec.ofInt 64 (elementSize.toNat * (fromStart i size * stride.toInt)) := by
    rw [BitVec.ofInt_mul, BitVec.ofInt_mul, ← getEffectiveIndex_eq, BitVec.ofInt_toInt,
      BitVec.ofInt_natCast, BitVec.ofNat_toNat, BitVec.setWidth_eq]
    exact BitVec.mul_comm _ _
  rw [hproduct, BitVec.ofInt_add]

theorem ofInt_toNat (p : Pointer) : BitVec.ofInt 64 p.toNat = p := by
  rw [BitVec.ofInt_natCast, BitVec.ofNat_toNat, BitVec.setWidth_eq]

/-! ## Views of lists -/

namespace TensorView

/-- Apply `operator[]` once for each index. -/
def indexAll : TensorView → List Index → Except Fault TensorView
  | v, [] => .ok v
  | v, i :: is => do (← v.index i).indexAll is

theorem length_of_index {v w : TensorView} {i : Index} (h : v.index i = .ok w) :
    w.shape.length + 1 = v.shape.length ∧ w.strides.length + 1 = v.strides.length := by
  obtain ⟨size, hsize, h⟩ := exists_of_bind_ok h
  obtain ⟨stride, hstride, h⟩ := exists_of_bind_ok h
  obtain rfl := Except.ok.inj h
  have hshape := (List.getElem?_eq_some_iff.mp (getElem?_of_element hsize)).1
  have hstrides := (List.getElem?_eq_some_iff.mp (getElem?_of_element hstride)).1
  simp only [List.length_tail]
  omega

theorem T_eq {v : TensorView} {size0 size1 : Size} {stride0 stride1 : Stride}
    (hshape : v.shape = [size0, size1]) (hstrides : v.strides = [stride0, stride1]) :
    ∃ w, v.T = .ok w ∧ w.shape = [size1, size0] ∧ w.strides = [stride1, stride0] ∧
      w.data = v.data ∧ w.dtype = v.dtype := by
  unfold T
  rw [hshape, hstrides]
  exact ⟨_, rfl, rfl, rfl, rfl, rfl⟩

/-- **A chain of `operator[]`.** -/
theorem indexAll_eq {v : TensorView} {address : ℤ} (is : List Index)
    (hlen : v.strides.length = v.shape.length) (his : is.length ≤ v.shape.length)
    (haddress : v.data = BitVec.ofInt 64 address) :
    ∃ w, v.indexAll is = .ok w ∧ w.shape = v.shape.drop is.length ∧
      w.strides = v.strides.drop is.length ∧ w.dtype = v.dtype ∧ w.device = v.device ∧
      w.data = BitVec.ofInt 64
        (address + v.elementSize.toNat * stridedSum is v.shape v.strides) := by
  induction is generalizing v address with
  | nil => exact ⟨v, rfl, rfl, rfl, rfl, rfl, by simpa [stridedSum] using haddress⟩
  | cons i is ih =>
    obtain ⟨size, shape, hshape⟩ := List.exists_cons_of_length_pos
      (Nat.lt_of_lt_of_le (Nat.succ_pos is.length) his)
    obtain ⟨stride, strides, hstrides⟩ : ∃ stride strides, v.strides = stride :: strides :=
      List.exists_cons_of_length_pos (by rw [hlen, hshape]; exact Nat.succ_pos _)
    obtain ⟨u, hrun, hdata, hushape, hustrides, hdtype, hdevice⟩ := index_cons hshape hstrides i
    rw [hshape] at his
    rw [hshape, hstrides] at hlen
    rw [haddress, step_eq] at hdata
    obtain ⟨w, hw, hwshape, hwstrides, hwdtype, hwdevice, hwdata⟩ := ih (v := u)
      (by rw [hushape, hustrides]; exact Nat.succ.inj hlen)
      (by rw [hushape]; exact Nat.le_of_succ_le_succ his) hdata
    refine ⟨w, ?_, ?_, ?_, hwdtype.trans hdtype, hwdevice.trans hdevice, ?_⟩
    · rw [indexAll, hrun, ok_bind, hw]
    · rw [hwshape, hushape, hshape, List.length_cons, List.drop_succ_cons]
    · rw [hwstrides, hustrides, hstrides, List.length_cons, List.drop_succ_cons]
    · have hsize : u.elementSize = v.elementSize := by rw [elementSize, elementSize, hdtype]
      rw [hwdata, hsize, hushape, hustrides, hshape, hstrides, stridedSum_cons]
      congr 1
      ring

end TensorView

/-! ## Objects -/

namespace StoredView

variable {m m' : ViewMemory} {v w : StoredView} {t t' : TensorView}

/-- Apply `operator[]` once for each index.  The objects in between live on. -/
def indexAll : StoredView → List Index → Action ViewMemory Fault StoredView
  | v, [] => pure v
  | v, i :: is => do (← v.index i).indexAll is

/-- A chain of `operator[]` on an object follows the chain on lists.  Up to nine dimensions no
object needs memory. -/
theorem indexAll_returns {is : List Index} (h : Shows m v t)
    (hlen : t.strides.length = t.shape.length) (ht : t.indexAll is = .ok t') :
    (∃ w m', (v.indexAll is).run m = (.ok w, m') ∧ Shows m' w t') ∨
      9 < t.shape.length ∧ ∃ m', (v.indexAll is).run m = (.error .badAlloc, m') := by
  induction is generalizing v t m with
  | nil => exact .inl ⟨v, m, rfl, Except.ok.inj ht ▸ h⟩
  | cons i is ih =>
    obtain ⟨t₁, hindex, hrest⟩ := exists_of_bind_ok ht
    obtain ⟨hshape, hstrides⟩ := TensorView.length_of_index hindex
    rcases index_returns h hindex with ⟨u, m₁, hrun, hshows⟩ | ⟨hbig, m₁, hrun⟩
    · rw [indexAll, Action.run_bind_ok hrun]
      refine (ih hshows (by omega) hrest).imp_right fun ⟨hlarge, herr⟩ => ⟨by omega, herr⟩
    · exact .inr ⟨by omega, m₁, Action.run_bind_error hrun⟩

theorem indexAll_granted (h : m.Granting) (v : StoredView) (is : List Index) :
    (v.indexAll is).Spares .badAlloc Memory.Granting (fun _ _ => True) m := by
  induction is generalizing v m with
  | nil => exact .pure h trivial
  | cons i is ih => exact .bind (index_granted h v i) fun u _ _ h₁ => ih h₁ u

/-- `T()[j][i]` and `[i][j]`. -/
theorem T_indexAll_data {size0 size1 : Size} {stride0 stride1 : Stride} (h : Shows m v t)
    (hshape : t.shape = [size0, size1]) (hstrides : t.strides = [stride0, stride1]) (i j : Index) :
    ∃ w m₁ w' m₂, (do (← v.T).indexAll [j, i]).run m = (.ok w, m₁) ∧
      (v.indexAll [i, j]).run m = (.ok w', m₂) ∧ w.data = w'.data := by
  obtain ⟨u, hu, hushape, hustrides, hudata, hudtype⟩ := TensorView.T_eq hshape hstrides
  have hlen : t.strides.length = t.shape.length := by rw [hshape, hstrides]; rfl
  have hulen : u.strides.length = u.shape.length := by rw [hushape, hustrides]; rfl
  obtain ⟨t₁, ht₁, -, -, -, -, hdata₁⟩ := TensorView.indexAll_eq [i, j] hlen
    (by rw [hshape]; rfl) (ofInt_toNat t.data).symm
  obtain ⟨t₂, ht₂, -, -, -, -, hdata₂⟩ := TensorView.indexAll_eq [j, i] hulen
    (by rw [hushape]; rfl) (ofInt_toNat u.data).symm
  have hsum : stridedSum [j, i] u.shape u.strides = stridedSum [i, j] t.shape t.strides := by
    rw [hushape, hustrides, hshape, hstrides, stridedSum_cons, stridedSum_cons, stridedSum_cons,
      stridedSum_cons]
    simp only [stridedSum, List.zipWith_nil_left, List.sum_nil]
    ring
  have hsmall : t.shape.length = 2 := by rw [hshape]; rfl
  have husmall : u.shape.length = 2 := by rw [hushape]; rfl
  rcases T_returns h hu with ⟨v', m', hT, hshows⟩ | ⟨hbig, -⟩
  swap
  · omega
  obtain ⟨w', m₂, hrun', hshows'⟩ :=
    (indexAll_returns h hlen ht₁).resolve_right fun hbig => by omega
  obtain ⟨w, m₁, hrun, hshows₁⟩ :=
    (indexAll_returns hshows hulen ht₂).resolve_right fun hbig => by omega
  refine ⟨w, m₁, w', m₂, (Action.run_bind_ok hT).trans hrun, hrun', ?_⟩
  have helement : u.elementSize = t.elementSize := by
    rw [TensorView.elementSize, TensorView.elementSize, hudtype]
  rw [hshows₁.data_eq, hshows'.data_eq, hdata₁, hdata₂, hsum, hudata, helement]

/-- **Indexing composes**, whatever the metadata is kept in.  Views of more than nine dimensions
need memory, and only an allocator that refuses it stops the chain. -/
theorem indexing_composes (m : ViewMemory) (v : StoredView) (shape : List Size)
    (strides : List Stride) (hkeeps : Keeps m v.storage shape strides)
    (hlen : strides.length = shape.length) (hrank : shape.length < 2 ^ 32) :
    (∀ is : List Index, is.length ≤ shape.length →
      (∃ w m', (v.indexAll is).run m = (.ok w, m') ∧ w.dtype = v.dtype ∧ w.device = v.device ∧
        w.storage.readShape m' = .ok (shape.drop is.length) ∧
        w.storage.readStrides m' = .ok (strides.drop is.length) ∧
        w.data = BitVec.ofInt 64 (v.data.toNat +
          (dataTypeToSize v.dtype).toNat * stridedSum is shape strides)) ∨
      9 < shape.length ∧ ¬m.Granting ∧ ∃ m', (v.indexAll is).run m = (.error .badAlloc, m')) ∧
    (shape.length = 2 → ∀ i j, ∃ w m₁ w' m₂, (do (← v.T).indexAll [j, i]).run m = (.ok w, m₁) ∧
      (v.indexAll [i, j]).run m = (.ok w', m₂) ∧ w.data = w'.data) := by
  have hshows : Shows m v ⟨v.data, shape, strides, v.dtype, v.device, hrank, hlen ▸ hrank⟩ :=
    ⟨hkeeps, rfl, rfl, rfl⟩
  refine ⟨fun is his => ?_, fun htwo i j => ?_⟩
  · obtain ⟨t, ht, htshape, htstrides, hdtype, hdevice, hdata⟩ := TensorView.indexAll_eq
      (v := ⟨v.data, shape, strides, v.dtype, v.device, hrank, hlen ▸ hrank⟩) is hlen his
      (ofInt_toNat v.data).symm
    rcases indexAll_returns hshows hlen ht with ⟨w, m', hrun, hw⟩ | ⟨hbig, m', hrun⟩
    · refine .inl ⟨w, m', hrun, hw.dtype_eq.trans hdtype, hw.device_eq.trans hdevice, ?_, ?_,
        hw.data_eq.trans hdata⟩
      · rw [hw.keeps.readShape, htshape]
      · rw [hw.keeps.readStrides, htstrides]
    · exact .inr ⟨hbig, fun hgranting => (indexAll_granted hgranting v is).ne_error hrun, m', hrun⟩
  · obtain ⟨size0, size1, hshape⟩ := List.length_eq_two.mp htwo
    obtain ⟨stride0, stride1, hstrides⟩ := List.length_eq_two.mp (hlen.trans htwo)
    exact T_indexAll_data hshows hshape hstrides i j

/-- Two rows of three columns, the last row first. -/
def reversed : StoredView where
  data := 100
  storage :=
    { storage := .inlineStorage ([some 2, some 3] ++ List.replicate 6 none)
        ([some (-3), some 1] ++ List.replicate 6 none)
      shapeSize := 2
      stridesSize := 2 }
  dtype := .float32
  device := {}

/-- A memory without buffers. -/
def noBuffers : ViewMemory where
  shapes := ⟨fun _ => none, some⟩
  strides := ⟨fun _ => none, some⟩
  combined := ⟨fun _ => none, some⟩

theorem indexing_composes_of_reversed :
    (∃ w m', (reversed.indexAll [-1, 2]).run noBuffers = (.ok w, m') ∧ w.data = 96) ∧
      ∃ w m₁ w' m₂, (do (← reversed.T).indexAll [2, -1]).run noBuffers = (.ok w, m₁) ∧
        (reversed.indexAll [-1, 2]).run noBuffers = (.ok w', m₂) ∧ w.data = w'.data := by
  have hkeeps : Keeps noBuffers reversed.storage [2, 3] [-3, 1] :=
    @Keeps.inlined _ _ _ noBuffers [2, 3] [-3, 1] _ _ rfl rfl
  obtain ⟨hchain, htransposed⟩ :=
    indexing_composes noBuffers reversed [2, 3] [-3, 1] hkeeps rfl (by decide)
  refine ⟨?_, htransposed rfl (-1) 2⟩
  rcases hchain [-1, 2] (by decide) with ⟨w, m', hrun, -, -, -, -, hdata⟩ | ⟨hbig, -⟩
  · exact ⟨w, m', hrun, hdata.trans (by decide)⟩
  · exact absurd hbig (by decide)

end StoredView

end InfiniRT.Tensor
