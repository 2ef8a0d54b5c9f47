import InfiniRT.Pool.Isolation
import InfiniRT.Tensor.DefaultLayout
import InfiniRT.Tensor.Indexing

/-!
# Tensors in the memory of a pool

A client asks a pool for the bytes of a tensor and builds a `TensorView` without strides on what it
gets.  Then a chain of `operator[]` with one index for each dimension, negative ones counting from
the end, ends at an element of its own inside the block: two elements of a tensor share no byte,
neither do elements of tensors in different blocks, and an element holds what was last written to
it.  Proved:

* **`indexAll_rowMajor`** — an element of a tensor in the row-major layout;
* **`tensors_are_arrays`** — tensors in the memory of a pool are arrays, in every run.
-/

namespace InfiniRT.Tensor

open InfiniRT.Library
open InfiniRT.Library.RowMajor
  (InBox rank rank_lt weights getElem?_weights length_weights bijOn_rank)
open InfiniRT.Pool (Loaded LoadedEvent LoadedStep LoadedKeeping Ptr BlockId Region Event liveRegions
  lastWritten)

/-! ## Positions -/

/-- Each index is one of its dimension, from the front or from the back. -/
def InRange (is : List Index) (shape : List Size) : Prop :=
  List.Forall₂ (fun i size => 0 ≤ fromStart i size ∧ fromStart i size < size.toNat) is shape

/-- The same indices, all from the front. -/
def positions (is : List Index) (shape : List Size) : List ℕ :=
  List.zipWith (fun i size => (fromStart i size).toNat) is shape

variable {is js : List Index} {shape : List Size} {strides : List Stride} {t u v : TensorView}

theorem InRange.inBox (h : InRange is shape) :
    InBox (shape.map BitVec.toNat) (positions is shape) := by
  induction h with
  | nil => exact .nil
  | cons hi _ ih => exact .cons ((Int.toNat_lt hi.1).mpr hi.2) ih

/-- The strides of the row-major layout as one list. -/
theorem TensorView.HasWeights.strides_eq (h : v.HasWeights)
    (hlen : v.strides.length = v.shape.length) :
    v.strides = (weights v.sizes).map (BitVec.ofNat 64) := by
  refine List.ext_getElem? fun i => ?_
  rw [List.getElem?_map, getElem?_weights, TensorView.length_sizes]
  by_cases hi : i < v.shape.length
  · rw [h i hi, if_pos hi]
    rfl
  · rw [List.getElem?_eq_none (by omega), if_neg hi]
    rfl

/-- **The strided sum is the rank**, as a word. -/
theorem ofInt_stridedSum (h : InRange is shape) :
    BitVec.ofInt 64
      (stridedSum is shape ((weights (shape.map BitVec.toNat)).map (BitVec.ofNat 64))) =
      BitVec.ofNat 64 (rank (shape.map BitVec.toNat) (positions is shape)) := by
  induction h with
  | nil => rfl
  | @cons i size is shape hi _ ih =>
    have hposition : BitVec.ofInt 64 (fromStart i size) =
        BitVec.ofNat 64 (fromStart i size).toNat := by
      rw [← BitVec.ofInt_natCast, Int.toNat_of_nonneg hi.1]
    show BitVec.ofInt 64 (stridedSum (i :: is) (size :: shape)
      (BitVec.ofNat 64 (shape.map BitVec.toNat).prod ::
        (weights (shape.map BitVec.toNat)).map (BitVec.ofNat 64))) =
      BitVec.ofNat 64 ((fromStart i size).toNat * (shape.map BitVec.toNat).prod +
        rank (shape.map BitVec.toNat) (positions is shape))
    rw [stridedSum_cons, BitVec.ofInt_add, BitVec.ofInt_mul, BitVec.ofInt_toInt, ih, hposition,
      BitVec.ofNat_add, BitVec.ofNat_mul]

/-! ## Elements -/

namespace TensorView

/-- Where an element starts, counted in bytes from the first one. -/
def byteOffset (t : TensorView) (is : List Index) : ℕ :=
  t.elementSize.toNat * rank t.sizes (positions is t.shape)

/-- The byte belongs to the element at the end of the chain. -/
def Covers (t : TensorView) (is : List Index) (a : ℕ) : Prop :=
  ∃ w, t.indexAll is = .ok w ∧ w.data.toNat ≤ a ∧ a < w.data.toNat + t.elementSize.toNat

/-- Elements are inside the bytes of a tensor. -/
theorem byteOffset_add_le (h : InRange is t.shape) :
    t.byteOffset is + t.elementSize.toNat ≤ t.sizes.prod * t.elementSize.toNat := by
  have hrank : rank t.sizes (positions is t.shape) + 1 ≤ t.sizes.prod := rank_lt h.inBox
  calc t.byteOffset is + t.elementSize.toNat
      = (rank t.sizes (positions is t.shape) + 1) * t.elementSize.toNat := by
        rw [byteOffset, Nat.mul_comm, Nat.succ_mul]
    _ ≤ t.sizes.prod * t.elementSize.toNat := Nat.mul_le_mul_right _ hrank

/-- Elements of a tensor do not overlap. -/
theorem positions_eq_of_byteOffset (h : InRange is t.shape) (h' : InRange js t.shape) {k l : ℕ}
    (hk : k < t.elementSize.toNat) (hl : l < t.elementSize.toNat)
    (heq : t.byteOffset is + k = t.byteOffset js + l) :
    positions is t.shape = positions js t.shape := by
  have hpos : 0 < t.elementSize.toNat := Nat.lt_of_le_of_lt (Nat.zero_le k) hk
  refine (bijOn_rank t.sizes).injOn h.inBox h'.inBox ?_
  have hdiv := congrArg (· / t.elementSize.toNat) heq
  simpa only [byteOffset, Nat.mul_add_div hpos, Nat.div_eq_of_lt hk, Nat.div_eq_of_lt hl,
    Nat.add_zero] using hdiv

/-- **An element of a tensor in the row-major layout**, if its bytes are addresses. -/
theorem indexAll_rowMajor (hweights : t.HasWeights) (hlen : t.strides.length = t.shape.length)
    (h : InRange is t.shape) (hfits : t.data.toNat + t.sizes.prod * t.elementSize.toNat ≤ 2 ^ 64)
    (hsize : 0 < t.elementSize.toNat) :
    ∃ w, t.indexAll is = .ok w ∧ w.shape = [] ∧ w.data.toNat = t.data.toNat + t.byteOffset is := by
  have hcount := h.length_eq
  obtain ⟨w, hw, hshape, -, -, -, hdata⟩ := indexAll_eq is hlen hcount.le (ofInt_toNat t.data).symm
  refine ⟨w, hw, by rw [hshape, hcount, List.drop_length], ?_⟩
  have hword : BitVec.ofInt 64 (t.elementSize.toNat * stridedSum is t.shape t.strides) =
      BitVec.ofNat 64 (t.byteOffset is) := by
    rw [BitVec.ofInt_mul, hweights.strides_eq hlen, sizes, ofInt_stridedSum h, BitVec.ofInt_natCast,
      ← BitVec.ofNat_mul]
    rfl
  have hbound := byteOffset_add_le h
  rw [hdata, BitVec.ofInt_add, ofInt_toNat, hword, BitVec.toNat_add, BitVec.toNat_ofNat,
    Nat.add_mod_mod, Nat.mod_eq_of_lt (by omega)]

end TensorView

theorem elementSize_pos (t : TensorView) : 0 < t.elementSize.toNat := by
  unfold TensorView.elementSize
  cases t.dtype <;> decide

/-! ## Tensors and blocks -/

/-- The elements of the tensor have room in the block at `p`, in the row-major layout. -/
structure Holds (m : Loaded) (p : Ptr) (b : BlockId) (t : TensorView) : Prop where
  lookup : m.world.state.allBlocks.lookup p = some b
  data : t.data.toNat = p
  length : t.strides.length = t.shape.length
  weights : t.HasWeights
  enough : t.sizes.prod * t.elementSize.toNat ≤ (m.world.state.blocks b).size

/-- All memory has addresses. -/
def Addressed (m : Loaded) : Prop := ∀ r ∈ liveRegions m.world.state.calls, r.1 + r.2 ≤ 2 ^ 64

variable {m m' : Loaded} {p q : Ptr} {b c : BlockId} {a : ℕ} {trace since : List LoadedEvent}

namespace Holds

/-- The element at the end of a chain. -/
theorem element (h : Holds m p b t) (hsound : m.Sound) (hopen : m.world.closed = false)
    (hspace : Addressed m) (his : InRange is t.shape) :
    ∃ w, t.indexAll is = .ok w ∧ w.shape = [] ∧ w.data.toNat = p + t.byteOffset is := by
  have hregion := hspace _ (hsound.region_mem hopen h.lookup)
  have henough := h.enough
  have hfits : t.data.toNat + t.sizes.prod * t.elementSize.toNat ≤ 2 ^ 64 := by
    rw [h.data]
    exact (Nat.add_le_add_left henough p).trans hregion
  rw [← h.data]
  exact TensorView.indexAll_rowMajor h.weights h.length his hfits (elementSize_pos t)

/-- What an element covers, as an offset in the block. -/
theorem covers_iff (h : Holds m p b t) (hsound : m.Sound) (hopen : m.world.closed = false)
    (hspace : Addressed m) (his : InRange is t.shape) :
    t.Covers is a ↔ ∃ k < t.elementSize.toNat, a = p + (t.byteOffset is + k) := by
  obtain ⟨w, hw, -, hdata⟩ := h.element hsound hopen hspace his
  constructor
  · rintro ⟨w', hw', hle, hlt⟩
    obtain rfl : w = w' := Except.ok.inj (hw.symm.trans hw')
    rw [hdata] at hle hlt
    exact ⟨a - (p + t.byteOffset is), by omega, by omega⟩
  · rintro ⟨k, hk, rfl⟩
    exact ⟨w, hw, by omega, by omega⟩

/-- It is inside the block. -/
theorem has (h : Holds m p b t) (hsound : m.Sound) (hopen : m.world.closed = false)
    (hspace : Addressed m) (his : InRange is t.shape) (ha : t.Covers is a) :
    (m.region p b).Has a := by
  obtain ⟨k, hk, rfl⟩ := (h.covers_iff hsound hopen hspace his).mp ha
  have hinside := (TensorView.byteOffset_add_le his).trans h.enough
  refine ⟨Nat.le_add_right _ _, Nat.add_lt_add_left ?_ p⟩
  show t.byteOffset is + k < (m.world.state.blocks b).size
  omega

end Holds

/-- A request for the bytes of a tensor gives it a block. -/
theorem holds_of_request (hsound : m.Sound) {e : Event} {th : Pool.ThreadId} {size : ℕ}
    {isExact : Bool} {ans : Pool.AllocAnswer} (hreq : e.Requests th size isExact ans)
    (hstep : LoadedStep m (.pool e (.ok (.pointer p))) m') (hp : p ≠ Pool.nullptr)
    (hdata : t.data.toNat = p) (hlen : t.strides.length = t.shape.length) (hweights : t.HasWeights)
    (hsize : t.sizes.prod * t.elementSize.toNat ≤ size) : ∃ b, Holds m' p b t := by
  cases hstep with
  | pool hstep =>
    obtain ⟨b, hreturned⟩ := Pool.returned_of_step hsound.sized hreq hstep hp
    exact ⟨b, hreturned.lookup, hdata, hlen, hweights, hsize.trans hreturned.right.enough⟩

/-- **Tensors in the memory of a pool are arrays.**  In every run of a pool and its clients, a
request for the bytes of a tensor with row-major strides gives the tensor a block; and as long as a
tensor has one, every chain of indices in range ends at an element inside the block, elements of the
tensor and elements of tensors in other blocks share no byte, and each byte of an element is the one
last written there through the block's address. -/
theorem tensors_are_arrays {stream : Option Pool.Stream} {isNvidia : Bool} {memory : ℕ → UInt8}
    (hrun : Run LoadedStep (.initial stream isNvidia memory) trace m) (hspace : Addressed m) :
    (∀ e th size isExact ans p m', Event.Requests e th size isExact ans →
      LoadedStep m (.pool e (.ok (.pointer p))) m' → p ≠ Pool.nullptr →
      ∀ t : TensorView, t.data.toNat = p → t.strides.length = t.shape.length → t.HasWeights →
      t.sizes.prod * t.elementSize.toNat ≤ size → ∃ b, Holds m' p b t) ∧
    (m.world.closed = false → ∀ p b t, Holds m p b t →
      (∀ is, InRange is t.shape → (∃ w, t.indexAll is = .ok w ∧ w.shape = []) ∧
        ∀ a, t.Covers is a → (m.region p b).Has a) ∧
      (∀ is js a, InRange is t.shape → InRange js t.shape → t.Covers is a → t.Covers js a →
        positions is t.shape = positions js t.shape) ∧
      (∀ q c u, Holds m q c u → p ≠ q → ∀ is js a, InRange is t.shape → InRange js u.shape →
        t.Covers is a → ¬u.Covers js a) ∧
      ∀ since m', Run (LoadedKeeping p b) m since m' → ∀ is a, InRange is t.shape → t.Covers is a →
        m'.memory a = lastWritten p (a - p) since (m.memory a)) := by
  have hsound := Loaded.Sound.of_run hrun
  refine ⟨fun e th size isExact ans p m' hreq hstep hp t hdata hlen hweights hsize =>
    holds_of_request hsound hreq hstep hp hdata hlen hweights hsize, fun hopen p b t ht => ?_⟩
  refine ⟨fun is his => ⟨?_, fun a ha => ht.has hsound hopen hspace his ha⟩, ?_, ?_, ?_⟩
  · obtain ⟨w, hw, hshape, -⟩ := ht.element hsound hopen hspace his
    exact ⟨w, hw, hshape⟩
  · intro is js a his hjs ha ha'
    obtain ⟨k, hk, rfl⟩ := (ht.covers_iff hsound hopen hspace his).mp ha
    obtain ⟨l, hl, heq⟩ := (ht.covers_iff hsound hopen hspace hjs).mp ha'
    exact TensorView.positions_eq_of_byteOffset his hjs hk hl (Nat.add_left_cancel heq)
  · intro q c u hu hpq is js a his hjs ha ha'
    exact (hsound.region_apart hopen ht.lookup hu.lookup hpq).not_has
      (ht.has hsound hopen hspace his ha) (hu.has hsound hopen hspace hjs ha')
  · intro since m' hlater is a his ha
    obtain ⟨hle, hlt⟩ := ht.has hsound hopen hspace his ha
    have hkept : m'.memory (p + (a - p)) = lastWritten p (a - p) since (m.memory (p + (a - p))) :=
      hsound.memory_run ht.lookup hlater (Nat.sub_lt_left_of_lt_add hle hlt)
    rwa [Nat.add_sub_cancel' (show p ≤ a from hle)] at hkept

/-- Two rows of three columns in the first block of the shared memory. -/
def pooledMatrix : TensorView := { TensorView.matrix with data := 4096 }

theorem holds_pooledMatrix : Holds Pool.sharedMemory 4096 0 pooledMatrix where
  lookup := rfl
  data := rfl
  length := rfl
  weights := show ∀ i < 2, [3, 1][i]? = some (BitVec.ofNat 64 (pooledMatrix.weight i)) by decide
  enough := by decide

theorem tensors_are_arrays_pooledMatrix :
    (∃ w, pooledMatrix.indexAll [-1, 2] = .ok w ∧ w.shape = []) ∧
    ∀ js a, InRange js pooledMatrix.shape → pooledMatrix.Covers [-1, 2] a →
      pooledMatrix.Covers js a → positions js pooledMatrix.shape = [1, 2] := by
  have hspace : Addressed Pool.sharedMemory := by
    show ∀ r ∈ [(65536, 32768), (4096, 32768)], r.1 + r.2 ≤ 2 ^ 64
    decide
  have hrange : InRange [-1, 2] pooledMatrix.shape := .cons (by decide) (.cons (by decide) .nil)
  have h := (tensors_are_arrays Pool.sharedMemory_run hspace).2 rfl 4096 0 pooledMatrix
    holds_pooledMatrix
  exact ⟨(h.1 _ hrange).1, fun js a hjs ha ha' => (h.2.1 _ _ a hrange hjs ha ha').symm⟩

end InfiniRT.Tensor
