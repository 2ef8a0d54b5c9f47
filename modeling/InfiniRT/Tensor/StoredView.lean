import InfiniRT.Metadata.Granting
import InfiniRT.Tensor.TensorView

/-!
# Views and their storage

A `TensorView` object keeps its metadata in a `ShapeStridesStorage`, so building one is building a
storage in memory: inline up to eight dimensions, beyond that in a combined allocation or in the
buffers of the vectors it was given.  `Shows` says which view of lists such an object is.  The
members that return a view read their metadata through `shape()` and `strides()` of the object they
are called on, and each one shows what the member of the same name does on lists.  Proved:

* **`construct_ok`** — a constructor that returns made the view of its lists;
* **`index_returns`** — `operator[]` of an object is that of the view it is, with `T_returns`;
* **`construct_granted`** — only an allocator that refuses memory stops a constructor.
-/

namespace InfiniRT.Tensor

open InfiniRT.Library
open InfiniRT.Metadata
open InfiniRT.Metadata.ShapeStridesStorage (Keeps Refers)

/-- An inline capacity.  The inline arrays are objects, of at most `PTRDIFF_MAX` bytes. -/
abbrev InlineCapacity := { n : ℕ // 0 < n ∧ n ≤ 2 ^ 60 - 1 }

/-- `ShapeStridesStorage<Size, Stride, inline_capacity>` with words of 64 bits. -/
def wordConfig (n : InlineCapacity) : StorageConfig where
  inlineCapacity := n
  shapeMaxSize := 2 ^ 60 - 1
  stridesMaxSize := 2 ^ 60 - 1
  sizeofSize := 8
  sizeofStride := 8
  alignofStride := 8
  sizeMax := 2 ^ 64 - 1
  inlineCapacity_pos := n.2.1
  inlineCapacity_le_shape := n.2.2
  inlineCapacity_le_strides := n.2.2
  alignofStride_pos := by decide
  alignofStride_le := by decide

/-- `kInlineMetadataCapacity`. -/
def inlineMetadataCapacity : InlineCapacity := ⟨8, by decide⟩

/-- `TensorView::ShapeStridesStorage`. -/
abbrev ViewStorage := ShapeStridesStorage Size Stride (wordConfig inlineMetadataCapacity)

/-- What the metadata of views is kept in. -/
abbrev ViewMemory := Memory Size Stride

/-- A `TensorView` object. -/
structure StoredView where
  data : Pointer
  storage : ViewStorage
  dtype : DataType
  device : Device

/-- With lengths below `2 ^ 32` the bytes of both arrays fit a word. -/
theorem fits_of_lt (n : InlineCapacity) {shapeSize stridesSize : ℕ} (hshape : shapeSize < 2 ^ 32)
    (hstrides : stridesSize < 2 ^ 32) :
    ShapeStridesStorage.Fits (wordConfig n) shapeSize stridesSize := by
  refine ⟨hshape, hstrides, ?_⟩
  show shapeSize * 8 + (8 - 1) + stridesSize * 8 ≤ 2 ^ 64 - 1
  omega

/-! ## Members -/

theorem getElem?_of_element {xs : List (BitVec 64)} {x : BitVec 64} {i : ℕ}
    (h : element xs i = .ok x) : xs[i]? = some x := by
  unfold element at h
  split at h
  · cases h
    assumption
  · cases h

namespace StoredView

/-- Construct the storage of a view.  The vector that `Shape&&` refers to is the caller's. -/
def construct (data : Pointer) (dtype : DataType) (device : Device)
    (init : StorageAction Size Stride (wordConfig inlineMetadataCapacity) Unit)
    (start : ViewMemory → StorageState Size Stride (wordConfig inlineMetadataCapacity)) :
    Action ViewMemory Fault (StoredView × Shape Size (wordConfig inlineMetadataCapacity)) :=
      fun m =>
  match init.run (start m) with
  | (.ok _, s) => (.ok (⟨data, s.this, dtype, device⟩, s.shape), s.memory)
  | (.error e, s) => (.error e, s.memory)

/-- The constructors without strides. -/
def ofShape (data : Pointer) (shape : ShapeArgument Size (wordConfig inlineMetadataCapacity))
    (dtype : DataType) (device : Device) :
    Action ViewMemory Fault (StoredView × Shape Size (wordConfig inlineMetadataCapacity)) :=
  construct data dtype device (shape.constructor 1 (· * ·)) shape.start

/-- The constructor from two forward ranges. -/
def ofRanges (data : Pointer) (shape : List (Ref Size)) (dtype : DataType) (device : Device)
    (strides : List (Ref Stride)) : Action ViewMemory Fault StoredView := do
  let (view, _) ← construct data dtype device
    (ShapeStridesStorage.initializeForwardRanges shape strides) fun m => ⟨m, {}, {}, {}⟩
  return view

/-- `shape()[i]`. -/
def sizeAt (v : StoredView) (i : ℕ) : Action ViewMemory Fault Size := do
  match (v.storage.shape (← get))[i]? with
  | some size => Memory.onShapes size.load
  | none => throw .undefined

/-- `strides()[i]`. -/
def strideAt (v : StoredView) (i : ℕ) : Action ViewMemory Fault Stride := do
  match (v.storage.strides (← get))[i]? with
  | some stride => Memory.onStrides stride.load
  | none => throw .undefined

/-- `operator[]`. -/
def index (v : StoredView) (index : Index) : Action ViewMemory Fault StoredView := do
  let m ← get
  let size ← v.sizeAt 0
  let stride ← v.strideAt 0
  ofRanges (v.data + getEffectiveIndex index size * stride * dataTypeToSize v.dtype)
    (v.storage.shape m).tail v.dtype v.device (v.storage.strides m).tail

/-- `T`. -/
def T (v : StoredView) : Action ViewMemory Fault StoredView := do
  let size1 ← v.sizeAt 1
  let size0 ← v.sizeAt 0
  let stride1 ← v.strideAt 1
  let stride0 ← v.strideAt 0
  ofRanges v.data [.fixed (some size1), .fixed (some size0)] v.dtype v.device
    [.fixed (some stride1), .fixed (some stride0)]

/-- The view of lists that an object is, if it can be read. -/
def toView (v : StoredView) (m : ViewMemory) : Except Fault TensorView := do
  let shape ← v.storage.readShape m
  let strides ← v.storage.readStrides m
  if h : shape.length < 2 ^ 32 ∧ strides.length < 2 ^ 32 then
    return ⟨v.data, shape, strides, v.dtype, v.device, h.1, h.2⟩
  else throw .undefined

/-! ## What an object shows -/

/-- The object is the view. -/
structure Shows (m : ViewMemory) (v : StoredView) (t : TensorView) : Prop where
  keeps : Keeps m v.storage t.shape t.strides
  data_eq : v.data = t.data
  dtype_eq : v.dtype = t.dtype
  device_eq : v.device = t.device

variable {m m' : ViewMemory} {v w : StoredView} {t t' : TensorView} {ls : List Size}
  {lt : List Stride} {i : ℕ}

theorem Shows.toView (h : Shows m v t) : v.toView m = .ok t := by
  have hlt : t.shape.length < 2 ^ 32 ∧ t.strides.length < 2 ^ 32 := ⟨t.shape_lt, t.strides_lt⟩
  unfold StoredView.toView
  rw [h.keeps.readShape, h.keeps.readStrides, ok_bind, ok_bind, dif_pos hlt]
  rcases h with ⟨-, hdata, hdtype, hdevice⟩
  rw [hdata, hdtype, hdevice]
  rfl

theorem sizeAt_run (h : Keeps m v.storage ls lt) {size : Size} (hi : ls[i]? = some size) :
    (v.sizeAt i).run m = (.ok size, m) := by
  have hlen := h.shape_reads.length_eq
  obtain ⟨hlt, rfl⟩ := List.getElem?_eq_some_iff.mp hi
  have hread := h.shape_reads.get (hlen ▸ hlt) hlt
  unfold sizeAt
  rw [Action.run_bind_ok (Action.run_get m), List.getElem?_eq_getElem (hlen ▸ hlt)]
  exact Action.run_zoom (hread m.shapes (.refl _))

theorem strideAt_run (h : Keeps m v.storage ls lt) {stride : Stride} (hi : lt[i]? = some stride) :
    (v.strideAt i).run m = (.ok stride, m) := by
  have hlen := h.strides_reads.length_eq
  obtain ⟨hlt, rfl⟩ := List.getElem?_eq_some_iff.mp hi
  have hread := h.strides_reads.get (hlen ▸ hlt) hlt
  unfold strideAt
  rw [Action.run_bind_ok (Action.run_get m), List.getElem?_eq_getElem (hlen ▸ hlt)]
  exact Action.run_zoom (hread m.strides (.refl _))

/-- What a member may end with: an object that is the view; or no memory, if the view has more
dimensions than fit inline. -/
def Returns (x : Action ViewMemory Fault StoredView) (m : ViewMemory) (t : TensorView) : Prop :=
  (∃ w m', x.run m = (.ok w, m') ∧ Shows m' w t) ∨
  ¬(t.shape.length ≤ 8 ∧ t.strides.length ≤ 8) ∧ ∃ m', x.run m = (.error .badAlloc, m')

theorem construct_ok (data : Pointer) (dtype : DataType) (device : Device)
    {init : StorageAction Size Stride (wordConfig inlineMetadataCapacity) Unit}
    (start : ViewMemory → StorageState Size Stride (wordConfig inlineMetadataCapacity))
    {s : StorageState Size Stride (wordConfig inlineMetadataCapacity)}
    (hrun : init.run (start m) = (.ok (), s)) :
    (construct data dtype device init start).run m =
      (.ok (⟨data, s.this, dtype, device⟩, s.shape), s.memory) := by
  unfold Action.run construct
  rw [hrun]

theorem construct_error (data : Pointer) (dtype : DataType) (device : Device) {e : Fault}
    {init : StorageAction Size Stride (wordConfig inlineMetadataCapacity) Unit}
    (start : ViewMemory → StorageState Size Stride (wordConfig inlineMetadataCapacity))
    {s : StorageState Size Stride (wordConfig inlineMetadataCapacity)}
    (hrun : init.run (start m) = (.error e, s)) :
    (construct data dtype device init start).run m = (.error e, s.memory) := by
  unfold Action.run construct
  rw [hrun]

/-- **The constructor from ranges** that refer to the lists of a view. -/
theorem ofRanges_returns (t : TensorView) {shape : List (Ref Size)} {strides : List (Ref Stride)}
    (hshape : Refers m.shapes shape t.shape) (hstrides : Refers m.strides strides t.strides) :
    Returns (ofRanges t.data shape t.dtype t.device strides) m t := by
  by_cases hinline : t.shape.length ≤ 8 ∧ t.strides.length ≤ 8
  · obtain ⟨st, hrun, hkeeps⟩ := ShapeStridesStorage.initializeForwardRanges_inline
      (c := wordConfig inlineMetadataCapacity) (s := ⟨m, {}, {}, {}⟩) rfl hshape hstrides
      ⟨t.shape_lt, t.strides_lt⟩ hinline
    have hconstruct := construct_ok t.data t.dtype t.device (fun m => ⟨m, {}, {}, {}⟩) hrun
    exact .inl ⟨⟨t.data, st, t.dtype, t.device⟩, m, Action.run_bind_ok hconstruct,
      ⟨hkeeps m, rfl, rfl, rfl⟩⟩
  · rcases ShapeStridesStorage.initializeForwardRanges_builds
      (c := wordConfig inlineMetadataCapacity) (s := ⟨m, {}, {}, {}⟩) rfl hshape hstrides with
      ⟨s, hrun, hbuilt⟩ | ⟨s, hrun, -⟩ | ⟨s, -, hfits⟩
    · have hconstruct := construct_ok t.data t.dtype t.device (fun m => ⟨m, {}, {}, {}⟩) hrun
      exact .inl ⟨⟨t.data, s.this, t.dtype, t.device⟩, s.memory, Action.run_bind_ok hconstruct,
        ⟨hbuilt.keeps, rfl, rfl, rfl⟩⟩
    · have hconstruct := construct_error t.data t.dtype t.device (fun m => ⟨m, {}, {}, {}⟩) hrun
      exact .inr ⟨hinline, s.memory, Action.run_bind_error hconstruct⟩
    · exact absurd (fits_of_lt inlineMetadataCapacity t.shape_lt t.strides_lt) hfits

/-- **`operator[]`** of an object is `operator[]` of the view it is. -/
theorem index_returns (h : Shows m v t) {i : Index} (ht : t.index i = .ok t') :
    Returns (v.index i) m t' := by
  obtain ⟨size, shape, hshape⟩ : ∃ size shape, t.shape = size :: shape := by
    cases hshape : t.shape with
    | nil => simp [TensorView.index, element, hshape] at ht
    | cons size shape => exact ⟨size, shape, rfl⟩
  obtain ⟨stride, strides, hstrides⟩ : ∃ stride strides, t.strides = stride :: strides := by
    cases hstrides : t.strides with
    | nil => rw [TensorView.index_of_strides_nil hshape hstrides] at ht; cases ht
    | cons stride strides => exact ⟨stride, strides, rfl⟩
  obtain ⟨t₁, hrun, hdata, hshape₁, hstrides₁, hdtype, hdevice⟩ :=
    TensorView.index_cons hshape hstrides i
  obtain rfl : t' = t₁ := Except.ok.inj (ht.symm.trans hrun)
  have hsize : (v.sizeAt 0).run m = (.ok size, m) := sizeAt_run h.keeps (by rw [hshape]; rfl)
  have hstride : (v.strideAt 0).run m = (.ok stride, m) :=
    strideAt_run h.keeps (by rw [hstrides]; rfl)
  have hshapeTail : Refers m.shapes (v.storage.shape m).tail t'.shape := by
    have hreads := h.keeps.shape_reads
    rw [hshape] at hreads
    rw [hshape₁]
    obtain ⟨_, _, -, hrest, heq⟩ := List.forall₂_cons_right_iff.mp hreads
    exact heq ▸ hrest
  have hstridesTail : Refers m.strides (v.storage.strides m).tail t'.strides := by
    have hreads := h.keeps.strides_reads
    rw [hstrides] at hreads
    rw [hstrides₁]
    obtain ⟨_, _, -, hrest, heq⟩ := List.forall₂_cons_right_iff.mp hreads
    exact heq ▸ hrest
  have hreturns := ofRanges_returns t' hshapeTail hstridesTail
  unfold index
  rw [Returns, Action.run_bind_ok (Action.run_get m), Action.run_bind_ok hsize,
    Action.run_bind_ok hstride]
  rw [hdata, hdtype, hdevice, TensorView.elementSize, ← h.data_eq, ← h.dtype_eq, ← h.device_eq]
    at hreturns
  exact hreturns

/-- **`T`** of an object is `T` of the view it is. -/
theorem T_returns (h : Shows m v t) (ht : t.T = .ok t') : Returns v.T m t' := by
  obtain ⟨size1, hsize1, ht⟩ := exists_of_bind_ok ht
  obtain ⟨size0, hsize0, ht⟩ := exists_of_bind_ok ht
  obtain ⟨stride1, hstride1, ht⟩ := exists_of_bind_ok ht
  obtain ⟨stride0, hstride0, ht⟩ := exists_of_bind_ok ht
  obtain rfl := Except.ok.inj ht
  have hshape : Refers m.shapes [.fixed (some size1), .fixed (some size0)] [size1, size0] :=
    .cons (.pure _ _) (.cons (.pure _ _) .nil)
  have hstrides : Refers m.strides [.fixed (some stride1), .fixed (some stride0)]
      [stride1, stride0] := .cons (.pure _ _) (.cons (.pure _ _) .nil)
  have hreturns := ofRanges_returns
    { t with
      shape := [size1, size0]
      strides := [stride1, stride0]
      shape_lt := by simp
      strides_lt := by simp } hshape hstrides
  unfold T
  rw [Returns, Action.run_bind_ok (sizeAt_run h.keeps (getElem?_of_element hsize1)),
    Action.run_bind_ok (sizeAt_run h.keeps (getElem?_of_element hsize0)),
    Action.run_bind_ok (strideAt_run h.keeps (getElem?_of_element hstride1)),
    Action.run_bind_ok (strideAt_run h.keeps (getElem?_of_element hstride0)),
    h.data_eq, h.dtype_eq, h.device_eq]
  exact hreturns

/-! ## Memory that is not refused -/

theorem construct_granted (data : Pointer) (dtype : DataType) (device : Device)
    {init : StorageAction Size Stride (wordConfig inlineMetadataCapacity) Unit}
    (start : ViewMemory → StorageState Size Stride (wordConfig inlineMetadataCapacity))
    (h : ShapeStridesStorage.Granted init (start m)) :
    (construct data dtype device init start).Spares .badAlloc Memory.Granting
    (fun _ _ => True) m := by
  rcases h.cases with ⟨_, s, hrun, hG, -⟩ | ⟨e, s, hrun, hG, hne⟩
  · exact .of_ok (construct_ok data dtype device start hrun) hG.memory trivial
  · exact .of_error (construct_error data dtype device start hrun) hG.memory hne

theorem index_granted (h : m.Granting) (v : StoredView) (i : Index) :
    (v.index i).Spares .badAlloc Memory.Granting (fun _ _ => True) m := by
  have hsize : ∀ m : ViewMemory, m.Granting →
      (v.sizeAt 0).Spares .badAlloc Memory.Granting (fun _ _ => True) m := fun m hm => by
    refine .get_bind ?_
    split
    · exact .zoom (Ref.load_spares hm.shapes _) (fun _ hL => ⟨hL, hm.strides, hm.combined⟩)
        fun _ _ _ => trivial
    · exact .throw hm nofun
  have hstride : ∀ m : ViewMemory, m.Granting →
      (v.strideAt 0).Spares .badAlloc Memory.Granting (fun _ _ => True) m := fun m hm => by
    refine .get_bind ?_
    split
    · exact .zoom (Ref.load_spares hm.strides _) (fun _ hL => ⟨hm.shapes, hL, hm.combined⟩)
        fun _ _ _ => trivial
    · exact .throw hm nofun
  refine .get_bind (.bind (hsize m h) fun size m₁ _ h₁ =>
    .bind (hstride m₁ h₁) fun stride m₂ _ h₂ =>
    .bind (construct_granted _ _ _ _ ?_) fun _ m₃ _ h₃ => .pure h₃ trivial)
  exact ShapeStridesStorage.initializeForwardRanges_granted h₂.start _ _

end StoredView

end InfiniRT.Tensor
