import InfiniRT.Library.Ledger
import Mathlib.Algebra.GroupWithZero.Nat
import Mathlib.Data.BitVec

/-!
# `TensorView`

The member functions of `TensorView` that work on its fields, one definition each.  `std::size_t`,
`std::ptrdiff_t` and pointers are words of 64 bits, so that a comparison or a product of a stride
and a size converts the stride.  Signed sums and products of indices and strides wrap around, where
the language leaves what does not fit undefined; a counter that passes its largest value is
undefined.

The metadata are two lists.  Their lengths fit `std::uint32_t`, which every constructor checks.
The main definitions:

* **`TensorView`** — the address, the two lists, the data type and the device;
* **`TensorView.index`** — `operator[]`;
* **`TensorView.hasBroadcastDim`** — the loop with a counter;
* **`TensorView.isContiguous`** — the comparisons of neighbouring strides.
-/

namespace InfiniRT.Tensor

open InfiniRT.Library (Fault)

/-- `TensorView::Size`. -/
abbrev Size := BitVec 64

/-- `TensorView::Stride`. -/
abbrev Stride := BitVec 64

/-- `TensorView::Index`. -/
abbrev Index := Stride

/-- `void*`. -/
abbrev Pointer := BitVec 64

/-- `DataType`. -/
inductive DataType
  | int8
  | int16
  | int32
  | int64
  | uint8
  | uint16
  | uint32
  | uint64
  | float16
  | bfloat16
  | float32
  | float64
  | bool
  deriving DecidableEq, Repr

/-- `kDataTypeToSize`. -/
def dataTypeToSize : DataType → Size
  | .int8 => 1
  | .int16 => 2
  | .int32 => 4
  | .int64 => 8
  | .uint8 => 1
  | .uint16 => 2
  | .uint32 => 4
  | .uint64 => 8
  | .float16 => 2
  | .bfloat16 => 2
  | .float32 => 4
  | .float64 => 8
  | .bool => 1

/-- `Device::Type`. -/
inductive DeviceType
  | cpu
  | nvidia
  | cambricon
  | ascend
  | metax
  | moore
  | iluvatar
  | hygon
  | thead
  | mars
  deriving DecidableEq, Repr

/-- `Device`. -/
structure Device where
  type : DeviceType := .cpu
  index : ℤ := 0
  deriving DecidableEq, Repr

/-- `TensorView`. -/
structure TensorView where
  data : Pointer
  shape : List Size
  strides : List Stride
  dtype : DataType
  device : Device
  shape_lt : shape.length < 2 ^ 32
  strides_lt : strides.length < 2 ^ 32
  deriving DecidableEq, Repr

/-- `xs[i]` of a `MetadataView`. -/
def element (xs : List (BitVec 64)) (i : ℕ) : Except Fault (BitVec 64) :=
  match xs[i]? with
  | some x => .ok x
  | none => .error .undefined

theorem element_of_getElem? {xs : List (BitVec 64)} {x : BitVec 64} {i : ℕ} (h : xs[i]? = some x) :
    element xs i = .ok x := by
  rw [element, h]

@[simp] theorem ok_bind {ε α β : Type} (a : α) (f : α → Except ε β) :
    (Except.ok a >>= f) = f a := rfl

@[simp] theorem error_bind {ε α β : Type} (e : ε) (f : α → Except ε β) :
    (Except.error e >>= f) = .error e := rfl

theorem exists_of_bind_ok {ε α β : Type} {x : Except ε α} {f : α → Except ε β} {b : β}
    (h : (x >>= f) = .ok b) : ∃ a, x = .ok a ∧ f a = .ok b := by
  cases x with
  | ok a => exact ⟨a, rfl, h⟩
  | error e => cases h

/-- `GetEffectiveIndex`. -/
def getEffectiveIndex (index : Index) (size : Size) : Index :=
  if index.slt 0 then index + size else index

/-- `std::any_of`, of a predicate that keeps a state. -/
def anyOf {α σ : Type} (predicate : α → σ → Except Fault (Bool × σ)) :
    List α → σ → Except Fault Bool
  | [], _ => .ok false
  | x :: xs, s => do
    let (found, s) ← predicate x s
    if found then return true
    anyOf predicate xs s

/-- The largest `int`. -/
def intMax : ℕ := 2 ^ 31 - 1

/-- The largest `Index`. -/
def indexMax : Index := BitVec.intMax 64

namespace TensorView

/-- `element_size`. -/
def elementSize (v : TensorView) : Size := dataTypeToSize v.dtype

/-- `ndim`. -/
def ndim (v : TensorView) : Size := BitVec.ofNat 64 v.shape.length

/-- `size`. -/
def size (v : TensorView) (index : Index) : Except Fault Size :=
  element v.shape (getEffectiveIndex index (BitVec.ofNat 64 v.shape.length)).toNat

/-- `stride`. -/
def stride (v : TensorView) (index : Index) : Except Fault Stride :=
  element v.strides (getEffectiveIndex index (BitVec.ofNat 64 v.strides.length)).toNat

/-- `numel`. -/
def numel (v : TensorView) : Size := v.shape.foldl (· * ·) 1

theorem tail_lt {xs : List (BitVec 64)} (h : xs.length < 2 ^ 32) : xs.tail.length < 2 ^ 32 := by
  rw [List.length_tail]
  omega

/-- `operator[]`. -/
def index (v : TensorView) (index : Index) : Except Fault TensorView := do
  let size ← element v.shape 0
  let stride ← element v.strides 0
  return { v with
    data := v.data + getEffectiveIndex index size * stride * v.elementSize
    shape := v.shape.tail
    strides := v.strides.tail
    shape_lt := tail_lt v.shape_lt
    strides_lt := tail_lt v.strides_lt }

/-- `operator[]` takes the first dimension off and moves the address. -/
theorem index_cons {v : TensorView} {size : Size} {stride : Stride} {shape : List Size}
    {strides : List Stride} (hshape : v.shape = size :: shape)
    (hstrides : v.strides = stride :: strides) (i : Index) :
    ∃ w, v.index i = .ok w ∧ w.data = v.data + getEffectiveIndex i size * stride * v.elementSize ∧
      w.shape = shape ∧ w.strides = strides ∧ w.dtype = v.dtype ∧ w.device = v.device := by
  have hsize : element v.shape 0 = .ok size := by rw [hshape, element_of_getElem? rfl]
  have hstride : element v.strides 0 = .ok stride := by rw [hstrides, element_of_getElem? rfl]
  simp only [index, hsize, hstride, ok_bind]
  exact ⟨_, rfl, rfl, congrArg List.tail hshape, congrArg List.tail hstrides, rfl, rfl⟩

/-- Without a stride there is nothing to index. -/
theorem index_of_strides_nil {v : TensorView} {size : Size} {shape : List Size}
    (hshape : v.shape = size :: shape) (hstrides : v.strides = []) (i : Index) :
    v.index i = .error .undefined := by
  have hsize : element v.shape 0 = .ok size := by rw [hshape, element_of_getElem? rfl]
  have hstride : element v.strides 0 = .error .undefined := by rw [hstrides]; rfl
  simp only [index, hsize, hstride, ok_bind, error_bind]

/-- `T`. -/
def T (v : TensorView) : Except Fault TensorView := do
  let size1 ← element v.shape 1
  let size0 ← element v.shape 0
  let stride1 ← element v.strides 1
  let stride0 ← element v.strides 0
  return { v with
    shape := [size1, size0]
    strides := [stride1, stride0]
    shape_lt := by simp
    strides_lt := by simp }

/-- The predicate of `HasBroadcastDim` and the counter `i` it captures. -/
def isBroadcastDim (v : TensorView) (_ : Size) (i : ℕ) : Except Fault (Bool × ℕ) := do
  if (← element v.shape i) = 1 then return (false, i)
  let stride ← element v.strides i
  if i = intMax then throw .undefined
  return (decide (stride = 0), i + 1)

/-- `HasBroadcastDim`. -/
def hasBroadcastDim (v : TensorView) : Except Fault Bool := anyOf v.isBroadcastDim v.shape 0

/-- The loop of `IsMergeable`, with a number of dimensions to go. -/
def isMergeableFrom (v : TensorView) : ℕ → Size → Except Fault Bool
  | 0, _ => .ok true
  | dims + 1, i => do
    if (← v.size i) = 1 ∧ (← v.stride i) = 0 then return false
    if (← v.stride i) ≠ (← v.size (i + 1)) * (← v.stride (i + 1)) then return false
    v.isMergeableFrom dims (i + 1)

/-- `IsMergeable`. -/
def isMergeable (v : TensorView) (dimStart dimEnd : Size) : Except Fault Bool :=
  if dimStart = dimEnd then .ok true
  else v.isMergeableFrom (dimEnd.toNat - dimStart.toNat) dimStart

/-- `IsContiguous`. -/
def isContiguous (v : TensorView) : Except Fault Bool := do
  if v.ndim = 0 then return true
  if ¬ (← v.isMergeable 0 (v.ndim - 1)) then return false
  return decide ((← v.stride (v.ndim - 1)) = 1)

end TensorView

end InfiniRT.Tensor
