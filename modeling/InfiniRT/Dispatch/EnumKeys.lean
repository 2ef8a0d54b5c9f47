import InfiniRT.Dispatch.DispatcherSteps
import InfiniRT.Library.IntegralTypes
import InfiniRT.Device.Selection

/-!
# Keys of an enumeration

The forms of `DispatchFunc` for `DataType` and `Device::Type`.  A value of an enumeration is any
value of its underlying type.  Where several are dispatched each passes through `std::int64_t`.  A
tag for a data type carries the type it is mapped to on a device, and only a data type that is
mapped can stand in a list.  Proved:

* **`dispatchEnums_resolvesValues`** — several values of an enumeration;
* **`dispatch_resolves`** — all five forms: the call for the values, or an abort.
-/

namespace InfiniRT.Dispatch

open InfiniRT.Library (Action Platform IntegralType Constant)
open InfiniRT.Tensor (DataType DeviceType)
open InfiniRT.Device (RawType)

/-! ### Data types and the types they are mapped to -/

/-- The types that data types are mapped to, under the names they are given. -/
inductive CppType
  | uint8
  | bool
  | int8
  | uint16
  | int16
  | uint32
  | int32
  | uint64
  | int64
  | float
  | double
  /-- `infini::rt::Float16`. -/
  | float16
  /-- `infini::rt::BFloat16`. -/
  | bfloat16
  /-- `half`. -/
  | half
  /-- `__half`. -/
  | underscoredHalf
  /-- `__nv_bfloat16`. -/
  | nvBFloat16
  /-- `__mt_bfloat16`. -/
  | mtBFloat16
  /-- `__hpcc_bfloat16`. -/
  | hpccBFloat16
  /-- `__maca_bfloat16`. -/
  | macaBFloat16
  deriving DecidableEq, Repr

/-- The specializations of `TypeMap`. -/
def typeMap : DeviceType → DataType → Option CppType
  | _, .uint8 => some .uint8
  | _, .bool => some .bool
  | _, .int8 => some .int8
  | _, .uint16 => some .uint16
  | _, .int16 => some .int16
  | _, .uint32 => some .uint32
  | _, .int32 => some .int32
  | _, .uint64 => some .uint64
  | _, .int64 => some .int64
  | _, .float32 => some .float
  | _, .float64 => some .double
  | .cpu, .float16 | .cambricon, .float16 => some .float16
  | .cpu, .bfloat16 | .cambricon, .bfloat16 => some .bfloat16
  | .nvidia, .float16 | .iluvatar, .float16 | .hygon, .float16 | .thead, .float16 => some .half
  | .nvidia, .bfloat16 | .iluvatar, .bfloat16 | .hygon, .bfloat16 | .thead, .bfloat16 =>
    some .nvBFloat16
  | .moore, .float16 => some .half
  | .moore, .bfloat16 => some .mtBFloat16
  | .mars, .float16 => some .underscoredHalf
  | .mars, .bfloat16 => some .hpccBFloat16
  | .metax, .float16 => some .underscoredHalf
  | .metax, .bfloat16 => some .macaBFloat16
  | .ascend, .float16 | .ascend, .bfloat16 => none

/-- The value of an enumerator of `DataType`. -/
def dataTypeValue : DataType → BitVec 8
  | .int8 => 0#8
  | .int16 => 1#8
  | .int32 => 2#8
  | .int64 => 3#8
  | .uint8 => 4#8
  | .uint16 => 5#8
  | .uint32 => 6#8
  | .uint64 => 7#8
  | .float16 => 8#8
  | .bfloat16 => 9#8
  | .float32 => 10#8
  | .float64 => 11#8
  | .bool => 12#8

theorem dataTypeValue_injective : Function.Injective dataTypeValue := by
  intro d d' h
  cases d <;> cases d' <;> first | rfl | cases h

/-- A data type for which `TypeMapType<kDev, dtype>` is a type. -/
structure MappedDataType (kDev : DeviceType) where
  dtype : DataType
  mapped : (typeMap kDev dtype).isSome = true
  deriving DecidableEq

namespace MappedDataType

variable {kDev : DeviceType}

/-- `TypeMapType`. -/
def type (m : MappedDataType kDev) : CppType := (typeMap kDev m.dtype).get m.mapped

def value (m : MappedDataType kDev) : BitVec 8 := dataTypeValue m.dtype

theorem value_injective : Function.Injective (value : MappedDataType kDev → BitVec 8) := by
  rintro ⟨d, hd⟩ ⟨d', hd'⟩ h
  obtain rfl : d = d' := dataTypeValue_injective h
  rfl

end MappedDataType

/-! ### One or several values of an enumeration -/

section

variable {I J K τ R σ ε : Type} {w : ℕ}

/-- The allowed values of one dimension. -/
structure AllowedList (I : Type) where
  items : List I
  items_ne_nil : items ≠ []

/-- An enumeration whose underlying type is signed and has `w` bits. -/
def enumType (ofItem : I → BitVec w) (h : Function.Injective ofItem) : ValueType I (BitVec w) where
  ofItem := ofItem
  ofItem_injective := h
  toInt v := v.toInt
  toInt64 v := v.toInt

/-- `static_cast<std::int64_t>(d)`. -/
def enumKey (d : BitVec w) : Key := d.signExtend 64

/-- The dimension: `static_cast<EnumType>` keeps the low bits of a key. -/
def AllowedList.dimension (w : ℕ) (L : AllowedList I) : Dimension I (BitVec w) where
  cast key := key.setWidth w
  allowed := L.items
  allowed_ne_nil := L.items_ne_nil

/-- An adapter calls the functor with another tag.  It can itself be called with every tag: a tag
which the functor cannot be called with is an error in its body. -/
def adapter (tag : J → K) (func : TagFunctor K τ (Action σ (Failure ε) R)) :
    TagFunctor J τ (Action σ (Failure ε) R) where
  isInvocable _ := true
  returnType j := func.returnType (tag j)
  call j := func.call (tag j)

variable [DecidableEq I] [DecidableEq τ]

/-- The values are cast to keys, and the keys are dispatched. -/
def dispatchEnums (C : ReturnTypes τ R) (T : ValueType I (BitVec w))
    (func : TagFunctor (List I) τ (Action σ (Failure ε) R)) (context : String)
    (lists : List (AllowedList I × BitVec w)) : Action σ (Failure ε) R :=
  multiDispatch C T func context (lists.map fun l => enumKey l.2) 0
    (lists.map fun l => l.1.dimension w) []

end

/-! ### `DataType` and `Device::Type` -/

section

variable {τ R σ ε : Type} [DecidableEq τ]

/-- `DataType`. -/
def dataTypes (kDev : DeviceType) : ValueType (MappedDataType kDev) (BitVec 8) :=
  enumType MappedDataType.value MappedDataType.value_injective

/-- `Device::Type`. -/
def deviceTypes : ValueType RawType RawType := enumType id Function.injective_id

/-- `DispatchFunc<kDev, allowed_dtypes...>(dtype, ...)`, with `DataTypeAdapter`. -/
def dispatchDataType (C : ReturnTypes τ R) (kDev : DeviceType)
    (func : TagFunctor CppType τ (Action σ (Failure ε) R)) (context : String)
    (allowed : List (MappedDataType kDev)) (dtype : BitVec 8) : Action σ (Failure ε) R :=
  dispatchFunc C (dataTypes kDev) dtype (adapter MappedDataType.type func) context allowed

/-- `DispatchFunc<kDev, Lists...>(dtypes, ...)`, with `DataTypeMultiAdapter`. -/
def dispatchDataTypes (C : ReturnTypes τ R) (kDev : DeviceType)
    (func : TagFunctor (List CppType) τ (Action σ (Failure ε) R)) (context : String)
    (lists : List (AllowedList (MappedDataType kDev) × BitVec 8)) : Action σ (Failure ε) R :=
  dispatchEnums C (dataTypes kDev) (adapter (List.map MappedDataType.type) func) context lists

/-- `DispatchFunc<allowed_devices...>(device, ...)`, with `DeviceAdapter`. -/
def dispatchDevice (C : ReturnTypes τ R) (func : TagFunctor RawType τ (Action σ (Failure ε) R))
    (context : String) (allowed : List RawType) (device : RawType) : Action σ (Failure ε) R :=
  dispatchFunc C deviceTypes device (adapter id func) context allowed

/-- `DispatchFunc<Lists...>(devices, ...)`, with `DeviceMultiAdapter`. -/
def dispatchDevices (C : ReturnTypes τ R)
    (func : TagFunctor (List RawType) τ (Action σ (Failure ε) R)) (context : String)
    (lists : List (AllowedList RawType × RawType)) : Action σ (Failure ε) R :=
  dispatchEnums C deviceTypes (adapter id func) context lists

end

/-! ### One value is resolved -/

section

variable {I V K τ R σ ε : Type} [DecidableEq I] [DecidableEq V] [DecidableEq τ]
  {C : ReturnTypes τ R} {T : ValueType I V} {func : TagFunctor K τ (Action σ ε R)} {tag : I → K}
  {isInvocable : I → Bool} {returnType : I → τ} {all : List I} {value : V} {context : String}
  {t : τ} {i : I}

/-- A value that is allowed and that the functor can be called with gives one call, with its tag;
any other gives none, and an abort.  The result is converted to the type of the first value that is
left, which changes nothing if the functor returns one type. -/
structure ResolvesValue (C : ReturnTypes τ R) (T : ValueType I V) (isInvocable : I → Bool)
    (all : List I) (value : V) (func : TagFunctor K τ (Action σ ε R)) (tag : I → K)
    (x : Action (Journal K σ) (Failure ε) R) : Prop where
  calls : ∀ i ∈ all, isInvocable i = true → T.ofItem i = value → ∀ s, CallsOnce func (tag i)
    (C.convert (resultType C isInvocable (fun j => func.returnType (tag j)) all)) x s
  unchanged : ∀ t, (∀ k, func.returnType k = t) → ∀ i ∈ all, isInvocable i = true →
    ∀ r, C.typeOf r = t →
      C.convert (resultType C isInvocable (fun j => func.returnType (tag j)) all) r = r
  aborts : (∀ i ∈ all, isInvocable i = true → T.ofItem i ≠ value) → ∀ s, Aborts x s

omit [DecidableEq τ] in
theorem resultType_eq (hreturns : ∀ i, returnType i = t) (hmem : i ∈ all)
    (hi : isInvocable i = true) : resultType C isInvocable returnType all = t := by
  have hkept : i ∈ filter isInvocable [] all := mem_filter.2 ⟨hmem, hi⟩
  rw [resultType]
  rcases hfilter : filter isInvocable [] all with _ | ⟨head, tail⟩
  · rw [hfilter] at hkept
    exact absurd hkept List.not_mem_nil
  · exact hreturns head

/-- The dispatch of one value through an adapter. -/
theorem dispatchFunc_resolvesValue {f : TagFunctor I τ (Action (Journal K σ) (Failure ε) R)}
    (hcall : ∀ i, f.call i = func.noted.call (tag i))
    (hreturns : ∀ i, f.returnType i = func.returnType (tag i)) :
    ResolvesValue C T f.isInvocable all value func tag
      (dispatchFunc C T value f context all) := by
  have htype : f.returnType = fun i => func.returnType (tag i) := funext hreturns
  constructor
  case calls =>
    intro i hmem hi hvalue s
    rw [← htype]
    exact dispatchFunc_callsOnce (hcall i) hmem hi hvalue s
  case unchanged =>
    intro t ht i hmem hi r hr
    rw [resultType_eq (fun j => ht (tag j)) hmem hi, ← hr, C.convert_typeOf]
  case aborts => exact fun hnone s => dispatchFunc_aborts hnone s

end

/-! ### Several values are resolved -/

section

variable {I K τ R σ ε : Type} {w : ℕ} {C : ReturnTypes τ R} {T : ValueType I (BitVec w)}
  {func : TagFunctor K τ (Action σ ε R)} {tag : List I → K} {returnType : List I → τ}
  {lists : List (AllowedList I × BitVec w)} {context : String} {t : τ} {r : R}
  {items resolved : List I}

/-- If each value is allowed there is one call, with their tags in order; if one is not there is
none, and an abort.  The result is converted dimension by dimension, which changes nothing if the
functor returns one type. -/
structure ResolvesValues [DecidableEq I] (C : ReturnTypes τ R) (T : ValueType I (BitVec w))
    (lists : List (AllowedList I × BitVec w)) (func : TagFunctor K τ (Action σ ε R))
    (tag : List I → K) (x : Action (Journal K σ) (Failure ε) R) : Prop where
  calls : ∀ items, List.Forall₂ (fun l i => i ∈ l.1.items ∧ T.ofItem i = l.2) lists items →
    ∀ s, CallsOnce func (tag items) (convertThrough C (fun is => func.returnType (tag is))
      (lists.map fun l => l.1.dimension w) [] items) x s
  unchanged : ∀ t, (∀ k, func.returnType k = t) → ∀ items r, C.typeOf r = t →
    convertThrough C (fun is => func.returnType (tag is))
      (lists.map fun l => l.1.dimension w) [] items r = r
  aborts : (∃ l ∈ lists, ∀ i ∈ l.1.items, T.ofItem i ≠ l.2) → ∀ s, Aborts x s

/-- A value comes back from its key. -/
theorem setWidth_enumKey (hw : w ≤ 64) (d : BitVec w) : (enumKey d).setWidth w = d := by
  apply BitVec.eq_of_getLsbD_eq
  intro i hi
  have hi64 : i < 64 := by omega
  rw [enumKey, BitVec.getLsbD_setWidth, BitVec.getLsbD_signExtend]
  simp only [hi, hi64, decide_true, Bool.true_and, if_true]

variable [DecidableEq I]

theorem multiReturnType_eq (hreturns : ∀ is, returnType is = t)
    (dimensions : List (Dimension I (BitVec w))) (items : List I) :
    multiReturnType C returnType dimensions items = t := by
  induction dimensions generalizing items with
  | nil => exact hreturns items
  | cons dimension rest ih =>
    obtain ⟨i, hi⟩ := List.exists_mem_of_ne_nil _ dimension.allowed_ne_nil
    exact resultType_eq (fun val => ih (items ++ [val])) hi rfl

/-- A functor that returns one type: the result is not changed on its way out. -/
theorem convertThrough_eq (hreturns : ∀ is, returnType is = t) (hr : C.typeOf r = t)
    (dimensions : List (Dimension I (BitVec w))) (items resolved : List I) :
    convertThrough C returnType dimensions items resolved r = r := by
  induction dimensions generalizing items resolved with
  | nil => rfl
  | cons dimension rest ih =>
    cases resolved with
    | nil => rfl
    | cons i resolved =>
      rw [convertThrough, ih, multiReturnType_eq hreturns, ← hr, C.convert_typeOf]

variable [DecidableEq τ]

/-- The dispatch of several values through an adapter. -/
theorem dispatchEnums_resolvesValues (hw : w ≤ 64)
    (lists : List (AllowedList I × BitVec w)) (func : TagFunctor K τ (Action σ ε R))
    (tag : List I → K) :
    ResolvesValues C T lists func tag
      (dispatchEnums C T (adapter tag func.noted) context lists) := by
  constructor
  case calls =>
    intro items h s
    have hcall : (adapter tag func.noted).call items = func.noted.call (tag items) := rfl
    have hresolved := h.imp fun l i hi => And.intro hi.1 (hi.2.trans (setWidth_enumKey hw l.2).symm)
    exact multiDispatch_callsOnce hcall (resolved_map_iff.2 hresolved) s
  case unchanged =>
    exact fun t ht items r hr => convertThrough_eq (fun is => ht (tag is)) hr _ _ _
  case aborts =>
    rintro ⟨l, hl, hnone⟩ s
    refine multiDispatch_aborts ⟨l, hl, fun i hi hvalue => hnone i hi ?_⟩ s
    exact hvalue.trans (setWidth_enumKey hw l.2)

end

/-- Filtering keeps the allowed values the functor can be called with, in the order of their first
occurrence and none twice, and each form of dispatch resolves exactly one tag or list of tags. -/
theorem dispatch_resolves {I V τ R σ ε : Type} [DecidableEq I] [DecidableEq V] [DecidableEq τ]
    (C : ReturnTypes τ R) (context : String) (T : ValueType I V)
    (valueFunc : TagFunctor I τ (Action σ ε R)) (all : List I) (value : V) (kDev : DeviceType)
    (typeFunc : TagFunctor CppType τ (Action σ ε R)) (dtypes : List (MappedDataType kDev))
    (dtype : BitVec 8) (typesFunc : TagFunctor (List CppType) τ (Action σ ε R))
    (dtypeLists : List (AllowedList (MappedDataType kDev) × BitVec 8))
    (deviceFunc : TagFunctor RawType τ (Action σ ε R)) (devices : List RawType) (device : RawType)
    (devicesFunc : TagFunctor (List RawType) τ (Action σ ε R))
    (deviceLists : List (AllowedList RawType × RawType)) :
    ((∀ i, i ∈ filter valueFunc.isInvocable [] all ↔ i ∈ all ∧ valueFunc.isInvocable i = true) ∧
      (filter valueFunc.isInvocable [] all).Pairwise fun a b => all.idxOf a < all.idxOf b) ∧
    ResolvesValue C T valueFunc.isInvocable all value valueFunc id
      (dispatchFunc C T value valueFunc.noted context all) ∧
    ResolvesValue C (dataTypes kDev) (fun _ => true) dtypes dtype typeFunc MappedDataType.type
      (dispatchDataType C kDev typeFunc.noted context dtypes dtype) ∧
    ResolvesValues C (dataTypes kDev) dtypeLists typesFunc (List.map MappedDataType.type)
      (dispatchDataTypes C kDev typesFunc.noted context dtypeLists) ∧
    ResolvesValue C deviceTypes (fun _ => true) devices device deviceFunc id
      (dispatchDevice C deviceFunc.noted context devices device) ∧
    ResolvesValues C deviceTypes deviceLists devicesFunc id
      (dispatchDevices C devicesFunc.noted context deviceLists) :=
  ⟨⟨fun _ => mem_filter, filter_pairwise _ _⟩,
    dispatchFunc_resolvesValue (f := valueFunc.noted) (fun _ => rfl) fun _ => rfl,
    dispatchFunc_resolvesValue (f := adapter MappedDataType.type typeFunc.noted) (fun _ => rfl)
      fun _ => rfl,
    dispatchEnums_resolvesValues (by decide) dtypeLists typesFunc (List.map MappedDataType.type),
    dispatchFunc_resolvesValue (f := adapter id deviceFunc.noted) (fun _ => rfl) fun _ => rfl,
    dispatchEnums_resolvesValues (by decide) deviceLists devicesFunc id⟩

/-! ### A result that is converted -/

/-- Functors that return integers, or nothing. -/
def integralReturns (P : Platform) : ReturnTypes (Option IntegralType) (Option (Constant P)) where
  void := none
  typeOf r := r.map Constant.type
  convert t r := t.map fun T => Constant.ofInt P T ((r.map Constant.value).getD 0)
  convert_typeOf r := by
    cases r with
    | none => rfl
    | some c => exact congrArg some c.ofInt_type_value

/-- The integral type among the types of data. -/
def CppType.integralType : CppType → Option IntegralType
  | .uint8 => some .unsignedChar
  | .bool => some .bool
  | .int8 => some .signedChar
  | .uint16 => some .unsignedShort
  | .int16 => some .short
  | .uint32 => some .unsignedInt
  | .int32 => some .int
  | .uint64 => some .unsignedLong
  | .int64 => some .long
  | _ => none

/-- `[](auto tag) { return static_cast<typename decltype(tag)::type>(300); }`. -/
def threeHundred (P : Platform) :
    TagFunctor CppType (Option IntegralType) (Action Unit Empty (Option (Constant P))) where
  isInvocable _ := true
  returnType T := T.integralType
  call T := pure (T.integralType.map fun T => Constant.ofInt P T 300)

/-- `kInt8` and `kInt16`, in this order. -/
def int8ThenInt16 : List (MappedDataType .cpu) := [⟨.int8, rfl⟩, ⟨.int16, rfl⟩]

/-- `kInt16` is allowed, and the functor returns 300 for it; the dispatch returns 44, which is 300
as an `std::int8_t`. -/
theorem dispatchDataType_converts :
    (⟨.int16, rfl⟩ : MappedDataType .cpu) ∈ int8ThenInt16 ∧
    ¬ CallsOnce (threeHundred ⟨true, true⟩) .int16 (fun r => r)
      (dispatchDataType (integralReturns ⟨true, true⟩) .cpu (threeHundred ⟨true, true⟩).noted ""
        int8ThenInt16 (dataTypeValue .int16)) ⟨[], ()⟩ := by
  refine ⟨by decide, fun h => ?_⟩
  have hvalue : some (44 : ℤ) = some 300 :=
    congrArg (fun y => (y.1.toOption.bind id).map Constant.value) h
  exact absurd hvalue (by decide)

end InfiniRT.Dispatch
