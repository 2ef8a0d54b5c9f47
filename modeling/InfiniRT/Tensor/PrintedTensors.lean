import InfiniRT.Tensor.PrintedScalars

/-!
# What the text of a tensor shows

`ToString` writes the elements in nested brackets, the data type and the device.  The text is
unambiguous: two tensors have the same text exactly if they have the same shape, data type and
device, and show the same scalar for every index.  Of the strides and the address nothing can be
seen.  Proved:

* **`readable_of_ok`** — a tensor has a text only if every element can be read;
* **`toString_shows`** — two tensors have the same text exactly if they show the same.
-/

namespace InfiniRT.Tensor

open InfiniRT.Library (Fault)
open InfiniRT.Library.Brackets
open InfiniRT.Library.RowMajor (InBox)

/-! ## Names -/

/-- `ConstexprMap`. -/
abbrev ConstexprMap (κ ν : Type) := List (κ × ν)

section ConstexprMap

variable {κ ν : Type} [DecidableEq κ]

/-- `ConstexprMap::at`. -/
def ConstexprMap.atKey : ConstexprMap κ ν → κ → Except Fault ν
  | [], _ => .error .abort
  | pr :: data, key => if pr.1 = key then .ok pr.2 else ConstexprMap.atKey data key

theorem ConstexprMap.atKey_eq_ok_iff {data : ConstexprMap κ ν} (hkeys : (data.map Prod.fst).Nodup)
    {key : κ} {value : ν} : data.atKey key = .ok value ↔ (key, value) ∈ data := by
  induction data with
  | nil =>
    constructor
    · intro h
      cases h
    · exact fun h => absurd h List.not_mem_nil
  | cons pr data ih =>
    obtain ⟨hnew, hrest⟩ := List.nodup_cons.mp hkeys
    rw [ConstexprMap.atKey, List.mem_cons]
    by_cases hkey : pr.1 = key
    · rw [if_pos hkey]
      constructor
      · intro h
        cases h
        exact .inl (Prod.ext hkey.symm rfl)
      · rintro (h | h)
        · rw [← h]
        · exact absurd (List.mem_map_of_mem h) (hkey ▸ hnew)
    · rw [if_neg hkey, ih hrest]
      constructor
      · exact .inr
      · rintro (h | h)
        · exact absurd (congrArg Prod.fst h).symm hkey
        · exact h

/-- Two tables of the same pairs, read in the two directions. -/
theorem ConstexprMap.atKey_swap [DecidableEq ν] (data : ConstexprMap κ ν)
    (hkeys : (data.map Prod.fst).Nodup)
    (hvalues : (data.map Prod.snd).Nodup) {key : κ} {value : ν} :
    ConstexprMap.atKey (data.map Prod.swap) value = .ok key ↔ data.atKey key = .ok value := by
  have hswap : ((data.map Prod.swap).map Prod.fst).Nodup := by
    rw [List.map_map]
    exact hvalues
  rw [atKey_eq_ok_iff hswap, atKey_eq_ok_iff hkeys]
  show Prod.swap (key, value) ∈ data.map Prod.swap ↔ _
  exact List.mem_map_of_injective Prod.swap_injective

end ConstexprMap

/-- `kDeviceToDesc`. -/
def deviceToDesc : ConstexprMap DeviceType String :=
  [(.cpu, "cpu"), (.nvidia, "nvidia"), (.cambricon, "cambricon"), (.ascend, "ascend"),
    (.metax, "metax"), (.moore, "moore"), (.iluvatar, "iluvatar"), (.hygon, "hygon"),
    (.thead, "thead"), (.mars, "mars")]

/-- `kDescToDevice`. -/
def descToDevice : ConstexprMap String DeviceType :=
  [("cpu", .cpu), ("nvidia", .nvidia), ("cambricon", .cambricon), ("ascend", .ascend),
    ("metax", .metax), ("moore", .moore), ("iluvatar", .iluvatar), ("hygon", .hygon),
    ("thead", .thead), ("mars", .mars)]

/-- `kDataTypeToDesc`. -/
def dataTypeToDesc : ConstexprMap DataType String :=
  [(.int8, "int8"), (.int16, "int16"), (.int32, "int32"), (.int64, "int64"), (.uint8, "uint8"),
    (.uint16, "uint16"), (.uint32, "uint32"), (.uint64, "uint64"), (.float16, "float16"),
    (.bfloat16, "bfloat16"), (.float32, "float32"), (.float64, "float64"), (.bool, "bool")]

/-- `kStringToDataType`. -/
def stringToDataType : ConstexprMap String DataType :=
  [("int8", .int8), ("int16", .int16), ("int32", .int32), ("int64", .int64), ("uint8", .uint8),
    ("uint16", .uint16), ("uint32", .uint32), ("uint64", .uint64), ("float16", .float16),
    ("bfloat16", .bfloat16), ("float32", .float32), ("float64", .float64), ("bool", .bool)]

/-- `StringFromType`. -/
def stringFromType (type : DeviceType) : Except Fault String := deviceToDesc.atKey type

/-- `TypeFromString`. -/
def typeFromString (name : String) : Except Fault DeviceType := descToDevice.atKey name

theorem typeFromString_eq_ok_iff {name : String} {type : DeviceType} :
    typeFromString name = .ok type ↔ stringFromType type = .ok name :=
  ConstexprMap.atKey_swap deviceToDesc (by decide) (by decide)

theorem stringToDataType_eq_ok_iff {name : String} {dtype : DataType} :
    stringToDataType.atKey name = .ok dtype ↔ dataTypeToDesc.atKey dtype = .ok name :=
  ConstexprMap.atKey_swap dataTypeToDesc (by decide) (by decide)

/-- `Device::ToString`. -/
def Device.toString (device : Device) : Except Fault (List Char) := do
  return (← stringFromType device.type).toList ++ ':' :: toStringInt device.index

namespace TensorView

/-- `"tensor("`. -/
def tensorStart : List Char := ['t', 'e', 'n', 's', 'o', 'r', '(']

/-- `", dtype="`. -/
def dtypeStart : List Char := [',', ' ', 'd', 't', 'y', 'p', 'e', '=']

/-- `", device='"`. -/
def deviceStart : List Char := [',', ' ', 'd', 'e', 'v', 'i', 'c', 'e', '=', '\'']

/-- `"')"`. -/
def tensorEnd : List Char := ['\'', ')']

/-- `ToString`. -/
def toString (v : TensorView) (m : Bytes) : Except Fault (List Char) := do
  let text ← v.toStringHelper m
  let dtype ← dataTypeToDesc.atKey v.dtype
  let device ← v.device.toString
  return tensorStart ++
    (text ++ (dtypeStart ++ (dtype.toList ++ (deviceStart ++ (device ++ tensorEnd)))))

/-- The bits of an element. -/
def elementBits (v : TensorView) (m : Bytes) (is : List ℕ) : Option ℕ := do
  let p ← elementAddress v.elementSize v.strides v.data is
  (load m p v.elementSize.toNat).toOption

/-- What the text shows of an element. -/
def shown (v : TensorView) (m : Bytes) (is : List ℕ) : Option PrintedScalar :=
  (v.elementBits m is).bind (printedScalar v.dtype)

variable {v w : TensorView} {m : Bytes} {s : List Char} {i n rank : ℕ}

/-! ## Tensors that have a text -/

theorem appendAll_inv {child : Index → Except Fault (List Char)} {result : List Char}
    (hrun : appendAll child n (BitVec.ofNat 64 i) result = .ok s) :
    ∀ k, i ≤ k → k < i + n →
      BitVec.ofNat 64 k ≠ indexMax ∧ ∃ text, child (BitVec.ofNat 64 k) = .ok text := by
  induction n generalizing i result with
  | zero =>
    intro k hle hlt
    omega
  | succ n ih =>
    obtain ⟨text, htext⟩ : ∃ text, child (BitVec.ofNat 64 i) = .ok text := by
      rw [appendAll] at hrun
      obtain ⟨text, htext, -⟩ := exists_of_bind_ok hrun
      exact ⟨text, htext⟩
    rw [@appendAll_succ child (fun _ => text) i n htext] at hrun
    by_cases hmax : BitVec.ofNat 64 i = indexMax
    · rw [if_pos hmax] at hrun
      cases hrun
    · rw [if_neg hmax] at hrun
      intro k hle hlt
      rcases Nat.eq_or_lt_of_le hle with rfl | hlt'
      · exact ⟨hmax, text, htext⟩
      · exact ih hrun k hlt' (by omega)

/-- The loop of a tensor that has a text. -/
theorem children_of_ok {size : Size} {shape : List Size} (hshape : v.shape = size :: shape)
    (hrun : toStringHelperOfRank m (rank + 1) v = .ok s) : size ≠ 0 ∧ size.toNat < 2 ^ 63 ∧
      ∀ i, i < size.toNat → ∃ stride w text, v.IsSub w size stride i ∧
        toStringHelperOfRank m rank w = .ok text := by
  rw [toStringHelperOfRank, hshape, element_of_getElem? (i := 0) rfl, ok_bind] at hrun
  obtain ⟨result, hloop, hclose⟩ := exists_of_bind_ok hrun
  have hchild := appendAll_inv (i := 0) hloop
  have hlt : size.toNat < 2 ^ 63 := by
    by_contra hge
    exact (hchild (2 ^ 63 - 1) (Nat.zero_le _) (by omega)).1 rfl
  refine ⟨fun hzero => ?_, hlt, fun i hi => ?_⟩
  · rw [hzero] at hloop
    cases hloop
    cases hclose
  · obtain ⟨-, text, htext⟩ := hchild i (Nat.zero_le _) (by omega)
    obtain ⟨w, hw, htext⟩ := exists_of_bind_ok htext
    cases hstrides : v.strides with
    | nil =>
      rw [index_of_strides_nil hshape hstrides] at hw
      cases hw
    | cons stride strides =>
      obtain ⟨w', hw', hsub⟩ := exists_isSub hshape hstrides (hi.trans hlt)
      rw [hw] at hw'
      cases hw'
      exact ⟨stride, w, text, hsub, htext⟩

theorem IsSub.elementAddress_eq {size : Size} {stride : Stride} (h : v.IsSub w size stride i)
    (is : List ℕ) : elementAddress v.elementSize v.strides v.data (i :: is) =
      elementAddress w.elementSize w.strides w.data is := by
  rw [h.strides, elementAddress, ← h.data, h.elementSize_eq]

/-- **A tensor has a text only if every element can be read**, none of its dimensions is empty, and
the counter can pass each of them. -/
theorem readable_of_ok (hrank : v.shape.length = rank)
    (hrun : toStringHelperOfRank m rank v = .ok s) :
    (toStringCase v.dtype).isSome ∧ v.Readable m ∧ Countable v.shape := by
  induction rank generalizing v s with
  | zero =>
    have hshape := List.length_eq_zero_iff.mp hrank
    rw [toStringHelperOfRank, scalarToString] at hrun
    cases hcase : toStringCase v.dtype with
    | none =>
      rw [hcase] at hrun
      cases hrun
    | some text =>
      rw [hcase] at hrun
      obtain ⟨bits, hbits, -⟩ := exists_of_bind_ok hrun
      refine ⟨rfl, fun is his => ?_, fun size hsize => ?_⟩
      · rw [sizes, hshape] at his
        cases his
        exact ⟨v.data, bits, by cases v.strides <;> rfl, hbits⟩
      · rw [hshape] at hsize
        cases hsize
  | succ rank ih =>
    obtain ⟨size, shape, hshape⟩ := List.exists_cons_of_length_eq_add_one hrank
    obtain ⟨hne, hlt, hchildren⟩ := children_of_ok hshape hrun
    have hsub : ∀ {w : TensorView} {stride : Stride} {i : ℕ}, v.IsSub w size stride i →
        w.shape.length = rank := by
      intro w stride i hw
      rw [hw.shape] at hrank
      exact Nat.succ.inj hrank
    have hpos : 0 < size.toNat := Nat.pos_of_ne_zero fun hzero => hne (BitVec.eq_of_toNat_eq hzero)
    obtain ⟨stride, w, text, hw, htext⟩ := hchildren 0 hpos
    obtain ⟨hdtype, -, hcount⟩ := ih (hsub hw) htext
    refine ⟨hw.dtype ▸ hdtype, fun is his => ?_, fun size' hsize' => ?_⟩
    · rw [sizes, hshape, List.map_cons] at his
      cases his with
      | cons hi his =>
        obtain ⟨stride, w, text, hw, htext⟩ := hchildren _ hi
        have hshape' := hw.shape_eq hshape
        obtain ⟨p, bits, hp, hbits⟩ := (ih (hsub hw) htext).2.1 _ (by rwa [sizes, hshape'])
        exact ⟨p, bits, hw.elementAddress_eq _ ▸ hp, hw.elementSize_eq ▸ hbits⟩
    · rw [hw.shape, List.mem_cons] at hsize'
      rcases hsize' with rfl | hsize'
      · exact ⟨hne, hlt⟩
      · exact hcount size' hsize'

/-! ## The elements in brackets -/

/-- The marks of `ToStringHelper`. -/
def brackets : Marks Char where
  opening := '['
  closing := ']'
  comma := ','
  space := [' ']
  closing_ne_comma := by decide

theorem renderingOf_eq_nested (text : Pointer → List Char) (elementSize : Size) {shape : List Size}
    {strides : List Stride} (hlength : shape.length ≤ strides.length) (p : Pointer) :
    renderingOf text elementSize shape strides p = brackets.nested (shape.map BitVec.toNat)
      fun is => (elementAddress elementSize strides p is).elim [] text := by
  induction shape generalizing strides p with
  | nil =>
    rw [renderingOf_nil]
    cases strides <;> rfl
  | cons size shape ih =>
    cases strides with
    | nil => cases hlength
    | cons stride strides =>
      have hparts : ∀ p, renderingOf text elementSize shape strides p = _ := fun p =>
        ih (Nat.le_of_succ_le_succ hlength) p
      simp only [renderingOf, hparts]
      rfl

/-- A readable tensor that has elements has a stride for every dimension. -/
theorem Readable.length_le (hread : v.Readable m) (hcount : Countable v.shape) :
    v.shape.length ≤ v.strides.length := by
  induction hshape : v.shape generalizing v with
  | nil => exact Nat.zero_le _
  | cons size shape ih =>
    obtain ⟨stride, strides, hstrides⟩ := hread.exists_strides hshape hcount
    obtain ⟨hne, hlt⟩ := hcount size (hshape ▸ List.mem_cons_self)
    have hpos : 0 < size.toNat := Nat.pos_of_ne_zero fun hzero => hne (BitVec.eq_of_toNat_eq hzero)
    obtain ⟨w, -, hw⟩ := exists_isSub (i := 0) hshape hstrides (by decide)
    have hshape' := hw.shape_eq hshape
    have hrest := ih (hw.readable hpos hread)
      (fun size' hsize' => hcount size' (hw.shape ▸ List.mem_cons_of_mem _ hsize')) hshape'
    rw [hw.strides, List.length_cons, List.length_cons]
    omega

/-- The text of an element is the text of what is shown of it. -/
theorem exists_shown (hdtype : (toStringCase v.dtype).isSome) (hread : v.Readable m) {is : List ℕ}
    (his : InBox v.sizes is) : ∃ x, v.shown m is = some x ∧
      (elementAddress v.elementSize v.strides v.data is).elim [] (v.scalarText m) = x.text := by
  obtain ⟨p, bits, hp, hbits⟩ := hread is his
  obtain ⟨text, htext⟩ := Option.isSome_iff_exists.mp hdtype
  obtain ⟨x, hx, hsame⟩ := toStringCase_eq htext bits
  refine ⟨x, ?_, ?_⟩
  · rw [shown, elementBits, hp, Option.bind_eq_bind, Option.bind_some, hbits]
    exact hx
  · rw [hp, Option.elim_some, scalarText, htext, hbits]
    exact hsame

theorem plain_text (x : PrintedScalar) : brackets.Plain x.text := by
  have hmark : ∀ c, ¬ (c = '-' ∨ Magnitude.IsBody c) → c ∉ x.text := by
    intro c hc hmem
    exact hc (PrintedScalar.of_mem_text hmem)
  obtain ⟨-, hopening, hclosing, hcomma⟩ := Magnitude.not_isBody_of_mark
  refine ⟨x.text_ne_nil, hmark _ ?_, hmark _ ?_, hmark _ ?_⟩
  · exact not_or.mpr ⟨by decide, hopening⟩
  · exact not_or.mpr ⟨by decide, hclosing⟩
  · exact not_or.mpr ⟨by decide, hcomma⟩

/-- What `ToStringHelper` returns. -/
theorem toStringHelper_eq_nested (hrun : v.toStringHelper m = .ok s) :
    s = brackets.nested v.sizes (fun is => ((v.shown m is).map PrintedScalar.text).getD []) ∧
      (∀ n ∈ v.sizes, 0 < n) ∧ ∀ is, InBox v.sizes is → ∃ x, v.shown m is = some x := by
  obtain ⟨hdtype, hread, hcount⟩ := readable_of_ok rfl hrun
  have hshown : ∀ is, InBox v.sizes is → ∃ x, v.shown m is = some x := by
    intro is his
    obtain ⟨x, hx, -⟩ := exists_shown hdtype hread his
    exact ⟨x, hx⟩
  refine ⟨?_, fun n hn => ?_, hshown⟩
  · rw [toStringHelper, toStringHelperOfRank_eq rfl hdtype hread hcount] at hrun
    cases hrun
    rw [rendering, renderingOf_eq_nested _ _ (hread.length_le hcount), ← sizes]
    apply Marks.nested_congr
    intro is his
    obtain ⟨x, hx, htext⟩ := exists_shown hdtype hread his
    rw [htext, hx]
    rfl
  · obtain ⟨size, hsize, rfl⟩ := List.mem_map.mp hn
    exact Nat.pos_of_ne_zero fun hzero => (hcount size hsize).1 (BitVec.eq_of_toNat_eq hzero)

end TensorView

/-! ## The frame -/

theorem stringFromType_injective {type type' : DeviceType} {name : String}
    (h : stringFromType type = .ok name) (h' : stringFromType type' = .ok name) : type = type' := by
  rw [← typeFromString_eq_ok_iff] at h h'
  exact Except.ok.inj (h.symm.trans h')

theorem dataTypeToDesc_injective {dtype dtype' : DataType} {name : String}
    (h : dataTypeToDesc.atKey dtype = .ok name) (h' : dataTypeToDesc.atKey dtype' = .ok name) :
    dtype = dtype' := by
  rw [← stringToDataType_eq_ok_iff] at h h'
  exact Except.ok.inj (h.symm.trans h')

theorem colon_notMem_of_stringFromType {type : DeviceType} {name : String}
    (h : stringFromType type = .ok name) : ∀ c ∈ name.toList, ¬ c = ':' := by
  have hname : ':' ∉ name.toList := by cases type <;> cases h <;> decide
  intro c hc heq
  exact hname (heq ▸ hc)

theorem comma_notMem_of_dataTypeToDesc {dtype : DataType} {name : String}
    (h : dataTypeToDesc.atKey dtype = .ok name) : ∀ c ∈ name.toList, ¬ c = ',' := by
  have hname : ',' ∉ name.toList := by cases dtype <;> cases h <;> decide
  intro c hc heq
  exact hname (heq ▸ hc)

theorem Device.toString_injective {device device' : Device} {text : List Char}
    (h : device.toString = .ok text) (h' : device'.toString = .ok text) : device = device' := by
  obtain ⟨name, hname, htext⟩ := exists_of_bind_ok h
  obtain ⟨name', hname', htext'⟩ := exists_of_bind_ok h'
  have hsame : name.toList ++ ':' :: toStringInt device.index =
      name'.toList ++ ':' :: toStringInt device'.index :=
    (Except.ok.inj htext).trans (Except.ok.inj htext').symm
  obtain ⟨hnames, hrest⟩ := append_inj_of_head (colon_notMem_of_stringFromType hname)
    (colon_notMem_of_stringFromType hname') (fun c hc => (Option.mem_some_iff.mp hc).symm)
    (fun c hc => (Option.mem_some_iff.mp hc).symm) hsame
  obtain rfl := String.toList_injective hnames
  have htype := stringFromType_injective hname hname'
  have hindex := (List.cons.inj hrest).2
  rw [toStringInt_eq, toStringInt_eq] at hindex
  have hindex' := printedInt_injective (PrintedScalar.text_injective hindex)
  cases device
  cases device'
  exact congrArg₂ Device.mk htype hindex'

namespace TensorView

variable {v v' : TensorView} {m m' : Bytes} {s s' : List Char}

theorem toString_inv (h : v.toString m = .ok s) : ∃ text dtype device,
    v.toStringHelper m = .ok text ∧ dataTypeToDesc.atKey v.dtype = .ok dtype ∧
      v.device.toString = .ok device ∧
      s = tensorStart ++
        (text ++ (dtypeStart ++ (dtype.toList ++ (deviceStart ++ (device ++ tensorEnd))))) := by
  obtain ⟨text, htext, h⟩ := exists_of_bind_ok h
  obtain ⟨dtype, hdtype, h⟩ := exists_of_bind_ok h
  obtain ⟨device, hdevice, h⟩ := exists_of_bind_ok h
  exact ⟨text, dtype, device, htext, hdtype, hdevice, (Except.ok.inj h).symm⟩

theorem shape_eq_of_sizes_eq (h : v.sizes = v'.sizes) : v.shape = v'.shape :=
  List.map_injective_iff.mpr (fun _ _ => BitVec.eq_of_toNat_eq) h

theorem toString_eq_iff (h : v.toString m = .ok s) (h' : v'.toString m' = .ok s') :
    s = s' ↔ v.shape = v'.shape ∧ v.dtype = v'.dtype ∧ v.device = v'.device ∧
      ∀ is, InBox v.sizes is → v.shown m is = v'.shown m' is := by
  obtain ⟨text, dtype, device, htext, hdtype, hdevice, rfl⟩ := toString_inv h
  obtain ⟨text', dtype', device', htext', hdtype', hdevice', rfl⟩ := toString_inv h'
  obtain ⟨rfl, hpos, hshown⟩ := toStringHelper_eq_nested htext
  obtain ⟨rfl, hpos', hshown'⟩ := toStringHelper_eq_nested htext'
  constructor
  · intro hsame
    have hplain : ∀ is, InBox v.sizes is →
        brackets.Plain (((v.shown m is).map PrintedScalar.text).getD []) := by
      intro is his
      obtain ⟨x, hx⟩ := hshown is his
      rw [hx]
      exact plain_text x
    have hplain' : ∀ is, InBox v'.sizes is →
        brackets.Plain (((v'.shown m' is).map PrintedScalar.text).getD []) := by
      intro is his
      obtain ⟨x, hx⟩ := hshown' is his
      rw [hx]
      exact plain_text x
    obtain ⟨hsizes, hleaves, hrest⟩ := Marks.nested_append_inj hpos hpos' hplain hplain'
      Marks.stops_comma Marks.stops_comma (List.append_cancel_left hsame)
    have hdtypes : dtypeStart ++ _ = dtypeStart ++ _ := hrest
    obtain ⟨hnames, hdevices⟩ := append_inj_of_head (comma_notMem_of_dataTypeToDesc hdtype)
      (comma_notMem_of_dataTypeToDesc hdtype') (fun c hc => (Option.mem_some_iff.mp hc).symm)
      (fun c hc => (Option.mem_some_iff.mp hc).symm) (List.append_cancel_left hdtypes)
    obtain rfl := String.toList_injective hnames
    obtain rfl := List.append_cancel_right (List.append_cancel_left hdevices)
    refine ⟨shape_eq_of_sizes_eq hsizes, dataTypeToDesc_injective hdtype hdtype',
      Device.toString_injective hdevice hdevice', fun is his => ?_⟩
    obtain ⟨x, hx⟩ := hshown is his
    obtain ⟨x', hx'⟩ := hshown' is (hsizes ▸ his)
    have hleaf := hleaves is his
    rw [hx, hx'] at hleaf ⊢
    exact congrArg some (PrintedScalar.text_injective hleaf)
  · rintro ⟨hshape, hdt, hdev, hsame⟩
    rw [hdt, hdtype'] at hdtype
    rw [hdev, hdevice'] at hdevice
    cases hdtype
    cases hdevice
    have hsizes : v.sizes = v'.sizes := congrArg (List.map BitVec.toNat) hshape
    rw [← hsizes, Marks.nested_congr fun is his => by rw [hsame is his]]

theorem load_lt {p : Pointer} {n bits : ℕ} (h : load m p n = .ok bits) : bits < 2 ^ (8 * n) := by
  induction n generalizing p bits with
  | zero =>
    cases h
    exact Nat.one_pos
  | succ n ih =>
    rw [load] at h
    obtain ⟨high, hhigh, h⟩ := exists_of_bind_ok h
    have hlt := ih hhigh
    cases hlow : m p with
    | none =>
      rw [hlow] at h
      cases h
    | some low =>
      rw [hlow] at h
      cases h
      have hlow := low.isLt
      have hpow : 2 ^ (8 * (n + 1)) = 2 ^ 8 * 2 ^ (8 * n) := by rw [← pow_add]; congr 1; omega
      omega

theorem elementBits_lt {is : List ℕ} {bits : ℕ} (h : v.elementBits m is = some bits) :
    bits < 2 ^ (8 * v.elementSize.toNat) := by
  obtain ⟨p, -, hload⟩ := Option.bind_eq_some_iff.mp h
  cases hbits : load m p v.elementSize.toNat with
  | error e =>
    rw [hbits] at hload
    cases hload
  | ok bits' =>
    rw [hbits] at hload
    cases hload
    exact load_lt hbits

/-- An integer is shown in full. -/
theorem printedScalar_injective {dtype : DataType} (hdtype : dtype ∈ allIntTypes) {bits bits' : ℕ}
    (hbits : bits < 2 ^ (8 * (dataTypeToSize dtype).toNat))
    (hbits' : bits' < 2 ^ (8 * (dataTypeToSize dtype).toNat))
    (h : printedScalar dtype bits = printedScalar dtype bits') : bits = bits' := by
  have hsigned : ∀ w, bits < 2 ^ w → bits' < 2 ^ w →
      some (printedInt (BitVec.ofNat w bits).toInt) =
        some (printedInt (BitVec.ofNat w bits').toInt) →
        bits = bits' := by
    intro w hbits hbits' h
    have hword := BitVec.eq_of_toInt_eq (printedInt_injective (Option.some.inj h))
    have hnat := congrArg BitVec.toNat hword
    rwa [BitVec.toNat_ofNat, BitVec.toNat_ofNat, Nat.mod_eq_of_lt hbits,
      Nat.mod_eq_of_lt hbits'] at hnat
  have hunsigned : some (printedInt bits) = some (printedInt bits') → bits = bits' := by
    intro h
    exact Int.natCast_inj.mp (printedInt_injective (Option.some.inj h))
  cases dtype
  case int8 => exact hsigned 8 hbits hbits' h
  case int16 => exact hsigned 16 hbits hbits' h
  case int32 => exact hsigned 32 hbits hbits' h
  case int64 => exact hsigned 64 hbits hbits' h
  case uint8 => exact hunsigned h
  case uint16 => exact hunsigned h
  case uint32 => exact hunsigned h
  case uint64 => exact hunsigned h
  all_goals exact absurd hdtype (by decide)

/-- **The text shows the tensor.**  Two tensors have the same text exactly if they agree in shape,
data type and device, and in what is shown of every element; of an integer this is every bit. -/
theorem toString_shows (h : v.toString m = .ok s) (h' : v'.toString m' = .ok s') :
    (s = s' ↔ v.shape = v'.shape ∧ v.dtype = v'.dtype ∧ v.device = v'.device ∧
      ∀ is, InBox v.sizes is → v.shown m is = v'.shown m' is) ∧
    (s = s' → v.dtype ∈ allIntTypes →
      ∀ is, InBox v.sizes is → v.elementBits m is = v'.elementBits m' is) := by
  refine ⟨toString_eq_iff h h', fun hsame hdtype is his => ?_⟩
  obtain ⟨-, hdt, -, hshown⟩ := (toString_eq_iff h h').mp hsame
  obtain ⟨text, -, -, htext, -⟩ := toString_inv h
  obtain ⟨x, hx⟩ := (toStringHelper_eq_nested htext).2.2 is his
  have hx' := hshown is his
  rw [hx] at hx'
  obtain ⟨bits, hbits, hprint⟩ := Option.bind_eq_some_iff.mp hx
  obtain ⟨bits', hbits', hprint'⟩ := Option.bind_eq_some_iff.mp hx'.symm
  have hlt' := elementBits_lt hbits'
  rw [elementSize, ← hdt] at hlt'
  rw [← hdt] at hprint'
  rw [hbits, hbits', printedScalar_injective hdtype (elementBits_lt hbits) hlt'
    (hprint.trans hprint'.symm)]

/-- The bytes of `pair` from right to left. -/
def pairBackwards : TensorView where
  data := 1
  shape := [2]
  strides := [-1]
  dtype := .uint8
  device := {}
  shape_lt := pair.shape_lt
  strides_lt := pair.strides_lt

theorem toString_shows_pair :
    pair.toString (fun p => some (p.setWidth 8 + 7)) =
      .ok "tensor([7, 8], dtype=uint8, device='cpu:0')".toList ∧
    ∀ is, InBox pair.sizes is → pair.elementBits (fun p => some (p.setWidth 8 + 7)) is =
      pairBackwards.elementBits (fun p => some (8 - p.setWidth 8)) is := by
  have htext : pair.toString (fun p => some (p.setWidth 8 + 7)) =
      .ok "tensor([7, 8], dtype=uint8, device='cpu:0')".toList := by rfl
  have htext' : pairBackwards.toString (fun p => some (8 - p.setWidth 8)) =
      .ok "tensor([7, 8], dtype=uint8, device='cpu:0')".toList := by rfl
  exact ⟨htext, (toString_shows htext htext').2 rfl (by decide)⟩

end TensorView
end InfiniRT.Tensor
