import InfiniRT.Library.RowMajor
import InfiniRT.Tensor.Contiguity

/-!
# `ToStringHelper`

`ToStringHelper` appends the text of every sub-tensor and a separator to an opening bracket, and
then turns the last separator into a closing bracket.  A tensor without sub-tensors has no
separator: what is trimmed is the opening bracket, and the bracket is then written to the end of an
empty string.

A string is a list of characters of any length.  `std::to_string` of a floating-point number is the
format `%f`: the exact value, rounded to six decimals.  Proved:

* **`toStringHelperOfRank_eq`** — a tensor without an empty dimension is rendered, by induction on
  the rank;
* **`toStringHelper_eq_rendering_iff`** — the exact condition under which the text is right.
-/

namespace InfiniRT.Tensor

open InfiniRT.Library (Fault)
open InfiniRT.Library.RowMajor (InBox)

/-! ## `std::to_string` -/

/-- `std::to_string` of an integer. -/
def toStringInt (z : ℤ) : List Char :=
  if z < 0 then '-' :: Nat.toDigits 10 z.natAbs else Nat.toDigits 10 z.natAbs

/-- The quotient rounded to the nearest number, a half to the even one. -/
def roundHalfEven (n d : ℕ) : ℕ :=
  if 2 * (n % d) < d ∨ (2 * (n % d) = d ∧ n / d % 2 = 0) then n / d else n / d + 1

/-- `%f` of `significand * 2 ^ exponent`. -/
def formatFixed (significand : ℕ) (exponent : ℤ) : List Char :=
  let millionths :=
    roundHalfEven (significand * 10 ^ 6 * 2 ^ exponent.toNat) (2 ^ (-exponent).toNat)
  let decimals := Nat.toDigits 10 (millionths % 10 ^ 6)
  Nat.toDigits 10 (millionths / 10 ^ 6) ++ '.' :: List.replicate (6 - decimals.length) '0' ++
    decimals

/-- `std::to_string` of a binary floating-point number. -/
def toStringFloat (exponentBits mantissaBits bits : ℕ) : List Char :=
  let sign := if bits / 2 ^ (exponentBits + mantissaBits) % 2 = 1 then ['-'] else []
  let exponent := bits / 2 ^ mantissaBits % 2 ^ exponentBits
  let mantissa := bits % 2 ^ mantissaBits
  let lowest : ℤ := 2 - 2 ^ (exponentBits - 1) - mantissaBits
  if exponent = 2 ^ exponentBits - 1 then
    sign ++ if mantissa = 0 then ['i', 'n', 'f'] else ['n', 'a', 'n']
  else if exponent = 0 then sign ++ formatFixed mantissa lowest
  else sign ++ formatFixed (mantissa + 2 ^ mantissaBits) (lowest + exponent - 1)

/-- `FloatTypes`. -/
def floatTypes : List DataType := [.float32, .float64]

/-- `AllIntTypes`. -/
def allIntTypes : List DataType :=
  [.int8, .int16, .int32, .int64, .uint8, .uint16, .uint32, .uint64]

/-- The cases of the dispatch over `FloatTypes` and `AllIntTypes`: `std::to_string` of the value
with these bits. -/
def toStringCase : DataType → Option (ℕ → List Char)
  | .float32 => some (toStringFloat 8 23)
  | .float64 => some (toStringFloat 11 52)
  | .int8 => some fun bits => toStringInt (BitVec.ofNat 8 bits).toInt
  | .int16 => some fun bits => toStringInt (BitVec.ofNat 16 bits).toInt
  | .int32 => some fun bits => toStringInt (BitVec.ofNat 32 bits).toInt
  | .int64 => some fun bits => toStringInt (BitVec.ofNat 64 bits).toInt
  | .uint8 => some fun bits => toStringInt bits
  | .uint16 => some fun bits => toStringInt bits
  | .uint32 => some fun bits => toStringInt bits
  | .uint64 => some fun bits => toStringInt bits
  | .float16 => none
  | .bfloat16 => none
  | .bool => none

theorem toStringCase_isSome_iff (dtype : DataType) :
    (toStringCase dtype).isSome ↔ dtype ∈ floatTypes ++ allIntTypes := by
  cases dtype <;> decide

/-! ## The member function -/

/-- The bytes that can be read. -/
abbrev Bytes := Pointer → Option (BitVec 8)

/-- Read a number of bytes, the lowest first. -/
def load (m : Bytes) (p : Pointer) : ℕ → Except Fault ℕ
  | 0 => .ok 0
  | bytes + 1 => do
    let high ← load m (p + 1) bytes
    match m p with
    | some low => .ok (low.toNat + 2 ^ 8 * high)
    | none => .error .undefined

/-- `pop_back`. -/
def popBack : List Char → Except Fault (List Char)
  | [] => .error .undefined
  | c :: s => .ok (c :: s).dropLast

/-- Assign to `back()`. -/
def setBack (c : Char) : List Char → Except Fault (List Char)
  | [] => .error .undefined
  | d :: s => .ok ((d :: s).dropLast ++ [c])

/-- What stands between two sub-tensors. -/
def separator : List Char := [',', ' ']

/-- The loop of `ToStringHelper`, with a number of sub-tensors to go. -/
def appendAll (child : Index → Except Fault (List Char)) : ℕ → Index → List Char →
    Except Fault (List Char)
  | 0, _, result => .ok result
  | children + 1, i, result => do
    let text ← child i
    if i = indexMax then throw .undefined
    appendAll child children (i + 1) (result ++ (text ++ separator))

namespace TensorView

/-- `ToStringHelper` of a tensor of rank 0. -/
def scalarToString (v : TensorView) (m : Bytes) : Except Fault (List Char) :=
  match toStringCase v.dtype with
  | some text => do return text (← load m v.data v.elementSize.toNat)
  | none => .error .abort

/-- `ToStringHelper` of a tensor of a given rank. -/
def toStringHelperOfRank (m : Bytes) : ℕ → TensorView → Except Fault (List Char)
  | 0, v => v.scalarToString m
  | rank + 1, v => do
    let size ← element v.shape 0
    let result ←
      appendAll (fun i => do toStringHelperOfRank m rank (← v.index i)) size.toNat 0 ['[']
    setBack ']' (← popBack result)

/-- `ToStringHelper`. -/
def toStringHelper (v : TensorView) (m : Bytes) : Except Fault (List Char) :=
  toStringHelperOfRank m v.shape.length v

/-! ## The rendering -/

/-- The address of an element, if there is a stride for every index. -/
def elementAddress (elementSize : Size) : List Stride → Pointer → List ℕ → Option Pointer
  | _, p, [] => some p
  | stride :: strides, p, i :: is =>
    elementAddress elementSize strides (p + BitVec.ofNat 64 i * stride * elementSize) is
  | [], _, _ :: _ => none

/-- The nested bracket rendering: the text of a scalar, or the renderings of the sub-tensors in
brackets, with separators between them. -/
def renderingOf (text : Pointer → List Char) (elementSize : Size) :
    List Size → List Stride → Pointer → List Char
  | size :: shape, stride :: strides, p =>
    '[' :: separator.intercalate ((List.range size.toNat).map fun i =>
      renderingOf text elementSize shape strides
        (p + BitVec.ofNat 64 i * stride * elementSize)) ++ [']']
  | _, _, p => text p

@[simp] theorem renderingOf_nil (text : Pointer → List Char) (elementSize : Size)
    (strides : List Stride) (p : Pointer) : renderingOf text elementSize [] strides p = text p := by
  cases strides <;> rfl

/-- The decimal text of the scalar at an address. -/
def scalarText (v : TensorView) (m : Bytes) (p : Pointer) : List Char :=
  match toStringCase v.dtype, load m p v.elementSize.toNat with
  | some text, .ok bits => text bits
  | _, _ => []

/-- The rendering of a tensor. -/
def rendering (v : TensorView) (m : Bytes) : List Char :=
  renderingOf (v.scalarText m) v.elementSize v.shape v.strides v.data

/-- Every element that an index in range leads to can be read. -/
def Readable (v : TensorView) (m : Bytes) : Prop :=
  ∀ is, InBox v.sizes is →
    ∃ p bits, elementAddress v.elementSize v.strides v.data is = some p ∧
      load m p v.elementSize.toNat = .ok bits

end TensorView

/-! ## Strings -/

theorem popBack_append_singleton (s : List Char) (c : Char) : popBack (s ++ [c]) = .ok s := by
  cases s with
  | nil => rfl
  | cons d s =>
    show Except.ok ((d :: s) ++ [c]).dropLast = _
    rw [List.dropLast_concat]

theorem setBack_append_singleton (s : List Char) (c d : Char) :
    setBack d (s ++ [c]) = .ok (s ++ [d]) := by
  cases s with
  | nil => rfl
  | cons e s =>
    show Except.ok (((e :: s) ++ [c]).dropLast ++ [d]) = _
    rw [List.dropLast_concat]

/-- Texts that are each followed by a separator end in one. -/
theorem flatMap_separator {texts : List (List Char)} (h : texts ≠ []) :
    texts.flatMap (· ++ separator) = separator.intercalate texts ++ separator := by
  induction texts with
  | nil => exact absurd rfl h
  | cons text texts ih =>
    cases texts with
    | nil => simp
    | cons text' texts =>
      rw [List.flatMap_cons, ih (List.cons_ne_nil _ _), List.intercalate_cons_cons]
      simp only [List.append_assoc]

/-- The end of `ToStringHelper` turns the last separator into the closing bracket. -/
theorem close_bracket {texts : List (List Char)} (h : texts ≠ []) :
    (do setBack ']' (← popBack (['['] ++ texts.flatMap (· ++ separator)))) =
      .ok ('[' :: separator.intercalate texts ++ [']']) := by
  have hsplit : ['['] ++ texts.flatMap (· ++ separator) =
      (['['] ++ separator.intercalate texts ++ [',']) ++ [' '] := by
    rw [flatMap_separator h, separator, List.append_assoc, List.append_assoc]
    rfl
  rw [hsplit, popBack_append_singleton, ok_bind, setBack_append_singleton]
  rfl

/-! ## The loop -/

theorem ofNat_ne_indexMax {i : ℕ} (hi : i + 1 < 2 ^ 63) : BitVec.ofNat 64 i ≠ indexMax := by
  intro heq
  have hword := congrArg BitVec.toNat heq
  rw [TensorView.toNat_ofNat (by omega)] at hword
  exact absurd hword (by show i ≠ 2 ^ 63 - 1; omega)

variable {child : Index → Except Fault (List Char)} {text : ℕ → List Char} {i n : ℕ}

theorem appendAll_succ (h : child (BitVec.ofNat 64 i) = .ok (text i)) (result : List Char) :
    appendAll child (n + 1) (BitVec.ofNat 64 i) result =
      if BitVec.ofNat 64 i = indexMax then .error .undefined
      else appendAll child n (BitVec.ofNat 64 (i + 1)) (result ++ (text i ++ separator)) := by
  have hnext : BitVec.ofNat 64 i + 1 = BitVec.ofNat 64 (i + 1) := (BitVec.ofNat_add i 1).symm
  rw [appendAll, h, ok_bind, hnext]
  split <;> rfl

theorem appendAll_run (h : ∀ k, i ≤ k → k < i + n → child (BitVec.ofNat 64 k) = .ok (text k))
    (hn : i + n < 2 ^ 63) (result : List Char) :
    appendAll child n (BitVec.ofNat 64 i) result =
      .ok (result ++ ((List.range' i n).map text).flatMap (· ++ separator)) := by
  induction n generalizing i result with
  | zero => simp [appendAll]
  | succ n ih =>
    rw [appendAll_succ (h i le_rfl (by omega)), if_neg (ofNat_ne_indexMax (by omega)),
      ih (fun k hle hlt => h k (by omega) (by omega)) (by omega), List.range'_succ, List.map_cons,
      List.flatMap_cons]
    simp only [List.append_assoc]

/-- The counter is an `Index`, and it cannot move past the largest one. -/
theorem appendAll_overflow (h : ∀ k, i ≤ k → k < 2 ^ 63 → child (BitVec.ofNat 64 k) = .ok (text k))
    (hi : i < 2 ^ 63) (hn : 2 ^ 63 ≤ i + n) (result : List Char) :
    appendAll child n (BitVec.ofNat 64 i) result = .error .undefined := by
  induction n generalizing i result with
  | zero => omega
  | succ n ih =>
    rw [appendAll_succ (h i le_rfl hi)]
    rcases Nat.lt_or_ge (i + 1) (2 ^ 63) with hlt | hge
    · rw [if_neg (ofNat_ne_indexMax hlt)]
      exact ih (fun k hle hk => h k (by omega) hk) hlt (by omega) _
    · obtain rfl : i = 2 ^ 63 - 1 := by omega
      exact if_pos rfl

theorem appendAll_error {e : Fault} (h : child (BitVec.ofNat 64 i) = .error e)
    (result : List Char) :
    appendAll child (n + 1) (BitVec.ofNat 64 i) result = .error e := by
  rw [appendAll, h, error_bind]

namespace TensorView

variable {v : TensorView} {m : Bytes}

/-! ## Sub-tensors -/

/-- `w` is the sub-tensor of `v` for an index. -/
structure IsSub (v w : TensorView) (size : Size) (stride : Stride) (i : ℕ) : Prop where
  shape : v.shape = size :: w.shape
  strides : v.strides = stride :: w.strides
  data : w.data = v.data + BitVec.ofNat 64 i * stride * v.elementSize
  dtype : w.dtype = v.dtype

variable {w : TensorView} {size : Size} {stride : Stride} {i : ℕ}

theorem exists_isSub {shape : List Size} {strides : List Stride} (hshape : v.shape = size :: shape)
    (hstrides : v.strides = stride :: strides) (hi : i < 2 ^ 63) :
    ∃ w, v.index (BitVec.ofNat 64 i) = .ok w ∧ v.IsSub w size stride i := by
  obtain ⟨w, hrun, hdata, hshape', hstrides', hdtype, -⟩ :=
    index_cons hshape hstrides (BitVec.ofNat 64 i)
  rw [getEffectiveIndex_ofNat hi] at hdata
  exact ⟨w, hrun, hshape' ▸ hshape, hstrides' ▸ hstrides, hdata, hdtype⟩

namespace IsSub

theorem elementSize_eq (h : v.IsSub w size stride i) : w.elementSize = v.elementSize := by
  rw [elementSize, h.dtype, elementSize]

theorem scalarText_eq (h : v.IsSub w size stride i) : w.scalarText m = v.scalarText m := by
  funext p
  rw [scalarText, h.dtype, h.elementSize_eq, scalarText]

theorem readable (h : v.IsSub w size stride i) (hi : i < size.toNat) (hread : v.Readable m) :
    w.Readable m := by
  intro is his
  obtain ⟨p, bits, hp, hbits⟩ := hread (i :: is) (by
    rw [sizes, h.shape, List.map_cons]
    exact .cons hi his)
  rw [h.strides, elementAddress, ← h.data, ← h.elementSize_eq] at hp
  exact ⟨p, bits, hp, h.elementSize_eq ▸ hbits⟩

end IsSub

/-- The rendering of the sub-tensor for an index. -/
def subText (v : TensorView) (m : Bytes) (shape : List Size) (strides : List Stride)
    (stride : Stride) (i : ℕ) : List Char :=
  renderingOf (v.scalarText m) v.elementSize shape strides
    (v.data + BitVec.ofNat 64 i * stride * v.elementSize)

theorem rendering_cons {shape : List Size} {strides : List Stride}
    (hshape : v.shape = size :: shape) (hstrides : v.strides = stride :: strides) :
    v.rendering m = '[' :: separator.intercalate
      ((List.range size.toNat).map (v.subText m shape strides stride)) ++ [']'] := by
  rw [rendering, hshape, hstrides, renderingOf]
  rfl

theorem IsSub.rendering_eq (h : v.IsSub w size stride i) :
    w.rendering m = v.subText m w.shape w.strides stride i := by
  rw [rendering, h.scalarText_eq, h.elementSize_eq, h.data, subText]

/-! ## Ranks -/

/-- No dimension is empty, and the counter can pass every dimension. -/
def Countable (shape : List Size) : Prop := ∀ size ∈ shape, size ≠ 0 ∧ size.toNat < 2 ^ 63

theorem toStringHelperOfRank_zero (hshape : v.shape = [])
    (hdtype : (toStringCase v.dtype).isSome) (hread : v.Readable m) :
    toStringHelperOfRank m 0 v = .ok (v.rendering m) := by
  obtain ⟨text, htext⟩ := Option.isSome_iff_exists.mp hdtype
  obtain ⟨p, bits, hp, hbits⟩ := hread [] (by rw [sizes, hshape]; exact .nil)
  obtain rfl : v.data = p := by simpa only [elementAddress, Option.some_inj] using hp
  simp only [toStringHelperOfRank, scalarToString, rendering, hshape, renderingOf_nil, scalarText,
    htext, hbits, ok_bind]
  rfl

/-- A readable tensor that has elements has a stride for its first dimension. -/
theorem Readable.exists_strides {shape : List Size} (hread : v.Readable m)
    (hshape : v.shape = size :: shape) (hcount : Countable v.shape) :
    ∃ stride strides, v.strides = stride :: strides := by
  have hzeros : InBox v.sizes (List.replicate v.sizes.length 0) := by
    refine List.forall₂_iff_get.mpr ⟨List.length_replicate, fun i _ hi => ?_⟩
    obtain ⟨word, hword, hnat⟩ := List.mem_map.mp (List.get_mem v.sizes ⟨i, hi⟩)
    rw [List.get_eq_getElem, List.getElem_replicate, ← hnat]
    exact Nat.pos_of_ne_zero fun hzero => (hcount word hword).1 (BitVec.eq_of_toNat_eq hzero)
  obtain ⟨p, bits, hp, -⟩ := hread _ hzeros
  cases hstrides : v.strides with
  | nil =>
    rw [hstrides, sizes, hshape, List.map_cons, List.length_cons, List.replicate_succ] at hp
    cases hp
  | cons stride strides => exact ⟨stride, strides, rfl⟩

/-- What the loop does with one index. -/
theorem child_run {rank : ℕ} {shape : List Size} {strides : List Stride}
    (hshape : v.shape = size :: shape) (hstrides : v.strides = stride :: strides) (hi : i < 2 ^ 63)
    (hsub : ∀ w, v.IsSub w size stride i → toStringHelperOfRank m rank w = .ok (w.rendering m)) :
    (do toStringHelperOfRank m rank (← v.index (BitVec.ofNat 64 i))) =
      .ok (v.subText m shape strides stride i) := by
  obtain ⟨w, hindex, hw⟩ := exists_isSub hshape hstrides hi
  obtain rfl : w.shape = shape := (List.cons.inj (hw.shape.symm.trans hshape)).2
  obtain rfl : w.strides = strides := (List.cons.inj (hw.strides.symm.trans hstrides)).2
  rw [hindex, ok_bind, hsub w hw, hw.rendering_eq]

theorem toStringHelperOfRank_eq {rank : ℕ} (hrank : v.shape.length = rank)
    (hdtype : (toStringCase v.dtype).isSome) (hread : v.Readable m) (hcount : Countable v.shape) :
    toStringHelperOfRank m rank v = .ok (v.rendering m) := by
  induction rank generalizing v with
  | zero => exact toStringHelperOfRank_zero (List.length_eq_zero_iff.mp hrank) hdtype hread
  | succ rank ih =>
    obtain ⟨size, shape, hshape⟩ := List.exists_cons_of_length_eq_add_one hrank
    obtain ⟨stride, strides, hstrides⟩ := hread.exists_strides hshape hcount
    obtain ⟨hsize, hlt⟩ := hcount size (hshape ▸ List.mem_cons_self)
    have hpos : 0 < size.toNat := Nat.pos_of_ne_zero fun hzero =>
      hsize (BitVec.eq_of_toNat_eq hzero)
    have hchild : ∀ k, 0 ≤ k → k < 0 + size.toNat →
        (do toStringHelperOfRank m rank (← v.index (BitVec.ofNat 64 k))) =
          .ok (v.subText m shape strides stride k) := by
      intro k _ hk
      rw [Nat.zero_add] at hk
      refine child_run hshape hstrides (hk.trans hlt) fun w hw => ?_
      refine ih ?_ (hw.dtype ▸ hdtype) (hw.readable hk hread) ?_
      · rw [hw.shape] at hrank
        exact Nat.succ.inj hrank
      · intro size' hsize'
        exact hcount size' (hw.shape ▸ List.mem_cons_of_mem _ hsize')
    have hne : (List.range size.toNat).map (v.subText m shape strides stride) ≠ [] := by
      simpa using hpos.ne'
    have hloop :
        appendAll (fun i => do toStringHelperOfRank m rank (← v.index i)) size.toNat 0 ['['] =
        .ok (['['] ++
          ((List.range' 0 size.toNat).map (v.subText m shape strides stride)).flatMap
            (· ++ separator)) :=
      appendAll_run (i := 0) hchild (by omega) _
    rw [← List.range_eq_range'] at hloop
    rw [toStringHelperOfRank, hshape, element_of_getElem? (i := 0) rfl, ok_bind, hloop, ok_bind,
      close_bracket hne, rendering_cons hshape hstrides]

theorem IsSub.shape_eq {shape : List Size} (h : v.IsSub w size stride i)
    (hshape : v.shape = size :: shape) : w.shape = shape :=
  (List.cons.inj (h.shape.symm.trans hshape)).2

/-- The sub-tensors have texts, but there are more of them than the counter can pass. -/
theorem toStringHelperOfRank_overflow {rank : ℕ} {shape : List Size} {strides : List Stride}
    (hrank : shape.length = rank) (hshape : v.shape = size :: shape)
    (hstrides : v.strides = stride :: strides) (hdtype : (toStringCase v.dtype).isSome)
    (hread : v.Readable m) (hrest : Countable shape) (hge : 2 ^ 63 ≤ size.toNat) :
    toStringHelperOfRank m (rank + 1) v = .error .undefined := by
  have hchild : ∀ k, 0 ≤ k → k < 2 ^ 63 →
      (do toStringHelperOfRank m rank (← v.index (BitVec.ofNat 64 k))) =
        .ok (v.subText m shape strides stride k) := by
    intro k _ hk
    refine child_run hshape hstrides hk fun w hw => ?_
    have hw' := hw.shape_eq hshape
    exact toStringHelperOfRank_eq (hw' ▸ hrank) (hw.dtype ▸ hdtype)
      (hw.readable (hk.trans_le hge) hread) (hw' ▸ hrest)
  have hloop :
      appendAll (fun i => do toStringHelperOfRank m rank (← v.index i)) size.toNat 0 ['['] =
      .error .undefined :=
    appendAll_overflow (i := 0) hchild (by decide) (by omega) _
  rw [toStringHelperOfRank, hshape, element_of_getElem? (i := 0) rfl, ok_bind, hloop, error_bind]

/-- The first sub-tensor has no text. -/
theorem toStringHelperOfRank_of_first {rank : ℕ} {shape : List Size} {e : Fault}
    (hshape : v.shape = size :: shape) (hpos : 0 < size.toNat)
    (hfirst : (do toStringHelperOfRank m rank (← v.index (BitVec.ofNat 64 0))) = .error e) :
    toStringHelperOfRank m (rank + 1) v = .error e := by
  obtain ⟨n, hn⟩ := Nat.exists_eq_succ_of_ne_zero hpos.ne'
  have hloop :
      appendAll (fun i => do toStringHelperOfRank m rank (← v.index i)) size.toNat 0 ['['] =
      .error e := by
    rw [hn]
    exact appendAll_error hfirst _
  rw [toStringHelperOfRank, hshape, element_of_getElem? (i := 0) rfl, ok_bind, hloop, error_bind]

/-- Where the loop runs no sub-tensor, or fails in it, or counts too far, there is no text. -/
theorem toStringHelperOfRank_undefined {rank : ℕ} (hrank : v.shape.length = rank)
    (hdtype : (toStringCase v.dtype).isSome) (hread : v.Readable m) (hbad : ¬ Countable v.shape) :
    toStringHelperOfRank m rank v = .error .undefined := by
  induction rank generalizing v with
  | zero =>
    rw [List.length_eq_zero_iff.mp hrank] at hbad
    exact absurd (fun size hsize => absurd hsize List.not_mem_nil) hbad
  | succ rank ih =>
    obtain ⟨size, shape, hshape⟩ := List.exists_cons_of_length_eq_add_one hrank
    have hrank' : shape.length = rank := by
      rw [hshape] at hrank
      exact Nat.succ.inj hrank
    rcases Nat.eq_zero_or_pos size.toNat with hzero | hpos
    · -- the opening bracket is trimmed
      rw [toStringHelperOfRank, hshape, element_of_getElem? (i := 0) rfl, ok_bind, hzero]
      rfl
    · cases hstrides : v.strides with
      | nil =>
        refine toStringHelperOfRank_of_first hshape hpos ?_
        rw [index_of_strides_nil hshape hstrides, error_bind]
      | cons stride strides =>
        by_cases hrest : Countable shape
        · refine toStringHelperOfRank_overflow hrank' hshape hstrides hdtype hread hrest ?_
          by_contra hlt
          refine hbad fun size' hsize' => ?_
          rw [hshape, List.mem_cons] at hsize'
          rcases hsize' with rfl | hmem
          · exact ⟨fun h => hpos.ne' (congrArg BitVec.toNat h), Nat.lt_of_not_le hlt⟩
          · exact hrest size' hmem
        · obtain ⟨w, hindex, hw⟩ := exists_isSub (i := 0) hshape hstrides (by decide)
          have hw' := hw.shape_eq hshape
          refine toStringHelperOfRank_of_first hshape hpos ?_
          rw [hindex, ok_bind]
          exact ih (hw' ▸ hrank') (hw.dtype ▸ hdtype) (hw.readable hpos hread) (hw'.symm ▸ hrest)

/-- **`ToStringHelper` renders exactly the tensors without an empty dimension**, and without one
that the counter cannot pass. -/
theorem toStringHelper_eq_rendering_iff (v : TensorView) (m : Bytes)
    (hdtype : v.dtype ∈ floatTypes ++ allIntTypes) (hread : v.Readable m) :
    v.toStringHelper m = .ok (v.rendering m) ↔
      ∀ size ∈ v.shape, size ≠ 0 ∧ size.toNat < 2 ^ 63 := by
  rw [← toStringCase_isSome_iff] at hdtype
  constructor
  · intro hrun
    by_contra hbad
    exact nomatch hrun.symm.trans (toStringHelperOfRank_undefined rfl hdtype hread hbad)
  · exact toStringHelperOfRank_eq rfl hdtype hread

/-- Two bytes. -/
def pair : TensorView where
  data := 0
  shape := [2]
  strides := [1]
  dtype := .uint8
  device := {}
  shape_lt := by decide
  strides_lt := by decide

theorem toStringHelper_eq_rendering_iff_of_pair :
    pair.toStringHelper (fun p => some (p.setWidth 8 + 7)) =
      .ok ['[', '7', ',', ' ', '8', ']'] := by
  refine (toStringHelper_eq_rendering_iff pair _ (by decide) fun is his => ?_).mpr ?_
  · match is, his with
    | [i], .cons _ .nil => exact ⟨_, _, rfl, rfl⟩
  · intro size hsize
    obtain rfl := List.mem_singleton.mp hsize
    exact ⟨by decide, by decide⟩

/-- No bytes. -/
def nothing : TensorView where
  data := 0
  shape := [0]
  strides := [1]
  dtype := .uint8
  device := {}
  shape_lt := by decide
  strides_lt := by decide

/-- The rendering of an empty dimension is a pair of brackets, and the code has no meaning. -/
theorem toStringHelper_misses_nothing :
    nothing.dtype ∈ floatTypes ++ allIntTypes ∧ nothing.Readable (fun _ => none) ∧
      nothing.rendering (fun _ => none) = ['[', ']'] ∧
      nothing.toStringHelper (fun _ => none) = .error .undefined := by
  refine ⟨by decide, fun is his => ?_, rfl, rfl⟩
  match is, his with
  | [i], .cons hi .nil => exact absurd hi (Nat.not_lt_zero i)

end TensorView

end InfiniRT.Tensor
