import InfiniRT.Metadata.ShapeStridesStorage
import InfiniRT.Metadata.SmallVectorSteps

/-!
# What the members of `ShapeStridesStorage` do

`Keeps m st shape strides` is the representation: the lists are in the inline arrays, in a combined
allocation, or in two buffers with their capacities, and the sizes and the pointer tell which.

Every way of writing the lists ends in the two arrays of a `Destination`, so the loops are treated
once for all of them.  A combined allocation is made if its size in bytes can be computed and memory
is left, and the arrays are placed in it without overlap.  Proved:

* **`Keeps.shape_reads`** — `shape()` refers to the list, and `Keeps.strides_reads` says so of the
  strides;
* **`copyShape_run`** — the loop that writes a list, into whatever `Destination`;
* **`combinedAllocation_steps`** — a combined allocation by cases: its bytes fit or not, they are
  granted or not.
-/

namespace InfiniRT.Metadata

open InfiniRT.Library
open InfiniRT.Library.Ledger (Transfer)
open SmallVector (Holds)

variable {Size Stride : Type} {c : StorageConfig}

namespace ShapeStridesStorage

variable {m m' : Memory Size Stride} {st other : ShapeStridesStorage Size Stride c}
  {ls : List Size} {lt : List Stride}

/-! ### Representation -/

/-- The shape buffer a storage owns. -/
def ownedShapes (st : ShapeStridesStorage Size Stride c) : List (Address × ℕ) :=
  match st.storage with
  | .heapStorage ⟨none, .buffer (some p), _, capacity, _⟩ => [(p, capacity)]
  | _ => []

/-- The stride buffer a storage owns. -/
def ownedStrides (st : ShapeStridesStorage Size Stride c) : List (Address × ℕ) :=
  match st.storage with
  | .heapStorage ⟨none, _, .buffer (some p), _, capacity⟩ => [(p, capacity)]
  | _ => []

/-- The combined allocation a storage owns. -/
def ownedCombined (st : ShapeStridesStorage Size Stride c) : List (Address × Unit) :=
  match st.storage with
  | .heapStorage ⟨some p, _, _, _, _⟩ => [(p, ())]
  | _ => []

/-- **A storage keeps two lists.** -/
inductive Keeps (m : Memory Size Stride) :
    ShapeStridesStorage Size Stride c → List Size → List Stride → Prop
  | inlined {ls : List Size} {lt : List Stride} {shapeRest : List (Option Size)}
      {stridesRest : List (Option Stride)}
      (hshape : (ls.map some ++ shapeRest).length = c.inlineCapacity)
      (hstrides : (lt.map some ++ stridesRest).length = c.inlineCapacity) :
      Keeps m ⟨.inlineStorage (ls.map some ++ shapeRest) (lt.map some ++ stridesRest), ls.length,
        lt.length⟩ ls lt
  | combined {ls : List Size} {lt : List Stride} {p : Address} {bytes offset : ℕ}
      (hbig : ¬(ls.length ≤ c.inlineCapacity ∧ lt.length ≤ c.inlineCapacity))
      (hp : m.combined.buffers p = some ((), ⟨bytes, ls.map some, offset, lt.map some⟩)) :
      Keeps m ⟨.heapStorage ⟨some p, .inCombined p, .inCombined p, 0, 0⟩, ls.length, lt.length⟩
        ls lt
  | split {ls : List Size} {lt : List Stride} {p q : Address} {capacity capacity' : ℕ}
      {shapeRest : List (Option Size)} {stridesRest : List (Option Stride)}
      (hbig : ¬(ls.length ≤ c.inlineCapacity ∧ lt.length ≤ c.inlineCapacity))
      (hp : m.shapes.buffers p = some (capacity, ls.map some ++ shapeRest))
      (hq : m.strides.buffers q = some (capacity', lt.map some ++ stridesRest)) :
      Keeps m ⟨.heapStorage ⟨none, .buffer (some p), .buffer (some q), capacity, capacity'⟩,
        ls.length, lt.length⟩ ls lt

/-- `IsInline` tells the member of the union that was written last. -/
theorem Keeps.isInline_iff (h : Keeps m st ls lt) :
    st.isInline ↔ ∃ shape strides, st.storage = .inlineStorage shape strides := by
  cases h with
  | inlined hshape hstrides =>
    rw [List.length_append, List.length_map] at hshape hstrides
    simp [isInline]
    omega
  | combined hbig => simpa [isInline] using hbig
  | split hbig => simpa [isInline] using hbig

theorem Keeps.shapeSize_eq (h : Keeps m st ls lt) : st.shapeSize = ls.length := by
  cases h <;> rfl

theorem Keeps.stridesSize_eq (h : Keeps m st ls lt) : st.stridesSize = lt.length := by
  cases h <;> rfl

/-- Only the storage's own buffers matter. -/
theorem Keeps.congr (h : Keeps m st ls lt)
    (hshapes : ∀ e ∈ st.ownedShapes, m'.shapes.buffers e.1 = m.shapes.buffers e.1)
    (hstrides : ∀ e ∈ st.ownedStrides, m'.strides.buffers e.1 = m.strides.buffers e.1)
    (hcombined : ∀ e ∈ st.ownedCombined, m'.combined.buffers e.1 = m.combined.buffers e.1) :
    Keeps m' st ls lt := by
  cases h with
  | inlined hshape' hstrides' => exact .inlined hshape' hstrides'
  | combined hbig hp => exact .combined hbig ((hcombined _ List.mem_cons_self).trans hp)
  | split hbig hp hq =>
    exact .split hbig ((hshapes _ List.mem_cons_self).trans hp)
      ((hstrides _ List.mem_cons_self).trans hq)

theorem getElem?_map_some_append {α : Type} {l : List α} {rest : List (Option α)} {i : ℕ}
    (hi : i < l.length) : (l.map some ++ rest)[i]? = some (some l[i]) := by
  rw [List.getElem?_append_left (by simpa using hi)]
  simp

theorem Keeps.shapeCell_reads (h : Keeps m st ls lt) {i : ℕ} (hi : i < ls.length) :
    m.shapes.Reads (st.shapeCell m i).load ls[i] := by
  have hinline := h.isInline_iff
  cases h with
  | inlined =>
    simp only [shapeCell, hinline.mpr ⟨_, _, rfl⟩, getElem?_map_some_append hi, Option.join_some]
    exact .pure _ _
  | combined hbig hp =>
    simp only [shapeCell, isInline, hbig, decide_false, hp, Option.bind_some, List.getElem?_map,
      List.getElem?_eq_getElem hi, Option.map_some, Option.join_some]
    exact .pure _ _
  | split hbig hp =>
    simp only [shapeCell, isInline, hbig, decide_false]
    exact .load hp (getElem?_map_some_append hi)

theorem Keeps.stridesCell_reads (h : Keeps m st ls lt) {i : ℕ} (hi : i < lt.length) :
    m.strides.Reads (st.stridesCell m i).load lt[i] := by
  have hinline := h.isInline_iff
  cases h with
  | inlined =>
    simp only [stridesCell, hinline.mpr ⟨_, _, rfl⟩, getElem?_map_some_append hi, Option.join_some]
    exact .pure _ _
  | combined hbig hp =>
    simp only [stridesCell, isInline, hbig, decide_false, hp, Option.bind_some, List.getElem?_map,
      List.getElem?_eq_getElem hi, Option.map_some, Option.join_some]
    exact .pure _ _
  | split hbig _ hq =>
    simp only [stridesCell, isInline, hbig, decide_false]
    exact .load hq (getElem?_map_some_append hi)

/-- **`shape()` refers to the list**, and goes on to while others take memory. -/
theorem Keeps.shape_reads (h : Keeps m st ls lt) :
    List.Forall₂ (fun r x => m.shapes.Reads r.load x) (st.shape m) ls := by
  rw [List.forall₂_iff_get]
  refine ⟨by simp [shape, h.shapeSize_eq], fun i hi hi' => ?_⟩
  simpa [shape] using h.shapeCell_reads hi'

/-- **`strides()` refers to the list**, and goes on to while others take memory. -/
theorem Keeps.strides_reads (h : Keeps m st ls lt) :
    List.Forall₂ (fun r x => m.strides.Reads r.load x) (st.strides m) lt := by
  rw [List.forall₂_iff_get]
  refine ⟨by simp [strides, h.stridesSize_eq], fun i hi hi' => ?_⟩
  simpa [strides] using h.stridesCell_reads hi'

theorem Keeps.readShape (h : Keeps m st ls lt) : st.readShape m = .ok ls := by
  have hrun : (readAll ((st.shape m).map Ref.load)).run m.shapes = (.ok ls, m.shapes) :=
    readAll_run (List.forall₂_map_left_iff.mpr
      (h.shape_reads.imp fun _ _ hread => hread m.shapes (.refl _)))
  rw [ShapeStridesStorage.readShape, hrun]

theorem Keeps.readStrides (h : Keeps m st ls lt) : st.readStrides m = .ok lt := by
  have hrun : (readAll ((st.strides m).map Ref.load)).run m.strides = (.ok lt, m.strides) :=
    readAll_run (List.forall₂_map_left_iff.mpr
      (h.strides_reads.imp fun _ _ hread => hread m.strides (.refl _)))
  rw [ShapeStridesStorage.readStrides, hrun]

/-- A storage without lists. -/
theorem keeps_nil (m : Memory Size Stride) {a : List (Option Size)} {b : List (Option Stride)}
    (ha : a.length = c.inlineCapacity) (hb : b.length = c.inlineCapacity) :
    Keeps m (⟨.inlineStorage a b, 0, 0⟩ : ShapeStridesStorage Size Stride c) [] [] :=
  @Keeps.inlined Size Stride c m [] [] a b ha hb

theorem keeps_empty (m : Memory Size Stride) :
    Keeps m ({} : ShapeStridesStorage Size Stride c) [] [] :=
  keeps_nil m List.length_replicate List.length_replicate

/-- An inline storage that is moved from stays as it is, with sizes of zero. -/
theorem Keeps.cleared (h : Keeps m st ls lt) (hinline : st.isInline) (m' : Memory Size Stride) :
    Keeps m' ({ st with shapeSize := 0, stridesSize := 0 } : ShapeStridesStorage Size Stride c)
      [] [] := by
  obtain ⟨shape, strides, hstorage⟩ := h.isInline_iff.mp hinline
  cases h with
  | inlined hshape hstrides => exact keeps_nil m' hshape hstrides
  | combined => cases hstorage
  | split => cases hstorage

/-! ### Writers -/

section Writers

variable {s : StorageState Size Stride c} {d : Destination} {a a' : List (Option Size)}
  {b b' : List (Option Stride)}

theorem arrays_putArrays (hd : s.arrays d = some (a, b)) (a' : List (Option Size))
    (b' : List (Option Stride)) : (s.putArrays d a' b').arrays d = some (a', b') := by
  cases d with
  | inlineStorage => rfl
  | combined p =>
    simp only [StorageState.arrays, Option.map_eq_some_iff] at hd
    obtain ⟨⟨_, content⟩, hp, -⟩ := hd
    simp [StorageState.arrays, StorageState.putArrays, hp]

theorem putArrays_putArrays (hd : s.arrays d = some (a, b)) (a' a'' : List (Option Size))
    (b' b'' : List (Option Stride)) :
    (s.putArrays d a' b').putArrays d a'' b'' = s.putArrays d a'' b'' := by
  cases d with
  | inlineStorage => rfl
  | combined p =>
    simp only [StorageState.arrays, Option.map_eq_some_iff] at hd
    obtain ⟨⟨_, content⟩, hp, -⟩ := hd
    simp [StorageState.putArrays, hp]

theorem putArrays_self (hd : s.arrays d = some (a, b)) : s.putArrays d a b = s := by
  cases d with
  | inlineStorage =>
    rcases s with ⟨m, ⟨storage, _, _⟩, _, _⟩
    cases storage with
    | inlineStorage => cases hd; rfl
    | heapStorage => cases hd
  | combined p =>
    simp only [StorageState.arrays, Option.map_eq_some_iff] at hd
    obtain ⟨⟨_, content⟩, hp, heq⟩ := hd
    cases heq
    simp only [StorageState.putArrays, hp]
    rw [Ledger.write_self hp]

@[simp] theorem putArrays_shapes (s : StorageState Size Stride c) (d : Destination)
    (a : List (Option Size)) (b : List (Option Stride)) :
    (s.putArrays d a b).memory.shapes = s.memory.shapes := by
  cases d with
  | inlineStorage => rfl
  | combined p => simp only [StorageState.putArrays]; split <;> rfl

@[simp] theorem putArrays_strides (s : StorageState Size Stride c) (d : Destination)
    (a : List (Option Size)) (b : List (Option Stride)) :
    (s.putArrays d a b).memory.strides = s.memory.strides := by
  cases d with
  | inlineStorage => rfl
  | combined p => simp only [StorageState.putArrays]; split <;> rfl

theorem storeShape_run (hd : s.arrays d = some (a, b)) {i : ℕ} (hi : i < a.length) (x : Size) :
    (storeShape d i x).run s = (.ok (), s.putArrays d (a.set i (some x)) b) := by
  unfold storeShape
  rw [Action.run_bind_ok (Action.run_get s)]
  simp only [hd, hi, if_true, Action.run_modify]

theorem storeStride_run (hd : s.arrays d = some (a, b)) {i : ℕ} (hi : i < b.length) (x : Stride) :
    (storeStride d i x).run s = (.ok (), s.putArrays d a (b.set i (some x))) := by
  unfold storeStride
  rw [Action.run_bind_ok (Action.run_get s)]
  simp only [hd, hi, if_true, Action.run_modify]

theorem loadShape_run (hd : s.arrays d = some (a, b)) {i : ℕ} {x : Size}
    (hi : a[i]? = some (some x)) : (loadShape d i).run s = (.ok x, s) := by
  unfold loadShape
  rw [Action.run_bind_ok (Action.run_get s)]
  simp only [hd, hi, readCell, Action.run_pure]

theorem loadStride_run (hd : s.arrays d = some (a, b)) {i : ℕ} {x : Stride}
    (hi : b[i]? = some (some x)) : (loadStride d i).run s = (.ok x, s) := by
  unfold loadStride
  rw [Action.run_bind_ok (Action.run_get s)]
  simp only [hd, hi, readCell, Action.run_pure]

theorem run_inMemory {α : Type} {x : Action (Memory Size Stride) Fault α} {r : Except Fault α}
    (h : x.run s.memory = (r, m)) : (inMemory x).run s = (r, { s with memory := m }) :=
  Action.run_zoom h

theorem run_onShapes {α : Type} {x : Action (ArrayHeap Size) Fault α} {r : Except Fault α}
    {L : ArrayHeap Size} (h : x.run s.memory.shapes = (r, L)) :
    (onShapes x).run s = (r, { s with memory := { s.memory with shapes := L } }) := by
  have hmemory : (Memory.onShapes x).run s.memory = (r, { s.memory with shapes := L }) :=
    Action.run_zoom h
  exact run_inMemory hmemory

theorem run_onStrides {α : Type} {x : Action (ArrayHeap Stride) Fault α} {r : Except Fault α}
    {L : ArrayHeap Stride} (h : x.run s.memory.strides = (r, L)) :
    (onStrides x).run s = (r, { s with memory := { s.memory with strides := L } }) := by
  have hmemory : (Memory.onStrides x).run s.memory = (r, { s.memory with strides := L }) :=
    Action.run_zoom h
  exact run_inMemory hmemory

theorem run_onCombined {α : Type} {x : Action (Ledger Unit (Combined Size Stride)) Fault α}
    {r : Except Fault α} {L : Ledger Unit (Combined Size Stride)}
    (h : x.run s.memory.combined = (r, L)) : (inMemory (Memory.onCombined x)).run s =
      (r, { s with memory := { s.memory with combined := L } }) := by
  have hmemory : (Memory.onCombined x).run s.memory = (r, { s.memory with combined := L }) :=
    Action.run_zoom h
  exact run_inMemory hmemory

theorem copyShape_run (hd : s.arrays d = some (a, b)) {range : List (Ref Size)}
    (hrange : List.Forall₂ (fun r x => s.memory.shapes.Reads r.load x) range ls)
    (hroom : ls.length ≤ a.length) :
    (copyShape range d).run s = (.ok (), s.putArrays d (ls.map some ++ a.drop ls.length) b) := by
  have hloop := writeAll_run_zero (fun _ now => s.putArrays d now b) (storeShape d)
    (fun _ now x hi => by
      rw [storeShape_run (arrays_putArrays hd now b) hi, putArrays_putArrays hd])
    (List.forall₂_map_left_iff.mpr (hrange.imp fun r x hread _ now =>
      run_onShapes (hread _ (by rw [putArrays_shapes]; exact .refl _)))) a hroom
  rwa [putArrays_self hd] at hloop

theorem copyStrides_run (hd : s.arrays d = some (a, b)) {range : List (Ref Stride)}
    (hrange : List.Forall₂ (fun r x => s.memory.strides.Reads r.load x) range lt)
    (hroom : lt.length ≤ b.length) :
    (copyStrides range d).run s = (.ok (), s.putArrays d a (lt.map some ++ b.drop lt.length)) := by
  have hloop := writeAll_run_zero (fun _ now => s.putArrays d a now) (storeStride d)
    (fun _ now x hi => by
      rw [storeStride_run (arrays_putArrays hd a now) hi, putArrays_putArrays hd])
    (List.forall₂_map_left_iff.mpr (hrange.imp fun r x hread _ now =>
      run_onStrides (hread _ (by rw [putArrays_strides]; exact .refl _)))) b hroom
  rwa [putArrays_self hd] at hloop

end Writers

/-! ### Combined allocations -/

/-- The sizes fit the 32 bits they are kept in, and the bytes of both arrays fit `std::size_t`. -/
def Fits (c : StorageConfig) (shapeSize stridesSize : ℕ) : Prop :=
  shapeSize < 2 ^ 32 ∧ stridesSize < 2 ^ 32 ∧
    shapeSize * c.sizeofSize + (c.alignofStride - 1) + stridesSize * c.sizeofStride ≤ c.sizeMax

variable {s s' : StorageState Size Stride c}

theorem checkedMultiply_run (left right : ℕ) (s : StorageState Size Stride c) :
    (left * right ≤ c.sizeMax ∧ (checkedMultiply left right).run s = (.ok (left * right), s)) ∨
      (c.sizeMax < left * right ∧ (checkedMultiply left right).run s = (.error .abort, s)) := by
  unfold checkedMultiply
  by_cases habort : right ≠ 0 ∧ left > c.sizeMax / right
  · rw [if_pos habort]
    exact .inr ⟨(Nat.div_lt_iff_lt_mul (Nat.pos_of_ne_zero habort.1)).mp habort.2, rfl⟩
  · rw [if_neg habort]
    refine .inl ⟨?_, rfl⟩
    rcases Nat.eq_zero_or_pos right with rfl | hright
    · simp
    · rw [← Nat.le_div_iff_mul_le hright]
      exact Nat.le_of_not_lt fun hlt => habort ⟨Nat.ne_of_gt hright, hlt⟩

theorem checkedAdd_run (left : ℕ) {right : ℕ} (hright : right ≤ c.sizeMax)
    (s : StorageState Size Stride c) :
    (left + right ≤ c.sizeMax ∧ (checkedAdd left right).run s = (.ok (left + right), s)) ∨
      (c.sizeMax < left + right ∧ (checkedAdd left right).run s = (.error .abort, s)) := by
  unfold checkedAdd
  by_cases habort : left > c.sizeMax - right
  · rw [if_pos habort]
    exact .inr ⟨by omega, rfl⟩
  · rw [if_neg habort]
    exact .inl ⟨by omega, rfl⟩

/-- With the padding there is always an aligned place behind the shape. -/
theorem align_of_padding {alignment : ℕ} (hpos : 0 < alignment) (size pointer : ℕ) :
    ∃ aligned, align alignment size pointer (alignment - 1 + size) = some aligned ∧
      aligned % alignment = 0 ∧ pointer ≤ aligned ∧ aligned ≤ pointer + (alignment - 1) := by
  have hle := Nat.div_mul_le_self (pointer + alignment - 1) alignment
  have hlt := Nat.lt_div_mul_add hpos (a := pointer + alignment - 1)
  refine ⟨(pointer + alignment - 1) / alignment * alignment, if_pos ?_, Nat.mul_mod_left _ _,
    ?_, ?_⟩
  · omega
  · omega
  · omega

/-- The bytes of a combined allocation. -/
def combinedBytes (c : StorageConfig) (shapeSize stridesSize : ℕ) : ℕ :=
  shapeSize * c.sizeofSize + (c.alignofStride - 1) + stridesSize * c.sizeofStride

/-- Both arrays are placed, or there is no memory, or the bytes cannot be counted. -/
theorem combinedAllocation_steps (shapeSize stridesSize : ℕ) (s : StorageState Size Stride c) :
    (∃ p strides, combinedBytes c shapeSize stridesSize ≤ c.sizeMax ∧
      s.memory.combined.Grants p ∧
      align c.alignofStride (stridesSize * c.sizeofStride) (p + shapeSize * c.sizeofSize)
        (combinedBytes c shapeSize stridesSize - shapeSize * c.sizeofSize) = some strides ∧
      (combinedAllocation shapeSize stridesSize).run s = (.ok p, { s with memory := { s.memory with
        combined := s.memory.combined.asked.write p () ⟨combinedBytes c shapeSize stridesSize,
          List.replicate shapeSize none, strides - p, List.replicate stridesSize none⟩ } })) ∨
    (combinedBytes c shapeSize stridesSize ≤ c.sizeMax ∧ (∀ p, ¬s.memory.combined.Grants p) ∧
      (combinedAllocation shapeSize stridesSize).run s = (.error .badAlloc,
        { s with memory := { s.memory with combined := s.memory.combined.asked } })) ∨
    (c.sizeMax < combinedBytes c shapeSize stridesSize ∧
      (combinedAllocation shapeSize stridesSize).run s = (.error .abort, s)) := by
  unfold combinedAllocation combinedBytes
  rcases checkedMultiply_run shapeSize c.sizeofSize s with ⟨hshape, hrun₁⟩ | ⟨hshape, hrun₁⟩
  swap
  · exact .inr (.inr ⟨by omega, Action.run_bind_error hrun₁⟩)
  rcases checkedMultiply_run stridesSize c.sizeofStride s with ⟨hstrides, hrun₂⟩ | ⟨hstrides, hrun₂⟩
  swap
  · exact .inr (.inr ⟨by omega, (Action.run_bind_ok hrun₁).trans (Action.run_bind_error hrun₂)⟩)
  have halign : c.alignofStride - 1 ≤ c.sizeMax := by
    have := c.alignofStride_le
    omega
  rw [Action.run_bind_ok hrun₁, Action.run_bind_ok hrun₂]
  dsimp only
  rcases checkedAdd_run (shapeSize * c.sizeofSize) halign s with ⟨hadd, hrun₃⟩ | ⟨hadd, hrun₃⟩
  swap
  · exact .inr (.inr ⟨by omega, Action.run_bind_error hrun₃⟩)
  rw [Action.run_bind_ok hrun₃]
  rcases checkedAdd_run (shapeSize * c.sizeofSize + (c.alignofStride - 1)) hstrides s with
    ⟨hbytes, hrun₄⟩ | ⟨hbytes, hrun₄⟩
  swap
  · exact .inr (.inr ⟨hbytes, Action.run_bind_error hrun₄⟩)
  rw [Action.run_bind_ok hrun₄]
  rcases Ledger.allocate_run () (⟨shapeSize * c.sizeofSize + (c.alignofStride - 1) +
      stridesSize * c.sizeofStride, [], 0, []⟩ : Combined Size Stride) s.memory.combined with
    ⟨p, hp, hok⟩ | ⟨herr, hnot⟩
  swap
  · exact .inr (.inl ⟨hbytes, hnot, Action.run_bind_error (run_onCombined herr)⟩)
  rw [Action.run_bind_ok (run_onCombined hok)]
  obtain ⟨strides, halign', hmod, hle, hle'⟩ := align_of_padding c.alignofStride_pos
    (stridesSize * c.sizeofStride) (p + shapeSize * c.sizeofSize)
  have hspace : shapeSize * c.sizeofSize + (c.alignofStride - 1) + stridesSize * c.sizeofStride -
      shapeSize * c.sizeofSize = c.alignofStride - 1 + stridesSize * c.sizeofStride := by
    omega
  have hplace : strides % c.alignofStride = 0 ∧ p + shapeSize * c.sizeofSize ≤ strides ∧
      strides + stridesSize * c.sizeofStride ≤ p + (shapeSize * c.sizeofSize +
        (c.alignofStride - 1) + stridesSize * c.sizeofStride) := ⟨hmod, hle, by omega⟩
  rw [hspace, halign']
  refine .inl ⟨p, strides, hbytes, hp, halign', ?_⟩
  simp only [placeArrays, if_pos hplace]
  rw [Action.run_bind_ok (Action.run_modify _ _), Ledger.write_write]
  rfl

/-- The new allocation has both arrays, apart from each other and inside. -/
theorem combinedAllocation_run (shapeSize stridesSize : ℕ) (s : StorageState Size Stride c) :
    (∃ p bytes offset, s.memory.combined.answers 0 = some p ∧ s.memory.combined.buffers p = none ∧
      (combinedAllocation shapeSize stridesSize).run s = (.ok p, { s with memory := { s.memory with
        combined := s.memory.combined.asked.write p ()
          ⟨bytes, List.replicate shapeSize none, offset,
          List.replicate stridesSize none⟩ } })) ∨
    (∃ L, (combinedAllocation shapeSize stridesSize).run s =
        (.error .badAlloc, { s with memory := { s.memory with combined := L } }) ∧
      L.buffers = s.memory.combined.buffers ∧ ¬s.memory.combined.Granting) ∨
    ((combinedAllocation shapeSize stridesSize).run s = (.error .abort, s) ∧
      ¬Fits c shapeSize stridesSize) := by
  rcases combinedAllocation_steps shapeSize stridesSize s with
    ⟨p, strides, -, hp, -, hrun⟩ | ⟨-, hnot, hrun⟩ | ⟨hbytes, hrun⟩
  · exact .inl ⟨p, _, _, hp.1, hp.2, hrun⟩
  · refine .inr (.inl ⟨_, hrun, rfl, fun hgranting => ?_⟩)
    obtain ⟨p, hp⟩ := hgranting.grants
    exact hnot p hp
  · exact .inr (.inr ⟨hrun, fun hfits => Nat.not_le_of_lt hbytes hfits.2.2⟩)

end ShapeStridesStorage

end InfiniRT.Metadata
