import InfiniRT.Metadata.StorageInitializers

/-!
# Default strides

`FillDefaultStrides` goes from the last dimension to the first and multiplies each stride by the
size it steps over.  What it writes depends on the shape only, so all the ways of passing a shape
end with the same lists, whether the strides are computed in the arrays of the object, in a combined
allocation, or in a local vector whose buffer the object takes.  Proved:

* **`fillDefaultStrides_run`** — the loop writes the strides that the shape determines;
* **`constructor_builds`** — every way of passing a shape builds the same lists.
-/

namespace InfiniRT.Metadata

open InfiniRT.Library
open InfiniRT.Library.Ledger (Transfer)
open SmallVector (Holds)

variable {Size Stride : Type} {c : StorageConfig}

/-- The stride of each dimension: one, multiplied by the later sizes from the last to the first. -/
def defaultStrides (one : Stride) (times : Stride → Size → Stride) : List Size → List Stride
  | [] => []
  | _ :: sizes =>
    sizes.foldr (fun size stride => times stride size) one :: defaultStrides one times sizes

namespace ShapeStridesStorage

variable {one : Stride} {times : Stride → Size → Stride} {ls : List Size} {i : ℕ}

@[simp] theorem length_defaultStrides (one : Stride) (times : Stride → Size → Stride)
    (ls : List Size) : (defaultStrides one times ls).length = ls.length := by
  induction ls with
  | nil => rfl
  | cons size sizes ih => simp [defaultStrides, ih]

theorem getElem?_defaultStrides (hi : i < ls.length) :
    (defaultStrides one times ls)[i]? =
      some ((ls.drop (i + 1)).foldr (fun size stride => times stride size) one) := by
  induction ls generalizing i with
  | nil => cases hi
  | cons size sizes ih =>
    cases i with
    | zero => rfl
    | succ i => exact ih (Nat.lt_of_succ_lt_succ hi)

theorem drop_defaultStrides (one : Stride) (times : Stride → Size → Stride) (hi : i < ls.length) :
    (defaultStrides one times ls).drop i =
      (ls.drop (i + 1)).foldr (fun size stride => times stride size) one ::
        (defaultStrides one times ls).drop (i + 1) := by
  have hlen : i < (defaultStrides one times ls).length := by simpa using hi
  rw [List.drop_eq_getElem_cons hlen, ← Option.some_inj.mp
    ((List.getElem?_eq_getElem hlen).symm.trans (getElem?_defaultStrides hi))]

/-! ### The loop -/

section Loop

variable {loadShape : ℕ → StorageAction Size Stride c Size}
  {loadStride : ℕ → StorageAction Size Stride c Stride}
  {storeStride : ℕ → Stride → StorageAction Size Stride c Unit}
  {state : List (Option Stride) → StorageState Size Stride c}

/-- The loop works on the cells of an array of strides, and reads a shape beside it. -/
structure Accesses (loadShape : ℕ → StorageAction Size Stride c Size)
    (loadStride : ℕ → StorageAction Size Stride c Stride)
    (storeStride : ℕ → Stride → StorageAction Size Stride c Unit) (ls : List Size)
    (state : List (Option Stride) → StorageState Size Stride c) : Prop where
  shape : ∀ cells i x, ls[i]? = some x → (loadShape i).run (state cells) = (.ok x, state cells)
  load : ∀ cells i x, cells[i]? = some (some x) →
    (loadStride i).run (state cells) = (.ok x, state cells)
  store : ∀ cells i x, i < cells.length →
    (storeStride i x).run (state cells) = (.ok (), state (cells.set i (some x)))

/-- The strides from a dimension on are done; the loop does the ones before it. -/
theorem fillDefaultStridesFrom_run (h : Accesses loadShape loadStride storeStride ls state)
    {before after : List (Option Stride)} (hi : i < ls.length) (hbefore : before.length = i) :
    (fillDefaultStridesFrom times loadShape loadStride storeStride i).run
        (state (before ++ ((defaultStrides one times ls).drop i).map some ++ after)) =
      (.ok (), state ((defaultStrides one times ls).map some ++ after)) := by
  induction i generalizing before with
  | zero =>
    obtain rfl := List.length_eq_zero_iff.mp hbefore
    rfl
  | succ i ih =>
    obtain ⟨before, cell, rfl⟩ : ∃ before' cell, before = before' ++ [cell] := by
      rcases List.eq_nil_or_concat before with rfl | ⟨before', cell, rfl⟩
      · cases hbefore
      · exact ⟨before', cell, List.concat_eq_append⟩
    have hlen : before.length = i := by simpa using hbefore
    have hdrop := drop_defaultStrides one times hi
    have hshape :=
      h.shape (before ++ [cell] ++ ((defaultStrides one times ls).drop (i + 1)).map some ++
      after) (i + 1) ls[i + 1] (List.getElem?_eq_getElem hi)
    have hload :=
      h.load (before ++ [cell] ++ ((defaultStrides one times ls).drop (i + 1)).map some ++
      after) (i + 1) ((ls.drop (i + 2)).foldr (fun size stride => times stride size) one) (by
        rw [hdrop, List.map_cons]
        simp [hlen])
    have hstore := h.store (before ++ [cell] ++
      ((defaultStrides one times ls).drop (i + 1)).map some ++ after) i
      (times ((ls.drop (i + 2)).foldr (fun size stride => times stride size) one) ls[i + 1])
      (by simp [hlen])
    have hset :
        (before ++ [cell] ++ ((defaultStrides one times ls).drop (i + 1)).map some ++ after).set
        i (some (times ((ls.drop (i + 2)).foldr (fun size stride => times stride size) one)
          ls[i + 1])) =
        before ++ ((defaultStrides one times ls).drop i).map some ++ after := by
      rw [drop_defaultStrides one times (Nat.lt_of_succ_lt hi), List.drop_eq_getElem_cons hi,
        List.foldr_cons]
      simp [← hlen]
    rw [fillDefaultStridesFrom, Action.run_bind_ok hload, Action.run_bind_ok hshape,
      Action.run_bind_ok hstore, hset]
    exact ih (Nat.lt_of_succ_lt hi) hlen

/-- **`FillDefaultStrides`.** -/
theorem fillDefaultStrides_run (one : Stride) (times : Stride → Size → Stride)
    (h : Accesses loadShape loadStride storeStride ls state)
    {cells : List (Option Stride)} (hlen : ls.length ≤ cells.length) :
    (fillDefaultStrides one times loadShape loadStride storeStride ls.length).run (state cells) =
      (.ok (), state ((defaultStrides one times ls).map some ++ cells.drop ls.length)) := by
  unfold fillDefaultStrides
  by_cases hempty : ls.length = 0
  · obtain rfl := List.length_eq_zero_iff.mp hempty
    rfl
  · rw [if_neg hempty]
    have hlast : ls.length - 1 < ls.length := by omega
    have hend : (defaultStrides one times ls).drop ls.length = [] := by simp
    have hstore := h.store cells (ls.length - 1) one (by omega)
    have hset : cells.set (ls.length - 1) (some one) = cells.take (ls.length - 1) ++
        ((defaultStrides one times ls).drop (ls.length - 1)).map some ++ cells.drop ls.length := by
      rw [List.set_eq_take_append_cons_drop, if_pos (by omega), drop_defaultStrides one times hlast,
        Nat.sub_add_cancel (Nat.pos_of_ne_zero hempty), List.drop_length, hend]
      simp
    rw [Action.run_bind_ok hstore, hset]
    exact fillDefaultStridesFrom_run h hlast (by rw [List.length_take]; omega)

end Loop

/-! ### The constructors -/

variable {s s' : StorageState Size Stride c} {lt : List Stride}

theorem writes_defaultStrides (one : Stride) (times : Stride → Size → Stride)
    {shape : List (Ref Size)} (hshape : Refers s.memory.shapes shape ls) :
    Writes (fun d => do
      copyShape shape d
      fillDefaultStrides one times (loadShape d) (loadStride d) (storeStride d) shape.length) s ls
      (defaultStrides one times ls) := by
  intro s₁ d a b hshapes₁ _ harrays ha hb
  have hshape₁ : Refers s₁.memory.shapes shape ls := hshapes₁ ▸ hshape
  have haccess : Accesses (loadShape d) (loadStride d) (storeStride d) ls
      (s₁.putArrays d (ls.map some ++ a.drop ls.length)) := by
    refine ⟨fun cells i x hi => ?_, fun cells i x hi => ?_, fun cells i x hi => ?_⟩
    · refine loadShape_run (arrays_putArrays harrays _ cells) ?_
      obtain ⟨hlt, rfl⟩ := List.getElem?_eq_some_iff.mp hi
      exact getElem?_map_some_append hlt
    · exact loadStride_run (arrays_putArrays harrays _ cells) hi
    · rw [storeStride_run (arrays_putArrays harrays _ cells) hi, putArrays_putArrays harrays]
  rw [length_defaultStrides] at hb ⊢
  rw [Action.run_bind_ok (copyShape_run harrays hshape₁ ha), hshape.length_eq]
  exact fillDefaultStrides_run one times haccess hb

/-- **A forward range**, and a `const Shape&`. -/
theorem initializeDefaultStridesForward_builds (one : Stride) (times : Stride → Size → Stride)
    (hstart : s.this = {}) {shape : List (Ref Size)} (hshape : Refers s.memory.shapes shape ls) :
    Builds (initializeDefaultStridesForward one times shape) s ls (defaultStrides one times ls) :=
  builds_of_initializeWith hstart (writes_defaultStrides one times hshape) hshape.length_eq
    (by rw [length_defaultStrides, hshape.length_eq])

/-- The strides of a local vector are filled in before the object takes its buffer. -/
theorem fillLocalStrides_run (one : Stride) (times : Stride → Size → Stride)
    (hshape : Holds s.memory.shapes s.shape ls) (hv : Holds s.memory.strides s.strides lt)
    (hlen : lt.length = ls.length) (hheap : s.strides.capacity > c.inlineCapacity) :
    ∃ L, (fillDefaultStrides one times (fun i => do onShapes ((← get).shape.element i))
        (fun i => do onStrides ((← get).strides.element i))
        (fun i x => callStrides (SmallVector.construct i x)) ls.length).run s =
      (.ok (), { s with memory := { s.memory with strides := L } }) ∧
      Holds L s.strides (defaultStrides one times ls) ∧
      Transfer s.memory.strides s.strides.owned L s.strides.owned := by
  obtain ⟨hsize, rest, hst⟩ := hv
  rcases s with ⟨m, st, w, v⟩
  dsimp only at hsize hst hheap hshape ⊢
  have hst' := hst
  cases hst with
  | inlined => exact absurd hheap (Nat.lt_irrefl _)
  | @allocated p size capacity _ hcap hmax hcells hp =>
    have haccess : Accesses (fun i => do onShapes ((← get).shape.element i))
        (fun i => do onStrides ((← get).strides.element i))
        (fun i x => callStrides (SmallVector.construct i x)) ls
        (fun cells => (⟨{ m with strides := m.strides.write p capacity cells }, st, w,
          ⟨.heapData p, size, capacity⟩⟩ : StorageState Size Stride c)) := by
      refine ⟨fun cells i x hi => ?_, fun cells i x hi => ?_, fun cells i x hi => ?_⟩
      · obtain ⟨hlt, rfl⟩ := List.getElem?_eq_some_iff.mp hi
        rw [Action.run_bind_ok (Action.run_get _)]
        exact run_onShapes (hshape.element_run hlt fun _ _ => rfl)
      · rw [Action.run_bind_ok (Action.run_get _)]
        refine run_onStrides ?_
        have hload := ArrayHeap.load_run (Ledger.write_buffers_self m.strides p capacity cells) hi
        simpa [SmallVector.element, SmallVector.cell, SmallVector.isHeap, hcap,
          Ref.load] using hload
      · exact run_callStrides (s := ⟨{ m with strides := m.strides.write p capacity cells }, st, w,
          ⟨.heapData p, size, capacity⟩⟩) (SmallVector.construct_run
          (s := ⟨m.strides, ⟨.heapData p, size, capacity⟩⟩) hst' hi size x)
    have hroom : ls.length ≤ (lt.map some ++ rest).length := by
      rw [List.length_append, List.length_map]
      omega
    have hrun := fillDefaultStrides_run one times haccess hroom
    rw [Ledger.write_self hp] at hrun
    refine ⟨_, hrun, ⟨?_, rest, ?_⟩, .written (Ledger.Live.of_buffers hp) List.mem_cons_self _⟩
    · rw [length_defaultStrides]
      exact hsize.trans hlen
    · have hdrop : (lt.map some ++ rest).drop ls.length = rest := by
        rw [← hlen, ← List.length_map (f := some), List.drop_left]
      rw [hdrop]
      refine .allocated hcap hmax ?_ (Ledger.write_buffers_self ..)
      rw [List.length_append, List.length_map, length_defaultStrides, ← hlen]
      rwa [List.length_append, List.length_map] at hcells

/-- The rest of the constructor once the local vector of strides is there. -/
theorem fillAndOwn_builds (one : Stride) (times : Stride → Size → Stride) (hstart : s.this = {})
    (hshape : Holds s.memory.shapes s.shape ls) (hstrides : Holds s.memory.strides s.strides lt)
    (hlen : lt.length = ls.length) (hlong : ls.length > c.inlineCapacity)
    (hheap : s.shape.capacity > c.inlineCapacity) :
    Builds (do
      fillDefaultStrides one times (fun i => do onShapes ((← get).shape.element i))
        (fun i => do onStrides ((← get).strides.element i))
        (fun i x => callStrides (SmallVector.construct i x)) ls.length
      initializeOwned) s ls (defaultStrides one times ls) := by
  have hcap : s.strides.capacity > c.inlineCapacity :=
    Nat.lt_of_lt_of_le (hlen ▸ hlong) hstrides.length_le
  obtain ⟨L, hrun, hholds, htransfer⟩ := fillLocalStrides_run one times hshape hstrides hlen hcap
  rw [Builds, Ends, Action.run_bind_ok hrun]
  rcases initializeOwned_split (s := { s with memory := { s.memory with strides := L } }) hstart
    hshape
      hholds (fun hin => Nat.not_le_of_lt hlong hin.1) ⟨hheap, hcap⟩ with
    ⟨s', hok, hbuilt, hsplit⟩ | habort
  · refine .inl ⟨s', hok, hbuilt.keeps, hbuilt.narrow, hbuilt.shapes,
      htransfer.trans hbuilt.strides, hbuilt.combined, hbuilt.shape_left, ?_⟩
    have hleft := hbuilt.strides_left
    rw [Left, if_pos hsplit] at hleft ⊢
    exact hleft
  · exact .inr (.inr habort)

/-- **`InitializeDefaultStrides(Shape&&)`.** -/
theorem initializeDefaultStridesOwned_builds [Inhabited Stride] (one : Stride)
    (times : Stride → Size → Stride) (hstart : s.this = {}) (hempty : s.strides = {})
    (hshape : Holds s.memory.shapes s.shape ls) :
    Builds (initializeDefaultStridesOwned one times) s ls (defaultStrides one times ls) := by
  unfold initializeDefaultStridesOwned
  rw [Builds, Ends, Action.run_bind_ok (Action.run_get s), hshape.size_eq]
  by_cases hsmall : ls.length ≤ c.inlineCapacity ∨ s.shape.capacity ≤ c.inlineCapacity
  · rw [if_pos hsmall]
    exact initializeDefaultStridesForward_builds one times hstart hshape.cells_reads
  · rw [if_neg hsmall]
    rw [not_or, Nat.not_le, Nat.not_le] at hsmall
    refine localStrides_builds (SmallVector.construction_run
      (SmallVector.initializeCount_run ls.length s.memory.strides)) hempty fun v L hv => ?_
    exact fillAndOwn_builds one times hstart hshape hv List.length_replicate hsmall.1 hsmall.2

/-- **`InitializeDefaultStrides`** of a range of either category. -/
theorem initializeDefaultStrides_builds [Inhabited Stride] (one : Stride)
    (times : Stride → Size → Stride) (hstart : s.this = {}) (hempty : s.shape = {} ∧ s.strides = {})
    {shape : Range Size} (hshape : Refers s.memory.shapes shape.values ls)
    (hmax : shape.category = .input → ls.length ≤ c.shapeMaxSize) :
    Builds (initializeDefaultStrides one times shape) s ls (defaultStrides one times ls) := by
  rcases shape with ⟨category, values⟩
  cases category with
  | forward => exact initializeDefaultStridesForward_builds one times hstart hshape
  | input =>
    refine localShape_builds (constructs_range hshape hmax) hempty.1 fun v L hv => ?_
    exact initializeDefaultStridesOwned_builds one times hstart hempty.2 hv

end ShapeStridesStorage

/-! ### The ways of passing a shape -/

/-- The first argument of the constructors that take a `DefaultStridesTag`. -/
inductive ShapeArgument (Size : Type) (c : StorageConfig)
  | constShape (shape : Shape Size c)
  | movedShape (shape : Shape Size c)
  | range (shape : Range Size)

namespace ShapeArgument

/-- What the constructor runs on: a vector that is moved from is what `Shape&&` refers to. -/
def start (m : Memory Size Stride) : ShapeArgument Size c → StorageState Size Stride c
  | .movedShape shape => ⟨m, {}, shape, {}⟩
  | .constShape _ | .range _ => ⟨m, {}, {}, {}⟩

/-- The constructor that takes the argument. -/
def constructor [Inhabited Stride] (one : Stride) (times : Stride → Size → Stride) :
    ShapeArgument Size c → StorageAction Size Stride c Unit
  | .constShape shape => ShapeStridesStorage.initializeDefaultStridesForward one times shape.cells
  | .movedShape _ => ShapeStridesStorage.initializeDefaultStridesOwned one times
  | .range shape => ShapeStridesStorage.initializeDefaultStrides one times shape

/-- The argument is a shape: a vector that holds the list, with whatever capacity, or a range that
refers to it. -/
def Lists (m : Memory Size Stride) (ls : List Size) : ShapeArgument Size c → Prop
  | .constShape shape | .movedShape shape => Holds m.shapes shape ls
  | .range shape => ShapeStridesStorage.Refers m.shapes shape.values ls

variable {m : Memory Size Stride} {arg : ShapeArgument Size c} {ls : List Size}

/-- **Every way of passing a shape** builds the same lists. -/
theorem constructor_builds [Inhabited Stride] (one : Stride) (times : Stride → Size → Stride)
    (harg : arg.Lists m ls)
    (hmax : ∀ range, arg = .range range → range.category = .input → ls.length ≤ c.shapeMaxSize) :
    ShapeStridesStorage.Builds (arg.constructor one times) (arg.start m) ls
      (defaultStrides one times ls) := by
  cases arg with
  | constShape shape =>
    exact ShapeStridesStorage.initializeDefaultStridesForward_builds one times rfl
      (SmallVector.Holds.cells_reads harg)
  | movedShape shape =>
    exact ShapeStridesStorage.initializeDefaultStridesOwned_builds one times rfl rfl harg
  | range shape =>
    exact ShapeStridesStorage.initializeDefaultStrides_builds one times rfl ⟨rfl, rfl⟩ harg
      (hmax shape rfl)

end ShapeArgument

end InfiniRT.Metadata
