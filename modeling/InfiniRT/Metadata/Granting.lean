import InfiniRT.Metadata.DefaultStrides
import InfiniRT.Metadata.VectorGranting

/-!
# Memory that is not refused

`Granting` of a memory says that its allocators grant every request to come.  No constructor of a
storage throws then, as long as its lists are not longer than an array can be: every array it asks
for holds one of the lists, or has the capacity of a vector, and growth stops at the largest
capacity.

One lemma for each member, along its program text.  Proved:

* **`combinedAllocation_granted`** — a combined allocation is not refused;
* **`initializeWith_granted`** — the lists are copied, with a lemma for each other initializer;
* **`ShapeArgument.constructor_granted`** — every constructor that computes the strides succeeds.
-/

namespace InfiniRT.Metadata

open InfiniRT.Library
open SmallVector (Holds Constructs)

variable {α : Type}

/-! ### Storages -/

/-- Every request to any of the allocators is granted. -/
structure Memory.Granting {Size Stride : Type} (m : Memory Size Stride) : Prop where
  shapes : m.shapes.Granting
  strides : m.strides.Granting
  combined : m.combined.Granting

/-- Every request is granted, and the vectors are not larger than an array can be. -/
structure StorageState.Granting {Size Stride : Type} {c : StorageConfig}
    (s : StorageState Size Stride c) : Prop where
  memory : s.memory.Granting
  shape : s.shape.capacity ≤ c.shapeMaxSize
  strides : s.strides.capacity ≤ c.stridesMaxSize

/-- A constructor that is handed no vectors. -/
theorem Memory.Granting.start {Size Stride : Type} {c : StorageConfig} {m : Memory Size Stride}
    (h : m.Granting) : StorageState.Granting (⟨m, {}, {}, {}⟩ : StorageState Size Stride c) :=
  ⟨h, c.inlineCapacity_le_shape, c.inlineCapacity_le_strides⟩

namespace ShapeStridesStorage

variable {Size Stride : Type} {c : StorageConfig} {s : StorageState Size Stride c} {ls : List Size}
  {lt : List Stride} {body : StorageAction Size Stride c Unit}

/-- The program is not refused memory. -/
abbrev Granted (x : StorageAction Size Stride c α) (s : StorageState Size Stride c) : Prop :=
  x.Spares .badAlloc StorageState.Granting (fun _ _ => True) s

theorem inMemory_granted {x : Action (Memory Size Stride) Fault α} (h : s.Granting)
    (hx : x.Spares .badAlloc Memory.Granting (fun _ _ => True) s.memory) : Granted (inMemory x) s :=
  .zoom hx (fun _ hm => ⟨hm, h.shape, h.strides⟩) fun _ _ _ => trivial

theorem onShapes_granted {x : Action (ArrayHeap Size) Fault α} (h : s.Granting)
    (hx : x.Spares .badAlloc Ledger.Granting (fun _ _ => True) s.memory.shapes) :
    Granted (onShapes x) s :=
  inMemory_granted h (.zoom hx (fun _ hL => ⟨hL, h.memory.strides, h.memory.combined⟩)
    fun _ _ _ => trivial)

theorem onStrides_granted {x : Action (ArrayHeap Stride) Fault α} (h : s.Granting)
    (hx : x.Spares .badAlloc Ledger.Granting (fun _ _ => True) s.memory.strides) :
    Granted (onStrides x) s :=
  inMemory_granted h (.zoom hx (fun _ hL => ⟨h.memory.shapes, hL, h.memory.combined⟩)
    fun _ _ _ => trivial)

theorem callShape_granted {x : VectorAction Size c.shape α} (h : s.Granting)
    (hx : SmallVector.Granted x ⟨s.memory.shapes, s.shape⟩) : Granted (callShape x) s :=
  .zoom hx (fun _ ht => ⟨⟨ht.1, h.memory.strides, h.memory.combined⟩, ht.2, h.strides⟩)
    fun _ _ _ => trivial

theorem callStrides_granted {x : VectorAction Stride c.strides α} (h : s.Granting)
    (hx : SmallVector.Granted x ⟨s.memory.strides, s.strides⟩) : Granted (callStrides x) s :=
  .zoom hx (fun _ ht => ⟨⟨h.memory.shapes, ht.1, h.memory.combined⟩, h.shape, ht.2⟩)
    fun _ _ _ => trivial

/-! ### Writers -/

theorem putArrays_granting (h : s.Granting) (d : Destination) (a : List (Option Size))
    (b : List (Option Stride)) : (s.putArrays d a b).Granting := by
  cases d with
  | inlineStorage => exact ⟨h.memory, h.shape, h.strides⟩
  | combined p =>
    unfold StorageState.putArrays
    dsimp only
    split
    next hp =>
      have hwritten := h.memory.combined.written (by rw [hp]; exact Option.some_ne_none _)
      exact ⟨⟨h.memory.shapes, h.memory.strides, hwritten () _⟩, h.shape, h.strides⟩
    · exact h

theorem loadShape_granted (h : s.Granting) (d : Destination) (i : ℕ) :
    Granted (loadShape d i) s := by
  refine .get_bind ?_
  split
  · exact readCell_spares h _
  · exact .throw h nofun

theorem loadStride_granted (h : s.Granting) (d : Destination) (i : ℕ) :
    Granted (loadStride d i) s := by
  refine .get_bind ?_
  split
  · exact readCell_spares h _
  · exact .throw h nofun

theorem storeShape_granted (h : s.Granting) (d : Destination) (i : ℕ) (x : Size) :
    Granted (storeShape d i x) s := by
  refine .get_bind ?_
  split
  · split
    · exact .modify (putArrays_granting h d _ _) trivial
    · exact .throw h nofun
  · exact .throw h nofun

theorem storeStride_granted (h : s.Granting) (d : Destination) (i : ℕ) (x : Stride) :
    Granted (storeStride d i x) s := by
  refine .get_bind ?_
  split
  · split
    · exact .modify (putArrays_granting h d _ _) trivial
    · exact .throw h nofun
  · exact .throw h nofun

theorem copyShape_granted (h : s.Granting) (range : List (Ref Size)) (d : Destination) :
    Granted (copyShape range d) s := by
  refine writeAll_spares (fun i x _ hs => storeShape_granted hs d i x)
    (fun read hmem s hs => ?_) 0 h
  obtain ⟨r, -, rfl⟩ := List.mem_map.mp hmem
  exact onShapes_granted hs (r.load_spares hs.memory.shapes)

theorem copyStrides_granted (h : s.Granting) (range : List (Ref Stride)) (d : Destination) :
    Granted (copyStrides range d) s := by
  refine writeAll_spares (fun i x _ hs => storeStride_granted hs d i x)
    (fun read hmem s hs => ?_) 0 h
  obtain ⟨r, -, rfl⟩ := List.mem_map.mp hmem
  exact onStrides_granted hs (r.load_spares hs.memory.strides)

section DefaultStrides

variable {times : Stride → Size → Stride} {loadShape : ℕ → StorageAction Size Stride c Size}
  {loadStride : ℕ → StorageAction Size Stride c Stride}
  {storeStride : ℕ → Stride → StorageAction Size Stride c Unit}

theorem fillDefaultStrides_granted (one : Stride) (h : s.Granting)
    (hshape : ∀ i s, s.Granting → Granted (loadShape i) s)
    (hstride : ∀ i s, s.Granting → Granted (loadStride i) s)
    (hstore : ∀ i x s, s.Granting → Granted (storeStride i x) s) (shapeSize : ℕ) :
    Granted (fillDefaultStrides one times loadShape loadStride storeStride shapeSize) s := by
  have hloop : ∀ index s, s.Granting →
      Granted (fillDefaultStridesFrom times loadShape loadStride storeStride index) s := by
    intro index
    induction index with
    | zero => exact fun s hs => .pure hs trivial
    | succ index ih =>
      exact fun s hs => .bind (hstride _ s hs) fun stride s₁ _ h₁ =>
        .bind (hshape _ s₁ h₁) fun size s₂ _ h₂ =>
        .bind (hstore index _ s₂ h₂) fun _ s₃ _ h₃ => ih s₃ h₃
  unfold fillDefaultStrides
  split
  · exact .pure h trivial
  · exact .bind (hstore _ one s h) fun _ s₁ _ h₁ => hloop _ s₁ h₁

end DefaultStrides

/-! ### Initializers -/

theorem narrowSize_granted (h : s.Granting) (size : ℕ) : Granted (narrowSize size) s := by
  unfold narrowSize
  split
  · exact .throw h nofun
  · exact .pure h trivial

theorem combinedAllocation_granted (h : s.Granting) (shapeSize stridesSize : ℕ) :
    Granted (combinedAllocation shapeSize stridesSize) s := by
  rcases combinedAllocation_run shapeSize stridesSize s with
    ⟨p, bytes, offset, hanswer, -, hrun⟩ | ⟨L, -, -, hnot⟩ | ⟨hrun, -⟩
  · have hgranted := h.memory.combined.granted hanswer () ⟨bytes, List.replicate shapeSize none,
      offset, List.replicate stridesSize none⟩
    exact .of_ok hrun ⟨⟨h.memory.shapes, h.memory.strides, hgranted⟩, h.shape, h.strides⟩ trivial
  · exact absurd h.memory.combined hnot
  · exact .of_error hrun h nofun

/-- **`Initialize`.** -/
theorem initializeWith_granted (h : s.Granting) (shapeSize stridesSize : ℕ)
    {writer : Destination → StorageAction Size Stride c Unit}
    (hwriter : ∀ d s, s.Granting → Granted (writer d) s) :
    Granted (initializeWith shapeSize stridesSize writer) s := by
  refine .bind (narrowSize_granted h shapeSize) fun _ s₁ _ h₁ =>
    .bind (narrowSize_granted h₁ stridesSize) fun _ s₂ _ h₂ => ?_
  split
  · exact .bind (hwriter _ s₂ h₂) fun _ s₃ _ h₃ =>
      .modify ⟨h₃.memory, h₃.shape, h₃.strides⟩ trivial
  · exact .bind (combinedAllocation_granted h₂ shapeSize stridesSize) fun p s₃ _ h₃ =>
      .bind (hwriter _ s₃ h₃) fun _ s₄ _ h₄ => .modify ⟨h₄.memory, h₄.shape, h₄.strides⟩ trivial

theorem initializeForwardRanges_granted (h : s.Granting) (shape : List (Ref Size))
    (strides : List (Ref Stride)) : Granted (initializeForwardRanges shape strides) s :=
  initializeWith_granted h _ _ fun d _ hs => .bind (copyShape_granted hs shape d) fun _ _ _ h₁ =>
    copyStrides_granted h₁ strides d

theorem initializeOwned_granted (h : s.Granting) : Granted initializeOwned s := by
  refine .get_bind ?_
  dsimp only
  split
  · exact initializeForwardRanges_granted h _ _
  · split
    · exact .bind (narrowSize_granted h _) fun _ s₁ _ h₁ =>
        .bind (narrowSize_granted h₁ _) fun _ s₂ _ h₂ =>
        .bind (callShape_granted h₂ (SmallVector.releaseHeap_granted ⟨h₂.memory.shapes, h₂.shape⟩))
          fun _ s₃ _ h₃ =>
        .bind (callStrides_granted h₃
          (SmallVector.releaseHeap_granted ⟨h₃.memory.strides, h₃.strides⟩)) fun _ s₄ _ h₄ =>
        .modify ⟨h₄.memory, h₄.shape, h₄.strides⟩ trivial
    · exact initializeForwardRanges_granted h _ _

/-! ### Local vectors -/

theorem leaving_granted {x : StorageAction Size Stride c α}
    {leave : StorageAction Size Stride c Unit}
    (hx : Granted x s) (hleave : ∀ s, s.Granting → Granted leave s) :
    Granted (leaving x leave) s := by
  refine .bind (.tryCatch hx fun e s₁ hne h₁ => ?_) fun a s₁ _ h₁ =>
    .bind (hleave s₁ h₁) fun _ s₂ _ h₂ => .pure h₂ trivial
  rw [if_neg hne]
  exact .throw h₁ hne

/-- A scope with a local `Shape`. -/
theorem localShape_granted {make : Action (ArrayHeap Size) Fault (Shape Size c)} {lv : List Size}
    (h : s.Granting)
    (hmake : make.Spares .badAlloc Ledger.Granting (fun _ _ => True) s.memory.shapes)
    (hlist : Constructs make s.memory.shapes lv)
    (hbody : ∀ v L, Holds L v lv →
      StorageState.Granting { s with memory := { s.memory with shapes := L }, shape := v } →
      Granted body { s with memory := { s.memory with shapes := L }, shape := v }) :
    Granted (do let v ← onShapes make; withShape v body) s := by
  have hL := hmake.1
  rcases hlist with ⟨v, L, hrun, hv, -⟩ | ⟨L, hrun, -⟩
  · rw [hrun] at hL
    refine .bind_of_ok (run_onShapes hrun) (.bind_of_ok (Action.run_get _) (.bind_of_ok
      (Action.run_modify _ _) (leaving_granted (hbody v L hv ?_) fun s₂ h₂ => .get_bind ?_)))
    · exact ⟨⟨hL, h.memory.strides, h.memory.combined⟩, hv.capacity_le, h.strides⟩
    · exact .bind (onShapes_granted h₂ (SmallVector.destroy_spares h₂.memory.shapes _))
        fun _ s₃ _ h₃ => .modify ⟨h₃.memory, h.shape, h₃.strides⟩ trivial
  · exact absurd hrun hmake.ne_error

/-- A scope with a local `Strides`. -/
theorem localStrides_granted {make : Action (ArrayHeap Stride) Fault (Strides Stride c)}
    {lv : List Stride} (h : s.Granting)
    (hmake : make.Spares .badAlloc Ledger.Granting (fun _ _ => True) s.memory.strides)
    (hlist : Constructs make s.memory.strides lv)
    (hbody : ∀ v L, Holds L v lv →
      StorageState.Granting { s with memory := { s.memory with strides := L }, strides := v } →
      Granted body { s with memory := { s.memory with strides := L }, strides := v }) :
    Granted (do let v ← onStrides make; withStrides v body) s := by
  have hL := hmake.1
  rcases hlist with ⟨v, L, hrun, hv, -⟩ | ⟨L, hrun, -⟩
  · rw [hrun] at hL
    refine .bind_of_ok (run_onStrides hrun) (.bind_of_ok (Action.run_get _) (.bind_of_ok
      (Action.run_modify _ _) (leaving_granted (hbody v L hv ?_) fun s₂ h₂ => .get_bind ?_)))
    · exact ⟨⟨h.memory.shapes, hL, h.memory.combined⟩, h.shape, hv.capacity_le⟩
    · exact .bind (onStrides_granted h₂ (SmallVector.destroy_spares h₂.memory.strides _))
        fun _ s₃ _ h₃ => .modify ⟨h₃.memory, h₃.shape, h.strides⟩ trivial
  · exact absurd hrun hmake.ne_error

/-! ### Constructors -/

theorem initializeRanges_granted (h : s.Granting) {shape : Range Size} {strides : Range Stride}
    (hshape : Refers s.memory.shapes shape.values ls)
    (hstrides : Refers s.memory.strides strides.values lt) (hls : ls.length ≤ c.shapeMaxSize)
    (hlt : lt.length ≤ c.stridesMaxSize) : Granted (initializeRanges shape strides) s := by
  unfold initializeRanges
  split
  · exact initializeForwardRanges_granted h _ _
  · have hshapeMake := SmallVector.construction_spares (SmallVector.initializeRange_granted
      (c := c.shape) (s := ⟨s.memory.shapes, {}⟩) ⟨h.memory.shapes, c.inlineCapacity_le_shape⟩
      shape.category (hshape.length_eq ▸ hls))
    have hstridesMake := SmallVector.construction_spares (SmallVector.initializeRange_granted
      (c := c.strides) (s := ⟨s.memory.strides, {}⟩) ⟨h.memory.strides, c.inlineCapacity_le_strides⟩
      strides.category (hstrides.length_eq ▸ hlt))
    refine localShape_granted h hshapeMake (constructs_range hshape fun _ => hls) fun v L _ h₁ => ?_
    exact localStrides_granted h₁ hstridesMake (constructs_range hstrides fun _ => hlt)
      fun u L' _ h₂ => initializeOwned_granted h₂

theorem initializeMixedShape_granted (h : s.Granting) {strides : Strides Stride c}
    (hstrides : Holds s.memory.strides strides lt) : Granted (initializeMixedShape strides) s := by
  refine .get_bind ?_
  split
  · refine localStrides_granted h ?_ (SmallVector.construction_run
      (SmallVector.copyConstructFrom_run hstrides)) fun u L _ h₁ => initializeOwned_granted h₁
    exact SmallVector.construction_spares (SmallVector.copyConstructFrom_granted
      ⟨h.memory.strides, c.inlineCapacity_le_strides⟩ hstrides.capacity_le)
  · exact initializeForwardRanges_granted h _ _

theorem initializeMixedStrides_granted (h : s.Granting) {shape : Shape Size c}
    (hshape : Holds s.memory.shapes shape ls) : Granted (initializeMixedStrides shape) s := by
  refine .get_bind ?_
  split
  · refine localShape_granted h ?_ (SmallVector.construction_run
      (SmallVector.copyConstructFrom_run hshape)) fun v L _ h₁ => initializeOwned_granted h₁
    exact SmallVector.construction_spares (SmallVector.copyConstructFrom_granted
      ⟨h.memory.shapes, c.inlineCapacity_le_shape⟩ hshape.capacity_le)
  · exact initializeForwardRanges_granted h _ _

theorem initializeDefaultStridesForward_granted (one : Stride) (times : Stride → Size → Stride)
    (h : s.Granting) (shape : List (Ref Size)) :
    Granted (initializeDefaultStridesForward one times shape) s :=
  initializeWith_granted h _ _ fun d _ hs => .bind (copyShape_granted hs shape d) fun _ _ _ h₁ =>
    fillDefaultStrides_granted one h₁ (fun i _ hs => loadShape_granted hs d i)
      (fun i _ hs => loadStride_granted hs d i) (fun i x _ hs => storeStride_granted hs d i x) _

theorem initializeDefaultStridesOwned_granted [Inhabited Stride] (one : Stride)
    (times : Stride → Size → Stride) (h : s.Granting) (hsize : s.shape.size ≤ c.stridesMaxSize) :
    Granted (initializeDefaultStridesOwned one times) s := by
  refine .get_bind ?_
  split
  · exact initializeDefaultStridesForward_granted one times h _
  · refine localStrides_granted h ?_ (SmallVector.construction_run
      (SmallVector.initializeCount_run s.shape.size s.memory.strides)) fun u L _ h₁ => ?_
    · exact SmallVector.construction_spares (SmallVector.initializeCount_granted
        ⟨h.memory.strides, c.inlineCapacity_le_strides⟩ hsize)
    · refine .bind (fillDefaultStrides_granted one h₁ (fun i s₂ h₂ => .get_bind ?_)
        (fun i s₂ h₂ => .get_bind ?_) (fun i x s₂ h₂ => ?_) _) fun _ s₂ _ h₂ =>
        initializeOwned_granted h₂
      · exact onShapes_granted h₂ (Ref.load_spares h₂.memory.shapes _)
      · exact onStrides_granted h₂ (Ref.load_spares h₂.memory.strides _)
      · exact callStrides_granted h₂
          (SmallVector.construct_granted ⟨h₂.memory.strides, h₂.strides⟩ i x)

theorem initializeDefaultStrides_granted [Inhabited Stride] (one : Stride)
    (times : Stride → Size → Stride) (h : s.Granting) {shape : Range Size}
    (hshape : Refers s.memory.shapes shape.values ls) (hls : ls.length ≤ c.shapeMaxSize)
    (hlt : ls.length ≤ c.stridesMaxSize) :
    Granted (initializeDefaultStrides one times shape) s := by
  rcases shape with ⟨category, values⟩
  cases category with
  | forward => exact initializeDefaultStridesForward_granted one times h values
  | input =>
    refine localShape_granted h ?_ (constructs_range hshape fun _ => hls) fun v L hv h₁ => ?_
    · exact SmallVector.construction_spares (SmallVector.initializeRange_granted
        ⟨h.memory.shapes, c.inlineCapacity_le_shape⟩ _ (hshape.length_eq ▸ hls))
    · exact initializeDefaultStridesOwned_granted one times h₁ (hv.size_eq ▸ hlt)

end ShapeStridesStorage

/-- **Every way of passing a shape.** -/
theorem ShapeArgument.constructor_granted {Size Stride : Type} {c : StorageConfig}
    [Inhabited Stride] (one : Stride) (times : Stride → Size → Stride) {m : Memory Size Stride}
    {arg : ShapeArgument Size c} {ls : List Size} (h : m.Granting) (harg : arg.Lists m ls)
    (hls : ls.length ≤ c.shapeMaxSize) (hlt : ls.length ≤ c.stridesMaxSize) :
    ShapeStridesStorage.Granted (arg.constructor one times) (arg.start m) := by
  cases arg with
  | constShape shape =>
    exact ShapeStridesStorage.initializeDefaultStridesForward_granted one times h.start _
  | movedShape shape =>
    exact ShapeStridesStorage.initializeDefaultStridesOwned_granted one times
      ⟨h, SmallVector.Holds.capacity_le harg, c.inlineCapacity_le_strides⟩
      (SmallVector.Holds.size_eq harg ▸ hlt)
  | range shape =>
    exact ShapeStridesStorage.initializeDefaultStrides_granted one times h.start harg hls hlt

end InfiniRT.Metadata
