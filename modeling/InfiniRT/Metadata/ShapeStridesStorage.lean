import InfiniRT.Metadata.SmallVector

/-!
# `ShapeStridesStorage`

The member functions of `ShapeStridesStorage`, one definition each.  Storage is a union of two
inline arrays and a `HeapStorage`, which is either one combined allocation or two buffers that were
taken from vectors.  As for a vector, the constructor of the union says which member was written
last, and `IsInline` and `IsCombined` infer it from the sizes and from a pointer.

A constructor runs on a `StorageState`: the memory, the object, and the two vectors that `Shape&&`
and `Strides&&` refer to.  A throw keeps what was written before it and destroys the local vectors
on the way; `std::abort` does not return.  A combined allocation is a number of bytes with the two
arrays placed in it, and it is an error to place them so that they overlap or stick out.
The main definitions:

* **`ShapeStridesStorage`** — the sizes and the union, with `HeapStorage`;
* **`combinedAllocation`** — one allocation for both arrays, with `std::align`;
* **`fillDefaultStrides`** — the loop from the last dimension to the first;
* **`initializeWith`** — one of the initializers, which copy lists or take buffers over.
-/

namespace InfiniRT.Metadata

open InfiniRT.Library

/-- The template arguments, what the platform says about the two types, and the largest
`std::size_t`. -/
structure StorageConfig where
  inlineCapacity : ℕ
  shapeMaxSize : ℕ
  stridesMaxSize : ℕ
  sizeofSize : ℕ
  sizeofStride : ℕ
  alignofStride : ℕ
  sizeMax : ℕ
  inlineCapacity_pos : 0 < inlineCapacity
  inlineCapacity_le_shape : inlineCapacity ≤ shapeMaxSize
  inlineCapacity_le_strides : inlineCapacity ≤ stridesMaxSize
  alignofStride_pos : 0 < alignofStride
  alignofStride_le : alignofStride ≤ sizeMax

namespace StorageConfig

/-- `SmallVector<Size, inline_capacity>`. -/
def shape (c : StorageConfig) : Config :=
  ⟨c.inlineCapacity, c.shapeMaxSize, c.inlineCapacity_pos, c.inlineCapacity_le_shape⟩

/-- `SmallVector<Stride, inline_capacity>`. -/
def strides (c : StorageConfig) : Config :=
  ⟨c.inlineCapacity, c.stridesMaxSize, c.inlineCapacity_pos, c.inlineCapacity_le_strides⟩

end StorageConfig

variable {Size Stride : Type} {c : StorageConfig}

/-- `Shape`. -/
abbrev Shape (Size : Type) (c : StorageConfig) := SmallVector Size c.shape

/-- `Strides`. -/
abbrev Strides (Stride : Type) (c : StorageConfig) := SmallVector Stride c.strides

/-- The arrays in a combined allocation; the shape is at its start. -/
structure Combined (Size Stride : Type) where
  bytes : ℕ
  shape : List (Option Size)
  stridesOffset : ℕ
  strides : List (Option Stride)
  deriving DecidableEq, Repr

/-- The arrays of `std::allocator<Size>` and `std::allocator<Stride>`, and what `operator new`
gave. -/
structure Memory (Size Stride : Type) where
  shapes : ArrayHeap Size
  strides : ArrayHeap Stride
  combined : Ledger Unit (Combined Size Stride)

namespace Memory

variable {α : Type}

def onShapes (x : Action (ArrayHeap Size) Fault α) : Action (Memory Size Stride) Fault α :=
  Action.zoom Memory.shapes (fun L m => { m with shapes := L }) x

def onStrides (x : Action (ArrayHeap Stride) Fault α) : Action (Memory Size Stride) Fault α :=
  Action.zoom Memory.strides (fun L m => { m with strides := L }) x

def onCombined (x : Action (Ledger Unit (Combined Size Stride)) Fault α) :
    Action (Memory Size Stride) Fault α :=
  Action.zoom Memory.combined (fun L m => { m with combined := L }) x

end Memory

/-- A `Size*` or `Stride*` in a `HeapStorage`: a buffer of the allocator, which may be the null
pointer, or an array in a combined allocation. -/
inductive Pointer
  | buffer (data : Option Address)
  | inCombined (allocation : Address)
  deriving DecidableEq, Repr

/-- `ShapeStridesStorage::HeapStorage`. -/
structure HeapStorage where
  allocation : Option Address
  shape : Pointer
  strides : Pointer
  shapeCapacity : ℕ
  stridesCapacity : ℕ
  deriving DecidableEq, Repr

/-- `ShapeStridesStorage::Storage`, with the member that was written last. -/
inductive StorageUnion (Size Stride : Type)
  | inlineStorage (shape : List (Option Size)) (strides : List (Option Stride))
  | heapStorage (heap : HeapStorage)
  deriving DecidableEq, Repr

/-- `ShapeStridesStorage`. -/
structure ShapeStridesStorage (Size Stride : Type) (c : StorageConfig) where
  storage : StorageUnion Size Stride :=
    .inlineStorage (List.replicate c.inlineCapacity none) (List.replicate c.inlineCapacity none)
  shapeSize : ℕ := 0
  stridesSize : ℕ := 0
  deriving DecidableEq, Repr

/-- What a constructor runs on. -/
structure StorageState (Size Stride : Type) (c : StorageConfig) where
  memory : Memory Size Stride
  this : ShapeStridesStorage Size Stride c
  shape : Shape Size c
  strides : Strides Stride c

/-- A member function of `ShapeStridesStorage`. -/
abbrev StorageAction (Size Stride : Type) (c : StorageConfig) :=
  Action (StorageState Size Stride c) Fault

/-- A range of values that convert to `T`. -/
structure Range (T : Type) where
  category : Category
  values : List (Ref T)

/-- The two arrays a writer is given. -/
inductive Destination
  | inlineStorage
  | combined (allocation : Address)
  deriving DecidableEq, Repr

namespace StorageState

/-- The cells of a destination. -/
def arrays (s : StorageState Size Stride c) :
    Destination → Option (List (Option Size) × List (Option Stride))
  | .inlineStorage =>
    match s.this.storage with
    | .inlineStorage shape strides => some (shape, strides)
    | .heapStorage _ => none
  | .combined p => (s.memory.combined.buffers p).map fun b => (b.2.shape, b.2.strides)

/-- Write the cells of a destination. -/
def putArrays (s : StorageState Size Stride c) (d : Destination) (shape : List (Option Size))
    (strides : List (Option Stride)) : StorageState Size Stride c :=
  match d with
  | .inlineStorage => { s with this := { s.this with storage := .inlineStorage shape strides } }
  | .combined p =>
    match s.memory.combined.buffers p with
    | some (_, content) =>
      { s with memory := { s.memory with
          combined := s.memory.combined.write p () { content with shape, strides } } }
    | none => s

end StorageState

namespace ShapeStridesStorage

/-! ### Where a function works -/

def inMemory {α : Type} (x : Action (Memory Size Stride) Fault α) : StorageAction Size Stride c α :=
  Action.zoom StorageState.memory (fun m s => { s with memory := m }) x

def onShapes {α : Type} (x : Action (ArrayHeap Size) Fault α) : StorageAction Size Stride c α :=
  inMemory (Memory.onShapes x)

def onStrides {α : Type} (x : Action (ArrayHeap Stride) Fault α) : StorageAction Size Stride c α :=
  inMemory (Memory.onStrides x)

/-- Call a member function of the vector that `Shape&&` refers to. -/
def callShape {α : Type} (x : VectorAction Size c.shape α) : StorageAction Size Stride c α :=
  Action.zoom (fun s => ⟨s.memory.shapes, s.shape⟩)
    (fun t s => { s with memory := { s.memory with shapes := t.heap }, shape := t.this }) x

/-- Call a member function of the vector that `Strides&&` refers to. -/
def callStrides {α : Type} (x : VectorAction Stride c.strides α) : StorageAction Size Stride c α :=
  Action.zoom (fun s => ⟨s.memory.strides, s.strides⟩)
    (fun t s => { s with memory := { s.memory with strides := t.heap }, strides := t.this }) x

/-- Leave a scope: on return or by an exception, not by `std::abort`. -/
def leaving {α : Type} (x : StorageAction Size Stride c α)
    (leave : StorageAction Size Stride c Unit) :
    StorageAction Size Stride c α := do
  let a ← tryCatch x fun e => do
    if e = .badAlloc then leave
    throw e
  leave
  return a

/-- A scope with a local `Shape`. -/
def withShape (v : Shape Size c) (body : StorageAction Size Stride c Unit) :
    StorageAction Size Stride c Unit := do
  let outer := (← get).shape
  modify fun s => { s with shape := v }
  leaving body do
    onShapes (← get).shape.destroy
    modify fun s => { s with shape := outer }

/-- A scope with a local `Strides`. -/
def withStrides (v : Strides Stride c) (body : StorageAction Size Stride c Unit) :
    StorageAction Size Stride c Unit := do
  let outer := (← get).strides
  modify fun s => { s with strides := v }
  leaving body do
    onStrides (← get).strides.destroy
    modify fun s => { s with strides := outer }

/-! ### Combined allocations -/

/-- `CheckedMultiply`. -/
def checkedMultiply (left right : ℕ) : StorageAction Size Stride c ℕ :=
  if right ≠ 0 ∧ left > c.sizeMax / right then throw .abort else pure (left * right)

/-- `CheckedAdd`. -/
def checkedAdd (left right : ℕ) : StorageAction Size Stride c ℕ :=
  if left > c.sizeMax - right then throw .abort else pure (left + right)

/-- `std::align`: the first aligned address from `pointer` on, if `size` bytes fit there. -/
def align (alignment size pointer space : ℕ) : Option ℕ :=
  let aligned := (pointer + alignment - 1) / alignment * alignment
  if aligned - pointer + size ≤ space then some aligned else none

/-- Place the two arrays in an allocation of `bytes` bytes, the second at the address `strides`. -/
def placeArrays (p : Address) (bytes shapeSize stridesSize strides : ℕ) :
    StorageAction Size Stride c Unit := do
  if strides % c.alignofStride = 0 ∧ p + shapeSize * c.sizeofSize ≤ strides ∧
      strides + stridesSize * c.sizeofStride ≤ p + bytes then
    modify fun s => { s with memory := { s.memory with
      combined := s.memory.combined.write p ()
        { bytes
          shape := List.replicate shapeSize none
          stridesOffset := strides - p
          strides := List.replicate stridesSize none } } }
  else throw .undefined

/-- The constructor of `CombinedAllocation`. -/
def combinedAllocation (shapeSize stridesSize : ℕ) : StorageAction Size Stride c Address := do
  let shapeBytes ← checkedMultiply shapeSize c.sizeofSize
  let stridesBytes ← checkedMultiply stridesSize c.sizeofStride
  let padding := c.alignofStride - 1
  let bytes ← checkedAdd (← checkedAdd shapeBytes padding) stridesBytes
  let p ← inMemory (Memory.onCombined (Ledger.allocate ()
    ({ bytes, shape := [], stridesOffset := 0, strides := [] } : Combined Size Stride)))
  match align c.alignofStride stridesBytes (p + shapeBytes) (bytes - shapeBytes) with
  | some strides => do
    placeArrays p bytes shapeSize stridesSize strides
    return p
  | none => throw .abort

/-! ### Views -/

/-- `IsInline`. -/
def isInline (st : ShapeStridesStorage Size Stride c) : Bool :=
  decide (st.shapeSize ≤ c.inlineCapacity ∧ st.stridesSize ≤ c.inlineCapacity)

/-- `ShapeData() + i`; the member of the union that was not written cannot be read. -/
def shapeCell (st : ShapeStridesStorage Size Stride c) (m : Memory Size Stride) (i : ℕ) :
    Ref Size :=
  match st.isInline, st.storage with
  | true, .inlineStorage shape _ => .fixed shape[i]?.join
  | false, .heapStorage heap =>
    match heap.shape with
    | .buffer (some p) => .heapCell p i
    | .buffer none => .fixed none
    | .inCombined p => .fixed ((m.combined.buffers p).bind fun b => b.2.shape[i]?.join)
  | _, _ => .fixed none

/-- `StridesData() + i`. -/
def stridesCell (st : ShapeStridesStorage Size Stride c) (m : Memory Size Stride) (i : ℕ) :
    Ref Stride :=
  match st.isInline, st.storage with
  | true, .inlineStorage _ strides => .fixed strides[i]?.join
  | false, .heapStorage heap =>
    match heap.strides with
    | .buffer (some p) => .heapCell p i
    | .buffer none => .fixed none
    | .inCombined p => .fixed ((m.combined.buffers p).bind fun b => b.2.strides[i]?.join)
  | _, _ => .fixed none

/-- `shape`. -/
def shape (st : ShapeStridesStorage Size Stride c) (m : Memory Size Stride) : List (Ref Size) :=
  (List.range st.shapeSize).map (st.shapeCell m)

/-- `strides`. -/
def strides (st : ShapeStridesStorage Size Stride c) (m : Memory Size Stride) : List (Ref Stride) :=
  (List.range st.stridesSize).map (st.stridesCell m)

/-- The values of `shape()`. -/
def readShape (st : ShapeStridesStorage Size Stride c) (m : Memory Size Stride) :
    Except Fault (List Size) :=
  ((readAll ((st.shape m).map Ref.load)).run m.shapes).1

/-- The values of `strides()`. -/
def readStrides (st : ShapeStridesStorage Size Stride c) (m : Memory Size Stride) :
    Except Fault (List Stride) :=
  ((readAll ((st.strides m).map Ref.load)).run m.strides).1

/-! ### Writers -/

def loadShape (d : Destination) (i : ℕ) : StorageAction Size Stride c Size := do
  match (← get).arrays d with
  | some (shape, _) => readCell shape[i]?
  | none => throw .undefined

def loadStride (d : Destination) (i : ℕ) : StorageAction Size Stride c Stride := do
  match (← get).arrays d with
  | some (_, strides) => readCell strides[i]?
  | none => throw .undefined

def storeShape (d : Destination) (i : ℕ) (x : Size) : StorageAction Size Stride c Unit := do
  match (← get).arrays d with
  | some (shape, strides) =>
    if i < shape.length then modify (·.putArrays d (shape.set i (some x)) strides)
    else throw .undefined
  | none => throw .undefined

def storeStride (d : Destination) (i : ℕ) (x : Stride) : StorageAction Size Stride c Unit := do
  match (← get).arrays d with
  | some (shape, strides) =>
    if i < strides.length then modify (·.putArrays d shape (strides.set i (some x)))
    else throw .undefined
  | none => throw .undefined

/-- `CopyRange` of a shape. -/
def copyShape (range : List (Ref Size)) (d : Destination) : StorageAction Size Stride c Unit :=
  writeAll (storeShape d) 0 (range.map fun r => onShapes r.load)

/-- `CopyRange` of strides. -/
def copyStrides (range : List (Ref Stride)) (d : Destination) : StorageAction Size Stride c Unit :=
  writeAll (storeStride d) 0 (range.map fun r => onStrides r.load)

/-- The loop of `FillDefaultStrides`; `times` is `Stride * Size` in the types of the language. -/
def fillDefaultStridesFrom (times : Stride → Size → Stride)
    (loadShape : ℕ → StorageAction Size Stride c Size)
    (loadStride : ℕ → StorageAction Size Stride c Stride)
    (storeStride : ℕ → Stride → StorageAction Size Stride c Unit) :
    ℕ → StorageAction Size Stride c Unit
  | 0 => pure ()
  | index + 1 => do
    let stride ← loadStride (index + 1)
    let size ← loadShape (index + 1)
    storeStride index (times stride size)
    fillDefaultStridesFrom times loadShape loadStride storeStride index

/-- `FillDefaultStrides`. -/
def fillDefaultStrides (one : Stride) (times : Stride → Size → Stride)
    (loadShape : ℕ → StorageAction Size Stride c Size)
    (loadStride : ℕ → StorageAction Size Stride c Stride)
    (storeStride : ℕ → Stride → StorageAction Size Stride c Unit) (shapeSize : ℕ) :
    StorageAction Size Stride c Unit :=
  if shapeSize = 0 then pure ()
  else do
    storeStride (shapeSize - 1) one
    fillDefaultStridesFrom times loadShape loadStride storeStride (shapeSize - 1)

/-! ### Initialization -/

/-- `NarrowSize`. -/
def narrowSize (size : ℕ) : StorageAction Size Stride c ℕ :=
  if size > 2 ^ 32 - 1 then throw .abort else pure size

/-- Write the sizes. -/
def setSizes (shapeSize stridesSize : ℕ) : StorageAction Size Stride c Unit :=
  modify fun s => { s with this := { s.this with shapeSize, stridesSize } }

/-- `ActivateCombined`. -/
def activateCombined (p : Address) (shapeSize stridesSize : ℕ) : StorageAction Size Stride c Unit :=
  modify fun s => { s with this :=
    ⟨.heapStorage ⟨some p, .inCombined p, .inCombined p, 0, 0⟩, shapeSize, stridesSize⟩ }

/-- `ActivateSplit`. -/
def activateSplit (shape strides : HeapAllocation) (shapeSize stridesSize : ℕ) :
    StorageAction Size Stride c Unit :=
  modify fun s => { s with this :=
    ⟨.heapStorage ⟨none, .buffer shape.data, .buffer strides.data, shape.capacity,
      strides.capacity⟩, shapeSize, stridesSize⟩ }

/-- `Initialize`. -/
def initializeWith (shapeSize stridesSize : ℕ)
    (writer : Destination → StorageAction Size Stride c Unit) :
    StorageAction Size Stride c Unit := do
  let narrowedShapeSize ← narrowSize shapeSize
  let narrowedStridesSize ← narrowSize stridesSize
  if shapeSize ≤ c.inlineCapacity ∧ stridesSize ≤ c.inlineCapacity then do
    writer .inlineStorage
    setSizes narrowedShapeSize narrowedStridesSize
  else do
    let p ← combinedAllocation shapeSize stridesSize
    writer (.combined p)
    activateCombined p narrowedShapeSize narrowedStridesSize

/-- `InitializeRanges` of two forward ranges. -/
def initializeForwardRanges (shape : List (Ref Size)) (strides : List (Ref Stride)) :
    StorageAction Size Stride c Unit :=
  initializeWith shape.length strides.length fun d => do
    copyShape shape d
    copyStrides strides d

/-- `InitializeOwned`.  The vectors are forward ranges. -/
def initializeOwned : StorageAction Size Stride c Unit := do
  let s ← get
  let shapeSize := s.shape.size
  let stridesSize := s.strides.size
  if shapeSize ≤ c.inlineCapacity ∧ stridesSize ≤ c.inlineCapacity then
    initializeForwardRanges s.shape.cells s.strides.cells
  else if s.shape.capacity > c.inlineCapacity ∧ s.strides.capacity > c.inlineCapacity then do
    let narrowedShapeSize ← narrowSize shapeSize
    let narrowedStridesSize ← narrowSize stridesSize
    let shapeAllocation ← callShape SmallVector.releaseHeap
    let stridesAllocation ← callStrides SmallVector.releaseHeap
    activateSplit shapeAllocation stridesAllocation narrowedShapeSize narrowedStridesSize
  else initializeForwardRanges s.shape.cells s.strides.cells

/-- `InitializeRanges`. -/
def initializeRanges (shape : Range Size) (strides : Range Stride) :
    StorageAction Size Stride c Unit :=
  if shape.category = .forward ∧ strides.category = .forward then
    initializeForwardRanges shape.values strides.values
  else do
    let ownedShape ← onShapes
      (SmallVector.construction (SmallVector.initializeRange shape.category shape.values))
    withShape ownedShape do
      let ownedStrides ← onStrides
        (SmallVector.construction (SmallVector.initializeRange strides.category strides.values))
      withStrides ownedStrides initializeOwned

/-- `InitializeMixed(Shape&&, const Strides&)`. -/
def initializeMixedShape (strides : Strides Stride c) : StorageAction Size Stride c Unit := do
  let s ← get
  if s.shape.size > c.inlineCapacity ∧ strides.size > c.inlineCapacity ∧
      s.shape.capacity > c.inlineCapacity then do
    let ownedStrides ← onStrides
      (SmallVector.construction (SmallVector.copyConstructFrom strides))
    withStrides ownedStrides initializeOwned
  else initializeForwardRanges s.shape.cells strides.cells

/-- `InitializeMixed(const Shape&, Strides&&)`. -/
def initializeMixedStrides (shape : Shape Size c) : StorageAction Size Stride c Unit := do
  let s ← get
  if shape.size > c.inlineCapacity ∧ s.strides.size > c.inlineCapacity ∧
      s.strides.capacity > c.inlineCapacity then do
    let ownedShape ← onShapes (SmallVector.construction (SmallVector.copyConstructFrom shape))
    withShape ownedShape initializeOwned
  else initializeForwardRanges shape.cells s.strides.cells

/-- `InitializeDefaultStrides` of a forward range. -/
def initializeDefaultStridesForward (one : Stride) (times : Stride → Size → Stride)
    (shape : List (Ref Size)) : StorageAction Size Stride c Unit :=
  initializeWith shape.length shape.length fun d => do
    copyShape shape d
    fillDefaultStrides one times (loadShape d) (loadStride d) (storeStride d) shape.length

/-- `InitializeDefaultStrides(Shape&&)`. -/
def initializeDefaultStridesOwned [Inhabited Stride] (one : Stride)
    (times : Stride → Size → Stride) : StorageAction Size Stride c Unit := do
  let s ← get
  if s.shape.size ≤ c.inlineCapacity ∨ s.shape.capacity ≤ c.inlineCapacity then
    initializeDefaultStridesForward one times s.shape.cells
  else do
    let strides ← onStrides
      (SmallVector.construction (SmallVector.initializeCount s.shape.size))
    withStrides strides do
      fillDefaultStrides one times (fun i => do onShapes ((← get).shape.element i))
        (fun i => do onStrides ((← get).strides.element i))
        (fun i x => callStrides (SmallVector.construct i x)) s.shape.size
      initializeOwned

/-- `InitializeDefaultStrides`. -/
def initializeDefaultStrides [Inhabited Stride] (one : Stride) (times : Stride → Size → Stride)
    (shape : Range Size) : StorageAction Size Stride c Unit :=
  match shape.category with
  | .forward => initializeDefaultStridesForward one times shape.values
  | .input => do
    let ownedShape ← onShapes
      (SmallVector.construction (SmallVector.initializeRange shape.category shape.values))
    withShape ownedShape (initializeDefaultStridesOwned one times)

/-! ### Copy, move and destruction -/

/-- The copy constructor. -/
def copyConstructFrom (other : ShapeStridesStorage Size Stride c) :
    StorageAction Size Stride c Unit := do
  let m := (← get).memory
  initializeForwardRanges (other.shape m) (other.strides m)

/-- `MoveConstructFrom`; the result is what it leaves of `other`. -/
def moveConstructFrom (other : ShapeStridesStorage Size Stride c) :
    StorageAction Size Stride c (ShapeStridesStorage Size Stride c) := do
  if other.isInline then do
    let m := (← get).memory
    initializeWith other.shapeSize other.stridesSize fun d => do
      copyShape (other.shape m) d
      copyStrides (other.strides m) d
    return { other with shapeSize := 0, stridesSize := 0 }
  else
    match other.storage with
    | .heapStorage heap => do
      modify fun s => { s with this := ⟨.heapStorage heap, other.shapeSize, other.stridesSize⟩ }
      return {}
    | .inlineStorage _ _ => throw .undefined

/-- `ReleaseStorage`. -/
def releaseStorage (st : ShapeStridesStorage Size Stride c) :
    Action (Memory Size Stride) Fault Unit := do
  if st.isInline then return ()
  else
    match st.storage with
    | .inlineStorage _ _ => throw .undefined
    | .heapStorage heap =>
      match heap.allocation with
      | some p => Memory.onCombined (Ledger.deallocate p ())
      | none =>
        match heap.shape, heap.strides with
        | .buffer (some p), .buffer (some q) => do
          Memory.onShapes (Ledger.deallocate p heap.shapeCapacity)
          Memory.onStrides (Ledger.deallocate q heap.stridesCapacity)
        | _, _ => throw .undefined

end ShapeStridesStorage

end InfiniRT.Metadata
