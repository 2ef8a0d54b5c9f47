import InfiniRT.Metadata.DefaultStrides
import InfiniRT.Metadata.VectorWorld

/-!
# Programs over vectors and storages

A `MetadataWorld` has the vectors of sizes, the vectors of strides and the storages that are alive,
with the three heaps their buffers are in.  A program makes any call on a vector, and constructs
storages by every constructor, copies, moves and destroys them.  A constructor that is handed an
rvalue is given the vector itself and leaves it as it likes.

`std::abort` ends the program, so a run has no step that aborts.  The main definitions:

* **`MetadataOp`** — one call on a vector or a storage;
* **`MetadataWorld.construct`** — the program text that every constructor of a storage runs in;
* **`MetadataWorld.perform`** — what a call does to the world;
* **`MetadataWorld.Enabled`** — the calls that a program may make.
-/

namespace InfiniRT.Metadata

open InfiniRT.Library

variable {T Size Stride : Type} {c : StorageConfig}

/-- A value that a range for a storage refers to: a temporary, an element of a vector, or an element
of the view of a storage. -/
inductive MetadataRef (T : Type)
  | vector (r : ElementRef T)
  | stored (o : ObjectId) (i : ℕ)
  deriving DecidableEq, Repr

/-- A range by the values it refers to. -/
structure RangeRef (T : Type) where
  category : Category
  values : List (MetadataRef T)
  deriving DecidableEq, Repr

/-- The shape that a constructor without strides is given. -/
inductive ShapeRef (Size : Type)
  | constShape (shape : ObjectId)
  | movedShape (shape : ObjectId)
  | range (shape : RangeRef Size)
  deriving DecidableEq, Repr

/-- A call.  A storage is constructed under the name `o`. -/
inductive MetadataOp (Size Stride : Type)
  | onShapes (op : VectorOp Size)
  | onStrides (op : VectorOp Stride)
  | construct (o : ObjectId)
  | constructConst (o shape strides : ObjectId)
  | constructOwned (o shape strides : ObjectId)
  | constructMixedShape (o shape strides : ObjectId)
  | constructMixedStrides (o shape strides : ObjectId)
  | constructRanges (o : ObjectId) (shape : RangeRef Size) (strides : RangeRef Stride)
  | constructDefault (o : ObjectId) (shape : ShapeRef Size)
  | copyConstruct (o other : ObjectId)
  | moveConstruct (o other : ObjectId)
  | destroy (o : ObjectId)
  deriving DecidableEq, Repr

/-- What a call returns. -/
inductive MetadataReply
  | vector (reply : Reply)
  /-- A new storage, and whether it took the buffers of the vectors it was handed. -/
  | storage (split : Bool)
  | done
  deriving DecidableEq, Repr

/-- The live objects and their heaps. -/
structure MetadataWorld (Size Stride : Type) (c : StorageConfig) where
  shapes : VectorWorld Size c.shape
  strides : VectorWorld Stride c.strides
  combined : Ledger Unit (Combined Size Stride)
  storages : ObjectTable ObjectId (ShapeStridesStorage Size Stride c)

/-- A vector that an rvalue reference refers to, with its name. -/
abbrev Handed (T : Type) (c : Config) := Option (ObjectId × SmallVector T c)

namespace Handed

/-- What the reference refers to; without one a constructor has an empty place for a local. -/
def vector {c : Config} (x : Handed T c) : SmallVector T c := (x.map Prod.snd).getD {}

end Handed

/-- The heap and the vector that a constructor left. -/
def VectorWorld.leave {c : Config} (w : VectorWorld T c) (x : Handed T c) (heap : ArrayHeap T)
    (v : SmallVector T c) : VectorWorld T c :=
  match x with
  | some (o, _) => { w with heap, vectors := w.vectors.insert o v }
  | none => { w with heap }

namespace MetadataWorld

/-- No objects yet; the allocators answer as they like. -/
def initial (shapes strides combined : ℕ → Option Address) : MetadataWorld Size Stride c where
  shapes := .initial shapes
  strides := .initial strides
  combined := { buffers := fun _ => none, answers := combined }
  storages := ∅

/-- The heaps. -/
def memory (w : MetadataWorld Size Stride c) : Memory Size Stride :=
  ⟨w.shapes.heap, w.strides.heap, w.combined⟩

/-- Put the heaps back. -/
def setMemory (w : MetadataWorld Size Stride c) (m : Memory Size Stride) :
    MetadataWorld Size Stride c :=
  { w with
    shapes := { w.shapes with heap := m.shapes }
    strides := { w.strides with heap := m.strides }
    combined := m.combined }

/-- The place that a shape reference refers to.  An invalid one is a place that cannot be read. -/
def resolveShape (w : MetadataWorld Size Stride c) : MetadataRef Size → Ref Size
  | .vector r => w.shapes.resolve r
  | .stored o i =>
    match w.storages.lookup o with
    | some st => st.shapeCell w.memory i
    | none => .fixed none

/-- The place that a stride reference refers to. -/
def resolveStride (w : MetadataWorld Size Stride c) : MetadataRef Stride → Ref Stride
  | .vector r => w.strides.resolve r
  | .stored o i =>
    match w.storages.lookup o with
    | some st => st.stridesCell w.memory i
    | none => .fixed none

/-- The world after a constructor is done with the vectors it was handed. -/
def leave (w : MetadataWorld Size Stride c) (shape : Handed Size c.shape)
    (strides : Handed Stride c.strides) (s : StorageState Size Stride c) :
    MetadataWorld Size Stride c :=
  { w with
    shapes := w.shapes.leave shape s.memory.shapes s.shape
    strides := w.strides.leave strides s.memory.strides s.strides
    combined := s.memory.combined }

end MetadataWorld

/-- A program over the world. -/
abbrev MetadataAction (Size Stride : Type) (c : StorageConfig) :=
  Action (MetadataWorld Size Stride c) Fault

namespace MetadataWorld

/-- Call a vector of sizes. -/
def callShapes {α : Type} (x : WorldAction Size c.shape α) : MetadataAction Size Stride c α :=
  Action.zoom MetadataWorld.shapes (fun shapes w => { w with shapes }) x

/-- Call a vector of strides. -/
def callStrides {α : Type} (x : WorldAction Stride c.strides α) : MetadataAction Size Stride c α :=
  Action.zoom MetadataWorld.strides (fun strides w => { w with strides }) x

def getStorage (o : ObjectId) :
    MetadataAction Size Stride c (ShapeStridesStorage Size Stride c) := do
  match (← get).storages.lookup o with
  | some st => pure st
  | none => throw .undefined

/-- Construct `o` from what the constructor runs on.  When it throws there is no object. -/
def construct (o : ObjectId) (shape : Handed Size c.shape) (strides : Handed Stride c.strides)
    (init : StorageAction Size Stride c Unit) : MetadataAction Size Stride c MetadataReply :=
    fun w =>
  match init.run ⟨w.memory, {}, shape.vector, strides.vector⟩ with
  | (.ok _, s) =>
    (.ok (.storage s.this.isSplit),
      { w.leave shape strides s with storages := w.storages.insert o s.this })
  | (.error e, s) => (.error e, w.leave shape strides s)

/-- The argument of a constructor without strides, and the vector it is handed. -/
def shapeArgument (shape : ShapeRef Size) :
    MetadataAction Size Stride c (ShapeArgument Size c × Handed Size c.shape) := do
  match shape with
  | .constShape a => do
    let v ← callShapes (VectorWorld.getVector a)
    return (.constShape v, none)
  | .movedShape a => do
    let v ← callShapes (VectorWorld.getVector a)
    return (.movedShape v, some (a, v))
  | .range range => do
    let w ← get
    return (.range ⟨range.category, range.values.map w.resolveShape⟩, none)

/-- One call. -/
def perform [Inhabited Size] [Inhabited Stride] [One Stride] [HMul Stride Size Stride]
    (op : MetadataOp Size Stride) : MetadataAction Size Stride c MetadataReply := do
  match op with
  | .onShapes op => do
    let reply ← callShapes (VectorWorld.perform op)
    return .vector reply
  | .onStrides op => do
    let reply ← callStrides (VectorWorld.perform op)
    return .vector reply
  | .construct o => construct o none none (pure ())
  | .constructConst o shape strides => do
    let v ← callShapes (VectorWorld.getVector shape)
    let u ← callStrides (VectorWorld.getVector strides)
    construct o none none (ShapeStridesStorage.initializeForwardRanges v.cells u.cells)
  | .constructOwned o shape strides => do
    let v ← callShapes (VectorWorld.getVector shape)
    let u ← callStrides (VectorWorld.getVector strides)
    construct o (some (shape, v)) (some (strides, u)) ShapeStridesStorage.initializeOwned
  | .constructMixedShape o shape strides => do
    let v ← callShapes (VectorWorld.getVector shape)
    let u ← callStrides (VectorWorld.getVector strides)
    construct o (some (shape, v)) none (ShapeStridesStorage.initializeMixedShape u)
  | .constructMixedStrides o shape strides => do
    let v ← callShapes (VectorWorld.getVector shape)
    let u ← callStrides (VectorWorld.getVector strides)
    construct o none (some (strides, u)) (ShapeStridesStorage.initializeMixedStrides v)
  | .constructRanges o shape strides => do
    let w ← get
    construct o none none (ShapeStridesStorage.initializeRanges
      ⟨shape.category, shape.values.map w.resolveShape⟩
      ⟨strides.category, strides.values.map w.resolveStride⟩)
  | .constructDefault o shape => do
    let (argument, handed) ← shapeArgument shape
    construct o handed none (argument.constructor 1 (· * ·))
  | .copyConstruct o other => do
    let st ← getStorage other
    construct o none none (ShapeStridesStorage.copyConstructFrom st)
  | .moveConstruct o other => do
    let st ← getStorage other
    let w ← get
    match (ShapeStridesStorage.moveConstructFrom st).run ⟨w.memory, {}, {}, {}⟩ with
    | (.ok other', s) => do
      modify fun w => { w.setMemory s.memory with
        storages := (w.storages.insert o s.this).insert other other' }
      return .done
    | (.error e, _) => throw e
  | .destroy o => do
    let st ← getStorage o
    Action.zoom MetadataWorld.memory (fun m w => w.setMemory m) st.releaseStorage
    modify fun w => { w with storages := w.storages.erase o }
    return .done

/-! ### What a program may call -/

/-- The storage is alive. -/
def Alive (w : MetadataWorld Size Stride c) (o : ObjectId) : Prop := (w.storages.lookup o).isSome

instance (w : MetadataWorld Size Stride c) (o : ObjectId) : Decidable (w.Alive o) :=
  inferInstanceAs (Decidable (_ = true))

/-- A shape reference refers to a value. -/
def ValidShape (w : MetadataWorld Size Stride c) : MetadataRef Size → Prop
  | .vector r => w.shapes.Valid r
  | .stored o i => ∃ st, w.storages.lookup o = some st ∧ i < st.shapeSize

/-- A stride reference refers to a value. -/
def ValidStride (w : MetadataWorld Size Stride c) : MetadataRef Stride → Prop
  | .vector r => w.strides.Valid r
  | .stored o i => ∃ st, w.storages.lookup o = some st ∧ i < st.stridesSize

/-- A range that a constructor can walk. -/
def ValidShapes (w : MetadataWorld Size Stride c) (range : RangeRef Size) : Prop :=
  (∀ r ∈ range.values, w.ValidShape r) ∧
    (range.category = .input → range.values.length ≤ c.shapeMaxSize)

/-- A range that a constructor can walk. -/
def ValidStrides (w : MetadataWorld Size Stride c) (range : RangeRef Stride) : Prop :=
  (∀ r ∈ range.values, w.ValidStride r) ∧
    (range.category = .input → range.values.length ≤ c.stridesMaxSize)

/-- A well-formed program may make the call. -/
def Enabled (w : MetadataWorld Size Stride c) : MetadataOp Size Stride → Prop
  | .onShapes op => w.shapes.Enabled op
  | .onStrides op => w.strides.Enabled op
  | .construct o => ¬w.Alive o
  | .constructConst o shape strides | .constructOwned o shape strides
  | .constructMixedShape o shape strides | .constructMixedStrides o shape strides =>
    ¬w.Alive o ∧ w.shapes.Alive shape ∧ w.strides.Alive strides
  | .constructRanges o shape strides => ¬w.Alive o ∧ w.ValidShapes shape ∧ w.ValidStrides strides
  | .constructDefault o (.constShape shape) | .constructDefault o (.movedShape shape) =>
    ¬w.Alive o ∧ w.shapes.Alive shape
  | .constructDefault o (.range shape) => ¬w.Alive o ∧ w.ValidShapes shape
  | .copyConstruct o other | .moveConstruct o other => ¬w.Alive o ∧ w.Alive other
  | .destroy o => w.Alive o

/-- A call that was made, and how it ended. -/
structure Call (Size Stride : Type) where
  op : MetadataOp Size Stride
  result : Except Fault MetadataReply

/-- A program makes one call and goes on. -/
def Step [Inhabited Size] [Inhabited Stride] [One Stride] [HMul Stride Size Stride]
    (w : MetadataWorld Size Stride c) (call : Call Size Stride) (w' : MetadataWorld Size Stride c) :
    Prop :=
  w.Enabled call.op ∧ (perform call.op).run w = (call.result, w') ∧ call.result ≠ .error .abort

end MetadataWorld

end InfiniRT.Metadata
