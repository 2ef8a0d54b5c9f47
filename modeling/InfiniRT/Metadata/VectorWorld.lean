import InfiniRT.Library.ObjectTable
import InfiniRT.Library.Runs
import InfiniRT.Metadata.SmallVector

/-!
# Programs over many vectors

A `VectorWorld` is a heap with the vectors and the `HeapAllocation`s that are alive, and the arrays
that callers of `release` took over.  A `VectorOp` is one call on one of these objects, or its
construction or destruction, and a run is any sequence of calls that a program may make: `Enabled`
says that the objects it names are alive, that the references it passes refer to elements, and
that a vector is not grown beyond `max_size()`.  The allocator may refuse any request.
The main definitions:

* **`VectorOp`** — one call, construction or destruction;
* **`VectorWorld.perform`** — what a call does to the world;
* **`VectorWorld.Enabled`** — the calls that a program may make;
* **`VectorWorld.Asks`** — the calls that need a new array.
-/

namespace InfiniRT.Metadata

open InfiniRT.Library

/-- The name of an object. -/
abbrev ObjectId := ℕ

variable {T : Type} {c : Config}

/-- A `const T&` that a caller passes: a temporary, or an element of a vector. -/
inductive ElementRef (T : Type)
  | value (x : T)
  | element (o : ObjectId) (i : ℕ)
  deriving DecidableEq, Repr

/-- A call. The first object is the one that is constructed, called or destroyed. -/
inductive VectorOp (T : Type)
  | construct (o : ObjectId)
  | constructCount (o : ObjectId) (count : ℕ)
  | constructFill (o : ObjectId) (count : ℕ) (value : ElementRef T)
  | constructRange (o : ObjectId) (category : Category) (range : List (ElementRef T))
  | copyConstruct (o other : ObjectId)
  | moveConstruct (o other : ObjectId)
  | copyAssign (o other : ObjectId)
  | moveAssign (o other : ObjectId)
  | clear (o : ObjectId)
  | reserve (o : ObjectId) (requestedCapacity : ℕ)
  | resize (o : ObjectId) (count : ℕ)
  | pushBack (o : ObjectId) (value : ElementRef T)
  | setElement (o : ObjectId) (i : ℕ) (value : ElementRef T)
  | assign (o : ObjectId) (category : Category) (range : List (ElementRef T))
  | releaseHeap (o a : ObjectId)
  | destroy (o : ObjectId)
  | constructAllocation (a : ObjectId)
  | moveConstructAllocation (a other : ObjectId)
  | moveAssignAllocation (a other : ObjectId)
  | release (a : ObjectId)
  | destroyAllocation (a : ObjectId)
  deriving DecidableEq, Repr

/-- The number of elements that a caller asks for. -/
def VectorOp.count : VectorOp T → ℕ
  | .constructCount _ count | .constructFill _ count _ | .reserve _ count | .resize _ count => count
  | .constructRange _ _ range | .assign _ _ range => range.length
  | _ => 0

/-- What a call returns. -/
inductive Reply
  | done
  /-- A `HeapAllocation`, and whether it is `empty()`. -/
  | allocation (empty : Bool)
  deriving DecidableEq, Repr

/-- The live objects and their heap. -/
structure VectorWorld (T : Type) (c : Config) where
  heap : ArrayHeap T
  vectors : ObjectTable ObjectId (SmallVector T c)
  allocations : ObjectTable ObjectId HeapAllocation
  /-- The arrays that callers of `release` have, with their element counts. -/
  released : List (Address × ℕ)

namespace VectorWorld

/-- No objects yet; the allocator answers as it likes. -/
def initial (answers : ℕ → Option Address) : VectorWorld T c where
  heap := { buffers := fun _ => none, answers }
  vectors := ∅
  allocations := ∅
  released := []

/-- The place a reference refers to.  An invalid one is a place that cannot be read. -/
def resolve (w : VectorWorld T c) : ElementRef T → Ref T
  | .value x => .fixed (some x)
  | .element o i =>
    match w.vectors.lookup o with
    | some v => v.cell i
    | none => .fixed none

/-- The argument of a call on `o`. -/
def argument (w : VectorWorld T c) (o : ObjectId) (value : ElementRef T) : Argument T :=
  match value, w.vectors.lookup o with
  | .element o' i, some v =>
    if o' = o ∧ v.isHeap = false then .own i else .ref (w.resolve value)
  | _, _ => .ref (w.resolve value)

end VectorWorld

/-- A program over the world. -/
abbrev WorldAction (T : Type) (c : Config) := Action (VectorWorld T c) Fault

namespace VectorWorld

/-- Run a program on the heap. -/
def inHeap {α : Type} (x : Action (ArrayHeap T) Fault α) : WorldAction T c α :=
  Action.zoom VectorWorld.heap (fun heap w => { w with heap := heap }) x

def getVector (o : ObjectId) : WorldAction T c (SmallVector T c) := do
  match (← get).vectors.lookup o with
  | some v => pure v
  | none => throw .undefined

def putVector (o : ObjectId) (v : SmallVector T c) : WorldAction T c Unit :=
  modify fun w => { w with vectors := w.vectors.insert o v }

def getAllocation (a : ObjectId) : WorldAction T c HeapAllocation := do
  match (← get).allocations.lookup a with
  | some x => pure x
  | none => throw .undefined

def putAllocation (a : ObjectId) (x : HeapAllocation) : WorldAction T c Unit :=
  modify fun w => { w with allocations := w.allocations.insert a x }

/-- Call a member function of `o`. -/
def call {α : Type} (o : ObjectId) (x : VectorAction T c α) : WorldAction T c α := do
  let v ← getVector o
  Action.zoom (fun w => ⟨w.heap, v⟩)
    (fun s w => { w with heap := s.heap, vectors := w.vectors.insert o s.this }) x

/-- Construct `o`. -/
def construct (o : ObjectId) (init : VectorAction T c Unit) : WorldAction T c Unit := do
  let v ← inHeap (SmallVector.construction init)
  putVector o v

/-- One call.  An object is not assigned to itself: the code compares the addresses first. -/
def perform [Inhabited T] (op : VectorOp T) : WorldAction T c Reply := do
  let w ← get
  match op with
  | .construct o => do
    putVector o {}
    return .done
  | .constructCount o count => do
    construct o (SmallVector.initializeCount count)
    return .done
  | .constructFill o count value => do
    construct o (SmallVector.initializeFill count (w.resolve value))
    return .done
  | .constructRange o category range => do
    construct o (SmallVector.initializeRange category (range.map w.resolve))
    return .done
  | .copyConstruct o other => do
    let v ← getVector other
    construct o (SmallVector.copyConstructFrom v)
    return .done
  | .moveConstruct o other => do
    let v ← getVector other
    putVector o {}
    let v' ← call o (SmallVector.moveConstructFrom v)
    putVector other v'
    return .done
  | .copyAssign o other => do
    let v ← getVector other
    if o = other then return .done
    else do
      call o (SmallVector.copyAssign v)
      return .done
  | .moveAssign o other => do
    let v ← getVector other
    if o = other then return .done
    else do
      let v' ← call o (SmallVector.moveAssign v)
      putVector other v'
      return .done
  | .clear o => do
    call o SmallVector.clear
    return .done
  | .reserve o requestedCapacity => do
    call o (SmallVector.reserve requestedCapacity)
    return .done
  | .resize o count => do
    call o (SmallVector.resize count)
    return .done
  | .pushBack o value => do
    call o (SmallVector.pushBack (w.argument o value))
    return .done
  | .setElement o i value => do
    call o (SmallVector.setElement i (w.argument o value))
    return .done
  | .assign o category range => do
    call o (SmallVector.assign category (range.map w.resolve))
    return .done
  | .releaseHeap o a => do
    let allocation ← call o SmallVector.releaseHeap
    putAllocation a allocation
    return .allocation allocation.data.isNone
  | .destroy o => do
    let v ← getVector o
    inHeap v.destroy
    modify fun w => { w with vectors := w.vectors.erase o }
    return .done
  | .constructAllocation a => do
    putAllocation a {}
    return .done
  | .moveConstructAllocation a other => do
    let allocation ← getAllocation other
    putAllocation a allocation
    putAllocation other {}
    return .done
  | .moveAssignAllocation a other => do
    let allocation ← getAllocation a
    let otherAllocation ← getAllocation other
    if a = other then return .done
    else do
      let (allocation', other') ← inHeap (allocation.moveAssign otherAllocation)
      putAllocation a allocation'
      putAllocation other other'
      return .done
  | .release a => do
    let allocation ← getAllocation a
    putAllocation a {}
    modify fun w => { w with released := allocation.owned ++ w.released }
    return .done
  | .destroyAllocation a => do
    let allocation ← getAllocation a
    let _ ← inHeap allocation.reset
    modify fun w => { w with allocations := w.allocations.erase a }
    return .done

/-! ### What a program may call -/

/-- The object is alive. -/
def Alive (w : VectorWorld T c) (o : ObjectId) : Prop := (w.vectors.lookup o).isSome

instance (w : VectorWorld T c) (o : ObjectId) : Decidable (w.Alive o) :=
  inferInstanceAs (Decidable (_ = true))

/-- A reference refers to a value. -/
def Valid (w : VectorWorld T c) : ElementRef T → Prop
  | .value _ => True
  | .element o i => ∃ v, w.vectors.lookup o = some v ∧ i < v.size

/-- A range that a constructor or `assign` can walk. -/
def ValidRange (w : VectorWorld T c) (category : Category) (range : List (ElementRef T)) : Prop :=
  (∀ value ∈ range, w.Valid value) ∧ (category = .input → range.length ≤ c.maxSize)

/-- A well-formed program may make the call. -/
def Enabled (w : VectorWorld T c) : VectorOp T → Prop
  | .construct o | .constructCount o _ => ¬w.Alive o
  | .constructFill o _ value => ¬w.Alive o ∧ w.Valid value
  | .constructRange o category range => ¬w.Alive o ∧ w.ValidRange category range
  | .copyConstruct o other | .moveConstruct o other => ¬w.Alive o ∧ w.Alive other
  | .copyAssign o other | .moveAssign o other => w.Alive o ∧ w.Alive other
  | .clear o | .reserve o _ | .resize o _ | .destroy o => w.Alive o
  | .pushBack o value =>
    (∃ v, w.vectors.lookup o = some v ∧ v.size < c.maxSize) ∧ w.Valid value
  | .setElement o i value => (∃ v, w.vectors.lookup o = some v ∧ i < v.size) ∧ w.Valid value
  | .assign o category range => w.Alive o ∧ w.ValidRange category range
  | .releaseHeap o a => w.Alive o ∧ (w.allocations.lookup a).isNone
  | .constructAllocation a => (w.allocations.lookup a).isNone
  | .moveConstructAllocation a other =>
    (w.allocations.lookup a).isNone ∧ (w.allocations.lookup other).isSome
  | .moveAssignAllocation a other =>
    (w.allocations.lookup a).isSome ∧ (w.allocations.lookup other).isSome
  | .release a | .destroyAllocation a => (w.allocations.lookup a).isSome

/-- The call needs a new array: there is no room for what it constructs or makes room for.  A copy
of heap storage has the capacity of the original. -/
def Asks (w : VectorWorld T c) : VectorOp T → Prop
  | .constructCount _ count | .constructFill _ count _ => c.inlineCapacity < count
  | .constructRange _ _ range | .assign _ _ range => c.inlineCapacity < range.length
  | .copyConstruct _ other => ∃ u, w.vectors.lookup other = some u ∧ c.inlineCapacity < u.capacity
  | .copyAssign o other =>
    o ≠ other ∧ ∃ u, w.vectors.lookup other = some u ∧ c.inlineCapacity < u.capacity
  | .reserve o count | .resize o count => ∃ v, w.vectors.lookup o = some v ∧ v.capacity < count
  | .pushBack o _ => ∃ v, w.vectors.lookup o = some v ∧ v.size = v.capacity
  | _ => False

/-- A call that was made, and how it ended. -/
structure Call (T : Type) where
  op : VectorOp T
  result : Except Fault Reply

/-- A program makes one call. -/
def Step [Inhabited T] (w : VectorWorld T c) (call : Call T) (w' : VectorWorld T c) : Prop :=
  w.Enabled call.op ∧ (perform call.op).run w = (call.result, w')

end VectorWorld

end InfiniRT.Metadata
