import InfiniRT.Library.ArrayHeap
import Mathlib.Algebra.GroupWithZero.Nat

/-!
# `SmallVector` and its `HeapAllocation`

The member functions of `SmallVector`, one definition each.  A vector is its three fields; its
storage is the union, and the constructor says which member was written last, which the code never
stores: `IsHeap` infers it from the capacity.  Reading the other member is undefined behaviour.

A member function runs on a `VectorState`, the object with the heap its buffers are in, and a throw
keeps what was written before it.  A `const T&` argument is the place it refers to, so that it is
read when the code reads it.  Sizes are natural numbers: an array of more than `maxSize` elements is
refused by the allocator, and every capacity is at most that.  The main definitions:

* **`SmallVector`** — the three fields, with the `Storage` union;
* **`replaceWithArray`** — how a vector gets a new array, which is filled from what it or another
  object has;
* **`moveAssign`** — one of the members that change two vectors, with `moveConstructFrom` and
  `releaseHeap`;
* **`HeapAllocation`** — what `ReleaseHeap` returns.
-/

namespace InfiniRT.Metadata

open InfiniRT.Library

/-- The template argument `inline_capacity`, and `max_size()` of the allocator.  The inline array is
an object, so it is no larger than any array can be. -/
structure Config where
  inlineCapacity : ℕ
  maxSize : ℕ
  inlineCapacity_pos : 0 < inlineCapacity
  inlineCapacity_le : inlineCapacity ≤ maxSize

variable {T : Type} {c : Config}

/-- `SmallVector::Storage`, with the member that was written last. -/
inductive Storage (T : Type)
  | inlineStorage (data : List (Option T))
  | heapData (data : Address)
  deriving DecidableEq, Repr

/-- `SmallVector<T, inline_capacity>`. -/
structure SmallVector (T : Type) (c : Config) where
  storage : Storage T := .inlineStorage (List.replicate c.inlineCapacity none)
  size : ℕ := 0
  capacity : ℕ := c.inlineCapacity
  deriving DecidableEq, Repr

/-- `SmallVector::HeapAllocation`; `none` is the null pointer. -/
structure HeapAllocation where
  data : Option Address := none
  size : ℕ := 0
  capacity : ℕ := 0
  deriving DecidableEq, Repr

/-- The object a member function runs on, and the heap. -/
structure VectorState (T : Type) (c : Config) where
  heap : ArrayHeap T
  this : SmallVector T c

/-- A member function of `SmallVector`. -/
abbrev VectorAction (T : Type) (c : Config) := Action (VectorState T c) Fault

/-- A place a `const T&` or an iterator refers to, outside the inline storage of the object that is
written: a temporary or a cell nobody writes meanwhile, or a cell of an array on the heap. -/
inductive Ref (T : Type)
  | fixed (cell : Option T)
  | heapCell (p : Address) (i : ℕ)

/-- The argument of `push_back`, which may also be a cell of the object's own inline storage. -/
inductive Argument (T : Type)
  | own (i : ℕ)
  | ref (r : Ref T)

/-- Whether a range has forward iterators, or can be walked only once. -/
inductive Category
  | forward
  | input
  deriving DecidableEq, Repr

/-- Read the place. -/
def Ref.load : Ref T → Action (ArrayHeap T) Fault T
  | .fixed cell => readCell (some cell)
  | .heapCell p i => ArrayHeap.load p i

/-- Run a program on the heap. -/
def onHeap {α : Type} (x : Action (ArrayHeap T) Fault α) : VectorAction T c α :=
  Action.zoom VectorState.heap (fun heap s => { s with heap := heap }) x

def Argument.load : Argument T → VectorAction T c T
  | .own i => do
    match (← get).this.storage with
    | .inlineStorage data => readCell data[i]?
    | .heapData _ => throw .undefined
  | .ref r => onHeap r.load

namespace SmallVector

/-! ### Private members -/

/-- `IsHeap`. -/
def isHeap (v : SmallVector T c) : Bool := decide (v.capacity > c.inlineCapacity)

/-- `data() + i`; the member of the union that was not written cannot be read. -/
def cell (v : SmallVector T c) (i : ℕ) : Ref T :=
  match v.isHeap, v.storage with
  | true, .heapData p => .heapCell p i
  | false, .inlineStorage data => .fixed data[i]?.join
  | _, _ => .fixed none

/-- `data()[i]`. -/
def element (v : SmallVector T c) (i : ℕ) : Action (ArrayHeap T) Fault T := (v.cell i).load

/-- The range from `begin()` to `end()`. -/
def cells (v : SmallVector T c) : List (Ref T) := (List.range v.size).map v.cell

/-- What the loops over `data()[index]` from `start` to `stop` read. -/
def elements (v : SmallVector T c) (start stop : ℕ) : List (Action (ArrayHeap T) Fault T) :=
  (List.range' start (stop - start)).map v.element

/-- Write `this`. -/
def setThis (v : SmallVector T c) : VectorAction T c Unit := modify fun s => { s with this := v }

/-- Write `size_`. -/
def setSize (n : ℕ) : VectorAction T c Unit :=
  modify fun s => { s with this := { s.this with size := n } }

/-- `Construct(storage_.inline_storage.data + i, x)`. -/
def constructInline (i : ℕ) (x : T) : VectorAction T c Unit := do
  let v := (← get).this
  match v.storage with
  | .inlineStorage data =>
    if i < data.length then setThis { v with storage := .inlineStorage (data.set i (some x)) }
    else throw .undefined
  | .heapData _ => throw .undefined

/-- `Construct(data() + i, x)`. -/
def construct (i : ℕ) (x : T) : VectorAction T c Unit := do
  let v := (← get).this
  match v.isHeap, v.storage with
  | true, .heapData p => onHeap (ArrayHeap.store p i x)
  | false, .inlineStorage _ => constructInline i x
  | _, _ => throw .undefined

/-- The loops that construct at `data() + size_` and then increment `size_`. -/
def append (reads : List (Action (ArrayHeap T) Fault T)) : VectorAction T c Unit := do
  writeAll (fun i x => do construct i x; setSize (i + 1)) (← get).this.size (reads.map onHeap)

/-- `ReconstructInline`. -/
def reconstructInline : VectorAction T c Unit := setThis {}

/-- `ReplaceWithHeap`.  The old pointer is null if there was no heap storage. -/
def replaceWithHeap (newData : Address) (newSize newCapacity : ℕ) : VectorAction T c Unit := do
  let v := (← get).this
  let oldData ← match v.isHeap, v.storage with
    | true, .heapData p => pure (some p)
    | true, .inlineStorage _ => throw .undefined
    | false, _ => pure none
  setThis { storage := .heapData newData, size := newSize, capacity := newCapacity }
  match oldData with
  | some p => onHeap (Ledger.deallocate p v.capacity)
  | none => pure ()

/-- What `Reallocate`, `CopyAssignHeap` and the initializers do beyond the inline capacity: fill a
new array of `newCapacity` elements, then make it the storage.  Between the two nothing throws. -/
def replaceWithArray (newCapacity : ℕ) (reads : List (Action (ArrayHeap T) Fault T)) :
    VectorAction T c Unit := do
  let newData ← onHeap (ArrayHeap.allocate c.maxSize newCapacity)
  writeAll (fun i x => onHeap (ArrayHeap.store newData i x)) 0 (reads.map onHeap)
  replaceWithHeap newData reads.length newCapacity

/-- `Reallocate`. -/
def reallocate (newCapacity : ℕ) : VectorAction T c Unit := do
  let v := (← get).this
  replaceWithArray newCapacity (v.elements 0 v.size)

/-- `GrowForAppend`. -/
def growForAppend : VectorAction T c Unit := do
  let v := (← get).this
  let increment := if v.capacity / 2 = 0 then 1 else v.capacity / 2
  reallocate
    (if increment > c.maxSize - v.capacity then c.maxSize else v.capacity + increment)

/-- `SwitchToInline`, called on heap storage. -/
def switchToInline : VectorAction T c Unit := do
  let v := (← get).this
  match v.storage with
  | .heapData p => do
    reconstructInline
    onHeap (Ledger.deallocate p v.capacity)
  | .inlineStorage _ => throw .undefined

/-- `AssignInline`. -/
def assignInline (values : List (Action (ArrayHeap T) Fault T)) : VectorAction T c Unit := do
  if (← get).this.isHeap then switchToInline
  writeAll constructInline 0 (values.map onHeap)
  setSize values.length

/-- The parts of the initializers up to the inline capacity: fill `storage_.inline_storage`. -/
def fillInline (reads : List (Action (ArrayHeap T) Fault T)) : VectorAction T c Unit := do
  writeAll constructInline 0 (reads.map onHeap)
  setSize reads.length

/-- `InitializeCount`. -/
def initializeCount [Inhabited T] (count : ℕ) : VectorAction T c Unit :=
  if count ≤ c.inlineCapacity then fillInline (List.replicate count (pure default))
  else replaceWithArray count (List.replicate count (pure default))

/-- `InitializeFill`. -/
def initializeFill (count : ℕ) (value : Ref T) : VectorAction T c Unit :=
  if count ≤ c.inlineCapacity then fillInline (List.replicate count value.load)
  else replaceWithArray count (List.replicate count value.load)

/-- `InitializeForwardRange`. -/
def initializeForwardRange (range : List (Ref T)) : VectorAction T c Unit :=
  if range = [] then pure ()
  else if range.length ≤ c.inlineCapacity then fillInline (range.map Ref.load)
  else replaceWithArray range.length (range.map Ref.load)

/-- `CopyConstructFrom`. -/
def copyConstructFrom (other : SmallVector T c) : VectorAction T c Unit := do
  if other.isHeap then reallocate other.capacity
  append (other.elements (← get).this.size other.size)

/-- `MoveConstructFrom`; the result is what it leaves of `other`. -/
def moveConstructFrom (other : SmallVector T c) : VectorAction T c (SmallVector T c) := do
  match other.isHeap, other.storage with
  | true, .heapData p => do
    setThis { storage := .heapData p, size := other.size, capacity := other.capacity }
    return {}
  | true, .inlineStorage _ => throw .undefined
  | false, _ => do
    append (other.elements (← get).this.size other.size)
    return { other with size := 0 }

/-- `CopyAssignHeap`. -/
def copyAssignHeap (other : SmallVector T c) : VectorAction T c Unit :=
  replaceWithArray other.capacity (other.elements 0 other.size)

/-- `MoveAssignHeap`; the result is what it leaves of `other`. -/
def moveAssignHeap (other : SmallVector T c) : VectorAction T c (SmallVector T c) := do
  match other.storage with
  | .heapData p => do
    replaceWithHeap p other.size other.capacity
    return {}
  | .inlineStorage _ => throw .undefined

/-! ### Public members -/

/-- `~SmallVector`. -/
def destroy (v : SmallVector T c) : Action (ArrayHeap T) Fault Unit :=
  match v.isHeap, v.storage with
  | true, .heapData p => Ledger.deallocate p v.capacity
  | true, .inlineStorage _ => throw .undefined
  | false, _ => pure ()

/-- A constructor.  When it throws there is no object, and no destructor runs. -/
def construction (init : VectorAction T c Unit) : Action (ArrayHeap T) Fault (SmallVector T c) :=
  fun heap =>
    match init.run { heap := heap, this := {} } with
    | (.ok _, s) => (.ok s.this, s.heap)
    | (.error e, s) => (.error e, s.heap)

/-- A local vector with a call on it.  When the call throws, the local is destroyed. -/
def localVector (x : VectorAction T c Unit) : Action (ArrayHeap T) Fault (SmallVector T c) :=
  fun heap =>
    match x.run { heap := heap, this := {} } with
    | (.ok _, s) => (.ok s.this, s.heap)
    | (.error e, s) =>
      match s.this.destroy.run s.heap with
      | (.ok _, heap) => (.error e, heap)
      | (.error e', heap) => (.error e', heap)

/-- `clear`. -/
def clear : VectorAction T c Unit := setSize 0

/-- `reserve`. -/
def reserve (requestedCapacity : ℕ) : VectorAction T c Unit := do
  if requestedCapacity ≤ (← get).this.capacity then return ()
  else reallocate requestedCapacity

/-- `resize`. -/
def resize [Inhabited T] (count : ℕ) : VectorAction T c Unit := do
  let v := (← get).this
  if count ≤ v.size then setSize count
  else do
    if count > v.capacity then reallocate count
    append (List.replicate (count - v.size) (pure default))

/-- `push_back`. -/
def pushBack (value : Argument T) : VectorAction T c Unit := do
  let v := (← get).this
  if v.size = v.capacity then do
    let savedValue ← value.load
    growForAppend
    construct (← get).this.size savedValue
  else do
    let x ← value.load
    construct v.size x
  setSize ((← get).this.size + 1)

/-- An assignment through `operator[]`. -/
def setElement (i : ℕ) (value : Argument T) : VectorAction T c Unit := do
  let x ← value.load
  construct i x

/-- `InitializeInputRange`. -/
def initializeInputRange : List (Ref T) → VectorAction T c Unit
  | [] => pure ()
  | first :: rest => do
    let x ← onHeap first.load
    pushBack (.ref (.fixed (some x)))
    initializeInputRange rest

/-- `SmallVector(first, last)`. -/
def initializeRange (category : Category) (range : List (Ref T)) : VectorAction T c Unit :=
  match category with
  | .forward => initializeForwardRange range
  | .input => do
    let replacement ← onHeap (localVector (initializeInputRange range))
    let replacement ← moveConstructFrom replacement
    onHeap replacement.destroy

/-- `operator=(const SmallVector&)` of another object. -/
def copyAssign (other : SmallVector T c) : VectorAction T c Unit :=
  if other.isHeap then copyAssignHeap other
  else assignInline (other.elements 0 other.size)

/-- `operator=(SmallVector&&)` of another object; the result is what it leaves of that. -/
def moveAssign (other : SmallVector T c) : VectorAction T c (SmallVector T c) := do
  if other.isHeap then moveAssignHeap other
  else do
    assignInline (other.elements 0 other.size)
    return { other with size := 0 }

/-- `assign`. -/
def assign (category : Category) (range : List (Ref T)) : VectorAction T c Unit := do
  let replacement ← onHeap (construction (initializeRange category range))
  let replacement ← moveAssign replacement
  onHeap replacement.destroy

/-- `ReleaseHeap`. -/
def releaseHeap : VectorAction T c HeapAllocation := do
  let v := (← get).this
  match v.isHeap, v.storage with
  | false, _ => return {}
  | true, .heapData p => do
    reconstructInline
    return { data := some p, size := v.size, capacity := v.capacity }
  | true, .inlineStorage _ => throw .undefined

/-- What `data()`, `size()` and the iterators show of a vector. -/
def read (v : SmallVector T c) : Action (ArrayHeap T) Fault (List T) :=
  readAll (v.elements 0 v.size)

end SmallVector

namespace HeapAllocation

/-- The buffer an allocation owns, with the element count it gives it back with. -/
def owned (a : HeapAllocation) : List (Address × ℕ) :=
  match a.data with
  | none => []
  | some p => [(p, a.capacity)]

/-- `Reset`, which is also the destructor. -/
def reset (a : HeapAllocation) : Action (ArrayHeap T) Fault HeapAllocation := do
  match a.data with
  | some p => Ledger.deallocate p a.capacity
  | none => pure ()
  return {}

/-- `operator=(HeapAllocation&&)` of another object: what the two objects are after it. -/
def moveAssign (a other : HeapAllocation) :
    Action (ArrayHeap T) Fault (HeapAllocation × HeapAllocation) := do
  let _ ← a.reset
  return (other, {})

end HeapAllocation

end InfiniRT.Metadata
