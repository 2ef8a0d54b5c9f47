import InfiniRT.Pool.State

/-!
# The operations of the reusable memory pool

The member functions of `ReusableMemoryPool` and its `State`, one definition each.  Every argument
named `ans` gives the answers of the environment (the backend, the host allocator, the device
guard) to the questions one call may put to it; a call reads only the answers it asks for.
The main definitions:

* **`allocateImpl`** — `allocate` and `allocate_exact`, from a size class or from the large blocks;
* **`deallocate`** — the last owner gives a block back, with `retainAllocation`;
* **`beginPinMode`** — the pin transactions, with `cancelPinMode`, `takeFrozenBlocks` and
  `retainForCapture`;
* **`trim`** — the loops over the free lists and the large blocks;
* **`State.destroy`** — `~State`.
-/

namespace InfiniRT.Pool

open InfiniRT.Library

/-- The environment's answers during one `allocate` or `allocate_exact`. -/
structure AllocAnswer where
  /-- Whether `DeviceGuard` selects the device. -/
  guard : Bool
  /-- The block object of `std::make_shared<Block>()`, if the host grants one. -/
  makeShared : Option BlockId
  backend : BackendAnswer
  /-- Whether the insertions into `all_blocks_` and `large_blocks_` find memory. -/
  emplace : Bool
  pushLarge : Bool
  freeze : FreezeAnswer
  /-- The status of the `free_block_` in the handler. -/
  cleanup : Error
  deriving DecidableEq, Repr

/-- `DeviceGuard guard{device_.type(), device_.index(), true}`. -/
def deviceGuard (selected : Bool) : PoolAction Unit :=
  if selected then pure () else throw (.runtimeError "cannot select runtime device")

/-- `std::make_shared<Block>()` with the fields written right after it. -/
def makeBlock (granted : Option BlockId) (blk : Block) : PoolAction BlockId :=
  match granted with
  | none => throw .badAlloc
  | some b => do
    modify (·.setBlock b blk)
    return b

/-- The fields a growth path writes into a new block before it asks the backend. -/
def newBlock (size : ℕ) (kind : Kind) (classIndex : ℕ) : Block :=
  { size := size, kind := kind, classIndex := classIndex, inUse := true, useCount := 1 }

/-- `all_blocks_.emplace(block->ptr, block)`: a key that is present keeps its block. -/
def State.track (s : State) (b : BlockId) : State :=
  if (s.blocks b).ptr ∈ s.allBlocks then s
  else { s with allBlocks := s.allBlocks.insert (s.blocks b).ptr b }

/-- `all_blocks_.erase(ptr)`. -/
def State.untrack (s : State) (ptr : Ptr) : State :=
  { s with allBlocks := s.allBlocks.erase ptr }

/-- `large_blocks_.push_back(block)`. -/
def State.pushLarge (s : State) (b : BlockId) : State :=
  { s with largeBlocks := s.largeBlocks ++ [b] }

/-- `large_blocks_.erase(std::remove(…, block), …)`. -/
def State.dropLarge (s : State) (b : BlockId) : State :=
  { s with largeBlocks := s.largeBlocks.filter (· ≠ b) }

/-- `block->allocation_capture_generation = generation`. -/
def State.stamp (s : State) (b : BlockId) (generation : ℕ) : State :=
  s.modifyBlock b fun blk => { blk with allocationCaptureGeneration := generation }

/-- `block->in_use = true; block->use_count = 1`. -/
def State.startUse (s : State) (b : BlockId) : State :=
  s.modifyBlock b fun blk => { blk with inUse := true, useCount := 1 }

/-- `cls.free_blocks.erase(free_block)`, where `free_block` is where `find_if` stopped. -/
def State.takeFree (s : State) (i : ℕ) : State :=
  s.setFreeBlocks i ((s.freeBlocks i).eraseP fun c => !(s.blocks c).inUse)

/-- The reuse path of a size class, once `find_if` stopped at `b`. -/
def reuseClassBlock (t : ThreadId) (ans : AllocAnswer) (i generation : ℕ) (b : BlockId) :
    PoolAction Ptr := do
  freezeForCapture t ans.freeze b
  modify (·.stamp b generation)
  modify (·.takeFree i)
  modify (·.startUse b)
  return ((← get).blocks b).ptr

/-- The `try` block of a size class's growth path. -/
def registerClassBlock (t : ThreadId) (ans : AllocAnswer) (b : BlockId)
    (blockSize generation : ℕ) : PoolAction Unit := do
  let status ← allocateBlock ans.backend b blockSize
  check status "allocate size-class block"
  hostAllocation ans.emplace
  modify (·.track b)
  freezeForCapture t ans.freeze b
  modify (·.stamp b generation)

/-- Its handler. -/
def discardClassBlock (ans : AllocAnswer) (b : BlockId) (e : Exn) : PoolAction Unit := do
  let ptr := ((← get).blocks b).ptr
  if ptr ≠ nullptr then
    modify (·.untrack ptr)
    let _ ← freeBlock ans.cleanup ptr
  throw e

/-- The growth path of a size class. -/
def growClass (t : ThreadId) (ans : AllocAnswer) (i blockSize generation : ℕ) :
    PoolAction Ptr := do
  let b ← makeBlock ans.makeShared (newBlock blockSize .SizeClass i)
  tryCatch (registerClassBlock t ans b blockSize generation) (discardClassBlock ans b)
  return ((← get).blocks b).ptr

/-- The kind of block that `allocate_exact` or an oversized `allocate` asks for. -/
def requestKind (isExact : Bool) : Kind := if isExact then .Exact else .Large

/-- The predicate `find_if` scans `large_blocks_` with. -/
def fitsLarge (size : ℕ) (isExact : Bool) (candidate : Block) : Bool :=
  !candidate.inUse && candidate.kind = requestKind isExact &&
    if isExact then candidate.size = size else candidate.size ≥ size

/-- The reuse path of `large_blocks_`, once `find_if` stopped at `b`. -/
def reuseLargeBlock (t : ThreadId) (ans : AllocAnswer) (generation : ℕ) (b : BlockId) :
    PoolAction Ptr := do
  freezeForCapture t ans.freeze b
  modify (·.stamp b generation)
  modify (·.startUse b)
  return ((← get).blocks b).ptr

/-- The `try` block of the growth path of `large_blocks_`. -/
def registerLargeBlock (t : ThreadId) (ans : AllocAnswer) (b : BlockId) (size generation : ℕ) :
    PoolAction Unit := do
  let status ← allocateBlock ans.backend b size
  check status "allocate large/exact block"
  hostAllocation ans.emplace
  modify (·.track b)
  hostAllocation ans.pushLarge
  modify (·.pushLarge b)
  freezeForCapture t ans.freeze b
  modify (·.stamp b generation)

/-- Its handler. -/
def discardLargeBlock (ans : AllocAnswer) (b : BlockId) (e : Exn) : PoolAction Unit := do
  let ptr := ((← get).blocks b).ptr
  if ptr ≠ nullptr then
    modify (·.dropLarge b)
    modify (·.untrack ptr)
    let _ ← freeBlock ans.cleanup ptr
  throw e

/-- The growth path of `large_blocks_`. -/
def growLarge (t : ThreadId) (ans : AllocAnswer) (size : ℕ) (isExact : Bool) (generation : ℕ) :
    PoolAction Ptr := do
  let b ← makeBlock ans.makeShared (newBlock size (requestKind isExact) 0)
  tryCatch (registerLargeBlock t ans b size generation) (discardLargeBlock ans b)
  return ((← get).blocks b).ptr

/-- The generation a block allocated on thread `t` is stamped with. -/
def State.generationFor (s : State) (t : ThreadId) : ℕ :=
  if s.OwnsPinMode t then s.captureGeneration else 0

/-- `block_size` of a size class. -/
def State.blockSize (s : State) (i : ℕ) : ℕ := (s.sizeClasses[i]?).elim 0 (·.blockSize)

/-- The class the loop over `size_classes_` stops at: the first one that fits. -/
def State.findClass (s : State) (size : ℕ) : Option ℕ :=
  s.sizeClasses.findIdx? fun cls => decide (size ≤ cls.blockSize)

/-- The body of the loop over `size_classes_` at the class that fits. -/
def allocateFromClass (t : ThreadId) (ans : AllocAnswer) (generation i : ℕ) : PoolAction Ptr := do
  let s ← get
  match (s.freeBlocks i).find? fun c => !(s.blocks c).inUse with
  | some b => reuseClassBlock t ans i generation b
  | none => growClass t ans i (s.blockSize i) generation

/-- The part of `allocate_impl_` after that loop. -/
def allocateFromLarge (t : ThreadId) (ans : AllocAnswer) (size : ℕ) (isExact : Bool)
    (generation : ℕ) : PoolAction Ptr := do
  let s ← get
  match s.largeBlocks.find? fun c => fitsLarge size isExact (s.blocks c) with
  | some b => reuseLargeBlock t ans generation b
  | none => growLarge t ans size isExact generation

/-- `allocate_impl_` on thread `t`. -/
def allocateImpl (t : ThreadId) (ans : AllocAnswer) (size : ℕ) (isExact : Bool) :
    PoolAction Ptr :=
  if size = 0 then
    if isExact then throw (.invalidArgument "exact allocator request must be nonzero")
    else pure nullptr
  else do
    let size ← alignUp size 256
    let s ← get
    let generation := s.generationFor t
    match if isExact then none else s.findClass size with
    | some i => allocateFromClass t ans generation i
    | none => allocateFromLarge t ans size isExact generation

/-- `allocate`. -/
def allocate (t : ThreadId) (ans : AllocAnswer) (size : ℕ) : PoolAction Ptr := do
  deviceGuard ans.guard
  allocateImpl t ans size false

/-- `allocate_exact`. -/
def allocateExact (t : ThreadId) (ans : AllocAnswer) (size : ℕ) : PoolAction Ptr := do
  deviceGuard ans.guard
  allocateImpl t ans size true

/-- The exception for an address the pool does not track. -/
def notAllocated : Exn := .runtimeError "Pointer not allocated by this allocator"

/-- `size_classes_[block->class_index].free_blocks.push_back(block)`. -/
def State.pushFree (s : State) (b : BlockId) : State :=
  s.setFreeBlocks (s.blocks b).classIndex (s.freeBlocks (s.blocks b).classIndex ++ [b])

/-- `free_blocks.erase(std::remove(…, block), …)` in the block's class. -/
def State.dropFree (s : State) (b : BlockId) : State :=
  s.setFreeBlocks (s.blocks b).classIndex
    ((s.freeBlocks (s.blocks b).classIndex).filter (· ≠ b))

/-- `--block->use_count`. -/
def State.dropOwner (s : State) (b : BlockId) : State :=
  s.modifyBlock b fun blk => { blk with useCount := blk.useCount - 1 }

/-- `block->use_count = 0; block->in_use = false`. -/
def State.endUse (s : State) (b : BlockId) : State :=
  s.modifyBlock b fun blk => { blk with useCount := 0, inUse := false }

/-- `block->in_use = true; ++block->use_count`. -/
def State.addOwner (s : State) (b : BlockId) : State :=
  s.modifyBlock b fun blk => { blk with inUse := true, useCount := blk.useCount + 1 }

/-- The exception for an address without a logical owner. -/
def doubleFree : Exn := .runtimeError "Double free detected in ReusableMemoryPool"

/-- `deallocate`; `pushBack` says whether `free_blocks.push_back` finds memory. -/
def deallocate (pushBack : Bool) (ptr : Ptr) : PoolAction Unit := do
  if ptr = nullptr then return ()
  else
    let s ← get
    match s.allBlocks.lookup ptr with
    | none => throw notAllocated
    | some b =>
      let block := s.blocks b
      if block.inUse = false ∨ block.useCount = 0 then throw doubleFree
      else if block.useCount > 1 then modify (·.dropOwner b)
      else do
        if block.kind = .SizeClass then
          hostAllocation pushBack
          modify (·.pushFree b)
        modify (·.endUse b)

/-- `retain_allocation`. -/
def retainAllocation (ptr : Ptr) : PoolAction ℕ := do
  let s ← get
  match s.allBlocks.lookup ptr with
  | none => throw notAllocated
  | some b =>
    let block := s.blocks b
    if block.kind = .SizeClass then modify (·.dropFree b)
    modify (·.addOwner b)
    return block.size

/-- `begin_pin_mode` past its checks. -/
def State.openPinMode (s : State) (t : ThreadId) : State :=
  { s with captureGeneration := s.captureGeneration + 1, pinnedMode := true, pinOwner := some t }

/-- The writes that end a pin transaction. -/
def State.closePinMode (s : State) : State :=
  { s with
    pinnedMode := false
    pinOwner := none
    captureFrozenBlocks := []
    captureFrozenBlockSet := ∅ }

/-- `begin_pin_mode` on thread `t`. -/
def beginPinMode (t : ThreadId) : PoolAction Unit := do
  let s ← get
  if s.pinnedMode then throw (.runtimeError "allocator graph capture is already active")
  else if s.captureFrozenBlocks ≠ [] ∨ s.captureFrozenBlockSet ≠ ∅ then
    throw (.runtimeError "allocator pin transaction contains stale blocks")
  else if s.captureGeneration = 2 ^ 64 - 1 then
    throw (.overflowError "allocator capture generation exhausted")
  else modify (·.openPinMode t)

/-- The locked section of `commit_pin_mode` on thread `t`: the blocks it moves out of the state,
or `none` where the function returns a null lease. -/
def takeFrozenBlocks (t : ThreadId) : PoolAction (Option (List BlockId)) := do
  let s ← get
  if s.pinnedMode = false then return none
  else if s.pinOwner ≠ some t then
    throw (.runtimeError
      "cannot commit allocator pin mode: another thread owns the graph capture")
  else
    modify (·.closePinMode)
    return some s.captureFrozenBlocks

/-- `cancel_pin_mode` on thread `t`. -/
def cancelPinMode (t : ThreadId) : PoolAction Unit := do
  let s ← get
  if s.pinnedMode = true ∧ s.pinOwner ≠ some t then
    throw (.runtimeError
      "cannot cancel allocator pin mode: another thread owns the graph capture")
  else
    modify fun s => (s.releaseFrozenBlocks s.captureFrozenBlocks).closePinMode

/-- `retain_for_capture` on thread `t`. -/
def retainForCapture (t : ThreadId) (ans : FreezeAnswer) (ptr : Ptr) : PoolAction Bool := do
  let s ← get
  if ¬ s.OwnsPinMode t then
    throw (.runtimeError "allocator graph capture is not active on this thread")
  else
    match s.allBlocks.lookup ptr with
    | none => throw (.runtimeError "capture requires pool-owned memory")
    | some b =>
      freezeForCapture t ans b
      let s ← get
      return (s.blocks b).allocationCaptureGeneration ≠ s.captureGeneration

/-- `pinned_bytes`.  The sum is taken not to wrap: the blocks are apart in memory. -/
def State.pinnedBytes (s : State) : ℕ :=
  (s.allBlocks.entries.map fun entry =>
    if 0 < (s.blocks entry.2).pinCount then (s.blocks entry.2).size else 0).sum

/-- Replace `large_blocks_`. -/
def State.setLarge (s : State) (l : List BlockId) : State := { s with largeBlocks := l }

/-- One loop of `trim`: walk a list from `it` on, giving back what `idle` selects.  The result is
what is left of the list. -/
def trimList (idle : Block → Bool) (answer : Ptr → Error) (operation : String)
    (store : List BlockId → State → State) (kept : List BlockId) :
    List BlockId → PoolAction Unit
  | [] => pure ()
  | b :: rest => do
    let block := (← get).blocks b
    if idle block then
      let status ← freeBlock (answer block.ptr) block.ptr
      check status operation
      modify (·.untrack block.ptr)
      modify (store (kept ++ rest))
      trimList idle answer operation store kept rest
    else trimList idle answer operation store (kept ++ [b]) rest

/-- The loop of `trim` over the size classes, from class `i` on. -/
def trimClasses (answer : Ptr → Error) : ℕ → ℕ → PoolAction Unit
  | _, 0 => pure ()
  | i, n + 1 => do
    trimList (fun blk => blk.pinCount = 0) answer "trim size-class block"
      (fun l s => s.setFreeBlocks i l) [] ((← get).freeBlocks i)
    trimClasses answer (i + 1) n

/-- The environment's answers during one `trim`: `free` gives the status of `free_block_` for each
address. -/
structure TrimAnswer where
  guard : Bool
  free : Ptr → Error

/-- `trim`. -/
def trim (ans : TrimAnswer) : PoolAction Unit := do
  deviceGuard ans.guard
  trimClasses ans.free 0 (← get).sizeClasses.length
  trimList (fun blk => blk.pinCount = 0 && !blk.inUse) ans.free "trim large/exact block"
    (fun l s => s.setLarge l) [] (← get).largeBlocks

/-- The environment's answers during `~State`: the device guard, the two stream
synchronizations, and the status of `free_block_` for each address. -/
structure DestroyAnswer where
  guard : Bool
  drain : Error
  free : Ptr → Error
  complete : Error

/-- The loop of `~State` over `all_blocks_`. -/
def State.freeEntries (answer : Ptr → Error) : List (Σ _ : Ptr, BlockId) → State → State
  | [], s => s
  | entry :: rest, s =>
    freeEntries answer rest <|
      let ptr := (s.blocks entry.2).ptr
      if ptr ≠ nullptr then
        { s with calls := .free s.allocationStream ptr (answer ptr) :: s.calls }
      else s

/-- `~State`: no backing memory is freed unless the stream drains. -/
def State.destroy (s : State) (ans : DestroyAnswer) : State :=
  if ans.guard = false then s
  else if s.stream.isSome ∧ ans.drain ≠ kSuccess then s
  else
    let s := s.freeEntries ans.free s.allBlocks.entries
    if s.stream.isSome then
      if ans.complete ≠ kSuccess then s else { s with stream := none }
    else s

end InfiniRT.Pool
