import InfiniRT.Library.Action
import Mathlib.Algebra.GroupWithZero.Nat
import Mathlib.Data.Finset.Insert
import Mathlib.Data.List.AList
import Mathlib.Logic.Function.Basic

/-!
# The state of the reusable memory pool

`ReusableMemoryPool::State` and the objects it shares.  A `Block` is an object behind shared
pointers, so the free lists, `large_blocks_`, `all_blocks_` and the pin leases hold the same block;
here they hold its identity and `blocks` gives the object.  `calls` records what was asked of the
backend, newest first, and is read by no function of the pool.

`use_count`, `pin_count` and the sum `pinned_bytes` are natural numbers where the source has
`std::size_t`.  A step raises one count by one, so no count wraps in a run of fewer than 2^64 steps;
the blocks of the sum are apart in memory, so their sizes add up to less than 2^64.
The main definitions:

* **`State`** — the fields of the pool, with `Block` and `SizeClass`;
* **`allocateBlock`** — what asks the backend, with `freeBlock`;
* **`freezeForCapture`** — what pins a block for the open transaction, with `releaseFrozenBlocks`.
-/

namespace InfiniRT.Pool

open InfiniRT.Library

/-- A device address. -/
abbrev Ptr := ℕ

/-- The null address. -/
def nullptr : Ptr := 0

/-- The identity of a `Block` object, what `std::shared_ptr<Block>` and `Block*` compare. -/
abbrev BlockId := ℕ

/-- `std::thread::id`. -/
abbrev ThreadId := ℕ

/-- `runtime::Stream`, non-null. -/
abbrev Stream := ℕ

/-- `runtime::Error`. -/
abbrev Error := ℤ

/-- `runtime::kSuccess`. -/
def kSuccess : Error := 0

/-- The exceptions the pool throws, with their texts. -/
inductive Exn
  | runtimeError (what : String)
  | lengthError (what : String)
  | invalidArgument (what : String)
  | overflowError (what : String)
  | badAlloc
  deriving DecidableEq, Repr

/-- `Block::Kind`. -/
inductive Kind
  | SizeClass
  | Large
  | Exact
  deriving DecidableEq, Repr

/-- `State::Block`.  The counts are taken not to wrap. -/
structure Block where
  ptr : Ptr := nullptr
  size : ℕ := 0
  kind : Kind := .Large
  classIndex : ℕ := 0
  pinCount : ℕ := 0
  inUse : Bool := false
  useCount : ℕ := 0
  allocationCaptureGeneration : ℕ := 0
  deriving DecidableEq, Repr

/-- `State::SizeClass`. -/
structure SizeClass where
  blockSize : ℕ
  freeBlocks : List BlockId
  deriving DecidableEq, Repr

/-- One call made on the backend allocator, on the stream it was ordered on. -/
inductive BackendCall
  /-- `Malloc` or `MallocAsync` of `size` bytes answered `status` and left `out` in `*ptr`. -/
  | malloc (stream : Option Stream) (size : ℕ) (status : Error) (out : Ptr)
  /-- `Free` or `FreeAsync` of `ptr` answered `status`. -/
  | free (stream : Option Stream) (ptr : Ptr) (status : Error)
  deriving DecidableEq, Repr

/-- The addresses the backend has handed out and not taken back. -/
def live : List BackendCall → List Ptr
  | [] => []
  | .malloc _ _ status out :: calls =>
    if status = kSuccess then out :: live calls else live calls
  | .free _ p status :: calls =>
    if status = kSuccess then (live calls).erase p else live calls

/-- `ReusableMemoryPool::State`, without the device and the mutex. -/
structure State where
  stream : Option Stream
  allocationStream : Option Stream
  pinnedMode : Bool
  pinOwner : Option ThreadId
  captureGeneration : ℕ
  sizeClasses : List SizeClass
  largeBlocks : List BlockId
  allBlocks : AList fun _ : Ptr => BlockId
  captureFrozenBlocks : List BlockId
  captureFrozenBlockSet : Finset BlockId
  blocks : BlockId → Block
  calls : List BackendCall

/-- The block sizes the constructor of `State` gives its size classes. -/
def classSizes : List ℕ :=
  [32 * 1024, 256 * 1024, 1 * 1024 * 1024, 2 * 1024 * 1024, 4 * 1024 * 1024, 8 * 1024 * 1024,
    16 * 1024 * 1024, 32 * 1024 * 1024, 64 * 1024 * 1024, 128 * 1024 * 1024, 256 * 1024 * 1024]

/-- The state the constructor leaves.  It ran on a device whose backend created `stream`, and
`isNvidia` says whether the device's type is `kNvidia`. -/
def State.initial (stream : Option Stream) (isNvidia : Bool) : State where
  stream := stream
  allocationStream := if isNvidia then stream else none
  pinnedMode := false
  pinOwner := none
  captureGeneration := 0
  sizeClasses := classSizes.map fun n => ⟨n, []⟩
  largeBlocks := []
  allBlocks := ∅
  captureFrozenBlocks := []
  captureFrozenBlockSet := ∅
  blocks := fun _ => {}
  calls := []

namespace State

/-! ### Reading and writing -/

/-- The free list of a size class. -/
def freeBlocks (s : State) (i : ℕ) : List BlockId := (s.sizeClasses[i]?).elim [] (·.freeBlocks)

/-- Replace the free list of a size class. -/
def setFreeBlocks (s : State) (i : ℕ) (l : List BlockId) : State :=
  { s with sizeClasses := s.sizeClasses.modify i fun c => { c with freeBlocks := l } }

/-- Replace a block object. -/
def setBlock (s : State) (b : BlockId) (blk : Block) : State :=
  { s with blocks := Function.update s.blocks b blk }

/-- Write fields of a block object. -/
def modifyBlock (s : State) (b : BlockId) (f : Block → Block) : State :=
  s.setBlock b (f (s.blocks b))

/-- `all_blocks_` holds the block. -/
def Tracked (s : State) (b : BlockId) : Prop := ∃ p, s.allBlocks.lookup p = some b

theorem tracked_iff_mem_entries (s : State) (b : BlockId) :
    s.Tracked b ↔ b ∈ s.allBlocks.entries.map (·.2) := by
  constructor
  · rintro ⟨p, hp⟩
    exact List.mem_map.mpr ⟨⟨p, b⟩, AList.mem_lookup_iff.mp hp, rfl⟩
  · intro h
    obtain ⟨⟨p, b'⟩, hmem, rfl⟩ := List.mem_map.mp h
    exact ⟨p, AList.mem_lookup_iff.mpr hmem⟩

instance (s : State) (b : BlockId) : Decidable (s.Tracked b) :=
  decidable_of_iff _ (s.tracked_iff_mem_entries b).symm

/-- The thread `t` has the pin transaction open. -/
def OwnsPinMode (s : State) (t : ThreadId) : Prop := s.pinnedMode = true ∧ s.pinOwner = some t

instance (s : State) (t : ThreadId) : Decidable (s.OwnsPinMode t) :=
  inferInstanceAs (Decidable (_ ∧ _))

@[simp] theorem freeBlocks_setFreeBlocks (s : State) (i j : ℕ) (l : List BlockId) :
    (s.setFreeBlocks i l).freeBlocks j =
      if i = j ∧ j < s.sizeClasses.length then l else s.freeBlocks j := by
  simp only [freeBlocks, setFreeBlocks, List.getElem?_modify]
  by_cases hj : j < s.sizeClasses.length
  · by_cases hij : i = j <;> simp [hj, hij]
  · simp [hj]

@[simp] theorem setBlock_blocks_self (s : State) (b : BlockId) (blk : Block) :
    (s.setBlock b blk).blocks b = blk := Function.update_self _ _ _

theorem setBlock_blocks_ne (s : State) {b c : BlockId} (blk : Block) (h : c ≠ b) :
    (s.setBlock b blk).blocks c = s.blocks c := Function.update_of_ne h _ _

@[simp] theorem modifyBlock_blocks_self (s : State) (b : BlockId) (f : Block → Block) :
    (s.modifyBlock b f).blocks b = f (s.blocks b) := setBlock_blocks_self _ _ _

theorem modifyBlock_blocks_ne (s : State) {b c : BlockId} (f : Block → Block) (h : c ≠ b) :
    (s.modifyBlock b f).blocks c = s.blocks c := setBlock_blocks_ne _ _ h

end State

/-! ### Steps that may throw -/

/-- A member function of `State` or of the pool, run under the mutex. -/
abbrev PoolAction := Action State Exn

/-- The exception for a backend call that failed. -/
def failedOperation (status : Error) (operation : String) : Exn :=
  .runtimeError (operation ++ " failed with error code " ++ toString status)

/-- `check`: an unsuccessful status becomes an exception. -/
def check (status : Error) (operation : String) : PoolAction Unit :=
  if status ≠ kSuccess then throw (failedOperation status operation) else pure ()

/-- A host allocation that succeeds or throws `std::bad_alloc`. -/
def hostAllocation (granted : Bool) : PoolAction Unit :=
  if granted then pure () else throw .badAlloc

/-- The exception for a request that cannot be rounded up. -/
def exceedsAddressable : Exn := .lengthError "allocator request exceeds addressable size"

/-- `align_up`, with `2 ^ 64 - 1` for the largest `std::size_t`. -/
def alignUp (size alignment : ℕ) : PoolAction ℕ :=
  if size > 2 ^ 64 - 1 - (alignment - 1) then throw exceedsAddressable
  else pure ((size + alignment - 1) / alignment * alignment)

/-- What the backend answers to one `allocate_block_`. -/
structure BackendAnswer where
  /-- The status of `cudaStreamIsCapturing`, and whether the stream is capturing. -/
  captureQuery : Error
  capturing : Bool
  /-- The status of `Malloc` or `MallocAsync`, and `*ptr` after it. -/
  status : Error
  out : Ptr
  deriving DecidableEq, Repr

/-- The exception for growth while the pool's stream is being captured. -/
def growthRefused : Exn :=
  .runtimeError
    "pool cannot grow during CUDA stream capture; preallocate blocks before capture"

/-- `allocate_block_` for the block `b`, whose `ptr` field is the out parameter.  Only a pool on an
NVIDIA device has an allocation stream, and its build has the capture query. -/
def allocateBlock (ans : BackendAnswer) (b : BlockId) (size : ℕ) : PoolAction Error := do
  let stream := (← get).allocationStream
  if stream.isSome then
    check ans.captureQuery "query pool stream capture"
    if ans.capturing then throw growthRefused
  modify fun s =>
    { s.modifyBlock b fun blk => { blk with ptr := ans.out } with
      calls := .malloc stream size ans.status ans.out :: s.calls }
  return ans.status

/-- `free_block_`. -/
def freeBlock (status : Error) (ptr : Ptr) : PoolAction Error := do
  modify fun s => { s with calls := .free s.allocationStream ptr status :: s.calls }
  return status

/-- What the host allocator answers to the two insertions of `freeze_for_capture_`. -/
structure FreezeAnswer where
  pushBack : Bool
  insert : Bool
  deriving DecidableEq, Repr

/-- `freeze_for_capture_`, called on thread `t`. -/
def freezeForCapture (t : ThreadId) (ans : FreezeAnswer) (b : BlockId) : PoolAction Unit := do
  let s ← get
  if s.OwnsPinMode t ∧ b ∉ s.captureFrozenBlockSet then
    hostAllocation ans.pushBack
    modify fun s => { s with captureFrozenBlocks := s.captureFrozenBlocks ++ [b] }
    tryCatch (do
        hostAllocation ans.insert
        modify fun s => { s with captureFrozenBlockSet := insert b s.captureFrozenBlockSet })
      (fun e => do
        modify fun s => { s with captureFrozenBlocks := s.captureFrozenBlocks.dropLast }
        throw e)
    modify (·.modifyBlock b fun blk => { blk with pinCount := blk.pinCount + 1 })

/-- `release_frozen_blocks_`: each listed block loses one pin, if it has one. -/
def State.releaseFrozenBlocks (s : State) : List BlockId → State
  | [] => s
  | b :: bs =>
    (if 0 < (s.blocks b).pinCount then
      s.modifyBlock b fun blk => { blk with pinCount := blk.pinCount - 1 }
    else s).releaseFrozenBlocks bs

end InfiniRT.Pool
