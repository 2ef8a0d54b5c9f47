import InfiniRT.Library.Runs
import InfiniRT.Pool.Operations

/-!
# Threads, commits and leases around the pool

A `World` is one pool's `State` with everything that owns it or its blocks: the pool object, the
commits that have left their locked section and are building a lease, and the leases alive.  An
`Event` is one mutex-protected section run by some thread, one allocation of a commit outside the
mutex, or the destruction of an owner.  A run interleaves events of any number of threads in any
order; the environment's answers are part of the event, so every failure is among the runs.

`generation` in a commit and in a lease is the number of the pin transaction it came from.  The code
does not keep it there; it is recorded so that a statement can say which transaction it means.
The main definitions:

* **`World`** — the state with the pool object, the pending commits and the leases;
* **`Event`** — what a thread may do;
* **`World.perform`** — what an event does, and what the thread is told;
* **`PoolRun`** — the runs, which start with a pool just constructed.
-/

namespace InfiniRT.Pool

open InfiniRT.Library

/-- Where `commit_pin_mode` stands after its locked section. -/
inductive CommitStage
  /-- About to allocate the `PinState`; the local vector owns the pins. -/
  | makePinState
  /-- About to allocate the `PinLease`; the `PinState` in `retained` owns the pins. -/
  | newPinLease
  /-- About to allocate the control block of `std::shared_ptr<PinLease>`. -/
  | controlBlock
  /-- An allocation threw; about to run the handler. -/
  | handler
  deriving DecidableEq, Repr

/-- A `commit_pin_mode` past its locked section: the local vector `blocks` and the vector of the
`PinState`, empty while there is none. -/
structure PendingCommit where
  thread : ThreadId
  generation : ℕ
  blocks : List BlockId
  retained : List BlockId
  stage : CommitStage
  deriving DecidableEq, Repr

/-- A live `PinLease`, with the vector of its `PinState`. -/
structure Lease where
  generation : ℕ
  blocks : List BlockId
  deriving DecidableEq, Repr

/-- One pool and its owners. -/
structure World where
  state : State
  poolAlive : Bool
  commits : List PendingCommit
  leases : List Lease
  /-- `~State` has run. -/
  closed : Bool

/-- A pool that was just constructed. -/
def World.initial (stream : Option Stream) (isNvidia : Bool) : World where
  state := .initial stream isNvidia
  poolAlive := true
  commits := []
  leases := []
  closed := false

/-- What a call returns. -/
inductive Value
  | none
  | pointer (p : Ptr)
  | size (n : ℕ)
  | flag (b : Bool)
  /-- The null lease of a `commit_pin_mode` without a transaction. -/
  | nullLease
  /-- A `commit_pin_mode` has left its locked section. -/
  | committing (c : PendingCommit)
  | lease (l : Lease)
  deriving DecidableEq, Repr

/-- What one event ends with. -/
abbrev Outcome := Except Exn Value

/-- One atomic step of some thread. -/
inductive Event
  | allocate (t : ThreadId) (size : ℕ) (ans : AllocAnswer)
  | allocateExact (t : ThreadId) (size : ℕ) (ans : AllocAnswer)
  | deallocate (t : ThreadId) (p : Ptr) (pushBack : Bool)
  | retainAllocation (t : ThreadId) (p : Ptr)
  | beginPinMode (t : ThreadId)
  /-- The locked section of `commit_pin_mode`. -/
  | commitPinMode (t : ThreadId)
  /-- The next allocation of a commit, or its handler. -/
  | advanceCommit (c : PendingCommit) (granted : Bool)
  | cancelPinMode (t : ThreadId)
  | retainForCapture (t : ThreadId) (p : Ptr) (ans : FreezeAnswer)
  | pinnedBytes (t : ThreadId)
  | trim (t : ThreadId) (ans : TrimAnswer)
  /-- The last owner of a lease goes away. -/
  | destroyLease (l : Lease) (ans : DestroyAnswer)
  | destroyPool (ans : DestroyAnswer)

namespace World

/-- Run a member function. -/
def call {α : Type} (w : World) (x : PoolAction α) (value : α → Value) : World × Outcome :=
  ({ w with state := (x.run w.state).2 }, (x.run w.state).1.map value)

/-- `~State` runs when its last owner is gone. -/
def closeIfUnowned (w : World) (ans : DestroyAnswer) : World :=
  if w.poolAlive = false ∧ w.leases = [] then
    { w with state := w.state.destroy ans, closed := true }
  else w

/-- Put a commit in the place of an earlier stage of it. -/
def setCommit (w : World) (c c' : PendingCommit) : World :=
  { w with commits := c' :: w.commits.erase c }

/-- The locked section of `commit_pin_mode`. -/
def commitSection (w : World) (t : ThreadId) : World × Outcome :=
  match (takeFrozenBlocks t).run w.state with
  | (.error e, s) => ({ w with state := s }, .error e)
  | (.ok none, s) => ({ w with state := s }, .ok .nullLease)
  | (.ok (some blocks), s) =>
    let c : PendingCommit :=
      { thread := t, generation := w.state.captureGeneration, blocks := blocks, retained := [],
        stage := .makePinState }
    ({ w with state := s, commits := c :: w.commits }, .ok (.committing c))

/-- What `commit_pin_mode` does outside the mutex.  Moving a vector leaves its source empty, so
the handler releases the pins only if no `PinState` was built; otherwise unwinding has run
`~PinState`, which released them. -/
def commitStep (w : World) (c : PendingCommit) (granted : Bool) : World × Outcome :=
  match c.stage with
  | .makePinState =>
    let c' : PendingCommit :=
      if granted then { c with blocks := [], retained := c.blocks, stage := .newPinLease }
      else { c with stage := .handler }
    (w.setCommit c c', .ok (.committing c'))
  | .newPinLease =>
    if granted then
      let c' := { c with stage := .controlBlock }
      (w.setCommit c c', .ok (.committing c'))
    else
      let c' := { c with retained := [], stage := .handler }
      ({ w.setCommit c c' with state := w.state.releaseFrozenBlocks c.retained },
        .ok (.committing c'))
  | .controlBlock =>
    if granted then
      let l : Lease := { generation := c.generation, blocks := c.retained }
      ({ w with commits := w.commits.erase c, leases := l :: w.leases }, .ok (.lease l))
    else
      let c' := { c with retained := [], stage := .handler }
      ({ w.setCommit c c' with state := w.state.releaseFrozenBlocks c.retained },
        .ok (.committing c'))
  | .handler =>
    ({ w with state := w.state.releaseFrozenBlocks c.blocks, commits := w.commits.erase c },
      .error .badAlloc)

/-- The effect and the outcome of an event. -/
def perform (w : World) : Event → World × Outcome
  | .allocate t size ans => w.call (Pool.allocate t ans size) .pointer
  | .allocateExact t size ans => w.call (Pool.allocateExact t ans size) .pointer
  | .deallocate _ p pushBack => w.call (Pool.deallocate pushBack p) fun _ => .none
  | .retainAllocation _ p => w.call (Pool.retainAllocation p) .size
  | .beginPinMode t => w.call (Pool.beginPinMode t) fun _ => .none
  | .commitPinMode t => w.commitSection t
  | .advanceCommit c granted => w.commitStep c granted
  | .cancelPinMode t => w.call (Pool.cancelPinMode t) fun _ => .none
  | .retainForCapture t p ans => w.call (Pool.retainForCapture t ans p) .flag
  | .pinnedBytes _ => (w, .ok (.size w.state.pinnedBytes))
  | .trim _ ans => w.call (Pool.trim ans) fun _ => .none
  | .destroyLease l ans =>
    (({ w with
        state := w.state.releaseFrozenBlocks l.blocks
        leases := w.leases.erase l } : World).closeIfUnowned ans, .ok .none)
  | .destroyPool ans => ({ w with poolAlive := false }.closeIfUnowned ans, .ok .none)

end World

/-! ### Which events can happen -/

namespace World

/-- The block objects somebody holds a shared pointer to. -/
def shared (w : World) : List BlockId :=
  w.state.allBlocks.entries.map (·.2) ++ w.state.sizeClasses.flatMap (·.freeBlocks) ++
    w.state.largeBlocks ++ w.state.captureFrozenBlocks ++
    w.commits.flatMap (fun c => c.blocks ++ c.retained) ++ w.leases.flatMap (·.blocks)

/-- The contract of the environment of an allocation: a new object is none that is still shared,
and the backend hands out an address that is not null and not allocated.  A failing backend may
leave anything in the out parameter but the address of allocated memory. -/
def Answers (w : World) (ans : AllocAnswer) : Prop :=
  (∀ b ∈ ans.makeShared, b ∉ w.shared) ∧
    (ans.backend.status = kSuccess → ans.backend.out ≠ nullptr) ∧
    ans.backend.out ∉ live w.state.calls

/-- An event can happen: the objects it runs on are there, and the environment keeps its contract.
The pool object is not destroyed under a call that runs on it. -/
def Enabled (w : World) : Event → Prop
  | .allocate _ _ ans => w.poolAlive = true ∧ w.Answers ans
  | .allocateExact _ _ ans => w.poolAlive = true ∧ w.Answers ans
  | .deallocate .. | .retainAllocation .. | .beginPinMode _ | .commitPinMode _
  | .cancelPinMode _ | .retainForCapture .. | .pinnedBytes _ | .trim .. => w.poolAlive = true
  | .advanceCommit c _ => c ∈ w.commits
  | .destroyLease l _ => l ∈ w.leases
  | .destroyPool _ => w.poolAlive = true ∧ w.commits = []

instance (w : World) (ans : AllocAnswer) : Decidable (w.Answers ans) :=
  inferInstanceAs (Decidable (_ ∧ _ ∧ _))

instance (w : World) : (e : Event) → Decidable (w.Enabled e)
  | .allocate .. | .allocateExact .. => inferInstanceAs (Decidable (_ ∧ _))
  | .deallocate .. | .retainAllocation .. | .beginPinMode _ | .commitPinMode _
  | .cancelPinMode _ | .retainForCapture .. | .pinnedBytes _ | .trim .. =>
    inferInstanceAs (Decidable (_ = _))
  | .advanceCommit c _ => inferInstanceAs (Decidable (c ∈ w.commits))
  | .destroyLease l _ => inferInstanceAs (Decidable (l ∈ w.leases))
  | .destroyPool _ => inferInstanceAs (Decidable (_ ∧ _))

end World

/-- The step relation: the label is the event with its outcome. -/
def Step (w : World) (l : Event × Outcome) (w' : World) : Prop :=
  w.Enabled l.1 ∧ w.perform l.1 = (w', l.2)

/-- A run of a pool from its construction, with the events and outcomes so far. -/
def PoolRun (trace : List (Event × Outcome)) (w : World) : Prop :=
  ∃ stream isNvidia, Run Step (World.initial stream isNvidia) trace w

/-- Run a list of events, recording their outcomes. -/
def World.runEvents (w : World) : List Event → World × List (Event × Outcome)
  | [] => (w, [])
  | e :: es =>
    let next := w.perform e
    let rest := next.1.runEvents es
    (rest.1, (e, next.2) :: rest.2)

/-- Every event of a list can happen in its turn. -/
def World.CanRun (w : World) : List Event → Prop
  | [] => True
  | e :: es => w.Enabled e ∧ (w.perform e).1.CanRun es

instance World.decidableCanRun (w : World) : (es : List Event) → Decidable (w.CanRun es)
  | [] => .isTrue trivial
  | e :: es =>
    have := World.decidableCanRun (w.perform e).1 es
    inferInstanceAs (Decidable (_ ∧ _))

theorem World.run_runEvents {w : World} {es : List Event} (h : w.CanRun es) :
    Run Step w (w.runEvents es).2 (w.runEvents es).1 := by
  induction es generalizing w with
  | nil => exact .nil
  | cons e es ih =>
    have hone : Step w (e, (w.perform e).2) (w.perform e).1 := ⟨h.1, rfl⟩
    exact (Run.single hone).append (ih h.2)

theorem poolRun_runEvents {stream : Option Stream} {isNvidia : Bool} {es : List Event}
    (h : (World.initial stream isNvidia).CanRun es) :
    PoolRun ((World.initial stream isNvidia).runEvents es).2
      ((World.initial stream isNvidia).runEvents es).1 :=
  ⟨stream, isNvidia, World.run_runEvents h⟩

/-- An environment that grants everything: a new object is `b`, new memory is at `p`. -/
def AllocAnswer.granting (b : BlockId) (p : Ptr) : AllocAnswer where
  guard := true
  makeShared := some b
  backend := { captureQuery := kSuccess, capturing := false, status := kSuccess, out := p }
  emplace := true
  pushLarge := true
  freeze := { pushBack := true, insert := true }
  cleanup := kSuccess

/-- A `trim` to which every block is given back. -/
def TrimAnswer.granting : TrimAnswer := { guard := true, free := fun _ => kSuccess }

/-- A `~State` that drains the stream and gives every block back. -/
def DestroyAnswer.granting : DestroyAnswer :=
  { guard := true, drain := kSuccess, free := fun _ => kSuccess, complete := kSuccess }

end InfiniRT.Pool
