import InfiniRT.Device.GuardedPrograms
import InfiniRT.Pool.World

/-!
# Pools behind device guards

A `System` is a program with any number of threads and pools.  Each thread has its selection of a
backend and a device; a pool lives on one device and reaches it through a `DeviceGuard` on whatever
thread calls it.  The answer of the guard, which the model of a single pool leaves to the
environment, is here what the constructor of the guard gives on that thread.

What a guard reads and writes belongs to its thread, so a guarded call is one step.  The journal of
a pool holds every call it makes through the dispatch, the newest first, with the device the thread
had selected then.  The main definitions:

* **`createState`** — the constructor of a pool, which may fail at every call;
* **`operate`** — one event of a pool behind the guard of its thread;
* **`System.Step`** — the steps of a program with threads and pools.
-/

namespace InfiniRT.Pool

open InfiniRT.Library
open InfiniRT.Tensor (DeviceType)
open InfiniRT.Device (Backends Thread RawType typeValue)
open InfiniRT.Device.DeviceGuard (construct restore)

/-- The selected type and the current device of its backend. -/
abbrev Place := DeviceType × ℤ

/-- One call a pool makes through the dispatch. -/
inductive RuntimeCall
  /-- `StreamCreate` answered `status` and left `out` in `*stream`. -/
  | streamCreate (status : Error) (out : Option Stream)
  | streamDestroy (stream : Stream) (status : Error)
  | streamSynchronize (stream : Stream) (status : Error)
  | memory (call : BackendCall)
  deriving DecidableEq, Repr

/-- A call and the device it reached. -/
structure Placed where
  place : Place
  call : RuntimeCall
  deriving DecidableEq, Repr

def placedAt (place : Place) (calls : List RuntimeCall) : List Placed :=
  calls.map fun c => ⟨place, c⟩

/-! ### The constructor of `State` -/

/-- The environment's answers while a pool is constructed. -/
structure CreateAnswer where
  /-- Whether the host grants the `State` and its size classes. -/
  granted : Bool
  /-- The status of `StreamCreate`, and `*stream` after it. -/
  status : Error
  out : Option Stream
  /-- The status of `StreamDestroy` of a stream that a failed `StreamCreate` left. -/
  cleanup : Error
  deriving DecidableEq, Repr

/-- The destruction of a partial stream. -/
def dropPartial (cleanup : Error) : Option Stream → List RuntimeCall → List RuntimeCall
  | some stream, calls => .streamDestroy stream cleanup :: calls
  | none, calls => calls

/-- The part of the constructor that creates `stream_`. -/
def createStream (ans : CreateAnswer) : Action (List RuntimeCall) Exn (Option Stream) := do
  modify (.streamCreate ans.status ans.out :: ·)
  if ans.status ≠ kSuccess then
    modify (dropPartial ans.cleanup ans.out)
    throw (failedOperation ans.status "create pool stream")
  return ans.out

/-- `Device::Type::kCount`. -/
def kCount : RawType := 10#32

/-- The constructor of `State` from its guard on. -/
def createState (type : RawType) (ans : CreateAnswer) (active : Bool) :
    Action (List RuntimeCall) Exn World := do
  if !active then throw (.runtimeError "cannot select runtime device")
  let stream ← createStream ans
  return .initial stream (type = typeValue .nvidia)

/-- A pool that was constructed, or whose constructor threw, with what happened to it, the oldest
first, and the calls it made, the newest first. -/
structure PoolObject where
  type : RawType
  index : ℤ
  built : Except Exn World
  trace : List (Event × Outcome)
  journal : List Placed

/-- What a constructor leaves that threw `e` before it made a call. -/
def PoolObject.refused (type : RawType) (index : ℤ) (e : Exn) : PoolObject where
  type := type
  index := index
  built := .error e
  trace := []
  journal := []

/-- What the rest of the constructor leaves. -/
def PoolObject.created (type : RawType) (index : ℤ) (ans : CreateAnswer) (active : Bool)
    (place : Place) : PoolObject where
  type := type
  index := index
  built := ((createState type ans active).run []).1
  trace := []
  journal := placedAt place ((createState type ans active).run []).2

/-! ### Calls behind a guard -/

section Guard

variable {B : Backends} {α : Type}

/-- `DeviceGuard guard{type, index, true}` and a body, which is given whether the guard is active
and the device its calls reach.  The destructor runs after the body, also when the body or the
required form of the guard throws. -/
def underGuard (type : RawType) (index : ℤ) (body : Bool → Place → α) :
    Action (Thread B) Fault α := do
  let g ← construct type index
  let place := (← get).visible
  let _ ← restore g
  return body g.active place

/-- `ReusableMemoryPool(device)`. -/
def constructPool (type : RawType) (index : ℤ) (ans : CreateAnswer) :
    Action (Thread B) Fault PoolObject :=
  if ans.granted = false then return .refused type index .badAlloc
  else if type = kCount then
    return .refused type index (.invalidArgument "invalid pool device type")
  else underGuard type index (.created type index ans)

end Guard

/-- What `~State` does with its stream when the blocks are freed. -/
def closeStream (ans : DestroyAnswer) (destroy : Error) (frees : List RuntimeCall) :
    Option Stream → List RuntimeCall
  | none => frees
  | some stream =>
    if ans.drain ≠ kSuccess then [.streamSynchronize stream ans.drain]
    else if ans.complete ≠ kSuccess then
      .streamSynchronize stream ans.complete :: frees ++ [.streamSynchronize stream ans.drain]
    else
      .streamDestroy stream destroy :: .streamSynchronize stream ans.complete :: frees ++
        [.streamSynchronize stream ans.drain]

/-- The calls recorded since the state `s`. -/
def State.callsSince (s' s : State) : List RuntimeCall :=
  (s'.calls.take (s'.calls.length - s.calls.length)).map .memory

/-- The calls of `~State`; `destroy` is the status of `StreamDestroy`. -/
def State.closingCalls (s : State) (ans : DestroyAnswer) (destroy : Error) : List RuntimeCall :=
  if ans.guard = false then []
  else closeStream ans destroy ((s.freeEntries ans.free s.allBlocks.entries).callsSince s) s.stream

/-- The state that `~State` finds, if the event destroys the last owner of the pool. -/
def World.closing (w : World) : Event → Option (State × DestroyAnswer)
  | .destroyLease l ans =>
    if w.poolAlive = false ∧ w.leases.erase l = [] then
      some (w.state.releaseFrozenBlocks l.blocks, ans)
    else none
  | .destroyPool ans => if w.leases = [] then some (w.state, ans) else none
  | _ => none

/-- The event constructs a guard. -/
def World.guarded (w : World) : Event → Bool
  | .allocate .. | .allocateExact .. | .trim .. => true
  | e => (w.closing e).isSome

/-- The event with the guard's answer. -/
def Event.withGuard (active : Bool) : Event → Event
  | .allocate t size ans => .allocate t size { ans with guard := active }
  | .allocateExact t size ans => .allocateExact t size { ans with guard := active }
  | .trim t ans => .trim t { ans with guard := active }
  | .destroyLease l ans => .destroyLease l { ans with guard := active }
  | .destroyPool ans => .destroyPool { ans with guard := active }
  | e => e

/-- The calls an event makes. -/
def World.newCalls (w : World) (e : Event) (destroy : Error) : List RuntimeCall :=
  match w.closing e with
  | some (s, ans) => s.closingCalls ans destroy
  | none => (w.perform e).1.state.callsSince w.state

namespace PoolObject

/-- After an event whose calls reach the device `place`. -/
def after (p : PoolObject) (w : World) (destroy : Error) (e : Event) (place : Place) : PoolObject :=
  { p with
    built := .ok (w.perform e).1
    trace := p.trace ++ [(e, (w.perform e).2)]
    journal := placedAt place (w.newCalls e destroy) ++ p.journal }

/-- A member function of the pool, or the destructor of an owner. -/
def operate {B : Backends} (p : PoolObject) (w : World) (e : Event) (destroy : Error) :
    Action (Thread B) Fault PoolObject :=
  if w.guarded e then
    underGuard p.type p.index fun active place => p.after w destroy (e.withGuard active) place
  else return p.after w destroy e (← get).visible

end PoolObject

/-! ### Programs with pools -/

/-- A program: what each thread has selected, and the pools in the order of their construction. -/
structure System (B : Backends) where
  threads : ThreadId → Thread B
  pools : List PoolObject

/-- One step of some thread. -/
inductive SystemEvent
  | setRuntimeDeviceType (t : ThreadId) (type : RawType)
  | setDevice (t : ThreadId) (index : ℤ)
  | getDevice (t : ThreadId)
  | construct (t : ThreadId) (type : RawType) (index : ℤ) (ans : CreateAnswer)
  /-- An event of the pool `k`; `destroy` is read if it runs `~State`. -/
  | pool (t : ThreadId) (k : ℕ) (e : Event) (destroy : Error)

/-- The thread that runs the event; whoever is the last owner destroys a pool or a lease. -/
def Event.thread? : Event → Option ThreadId
  | .allocate t .. | .allocateExact t .. | .deallocate t .. | .retainAllocation t _
  | .beginPinMode t | .commitPinMode t | .cancelPinMode t | .retainForCapture t ..
  | .pinnedBytes t | .trim t _ => some t
  | .advanceCommit c _ => some c.thread
  | .destroyLease .. | .destroyPool _ => none

namespace System

variable {B : Backends} {α : Type}

/-- A program without pools. -/
def initial (threads : ThreadId → Thread B) : System B := ⟨threads, []⟩

def setThread (s : System B) (t : ThreadId) (th : Thread B) : System B :=
  { s with threads := Function.update s.threads t th }

/-- Code that runs on the thread `t`. -/
def onThread (t : ThreadId) (x : Action (Thread B) Fault α) : Action (System B) Fault α :=
  Action.zoom (fun s => s.threads t) (fun th s => s.setThread t th) x

/-- An event of a pool that exists and was constructed. -/
def poolEvent (t : ThreadId) (k : ℕ) (e : Event) (destroy : Error) :
    Action (System B) Fault Unit := do
  match (← get).pools[k]? with
  | some p =>
    match p.built with
    | .ok w =>
      let p ← onThread t (p.operate w e destroy)
      modify fun s => { s with pools := s.pools.set k p }
    | .error _ => pure ()
  | none => pure ()

/-- The effect of an event. -/
def perform : SystemEvent → Action (System B) Fault Unit
  | .setRuntimeDeviceType t type => onThread t (Device.setRuntimeDeviceType type)
  | .setDevice t index => do let _ ← onThread t (Device.setDevice index)
  | .getDevice t => do let _ ← onThread t Device.getDevice
  | .construct t type index ans => do
    let p ← onThread t (constructPool type index ans)
    modify fun s => { s with pools := s.pools ++ [p] }
  | .pool t k e destroy => poolEvent t k e destroy

/-- The pool `k` is there in the state `w`. -/
def HasPool (s : System B) (k : ℕ) (p : PoolObject) (w : World) : Prop :=
  s.pools[k]? = some p ∧ p.built = .ok w

/-- An event can happen: the pool it runs on was constructed and can take it. -/
def Enabled (s : System B) : SystemEvent → Prop
  | .pool t k e _ => ∃ p w, s.HasPool k p w ∧ w.Enabled e ∧ ∀ t' ∈ e.thread?, t' = t
  | _ => True

/-- The step relation; a program that aborts takes no step. -/
def Step (s : System B) (e : SystemEvent) (s' : System B) : Prop :=
  s.Enabled e ∧ (perform e).run s = (.ok (), s')

end System

end InfiniRT.Pool
