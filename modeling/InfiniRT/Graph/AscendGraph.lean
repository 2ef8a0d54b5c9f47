import InfiniRT.Library.Runs
import Mathlib.Data.Int.Notation

/-!
# Graphs on Ascend

The graph functions of the Ascend runtime.  They call the `aclmdlRI` library, whose symbols are
looked up when the program runs and may be missing; what the library answers may depend on every
call made so far.  The calls that reached it are the state.  A graph and its executables are one and
the same model handle, so nothing is created by `GraphInstantiate` and nothing is destroyed by
`GraphExecDestroy`.  The main definitions:

* **`RiApi`** — the library, with the symbols that were found and what it answers;
* **`graphInstantiate`** — one of the functions of the runtime, a definition each;
* **`GraphWorld`** — a client that keeps graphs and executables.
-/

namespace InfiniRT.Graph

/-- `aclError`. -/
abbrev Error := ℤ

/-- `ACL_SUCCESS`. -/
def aclSuccess : Error := 0

/-- `UnsupportedGraphApi`. -/
def unsupportedGraphApi : Error := 1

/-- `Stream`. -/
abbrev Stream := ℕ

/-- `void*`: the handle of a model, which is a `Graph` and a `GraphExec`. -/
abbrev Handle := ℕ

/-- `nullptr`. -/
def nullHandle : Handle := 0

/-- A call that reached the library, with the model that a successful end of a capture made. -/
inductive RiCall
  | captureBegin (stream : Stream) (mode : ℤ)
  | captureGetInfo (stream : Stream)
  | captureEnd (stream : Stream) (status : Error) (model : Handle)
  | executeAsync (model : Handle) (stream : Stream)
  | destroy (model : Handle)
  deriving DecidableEq, Repr

/-- `RiApi`: what each symbol answers, given the calls so far, or nothing if it is missing. -/
structure RiApi where
  captureBegin : Option (List RiCall → Stream → ℤ → Error)
  captureGetInfo : Option (List RiCall → Stream → Error)
  captureEnd : Option (List RiCall → Stream → Error × Handle)
  executeAsync : Option (List RiCall → Handle → Stream → Error)
  destroy : Option (List RiCall → Handle → Error)

/-- `Available`. -/
def RiApi.available (api : RiApi) : Bool :=
  api.captureBegin.isSome && api.captureGetInfo.isSome && api.captureEnd.isSome &&
    api.executeAsync.isSome && api.destroy.isSome

/-- A function of the runtime. -/
abbrev GraphAction := StateM (List RiCall)

section Functions

variable (api : RiApi)

/-- Record a call. -/
def call (c : RiCall) : GraphAction Unit := modify (· ++ [c])

/-- `StreamBeginCapture`. -/
def streamBeginCapture (stream : Stream) (mode : ℤ) : GraphAction Error :=
  match api.available, api.captureBegin with
  | true, some captureBegin => do
    let calls ← get
    call (.captureBegin stream mode)
    return captureBegin calls stream mode
  | _, _ => return unsupportedGraphApi

/-- `StreamEndCapture`, with the graph if one is stored. -/
def streamEndCapture (stream : Stream) : GraphAction (Error × Option Handle) :=
  match api.available, api.captureGetInfo, api.captureEnd with
  | true, some captureGetInfo, some captureEnd => do
    let calls ← get
    call (.captureGetInfo stream)
    let infoStatus := captureGetInfo calls stream
    if infoStatus ≠ aclSuccess then return (infoStatus, none)
    let calls ← get
    let (status, model) := captureEnd calls stream
    call (.captureEnd stream status model)
    if status ≠ aclSuccess then return (status, none)
    return (aclSuccess, some model)
  | _, _, _ => return (unsupportedGraphApi, none)

/-- `GraphDestroy`. -/
def graphDestroy (graph : Handle) : GraphAction Error :=
  match api.destroy with
  | none => return aclSuccess
  | some destroy =>
    if graph = nullHandle then return aclSuccess
    else do
      let calls ← get
      call (.destroy graph)
      return destroy calls graph

/-- `GraphInstantiate`, with the executable that is stored. -/
def graphInstantiate (graph : Handle) : GraphAction (Error × Handle) := return (aclSuccess, graph)

/-- `GraphExecDestroy`. -/
def graphExecDestroy (_exec : Handle) : GraphAction Error := return aclSuccess

/-- `GraphLaunch`. -/
def graphLaunch (exec : Handle) (stream : Stream) : GraphAction Error :=
  match api.available, api.executeAsync with
  | true, some executeAsync => do
    let calls ← get
    call (.executeAsync exec stream)
    return executeAsync calls exec stream
  | _, _ => return unsupportedGraphApi

end Functions

/-! ### Clients -/

/-- A graph variable of the client. -/
structure GraphSlot where
  handle : Handle
  destroyed : Bool := false
  deriving DecidableEq, Repr

/-- An executable of the client, and the graph it was instantiated from. -/
structure ExecSlot where
  graph : ℕ
  handle : Handle
  destroyed : Bool := false
  deriving DecidableEq, Repr

/-- What the client holds, and the calls so far. -/
structure GraphWorld where
  calls : List RiCall := []
  graphs : List GraphSlot := []
  execs : List ExecSlot := []
  deriving DecidableEq, Repr

/-- What a client may do next. -/
inductive GraphOp
  | streamBeginCapture (stream : Stream) (mode : ℤ)
  | streamEndCapture (stream : Stream)
  | graphInstantiate (graph : ℕ)
  | graphLaunch (exec : ℕ) (stream : Stream)
  | graphExecDestroy (exec : ℕ)
  | graphDestroy (graph : ℕ)
  deriving DecidableEq, Repr

variable {api : RiApi} {w w' : GraphWorld}

namespace GraphWorld

/-- The graph, if it may be used. -/
def graph? (w : GraphWorld) (g : ℕ) : Option GraphSlot :=
  w.graphs[g]?.filter fun slot => !slot.destroyed

/-- The executable, if it may be used. -/
def exec? (w : GraphWorld) (e : ℕ) : Option ExecSlot :=
  w.execs[e]?.filter fun slot => !slot.destroyed

/-- A step of a client that destroys no graph twice and uses nothing after its own destruction. -/
def perform (api : RiApi) (w : GraphWorld) : GraphOp → Option GraphWorld
  | .streamBeginCapture stream mode =>
    some { w with calls := ((Graph.streamBeginCapture api stream mode).run w.calls).2 }
  | .streamEndCapture stream =>
    let r := (Graph.streamEndCapture api stream).run w.calls
    some { w with
      calls := r.2
      graphs := w.graphs ++ (r.1.2.map fun model => ⟨model, false⟩).toList }
  | .graphInstantiate g => do
    let slot ← w.graph? g
    let r := (Graph.graphInstantiate slot.handle).run w.calls
    return { w with calls := r.2, execs := w.execs ++ [⟨g, r.1.2, false⟩] }
  | .graphLaunch e stream => do
    let slot ← w.exec? e
    return { w with calls := ((Graph.graphLaunch api slot.handle stream).run w.calls).2 }
  | .graphExecDestroy e => do
    let slot ← w.execs[e]?
    return { w with
      calls := ((Graph.graphExecDestroy slot.handle).run w.calls).2
      execs := w.execs.set e { slot with destroyed := true } }
  | .graphDestroy g => do
    let slot ← w.graph? g
    return { w with
      calls := ((Graph.graphDestroy api slot.handle).run w.calls).2
      graphs := w.graphs.set g { slot with destroyed := true } }

end GraphWorld

/-! ### What each function adds to the calls -/

section Runs

variable {calls : List RiCall} {stream : Stream} {handle : Handle}

/-- A library that is available has every symbol. -/
theorem RiApi.symbols_of_available (h : api.available = true) :
    (∃ f, api.captureBegin = some f) ∧ (∃ f, api.captureGetInfo = some f) ∧
      (∃ f, api.captureEnd = some f) ∧ (∃ f, api.executeAsync = some f) ∧
      ∃ f, api.destroy = some f := by
  simp only [RiApi.available, Bool.and_eq_true, Option.isSome_iff_exists] at h
  obtain ⟨⟨⟨⟨hbegin, hinfo⟩, hend⟩, hexecute⟩, hdestroy⟩ := h
  exact ⟨hbegin, hinfo, hend, hexecute, hdestroy⟩

theorem run_streamBeginCapture (h : api.available = true) (stream : Stream) (mode : ℤ)
    (calls : List RiCall) :
    ((streamBeginCapture api stream mode).run calls).2 = calls ++ [.captureBegin stream mode] := by
  obtain ⟨⟨f, hf⟩, -⟩ := RiApi.symbols_of_available h
  rw [streamBeginCapture, h, hf]
  rfl

/-- The capture cannot be ended, or it ends without a model, or with one. -/
theorem run_streamEndCapture (h : api.available = true) (stream : Stream) (calls : List RiCall) :
    ((streamEndCapture api stream).run calls).2 = calls ++ [.captureGetInfo stream] ∧
        ((streamEndCapture api stream).run calls).1.2 = none ∨
    (∃ status model, status ≠ aclSuccess ∧ ((streamEndCapture api stream).run calls).2 =
        calls ++ [.captureGetInfo stream, .captureEnd stream status model] ∧
      ((streamEndCapture api stream).run calls).1.2 = none) ∨
    ∃ f model, api.captureEnd = some f ∧
      f (calls ++ [.captureGetInfo stream]) stream = (aclSuccess, model) ∧
      ((streamEndCapture api stream).run calls).2 =
        calls ++ [.captureGetInfo stream, .captureEnd stream aclSuccess model] ∧
      ((streamEndCapture api stream).run calls).1.2 = some model := by
  obtain ⟨-, ⟨info, hinfo⟩, ⟨f, hf⟩, -⟩ := RiApi.symbols_of_available h
  by_cases hstatus : info calls stream = aclSuccess
  · rcases hmodel : f (calls ++ [.captureGetInfo stream]) stream with ⟨status, model⟩
    by_cases hdone : status = aclSuccess
    · subst hdone
      have hrun : (streamEndCapture api stream).run calls = ((aclSuccess, some model),
          calls ++ [.captureGetInfo stream, .captureEnd stream aclSuccess model]) := by
        simp [streamEndCapture, call, h, hinfo, hf, hstatus, hmodel]
        rfl
      exact .inr (.inr ⟨f, model, hf, hmodel, congrArg Prod.snd hrun, congrArg (·.1.2) hrun⟩)
    · have hrun : (streamEndCapture api stream).run calls = ((status, none),
          calls ++ [.captureGetInfo stream, .captureEnd stream status model]) := by
        simp [streamEndCapture, call, h, hinfo, hf, hstatus, hmodel, hdone]
        rfl
      exact .inr (.inl ⟨status, model, hdone, congrArg Prod.snd hrun, congrArg (·.1.2) hrun⟩)
  · have hrun : (streamEndCapture api stream).run calls = ((info calls stream, none),
        calls ++ [.captureGetInfo stream]) := by
      simp [streamEndCapture, call, h, hinfo, hf, hstatus]
      rfl
    exact .inl ⟨congrArg Prod.snd hrun, congrArg (·.1.2) hrun⟩

theorem run_graphDestroy (h : api.available = true) (graph : Handle) (calls : List RiCall) :
    ((graphDestroy api graph).run calls).2 =
      if graph = nullHandle then calls else calls ++ [.destroy graph] := by
  obtain ⟨-, -, -, -, f, hf⟩ := RiApi.symbols_of_available h
  rw [graphDestroy, hf]
  dsimp only
  split <;> rfl

theorem run_graphLaunch (h : api.available = true) (exec : Handle) (stream : Stream)
    (calls : List RiCall) :
    ((graphLaunch api exec stream).run calls).2 = calls ++ [.executeAsync exec stream] := by
  obtain ⟨-, -, -, ⟨f, hf⟩, -⟩ := RiApi.symbols_of_available h
  rw [graphLaunch, h, hf]
  rfl

end Runs

end InfiniRT.Graph
