import InfiniRT.Graph.AscendGraph
import Mathlib.Data.List.Nodup

/-!
# Lifetimes of graphs

On the backend that the interface takes as its baseline an executable outlives its graph.  Here it
does not: it is the handle of the graph.  A run is safe exactly when no executable is launched after
its graph was destroyed.  Proved:

* **`perform_sound`** — a step is safe exactly if it launches nothing whose graph is destroyed;
* **`run_safe_iff`** — so is a run.
-/

namespace InfiniRT.Graph

open InfiniRT.Library (Run)

variable {api : RiApi} {w w' : GraphWorld} {calls new : List RiCall} {h : Handle} {c : RiCall}

/-- A call on a model that an earlier call destroyed. -/
def Invalidates (earlier later : RiCall) : Prop :=
  ∃ model, earlier = .destroy model ∧
    (later = .destroy model ∨ ∃ stream, later = .executeAsync model stream)

/-- No model is destroyed twice, and none is executed when it was destroyed. -/
def Safe (calls : List RiCall) : Prop :=
  calls.Pairwise fun earlier later => ¬Invalidates earlier later

theorem safe_snoc : Safe (calls ++ [c]) ↔ Safe calls ∧ ∀ a ∈ calls, ¬Invalidates a c := by
  simp [Safe, List.pairwise_append]

/-- A call that neither executes nor destroys. -/
def harmless : RiCall → Bool
  | .executeAsync _ _ => false
  | .destroy _ => false
  | _ => true

theorem not_invalidates_of_harmless (hc : harmless c = true) (a : RiCall) : ¬Invalidates a c := by
  rintro ⟨model, -, rfl | ⟨stream, rfl⟩⟩ <;> cases hc

theorem safe_append_harmless (hnew : ∀ c ∈ new, harmless c = true) :
    Safe (calls ++ new) ↔ Safe calls := by
  rw [Safe, List.pairwise_append]
  exact and_iff_left ⟨List.pairwise_of_forall_mem_list fun a _ b hb =>
    not_invalidates_of_harmless (hnew b hb) a,
    fun a _ b hb => not_invalidates_of_harmless (hnew b hb) a⟩

theorem destroy_mem_append (hnew : .destroy h ∉ new) :
    .destroy h ∈ calls ++ new ↔ .destroy h ∈ calls := by
  rw [List.mem_append]
  exact or_iff_left hnew

/-- The end of a capture makes a model that was not made before. -/
def RiApi.Fresh (api : RiApi) : Prop :=
  ∀ f, api.captureEnd = some f → ∀ calls stream model, f calls stream = (aclSuccess, model) →
    ∀ stream', .captureEnd stream' aclSuccess model ∉ calls

namespace GraphWorld

/-- What the client holds agrees with the calls. -/
structure Consistent (w : GraphWorld) : Prop where
  captured : ∀ slot ∈ w.graphs, ∃ stream, .captureEnd stream aclSuccess slot.handle ∈ w.calls
  distinct : (w.graphs.map GraphSlot.handle).Nodup
  destroyed : ∀ h, .destroy h ∈ w.calls ↔ h ≠ nullHandle ∧ ⟨h, true⟩ ∈ w.graphs
  execs : ∀ slot ∈ w.execs, ∃ graph, w.graphs[slot.graph]? = some graph ∧ graph.handle = slot.handle

/-- The operation launches an executable whose graph is not destroyed, or it does not launch. -/
def launchesLive (w : GraphWorld) : GraphOp → Bool
  | .graphLaunch e _ => w.execs[e]?.all fun slot =>
      slot.handle == nullHandle || w.graphs[slot.graph]?.all fun graph => !graph.destroyed
  | _ => true

/-- A graph that may be used. -/
theorem graph?_eq_some {g : ℕ} {slot : GraphSlot} :
    w.graph? g = some slot ↔ w.graphs[g]? = some slot ∧ slot.destroyed = false := by
  rw [graph?, Option.filter_eq_some_iff, Bool.not_eq_true']

theorem exec?_eq_some {e : ℕ} {slot : ExecSlot} :
    w.exec? e = some slot ↔ w.execs[e]? = some slot ∧ slot.destroyed = false := by
  rw [exec?, Option.filter_eq_some_iff, Bool.not_eq_true']

namespace Consistent

/-- The library was called without destroying a model. -/
theorem extend (hw : Consistent w) (hnew : ∀ h, .destroy h ∉ new) :
    Consistent { w with calls := w.calls ++ new } where
  captured slot hslot :=
    let ⟨stream, hmem⟩ := hw.captured slot hslot
    ⟨stream, List.mem_append_left _ hmem⟩
  distinct := hw.distinct
  destroyed h := (destroy_mem_append (hnew h)).trans (hw.destroyed h)
  execs := hw.execs

/-- A step that called the library without executing or destroying a model. -/
theorem extend_harmless (hw : Consistent w) {op : GraphOp} (hnew : ∀ c ∈ new, harmless c = true)
    (hop : w.launchesLive op = true) :
    Consistent { w with calls := w.calls ++ new } ∧
      (Safe (w.calls ++ new) ↔ Safe w.calls ∧ w.launchesLive op = true) := by
  refine ⟨hw.extend fun h hmem => ?_, (safe_append_harmless hnew).trans (and_iff_left hop).symm⟩
  cases hnew _ hmem

/-- A graph is captured. -/
theorem capture (hw : Consistent w) {stream : Stream} {model : Handle}
    (hfresh : ∀ stream', .captureEnd stream' aclSuccess model ∉ w.calls) :
    Consistent { w with
      calls := w.calls ++ [.captureGetInfo stream, .captureEnd stream aclSuccess model]
      graphs := w.graphs ++ [⟨model, false⟩] } := by
  refine ⟨fun slot hslot => ?_, ?_, fun h => ?_, fun slot hslot => ?_⟩
  · rcases List.mem_append.mp hslot with hslot | hslot
    · obtain ⟨stream', hmem⟩ := hw.captured slot hslot
      exact ⟨stream', List.mem_append_left _ hmem⟩
    · obtain rfl := List.mem_singleton.mp hslot
      exact ⟨stream, by simp⟩
  · rw [List.map_append, List.map_singleton, List.nodup_append]
    refine ⟨hw.distinct, List.nodup_singleton _, fun h hmem h' hh' => ?_⟩
    obtain rfl := List.mem_singleton.mp hh'
    obtain ⟨slot, hslot, rfl⟩ := List.mem_map.mp hmem
    obtain ⟨stream', hcall⟩ := hw.captured slot hslot
    exact fun heq => hfresh stream' (heq ▸ hcall)
  · rw [destroy_mem_append (by simp), hw.destroyed]
    simp
  · obtain ⟨graph, hgraph, hhandle⟩ := hw.execs slot hslot
    refine ⟨graph, ?_, hhandle⟩
    rw [List.getElem?_append_left (List.getElem?_eq_some_iff.mp hgraph).1]
    exact hgraph

/-- A graph is instantiated. -/
theorem instantiate (hw : Consistent w) {g : ℕ} {slot : GraphSlot} (hg : w.graphs[g]? = some slot) :
    Consistent { w with execs := w.execs ++ [⟨g, slot.handle, false⟩] } where
  captured := hw.captured
  distinct := hw.distinct
  destroyed := hw.destroyed
  execs exec hexec := by
    rcases List.mem_append.mp hexec with hexec | hexec
    · exact hw.execs exec hexec
    · obtain rfl := List.mem_singleton.mp hexec
      exact ⟨slot, hg, rfl⟩

/-- An executable is destroyed. -/
theorem execDestroy (hw : Consistent w) {e : ℕ} {slot : ExecSlot} (he : w.execs[e]? = some slot) :
    Consistent { w with execs := w.execs.set e { slot with destroyed := true } } where
  captured := hw.captured
  distinct := hw.distinct
  destroyed := hw.destroyed
  execs exec hexec := by
    rcases List.mem_or_eq_of_mem_set hexec with hexec | rfl
    · exact hw.execs exec hexec
    · exact hw.execs slot (List.mem_of_getElem? he)

/-- No two graphs have one handle. -/
theorem eq_of_handle (hw : Consistent w) {slot slot' : GraphSlot} (hslot : slot ∈ w.graphs)
    (hslot' : slot' ∈ w.graphs) (h : slot.handle = slot'.handle) : slot = slot' :=
  List.inj_on_of_nodup_map hw.distinct hslot hslot' h

/-- The destroyed graphs, once another one is destroyed. -/
theorem mem_set_destroyed {g : ℕ} {slot : GraphSlot} (hg : w.graph? g = some slot) (h : Handle) :
    (⟨h, true⟩ : GraphSlot) ∈ w.graphs.set g { slot with destroyed := true } ↔
      h = slot.handle ∨ ⟨h, true⟩ ∈ w.graphs := by
  obtain ⟨hg, hlive⟩ := graph?_eq_some.mp hg
  obtain ⟨hlt, hget⟩ := List.getElem?_eq_some_iff.mp hg
  constructor
  · intro hmem
    rcases List.mem_or_eq_of_mem_set hmem with hmem | heq
    · exact .inr hmem
    · exact .inl (congrArg GraphSlot.handle heq)
  · rintro (rfl | hmem)
    · exact List.mem_set hlt _
    · obtain ⟨j, hj⟩ := List.mem_iff_getElem?.mp hmem
      have hne : g ≠ j := by
        rintro rfl
        rw [hg] at hj
        rw [Option.some.inj hj] at hlive
        cases hlive
      exact List.mem_iff_getElem?.mpr ⟨j, (List.getElem?_set_ne hne).trans hj⟩

/-- A graph is destroyed. -/
theorem graphDestroy (hw : Consistent w) {g : ℕ} {slot : GraphSlot} (hg : w.graph? g = some slot) :
    Consistent { w with
      calls := if slot.handle = nullHandle then w.calls else w.calls ++ [.destroy slot.handle]
      graphs := w.graphs.set g { slot with destroyed := true } } := by
  have hget := (graph?_eq_some.mp hg).1
  refine ⟨fun slot' hslot' => ?_, ?_, fun h => ?_, fun exec hexec => ?_⟩
  · have hcalls : ∀ c ∈ w.calls,
        c ∈ if slot.handle = nullHandle then w.calls else w.calls ++ [.destroy slot.handle] := by
      intro c hc
      split
      · exact hc
      · exact List.mem_append_left _ hc
    rcases List.mem_or_eq_of_mem_set hslot' with hslot' | rfl
    · obtain ⟨stream, hmem⟩ := hw.captured slot' hslot'
      exact ⟨stream, hcalls _ hmem⟩
    · obtain ⟨stream, hmem⟩ := hw.captured slot (List.mem_of_getElem? hget)
      exact ⟨stream, hcalls _ hmem⟩
  · obtain ⟨hlt, rfl⟩ := List.getElem?_eq_some_iff.mp hget
    rw [List.map_set, ← List.getElem_map GraphSlot.handle (h := by simpa using hlt),
      List.set_getElem_self]
    exact hw.distinct
  · rw [mem_set_destroyed hg]
    split
    · next hnull =>
      rw [hw.destroyed]
      refine and_congr_right fun hne => (or_iff_right ?_).symm
      rw [hnull]
      exact hne
    · next hnull =>
      rw [List.mem_append, hw.destroyed, List.mem_singleton, RiCall.destroy.injEq]
      constructor
      · rintro (⟨hne, hmem⟩ | rfl)
        · exact ⟨hne, .inr hmem⟩
        · exact ⟨hnull, .inl rfl⟩
      · rintro ⟨hne, heq | hmem⟩
        · exact .inr heq
        · exact .inl ⟨hne, hmem⟩
  · obtain ⟨graph, hgraph, hhandle⟩ := hw.execs exec hexec
    by_cases heq : g = exec.graph
    · rw [← heq, hget] at hgraph
      obtain rfl := Option.some.inj hgraph
      refine ⟨{ slot with destroyed := true }, ?_, hhandle⟩
      rw [← heq]
      exact List.getElem?_set_self (List.getElem?_eq_some_iff.mp hget).1
    · exact ⟨graph, (List.getElem?_set_ne heq).trans hgraph, hhandle⟩

end Consistent

/-! ### One step -/

/-- What a step of the client may do, one case for each operation. -/
theorem perform_launch {e : ℕ} {stream : Stream}
    (h : perform api w (.graphLaunch e stream) = some w')
    (havailable : api.available = true) : ∃ slot, w.exec? e = some slot ∧
      w' = { w with calls := w.calls ++ [.executeAsync slot.handle stream] } := by
  obtain ⟨slot, hslot, heq⟩ := Option.bind_eq_some_iff.mp h
  rw [run_graphLaunch havailable] at heq
  exact ⟨slot, hslot, (Option.some.inj heq).symm⟩

theorem perform_destroy {g : ℕ} (h : perform api w (.graphDestroy g) = some w')
    (havailable : api.available = true) : ∃ slot, w.graph? g = some slot ∧ w' = { w with
      calls := if slot.handle = nullHandle then w.calls else w.calls ++ [.destroy slot.handle]
      graphs := w.graphs.set g { slot with destroyed := true } } := by
  obtain ⟨slot, hslot, heq⟩ := Option.bind_eq_some_iff.mp h
  rw [run_graphDestroy havailable] at heq
  exact ⟨slot, hslot, (Option.some.inj heq).symm⟩

/-- Launching is safe when the graph is not destroyed. -/
theorem launch_safe_iff (hw : Consistent w) {e : ℕ} {slot : ExecSlot} {stream : Stream}
    (he : w.exec? e = some slot) :
    Safe (w.calls ++ [.executeAsync slot.handle stream]) ↔
      Safe w.calls ∧ w.launchesLive (.graphLaunch e stream) = true := by
  obtain ⟨hget, -⟩ := exec?_eq_some.mp he
  obtain ⟨graph, hgraph, hhandle⟩ := hw.execs slot (List.mem_of_getElem? hget)
  have hlive : w.launchesLive (.graphLaunch e stream) = true ↔
      slot.handle = nullHandle ∨ graph.destroyed = false := by
    simp [launchesLive, hget, hgraph]
  have hinvalid : (∀ a ∈ w.calls, ¬Invalidates a (.executeAsync slot.handle stream)) ↔
      .destroy slot.handle ∉ w.calls := by
    constructor
    · exact fun h hmem => h _ hmem ⟨slot.handle, rfl, .inr ⟨stream, rfl⟩⟩
    · rintro h a ha ⟨model, rfl, heq | ⟨stream', heq⟩⟩
      · cases heq
      · cases heq
        exact h ha
  rw [safe_snoc, hlive, hinvalid, hw.destroyed]
  refine and_congr_right fun _ => ?_
  rw [not_and_or, not_not]
  refine or_congr_right ⟨fun hnot => ?_, fun hlive hmem => ?_⟩
  · -- a destroyed graph would be in the list under its handle
    rw [← hhandle] at hnot
    refine Bool.eq_false_iff.mpr fun hdestroyed => hnot ?_
    rw [← hdestroyed]
    exact List.mem_of_getElem? hgraph
  · have hsame := hw.eq_of_handle hmem (List.mem_of_getElem? hgraph) hhandle.symm
    rw [← hsame] at hlive
    cases hlive

/-- A graph that may be destroyed was not destroyed before. -/
theorem destroy_safe_iff (hw : Consistent w) {g : ℕ} {slot : GraphSlot}
    (hg : w.graph? g = some slot) :
    Safe (if slot.handle = nullHandle then w.calls else w.calls ++ [.destroy slot.handle]) ↔
      Safe w.calls := by
  obtain ⟨hget, hlive⟩ := graph?_eq_some.mp hg
  split
  · rfl
  · rw [safe_snoc]
    refine and_iff_left ?_
    rintro a ha ⟨model, rfl, heq | ⟨stream, heq⟩⟩
    · cases heq
      have hmem := ((hw.destroyed _).mp ha).2
      have hsame := hw.eq_of_handle hmem (List.mem_of_getElem? hget) rfl
      rw [← hsame] at hlive
      cases hlive
    · cases heq

/-- **One step** keeps the client consistent, and is safe exactly when it launches nothing whose
graph is destroyed. -/
theorem perform_sound (havailable : api.available = true) (hfresh : api.Fresh) (hw : Consistent w)
    {op : GraphOp} (h : perform api w op = some w') :
    Consistent w' ∧ (Safe w'.calls ↔ Safe w.calls ∧ w.launchesLive op = true) := by
  cases op with
  | streamBeginCapture stream mode =>
    obtain rfl := Option.some.inj h
    rw [run_streamBeginCapture havailable]
    exact hw.extend_harmless (by simp [harmless]) rfl
  | streamEndCapture stream =>
    obtain rfl := Option.some.inj h
    rcases run_streamEndCapture havailable stream w.calls with
      ⟨hcalls, hnone⟩ | ⟨status, model, -, hcalls, hnone⟩ | ⟨f, model, hf, hanswer, hcalls, hsome⟩
    · rw [hcalls, hnone, Option.map_none, Option.toList_none, List.append_nil]
      exact hw.extend_harmless (by simp [harmless]) rfl
    · rw [hcalls, hnone, Option.map_none, Option.toList_none, List.append_nil]
      exact hw.extend_harmless (by simp [harmless]) rfl
    · rw [hcalls, hsome]
      refine ⟨hw.capture fun stream' hmem => ?_, ?_⟩
      · exact hfresh f hf _ stream model hanswer stream' (List.mem_append_left _ hmem)
      · exact (safe_append_harmless (by simp [harmless])).trans (and_iff_left rfl).symm
  | graphInstantiate g =>
    obtain ⟨slot, hslot, heq⟩ := Option.bind_eq_some_iff.mp h
    obtain rfl := Option.some.inj heq
    exact ⟨hw.instantiate (graph?_eq_some.mp hslot).1, (and_iff_left rfl).symm⟩
  | graphLaunch e stream =>
    obtain ⟨slot, hslot, rfl⟩ := perform_launch h havailable
    exact ⟨hw.extend (by simp), launch_safe_iff hw hslot⟩
  | graphExecDestroy e =>
    obtain ⟨slot, hslot, heq⟩ := Option.bind_eq_some_iff.mp h
    obtain rfl := Option.some.inj heq
    exact ⟨hw.execDestroy hslot, (and_iff_left rfl).symm⟩
  | graphDestroy g =>
    obtain ⟨slot, hslot, rfl⟩ := perform_destroy h havailable
    exact ⟨hw.graphDestroy hslot, (destroy_safe_iff hw hslot).trans (and_iff_left rfl).symm⟩

/-! ### Runs -/

/-- The client did `op`; `live` says whether that launched nothing whose graph is destroyed. -/
structure Step where
  op : GraphOp
  live : Bool
  deriving DecidableEq, Repr

/-- A step with its label. -/
def step (api : RiApi) (w : GraphWorld) (l : Step) (w' : GraphWorld) : Prop :=
  perform api w l.op = some w' ∧ l.live = w.launchesLive l.op

theorem consistent_initial : Consistent {} := ⟨nofun, List.nodup_nil, by simp, nofun⟩

/-- **A run is safe if and only if no step of it launches an executable whose graph is
destroyed.** -/
theorem run_safe_iff (havailable : api.available = true) (hfresh : api.Fresh) {trace : List Step}
    (h : Run (step api) {} trace w) : Safe w.calls ↔ ∀ l ∈ trace, l.live = true := by
  refine (h.history (fun trace w => Consistent w ∧ (Safe w.calls ↔ ∀ l ∈ trace, l.live = true)) ?_
    ⟨consistent_initial, iff_of_true List.Pairwise.nil nofun⟩).2
  rintro trace w l w' ⟨hw, hsafe⟩ ⟨hperform, hlive⟩
  obtain ⟨hw', hstep⟩ := perform_sound havailable hfresh hw hperform
  refine ⟨hw', hstep.trans ?_⟩
  rw [hsafe, ← hlive, List.forall_mem_append]
  simp

/-! A library that numbers its models. -/

/-- A number above those of all models so far. -/
def newModel : List RiCall → Handle
  | [] => 1
  | .captureEnd _ _ model :: calls => max (model + 1) (newModel calls)
  | _ :: calls => newModel calls

theorem lt_newModel {stream : Stream} {status : Error} {model : Handle}
    (h : .captureEnd stream status model ∈ calls) : model < newModel calls := by
  induction calls with
  | nil => cases h
  | cons c calls ih =>
    rcases List.mem_cons.mp h with rfl | hrest
    · exact Nat.lt_of_lt_of_le (Nat.lt_succ_self model) (Nat.le_max_left _ _)
    · cases c with
      | captureEnd _ _ _ => exact Nat.lt_of_lt_of_le (ih hrest) (Nat.le_max_right _ _)
      | _ => exact ih hrest

def numbering : RiApi where
  captureBegin := some fun _ _ _ => aclSuccess
  captureGetInfo := some fun _ _ => aclSuccess
  captureEnd := some fun calls _ => (aclSuccess, newModel calls)
  executeAsync := some fun _ _ _ => aclSuccess
  destroy := some fun _ _ => aclSuccess

theorem numbering_fresh : numbering.Fresh := by
  rintro f hf calls stream model hanswer stream' hmem
  obtain rfl := Option.some.inj hf
  obtain rfl := congrArg Prod.snd hanswer
  exact Nat.lt_irrefl _ (lt_newModel hmem)

/-- A graph was captured and instantiated. -/
def instantiated : GraphWorld where
  calls := [.captureGetInfo 0, .captureEnd 0 aclSuccess 1]
  graphs := [⟨1, false⟩]
  execs := [⟨0, 1, false⟩]

/-- The executable was launched, and both were destroyed. -/
def launched : GraphWorld where
  calls := [.captureGetInfo 0, .captureEnd 0 aclSuccess 1, .executeAsync 1 0, .destroy 1]
  graphs := [⟨1, true⟩]
  execs := [⟨0, 1, true⟩]

/-- The graph was destroyed, and the executable was launched. -/
def launchedLate : GraphWorld where
  calls := [.captureGetInfo 0, .captureEnd 0 aclSuccess 1, .destroy 1, .executeAsync 1 0]
  graphs := [⟨1, true⟩]
  execs := [⟨0, 1, false⟩]

theorem instantiated_run : Run (step numbering) {}
    ([⟨.streamEndCapture 0, true⟩] ++ [⟨.graphInstantiate 0, true⟩]) instantiated :=
  (Run.single ⟨rfl, rfl⟩).append (.single ⟨rfl, rfl⟩)

theorem launched_run : Run (step numbering) instantiated
    ([⟨.graphLaunch 0 0, true⟩] ++ [⟨.graphExecDestroy 0, true⟩] ++ [⟨.graphDestroy 0, true⟩])
    launched :=
  ((Run.single ⟨rfl, rfl⟩).append (.single ⟨rfl, rfl⟩)).append (.single ⟨rfl, rfl⟩)

theorem run_safe_iff_launched : Safe launched.calls ↔
    ∀ l ∈ ([⟨.streamEndCapture 0, true⟩, ⟨.graphInstantiate 0, true⟩, ⟨.graphLaunch 0 0, true⟩,
      ⟨.graphExecDestroy 0, true⟩, ⟨.graphDestroy 0, true⟩] : List Step), l.live = true :=
  run_safe_iff rfl numbering_fresh (instantiated_run.append launched_run)

theorem launchedLate_run : Run (step numbering) instantiated
    ([⟨.graphDestroy 0, true⟩] ++ [⟨.graphLaunch 0 0, false⟩]) launchedLate :=
  (Run.single ⟨rfl, rfl⟩).append (.single ⟨rfl, rfl⟩)

/-- Each object is destroyed at most once and the executable is alive, but its model is not. -/
theorem launchedLate_unsafe : numbering.available = true ∧ numbering.Fresh ∧
    Run (step numbering) {} [⟨.streamEndCapture 0, true⟩, ⟨.graphInstantiate 0, true⟩,
      ⟨.graphDestroy 0, true⟩, ⟨.graphLaunch 0 0, false⟩] launchedLate ∧
        ¬Safe launchedLate.calls := by
  refine ⟨rfl, numbering_fresh, instantiated_run.append launchedLate_run, fun hsafe => ?_⟩
  have hlast := List.pairwise_cons.mp (List.pairwise_cons.mp (List.pairwise_cons.mp hsafe).2).2
  exact hlast.1 (.executeAsync 1 0) (List.mem_singleton.mpr rfl) ⟨1, rfl, .inr ⟨0, rfl⟩⟩

end GraphWorld

end InfiniRT.Graph
