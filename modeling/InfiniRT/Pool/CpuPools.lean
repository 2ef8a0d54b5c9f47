import InfiniRT.Pool.CpuCalls
import InfiniRT.Pool.CpuHeap

/-!
# Pools on the CPU

A program has a pool on the CPU and allocates with the runtime beside it.  The runtime takes all
memory from one C heap, so what the pool is answered is no assumption here: it is what the runtime
does.  The only contracts are those of the C library and of a client that frees what it has
allocated.  Then the runtime answers the pool as the model of a single pool expects, `std::free` is
never called for an address that is not allocated, and nothing of the pool is left when the pool is
gone.  Proved:

* **`Event.OnCpu.enabled`** — the runtime keeps the contract of a backend;
* **`live_of_closing`** — after `~State` nothing of the pool is allocated;
* **`cpu_pools_safe`** — in every run the heap holds what the pool and the clients have, and no
  undefined `std::free` is called.
-/

namespace InfiniRT.Pool

open InfiniRT.Library
open InfiniRT.Device (typeValue)

/-! ### The answers of the runtime -/

/-- What the runtime answers while a request asks it for `n` bytes: the guard selects device 0, the
status is that of `Malloc`, and `Free` succeeds. -/
structure AllocAnswer.OnCpu (heap : CHeap) (n : ℕ) (ans : AllocAnswer) : Prop where
  guard : ans.guard = decide (CpuRuntime.setDevice 0 = kSuccess)
  grants : heap.Grants n ans.backend.out
  status : ans.backend.status = (CpuRuntime.malloc heap n ans.backend.out).1
  cleanup : ans.cleanup = kSuccess

/-- What it answers to the frees of `trim` and of `~State`. -/
structure FreesOnCpu (guard : Bool) (free : Ptr → Error) : Prop where
  guard : guard = decide (CpuRuntime.setDevice 0 = kSuccess)
  free : ∀ p, free p = kSuccess

/-- The answers of an event are those of the runtime. -/
def Event.OnCpu (heap : CHeap) (s : State) : Event → Prop
  | .allocate _ size ans => ans.OnCpu heap (s.growthSize size false)
  | .allocateExact _ size ans => ans.OnCpu heap (s.growthSize size true)
  | .trim _ ans => FreesOnCpu ans.guard ans.free
  | .destroyLease _ ans | .destroyPool ans => FreesOnCpu ans.guard ans.free
  | _ => True

/-- The event can happen, as far as the pool, its clients and the host are concerned. -/
def World.Ready (w : World) : Event → Prop
  | .allocate _ _ ans | .allocateExact _ _ ans =>
    w.poolAlive = true ∧ ∀ b ∈ ans.makeShared, b ∉ w.shared
  | e => w.Enabled e

/-! ### Programs on the CPU -/

/-- A pool and its clients, the heap of the process, and what the clients have allocated
themselves. -/
structure CpuProgram where
  world : World
  heap : CHeap
  own : List Region

/-- An event of the pool, or a call of the runtime by a client.  `granted` is what `std::malloc`
answers. -/
inductive CpuEvent
  | pool (e : Event)
  | malloc (size : ℕ) (granted : Ptr)
  | free (p : Ptr)

namespace CpuProgram

/-- A pool that was just constructed, and an empty heap. -/
def initial : CpuProgram where
  world := .initial CpuRuntime.streamCreate.2 (typeValue .cpu = typeValue .nvidia)
  heap := []
  own := []

/-- An event can happen: `std::malloc` keeps its contract, and a client frees what it has
allocated. -/
def Enabled (p : CpuProgram) : CpuEvent → Prop
  | .pool e => p.world.Ready e ∧ e.OnCpu p.heap p.world.state
  | .malloc size granted => p.heap.Grants size granted
  | .free a => a = nullptr ∨ ∃ r ∈ p.own, r.1 = a

/-- The effect of an event; the calls of a pool run on the heap. -/
def perform (p : CpuProgram) : CpuEvent → Except Fault CpuProgram
  | .pool e => do
    let heap ← CpuRuntime.serveAll p.heap
      ((p.world.newCalls e kSuccess).filterMap RuntimeCall.memory?)
    return { p with world := (p.world.perform e).1, heap := heap }
  | .malloc size granted =>
    return { p with
      heap := (CpuRuntime.malloc p.heap size granted).2
      own := CHeap.malloc p.own size granted }
  | .free a => do
    let r ← CpuRuntime.free p.heap a
    return { p with heap := r.2, own := p.own.eraseP fun q => q.1 = a }

/-- The step relation; a program whose behaviour is undefined takes no step. -/
def Step (p : CpuProgram) (e : CpuEvent) (p' : CpuProgram) : Prop :=
  p.Enabled e ∧ p.perform e = .ok p'

end CpuProgram

/-! ### The calls of one event -/

variable {w w' : World} {e : Event} {o : Outcome} {s : State} {heap : CHeap} {own : List Region}
  {p p' : CpuProgram} {ans : AllocAnswer} {n : ℕ} {t : ThreadId} {size : ℕ} {isExact : Bool}

/-- **The runtime keeps the contract of a backend**: what it hands out is not null and not
allocated. -/
theorem Event.OnCpu.enabled (hready : w.Ready e) (hcpu : e.OnCpu heap w.state)
    (hplace : Placement w.state) (h : heap.Backs w.state.calls own) : w.Enabled e := by
  have hanswers : ∀ {ans : AllocAnswer} {size : ℕ} {isExact : Bool},
      (∀ b ∈ ans.makeShared, b ∉ w.shared) → ans.OnCpu heap (w.state.growthSize size isExact) →
      w.Answers ans := by
    intro ans size isExact hshared hans
    refine ⟨hshared, fun hok => ?_, fun hlive => ?_⟩
    · rw [hans.status] at hok
      exact (malloc_status_eq_kSuccess (growthSize_ne_zero hplace size isExact) _ _).mp hok
    · obtain ⟨r, -, hr, hstart⟩ := h.exists_region hlive
      exact (hans.grants (hstart ▸ h.nonnull r hr) r hr).1 hstart.symm
  cases e with
  | allocate t size ans => exact ⟨hready.1, hanswers hready.2 hcpu⟩
  | allocateExact t size ans => exact ⟨hready.1, hanswers hready.2 hcpu⟩
  | _ => exact hready

/-- It leaves nothing behind where it fails. -/
theorem Event.OnCpu.clean (hcpu : e.OnCpu heap w.state) (hplace : Placement w.state) : e.Clean := by
  have hclean : ∀ {ans : AllocAnswer} {size : ℕ} {isExact : Bool},
      ans.OnCpu heap (w.state.growthSize size isExact) →
      (ans.backend.status ≠ kSuccess → ans.backend.out = nullptr) ∧ ans.cleanup = kSuccess := by
    intro ans size isExact hans
    refine ⟨fun hfailed => ?_, hans.cleanup⟩
    by_contra hout
    rw [hans.status] at hfailed
    exact hfailed
      ((malloc_status_eq_kSuccess (growthSize_ne_zero hplace size isExact) _ _).mpr hout)
  cases e with
  | allocate t size ans => exact hclean hcpu
  | allocateExact t size ans => exact hclean hcpu
  | _ => trivial

/-- A failed `Malloc`: the answer in a series of frees. -/
def noAnswer : BackendAnswer :=
  { captureQuery := kSuccess, capturing := false, status := CpuRuntime.kErrorMemoryAllocation,
    out := nullptr }

/-- The new calls of an event, as one series. -/
def Series (heap : CHeap) (new : List BackendCall) : Prop :=
  ∃ n ans, n ≠ 0 ∧ (∀ h, ans.status = (CpuRuntime.malloc h n ans.out).1) ∧
    heap.Grants n ans.out ∧ ∀ c ∈ new, c.OnCpu n ans

/-- Calls that need no memory. -/
theorem Series.of_frees {new : List BackendCall} (h : ∀ c ∈ new, c.OnCpu 1 noAnswer) :
    Series heap new :=
  ⟨1, noAnswer, Nat.one_ne_zero, fun _ => rfl, fun hne => absurd rfl hne, h⟩

theorem Series.nil : Series heap [] := .of_frees (by simp)

/-- The calls since a state, as the log gives them. -/
theorem CpuCalls.new {size : ℕ} {a : BackendAnswer} {s' : State} {new : List BackendCall}
    (h : CpuCalls size a s s') (hnone : s.allocationStream = none)
    (hnew : new ++ s.calls = s'.calls) :
    ∀ c ∈ new, c.OnCpu size a := by
  obtain ⟨-, found, hcalls, hfound⟩ := h hnone
  rw [hcalls, List.append_cancel_right_eq] at hnew
  exact hnew ▸ hfound

/-- The calls of a request. -/
theorem Series.request (hplace : Placement w.state) (hnone : w.state.allocationStream = none)
    (hans : ans.OnCpu heap (w.state.growthSize size isExact)) {new : List BackendCall}
    (hnew : new ++ w.state.calls = (w.call
      (do deviceGuard ans.guard; allocateImpl t ans size isExact) .pointer).1.state.calls) :
    Series heap new := by
  have hsize := growthSize_ne_zero hplace size isExact
  refine ⟨_, ans.backend, hsize, fun h => ?_, hans.grants, ?_⟩
  · rw [hans.status, malloc_status hsize, malloc_status hsize]
  · exact (cpuCalls_guarded_allocateImpl ans.guard t size isExact hans.cleanup w.state).new
      hnone hnew

theorem closing_onCpu {found : DestroyAnswer} (h : w.closing e = some (s, found))
    (hcpu : e.OnCpu heap w.state) : FreesOnCpu found.guard found.free := by
  cases e with
  | destroyLease l ans =>
    simp only [World.closing, Option.ite_none_right_eq_some, Option.some.injEq, Prod.mk.injEq] at h
    exact h.2.2 ▸ hcpu
  | destroyPool ans =>
    simp only [World.closing, Option.ite_none_right_eq_some, Option.some.injEq, Prod.mk.injEq] at h
    exact h.2.2 ▸ hcpu
  | _ => cases h

/-- The calls of `~State`. -/
theorem Series.closing {found : DestroyAnswer} (hfrees : FreesOnCpu found.guard found.free)
    (hstream : s.stream = none) (hnone : s.allocationStream = none) (destroy : Error) :
    Series heap ((s.closingCalls found destroy).filterMap RuntimeCall.memory?) := by
  have hguard : found.guard = true := hfrees.guard
  rw [closingCalls_eq s hguard, hstream, closeStream, filterMap_memory]
  refine .of_frees fun c hc => ?_
  obtain ⟨p, -, rfl⟩ := List.mem_map.mp hc
  exact ⟨hnone, hfrees.free p⟩

/-- **The calls of an event** are one series. -/
theorem series_newCalls (henabled : w.Enabled e) (hcpu : e.OnCpu heap w.state) (hinv : Invariant w)
    (hstream : w.state.stream = none) (hnone : w.state.allocationStream = none) :
    Series heap ((w.newCalls e kSuccess).filterMap RuntimeCall.memory?) := by
  have heffect := hinv.effect_of_step (l := (e, (w.perform e).2)) ⟨henabled, rfl⟩
  have hnew := newCalls_memory heffect kSuccess
  cases hclosing : w.closing e with
  | some closed =>
    obtain ⟨s, found⟩ := closed
    have hsame := (perform_closing hclosing).1
    have hcalls : w.newCalls e kSuccess = s.closingCalls found kSuccess := by
      rw [World.newCalls, hclosing]
    rw [hcalls]
    exact .closing (closing_onCpu hclosing hcpu) (hsame.stream.trans hstream)
      (hsame.allocationStream.trans hnone) _
  | none =>
    have hquiet : w.guarded e = false →
        Series heap ((w.newCalls e kSuccess).filterMap RuntimeCall.memory?) := fun hguarded => by
      rw [newCalls_unguarded heffect hguarded]
      exact .nil
    cases e with
    | allocate t size ans => exact .request hinv.placement hnone hcpu hnew
    | allocateExact t size ans => exact .request hinv.placement hnone hcpu hnew
    | trim t ans => exact .of_frees ((callsOnCpu_trim hcpu.free w.state).new hnone hnew)
    | destroyLease l ans => exact hquiet (congrArg Option.isSome hclosing)
    | destroyPool ans => exact hquiet (congrArg Option.isSome hclosing)
    | _ => exact hquiet rfl

/-! ### Every run -/

/-- The invariant: the events of the pool are a run of the model of a single pool, on a backend that
answered as that model expects, and the heap is what the pool has and what the clients have. -/
structure CpuProgram.Safe (p : CpuProgram) : Prop where
  traced : ∃ trace, PoolRun trace p.world
  accounted : Accounted p.world
  stream : p.world.state.stream = none
  allocationStream : p.world.state.allocationStream = none
  answered : ∀ c ∈ p.world.state.calls, c.Answered
  backs : p.heap.Backs p.world.state.calls p.own
  returned : p.world.closed = true → live p.world.state.calls = []

/-- `~State` gives back all that is allocated. -/
theorem live_returns {stream : Option Stream} {answer : Ptr → Error}
    (hanswer : ∀ p, answer p = kSuccess)
    {calls : List BackendCall} {ps : List Ptr} (hnodup : ps.Nodup) (hlive : (live calls).Nodup)
    (hsub : ∀ p ∈ live calls, p ∈ ps) :
    live ((ps.map fun p => .free stream p (answer p)).reverse ++ calls) = [] := by
  induction ps generalizing calls with
  | nil => exact List.eq_nil_iff_forall_not_mem.mpr fun p hp => List.not_mem_nil (hsub p hp)
  | cons p ps ih =>
    rw [List.map_cons, List.reverse_cons, List.append_assoc, List.singleton_append]
    have hfreed : live (.free stream p (answer p) :: calls) = (live calls).erase p := by
      rw [hanswer, live_free_kSuccess]
    refine ih (List.nodup_cons.mp hnodup).2 (hfreed ▸ hlive.erase p) fun q hq => ?_
    rw [hfreed] at hq
    obtain ⟨hqp, hq⟩ := hlive.mem_erase_iff.mp hq
    exact (List.mem_cons.mp (hsub q hq)).resolve_left hqp

/-- **After `~State`** nothing of the pool is allocated. -/
theorem live_of_closing (hinv : Accounted w) (hstep : Pool.Step w (e, o) w')
    (hcpu : e.OnCpu heap w.state) (hstream : w.state.stream = none) (hclosed : w'.closed = true) :
    live w'.state.calls = [] := by
  obtain ⟨ans, hans, hdrained, -⟩ := closing_step hinv.invariant hstep hclosed
  have hopen := hinv.invariant.closed_of_enabled hstep.1
  have hfrees : FreesOnCpu ans.guard ans.free := by
    cases e with
    | destroyLease l found =>
      cases hans
      exact hcpu
    | destroyPool found =>
      cases hans
      exact hcpu
    | _ => cases hans
  have hguard : ans.guard = true := hfrees.guard
  rw [hdrained ⟨hguard, fun hsome => by rw [hstream] at hsome; cases hsome⟩, State.returnAll]
  exact live_returns hfrees.free w.state.allBlocks.keys_nodup hinv.proper.nodup fun p hp =>
    ((hinv.conserved hopen).live_iff p).mp hp

/-- A pool without streams stays one. -/
theorem streams_perform (henabled : w.Enabled e) (hinv : Invariant w)
    (hstream : w.state.stream = none) (hnone : w.state.allocationStream = none) :
    (w.perform e).1.state.stream = none ∧ (w.perform e).1.state.allocationStream = none := by
  have heffect := hinv.effect_of_step (l := (e, (w.perform e).2)) ⟨henabled, rfl⟩
  cases hclosing : w.closing e with
  | some closed =>
    obtain ⟨s, found⟩ := closed
    obtain ⟨hsame, hstate, -⟩ := perform_closing hclosing
    have hs : s.stream = none := hsame.stream.trans hstream
    rw [hstate]
    constructor
    · by_cases hdrains : s.Drains found
      · simp [State.destroy, hdrains.1, hs, freeEntries_eq]
      · rw [destroy_of_not_drains found hdrains, hs]
    · rw [destroy_rest]
      exact hsame.allocationStream.trans hnone
  | none =>
    obtain ⟨new, hadds, -⟩ := heffect.adds hclosing
    exact ⟨hadds.stream.trans hstream, hadds.allocationStream.trans hnone⟩

namespace CpuProgram

theorem Safe.initial : Safe .initial where
  traced := ⟨[], _, _, .nil⟩
  accounted := accounted_of_run (show PoolRun [] _ from ⟨_, _, .nil⟩) (by simp)
  stream := rfl
  allocationStream := rfl
  answered := fun c hc => absurd hc List.not_mem_nil
  backs := .nil
  returned := fun _ => rfl

/-- **An event of the pool.**  The heap serves its calls. -/
theorem Safe.pool (h : p.Safe) (henabled : p.Enabled (.pool e)) :
    ∃ p', p.perform (.pool e) = .ok p' ∧ p'.Safe := by
  obtain ⟨hready, hcpu⟩ := henabled
  have hinv := h.accounted.invariant
  have hevent := hcpu.enabled hready hinv.placement h.backs
  have hstep : Pool.Step p.world (e, (p.world.perform e).2) (p.world.perform e).1 := ⟨hevent, rfl⟩
  have hcalls := newCalls_memory (hinv.effect_of_step hstep) kSuccess
  have haccounted := h.accounted.step (hcpu.clean hinv.placement) hstep
  obtain ⟨n, ans, hn, hstatus, hgrants, hnew⟩ :=
    series_newCalls hevent hcpu hinv h.stream h.allocationStream
  have hproper := haccounted.proper
  rw [← hcalls] at hproper
  obtain ⟨heap, hserved, hbacks, -⟩ := h.backs.serveAll hn hstatus hgrants hproper hnew
  obtain ⟨hstream, hnone⟩ := streams_perform hevent hinv h.stream h.allocationStream
  obtain ⟨trace, stream, isNvidia, hrun⟩ := h.traced
  refine ⟨⟨(p.world.perform e).1, heap, p.own⟩, ?_, ⟨_, stream, isNvidia, hrun.snoc hstep⟩,
    haccounted, hstream, hnone, ?_, hcalls ▸ hbacks,
    live_of_closing h.accounted hstep hcpu h.stream⟩
  · rw [perform, hserved]
    rfl
  · intro c hc
    have hc : c ∈ (p.world.perform e).1.state.calls := hc
    rw [← hcalls] at hc
    rcases List.mem_append.mp hc with hc | hc
    · exact (hnew c hc).answered hn hstatus
    · exact h.answered c hc

/-- **An event of a client.** -/
theorem Safe.free (h : p.Safe) {a : Ptr} (henabled : p.Enabled (.free a)) :
    ∃ p', p.perform (.free a) = .ok p' ∧ p'.Safe := by
  have hsafe : ∀ {heap : CHeap} {own : List Region}, heap.Backs p.world.state.calls own →
      Safe ⟨p.world, heap, own⟩ := fun hbacks =>
    ⟨h.traced, h.accounted, h.stream, h.allocationStream, h.answered, hbacks, h.returned⟩
  rcases henabled with rfl | hown
  · -- a null address is no range of the client's
    have hnone : p.own.eraseP (fun q => q.1 = nullptr) = p.own := by
      refine List.eraseP_of_forall_not fun r hr => ?_
      rw [decide_eq_true_eq]
      exact h.backs.nonnull r (h.backs.mem_of_own hr)
    refine ⟨⟨p.world, p.heap, p.own⟩, ?_, hsafe h.backs⟩
    rw [perform, hnone]
    rfl
  · obtain ⟨heap, hfree, hbacks⟩ := h.backs.freeOwn hown
    refine ⟨_, ?_, hsafe hbacks⟩
    rw [perform, CpuRuntime.free, hfree]
    rfl

theorem Safe.step (h : p.Safe) {l : CpuEvent} (henabled : p.Enabled l) :
    ∃ p', p.perform l = .ok p' ∧ p'.Safe := by
  cases l with
  | pool e => exact h.pool henabled
  | malloc size granted =>
    exact ⟨_, rfl, h.traced, h.accounted, h.stream, h.allocationStream, h.answered,
      h.backs.mallocOwn henabled, h.returned⟩
  | free a => exact h.free henabled

end CpuProgram

/-- **Pools on the CPU are safe.**  In every run of a pool and its clients over the heap of the C
library, the events of the pool are a run of the model of a single pool, the runtime answered every
call as recorded there and handed out memory apart from what was allocated; the heap is what the
pool has and what its clients have, and no two ranges of it overlap; after `~State` it is what the
clients have; and whatever event comes next, its behaviour is defined. -/
theorem cpu_pools_safe {trace : List CpuEvent} (hrun : Run CpuProgram.Step .initial trace p) :
    (∃ events, PoolRun events p.world) ∧
    ((∀ c ∈ p.world.state.calls, c.Answered) ∧ Separated p.world.state.calls) ∧
    (p.heap.Perm (liveRegions p.world.state.calls ++ p.own) ∧ p.heap.Pairwise Region.Apart) ∧
    (p.world.closed = true → p.heap.Perm p.own) ∧
    ∀ l, p.Enabled l → ∃ p', p.perform l = .ok p' := by
  have h : p.Safe := hrun.invariant CpuProgram.Safe (fun q l q' hq hstep => by
    obtain ⟨found, hfound, hsafe⟩ := hq.step hstep.1
    obtain rfl : found = q' := Except.ok.inj (hfound.symm.trans hstep.2)
    exact hsafe) .initial
  refine ⟨h.traced, ⟨h.answered, h.backs.separated⟩, ⟨h.backs.perm, h.backs.apart⟩,
    fun hclosed => ?_, fun l henabled => ?_⟩
  · have hnone := h.returned hclosed
    rw [← map_liveRegions, List.map_eq_nil_iff] at hnone
    have hperm := h.backs.perm
    rwa [hnone, List.nil_append] at hperm
  · obtain ⟨p', hp', -⟩ := h.step henabled
    exact ⟨p', hp'⟩

/-- A client has allocated 64 bytes, another one has used the pool, and the pool is gone. -/
def usedUp : CpuProgram where
  world := ((World.initial none false).runEvents
    [.allocate 1 100 (.granting 0 4096), .destroyPool .granting]).1
  heap := [(256, 64)]
  own := [(256, 64)]

theorem usedUp_run : Run CpuProgram.Step .initial
    [.malloc 64 256, .pool (.allocate 1 100 (.granting 0 4096)), .pool (.destroyPool .granting)]
    usedUp := by
  have hmalloc : CpuProgram.Step .initial (.malloc 64 256)
      ⟨.initial none false, [(256, 64)], [(256, 64)]⟩ :=
        ⟨fun _ => by simp [CpuProgram.initial], rfl⟩
  have hallocate : CpuProgram.Step ⟨.initial none false, [(256, 64)], [(256, 64)]⟩
      (.pool (.allocate 1 100 (.granting 0 4096)))
      ⟨((World.initial none false).runEvents [.allocate 1 100 (.granting 0 4096)]).1,
        [(4096, 32768), (256, 64)], [(256, 64)]⟩ :=
    ⟨⟨⟨rfl, by decide⟩, rfl, by decide, rfl, rfl⟩, rfl⟩
  have hdestroy : CpuProgram.Step
      ⟨((World.initial none false).runEvents [.allocate 1 100 (.granting 0 4096)]).1,
        [(4096, 32768), (256, 64)], [(256, 64)]⟩ (.pool (.destroyPool .granting)) usedUp :=
    ⟨⟨⟨rfl, rfl⟩, rfl, fun _ => rfl⟩, rfl⟩
  exact ((Run.single hmalloc).snoc hallocate).snoc hdestroy

theorem cpu_pools_safe_usedUp : usedUp.heap.Perm usedUp.own ∧
    ∀ l, usedUp.Enabled l → ∃ p', usedUp.perform l = .ok p' :=
  have h := cpu_pools_safe usedUp_run
  ⟨h.2.2.2.1 rfl, h.2.2.2.2⟩

end InfiniRT.Pool
