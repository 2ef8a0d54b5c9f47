import InfiniRT.Pool.GuardedPools
import InfiniRT.Pool.Invariant

/-!
# Where the calls of a pool go

Every event adds its calls to those that were made before, all on the stream of the pool's
allocations.  Behind an active guard they reach the device of the pool, an inactive guard lets
nothing through, and the events without a guard make no call.  Proved:

* **`Effect.adds`** — an event extends the calls that were made before;
* **`underGuard_run`** — a body behind an active guard runs on the device of the guard;
* **`step_sound`** — a step keeps every pool sound and is not seen in what a thread has selected;
* **`pools_keep_to_their_devices`** — the calls of a pool reach its device, and its events are a run
  of the model of one pool.
-/

namespace InfiniRT.Pool

open InfiniRT.Library
open InfiniRT.Tensor (DeviceType)
open InfiniRT.Device (Backends Thread RawType typeValue)
open InfiniRT.Device.DeviceGuard (construct restore)

/-! ### The calls of one event -/

/-- The stream a call was ordered on. -/
def BackendCall.stream : BackendCall → Option Stream
  | .malloc stream _ _ _ => stream
  | .free stream _ _ => stream

/-- `s'` has the streams of `s`, and the calls `new` on the allocation stream on top of its
calls. -/
structure State.Adds (s : State) (new : List BackendCall) (s' : State) : Prop where
  stream : s'.stream = s.stream
  allocationStream : s'.allocationStream = s.allocationStream
  calls : s'.calls = new ++ s.calls
  ordered : ∀ c ∈ new, c.stream = s.allocationStream

section Adds

variable {s s' s'' : State} {new new' : List BackendCall} {t : ThreadId} {b : BlockId} {p : Ptr}
  {ans : AllocAnswer} {size : ℕ} {isExact : Bool}

namespace State.Adds

theorem quiet (hstream : s'.stream = s.stream) (halloc : s'.allocationStream = s.allocationStream)
    (hcalls : s'.calls = s.calls) : s.Adds [] s' := ⟨hstream, halloc, hcalls, by simp⟩

theorem refl (s : State) : s.Adds [] s := .quiet rfl rfl rfl

theorem trans (h : s.Adds new s') (h' : s'.Adds new' s'') : s.Adds (new' ++ new) s'' := by
  refine ⟨h'.stream.trans h.stream, h'.allocationStream.trans h.allocationStream, ?_,
    fun c hc => ?_⟩
  · rw [h'.calls, h.calls, List.append_assoc]
  · rcases List.mem_append.mp hc with hc | hc
    · exact (h'.ordered c hc).trans h.allocationStream
    · exact h.ordered c hc

theorem freeze (s : State) (t : ThreadId) (b : BlockId) : s.Adds [] (s.freeze t b) := by
  unfold State.freeze
  split
  · exact .quiet rfl rfl rfl
  · exact .refl s

theorem release (s : State) (b : BlockId) : s.Adds [] (s.release b) := by
  unfold State.release State.giveBack
  split
  · exact .quiet rfl rfl rfl
  · split
    · exact .quiet rfl rfl rfl
    · exact .quiet rfl rfl rfl

theorem retain (s : State) (b : BlockId) : s.Adds [] (s.retain b) := by
  unfold State.retain
  split
  · exact .quiet rfl rfl rfl
  · exact .quiet rfl rfl rfl

theorem releaseFrozenBlocks (s : State) (l : List BlockId) :
    s.Adds [] (s.releaseFrozenBlocks l) := by
  rw [releaseFrozenBlocks_eq]
  exact .quiet rfl rfl rfl

theorem closePinMode (s : State) : s.Adds [] s.closePinMode := .quiet rfl rfl rfl

theorem pushLarge (s : State) (b : BlockId) : s.Adds [] (s.pushLarge b) := .quiet rfl rfl rfl

theorem stamp (s : State) (b : BlockId) (generation : ℕ) : s.Adds [] (s.stamp b generation) :=
  .quiet rfl rfl rfl

theorem takeFree (s : State) (i : ℕ) : s.Adds [] (s.takeFree i) := .quiet rfl rfl rfl

theorem startUse (s : State) (b : BlockId) : s.Adds [] (s.startUse b) := .quiet rfl rfl rfl

theorem enroll (s : State) (ans : BackendAnswer) (b : BlockId) (blk : Block) :
    s.Adds [.malloc s.allocationStream blk.size ans.status ans.out] (s.enroll ans b blk) :=
  ⟨rfl, rfl, enroll_calls s ans b blk, fun c hc => by rw [List.mem_singleton.mp hc]; rfl⟩

theorem allocated (hs : Allocated t ans size isExact s p s') : ∃ new, s.Adds new s' := by
  cases hs with
  | reuseClass i b =>
    exact ⟨_, (((freeze s t b).trans (stamp _ b _)).trans (takeFree _ i)).trans (startUse _ b)⟩
  | growClass i b =>
    exact ⟨_, ((enroll s ans.backend b _).trans (freeze _ t b)).trans (stamp _ b _)⟩
  | reuseLarge b => exact ⟨_, ((freeze s t b).trans (stamp _ b _)).trans (startUse _ b)⟩
  | growLarge b =>
    exact ⟨_, (((enroll s ans.backend b _).trans (pushLarge _ b)).trans (freeze _ t b)).trans
      (stamp _ b _)⟩

theorem untouched (hs : Untouched ans s s') : ∃ new, s.Adds new s' := by
  have hstream : s'.stream = s.stream := by rw [hs.rest]
  have halloc : s'.allocationStream = s.allocationStream := by rw [hs.rest]
  rcases hs.calls with hcalls | ⟨size, ⟨-, -, hcalls⟩ | ⟨-, hcalls⟩⟩
  · exact ⟨_, .quiet hstream halloc hcalls⟩
  · refine ⟨[_], hstream, halloc, hcalls, fun c hc => ?_⟩
    rw [List.mem_singleton.mp hc]
    rfl
  · refine ⟨[_, _], hstream, halloc, hcalls, fun c hc => ?_⟩
    rcases List.mem_pair.mp hc with rfl | rfl <;> rfl

theorem returned (s : State) (p : Ptr) (status : Error) :
    s.Adds [.free s.allocationStream p status] (s.returned p status) :=
  ⟨rfl, rfl, rfl, fun c hc => by rw [List.mem_singleton.mp hc]; rfl⟩

theorem trimStep (hs : TrimStep s s') : ∃ new, s.Adds new s' := by
  cases hs with
  | free => exact ⟨_, (returned _ _ _).trans (.quiet rfl rfl rfl)⟩
  | large => exact ⟨_, (returned _ _ _).trans (.quiet rfl rfl rfl)⟩
  | refused => exact ⟨_, returned _ _ _⟩

theorem trimSteps (hs : TrimSteps s s') : ∃ new, s.Adds new s' := by
  induction hs with
  | refl => exact ⟨_, .refl s⟩
  | tail _ hlast ih =>
    obtain ⟨new, hnew⟩ := ih
    obtain ⟨last, hlast⟩ := trimStep hlast
    exact ⟨_, hnew.trans hlast⟩

theorem callsSince (h : s.Adds new s') : s'.callsSince s = new.map .memory := by
  rw [State.callsSince, h.calls, List.length_append, Nat.add_sub_cancel, List.take_left]

end State.Adds

end Adds

variable {w w' : World} {e : Event} {o : Outcome}

/-- The destruction of an owner that is not the last one. -/
theorem World.closeIfUnowned_of_owned (ans : DestroyAnswer)
    (h : ¬(w.poolAlive = false ∧ w.leases = [])) : w.closeIfUnowned ans = w := if_neg h

/-- **An event that does not run `~State`** extends the calls, by none without a guard. -/
theorem Effect.adds (he : Effect w e o w') (hclosing : w.closing e = none) :
    ∃ new, w.state.Adds new w'.state ∧ (w.guarded e = false → new = []) := by
  have hquiet : w.state.Adds [] w'.state → ∃ new, w.state.Adds new w'.state ∧
      (w.guarded e = false → new = []) := fun h => ⟨[], h, fun _ => rfl⟩
  have hloud : (∃ new, w.state.Adds new w'.state) → w.guarded e = true →
      ∃ new, w.state.Adds new w'.state ∧ (w.guarded e = false → new = []) := by
    rintro ⟨new, hnew⟩ hguarded
    exact ⟨new, hnew, fun h => absurd (hguarded.symm.trans h) (by simp)⟩
  cases he with
  | failed hreq x hs => exact hloud (State.Adds.untouched hs) (by cases hreq <;> rfl)
  | allocated hreq hs => exact hloud (State.Adds.allocated hs) (by cases hreq <;> rfl)
  | trimmed trimAns o hs => exact hloud (State.Adds.trimSteps hs) rfl
  | released => exact hquiet (.release _ _)
  | retained => exact hquiet (.retain _ _)
  | dropped => exact hquiet (.releaseFrozenBlocks _ _)
  | handled => exact hquiet (.releaseFrozenBlocks _ _)
  | canceled => exact hquiet ((State.Adds.releaseFrozenBlocks _ _).trans (.closePinMode _))
  | frozen => exact hquiet (.freeze _ _ _)
  | leaseDropped l destroyAns hl =>
    rw [World.closeIfUnowned_of_owned] at hquiet ⊢
    · exact hquiet (.releaseFrozenBlocks _ _)
    all_goals
      intro hunowned
      rw [World.closing, if_pos hunowned] at hclosing
      cases hclosing
  | poolDropped destroyAns hpool hcommits =>
    rw [World.closeIfUnowned_of_owned] at hquiet ⊢
    · exact hquiet (.refl _)
    all_goals
      intro hunowned
      rw [World.closing, if_pos hunowned.2] at hclosing
      cases hclosing
  | _ => exact hquiet (.quiet rfl rfl rfl)

/-! ### The calls of `~State` -/

/-- The calls on the backend allocator. -/
def RuntimeCall.memory? : RuntimeCall → Option BackendCall
  | .memory c => some c
  | _ => none

theorem filterMap_memory (calls : List BackendCall) :
    (calls.map RuntimeCall.memory).filterMap RuntimeCall.memory? = calls := by
  rw [List.filterMap_map]
  exact List.filterMap_some

variable {s : State} {ans : DestroyAnswer} {destroy : Error}

theorem freeEntries_adds (s : State) (answer : Ptr → Error) (entries : List (Σ _ : Ptr, BlockId)) :
    s.Adds (freeCalls s answer entries) (s.freeEntries answer entries) := by
  rw [freeEntries_eq]
  refine ⟨rfl, rfl, rfl, fun c hc => ?_⟩
  obtain ⟨p, -, rfl⟩ := List.mem_map.mp hc
  rfl

theorem closingCalls_eq (s : State) (hguard : ans.guard = true) : s.closingCalls ans destroy =
    closeStream ans destroy ((freeCalls s ans.free s.allBlocks.entries).map .memory) s.stream := by
  rw [State.closingCalls, if_neg (by simp [hguard]), (freeEntries_adds s _ _).callsSince]

/-- The memory calls of `~State` are those that the model of the pool records. -/
theorem closingCalls_memory (s : State) (ans : DestroyAnswer) (destroy : Error) :
    (s.closingCalls ans destroy).filterMap RuntimeCall.memory? ++ s.calls =
      (s.destroy ans).calls := by
  cases hguard : ans.guard with
  | false => simp [State.closingCalls, State.destroy, hguard]
  | true =>
    rw [closingCalls_eq s hguard]
    cases hstream : s.stream with
    | none =>
      have hdrains : s.Drains ans := ⟨hguard, by simp [hstream]⟩
      rw [destroy_calls_of_drains ans hdrains, closeStream, filterMap_memory]
    | some stream =>
      by_cases hdrain : ans.drain = kSuccess
      · have hdrains : s.Drains ans := ⟨hguard, fun _ => hdrain⟩
        rw [destroy_calls_of_drains ans hdrains, closeStream, if_neg (not_not.mpr hdrain)]
        have hfrees : ((freeCalls s ans.free s.allBlocks.entries).map RuntimeCall.memory ++
            [RuntimeCall.streamSynchronize stream ans.drain]).filterMap RuntimeCall.memory? =
              freeCalls s ans.free s.allBlocks.entries := by
          rw [List.filterMap_append, filterMap_memory]
          exact List.append_nil _
        split
        · exact congrArg (· ++ s.calls) hfrees
        · exact congrArg (· ++ s.calls) hfrees
      · rw [destroy_of_not_drains ans fun h => hdrain (h.2 (by simp [hstream])), closeStream,
          if_pos hdrain]
        rfl

/-- The event runs `~State`. -/
theorem perform_closing (h : w.closing e = some (s, ans)) :
    w.state.Adds [] s ∧ (w.perform e).1.state = s.destroy ans ∧ (w.perform e).1.closed = true := by
  cases e with
  | destroyLease l destroyAns =>
    simp only [World.closing, Option.ite_none_right_eq_some, Option.some.injEq, Prod.mk.injEq] at h
    obtain ⟨hunowned, rfl, rfl⟩ := h
    refine ⟨.releaseFrozenBlocks _ _, ?_⟩
    rw [World.perform, World.closeIfUnowned, if_pos hunowned]
    exact ⟨rfl, rfl⟩
  | destroyPool destroyAns =>
    simp only [World.closing, Option.ite_none_right_eq_some, Option.some.injEq, Prod.mk.injEq] at h
    obtain ⟨hleases, rfl, rfl⟩ := h
    refine ⟨.refl _, ?_⟩
    rw [World.perform, World.closeIfUnowned, if_pos ⟨rfl, hleases⟩]
    exact ⟨rfl, rfl⟩
  | _ => simp [World.closing] at h

/-- **The memory calls of an event** are those that the model of the pool records. -/
theorem newCalls_memory (he : Effect w e (w.perform e).2 (w.perform e).1) (destroy : Error) :
    (w.newCalls e destroy).filterMap RuntimeCall.memory? ++ w.state.calls =
      (w.perform e).1.state.calls := by
  unfold World.newCalls
  split
  · next s ans hclosing =>
    obtain ⟨hs, hstate, -⟩ := perform_closing hclosing
    rw [hstate, ← closingCalls_memory s ans destroy, show s.calls = w.state.calls from hs.calls]
  · next hclosing =>
    obtain ⟨new, hnew, -⟩ := he.adds hclosing
    rw [hnew.callsSince, filterMap_memory, hnew.calls]

/-- An event without a guard makes no call. -/
theorem newCalls_unguarded (he : Effect w e (w.perform e).2 (w.perform e).1)
    (hguarded : w.guarded e = false) (destroy : Error) : w.newCalls e destroy = [] := by
  have hclosing : w.closing e = none := by
    cases e <;> first | rfl | exact Option.not_isSome_iff_eq_none.mp (by
      rw [Bool.not_eq_true]
      exact hguarded)
  obtain ⟨new, hnew, hnone⟩ := he.adds hclosing
  rw [World.newCalls, hclosing]
  show State.callsSince _ _ = []
  rw [hnew.callsSince, hnone hguarded]
  rfl

/-- An inactive guard lets nothing through. -/
theorem newCalls_inactive (hguarded : w.guarded e = true) (destroy : Error) :
    w.newCalls (e.withGuard false) destroy = [] := by
  have hthrow : ∀ x : PoolAction Ptr, w.call (do deviceGuard false; x) .pointer =
      (w, .error (.runtimeError "cannot select runtime device")) := fun x => by
    rw [call_eq (guarded_run false x w.state)]
    rfl
  cases e with
  | allocate t size ans =>
    show State.callsSince
      (w.call (do deviceGuard false; allocateImpl t _ size false) .pointer).1.state
      w.state = []
    rw [hthrow]
    exact (State.Adds.refl w.state).callsSince
  | allocateExact t size ans =>
    show State.callsSince
      (w.call (do deviceGuard false; allocateImpl t _ size true) .pointer).1.state
      w.state = []
    rw [hthrow]
    exact (State.Adds.refl w.state).callsSince
  | trim t ans => exact (State.Adds.refl w.state).callsSince
  | destroyLease l ans =>
    have hsome : (w.closing (.destroyLease l ans)).isSome = true := hguarded
    have hunowned : w.poolAlive = false ∧ w.leases.erase l = [] := by
      by_contra h
      rw [World.closing, if_neg h] at hsome
      cases hsome
    rw [Event.withGuard, World.newCalls, World.closing, if_pos hunowned]
    exact if_pos rfl
  | destroyPool ans =>
    have hsome : (w.closing (.destroyPool ans)).isSome = true := hguarded
    have hleases : w.leases = [] := by
      by_contra h
      rw [World.closing, if_neg h] at hsome
      cases hsome
    rw [Event.withGuard, World.newCalls, World.closing, if_pos hleases]
    exact if_pos rfl
  | _ => cases hguarded

/-! ### Guards of pools -/

/-- `SetDevice` makes the device current if it succeeds. -/
def SetsDevice (B : Backends) : Prop :=
  ∀ (s : Thread B) (i : ℤ), (s.setAnswer i).1 = kSuccess → (s.setAnswer i).2 = i

/-- The place is the device of the type and the index. -/
def Place.Is (place : Place) (type : RawType) (index : ℤ) : Prop :=
  typeValue place.1 = type ∧ place.2 = index

section Guard

variable {B : Backends} {α : Type} {th u : Thread B} {type : RawType} {index : ℤ}
  {g : Device.DeviceGuard}

/-- An active guard has selected its device. -/
theorem construct_place (hB : B.Cooperates) (hset : SetsDevice B)
    (hrun : (construct type index).run th = (.ok g, u)) (hactive : g.active = true) :
    Place.Is u.visible type index := by
  cases htype : B.enabledType type with
  | false =>
    rw [Device.DeviceGuard.construct_unsupported htype] at hrun
    cases hrun
    cases hactive
  | true =>
    by_cases hselected : Device.DeviceGuard.IsSelected th type index
    · rw [Device.DeviceGuard.construct_selected htype hselected] at hrun
      cases hrun
      obtain ⟨hread, hvalue, hindex⟩ := hselected
      rw [hB.reports th hread] at hindex
      exact ⟨by rw [Thread.visible, Thread.read_selected, hvalue],
        by rw [Thread.visible, Thread.read_selected, Thread.read_current]; exact hindex⟩
    · obtain ⟨t, ht, rfl⟩ := Backends.enabledType_eq_true_iff.mp htype
      by_cases hstatus : ((Device.DeviceGuard.switched th ht).setAnswer index).1 = kSuccess
      · rw [Device.DeviceGuard.construct_switched ht hselected hstatus] at hrun
        cases hrun
        refine ⟨rfl, ?_⟩
        rw [Thread.visible, Thread.moved_selected, Thread.moved_current, Function.update_self]
        exact hset _ _ hstatus
      · obtain ⟨g', u', hrun', -, -, hinactive, -⟩ :=
          Device.construct_refused_run hB ht hselected hstatus
        rw [hrun'] at hrun
        cases hrun
        rw [hinactive] at hactive
        cases hactive

/-- **A body behind a guard** runs on the device of the guard, if the guard is active, and the
thread has the same selection afterwards, if the guard could read it. -/
theorem underGuard_run (hB : B.Cooperates) (hset : SetsDevice B) (type : RawType) (index : ℤ)
    (body : Bool → Place → α) (th : Thread B) :
    ∃ active place u, (underGuard type index body).run th = (.ok (body active place), u) ∧
      (active = true → Place.Is place type index) ∧
      (th.getAnswer.1 = kSuccess → u.visible = th.visible) := by
  obtain ⟨g, u, hrun, hprecedes, hguards, -, hgives⟩ := Device.construct_run hB th type index
  obtain ⟨g', u', hrestore, -, hinactive, hactive⟩ := Device.restore_run hB hguards hprecedes
  refine ⟨g.active, u.visible, u', ?_, construct_place hB hset hrun, fun hread => ?_⟩
  · rw [underGuard, Action.run_bind_ok hrun, Action.run_bind_ok (Action.run_get u),
      Action.run_bind_ok hrestore]
    rfl
  · cases hg : g.active with
    | true => exact hactive hg hread
    | false =>
      rw [hinactive hg]
      exact (hgives hg fun _ => hread).1

end Guard

/-! ### One pool -/

/-- The events of a pool of a program are a run of the model of a single pool, and its memory calls
are those of that model. -/
structure PoolObject.Traced (p : PoolObject) : Prop where
  run : ∀ w, p.built = .ok w →
    ∃ stream, Run Step (World.initial stream (p.type = typeValue .nvidia)) p.trace w
  calls : ∀ w, p.built = .ok w → p.journal.filterMap (·.call.memory?) = w.state.calls

/-- All its calls went to its device as well. -/
structure PoolObject.Sound (p : PoolObject) : Prop extends p.Traced where
  placed : ∀ c ∈ p.journal, c.place.Is p.type p.index

theorem enabled_withGuard (w : World) (e : Event) (active : Bool) :
    w.Enabled (e.withGuard active) ↔ w.Enabled e := by
  cases e <;> rfl

theorem filterMap_placedAt (place : Place) (calls : List RuntimeCall) :
    (placedAt place calls).filterMap (·.call.memory?) = calls.filterMap RuntimeCall.memory? := by
  rw [placedAt, List.filterMap_map]
  rfl

namespace PoolObject

variable {p : PoolObject} {type : RawType} {index : ℤ} {active : Bool} {place : Place}

theorem Traced.poolRun (hp : p.Traced) (hw : p.built = .ok w) : PoolRun p.trace w := by
  obtain ⟨stream, hrun⟩ := hp.run w hw
  exact ⟨stream, _, hrun⟩

theorem Traced.invariant (hp : p.Traced) (hw : p.built = .ok w) : Invariant w :=
  invariant_of_run (hp.poolRun hw)

/-- An event of the pool has one of the effects of the model of a single pool. -/
theorem Traced.effect (hp : p.Traced) (hw : p.built = .ok w) (henabled : w.Enabled e) :
    Effect w e (w.perform e).2 (w.perform e).1 :=
  (hp.invariant hw).effect_of_step (l := (e, (w.perform e).2)) ⟨henabled, rfl⟩

theorem Traced.refused (type : RawType) (index : ℤ) (e : Exn) : (refused type index e).Traced :=
  ⟨nofun, nofun⟩

theorem createState_ok (type : RawType) {ans : CreateAnswer} (hstatus : ans.status = kSuccess) :
    (createState type ans true).run [] =
      (.ok (.initial ans.out (type = typeValue .nvidia)), [.streamCreate ans.status ans.out]) := by
  have hcreate : (createStream ans).run [] = (.ok ans.out, [.streamCreate ans.status ans.out]) := by
    rw [createStream, Action.run_bind_ok (Action.run_modify _ _), if_neg (not_not.mpr hstatus)]
    rfl
  exact Action.run_bind_ok hcreate

theorem createState_error (type : RawType) {ans : CreateAnswer} (hstatus : ans.status ≠ kSuccess) :
    (createState type ans true).run [] =
      (.error (failedOperation ans.status "create pool stream"),
        dropPartial ans.cleanup ans.out [.streamCreate ans.status ans.out]) := by
  have hcreate : (createStream ans).run [] =
      (.error (failedOperation ans.status "create pool stream"),
        dropPartial ans.cleanup ans.out [.streamCreate ans.status ans.out]) := by
    rw [createStream, Action.run_bind_ok (Action.run_modify _ _), if_pos hstatus]
    rfl
  exact Action.run_bind_error hcreate

theorem Traced.created (type : RawType) (index : ℤ) (ans : CreateAnswer) (active : Bool)
    (place : Place) : (created type index ans active place).Traced := by
  cases active with
  | false => exact ⟨nofun, nofun⟩
  | true =>
    by_cases hstatus : ans.status = kSuccess
    · refine ⟨fun w hw => ?_, fun w hw => ?_⟩
      · rw [PoolObject.created, createState_ok type hstatus] at hw
        cases hw
        exact ⟨ans.out, .nil⟩
      · rw [PoolObject.created, createState_ok type hstatus] at hw ⊢
        cases hw
        rfl
    · have hthrew :
          ∀ w, (PoolObject.created type index ans true place).built ≠ .ok w := fun w hw => by
        rw [PoolObject.created, createState_error type hstatus] at hw
        cases hw
      exact ⟨fun w hw => absurd hw (hthrew w), fun w hw => absurd hw (hthrew w)⟩

/-- **One event.** -/
theorem Traced.after (hp : p.Traced) (hw : p.built = .ok w) (henabled : w.Enabled e)
    (destroy : Error) (place : Place) : (p.after w destroy e place).Traced := by
  obtain ⟨stream, hrun⟩ := hp.run w hw
  constructor
  · rintro w' ⟨⟩
    exact ⟨stream, hrun.snoc ⟨henabled, rfl⟩⟩
  · rintro w' ⟨⟩
    rw [PoolObject.after, List.filterMap_append, filterMap_placedAt, hp.calls w hw]
    exact newCalls_memory (hp.effect hw henabled) destroy

theorem Sound.refused (type : RawType) (index : ℤ) (e : Exn) : (refused type index e).Sound :=
  ⟨.refused type index e, nofun⟩

theorem Sound.created (ans : CreateAnswer) (hplace : active = true → place.Is type index) :
    (created type index ans active place).Sound := by
  refine ⟨.created type index ans active place, fun c hc => ?_⟩
  cases active with
  | false => exact nomatch hc
  | true =>
    obtain ⟨call, -, rfl⟩ := List.mem_map.mp hc
    exact hplace rfl

theorem Sound.after (hp : p.Sound) (hw : p.built = .ok w) (henabled : w.Enabled e) (destroy : Error)
    (hplace : w.newCalls e destroy ≠ [] → place.Is p.type p.index) :
    (p.after w destroy e place).Sound := by
  refine ⟨hp.toTraced.after hw henabled destroy place, fun c hc => ?_⟩
  rcases List.mem_append.mp hc with hc | hc
  · obtain ⟨call, hcall, rfl⟩ := List.mem_map.mp hc
    exact hplace (List.ne_nil_of_mem hcall)
  · exact hp.placed c hc

variable {B : Backends}

/-- A member function, or the destructor of an owner, on some thread. -/
theorem Sound.operate (hB : B.Cooperates) (hset : SetsDevice B) (hp : p.Sound)
    (hw : p.built = .ok w) (henabled : w.Enabled e) (destroy : Error) (th : Thread B) :
    ∃ p' u, (p.operate w e destroy).run th = (.ok p', u) ∧ p'.Sound ∧
      (th.getAnswer.1 = kSuccess → u.visible = th.visible) := by
  unfold PoolObject.operate
  cases hguarded : w.guarded e with
  | false =>
    have heffect := hp.effect hw henabled
    refine ⟨_, th, rfl, hp.after hw henabled destroy fun hcalls => ?_, fun _ => rfl⟩
    exact absurd (newCalls_unguarded heffect hguarded destroy) hcalls
  | true =>
    rw [if_pos rfl]
    obtain ⟨active, place, u, hrun, hplace, hvisible⟩ := underGuard_run hB hset p.type p.index
      (fun active place => p.after w destroy (e.withGuard active) place) th
    refine ⟨_, u, hrun, ?_, hvisible⟩
    refine hp.after hw ((enabled_withGuard w e active).mpr henabled) destroy fun hcalls => ?_
    cases active with
    | true => exact hplace rfl
    | false => exact absurd (newCalls_inactive hguarded destroy) hcalls

/-- The constructor on some thread. -/
theorem Sound.construct (hB : B.Cooperates) (hset : SetsDevice B) (type : RawType) (index : ℤ)
    (ans : CreateAnswer) (th : Thread B) :
    ∃ p' u, (constructPool type index ans).run th = (.ok p', u) ∧ p'.Sound ∧
      (th.getAnswer.1 = kSuccess → u.visible = th.visible) := by
  unfold constructPool
  split
  · exact ⟨_, th, rfl, .refused _ _ _, fun _ => rfl⟩
  · split
    · exact ⟨_, th, rfl, .refused _ _ _, fun _ => rfl⟩
    · obtain ⟨active, place, u, hrun, hplace, hvisible⟩ :=
        underGuard_run hB hset type index (PoolObject.created type index ans) th
      exact ⟨_, u, hrun, .created ans hplace, hvisible⟩

end PoolObject

/-! ### Programs -/

/-- The thread that runs the constructor or an event of a pool. -/
def SystemEvent.caller? : SystemEvent → Option ThreadId
  | .construct t .. | .pool t .. => some t
  | _ => none

namespace System

variable {B : Backends} {s s' : System B} {trace : List SystemEvent}

/-- Every pool of the program is sound. -/
def Sound (s : System B) : Prop := ∀ p ∈ s.pools, p.Sound

theorem run_onThread {α : Type} {t : ThreadId} {x : Action (Thread B) Fault α} {r : Except Fault α}
    {u : Thread B} (h : x.run (s.threads t) = (r, u)) :
    (onThread t x).run s = (r, s.setThread t u) :=
  Action.run_zoom h

/-- A thread that keeps its selection is the only one that changed. -/
theorem visible_setThread {t : ThreadId} {u : Thread B} (h : u.visible = (s.threads t).visible)
    (t' : ThreadId) : ((s.setThread t u).threads t').visible = (s.threads t').visible := by
  show (Function.update s.threads t u t').visible = _
  by_cases ht : t' = t
  · rw [ht, Function.update_self, h]
  · rw [Function.update_of_ne ht]

theorem Sound.setThread (hs : s.Sound) (t : ThreadId) (u : Thread B) : (s.setThread t u).Sound := hs

/-- A new pool. -/
theorem Sound.snoc (hs : s.Sound) {p : PoolObject} (hp : p.Sound) :
    Sound { s with pools := s.pools ++ [p] } := fun q hq => by
  rcases List.mem_append.mp hq with hq | hq
  · exact hs q hq
  · exact List.mem_singleton.mp hq ▸ hp

/-- A pool in the place of what it was. -/
theorem Sound.set (hs : s.Sound) (k : ℕ) {p : PoolObject} (hp : p.Sound) :
    Sound { s with pools := s.pools.set k p } := fun q hq => by
  rcases List.mem_or_eq_of_mem_set hq with hq | rfl
  · exact hs q hq
  · exact hp

/-- An event of a pool that was constructed. -/
theorem run_poolEvent {t : ThreadId} {k : ℕ} {e : Event} {destroy : Error} {p : PoolObject}
    {w : World} (hpool : s.HasPool k p w) : (poolEvent t k e destroy).run s =
      (do
        let p ← onThread t (p.operate w e destroy)
        modify fun s => { s with pools := s.pools.set k p } :
            Action (System B) Fault Unit).run s := by
  obtain ⟨hk, hw⟩ := hpool
  simp only [poolEvent, Action.run_bind_ok (Action.run_get s), hk, hw]

/-- **One step** keeps every pool sound, and a call of a pool is not seen in what a thread has
selected. -/
theorem step_sound (hB : B.Cooperates) (hset : SetsDevice B) (hs : s.Sound) {e : SystemEvent}
    (hstep : Step s e s') : s'.Sound ∧ ∀ t, e.caller? = some t →
      (s.threads t).getAnswer.1 = kSuccess →
      ∀ t', (s'.threads t').visible = (s.threads t').visible := by
  obtain ⟨henabled, hrun⟩ := hstep
  cases e with
  | setRuntimeDeviceType t type =>
    cases congrArg Prod.snd hrun
    exact ⟨hs.setThread t _, nofun⟩
  | setDevice t index =>
    cases congrArg Prod.snd hrun
    exact ⟨hs.setThread t _, nofun⟩
  | getDevice t =>
    cases congrArg Prod.snd hrun
    exact ⟨hs.setThread t _, nofun⟩
  | construct t type index ans =>
    obtain ⟨p, u, hconstruct, hp, hvisible⟩ :=
      PoolObject.Sound.construct hB hset type index ans (s.threads t)
    have hdone : (perform (.construct t type index ans)).run s =
        (.ok (), { s.setThread t u with pools := s.pools ++ [p] }) :=
      Action.run_bind_ok (run_onThread hconstruct)
    rw [hdone] at hrun
    cases hrun
    refine ⟨hs.snoc hp, ?_⟩
    rintro _ ⟨⟩ hread t'
    exact visible_setThread (hvisible hread) t'
  | pool t k e destroy =>
    obtain ⟨p, w, hpool, hevent, -⟩ := henabled
    obtain ⟨p', u, hoperate, hp', hvisible⟩ := (hs p (List.mem_of_getElem? hpool.1)).operate hB hset
      hpool.2 hevent destroy (s.threads t)
    rw [perform, run_poolEvent hpool, Action.run_bind_ok (run_onThread hoperate)] at hrun
    cases hrun
    refine ⟨hs.set k hp', ?_⟩
    rintro _ ⟨⟩ hread t'
    exact visible_setThread (hvisible hread) t'

/-- **Every pool of a program keeps to its device.**  In every run, whatever the threads select in
between, the calls of each pool reach the device it was constructed for, its events are a run of the
model of a single pool, and no thread sees another selection after a call of a pool. -/
theorem pools_keep_to_their_devices (hB : B.Cooperates) (hset : SetsDevice B)
    {threads : ThreadId → Thread B} (hrun : Run Step (initial threads) trace s) :
    s.Sound ∧ ∀ e s', Step s e s' → ∀ t, e.caller? = some t →
      (s.threads t).getAnswer.1 = kSuccess →
      ∀ t', (s'.threads t').visible = (s.threads t').visible := by
  have hs : s.Sound := hrun.invariant Sound (fun _ _ _ hi hstep => (step_sound hB hset hi hstep).1)
    fun p hp => absurd hp List.not_mem_nil
  exact ⟨hs, fun e s' hstep => (step_sound hB hset hs hstep).2⟩

/-- A thread on the CPU constructs a pool on the second device of the other backend. -/
def onePool : System Device.DeviceGuard.cpuAndNvidia :=
  ((perform (.construct 0 1#32 1 ⟨true, kSuccess, some 7, kSuccess⟩)).run
    (initial fun _ => Device.DeviceGuard.onCpu)).2

/-- Another thread allocates from it. -/
def onePoolUsed : System Device.DeviceGuard.cpuAndNvidia :=
  ((perform (.pool 1 0 (.allocate 1 100 (.granting 0 4096)) kSuccess)).run onePool).2

theorem onePoolUsed_run : Run Step (initial fun _ => Device.DeviceGuard.onCpu)
    [.construct 0 1#32 1 ⟨true, kSuccess, some 7, kSuccess⟩,
      .pool 1 0 (.allocate 1 100 (.granting 0 4096)) kSuccess] onePoolUsed :=
  .snoc (.single ⟨trivial, rfl⟩) ⟨⟨_, _, ⟨rfl, rfl⟩, by decide, by decide⟩, rfl⟩

theorem pools_keep_to_their_devices_onePool : onePoolUsed.Sound ∧
    ∀ e s', Step onePoolUsed e s' → ∀ t, e.caller? = some t →
      (onePoolUsed.threads t).getAnswer.1 = kSuccess →
      ∀ t', (s'.threads t').visible = (onePoolUsed.threads t').visible :=
  pools_keep_to_their_devices Device.DeviceGuard.cpuAndNvidia_cooperates (fun _ _ _ => rfl)
    onePoolUsed_run

end System

end InfiniRT.Pool
