import InfiniRT.Pool.GuardedRuns

/-!
# The life of a pool's stream

`StreamStep` says which call of a pool may follow which: a protocol that names the stream and
nothing of the pool.  The journal of every pool of every program follows it, from `StreamCreate` on.
The backends are arbitrary here, and so is what the threads select.  Proved:

* **`run_closingCalls`** — `~State` follows the protocol;
* **`pools_invariant`** — the rule for all pools of a program;
* **`streams_keep_protocol`** — every pool of a program keeps the protocol of its stream.
-/

namespace InfiniRT.Pool

open InfiniRT.Library
open InfiniRT.Device (Backends Thread RawType typeValue)
open InfiniRT.Device.DeviceGuard (construct restore)

/-! ### The protocol -/

/-- How far the life of a stream has come. -/
inductive StreamPhase
  | unborn
  /-- `StreamCreate` failed and left a stream. -/
  | partly (stream : Stream)
  /-- The pool is in use; a backend may have given it no stream. -/
  | running (stream : Option Stream)
  /-- All work on the stream is done, and the blocks are being freed. -/
  | drained (stream : Stream)
  /-- The frees are done as well. -/
  | completed (stream : Stream)
  /-- No call may follow. -/
  | over
  deriving DecidableEq, Repr

/-- `device_.type() == Device::Type::kNvidia ? stream_ : nullptr`. -/
def allocationStreamOf (isNvidia : Bool) (stream : Option Stream) : Option Stream :=
  if isNvidia then stream else none

variable {isNvidia : Bool}

/-- The protocol. -/
inductive StreamStep (isNvidia : Bool) : StreamPhase → RuntimeCall → StreamPhase → Prop
  | created (stream : Option Stream) :
      StreamStep isNvidia .unborn (.streamCreate kSuccess stream) (.running stream)
  | refused {status : Error} (h : status ≠ kSuccess) :
      StreamStep isNvidia .unborn (.streamCreate status none) .over
  | partly {status : Error} (h : status ≠ kSuccess) (stream : Stream) :
      StreamStep isNvidia .unborn (.streamCreate status (some stream)) (.partly stream)
  | dropped (stream : Stream) (status : Error) :
      StreamStep isNvidia (.partly stream) (.streamDestroy stream status) .over
  /-- While the pool is in use its memory calls go to its allocation stream. -/
  | used {stream : Option Stream} {c : BackendCall}
      (hc : c.stream = allocationStreamOf isNvidia stream) :
      StreamStep isNvidia (.running stream) (.memory c) (.running stream)
  | drained (stream : Stream) : StreamStep isNvidia (.running (some stream))
      (.streamSynchronize stream kSuccess) (.drained stream)
  | stuck (stream : Stream) {status : Error} (h : status ≠ kSuccess) :
      StreamStep isNvidia (.running (some stream)) (.streamSynchronize stream status) .over
  /-- Between the two synchronizations blocks are freed, and none is allocated. -/
  | freed (stream : Stream) (p : Ptr) (status : Error) : StreamStep isNvidia (.drained stream)
      (.memory (.free (allocationStreamOf isNvidia (some stream)) p status)) (.drained stream)
  | completed (stream : Stream) : StreamStep isNvidia (.drained stream)
      (.streamSynchronize stream kSuccess) (.completed stream)
  | retained (stream : Stream) {status : Error} (h : status ≠ kSuccess) :
      StreamStep isNvidia (.drained stream) (.streamSynchronize stream status) .over
  | destroyed (stream : Stream) (status : Error) :
      StreamStep isNvidia (.completed stream) (.streamDestroy stream status) .over

section Protocol

variable {phase : StreamPhase} {calls calls' : List RuntimeCall} {stream : Stream} {status : Error}

/-- Nothing follows the end of a life. -/
theorem calls_eq_nil_of_over (h : Run (StreamStep isNvidia) .over calls phase) :
    calls = [] ∧ phase = .over := by
  induction h with
  | nil => exact ⟨rfl, rfl⟩
  | snoc _ hlast ih =>
    rw [ih.2] at hlast
    cases hlast

/-- What comes before the second synchronization is done. -/
theorem synchronized_of_completed
    (h : Run (StreamStep isNvidia) .unborn calls (.completed stream)) :
    ∃ before, calls = before ++ [.streamSynchronize stream kSuccess] := by
  cases h with
  | snoc _ hlast =>
    cases hlast
    exact ⟨_, rfl⟩

/-- Nothing is before a life. -/
theorem calls_eq_nil_of_unborn (h : Run (StreamStep isNvidia) phase calls .unborn) :
    calls = [] := by
  cases h with
  | nil => rfl
  | snoc _ hlast => cases hlast

/-- What comes before a partial stream. -/
theorem created_of_partly (h : Run (StreamStep isNvidia) .unborn calls (.partly stream)) :
    ∃ failed, failed ≠ kSuccess ∧ calls = [.streamCreate failed (some stream)] := by
  cases h with
  | snoc hrun hlast =>
    cases hlast with
    | partly hstatus => exact ⟨_, hstatus, by rw [calls_eq_nil_of_unborn hrun, List.nil_append]⟩

/-- **A stream is destroyed by the last call**, right after a successful synchronization or because
it was created in part. -/
theorem destroyed_last
    (h : Run (StreamStep isNvidia) .unborn (calls ++ .streamDestroy stream status :: calls')
      phase) :
    calls' = [] ∧ ((∃ before, calls = before ++ [.streamSynchronize stream kSuccess]) ∨
      ∃ failed, failed ≠ kSuccess ∧ calls = [.streamCreate failed (some stream)]) := by
  rw [List.append_cons] at h
  obtain ⟨middle, hfirst, hrest⟩ := h.split
  obtain ⟨before, hbefore, hdestroy⟩ := hfirst.last
  cases hdestroy with
  | dropped =>
    exact ⟨(calls_eq_nil_of_over hrest).1, .inr (created_of_partly hbefore)⟩
  | destroyed =>
    exact ⟨(calls_eq_nil_of_over hrest).1, .inl (synchronized_of_completed hbefore)⟩

end Protocol

/-! ### One pool -/

variable {s : State} {ans : DestroyAnswer} {destroy : Error} {new : List BackendCall}
  {w : World} {e : Event} {p : PoolObject}

/-- Calls while the pool is in use. -/
theorem run_used {stream : Option Stream}
    (hnew : ∀ c ∈ new, c.stream = allocationStreamOf isNvidia stream) :
    Run (StreamStep isNvidia) (.running stream) (new.map .memory).reverse (.running stream) :=
  .loop fun l hl => by
    obtain ⟨c, hc, rfl⟩ := List.mem_map.mp (List.mem_reverse.mp hl)
    exact .used (hnew c hc)

/-- The frees of `~State`. -/
theorem run_freed {stream : Stream}
    (halloc : s.allocationStream = allocationStreamOf isNvidia (some stream))
    (answer : Ptr → Error) (entries : List (Σ _ : Ptr, BlockId)) :
    Run (StreamStep isNvidia) (.drained stream)
      ((freeCalls s answer entries).map RuntimeCall.memory).reverse (.drained stream) :=
  .loop fun l hl => by
    obtain ⟨c, hc, rfl⟩ := List.mem_map.mp (List.mem_reverse.mp hl)
    obtain ⟨p, -, rfl⟩ := List.mem_map.mp hc
    rw [halloc]
    exact .freed stream p _

/-- **`~State` follows the protocol.** -/
theorem run_closingCalls (halloc : s.allocationStream = allocationStreamOf isNvidia s.stream)
    (ans : DestroyAnswer) (destroy : Error) : ∃ phase, Run (StreamStep isNvidia) (.running s.stream)
      (s.closingCalls ans destroy).reverse phase := by
  cases hguard : ans.guard with
  | false =>
    rw [State.closingCalls, if_pos hguard]
    exact ⟨_, .nil⟩
  | true =>
    rw [closingCalls_eq s hguard]
    cases hstream : s.stream with
    | none =>
      rw [hstream] at halloc
      refine ⟨_, run_used fun c hc => ?_⟩
      obtain ⟨p, -, rfl⟩ := List.mem_map.mp hc
      exact halloc
    | some stream =>
      rw [hstream] at halloc
      have hfrees := run_freed halloc ans.free s.allBlocks.entries
      rw [closeStream]
      split
      · next hdrain => exact ⟨_, .single (.stuck stream hdrain)⟩
      · next hdrain =>
        rw [not_not] at hdrain
        have hdone := (Run.single (.drained stream)).append hfrees
        rw [hdrain]
        split
        · next hcomplete =>
          rw [List.cons_append, List.reverse_cons, List.reverse_append]
          exact ⟨_, hdone.snoc (.retained stream hcomplete)⟩
        · next hcomplete =>
          rw [not_not] at hcomplete
          rw [List.cons_append, List.cons_append, List.reverse_cons, List.reverse_cons,
            List.reverse_append, hcomplete]
          exact ⟨_, (hdone.snoc (.completed stream)).snoc (.destroyed stream destroy)⟩

namespace PoolObject

/-- The calls of a pool, the oldest first. -/
def calls (p : PoolObject) : List RuntimeCall := (p.journal.map (·.call)).reverse

theorem calls_after (p : PoolObject) (w : World) (destroy : Error) (e : Event) (place : Place) :
    (p.after w destroy e place).calls = p.calls ++ (w.newCalls e destroy).reverse := by
  have hplaced : (placedAt place (w.newCalls e destroy)).map (·.call) = w.newCalls e destroy := by
    rw [placedAt, List.map_map]
    exact List.map_id _
  rw [calls, after, List.map_append, hplaced, List.reverse_append]
  rfl

/-- The journal of a pool follows the protocol, up to the phase in which the pool is in use. -/
def Streamed (p : PoolObject) : Prop :=
  ∃ phase, Run (StreamStep (p.type = typeValue .nvidia)) .unborn p.calls phase ∧
    ∀ w, p.built = .ok w → w.closed = false → phase = .running w.state.stream ∧
      w.state.allocationStream = allocationStreamOf (p.type = typeValue .nvidia) w.state.stream

/-- Of a pool whose construction threw only the calls count. -/
theorem streamed_of_error {p : PoolObject} {e : Exn} {phase : StreamPhase}
    (hbuilt : p.built = .error e)
    (hrun : Run (StreamStep (p.type = typeValue .nvidia)) .unborn p.calls phase) : p.Streamed := by
  refine ⟨phase, hrun, fun w hw => ?_⟩
  rw [hbuilt] at hw
  cases hw

theorem Streamed.refused (type : RawType) (index : ℤ) (e : Exn) :
    (PoolObject.refused type index e).Streamed := streamed_of_error rfl .nil

theorem Streamed.created (type : RawType) (index : ℤ) (ans : CreateAnswer) (active : Bool)
    (place : Place) : (PoolObject.created type index ans active place).Streamed := by
  cases active with
  | false => exact streamed_of_error rfl .nil
  | true =>
    by_cases hstatus : ans.status = kSuccess
    · have hbuilt := createState_ok type hstatus
      refine ⟨.running ans.out, ?_, fun w hw _ => ?_⟩
      · rw [calls, PoolObject.created, hbuilt, hstatus]
        exact .single (.created ans.out)
      · rw [PoolObject.created, hbuilt] at hw
        cases hw
        exact ⟨rfl, rfl⟩
    · have hbuilt := createState_error type hstatus
      rw [PoolObject.created, hbuilt]
      cases hout : ans.out with
      | none => exact streamed_of_error rfl (.single (.refused hstatus))
      | some stream =>
        exact streamed_of_error rfl
          ((Run.single (.partly hstatus stream)).snoc (.dropped stream ans.cleanup))

/-- **One event.** -/
theorem Streamed.after (hs : p.Streamed) (hp : p.Traced) (hw : p.built = .ok w)
    (henabled : w.Enabled e) (destroy : Error) (place : Place) :
    (p.after w destroy e place).Streamed := by
  obtain ⟨phase, hrun, hphase⟩ := hs
  obtain ⟨rfl, halloc⟩ := hphase w hw ((hp.invariant hw).closed_of_enabled henabled)
  rw [Streamed, calls_after]
  cases hclosing : w.closing e with
  | none =>
    obtain ⟨new, hnew, -⟩ := (hp.effect hw henabled).adds hclosing
    have hcalls : w.newCalls e destroy = new.map .memory := by
      rw [World.newCalls, hclosing]
      exact hnew.callsSince
    refine ⟨.running w.state.stream, ?_, ?_⟩
    · rw [hcalls]
      exact hrun.append (run_used fun c hc => (hnew.ordered c hc).trans halloc)
    · rintro w' ⟨⟩ -
      rw [hnew.stream, hnew.allocationStream]
      exact ⟨rfl, halloc⟩
  | some found =>
    obtain ⟨s, ans⟩ := found
    obtain ⟨hsame, -, hclosed⟩ := perform_closing hclosing
    have hcalls : w.newCalls e destroy = s.closingCalls ans destroy := by
      rw [World.newCalls, hclosing]
    have hallocs : s.allocationStream =
        allocationStreamOf (p.type = typeValue .nvidia) s.stream := by
      rw [hsame.allocationStream, hsame.stream, halloc]
    obtain ⟨phase, hclose⟩ := run_closingCalls hallocs ans destroy
    rw [hsame.stream, ← hcalls] at hclose
    refine ⟨phase, hrun.append hclose, ?_⟩
    rintro w' ⟨⟩ hopen
    rw [hclosed] at hopen
    cases hopen

end PoolObject

/-! ### Programs -/

section Runs

variable {B : Backends} {α : Type} {th u : Thread B} {type : RawType} {index : ℤ}
  {threads : ThreadId → Thread B} {s s' : System B} {trace : List SystemEvent}

/-- What a body behind a guard returned, whatever the backends do. -/
theorem underGuard_ok {body : Bool → Place → α} {a : α}
    (h : (underGuard type index body).run th = (.ok a, u)) :
    ∃ active place, a = body active place := by
  rcases hconstruct : (construct type index).run th with ⟨g | g, u₁⟩
  · rw [underGuard, Action.run_bind_error hconstruct] at h
    cases h
  · rw [underGuard, Action.run_bind_ok hconstruct, Action.run_bind_ok (Action.run_get u₁)] at h
    rcases hrestore : (restore g).run u₁ with ⟨g' | g', u₂⟩
    · rw [Action.run_bind_error hrestore] at h
      cases h
    · rw [Action.run_bind_ok hrestore] at h
      cases h
      exact ⟨_, _, rfl⟩

/-- **The rule for the pools of a program**: what every constructor establishes and every event
keeps holds of every pool. -/
theorem System.pools_invariant (Q : PoolObject → Prop)
    (hrefused : ∀ type index e, Q (.refused type index e))
    (hcreated : ∀ type index ans active place, Q (.created type index ans active place))
    (hafter : ∀ p w destroy e place, Q p → p.built = .ok w → w.Enabled e →
      Q (p.after w destroy e place))
    (hrun : Run Step (initial threads) trace s) : ∀ p ∈ s.pools, Q p := by
  refine hrun.invariant (fun s => ∀ p ∈ s.pools, Q p) (fun s e s' hs hstep => ?_)
    fun p hp => absurd hp List.not_mem_nil
  obtain ⟨henabled, hrun⟩ := hstep
  cases e with
  | setRuntimeDeviceType t type =>
    cases congrArg Prod.snd hrun
    exact hs
  | setDevice t index =>
    cases congrArg Prod.snd hrun
    exact hs
  | getDevice t =>
    cases congrArg Prod.snd hrun
    exact hs
  | construct t type index ans =>
    rcases hnew : (constructPool type index ans).run (s.threads t) with ⟨x | p, u⟩
    · rw [perform, Action.run_bind_error (run_onThread hnew)] at hrun
      cases hrun
    · rw [perform, Action.run_bind_ok (run_onThread hnew)] at hrun
      cases hrun
      intro q hq
      rcases List.mem_append.mp hq with hq | hq
      · exact hs q hq
      · rw [List.mem_singleton.mp hq]
        unfold constructPool at hnew
        split at hnew
        · cases hnew
          exact hrefused _ _ _
        · split at hnew
          · cases hnew
            exact hrefused _ _ _
          · obtain ⟨active, place, rfl⟩ := underGuard_ok hnew
            exact hcreated _ _ _ _ _
  | pool t k e destroy =>
    obtain ⟨p, w, hpool, hevent, -⟩ := henabled
    have hp := hs p (List.mem_of_getElem? hpool.1)
    rw [perform, run_poolEvent hpool] at hrun
    rcases hnew : (p.operate w e destroy).run (s.threads t) with ⟨x | p', u⟩
    · rw [Action.run_bind_error (run_onThread hnew)] at hrun
      cases hrun
    · rw [Action.run_bind_ok (run_onThread hnew)] at hrun
      cases hrun
      intro q hq
      rcases List.mem_or_eq_of_mem_set hq with hq | rfl
      · exact hs q hq
      · unfold PoolObject.operate at hnew
        split at hnew
        · obtain ⟨active, place, rfl⟩ := underGuard_ok hnew
          exact hafter p w destroy _ place hp hpool.2 ((enabled_withGuard w e active).mpr hevent)
        · cases hnew
          exact hafter p w destroy e _ hp hpool.2 hevent

/-- **Every pool of a program keeps the protocol of its stream.**  In every run its calls, the
oldest first, follow the protocol, and as long as the pool lives its stream is in use; the last call
is the one that destroys the stream, if there is one, and it comes right after a successful
synchronization or disposes of a stream that was created in part. -/
theorem System.streams_keep_protocol (hrun : Run Step (initial threads) trace s) :
    ∀ p ∈ s.pools, p.Streamed ∧ ∀ before after stream status,
      p.calls = before ++ .streamDestroy stream status :: after → after = [] ∧
        ((∃ earlier, before = earlier ++ [.streamSynchronize stream kSuccess]) ∨
          ∃ failed, failed ≠ kSuccess ∧ before = [.streamCreate failed (some stream)]) := by
  intro p hp
  have hboth := pools_invariant (fun p => p.Traced ∧ p.Streamed)
    (fun type index e => ⟨.refused type index e, .refused type index e⟩)
    (fun type index ans active place => ⟨.created type index ans active place,
      .created type index ans active place⟩)
    (fun p w destroy e place hp hw henabled => ⟨hp.1.after hw henabled destroy place,
      hp.2.after hp.1 hw henabled destroy place⟩) hrun p hp
  refine ⟨hboth.2, fun before after stream status hcalls => ?_⟩
  obtain ⟨phase, hprotocol, -⟩ := hboth.2
  rw [hcalls] at hprotocol
  exact destroyed_last hprotocol

/-- Then the thread destroys the pool, and the backend grants everything. -/
def System.onePoolDestroyed : System Device.DeviceGuard.cpuAndNvidia :=
  ((perform (.pool 1 0 (.destroyPool ⟨true, kSuccess, fun _ => kSuccess, kSuccess⟩)
    kSuccess)).run onePoolUsed).2

theorem System.onePoolDestroyed_run : Run Step (initial fun _ => Device.DeviceGuard.onCpu)
    [.construct 0 1#32 1 ⟨true, kSuccess, some 7, kSuccess⟩,
      .pool 1 0 (.allocate 1 100 (.granting 0 4096)) kSuccess,
      .pool 1 0 (.destroyPool ⟨true, kSuccess, fun _ => kSuccess, kSuccess⟩) kSuccess]
    onePoolDestroyed :=
  .snoc onePoolUsed_run ⟨⟨_, _, ⟨rfl, rfl⟩, by decide, by decide⟩, rfl⟩

/-- The whole life of the stream 7. -/
theorem System.streams_keep_protocol_onePool : ∃ p ∈ onePoolDestroyed.pools, p.Streamed ∧
    p.calls = [.streamCreate kSuccess (some 7), .memory (.malloc (some 7) 32768 kSuccess 4096),
      .streamSynchronize 7 kSuccess, .memory (.free (some 7) 4096 kSuccess),
      .streamSynchronize 7 kSuccess, .streamDestroy 7 kSuccess] ∧
    ∀ before after stream status, p.calls = before ++ .streamDestroy stream status :: after →
      after = [] ∧ ((∃ earlier, before = earlier ++ [.streamSynchronize stream kSuccess]) ∨
        ∃ failed, failed ≠ kSuccess ∧ before = [.streamCreate failed (some stream)]) :=
  have h := streams_keep_protocol onePoolDestroyed_run _ List.mem_cons_self
  ⟨_, List.mem_cons_self, h.1, rfl, h.2⟩

end Runs

end InfiniRT.Pool
