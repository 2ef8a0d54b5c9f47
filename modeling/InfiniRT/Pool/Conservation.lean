import InfiniRT.Pool.Ledger
import InfiniRT.Pool.PinSafety

/-!
# Memory of the backend is conserved

Under a backend that leaves nothing behind where it fails, the memory handed out and not taken back
is the memory `all_blocks_` knows, whatever fails in between.  Nothing is returned twice, an owned
address is returned by `~State` only, and `~State` returns each remaining address once or none.
Proved:

* **`destroy_calls`** — `~State` gives every tracked address back once, or none;
* **`backing_conserved`** — the addresses handed out and not taken back are the keys of
  `all_blocks_`.
-/

namespace InfiniRT.Pool

open InfiniRT.Library

variable {w w' : World} {e : Event} {o : Outcome} {x : Event × Outcome} {s s' : State}
  {b c : BlockId} {p : Ptr} {t : ThreadId} {trace : List (Event × Outcome)}
  {calls : List BackendCall}

/-- The backend hands out what is not handed out, and takes back only what is. -/
def ProperCalls : List BackendCall → Prop
  | [] => True
  | .malloc _ _ status out :: calls =>
    (status = kSuccess → out ∉ live calls) ∧ ProperCalls calls
  | .free _ p _ :: calls => p ∈ live calls ∧ ProperCalls calls

/-- Between two returns of an address the backend has handed it out again. -/
def NeverReturnedTwice (calls : List BackendCall) : Prop :=
  ∀ late mid early p stream status stream', calls =
    late ++ .free stream p status :: (mid ++ .free stream' p kSuccess :: early) →
      ∃ stream n, .malloc stream n kSuccess p ∈ mid

theorem ProperCalls.nodup (h : ProperCalls calls) : (live calls).Nodup := by
  induction calls with
  | nil => exact List.nodup_nil
  | cons call calls ih =>
    cases call with
    | malloc stream n status out =>
      simp only [live]
      split_ifs with hstatus
      · exact List.nodup_cons.mpr ⟨h.1 hstatus, ih h.2⟩
      · exact ih h.2
    | free stream p status =>
      simp only [live]
      split_ifs
      · exact (ih h.2).erase p
      · exact ih h.2

theorem ProperCalls.of_append {late early : List BackendCall} (h : ProperCalls (late ++ early)) :
    ProperCalls early := by
  induction late with
  | nil => exact h
  | cons call late ih => cases call <;> exact ih h.2

/-- Only the backend puts an address among the live ones. -/
theorem mem_live_append {mid : List BackendCall} (hp : p ∉ live calls)
    (hmid : p ∈ live (mid ++ calls)) : ∃ stream n, .malloc stream n kSuccess p ∈ mid := by
  induction mid with
  | nil => exact absurd hmid hp
  | cons call mid ih =>
    have hrest : p ∈ live (mid ++ calls) → ∃ stream n, .malloc stream n kSuccess p ∈ call :: mid :=
      fun hmem => (ih hmem).imp fun _ => Exists.imp fun _ => List.mem_cons_of_mem _
    cases call with
    | malloc stream n status out =>
      simp only [List.cons_append, live] at hmid
      split_ifs at hmid with hstatus
      · rcases List.mem_cons.mp hmid with rfl | hmid
        · subst hstatus
          exact ⟨stream, n, List.mem_cons_self⟩
        · exact hrest hmid
      · exact hrest hmid
    | free stream q status =>
      simp only [List.cons_append, live] at hmid
      split_ifs at hmid
      · exact hrest (List.mem_of_mem_erase hmid)
      · exact hrest hmid

theorem ProperCalls.neverReturnedTwice (h : ProperCalls calls) : NeverReturnedTwice calls := by
  rintro late mid early p stream status stream' rfl
  obtain ⟨hlive, hproper⟩ := h.of_append
  refine mem_live_append ?_ hlive
  rw [live_free_kSuccess]
  exact hproper.of_append.2.nodup.not_mem_erase

/-! ### One step -/

/-- What is assumed of the backend in one event: a failed allocation leaves no memory behind, and
the clean-up of a failed registration succeeds. -/
def Event.Clean : Event → Prop
  | .allocate _ _ ans | .allocateExact _ _ ans =>
    (ans.backend.status ≠ kSuccess → ans.backend.out = nullptr) ∧ ans.cleanup = kSuccess
  | _ => True

instance : (e : Event) → Decidable e.Clean
  | .allocate .. | .allocateExact .. => inferInstanceAs (Decidable (_ ∧ _))
  | .deallocate .. | .retainAllocation .. | .beginPinMode .. | .commitPinMode .. |
    .advanceCommit .. | .cancelPinMode .. | .retainForCapture .. | .pinnedBytes .. | .trim .. |
    .destroyLease .. | .destroyPool .. => inferInstanceAs (Decidable True)

/-- The live memory is the tracked memory. -/
structure Conserved (s : State) : Prop where
  proper : ProperCalls s.calls
  live_iff : ∀ p, p ∈ live s.calls ↔ p ∈ s.allBlocks

namespace Conserved

theorem stay (h : Conserved s) (hall : s'.allBlocks = s.allBlocks) (hcalls : s'.calls = s.calls) :
    Conserved s' := by
  refine ⟨?_, ?_⟩
  · rw [hcalls]
    exact h.proper
  · rw [hcalls, hall]
    exact h.live_iff

/-- A failed allocation leaves no trace. -/
theorem untouched (h : Conserved s) {ans : AllocAnswer} (hs : Untouched ans s s')
    (hout : ans.backend.out ∉ live s.calls)
    (hfailed : ans.backend.status ≠ kSuccess → ans.backend.out = nullptr)
    (hcleanup : ans.cleanup = kSuccess) : Conserved s' := by
  have hall : s'.allBlocks = s.allBlocks := by rw [hs.rest]
  rcases hs.calls with hcalls | ⟨n, ⟨hstatus, -, hcalls⟩ | ⟨hnonnull, hcalls⟩⟩
  · exact h.stay hall hcalls
  · refine ⟨?_, ?_⟩
    · rw [hcalls]
      exact ⟨fun hok => absurd hok hstatus, h.proper⟩
    · rw [hcalls, live_malloc_of_ne hstatus, hall]
      exact h.live_iff
  · have hstatus : ans.backend.status = kSuccess := not_not.mp fun hne => hnonnull (hfailed hne)
    rw [hstatus, hcleanup] at hcalls
    refine ⟨?_, ?_⟩
    · rw [hcalls]
      exact ⟨by simp, fun _ => hout, h.proper⟩
    · rw [hcalls, live_free_kSuccess, live_malloc_kSuccess, List.erase_cons_head, hall]
      exact h.live_iff

theorem served (h : Conserved s) (hs : Served t s p b s') : Conserved s' := by
  have hmem : ∀ q, q ∈ s'.allBlocks ↔ q = p ∨ q ∈ s.allBlocks := by
    intro q
    rw [← AList.lookup_isSome, ← AList.lookup_isSome]
    by_cases hq : q = p
    · rw [hq, hs.lookup]
      simp
    · simp [hq, hs.lookup_ne q hq]
  rcases hs.origin with ⟨hlookup, -, hcalls⟩ | ⟨-, -, hout, stream, n, hcalls⟩
  · refine ⟨hcalls ▸ h.proper, fun q => ?_⟩
    rw [hcalls, h.live_iff, hmem]
    constructor
    · exact .inr
    · rintro (rfl | hq)
      · exact AList.lookup_isSome.mp (by rw [hlookup]; rfl)
      · exact hq
  · refine ⟨?_, fun q => ?_⟩
    · rw [hcalls]
      exact ⟨fun _ => hout, h.proper⟩
    · rw [hcalls, live_malloc_kSuccess, List.mem_cons, h.live_iff, hmem]

/-- A return by `trim`. -/
theorem trimStep (h : Conserved s) (hplace : Placement s) (hs : TrimStep s s') : Conserved s' := by
  have hlive : ∀ {c}, s.Tracked c → (s.blocks c).ptr ∈ live s.calls := by
    intro c hc
    rw [h.live_iff]
    exact AList.lookup_isSome.mp (by rw [hplace.lookup_ptr hc]; rfl)
  have hremoved : ∀ {c} {s' : State}, s.Tracked c →
      s'.allBlocks = s.allBlocks.erase (s.blocks c).ptr →
      s'.calls = .free s.allocationStream (s.blocks c).ptr kSuccess :: s.calls →
      Conserved s' := by
    intro c s' hc hall hcalls
    refine ⟨?_, fun q => ?_⟩
    · rw [hcalls]
      exact ⟨hlive hc, h.proper⟩
    · rw [hcalls, live_free_kSuccess, hall, AList.mem_erase, h.proper.nodup.mem_erase_iff,
        h.live_iff]
  cases hs with
  | @free i kept rest c hlist hpin =>
    exact hremoved (hplace.mem_free.mp (by rw [hlist]; simp) : s.Idle i c).1 rfl rfl
  | @large kept rest c hlist hpin huse =>
    exact hremoved (hplace.mem_large.mp (by rw [hlist]; simp) : s.Bulky c).1 rfl rfl
  | @refused c status hc hstatus =>
    refine ⟨⟨hlive (hplace.tracked_of_trimmable hc), h.proper⟩, fun q => ?_⟩
    show q ∈ live (.free _ _ status :: s.calls) ↔ q ∈ s.allBlocks
    rw [live_free_of_ne hstatus, h.live_iff]

theorem trimSteps (h : Conserved s) (hplace : Placement s) (hs : TrimSteps s s') :
    Conserved s' ∧ Placement s' := by
  induction hs with
  | refl => exact ⟨h, hplace⟩
  | tail _ hlast ih => exact ⟨ih.1.trimStep ih.2 hlast, ih.2.trimStep hlast⟩

end Conserved

/-! ### The destructor -/

/-- The answers an event brings for `~State`. -/
def Event.destroyAnswer : Event → Option DestroyAnswer
  | .destroyLease _ ans | .destroyPool ans => some ans
  | _ => none

/-- The calls of a `~State` that drained its stream, newest first: one for each tracked address. -/
def State.returnAll (s : State) (ans : DestroyAnswer) : List BackendCall :=
  (s.allBlocks.keys.map fun p => .free s.allocationStream p (ans.free p)).reverse

theorem freeCalls_entries (hplace : Placement s) (hnull : nullptr ∉ s.allBlocks)
    (ans : DestroyAnswer) : freeCalls s ans.free s.allBlocks.entries = s.returnAll ans := by
  have hkeys : s.allBlocks.entries.map (fun entry => (s.blocks entry.2).ptr) =
      s.allBlocks.keys := by
    refine List.map_congr_left fun entry hentry => ?_
    exact hplace.address entry.1 entry.2 (AList.mem_lookup_iff.mpr hentry)
  have hall : s.allBlocks.keys.filter (· ≠ nullptr) = s.allBlocks.keys := by
    refine List.filter_eq_self.mpr fun p hp => ?_
    simp only [ne_eq, decide_not, Bool.not_eq_true', decide_eq_false_iff_not]
    rintro rfl
    exact hnull hp
  rw [freeCalls, hkeys, hall, State.returnAll, List.map_reverse]

/-- **`~State`** returns every tracked address once if the stream drains, and none otherwise. -/
theorem destroy_calls (hplace : Placement s) (hnull : nullptr ∉ s.allBlocks) (ans : DestroyAnswer) :
    (s.Drains ans → (s.destroy ans).calls = s.returnAll ans ++ s.calls) ∧
      (¬ s.Drains ans → (s.destroy ans).calls = s.calls) := by
  constructor
  · intro hdrains
    rw [destroy_calls_of_drains ans hdrains, freeCalls_entries hplace hnull]
  · intro hstays
    rw [destroy_of_not_drains ans hstays]

theorem properCalls_returns {stream : Option Stream} {answer : Ptr → Error} {ps : List Ptr}
    (hnodup : ps.Nodup) (hlive : ∀ p ∈ ps, p ∈ live calls) (h : ProperCalls calls) :
    ProperCalls ((ps.map fun p => .free stream p (answer p)).reverse ++ calls) := by
  induction ps generalizing calls with
  | nil => exact h
  | cons p ps ih =>
    rw [List.nodup_cons] at hnodup
    rw [List.map_cons, List.reverse_cons, List.append_assoc, List.singleton_append]
    refine ih hnodup.2 (fun q hq => ?_) ⟨hlive p List.mem_cons_self, h⟩
    have hqp : q ≠ p := fun hqp => hnodup.1 (hqp ▸ hq)
    simp only [live]
    split_ifs
    · exact (List.mem_erase_of_ne hqp).mpr (hlive q (List.mem_cons_of_mem _ hq))
    · exact hlive q (List.mem_cons_of_mem _ hq)

theorem properCalls_destroy (h : Conserved s) (hplace : Placement s) (hnull : nullptr ∉ s.allBlocks)
    (ans : DestroyAnswer) : ProperCalls (s.destroy ans).calls := by
  by_cases hdrains : s.Drains ans
  · rw [(destroy_calls hplace hnull ans).1 hdrains]
    exact properCalls_returns s.allBlocks.keys_nodup (fun p hp => (h.live_iff p).mpr hp) h.proper
  · rw [(destroy_calls hplace hnull ans).2 hdrains]
    exact h.proper

/-! ### Every run -/

/-- The calls made so far are proper, and until `~State` the live memory is the tracked memory. -/
structure Accounted (w : World) : Prop where
  invariant : Invariant w
  proper : ProperCalls w.state.calls
  conserved : w.closed = false → Conserved w.state

/-- An owner goes away, and `~State` with the last one. -/
theorem accounted_closeIfUnowned (hconserved : Conserved w.state) (hplace : Placement w.state)
    (hnull : nullptr ∉ w.state.allBlocks) (ans : DestroyAnswer) :
    ProperCalls (w.closeIfUnowned ans).state.calls ∧
      ((w.closeIfUnowned ans).closed = false → Conserved (w.closeIfUnowned ans).state) := by
  unfold World.closeIfUnowned
  split
  · exact ⟨properCalls_destroy hconserved hplace hnull ans, fun hopen => nomatch hopen⟩
  · exact ⟨hconserved.proper, fun _ => hconserved⟩

theorem Accounted.step (h : Accounted w) (hclean : x.1.Clean) (hstep : Step w x w') :
    Accounted w' := by
  obtain ⟨e, o⟩ := x
  have hinv := h.invariant
  have hplace := hinv.placement
  have hopen := hinv.closed_of_enabled hstep.1
  have hconserved := h.conserved hopen
  have hgo : ∀ {w' : World}, Conserved w'.state → ProperCalls w'.state.calls ∧
      (w'.closed = false → Conserved w'.state) := fun hc => ⟨hc.proper, fun _ => hc⟩
  have hreleased : ∀ l, Conserved (w.state.releaseFrozenBlocks l) := fun l => by
    rw [releaseFrozenBlocks_eq]
    exact hconserved.stay rfl rfl
  suffices hs : ProperCalls w'.state.calls ∧ (w'.closed = false → Conserved w'.state) from
    ⟨hinv.step hstep, hs.1, hs.2⟩
  cases hinv.effect_of_step hstep with
  | @failed e t size isExact ans s' hreq y hs =>
    obtain ⟨hans, hfailed, hcleanup⟩ : w.Answers ans ∧
        (ans.backend.status ≠ kSuccess → ans.backend.out = nullptr) ∧ ans.cleanup = kSuccess := by
      have := hstep.1
      cases hreq <;> exact ⟨this.2, hclean⟩
    exact hgo (hconserved.untouched hs hans.2.2 hfailed hcleanup)
  | @allocated e t size isExact ans p s' hreq hs =>
    have hans : w.Answers ans := by
      have := hstep.1
      cases hreq <;> exact this.2
    obtain ⟨b, hserved⟩ := hs.served (hinv.sound hopen) hans.fresh
    exact hgo (hconserved.served hserved)
  | released =>
    refine hgo (hconserved.stay (release_allBlocks _ _) ?_)
    unfold State.release State.giveBack
    split_ifs <;> rfl
  | retained =>
    refine hgo (hconserved.stay (retain_allBlocks _ _) ?_)
    unfold State.retain
    split_ifs <;> rfl
  | dropped d => exact hgo (hreleased d.retained)
  | handled d => exact hgo (hreleased d.blocks)
  | canceled => exact hgo ((hreleased _).stay rfl rfl)
  | frozen =>
    exact hgo (hconserved.stay (freeze_allBlocks _ _ _) (freeze_calls _ _ _))
  | trimmed trimAns o hs => exact hgo (hconserved.trimSteps hplace hs).1
  | leaseDropped l ans hl =>
    refine accounted_closeIfUnowned (hreleased l.blocks) (hplace.releaseFrozenBlocks _) ?_ ans
    show nullptr ∉ (w.state.releaseFrozenBlocks l.blocks).allBlocks
    rw [releaseFrozenBlocks_eq]
    exact hinv.nonnull
  | poolDropped ans hpool hcommits =>
    exact accounted_closeIfUnowned (by exact hconserved) (by exact hplace) (by exact hinv.nonnull)
      ans
  | _ => exact hgo (hconserved.stay rfl rfl)

theorem accounted_of_run (h : PoolRun trace w) (hclean : ∀ x ∈ trace, x.1.Clean) : Accounted w := by
  obtain ⟨stream, isNvidia, hrun⟩ := h
  refine hrun.invariant_of_labels (fun x => x.1.Clean) Accounted
    (fun _ _ _ hacc hx hstep => hacc.step hx hstep) hclean ⟨.initial stream isNvidia, trivial, ?_⟩
  exact fun _ => ⟨trivial, fun p => by simp [World.initial, State.initial, live]⟩

/-- The step in which the last owner goes away runs `~State`. -/
theorem closing_step (h : Invariant w) (hstep : Step w x w') (hclosed : w'.closed = true) :
    ∃ ans, x.1.destroyAnswer = some ans ∧
      (w.state.Drains ans → w'.state.calls = w.state.returnAll ans ++ w.state.calls) ∧
      (¬ w.state.Drains ans → w'.state.calls = w.state.calls) := by
  obtain ⟨e, o⟩ := x
  have hopen := h.closed_of_enabled hstep.1
  cases h.effect_of_step hstep with
  | leaseDropped l ans hl =>
    refine ⟨ans, rfl, ?_⟩
    rw [World.closeIfUnowned_of_closed (by exact hopen) hclosed]
    show (_ → ((w.state.releaseFrozenBlocks l.blocks).destroy ans).calls = _) ∧
      (_ → ((w.state.releaseFrozenBlocks l.blocks).destroy ans).calls = _)
    have hcalls := destroy_calls (h.placement.releaseFrozenBlocks l.blocks)
      (by rw [releaseFrozenBlocks_eq]; exact h.nonnull) ans
    rw [releaseFrozenBlocks_eq] at hcalls ⊢
    exact hcalls
  | poolDropped ans hpool hcommits =>
    refine ⟨ans, rfl, ?_⟩
    rw [World.closeIfUnowned_of_closed (by exact hopen) hclosed]
    exact destroy_calls h.placement h.nonnull ans
  | _ => exact absurd (hopen.symm.trans hclosed) (by simp)

/-- An address with an owner is not given back while the pool or a lease is there. -/
theorem not_freed_of_owned (h : PoolRun trace w) (hstep : Step w x w') (hopen : w'.closed = false)
    (hp : p ≠ nullptr) (howned : 0 < ledger p trace) : NotFreed p w.state w'.state := by
  have hinv := invariant_of_run h
  obtain ⟨stream, isNvidia, hrun⟩ := h
  have hlaw := useCountAt_of_run (Invariant.initial stream isNvidia) hrun hp
  rw [useCountAt_initial] at hlaw
  cases hlookup : w.state.allBlocks.lookup p with
  | none =>
    rw [useCountAt_of_untracked hlookup] at hlaw
    omega
  | some b =>
    rw [useCountAt_of_lookup hlookup] at hlaw
    refine ((hinv.effect_of_step hstep).kept hinv hstep.1 hopen hlookup fun htrim => ?_).notFreed
    have := ((hinv.placement.trimmable_iff ⟨p, hlookup⟩).mp htrim).1
    omega

/-- **Conservation of backing memory.** While the backend leaves nothing behind where it fails:
until `~State` the addresses handed out and not taken back are those in `all_blocks_`; none is
returned twice; `~State` runs when the last owner goes away; until then no step returns an address
with an owner; and the step that runs it returns every tracked address once if the stream drains,
and none if it does not. -/
theorem backing_conserved (h : PoolRun trace w) (hclean : ∀ x ∈ trace, x.1.Clean) :
    (w.closed = false → ∀ p, p ∈ live w.state.calls ↔ p ∈ w.state.allBlocks) ∧
    NeverReturnedTwice w.state.calls ∧
    (w.closed = true ↔ w.poolAlive = false ∧ w.leases = []) ∧
    ∀ x w', Step w x w' →
      (w'.closed = false → ∀ p, p ≠ nullptr → 0 < ledger p trace → NotFreed p w.state w'.state) ∧
      (w'.closed = true → ∃ ans, x.1.destroyAnswer = some ans ∧
        (w.state.Drains ans → w'.state.calls = w.state.returnAll ans ++ w.state.calls) ∧
        (¬ w.state.Drains ans → w'.state.calls = w.state.calls)) := by
  have hacc := accounted_of_run h hclean
  exact ⟨fun hopen => (hacc.conserved hopen).live_iff, hacc.proper.neverReturnedTwice,
    hacc.invariant.closed_iff, fun x w' hstep =>
      ⟨fun hopen p hp howned => not_freed_of_owned h hstep hopen hp howned,
        fun hclosed => closing_step hacc.invariant hstep hclosed⟩⟩

/-- A pool with one trimmed block, one block given back and one failed registration. -/
def wornPool : World :=
  ((World.initial (some 5) true).runEvents
    [.allocate 1 100 (.granting 1 4096), .deallocate 1 4096 true, .trim 1 .granting,
      .allocate 1 100 { AllocAnswer.granting 2 4096 with emplace := false },
      .allocateExact 2 512 (.granting 3 4096), .deallocate 2 4096 true]).1

theorem backing_conserved_of_worn :
    (∀ p, p ∈ live wornPool.state.calls ↔ p ∈ wornPool.state.allBlocks) ∧
    NeverReturnedTwice wornPool.state.calls ∧
    ∃ ans, (Event.destroyPool .granting).destroyAnswer = some ans ∧
      (wornPool.state.Drains ans → (wornPool.perform (.destroyPool .granting)).1.state.calls =
        wornPool.state.returnAll ans ++ wornPool.state.calls) ∧
      (¬ wornPool.state.Drains ans →
        (wornPool.perform (.destroyPool .granting)).1.state.calls = wornPool.state.calls) :=
  have h := backing_conserved (poolRun_runEvents (by decide) : PoolRun _ wornPool) (by decide)
  ⟨h.1 rfl, h.2.1, (h.2.2.2 (.destroyPool .granting, .ok .none) _ ⟨by decide, rfl⟩).2 rfl⟩

end InfiniRT.Pool
