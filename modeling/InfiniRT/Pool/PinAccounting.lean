import InfiniRT.Pool.PinSafety
import Mathlib.Algebra.BigOperators.Group.Finset.Basic

/-!
# Pins are counted exactly

The pin count of a block is the number of its holders: the leases and the commits that list it, and
the open transaction.  A failing commit drops each pin of its transaction once, whichever of its
allocations failed and whatever other threads do meanwhile.  Proved:

* **`dropped_by_failed_commit`** — a commit that throws drops each pin of its transaction once;
* **`pin_accounting`** — in every reachable state the pins are counted exactly.
-/

namespace InfiniRT.Pool

open InfiniRT.Library

variable {w w' w₀ w₁ w₂ : World} {e : Event} {o : Outcome} {s : State} {b : BlockId} {g : ℕ}
  {t : ThreadId} {trace since : List (Event × Outcome)}

/-- The leases and the commits that hold a pin on the block. -/
def World.holders (w : World) (b : BlockId) : ℕ :=
  w.leases.countP (fun l => b ∈ l.blocks) + w.commits.countP (fun c => b ∈ c.held)

/-- The blocks somebody holds a pin on. -/
def World.pinned (w : World) : Finset BlockId :=
  (w.held ++ w.state.captureFrozenBlocks).toFinset

/-- **Exact pin accounts.** -/
structure PinAccounts (w : World) : Prop where
  count : ∀ b, w.state.Tracked b →
    (w.state.blocks b).pinCount =
      w.holders b + if b ∈ w.state.captureFrozenBlocks then 1 else 0
  nodup : w.state.captureFrozenBlocks.Nodup
  members : ∀ b, b ∈ w.state.captureFrozenBlockSet ↔ b ∈ w.state.captureFrozenBlocks
  idle : w.state.pinnedMode = false →
    w.state.captureFrozenBlocks = [] ∧ w.state.captureFrozenBlockSet = ∅
  bytes : w.state.pinnedBytes = ∑ b ∈ w.pinned, (w.state.blocks b).size

/-- A block is listed as often as lists without repetitions have it. -/
theorem count_flatMap_of_nodup {α : Type} {f : α → List BlockId} {l : List α}
    (h : ∀ x ∈ l, (f x).Nodup) (b : BlockId) :
    (l.flatMap f).count b = l.countP fun x => b ∈ f x := by
  induction l with
  | nil => rfl
  | cons x l ih =>
    rw [List.flatMap_cons, List.count_append, ih fun y hy => h y (List.mem_cons_of_mem _ hy),
      List.countP_cons, (h x List.mem_cons_self).count, Nat.add_comm]
    simp

theorem count_held (h : Owners w) (b : BlockId) : w.held.count b = w.holders b := by
  rw [World.held, List.count_append, count_flatMap_of_nodup h.commitNodup,
    count_flatMap_of_nodup h.leaseNodup, World.holders, Nat.add_comm]

/-- Distinct entries of `all_blocks_` are distinct blocks. -/
theorem Placement.entries_nodup (h : Placement s) : (s.allBlocks.entries.map (·.2)).Nodup := by
  have hkeys : (s.allBlocks.entries.map fun entry => (s.blocks entry.2).ptr).Nodup := by
    have hptr : s.allBlocks.entries.map (fun entry => (s.blocks entry.2).ptr) =
        s.allBlocks.entries.map (·.1) := by
      refine List.map_congr_left fun entry hentry => ?_
      exact h.address entry.1 entry.2 (AList.mem_lookup_iff.mpr hentry)
    rw [hptr]
    exact s.allBlocks.nodupKeys
  refine List.Nodup.of_map (fun b => (s.blocks b).ptr) ?_
  rw [List.map_map]
  exact hkeys

/-- `pinned_bytes` adds up the sizes of the pinned blocks. -/
theorem pinnedBytes_eq (h : Invariant w) :
    w.state.pinnedBytes = ∑ b ∈ w.pinned, (w.state.blocks b).size := by
  have hsum : w.state.pinnedBytes = ((w.state.allBlocks.entries.map (·.2)).map fun b =>
      if 0 < (w.state.blocks b).pinCount then (w.state.blocks b).size else 0).sum := by
    rw [State.pinnedBytes, List.map_map]
    rfl
  rw [hsum, ← List.sum_toFinset _ h.placement.entries_nodup, ← Finset.sum_filter]
  congr 1
  ext b
  rw [Finset.mem_filter, List.mem_toFinset, ← State.tracked_iff_mem_entries, World.pinned,
    List.mem_toFinset, List.mem_append]
  constructor
  · rintro ⟨hb, hpin⟩
    exact (h.pins.pinCount_pos hb).mp hpin
  · intro hb
    exact ⟨h.pins.tracked b hb, (h.pins.pinCount_pos (h.pins.tracked b hb)).mpr hb⟩

theorem pinAccounts_of_invariant (h : Invariant w) : PinAccounts w where
  count b hb := by
    rw [h.pins.count b hb, count_held h.owners, h.pins.nodup.count]
  nodup := h.pins.nodup
  members := h.pins.members
  idle hmode := by
    have hempty := h.pins.idle hmode
    refine ⟨hempty, Finset.eq_empty_of_forall_notMem fun b hb => ?_⟩
    rw [h.pins.members, hempty] at hb
    cases hb
  bytes := pinnedBytes_eq h

/-! ### Dropping pins -/

/-- The blocks one step of a commit passes to `release_frozen_blocks_`. -/
def PendingCommit.drops (c : PendingCommit) (granted : Bool) : List BlockId :=
  match c.stage, granted with
  | .newPinLease, false | .controlBlock, false => c.retained
  | .handler, _ => c.blocks
  | _, _ => []

/-- The blocks an event passes to `release_frozen_blocks_` for the commit of the transaction `g`. -/
def droppedBy (g : ℕ) : Event × Outcome → List BlockId
  | (.advanceCommit c granted, _) => if c.generation = g then c.drops granted else []
  | _ => []

/-- The guard `pin_count > 0` never hides a pin that is dropped twice: the holders have as many
pins as they drop. -/
theorem pinCount_release (h : Invariant w) {l rest : List BlockId} (hl : w.held.Perm (l ++ rest))
    (b : BlockId) :
    ((w.state.releaseFrozenBlocks l).blocks b).pinCount + l.count b =
      (w.state.blocks b).pinCount := by
  rw [releaseFrozenBlocks_eq]
  show (w.state.blocks b).pinCount - l.count b + l.count b = (w.state.blocks b).pinCount
  refine Nat.sub_add_cancel ?_
  by_cases hb : w.state.Tracked b
  · rw [h.pins.count b hb, hl.count_eq, List.count_append]
    omega
  · have hmem : b ∉ l := fun hmem =>
      hb (h.pins.tracked b (.inl (hl.mem_iff.mpr (List.mem_append_left _ hmem))))
    rw [List.count_eq_zero_of_not_mem hmem]
    exact Nat.zero_le _

/-- A step of a commit lowers the pin counts by what it drops. -/
theorem pinCount_advance (h : Invariant w) {c : PendingCommit} {granted : Bool}
    (hstep : Step w (.advanceCommit c granted, o) w') (b : BlockId) :
    (w'.state.blocks b).pinCount + (c.drops granted).count b = (w.state.blocks b).pinCount := by
  have hstaged := h.owners.staged c
  have hperm := fun hd => held_perm_of_commit (w := w) (d := c) hd
  cases h.effect_of_step hstep with
  | failed hreq => cases hreq
  | allocated hreq => cases hreq
  | rejected x he => exact absurd rfl (he c granted)
  | builtPinState d hd hstage => simp [PendingCommit.drops, hstage, World.setCommit]
  | noPinState d hd hstage => simp [PendingCommit.drops, hstage, World.setCommit]
  | builtPinLease d hd hstage => simp [PendingCommit.drops, hstage, World.setCommit]
  | dropped d hd hstage =>
    have hblocks := (hstaged hd).blocks_eq_nil hstage
    have hdrops : c.drops false = c.retained := by
      rcases hstage with hstage | hstage <;> simp [PendingCommit.drops, hstage]
    have hheld := hperm hd
    rw [PendingCommit.held, hblocks, List.nil_append] at hheld
    rw [hdrops]
    exact pinCount_release h hheld b
  | leased d hd hstage => simp [PendingCommit.drops, hstage]
  | handled d granted hd hstage =>
    have hdrops : c.drops granted = c.blocks := by
      cases granted <;> simp [PendingCommit.drops, hstage]
    have hheld := hperm hd
    rw [PendingCommit.held, List.append_assoc] at hheld
    rw [hdrops]
    exact pinCount_release h hheld b

/-- `cancel_pin_mode` lowers the pin count of each frozen block by one. -/
theorem pinCount_cancel (h : Invariant w) (hstep : Step w (.cancelPinMode t, .ok .none) w')
    (b : BlockId) :
    (w'.state.blocks b).pinCount + w.state.captureFrozenBlocks.count b =
      (w.state.blocks b).pinCount := by
  cases h.effect_of_step hstep with
  | canceled howner =>
    show ((w.state.releaseFrozenBlocks _).blocks b).pinCount + _ = _
    rw [releaseFrozenBlocks_eq]
    refine Nat.sub_add_cancel ?_
    by_cases hb : w.state.Tracked b
    · rw [h.pins.count b hb]
      exact Nat.le_add_left _ _
    · rw [List.count_eq_zero_of_not_mem fun hmem => hb (h.pins.tracked b (.inr hmem))]
      exact Nat.zero_le _

/-- A commit of another transaction drops nothing for this one. -/
theorem droppedBy_of_ne {c : PendingCommit} {granted : Bool} (h : c.generation ≠ g) :
    droppedBy g (.advanceCommit c granted, o) = [] := if_neg h

theorem droppedBy_self {c : PendingCommit} {granted : Bool} (h : c.generation = g) :
    droppedBy g (.advanceCommit c granted, o) = c.drops granted := if_pos h

theorem droppedBy_of_requests {size : ℕ} {isExact : Bool} {ans : AllocAnswer}
    (hreq : e.Requests t size isExact ans) : droppedBy g (e, o) = [] := by
  cases hreq <;> rfl

/-- The commit of the transaction `g` has dropped `acc` and still holds the rest of `l`. -/
structure Dropping (g : ℕ) (l acc : List BlockId) (w : World) : Prop where
  invariant : Invariant w
  past : w.Past g
  rest : ∀ c ∈ w.commits, c.generation = g → acc ++ c.held = l

theorem generation_ne_of_mem_erase (h : Owners w) {c d : PendingCommit} (hd : d ∈ w.commits)
    (hc : c ∈ w.commits.erase d) : d.generation ≠ c.generation := by
  have hnodup := (List.nodup_append.mp h.distinct).1
  rw [((List.perm_cons_erase hd).map PendingCommit.generation).nodup_iff, List.map_cons,
    List.nodup_cons] at hnodup
  intro hgen
  exact hnodup.1 (List.mem_map.mpr ⟨c, hc, hgen.symm⟩)

/-- One step of any thread, seen from the commit of one transaction. -/
theorem Dropping.step {l acc : List BlockId} {x : Event × Outcome} (h : Dropping g l acc w)
    (hstep : Step w x w') : Dropping g l (acc ++ droppedBy g x) w' := by
  obtain ⟨e, o⟩ := x
  have hinv := h.invariant
  have he := hinv.effect_of_step hstep
  refine ⟨hinv.step hstep, h.past.effect hinv hstep.1 he, ?_⟩
  -- The commits of other transactions come and go; only the steps of this one matter.
  have hidle : droppedBy g (e, o) = [] → w'.commits = w.commits →
      ∀ c ∈ w'.commits, c.generation = g → acc ++ droppedBy g (e, o) ++ c.held = l := by
    intro hnone hcommits c hc hgen
    rw [hnone, List.append_nil]
    exact h.rest c (hcommits ▸ hc) hgen
  have hset : ∀ {d d' : PendingCommit} {granted : Bool} {o' : Outcome}, d ∈ w.commits →
      d'.generation = d.generation → d.drops granted ++ d'.held = d.held →
      ∀ c ∈ d' :: w.commits.erase d, c.generation = g →
        acc ++ droppedBy g (.advanceCommit d granted, o') ++ c.held = l := by
    intro d d' granted o' hd hgen hheld c hc hcgen
    rcases List.mem_cons.mp hc with rfl | hc
    · rw [droppedBy_self (hgen.symm.trans hcgen), List.append_assoc, hheld]
      exact h.rest d hd (hgen.symm.trans hcgen)
    · rw [droppedBy_of_ne (hcgen ▸ generation_ne_of_mem_erase hinv.owners hd hc),
        List.append_nil]
      exact h.rest c (List.mem_of_mem_erase hc) hcgen
  have hgone : ∀ {d : PendingCommit} {granted : Bool} {o' : Outcome}, d ∈ w.commits →
      ∀ c ∈ w.commits.erase d, c.generation = g →
        acc ++ droppedBy g (.advanceCommit d granted, o') ++ c.held = l := by
    intro d granted o' hd c hc hcgen
    rw [droppedBy_of_ne (hcgen ▸ generation_ne_of_mem_erase hinv.owners hd hc),
      List.append_nil]
    exact h.rest c (List.mem_of_mem_erase hc) hcgen
  have hstaged := hinv.owners.staged
  cases he with
  | failed hreq => exact hidle (droppedBy_of_requests hreq) rfl
  | allocated hreq => exact hidle (droppedBy_of_requests hreq) rfl
  | rejected x he =>
    refine hidle ?_ rfl
    cases e with
    | advanceCommit c granted => exact absurd rfl (he c granted)
    | _ => rfl
  | @committed t howner =>
    intro c hc hgen
    rcases List.mem_cons.mp hc with rfl | hc
    · have hlt := h.past.2 howner.1
      have : w.state.captureGeneration = g := hgen
      omega
    · exact (List.append_nil acc).symm ▸ h.rest c hc hgen
  | builtPinState d hd hstage =>
    have hretained := (hstaged d hd).retained_eq_nil (.inl hstage)
    exact hset hd rfl (by
      simp [PendingCommit.drops, hstage, PendingCommit.held, PendingCommit.withPinState,
        hretained])
  | noPinState d hd hstage =>
    exact hset hd rfl (by
      simp [PendingCommit.drops, hstage, PendingCommit.held, PendingCommit.failed])
  | builtPinLease d hd hstage =>
    exact hset hd rfl (by
      simp [PendingCommit.drops, hstage, PendingCommit.held, PendingCommit.withPinLease])
  | dropped d hd hstage =>
    have hblocks := (hstaged d hd).blocks_eq_nil hstage
    exact hset hd rfl (by
      rcases hstage with hstage | hstage <;>
        simp [PendingCommit.drops, hstage, PendingCommit.held, PendingCommit.dropped, hblocks])
  | leased d hd hstage => exact hgone hd
  | handled d granted hd hstage => exact hgone hd
  | leaseDropped lease destroyAns hl =>
    refine hidle rfl ?_
    rw [World.closeIfUnowned_rest]
  | poolDropped destroyAns hpool hcommits =>
    refine hidle rfl ?_
    rw [World.closeIfUnowned_rest]
  | _ => exact hidle rfl rfl

/-- **A commit that throws drops each pin of its transaction once**, whatever other threads do
between its steps. -/
theorem dropped_by_failed_commit {c d : PendingCommit} {granted : Bool} {x : Exn}
    (h : Invariant w) (hcommit : Step w (.commitPinMode t, .ok (.committing c)) w₁)
    (hrun : Run Step w₁ since w₂) (hfail : Step w₂ (.advanceCommit d granted, .error x) w')
    (hgen : d.generation = c.generation) :
    (since ++ [(Event.advanceCommit d granted, Except.error x)]).flatMap
      (droppedBy c.generation) = w.state.captureFrozenBlocks := by
  have hinv₁ := h.step hcommit
  have hstart : Dropping c.generation w.state.captureFrozenBlocks [] w₁ := by
    cases h.effect_of_step hcommit with
    | @committed t howner =>
      refine ⟨hinv₁, ⟨Nat.le_refl _, fun hpinned => nomatch hpinned⟩, ?_⟩
      intro d hd hdgen
      rcases List.mem_cons.mp hd with rfl | hd
      · simp [PendingCommit.held, State.beginCommit]
      · exact absurd (List.mem_append_left _ (List.mem_map.mpr ⟨d, hd, hdgen⟩))
          (h.owners.captureGeneration_notMem howner.1)
  have hmid := hrun.history
    (fun trace => Dropping c.generation w.state.captureFrozenBlocks
      (trace.flatMap (droppedBy c.generation)))
    (fun trace w x w' hd hstep => by
      rw [List.flatMap_append, List.flatMap_singleton]
      exact hd.step hstep) hstart
  have hinv₂ := hmid.invariant
  rw [List.flatMap_append, List.flatMap_singleton, droppedBy_self hgen]
  cases hinv₂.effect_of_step hfail with
  | failed hreq => cases hreq
  | rejected x he => exact absurd rfl (he d granted)
  | handled d granted hd hstage =>
    have hretained := (hinv₂.owners.staged d hd).retained_eq_nil (.inr hstage)
    have hdrops : d.drops granted = d.held := by
      cases granted <;> simp [PendingCommit.drops, hstage, PendingCommit.held, hretained]
    rw [hdrops]
    exact hmid.rest d hd hgen

/-- The calls that open and close a transaction. -/
inductive PinModeCall : Event → Prop
  | begin (t : ThreadId) : PinModeCall (.beginPinMode t)
  | commit (t : ThreadId) : PinModeCall (.commitPinMode t)
  | cancel (t : ThreadId) : PinModeCall (.cancelPinMode t)

/-- A rejected `begin_pin_mode`, `commit_pin_mode` or `cancel_pin_mode` changes nothing. -/
theorem eq_of_rejected {x : Exn} (h : Invariant w) (he : PinModeCall e)
    (hstep : Step w (e, .error x) w') : w' = w := by
  cases he <;> cases h.effect_of_step hstep with
  | failed hreq => cases hreq
  | rejected => rfl

/-- **Exact pin accounting.** In every reachable state the pins are counted exactly.  A rejected
call of a transaction changes nothing; cancelling and the steps of a commit lower each pin count by
what they drop; a commit that throws has dropped the frozen blocks of its transaction, each once;
and with no holder left nothing is pinned.  (Pin counts and bytes are natural numbers: the statement
is about runs in which no `std::size_t` wraps.) -/
theorem pin_accounting (h : PoolRun trace w) :
    PinAccounts w ∧
    (∀ e x w', PinModeCall e → Step w (e, .error x) w' → w' = w) ∧
    (∀ t w', Step w (.cancelPinMode t, .ok .none) w' → ∀ b,
      (w'.state.blocks b).pinCount + w.state.captureFrozenBlocks.count b =
        (w.state.blocks b).pinCount) ∧
    (∀ c granted o w', Step w (.advanceCommit c granted, o) w' → ∀ b,
      (w'.state.blocks b).pinCount + (c.drops granted).count b = (w.state.blocks b).pinCount) ∧
    (∀ t c w₁ since w₂ d granted x w', Step w (.commitPinMode t, .ok (.committing c)) w₁ →
      Run Step w₁ since w₂ → Step w₂ (.advanceCommit d granted, .error x) w' →
      d.generation = c.generation →
      (since ++ [(Event.advanceCommit d granted, Except.error x)]).flatMap
        (droppedBy c.generation) = w.state.captureFrozenBlocks) ∧
    (w.leases = [] → w.commits = [] → w.state.pinnedMode = false → w.state.pinnedBytes = 0) := by
  have hinv := invariant_of_run h
  have haccounts := pinAccounts_of_invariant hinv
  refine ⟨haccounts, fun e x w' he hstep => eq_of_rejected hinv he hstep,
    fun t w' hstep => pinCount_cancel hinv hstep,
    fun c granted o w' hstep => pinCount_advance hinv hstep,
    fun t c w₁ since w₂ d granted x w' hcommit hrun hfail hgen =>
      dropped_by_failed_commit hinv hcommit hrun hfail hgen, ?_⟩
  intro hleases hcommits hmode
  have hnone : w.pinned = ∅ := by
    simp [World.pinned, World.held, hleases, hcommits, (haccounts.idle hmode).1]
  rw [haccounts.bytes, hnone, Finset.sum_empty]

/-- Thread 7 has left the locked section of its commit. -/
def committingPool : World := (frozenPool.perform (.commitPinMode 7)).1

/-- The lease of that commit found no memory for its control block. -/
def unwoundPool : World :=
  (committingPool.runEvents [.advanceCommit ⟨7, 1, [1], [], .makePinState⟩ true,
    .advanceCommit ⟨7, 1, [], [1], .newPinLease⟩ true,
    .advanceCommit ⟨7, 1, [], [1], .controlBlock⟩ false]).1

theorem pin_accounting_of_failed_commit :
    PinAccounts frozenPool ∧
      [(Event.advanceCommit ⟨7, 1, [1], [], .makePinState⟩ true,
          Except.ok (Value.committing ⟨7, 1, [], [1], .newPinLease⟩)),
        (.advanceCommit ⟨7, 1, [], [1], .newPinLease⟩ true,
          .ok (.committing ⟨7, 1, [], [1], .controlBlock⟩)),
        (.advanceCommit ⟨7, 1, [], [1], .controlBlock⟩ false,
          .ok (.committing ⟨7, 1, [], [], .handler⟩)),
        (.advanceCommit ⟨7, 1, [], [], .handler⟩ true, .error .badAlloc)].flatMap (droppedBy 1) =
      frozenPool.state.captureFrozenBlocks :=
  have h := pin_accounting (poolRun_runEvents (show (World.initial none false).CanRun
    [.beginPinMode 7, .allocate 7 100 (.granting 1 4096)] by decide) : PoolRun _ frozenPool)
  ⟨h.1, h.2.2.2.2.1 7 ⟨7, 1, [1], [], .makePinState⟩ committingPool _ unwoundPool
    ⟨7, 1, [], [], .handler⟩ true .badAlloc (unwoundPool.perform (.advanceCommit
      ⟨7, 1, [], [], .handler⟩ true)).1 ⟨by decide, rfl⟩ (World.run_runEvents (by decide))
    ⟨by decide, rfl⟩ rfl⟩

end InfiniRT.Pool
