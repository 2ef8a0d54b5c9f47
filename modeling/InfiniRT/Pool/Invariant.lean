import InfiniRT.Pool.Effects

/-!
# The invariant of a pool and its owners

`Invariant w` holds of a pool that was just constructed and is kept by every step, so it holds in
every reachable state (`invariant_of_run`).  It joins the soundness of the pool's state with what is
known of the commits and the leases: a commit keeps its pins in one of its two vectors at a time,
no holder lists a block twice, and each pin transaction has at most one holder.  Proved:

* **`effect`** — every effect keeps the invariant;
* **`invariant_of_run`** — it holds in every reachable state.
-/

namespace InfiniRT.Pool

open InfiniRT.Library

variable {w w' : World} {e : Event} {o : Outcome} {s' : State} {c d d' : PendingCommit}
  {l : Lease} {b : BlockId}

/-- The blocks a commit holds pins on. -/
def PendingCommit.held (c : PendingCommit) : List BlockId := c.blocks ++ c.retained

/-- The vector a commit's stage does not use is empty. -/
def PendingCommit.Staged (c : PendingCommit) : Prop :=
  match c.stage with
  | .makePinState | .handler => c.retained = []
  | .newPinLease | .controlBlock => c.blocks = []

namespace PendingCommit.Staged

variable {c : PendingCommit}

theorem retained_eq_nil (h : c.Staged) (hstage : c.stage = .makePinState ∨ c.stage = .handler) :
    c.retained = [] := by
  rcases hstage with hstage | hstage <;> simpa only [PendingCommit.Staged, hstage] using h

theorem blocks_eq_nil (h : c.Staged) (hstage : c.stage = .newPinLease ∨ c.stage = .controlBlock) :
    c.blocks = [] := by
  rcases hstage with hstage | hstage <;> simpa only [PendingCommit.Staged, hstage] using h

end PendingCommit.Staged

/-- The blocks pinned from outside the state, once for each holder. -/
def World.held (w : World) : List BlockId :=
  w.commits.flatMap PendingCommit.held ++ w.leases.flatMap (·.blocks)

/-- The pin transactions the holders came from. -/
def World.generations (w : World) : List ℕ :=
  w.commits.map (·.generation) ++ w.leases.map (·.generation)

/-- What holds of the commits and the leases of a pool. -/
structure Owners (w : World) : Prop where
  staged : ∀ c ∈ w.commits, c.Staged
  commitNodup : ∀ c ∈ w.commits, c.held.Nodup
  leaseNodup : ∀ l ∈ w.leases, l.blocks.Nodup
  distinct : w.generations.Nodup
  past : ∀ g ∈ w.generations, g ≤ w.state.captureGeneration ∧
    (w.state.pinnedMode = true → g < w.state.captureGeneration)
  pooled : w.poolAlive = false → w.commits = []

/-- **The invariant of a pool and its owners.** -/
structure Invariant (w : World) : Prop where
  placement : Placement w.state
  pins : Pins w.held w.state
  backing : w.closed = false → Backing w.state
  nonnull : nullptr ∉ w.state.allBlocks
  owners : Owners w
  closed_iff : w.closed = true ↔ w.poolAlive = false ∧ w.leases = []

namespace World

variable {ans : DestroyAnswer}

/-- While an owner is left nothing happens. -/
theorem closeIfUnowned_of_open (h : (w.closeIfUnowned ans).closed = false) :
    w.closeIfUnowned ans = w := by
  unfold closeIfUnowned at h ⊢
  split at h
  · cases h
  · rw [if_neg ‹_›]

/-- A pool that is closed now and was not before has run `~State`. -/
theorem closeIfUnowned_of_closed (hopen : w.closed = false)
    (h : (w.closeIfUnowned ans).closed = true) :
    (w.closeIfUnowned ans).state = w.state.destroy ans := by
  unfold closeIfUnowned at h ⊢
  split at h
  · rw [if_pos ‹_›]
  · exact absurd (hopen.symm.trans h) (by simp)

/-- Of the pool's state `~State` changes the stream and the calls only. -/
theorem closeIfUnowned_rest (w : World) (ans : DestroyAnswer) :
    w.closeIfUnowned ans = { w with
      state := { w.state with
        stream := (w.closeIfUnowned ans).state.stream
        calls := (w.closeIfUnowned ans).state.calls }
      closed := (w.closeIfUnowned ans).closed } := by
  unfold closeIfUnowned
  split
  · simp only
    rw [← destroy_rest]
  · rfl

end World

namespace Owners

/-- An operation that opens no transaction. -/
theorem call (h : Owners w) (hgen : s'.captureGeneration = w.state.captureGeneration)
    (hmode : s'.pinnedMode = true → w.state.pinnedMode = true) :
    Owners { w with state := s' } := by
  refine ⟨h.staged, h.commitNodup, h.leaseNodup, h.distinct, ?_, h.pooled⟩
  intro g hg
  have hpast := h.past g hg
  simp only [hgen]
  exact ⟨hpast.1, fun hpinned => hpast.2 (hmode hpinned)⟩

/-- An operation that leaves the transaction alone. -/
theorem call_of_transaction (h : Owners w) (hs : s'.transaction = w.state.transaction) :
    Owners { w with state := s' } := by
  have hsame : s'.pinnedMode = w.state.pinnedMode := congrArg Transaction.pinnedMode hs
  exact h.call (congrArg Transaction.captureGeneration hs) fun hmode => hsame ▸ hmode

/-- A new transaction is younger than every holder. -/
theorem openPinMode (h : Owners w) (t : ThreadId) :
    Owners { w with state := w.state.openPinMode t } := by
  refine ⟨h.staged, h.commitNodup, h.leaseNodup, h.distinct, ?_, h.pooled⟩
  intro g hg
  have hpast := (h.past g hg).1
  simp only [State.openPinMode]
  exact ⟨by omega, fun _ => by omega⟩

/-- The transaction that is open has no holder yet. -/
theorem captureGeneration_notMem (h : Owners w) (hmode : w.state.pinnedMode = true) :
    w.state.captureGeneration ∉ w.generations := fun hg =>
  absurd ((h.past _ hg).2 hmode) (Nat.lt_irrefl _)

/-- A commit starts. -/
theorem committed (h : Owners w) {t : ThreadId} (hmode : w.state.pinnedMode = true)
    (hnodup : w.state.captureFrozenBlocks.Nodup) (hpool : w.poolAlive = true) :
    Owners { w with
      state := w.state.closePinMode
      commits := w.state.beginCommit t :: w.commits } := by
  refine ⟨?_, ?_, h.leaseNodup, ?_, ?_, ?_⟩
  · intro c hc
    rcases List.mem_cons.mp hc with rfl | hc
    · rfl
    · exact h.staged c hc
  · intro c hc
    rcases List.mem_cons.mp hc with rfl | hc
    · simpa [PendingCommit.held, State.beginCommit] using hnodup
    · exact h.commitNodup c hc
  · exact List.nodup_cons.mpr ⟨h.captureGeneration_notMem hmode, h.distinct⟩
  · intro g hg
    refine ⟨?_, fun hclosed => nomatch hclosed⟩
    rcases List.mem_cons.mp hg with rfl | hg
    · exact Nat.le_refl _
    · exact (h.past g hg).1
  · intro hpool'
    rw [hpool] at hpool'
    cases hpool'

theorem generations_setCommit (hd : d ∈ w.commits) (hgen : d'.generation = d.generation) :
    (w.setCommit d d').generations.Perm w.generations := by
  refine List.Perm.append_right _ ?_
  show (d'.generation :: (w.commits.erase d).map _).Perm _
  rw [hgen]
  exact ((List.perm_cons_erase hd).map _).symm

/-- A commit goes on to its next stage. -/
theorem setCommit (h : Owners w) (hd : d ∈ w.commits) (hstaged : d'.Staged)
    (hheld : d'.held.Nodup) (hgen : d'.generation = d.generation) :
    Owners (w.setCommit d d') := by
  have hperm := generations_setCommit hd hgen
  refine ⟨?_, ?_, h.leaseNodup, hperm.nodup_iff.mpr h.distinct, ?_, ?_⟩
  · intro c hc
    rcases List.mem_cons.mp hc with rfl | hc
    · exact hstaged
    · exact h.staged c (List.mem_of_mem_erase hc)
  · intro c hc
    rcases List.mem_cons.mp hc with rfl | hc
    · exact hheld
    · exact h.commitNodup c (List.mem_of_mem_erase hc)
  · exact fun g hg => h.past g (hperm.mem_iff.mp hg)
  · intro hpool
    rw [h.pooled hpool] at hd
    cases hd

/-- A commit returns its lease. -/
theorem leased (h : Owners w) (hd : d ∈ w.commits) :
    Owners { w with commits := w.commits.erase d, leases := d.lease :: w.leases } := by
  have hperm : ((w.commits.erase d).map (·.generation) ++
      (d.lease :: w.leases).map (·.generation)).Perm w.generations := by
    refine List.perm_middle.trans ?_
    exact List.Perm.append_right (w.leases.map (·.generation))
      ((List.perm_cons_erase hd).map (·.generation)).symm
  refine ⟨fun c hc => h.staged c (List.mem_of_mem_erase hc),
    fun c hc => h.commitNodup c (List.mem_of_mem_erase hc), ?_, hperm.nodup_iff.mpr h.distinct,
    fun g hg => h.past g (hperm.mem_iff.mp hg), ?_⟩
  · intro l hl
    rcases List.mem_cons.mp hl with rfl | hl
    · exact (List.nodup_append.mp (h.commitNodup d hd)).2.1
    · exact h.leaseNodup l hl
  · intro hpool
    rw [h.pooled hpool] at hd
    cases hd

/-- Holders go away. -/
theorem subset (h : Owners w) (hcommits : w'.commits.Sublist w.commits)
    (hleases : w'.leases.Sublist w.leases) (hstate : w'.state = w.state)
    (hpool : w'.poolAlive = false → w'.commits = []) : Owners w' := by
  have hsub : w'.generations.Sublist w.generations :=
    (hcommits.map _).append (hleases.map _)
  refine ⟨fun c hc => h.staged c (hcommits.subset hc),
    fun c hc => h.commitNodup c (hcommits.subset hc),
    fun l hl => h.leaseNodup l (hleases.subset hl), h.distinct.sublist hsub, ?_, hpool⟩
  rw [hstate]
  exact fun g hg => h.past g (hsub.subset hg)

end Owners

/-! ### What the owners hold, after each change of them -/

/-- What is held apart from the pins of one commit. -/
def World.heldBesides (w : World) (c : PendingCommit) : List BlockId :=
  (w.commits.erase c).flatMap PendingCommit.held ++ w.leases.flatMap (·.blocks)

theorem held_perm_of_commit (hd : d ∈ w.commits) :
    w.held.Perm (d.held ++ w.heldBesides d) := by
  have := (List.perm_cons_erase hd).flatMap_right PendingCommit.held
  rw [List.flatMap_cons] at this
  rw [World.held, World.heldBesides, ← List.append_assoc]
  exact this.append_right _

theorem held_setCommit (w : World) (d d' : PendingCommit) :
    (w.setCommit d d').held = d'.held ++ w.heldBesides d := by
  simp [World.held, World.setCommit, World.heldBesides]

theorem held_perm_of_lease (hl : l ∈ w.leases) :
    w.held.Perm (l.blocks ++ (w.commits.flatMap PendingCommit.held ++
      (w.leases.erase l).flatMap (·.blocks))) := by
  have := (List.perm_cons_erase hl).flatMap_right Lease.blocks
  rw [List.flatMap_cons] at this
  refine (this.append_left _).trans ?_
  exact List.perm_append_comm_assoc _ _ _

theorem Invariant.initial (stream : Option Stream) (isNvidia : Bool) :
    Invariant (World.initial stream isNvidia) := by
  have hsound := Sound.initial stream isNvidia
  refine ⟨hsound.placement, hsound.pins, fun _ => hsound.backing, hsound.backing.nonnull,
    ⟨?_, ?_, ?_, ?_, ?_, ?_⟩, ?_⟩ <;> simp [World.initial, World.generations]

namespace Invariant

theorem sound (h : Invariant w) (hopen : w.closed = false) : Sound w.held w.state :=
  ⟨h.placement, h.pins, h.backing hopen⟩

/-- Nothing happens after `~State`. -/
theorem closed_of_enabled (h : Invariant w) (henabled : w.Enabled e) : w.closed = false := by
  have hopen : ¬(w.poolAlive = false ∧ w.leases = []) → w.closed = false := fun howned => by
    rw [← Bool.not_eq_true, h.closed_iff]
    exact howned
  refine hopen fun hunowned => ?_
  have hcommits := h.owners.pooled hunowned.1
  cases e <;> simp [World.Enabled, hunowned.1, hunowned.2, hcommits] at henabled

/-- The invariant of a pool with an owner. -/
theorem of_sound (hsound : Sound w.held w.state) (howners : Owners w) (hopen : w.closed = false)
    (howned : w.poolAlive = true ∨ w.leases ≠ []) : Invariant w := by
  refine ⟨hsound.placement, hsound.pins, fun _ => hsound.backing, hsound.backing.nonnull, howners,
    ?_⟩
  rw [hopen]
  constructor
  · intro hfalse
    cases hfalse
  · rintro ⟨hpool, hleases⟩
    rw [hpool] at howned
    exact absurd hleases (howned.resolve_left (by simp))

/-- An operation on a pool that is alive. -/
theorem call (hopen : w.closed = false) (hpool : w.poolAlive = true)
    (hsound : Sound w.held s') (howners : Owners { w with state := s' }) :
    Invariant { w with state := s' } :=
  of_sound (w := { w with state := s' }) hsound howners hopen (.inl hpool)

/-- The invariant when an owner has gone, and `~State` with the last one. -/
theorem closeIfUnowned (hsound : Sound w.held w.state) (howners : Owners w)
    (hopen : w.closed = false) (destroyAns : DestroyAnswer) :
    Invariant (w.closeIfUnowned destroyAns) := by
  unfold World.closeIfUnowned
  split
  case isTrue hunowned =>
    refine ⟨hsound.placement.destroy _, hsound.pins.destroy _, fun hfalse =>
      absurd hfalse (by simp),
      ?_, ?_, ?_⟩
    · show nullptr ∉ (w.state.destroy destroyAns).allBlocks
      rw [destroy_rest]
      exact hsound.backing.nonnull
    · have hrest := destroy_rest w.state destroyAns
      refine ⟨howners.staged, howners.commitNodup, howners.leaseNodup, howners.distinct, ?_,
        howners.pooled⟩
      simp only
      rw [hrest]
      exact howners.past
    · simpa using hunowned
  case isFalse howned =>
    refine of_sound hsound howners hopen ?_
    rw [not_and_or, Bool.not_eq_false] at howned
    exact howned

theorem alive_of_mem (h : Invariant w) (hd : d ∈ w.commits) : w.poolAlive = true := by
  by_contra hpool
  rw [h.owners.pooled (by simpa using hpool)] at hd
  cases hd

/-- A commit goes on to a stage in which it holds the same pins. -/
theorem restaged (h : Invariant w) (hopen : w.closed = false) (hd : d ∈ w.commits)
    (hstaged : d'.Staged) (hheld : d'.held = d.held) (hgen : d'.generation = d.generation) :
    Invariant (w.setCommit d d') := by
  have hnodup : d'.held.Nodup := by
    rw [hheld]
    exact h.owners.commitNodup d hd
  refine of_sound ?_ (h.owners.setCommit hd hstaged hnodup hgen) hopen (.inl (h.alive_of_mem hd))
  rw [held_setCommit, hheld]
  exact (h.sound hopen).perm (held_perm_of_commit hd)

/-- **Every effect keeps the invariant.** -/
theorem effect (h : Invariant w) (henabled : w.Enabled e) (he : Effect w e o w') :
    Invariant w' := by
  have hopen := h.closed_of_enabled henabled
  have hsound := h.sound hopen
  cases he with
  | @failed e t size isExact ans s' hreq x hs =>
    obtain ⟨hpool, hans⟩ := hreq.answers henabled
    exact call hopen hpool (hsound.untouched hans.fresh hs)
      (h.owners.call_of_transaction hs.transaction)
  | null => exact h
  | @allocated e t size isExact ans p s' hreq hs =>
    obtain ⟨hpool, hans⟩ := hreq.answers henabled
    obtain ⟨b, hserved⟩ := hs.served hsound hans.fresh
    refine call hopen hpool (hsound.allocated hans.fresh hs) (h.owners.call ?_ ?_)
    · rw [show s'.captureGeneration = _ from
        congrArg Transaction.captureGeneration hserved.transaction]
      exact freeze_captureGeneration _ _ _
    · rw [show s'.pinnedMode = _ from congrArg Transaction.pinnedMode hserved.transaction]
      exact fun hmode => (freeze_pinnedMode w.state t b).symm.trans hmode
  | rejected => exact h
  | deallocateNull => exact h
  | released pushBack hp hlookup huse howner =>
    exact call hopen henabled (hsound.release ⟨_, hlookup⟩ huse)
      (h.owners.call_of_transaction (release_transaction _ _))
  | retained hlookup =>
    exact call hopen henabled (hsound.retain ⟨_, hlookup⟩)
      (h.owners.call_of_transaction (retain_transaction _ _))
  | began hmode hgen =>
    exact call hopen henabled (hsound.openPinMode _ hmode) (h.owners.openPinMode _)
  | nothingToCommit => exact h
  | @committed t howner =>
    refine of_sound ?_ (h.owners.committed howner.1 h.pins.nodup henabled) hopen (.inl henabled)
    refine hsound.closePinMode.perm ?_
    simp [World.held, PendingCommit.held, State.beginCommit]
  | builtPinState d hd hstage =>
    have hretained := (h.owners.staged d hd).retained_eq_nil (.inl hstage)
    exact h.restaged hopen hd rfl
      (by simp [PendingCommit.held, PendingCommit.withPinState, hretained]) rfl
  | noPinState d hd hstage =>
    have hstaged := h.owners.staged d hd
    simp only [PendingCommit.Staged, hstage] at hstaged
    exact h.restaged hopen hd hstaged rfl rfl
  | builtPinLease d hd hstage =>
    have hstaged := h.owners.staged d hd
    simp only [PendingCommit.Staged, hstage] at hstaged
    exact h.restaged hopen hd hstaged rfl rfl
  | dropped d hd hstage =>
    have hblocks := (h.owners.staged d hd).blocks_eq_nil hstage
    have howners : Owners (w.setCommit d d.dropped) :=
      h.owners.setCommit hd rfl (by simp [PendingCommit.held, PendingCommit.dropped, hblocks]) rfl
    refine of_sound ?_ (howners.call ?_ ?_) hopen (.inl (h.alive_of_mem hd))
    · show Sound (w.setCommit d d.dropped).held _
      refine hsound.dropHeld ?_
      rw [held_setCommit]
      refine (held_perm_of_commit hd).trans ?_
      simp [PendingCommit.held, PendingCommit.dropped, hblocks]
    · rw [releaseFrozenBlocks_eq]
      rfl
    · rw [releaseFrozenBlocks_eq]
      exact id
  | leased d hd hstage =>
    have hblocks := (h.owners.staged d hd).blocks_eq_nil (.inr hstage)
    refine of_sound (hsound.perm ?_) (h.owners.leased hd) hopen (.inl (h.alive_of_mem hd))
    refine (held_perm_of_commit hd).trans ?_
    simp only [PendingCommit.held, hblocks, List.nil_append, World.heldBesides, World.held,
      List.flatMap_cons]
    exact List.perm_append_comm_assoc _ _ _
  | handled d granted hd hstage =>
    have hretained := (h.owners.staged d hd).retained_eq_nil (.inr hstage)
    have hpool := h.alive_of_mem hd
    have howners : Owners { w with commits := w.commits.erase d } :=
      h.owners.subset List.erase_sublist (List.Sublist.refl _) rfl fun hdead => by
        rw [show w.poolAlive = false from hdead] at hpool
        cases hpool
    refine of_sound ?_ (howners.call ?_ ?_) hopen (.inl hpool)
    · refine hsound.dropHeld ((held_perm_of_commit hd).trans ?_)
      simp [PendingCommit.held, hretained, World.heldBesides, World.held]
    · rw [releaseFrozenBlocks_eq]
    · rw [releaseFrozenBlocks_eq]
      exact id
  | canceled howner =>
    refine call hopen henabled hsound.cancel (h.owners.call ?_ ?_)
    · rw [releaseFrozenBlocks_eq]
      rfl
    · intro hmode
      cases hmode
  | @frozen t p b freezeAns flag howner hlookup =>
    refine call hopen henabled (hsound.freeze t ⟨_, hlookup⟩) (h.owners.call ?_ ?_)
    · exact freeze_captureGeneration _ _ _
    · exact fun hmode => (freeze_pinnedMode w.state t b).symm.trans hmode
  | readBytes => exact h
  | trimmed trimAns o hs =>
    exact call hopen henabled (hsound.trimSteps hs)
      (h.owners.call_of_transaction hs.transaction)
  | leaseDropped l destroyAns hl =>
    refine closeIfUnowned ?_ ?_ (by exact hopen) destroyAns
    · exact hsound.dropHeld (held_perm_of_lease hl)
    · have howners : Owners { w with leases := w.leases.erase l } :=
        h.owners.subset (List.Sublist.refl _) List.erase_sublist rfl h.owners.pooled
      refine howners.call ?_ ?_
      · rw [releaseFrozenBlocks_eq]
      · rw [releaseFrozenBlocks_eq]
        exact id
  | poolDropped destroyAns hpool hcommits =>
    refine closeIfUnowned (by exact hsound) ?_ (by exact hopen) destroyAns
    exact h.owners.subset (List.Sublist.refl _) (List.Sublist.refl _) rfl fun _ => hcommits

theorem effect_of_step {l : Event × Outcome} (h : Invariant w) (hstep : Step w l w') :
    Effect w l.1 l.2 w' :=
  Pool.effect_of_step (h.sound (h.closed_of_enabled hstep.1)) hstep

theorem step {l : Event × Outcome} (h : Invariant w) (hstep : Step w l w') : Invariant w' :=
  h.effect hstep.1 (h.effect_of_step hstep)

end Invariant

/-- **Every reachable state satisfies the invariant.** -/
theorem invariant_of_run {trace : List (Event × Outcome)} (h : PoolRun trace w) : Invariant w := by
  obtain ⟨stream, isNvidia, hrun⟩ := h
  exact hrun.invariant Invariant (fun _ _ _ hinv hstep => hinv.step hstep)
    (.initial stream isNvidia)

end InfiniRT.Pool
