import InfiniRT.Pool.Invariant

/-!
# Following one pin transaction

The blocks of the pin transaction `g` are first in `capture_frozen_blocks_`, then with the commit
that builds the lease, and last in the lease.  `Carries w g l` says who has them now: the list `l`.
Read backwards, a step hands the list over as it is, or shortens it while the transaction is open,
so a block once frozen stays with the transaction for as long as anybody carries it.  Proved:

* **`back`** — an effect hands the blocks of a transaction on or drops some of them;
* **`back_of_step`** — a transaction that is carried after a step was carried before it.
-/

namespace InfiniRT.Pool

open InfiniRT.Library

variable {w w' : World} {e : Event} {o : Outcome} {s s' : State} {c d d' : PendingCommit}
  {b : BlockId} {p : Ptr} {g : ℕ} {l l' : List BlockId} {t : ThreadId}

/-- The transaction `g` is open on a pool that is alive. -/
def World.Active (w : World) (g : ℕ) : Prop :=
  w.poolAlive = true ∧ w.state.pinnedMode = true ∧ w.state.captureGeneration = g

/-- The blocks of the transaction `g` are the list `l`, which the open transaction, a commit on its
way to a lease, or the lease has. -/
inductive Carries (w : World) (g : ℕ) : List BlockId → Prop
  | active (h : w.Active g) : Carries w g w.state.captureFrozenBlocks
  | commit {c : PendingCommit} (hc : c ∈ w.commits) (hgen : c.generation = g)
      (hstage : c.stage ≠ .handler) : Carries w g c.held
  | lease {l : Lease} (hl : l ∈ w.leases) (hgen : l.generation = g) : Carries w g l.blocks

namespace Carries

/-- A transaction that is carried is not in the future. -/
theorem le (h : Invariant w) (hl : Carries w g l) : g ≤ w.state.captureGeneration := by
  cases hl with
  | active hactive => exact hactive.2.2.ge
  | commit hc hgen _ =>
    exact (h.owners.past g (List.mem_append_left _ (List.mem_map.mpr ⟨_, hc, hgen⟩))).1
  | lease hl hgen =>
    exact (h.owners.past g (List.mem_append_right _ (List.mem_map.mpr ⟨_, hl, hgen⟩))).1

/-- `~State` has not run while a transaction is carried. -/
theorem open_of_carries (h : Invariant w) (hl : Carries w g l) : w.closed = false := by
  by_contra hclosed
  obtain ⟨hpool, hleases⟩ := h.closed_iff.mp (by simpa using hclosed)
  cases hl with
  | active hactive => simp [hactive.1] at hpool
  | commit hc _ _ =>
    rw [h.owners.pooled hpool] at hc
    cases hc
  | lease hl _ =>
    rw [hleases] at hl
    cases hl

/-- A block that is carried is pinned. -/
theorem mem_held (hl : Carries w g l) (hb : b ∈ l) :
    b ∈ w.held ∨ b ∈ w.state.captureFrozenBlocks := by
  cases hl with
  | active => exact .inr hb
  | commit hc _ _ =>
    exact .inl (List.mem_append_left _ (List.mem_flatMap.mpr ⟨_, hc, hb⟩))
  | lease hl _ =>
    exact .inl (List.mem_append_right _ (List.mem_flatMap.mpr ⟨_, hl, hb⟩))

theorem pinCount_pos (h : Invariant w) (hl : Carries w g l) (hb : b ∈ l) :
    0 < (w.state.blocks b).pinCount :=
  (h.pins.pinCount_pos (h.pins.tracked b (hl.mem_held hb))).mpr (hl.mem_held hb)

end Carries

/-! ### Going back one step -/

/-- The transaction open in `s'` is open in `s`, with fewer blocks at most. -/
def State.Extends (s s' : State) : Prop :=
  s'.pinnedMode = true → s.pinnedMode = true ∧ s'.captureGeneration = s.captureGeneration ∧
    s.captureFrozenBlocks <+: s'.captureFrozenBlocks

theorem extends_of_transaction (h : s'.transaction = s.transaction) : s.Extends s' := by
  have hmode : s'.pinnedMode = s.pinnedMode := congrArg Transaction.pinnedMode h
  have hfrozen : s'.captureFrozenBlocks = s.captureFrozenBlocks :=
    congrArg Transaction.captureFrozenBlocks h
  refine fun hpinned => ⟨hmode ▸ hpinned, congrArg Transaction.captureGeneration h, ?_⟩
  rw [hfrozen]

theorem freeze_captureFrozenBlocks (s : State) (t : ThreadId) (b : BlockId) :
    (s.freeze t b).captureFrozenBlocks =
      if s.OwnsPinMode t ∧ b ∉ s.captureFrozenBlockSet then s.captureFrozenBlocks ++ [b]
      else s.captureFrozenBlocks := by
  unfold State.freeze
  split_ifs <;> rfl

theorem extends_freeze (s : State) (t : ThreadId) (b : BlockId) : s.Extends (s.freeze t b) := by
  intro hpinned
  refine ⟨(freeze_pinnedMode s t b).symm.trans hpinned, freeze_captureGeneration s t b, ?_⟩
  rw [freeze_captureFrozenBlocks]
  split_ifs
  · exact List.prefix_append _ _
  · exact List.prefix_rfl

theorem State.Extends.trans {s'' : State} (h : s.Extends s')
    (h' : s'.transaction = s''.transaction) :
    s.Extends s'' := by
  intro hpinned
  have hmode : s'.pinnedMode = s''.pinnedMode := congrArg Transaction.pinnedMode h'
  have hgen : s'.captureGeneration = s''.captureGeneration :=
    congrArg Transaction.captureGeneration h'
  have hfrozen : s'.captureFrozenBlocks = s''.captureFrozenBlocks :=
    congrArg Transaction.captureFrozenBlocks h'
  rw [← hgen, ← hfrozen]
  exact h (hmode.trans hpinned)

/-- What carried the transaction before a step. -/
def Carries.Before (w : World) (g : ℕ) (l' : List BlockId) : Prop :=
  ∃ l, Carries w g l ∧ l <+: l' ∧ (¬ w.Active g → l' = l)

namespace Carries

theorem before_self (h : Carries w g l) : Before w g l := ⟨l, h, List.prefix_rfl, fun _ => rfl⟩

/-- The open transaction before a step. -/
theorem before_active (hactive : w.Active g) (h : w.state.captureFrozenBlocks <+: l') :
    Before w g l' :=
  ⟨_, .active hactive, h, fun hidle => absurd hactive hidle⟩

theorem before_commit (hc : c ∈ w.commits) (hgen : c.generation = g)
    (hstage : c.stage ≠ .handler) : Before w g c.held :=
  (Carries.commit hc hgen hstage).before_self

theorem before_lease {l : Lease} (hl : l ∈ w.leases) (hgen : l.generation = g) :
    Before w g l.blocks :=
  (Carries.lease hl hgen).before_self

/-- A step that changes no owner, and opens no transaction. -/
theorem before_call (h : Carries { w with state := s' } g l') (hs : w.state.Extends s') :
    Before w g l' := by
  cases h with
  | active hactive =>
    obtain ⟨hmode, hgen, hfrozen⟩ := hs hactive.2.1
    exact before_active ⟨hactive.1, hmode, hgen.symm.trans hactive.2.2⟩ hfrozen
  | commit hc hgen hstage => exact before_commit hc hgen hstage
  | lease hl hgen => exact before_lease hl hgen

/-- A commit that goes on, with the blocks it had if it does not go to its handler. -/
theorem before_setCommit (h : Carries (w.setCommit d d') g l') (hd : d ∈ w.commits)
    (hgen : d'.generation = d.generation)
    (hstage : d'.stage ≠ .handler → d.stage ≠ .handler ∧ d'.held = d.held) : Before w g l' := by
  cases h with
  | active hactive => exact before_active hactive List.prefix_rfl
  | commit hc hcgen hcstage =>
    rcases List.mem_cons.mp hc with rfl | hc
    · obtain ⟨hdstage, hheld⟩ := hstage hcstage
      rw [hheld]
      exact before_commit hd (hgen.symm.trans hcgen) hdstage
    · exact before_commit (List.mem_of_mem_erase hc) hcgen hcstage
  | lease hl hlgen => exact before_lease hl hlgen

/-- Owners that went away carry nothing. -/
theorem before_subset (h : Carries w' g l') (hcommits : w'.commits ⊆ w.commits)
    (hleases : w'.leases ⊆ w.leases)
    (hactive : w'.Active g → w.Active g ∧
      w'.state.captureFrozenBlocks = w.state.captureFrozenBlocks) : Before w g l' := by
  cases h with
  | active h =>
    obtain ⟨hw, hfrozen⟩ := hactive h
    rw [hfrozen]
    exact (Carries.active hw).before_self
  | commit hc hgen hstage => exact before_commit (hcommits hc) hgen hstage
  | lease hl hgen => exact before_lease (hleases hl) hgen

/-- **Who carried a transaction before a step.** -/
theorem back (h : Invariant w) (henabled : w.Enabled e) (he : Effect w e o w')
    (hg : g ≤ w.state.captureGeneration) (h' : Carries w' g l') : Before w g l' := by
  have hsound := h.sound (h.closed_of_enabled henabled)
  cases he with
  | failed hreq x hs => exact h'.before_call (extends_of_transaction hs.transaction)
  | null => exact h'.before_self
  | @allocated e t size isExact ans p s' hreq hs =>
    have hans := (hreq.answers henabled).2
    obtain ⟨b, hserved⟩ := hs.served hsound hans.fresh
    exact h'.before_call ((extends_freeze _ t b).trans hserved.transaction.symm)
  | rejected => exact h'.before_self
  | deallocateNull => exact h'.before_self
  | released => exact h'.before_call (extends_of_transaction (release_transaction _ _))
  | retained => exact h'.before_call (extends_of_transaction (retain_transaction _ _))
  | began hmode hmax =>
    cases h' with
    | active hactive =>
      have hgen : w.state.captureGeneration + 1 = g := hactive.2.2
      omega
    | commit hc hgen hstage => exact before_commit hc hgen hstage
    | lease hl hgen => exact before_lease hl hgen
  | nothingToCommit => exact h'.before_self
  | @committed t howner =>
    cases h' with
    | active hactive => exact absurd hactive.2.1 (by simp [State.closePinMode])
    | commit hc hgen hstage =>
      rcases List.mem_cons.mp hc with rfl | hc
      · have hheld : (w.state.beginCommit t).held = w.state.captureFrozenBlocks := by
          simp [PendingCommit.held, State.beginCommit]
        rw [hheld]
        exact (Carries.active ⟨henabled, howner.1, hgen⟩).before_self
      · exact before_commit hc hgen hstage
    | lease hl hgen => exact before_lease hl hgen
  | builtPinState d hd hstage =>
    have hretained := (h.owners.staged d hd).retained_eq_nil (.inl hstage)
    refine h'.before_setCommit hd rfl fun _ => ⟨by simp [hstage], ?_⟩
    simp [PendingCommit.held, PendingCommit.withPinState, hretained]
  | noPinState d hd hstage =>
    exact h'.before_setCommit hd rfl fun hhandler => absurd rfl hhandler
  | builtPinLease d hd hstage =>
    exact h'.before_setCommit hd rfl fun _ => ⟨by simp [hstage], rfl⟩
  | dropped d hd hstage =>
    rw [releaseFrozenBlocks_eq] at h'
    have hset : Carries (w.setCommit d d.dropped) g l' := by
      cases h' with
      | active hactive => exact .active hactive
      | commit hc hgen hcstage => exact .commit hc hgen hcstage
      | lease hl hgen => exact .lease hl hgen
    exact hset.before_setCommit hd rfl fun hhandler => absurd rfl hhandler
  | leased d hd hstage =>
    have hblocks := (h.owners.staged d hd).blocks_eq_nil (.inr hstage)
    cases h' with
    | active hactive => exact before_active hactive List.prefix_rfl
    | commit hc hgen hcstage =>
      exact before_commit (List.mem_of_mem_erase hc) hgen hcstage
    | lease hl hgen =>
      rcases List.mem_cons.mp hl with rfl | hl
      · have hheld : d.lease.blocks = d.held := by
          simp [PendingCommit.held, PendingCommit.lease, hblocks]
        rw [hheld]
        exact before_commit hd hgen (by simp [hstage])
      · exact before_lease hl hgen
  | handled d granted hd hstage =>
    rw [releaseFrozenBlocks_eq] at h'
    exact h'.before_subset List.erase_subset (List.Subset.refl _) fun hactive => ⟨hactive, rfl⟩
  | canceled howner =>
    refine h'.before_call fun hmode => ?_
    cases hmode
  | frozen freezeAns flag howner hlookup => exact h'.before_call (extends_freeze _ _ _)
  | readBytes => exact h'.before_self
  | trimmed trimAns o hs => exact h'.before_call (extends_of_transaction hs.transaction)
  | leaseDropped l destroyAns hl =>
    rw [releaseFrozenBlocks_eq, World.closeIfUnowned_rest] at h'
    exact h'.before_subset (List.Subset.refl _) List.erase_subset fun hactive => ⟨hactive, rfl⟩
  | poolDropped destroyAns hpool hcommits =>
    rw [World.closeIfUnowned_rest] at h'
    exact h'.before_subset (List.Subset.refl _) (List.Subset.refl _)
      fun hactive => absurd hactive.1 (by simp)

end Carries

theorem releaseFrozenBlocks_transaction (s : State) (l : List BlockId) :
    (s.releaseFrozenBlocks l).transaction = s.transaction := by
  rw [releaseFrozenBlocks_eq]
  rfl

theorem closeIfUnowned_transaction (w : World) (ans : DestroyAnswer) :
    (w.closeIfUnowned ans).state.transaction = w.state.transaction := by
  rw [World.closeIfUnowned_rest]
  rfl

theorem poolAlive_closeIfUnowned (w : World) (ans : DestroyAnswer) :
    (w.closeIfUnowned ans).poolAlive = w.poolAlive := by
  rw [World.closeIfUnowned_rest]

/-- A pool object does not come back. -/
theorem Effect.poolAlive (he : Effect w e o w') (h : w'.poolAlive = true) : w.poolAlive = true := by
  cases he with
  | leaseDropped l ans =>
    rw [poolAlive_closeIfUnowned] at h
    exact h
  | poolDropped ans hpool => exact hpool
  | _ => exact h

/-- An effect opens no transaction, or opens the next one. -/
theorem Effect.generation (h : Invariant w) (henabled : w.Enabled e) (he : Effect w e o w') :
    (w'.state.captureGeneration = w.state.captureGeneration ∧
      (w'.state.pinnedMode = true → w.state.pinnedMode = true)) ∨
    w'.state.captureGeneration = w.state.captureGeneration + 1 := by
  have hsame : ∀ {s' : State}, s'.transaction = w.state.transaction →
      s'.captureGeneration = w.state.captureGeneration ∧
        (s'.pinnedMode = true → w.state.pinnedMode = true) := by
    intro s' hs
    have hmode : s'.pinnedMode = w.state.pinnedMode := congrArg Transaction.pinnedMode hs
    exact ⟨congrArg Transaction.captureGeneration hs, fun hpinned => hmode ▸ hpinned⟩
  have hfrozen : ∀ t b, (w.state.freeze t b).captureGeneration = w.state.captureGeneration ∧
      ((w.state.freeze t b).pinnedMode = true → w.state.pinnedMode = true) := fun t b =>
    ⟨freeze_captureGeneration _ _ _, fun hmode => (freeze_pinnedMode _ t b).symm.trans hmode⟩
  cases he with
  | failed hreq x hs => exact .inl (hsame hs.transaction)
  | @allocated e t size isExact ans p s' hreq hs =>
    have hans := (hreq.answers henabled).2
    obtain ⟨b, hserved⟩ := hs.served (h.sound (h.closed_of_enabled henabled)) hans.fresh
    have hgen : s'.captureGeneration = _ :=
      congrArg Transaction.captureGeneration hserved.transaction
    have hmode : s'.pinnedMode = _ := congrArg Transaction.pinnedMode hserved.transaction
    exact .inl ⟨hgen.trans (hfrozen t b).1, fun hpinned =>
      (hfrozen t b).2 (hmode.symm.trans hpinned)⟩
  | released => exact .inl (hsame (release_transaction _ _))
  | retained => exact .inl (hsame (retain_transaction _ _))
  | began => exact .inr rfl
  | committed => exact .inl ⟨rfl, fun hpinned => nomatch hpinned⟩
  | dropped d => exact .inl (hsame (releaseFrozenBlocks_transaction ..))
  | handled d => exact .inl (hsame (releaseFrozenBlocks_transaction ..))
  | canceled =>
    exact .inl ⟨(hsame (releaseFrozenBlocks_transaction ..)).1, fun hpinned => nomatch hpinned⟩
  | frozen => exact .inl (hfrozen _ _)
  | trimmed trimAns o hs => exact .inl (hsame hs.transaction)
  | leaseDropped l =>
    exact .inl (hsame ((closeIfUnowned_transaction ..).trans (releaseFrozenBlocks_transaction ..)))
  | poolDropped => exact .inl (hsame (closeIfUnowned_transaction ..))
  | _ => exact .inl ⟨rfl, id⟩

/-- Generations only grow. -/
theorem Effect.captureGeneration_le (h : Invariant w) (henabled : w.Enabled e)
    (he : Effect w e o w') : w.state.captureGeneration ≤ w'.state.captureGeneration := by
  rcases he.generation h henabled with ⟨hgen, -⟩ | hgen <;> omega

/-- The transaction `g` was opened before, and is not the one that is open. -/
def World.Past (w : World) (g : ℕ) : Prop :=
  g ≤ w.state.captureGeneration ∧ (w.state.pinnedMode = true → g < w.state.captureGeneration)

theorem World.Past.effect (hg : w.Past g) (h : Invariant w) (henabled : w.Enabled e)
    (he : Effect w e o w') : w'.Past g := by
  obtain ⟨hle, hlt⟩ := hg
  rcases he.generation h henabled with ⟨hgen, hmode⟩ | hgen
  · rw [World.Past, hgen]
    exact ⟨hle, fun hpinned => hlt (hmode hpinned)⟩
  · rw [World.Past, hgen]
    exact ⟨by omega, fun _ => by omega⟩

theorem World.Past.not_active (hg : w.Past g) : ¬ w.Active g := fun hactive =>
  absurd (hg.2 hactive.2.1) (by rw [hactive.2.2]; exact Nat.lt_irrefl g)

namespace Carries

/-- A transaction that is carried after a step was carried before it. -/
theorem back_of_step {trace : Event × Outcome} (h : Invariant w) (hstep : Step w trace w')
    (hg : g ≤ w.state.captureGeneration) (h' : Carries w' g l') : Before w g l' :=
  h'.back h hstep.1 (h.effect_of_step hstep) hg

end Carries

end InfiniRT.Pool
