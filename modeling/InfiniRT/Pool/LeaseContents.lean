import InfiniRT.Pool.PinSafety

/-!
# What a lease holds

Between its `begin_pin_mode` and its `commit_pin_mode` a thread freezes the blocks it obtains, and
nobody else freezes or thaws anything.  The commit hands the frozen blocks on as they are, so the
lease holds the blocks the thread obtained, each once.  Proved:

* **`gathered_of_run`** — a run inside a transaction freezes what its thread obtains, each block
  once;
* **`lease_contents`** — the lease of the commit holds these blocks and no other.
-/

namespace InfiniRT.Pool

open InfiniRT.Library

variable {w w' w₀ w₁ w₂ w₃ w₄ w₅ u : World} {e : Event} {o : Outcome} {x : Event × Outcome}
  {s : State} {b : BlockId} {p : Ptr} {g : ℕ} {t t' : ThreadId}
  {trace before mid rest pre post : List (Event × Outcome)} {c d : PendingCommit} {l : Lease}

/-- In the trace the thread obtained the block at `p`. -/
def Got (t : ThreadId) (p : Ptr) (trace : List (Event × Outcome)) : Prop :=
  p ≠ nullptr ∧ ∃ x ∈ trace, obtained x = some (t, p)

/-- The call ends the transaction of the thread: it commits or cancels it. -/
def endsTransaction (t : ThreadId) : Event × Outcome → Bool
  | (.commitPinMode t', .ok _) => t' = t
  | (.cancelPinMode t', .ok _) => t' = t
  | _ => false

theorem owner_unique (h : s.OwnsPinMode t) (h' : s.OwnsPinMode t') : t' = t :=
  Option.some.inj (h'.2.symm.trans h.2)

/-- What one step does to the transaction of `t`, unless it ends it: the step freezes what it hands
to `t`, and nothing else. -/
structure StepIn (t : ThreadId) (w : World) (x : Event × Outcome) (w' : World) : Prop where
  owner : w'.state.OwnsPinMode t
  generation : w'.state.captureGeneration = w.state.captureGeneration
  grows : w.state.captureFrozenBlocks ⊆ w'.state.captureFrozenBlocks
  source : ∀ b ∈ w'.state.captureFrozenBlocks, b ∈ w.state.captureFrozenBlocks ∨
    ∃ p, p ≠ nullptr ∧ obtained x = some (t, p) ∧ w'.state.allBlocks.lookup p = some b

theorem StepIn.of_transaction (howner : w.state.OwnsPinMode t)
    (h : w'.state.transaction = w.state.transaction) : StepIn t w x w' := by
  have hmode : w'.state.pinnedMode = w.state.pinnedMode := congrArg Transaction.pinnedMode h
  have hpin : w'.state.pinOwner = w.state.pinOwner := congrArg Transaction.pinOwner h
  have hfrozen : w'.state.captureFrozenBlocks = w.state.captureFrozenBlocks :=
    congrArg Transaction.captureFrozenBlocks h
  refine ⟨⟨hmode.trans howner.1, hpin.trans howner.2⟩, congrArg Transaction.captureGeneration h,
    ?_, ?_⟩
  · rw [hfrozen]
    exact List.Subset.refl _
  · rw [hfrozen]
    exact fun b hb => .inl hb

/-- A freeze on behalf of `t'`. -/
theorem StepIn.of_freeze (howner : w.state.OwnsPinMode t)
    (h : w'.state.transaction = (w.state.freeze t' b).transaction) (hp : p ≠ nullptr)
    (hx : obtained x = some (t', p)) (hlookup : w'.state.allBlocks.lookup p = some b) :
    StepIn t w x w' := by
  have hmode : w'.state.pinnedMode = _ := congrArg Transaction.pinnedMode h
  have hpin : w'.state.pinOwner = _ := congrArg Transaction.pinOwner h
  have hgen : w'.state.captureGeneration = _ := congrArg Transaction.captureGeneration h
  have hfrozen : w'.state.captureFrozenBlocks = (w.state.freeze t' b).captureFrozenBlocks :=
    congrArg Transaction.captureFrozenBlocks h
  refine ⟨⟨hmode.trans ((freeze_pinnedMode _ _ _).trans howner.1),
    hpin.trans ((freeze_pinOwner _ _ _).trans howner.2)⟩,
    hgen.trans (freeze_captureGeneration _ _ _), ?_, ?_⟩
  · rw [hfrozen, freeze_captureFrozenBlocks]
    split_ifs
    · exact List.subset_append_left _ _
    · exact List.Subset.refl _
  · intro c hc
    rw [hfrozen, freeze_captureFrozenBlocks] at hc
    split_ifs at hc with hnew
    · rw [List.mem_append, List.mem_singleton] at hc
      refine hc.imp_right ?_
      rintro rfl
      obtain rfl := owner_unique howner hnew.1
      exact ⟨p, hp, hx, hlookup⟩
    · exact .inl hc

/-- **One step of any thread inside a transaction.** -/
theorem stepIn (h : Invariant w) (hstep : Step w x w') (howner : w.state.OwnsPinMode t)
    (hx : endsTransaction t x = false) : StepIn t w x w' := by
  obtain ⟨e, o⟩ := x
  have hsound := h.sound (h.closed_of_enabled hstep.1)
  have hnonnull : ∀ {s' : State} {p b}, Sound w.held s' → s'.allBlocks.lookup p = some b →
      p ≠ nullptr := by
    rintro s' p b hs hp rfl
    exact hs.backing.nonnull (AList.lookup_isSome.mp (by rw [hp]; rfl))
  cases h.effect_of_step hstep with
  | failed hreq y hs => exact .of_transaction howner hs.transaction
  | @allocated e t' size isExact ans q s' hreq hs =>
    have hans : w.Answers ans := by
      have := hstep.1
      cases hreq <;> exact this.2
    obtain ⟨b, hserved⟩ := hs.served hsound hans.fresh
    exact .of_freeze howner hserved.transaction
      (hnonnull (hsound.allocated hans.fresh hs) hserved.lookup) (obtained_of_requests hreq q)
      hserved.lookup
  | released => exact .of_transaction howner (release_transaction _ _)
  | retained => exact .of_transaction howner (retain_transaction _ _)
  | began hmode => exact absurd (hmode.symm.trans howner.1) (by simp)
  | @committed t' howner' =>
    obtain rfl := owner_unique howner howner'
    simp [endsTransaction] at hx
  | dropped => exact .of_transaction howner (releaseFrozenBlocks_transaction ..)
  | handled => exact .of_transaction howner (releaseFrozenBlocks_transaction ..)
  | @canceled t' howner' =>
    obtain rfl : t' = t := Option.some.inj ((howner' howner.1).symm.trans howner.2)
    simp [endsTransaction] at hx
  | @frozen t' q b freezeAns flag howner' hlookup =>
    refine .of_freeze howner rfl (hnonnull hsound hlookup) rfl ?_
    show (w.state.freeze t' b).allBlocks.lookup q = some b
    rw [freeze_allBlocks, hlookup]
  | trimmed trimAns o hs => exact .of_transaction howner hs.transaction
  | leaseDropped =>
    exact .of_transaction howner
      ((closeIfUnowned_transaction ..).trans (releaseFrozenBlocks_transaction ..))
  | poolDropped => exact .of_transaction howner (closeIfUnowned_transaction ..)
  | _ => exact .of_transaction howner rfl

/-- The frozen blocks of the open transaction `g` are those its thread obtained in the trace. -/
structure Gathered (t : ThreadId) (g : ℕ) (trace : List (Event × Outcome)) (w : World) : Prop where
  owner : w.state.OwnsPinMode t
  generation : w.state.captureGeneration = g
  frozen : ∀ p, Got t p trace → ∃ b ∈ w.state.captureFrozenBlocks,
    w.state.allBlocks.lookup p = some b
  source : ∀ b ∈ w.state.captureFrozenBlocks, ∃ p, Got t p trace ∧
    w.state.allBlocks.lookup p = some b

theorem Gathered.step (hg : Gathered t g trace w) (h : Invariant w) (hstep : Step w x w')
    (hpool : w'.poolAlive = true) (hx : endsTransaction t x = false) :
    Gathered t g (trace ++ [x]) w' := by
  have hin := stepIn h hstep hg.owner hx
  have hopen : w'.closed = false := by
    by_contra hclosed
    have := ((h.step hstep).closed_iff.mp (by simpa using hclosed)).1
    rw [hpool] at this
    cases this
  have hkept : ∀ {p b}, b ∈ w.state.captureFrozenBlocks → w.state.allBlocks.lookup p = some b →
      w'.state.allBlocks.lookup p = some b := by
    intro p b hb hp
    have hpin : 0 < (w.state.blocks b).pinCount :=
      (h.pins.pinCount_pos ⟨p, hp⟩).mpr (.inr hb)
    exact ((h.effect_of_step hstep).kept h hstep.1 hopen hp fun htrim => hpin.ne' htrim.1).lookup
  refine ⟨hin.owner, hin.generation.trans hg.generation, ?_, ?_⟩
  · rintro p ⟨hp, y, hy, hobtained⟩
    rw [List.mem_append, List.mem_singleton] at hy
    rcases hy with hy | rfl
    · obtain ⟨b, hb, hlookup⟩ := hg.frozen p ⟨hp, y, hy, hobtained⟩
      exact ⟨b, hin.grows hb, hkept hb hlookup⟩
    · obtain ⟨b, hlookup, hb, -⟩ := frozen_of_obtains h hstep hobtained hp hg.owner
      exact ⟨b, hb, hlookup⟩
  · intro b hb
    rcases hin.source b hb with hb | ⟨p, hp, hobtained, hlookup⟩
    · obtain ⟨p, ⟨hp, y, hy, hobtained⟩, hlookup⟩ := hg.source b hb
      exact ⟨p, ⟨hp, y, List.mem_append_left _ hy, hobtained⟩, hkept hb hlookup⟩
    · exact ⟨p, ⟨hp, x, by simp, hobtained⟩, hlookup⟩

/-- A pool that is alive was alive before. -/
theorem poolAlive_of_run (h : Invariant u) (hrun : Run Step u post w) (hpool : w.poolAlive = true) :
    u.poolAlive = true := by
  by_contra hdead
  have := (hrun.invariant (fun w => Invariant w ∧ w.poolAlive = false) ?_
    ⟨h, by simpa using hdead⟩).2
  · rw [hpool] at this
    cases this
  · rintro w x w' ⟨hinv, hfalse⟩ hstep
    refine ⟨hinv.step hstep, ?_⟩
    by_contra halive
    have := (hinv.effect_of_step hstep).poolAlive (by simpa using halive)
    rw [hfalse] at this
    cases this

/-- **A run inside a transaction** gathers what its thread obtains. -/
theorem gathered_of_run (h : Invariant w₁) (hrun : Run Step w₁ trace w)
    (hstart : Gathered t g [] w₁) (hpool : w.poolAlive = true)
    (hends : ∀ x ∈ trace, endsTransaction t x = false) : Gathered t g trace w := by
  refine (hrun.history (fun trace w => Invariant w ∧ (w.poolAlive = true →
    (∀ x ∈ trace, endsTransaction t x = false) → Gathered t g trace w)) ?_
    ⟨h, fun _ _ => hstart⟩).2 hpool hends
  rintro trace w x w' ⟨hinv, hgathered⟩ hstep
  refine ⟨hinv.step hstep, fun hpool hends => ?_⟩
  refine (hgathered ((hinv.effect_of_step hstep).poolAlive hpool) fun y hy => ?_).step hinv hstep
    hpool (hends x (by simp))
  exact hends y (List.mem_append_left _ hy)

/-- After its commit the blocks of a transaction are handed on as they are. -/
theorem carried_after_commit (h : Invariant w₃) (hpast : w₃.Past g) {m : List BlockId}
    (hstart : ∀ m', Carries w₃ g m' → m' = m) (hrun : Run Step w₃ rest w) :
    Invariant w ∧ ∀ m', Carries w g m' → m' = m := by
  have hall := hrun.invariant (fun w => Invariant w ∧ w.Past g ∧ ∀ m', Carries w g m' → m' = m)
    ?_ ⟨h, hpast, hstart⟩
  · exact ⟨hall.1, hall.2.2⟩
  · rintro w x w' ⟨hinv, hpast, hcarried⟩ hstep
    refine ⟨hinv.step hstep, hpast.effect hinv hstep.1 (hinv.effect_of_step hstep), ?_⟩
    intro m' hm'
    obtain ⟨m'', hm'', -, hsame⟩ := hm'.back_of_step hinv hstep hpast.1
    rw [hsame hpast.not_active, hcarried m'' hm'']

/-- A commit that has just left its locked section is the only one to carry its transaction. -/
theorem carried_by_commit (h : Invariant w₂)
    (hcommit : Step w₂ (.commitPinMode t, .ok (.committing c)) w₃) :
    c.generation = w₂.state.captureGeneration ∧ w₃.Past c.generation ∧
      ∀ m, Carries w₃ c.generation m → m = w₂.state.captureFrozenBlocks := by
  cases h.effect_of_step hcommit with
  | committed howner =>
    have hfresh := h.owners.captureGeneration_notMem howner.1
    refine ⟨rfl, ⟨Nat.le_refl _, fun hpinned => nomatch hpinned⟩, fun m hm => ?_⟩
    cases hm with
    | active hactive => exact absurd hactive.2.1 (by simp [State.closePinMode])
    | commit hc hgen hstage =>
      rcases List.mem_cons.mp hc with rfl | hc
      · simp [PendingCommit.held, State.beginCommit]
      · exact absurd (List.mem_append_left _ (List.mem_map.mpr ⟨_, hc, hgen⟩)) hfresh
    | lease hl hgen =>
      exact absurd (List.mem_append_right _ (List.mem_map.mpr ⟨_, hl, hgen⟩)) hfresh

/-- The lease of a commit has the blocks the commit had. -/
theorem lease_blocks (h : Invariant w₄)
    (hlease : Step w₄ (.advanceCommit d true, .ok (.lease l)) w₅) :
    Carries w₄ d.generation l.blocks ∧ l.blocks.Nodup := by
  cases h.effect_of_step hlease with
  | leased _ hd hstage =>
    have hblocks := (h.owners.staged d hd).blocks_eq_nil (.inr hstage)
    have hheld : d.lease.blocks = d.held := by
      simp [PendingCommit.held, PendingCommit.lease, hblocks]
    rw [hheld]
    exact ⟨.commit hd rfl (by simp [hstage]), h.owners.commitNodup d hd⟩

/-- **The contents of a lease.** The thread `t` opened a transaction, did not end it during `mid`,
and committed it; its commit returned the lease `l`.  Whatever other threads did meanwhile, the
lease holds the blocks `t` obtained during `mid`, each once: every address `t` obtained names a
block of the lease, and the same one ever since it was obtained, and every block of the lease is at
one of these addresses. -/
theorem lease_contents (h : PoolRun before w₀) (hbegin : Step w₀ (.beginPinMode t, .ok .none) w₁)
    (hmid : Run Step w₁ mid w₂) (hends : ∀ x ∈ mid, endsTransaction t x = false)
    (hcommit : Step w₂ (.commitPinMode t, .ok (.committing c)) w₃) (hrest : Run Step w₃ rest w₄)
    (hlease : Step w₄ (.advanceCommit d true, .ok (.lease l)) w₅)
    (hgen : d.generation = c.generation) :
    l.blocks.Nodup ∧
    (∀ p, Got t p mid → ∃ b ∈ l.blocks, ∀ pre post u, mid = pre ++ post → Run Step w₁ pre u →
      Run Step u post w₂ → Got t p pre → u.state.allBlocks.lookup p = some b) ∧
    ∀ b ∈ l.blocks, ∃ p, Got t p mid ∧ w₂.state.allBlocks.lookup p = some b := by
  have hinv₀ := invariant_of_run h
  have hinv₁ := hinv₀.step hbegin
  have hinv₂ : Invariant w₂ := hmid.invariant Invariant (fun _ _ _ hi hs => hi.step hs) hinv₁
  have hinv₃ := hinv₂.step hcommit
  have hpool : w₂.poolAlive = true := hcommit.1
  have hstart : Gathered t w₁.state.captureGeneration [] w₁ := by
    cases hinv₀.effect_of_step hbegin with
    | began hmode hmax =>
      refine ⟨⟨rfl, rfl⟩, rfl, ?_, ?_⟩
      · rintro p ⟨-, y, hy, -⟩
        cases hy
      · intro b hb
        have hb : b ∈ w₀.state.captureFrozenBlocks := hb
        rw [hinv₀.pins.idle hmode] at hb
        cases hb
  have hgathered := gathered_of_run hinv₁ hmid hstart hpool hends
  obtain ⟨hcgen, hpast, hcarried⟩ := carried_by_commit hinv₂ hcommit
  obtain ⟨hinv₄, hcarried₄⟩ := carried_after_commit hinv₃ hpast hcarried hrest
  obtain ⟨hblocks, hnodup⟩ := lease_blocks hinv₄ hlease
  have hsame : l.blocks = w₂.state.captureFrozenBlocks := hcarried₄ _ (hgen ▸ hblocks)
  rw [hsame] at hnodup ⊢
  refine ⟨hnodup, fun p hp => ?_, hgathered.source⟩
  obtain ⟨b, hb, hlookup⟩ := hgathered.frozen p hp
  refine ⟨b, hb, ?_⟩
  rintro pre post u rfl hpre hpost hgot
  -- At the cut the transaction has the block it got there, and the rest of the run keeps it.
  have hinvu : Invariant u := hpre.invariant Invariant (fun _ _ _ hi hs => hi.step hs) hinv₁
  have hpoolu := poolAlive_of_run hinvu hpost hpool
  have hu := gathered_of_run hinv₁ hpre hstart hpoolu fun x hx => hends x (by simp [hx])
  obtain ⟨b', hb', hlookup'⟩ := hu.frozen p hgot
  have hactiveu : u.Active w₁.state.captureGeneration := ⟨hpoolu, hu.owner.1, hu.generation⟩
  have hkept := kept_of_carried hinvu hlookup'
    (fun m hm => (hm.eq_of_active hinvu hactiveu).symm ▸ hb') hu.generation.ge hpost
    ⟨_, .active ⟨hpool, hgathered.owner.1, hgathered.generation⟩⟩
  rw [hlookup', ← hkept.lookup, hlookup]

/-- Thread 7 allocates two blocks and gives the first back, which thread 8 takes; thread 8 then
makes the pool grow. -/
def sharedEvents : List Event :=
  [.allocate 7 100 (.granting 1 4096), .allocateExact 7 512 (.granting 2 8192),
    .deallocate 7 4096 true, .allocate 8 50 (.granting 3 12288),
    .allocate 8 50 (.granting 3 12288)]

/-- The pool after these events, in a transaction of thread 7. -/
def sharedPool : World := (pinnedPool.runEvents sharedEvents).1

/-- Its commit has left the locked section. -/
def sharedCommit : World := (sharedPool.perform (.commitPinMode 7)).1

/-- The commit is about to allocate the control block of the lease. -/
def sharedLast : World :=
  (sharedCommit.runEvents [.advanceCommit ⟨7, 1, [1, 2], [], .makePinState⟩ true,
    .advanceCommit ⟨7, 1, [], [1, 2], .newPinLease⟩ true]).1

theorem lease_contents_of_shared :
    [1, 2].Nodup ∧
    (∀ p, Got 7 p (pinnedPool.runEvents sharedEvents).2 → ∃ b ∈ [1, 2], ∀ pre post u,
      (pinnedPool.runEvents sharedEvents).2 = pre ++ post → Run Step pinnedPool pre u →
      Run Step u post sharedPool → Got 7 p pre → u.state.allBlocks.lookup p = some b) ∧
    ∀ b ∈ [1, 2], ∃ p, Got 7 p (pinnedPool.runEvents sharedEvents).2 ∧
      sharedPool.state.allBlocks.lookup p = some b :=
  lease_contents (l := ⟨1, [1, 2]⟩) (d := ⟨7, 1, [], [1, 2], .controlBlock⟩)
    (poolRun_runEvents (show (World.initial none false).CanRun [] by decide))
    (⟨by decide, rfl⟩ : Step (World.initial none false) (.beginPinMode 7, .ok .none) pinnedPool)
    (World.run_runEvents (by decide) : Run Step pinnedPool _ sharedPool) (by decide)
    (⟨by decide, rfl⟩ : Step sharedPool
      (.commitPinMode 7, .ok (.committing ⟨7, 1, [1, 2], [], .makePinState⟩)) sharedCommit)
    (World.run_runEvents (by decide) : Run Step sharedCommit _ sharedLast)
    (⟨by decide, rfl⟩ : Step sharedLast (.advanceCommit ⟨7, 1, [], [1, 2], .controlBlock⟩ true,
      .ok (.lease ⟨1, [1, 2]⟩)) _) rfl

end InfiniRT.Pool
