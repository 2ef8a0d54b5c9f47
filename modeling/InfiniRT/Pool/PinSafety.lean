import InfiniRT.Pool.Transactions

/-!
# The memory of a pinned block stays

While a block is pinned, no operation gives its memory back and its address keeps naming it.  A
block frozen in a transaction is pinned as long as the transaction is carried, so its memory stays
valid until the transaction is cancelled, its commit fails, or its lease goes away.  Proved:

* **`Effect.kept`** — no effect but `~State` gives back a pinned block;
* **`pinned_address_stays_valid`** — the address of a frozen block is valid as long as its
  transaction, commit or lease lasts.
-/

namespace InfiniRT.Pool

open InfiniRT.Library

variable {w w' w₀ w₁ : World} {e : Event} {o : Outcome} {s s' s'' : State} {b : BlockId} {p : Ptr}
  {g : ℕ} {t : ThreadId} {trace since : List (Event × Outcome)}

/-- Between two states the address was passed neither to `Free` nor to `FreeAsync`. -/
def NotFreed (p : Ptr) (s s' : State) : Prop :=
  ∃ new, s'.calls = new ++ s.calls ∧ ∀ stream status, .free stream p status ∉ new

theorem NotFreed.of_calls (h : s'.calls = s.calls) : NotFreed p s s' :=
  ⟨[], h, fun _ _ => List.not_mem_nil⟩

theorem NotFreed.trans (h : NotFreed p s s') (h' : NotFreed p s' s'') : NotFreed p s s'' := by
  obtain ⟨new, hcalls, hnew⟩ := h
  obtain ⟨new', hcalls', hnew'⟩ := h'
  refine ⟨new' ++ new, by rw [hcalls', hcalls, List.append_assoc], fun stream status hmem => ?_⟩
  rcases List.mem_append.mp hmem with hmem | hmem
  · exact hnew' stream status hmem
  · exact hnew stream status hmem

/-- The address names the block in both states, and was not given back in between. -/
structure Kept (p : Ptr) (b : BlockId) (s s' : State) : Prop where
  lookup : s'.allBlocks.lookup p = some b
  notFreed : NotFreed p s s'

theorem Kept.of_eq (hp : s.allBlocks.lookup p = some b) (hall : s'.allBlocks = s.allBlocks)
    (hcalls : s'.calls = s.calls) : Kept p b s s' :=
  ⟨by rw [hall, hp], .of_calls hcalls⟩

/-- `trim` leaves alone what it may not give back. -/
theorem TrimStep.kept (hs : TrimStep s s') (hplace : Placement s)
    (hp : s.allBlocks.lookup p = some b) (hb : ¬ s.Trimmable b) : Kept p b s s' := by
  have hother : ∀ {c}, s.Trimmable c → p ≠ (s.blocks c).ptr := by
    rintro c hfree rfl
    rw [hplace.lookup_ptr (hplace.tracked_of_trimmable hfree), Option.some.injEq] at hp
    exact hb (hp ▸ hfree)
  have hfreed : ∀ {c : BlockId} {status : Error} {s' : State}, s.Trimmable c →
      s'.calls = .free s.allocationStream (s.blocks c).ptr status :: s.calls → NotFreed p s s' := by
    intro c status s' hfree hcalls
    refine ⟨[.free s.allocationStream (s.blocks c).ptr status], hcalls, fun stream st hmem => ?_⟩
    rw [List.mem_singleton, BackendCall.free.injEq] at hmem
    exact hother hfree hmem.2.1
  cases hs with
  | @free i kept rest c hlist hzero =>
    have hfree : s.Trimmable c := ⟨hzero, .inl ⟨i, by rw [hlist]; simp⟩⟩
    refine ⟨?_, hfreed hfree rfl⟩
    show (s.allBlocks.erase _).lookup p = some b
    rw [AList.lookup_erase_ne (hother hfree), hp]
  | @large kept rest c hlist hzero huse =>
    have hfree : s.Trimmable c := ⟨hzero, .inr ⟨by rw [hlist]; simp, huse⟩⟩
    refine ⟨?_, hfreed hfree rfl⟩
    show (s.allBlocks.erase _).lookup p = some b
    rw [AList.lookup_erase_ne (hother hfree), hp]
  | @refused c status hfree hstatus => exact ⟨hp, hfreed hfree rfl⟩

/-- `trim` makes nothing trimmable. -/
theorem TrimStep.trimmable (hs : TrimStep s s') (hb : s'.Trimmable b) : s.Trimmable b := by
  obtain ⟨hpin, hlists⟩ := hb
  rw [hs.blocks] at hpin hlists
  refine ⟨hpin, ?_⟩
  cases hs with
  | @free i kept rest c hlist hzero =>
    rcases hlists with ⟨j, hmem⟩ | hlarge
    · rw [State.freeBlocks_setFreeBlocks] at hmem
      split_ifs at hmem with hj
      · refine .inl ⟨i, ?_⟩
        rw [hlist]
        exact List.Sublist.subset ((List.sublist_cons_self c rest).append_left kept) hmem
      · exact .inl ⟨j, hmem⟩
    · exact .inr hlarge
  | @large kept rest c hlist hzero huse =>
    rcases hlists with ⟨j, hmem⟩ | ⟨hmem, hidle⟩
    · exact .inl ⟨j, hmem⟩
    · refine .inr ⟨?_, hidle⟩
      rw [hlist]
      exact List.Sublist.subset ((List.sublist_cons_self c rest).append_left kept) hmem
  | refused hc hstatus => exact hlists

theorem TrimSteps.kept (hs : TrimSteps s s') (hplace : Placement s)
    (hp : s.allBlocks.lookup p = some b) (hb : ¬ s.Trimmable b) :
    Kept p b s s' ∧ Placement s' ∧ ¬ s'.Trimmable b := by
  induction hs with
  | refl => exact ⟨.of_eq hp rfl rfl, hplace, hb⟩
  | tail _ hlast ih =>
    obtain ⟨hkept, hplace', hb'⟩ := ih
    have hone := hlast.kept hplace' hkept.lookup hb'
    exact ⟨⟨hone.lookup, hkept.notFreed.trans hone.notFreed⟩, hplace'.trimStep hlast,
      fun htrim => hb' (hlast.trimmable htrim)⟩

/-- **No effect but `~State` gives back a block that `trim` may not give back.** -/
theorem Effect.kept (h : Invariant w) (henabled : w.Enabled e) (he : Effect w e o w')
    (hopen : w'.closed = false) (hp : w.state.allBlocks.lookup p = some b)
    (hb : ¬ w.state.Trimmable b) : Kept p b w.state w'.state := by
  have hsound := h.sound (h.closed_of_enabled henabled)
  have hlive : p ∈ live w.state.calls :=
    hsound.backing.live p (AList.lookup_isSome.mp (by rw [hp]; rfl))
  have hreleased : ∀ l, Kept p b w.state (w.state.releaseFrozenBlocks l) := fun l => by
    rw [releaseFrozenBlocks_eq]
    exact .of_eq hp rfl rfl
  have hdrained : ∀ {w₁ : World} {ans : DestroyAnswer}, Kept p b w.state w₁.state →
      (w₁.closeIfUnowned ans).closed = false → Kept p b w.state (w₁.closeIfUnowned ans).state := by
    intro w₁ ans hkept hstill
    rwa [World.closeIfUnowned_of_open hstill]
  cases he with
  | @failed e t size isExact ans s' hreq x hs =>
    have hans := (hreq.answers henabled).2
    have hne : ans.backend.out ≠ p := fun hout => hans.2.2 (hout ▸ hlive)
    refine ⟨by rw [hs.rest]; exact hp, ?_⟩
    rcases hs.calls with hcalls | ⟨n, ⟨-, -, hcalls⟩ | ⟨-, hcalls⟩⟩
    · exact .of_calls hcalls
    · exact ⟨[_], hcalls, fun stream status hmem => by simp at hmem⟩
    · refine ⟨[_, _], hcalls, fun stream status hmem => ?_⟩
      simp only [List.mem_cons, BackendCall.free.injEq, List.not_mem_nil, or_false] at hmem
      rcases hmem with hmem | hmem
      · exact hne hmem.2.1.symm
      · cases hmem
  | null => exact .of_eq hp rfl rfl
  | @allocated e t size isExact ans q s' hreq hs =>
    have hans := (hreq.answers henabled).2
    obtain ⟨c, hserved⟩ := hs.served hsound hans.fresh
    refine ⟨?_, ?_⟩
    · by_cases hpq : p = q
      · subst hpq
        rcases hserved.origin with ⟨hlookup, -⟩ | ⟨hlookup, -⟩
        · show s'.allBlocks.lookup p = some b
          rw [hserved.lookup, ← hlookup, hp]
        · rw [hlookup] at hp
          cases hp
      · exact (hserved.lookup_ne p hpq).trans hp
    · rcases hserved.origin with ⟨-, -, hcalls⟩ | ⟨-, -, -, stream, n, hcalls⟩
      · exact .of_calls hcalls
      · exact ⟨[_], hcalls, fun stream status hmem => by simp at hmem⟩
  | rejected => exact .of_eq hp rfl rfl
  | deallocateNull => exact .of_eq hp rfl rfl
  | released =>
    refine .of_eq hp ?_ ?_ <;> simp only [State.release, State.giveBack] <;> split_ifs <;> rfl
  | retained =>
    refine .of_eq hp ?_ ?_ <;> simp only [State.retain] <;> split_ifs <;> rfl
  | began => exact .of_eq hp rfl rfl
  | nothingToCommit => exact .of_eq hp rfl rfl
  | committed => exact .of_eq hp rfl rfl
  | builtPinState => exact .of_eq hp rfl rfl
  | noPinState => exact .of_eq hp rfl rfl
  | builtPinLease => exact .of_eq hp rfl rfl
  | dropped d hd hstage => exact hreleased d.retained
  | leased => exact .of_eq hp rfl rfl
  | handled d granted hd hstage => exact hreleased d.blocks
  | canceled howner =>
    have hkept := hreleased w.state.captureFrozenBlocks
    exact ⟨hkept.lookup, hkept.notFreed⟩
  | frozen freezeAns flag howner hlookup =>
    exact .of_eq hp (freeze_allBlocks _ _ _) (freeze_calls _ _ _)
  | readBytes => exact .of_eq hp rfl rfl
  | trimmed trimAns o hs => exact (hs.kept hsound.placement hp hb).1
  | leaseDropped l destroyAns hl => exact hdrained (hreleased l.blocks) hopen
  | poolDropped destroyAns hpool hcommits => exact hdrained (.of_eq hp rfl rfl) hopen

/-- The block of a carried transaction keeps its memory along a run. -/
theorem kept_of_carried (h : Invariant w₀) (hp : w₀.state.allBlocks.lookup p = some b)
    (hfrozen : ∀ l, Carries w₀ g l → b ∈ l) (hg : g ≤ w₀.state.captureGeneration)
    (hrun : Run Step w₀ since w) (hlasts : ∃ l, Carries w g l) :
    Kept p b w₀.state w.state := by
  have hmono : ∀ {w l w'}, Invariant w → Step w l w' →
      w.state.captureGeneration ≤ w'.state.captureGeneration := by
    intro w l w' hinv hstep
    exact (hinv.effect_of_step hstep).captureGeneration_le hinv hstep.1
  refine (hrun.persists (fun w => Invariant w ∧ g ≤ w.state.captureGeneration)
    (fun w => Kept p b w₀.state w.state ∧ ∀ l, Carries w g l → b ∈ l)
    (fun w => ∃ l, Carries w g l) ?_ ?_ ?_ ⟨h, hg⟩ ⟨.of_eq hp rfl rfl, hfrozen⟩ hlasts).1
  · exact fun w l w' hinv hstep => ⟨hinv.1.step hstep, hinv.2.trans (hmono hinv.1 hstep)⟩
  · rintro w l w' hinv hstep ⟨m, hm⟩
    obtain ⟨m', hm', -⟩ := hm.back_of_step hinv.1 hstep hinv.2
    exact ⟨m', hm'⟩
  · rintro w l w' hinv ⟨hkept, hmem⟩ hstep ⟨m, hm⟩
    obtain ⟨m', hm', -⟩ := hm.back_of_step hinv.1 hstep hinv.2
    have hone := (hinv.1.effect_of_step hstep).kept hinv.1 hstep.1
      (hm.open_of_carries (hinv.1.step hstep)) hkept.lookup
      fun htrim => (hm'.pinCount_pos hinv.1 (hmem m' hm')).ne' htrim.1
    refine ⟨⟨hone.lookup, hkept.notFreed.trans hone.notFreed⟩, fun l hl => ?_⟩
    obtain ⟨l', hl', hprefix, -⟩ := hl.back_of_step hinv.1 hstep hinv.2
    exact hprefix.subset (hmem l' hl')

/-! ### From the step that froze the block -/

/-- The thread and the address of a block that an event hands to a thread: by an allocation that
returned it or by a `retain_for_capture` of it. -/
def obtained : Event × Outcome → Option (ThreadId × Ptr)
  | (.allocate t _ _, .ok (.pointer p)) => some (t, p)
  | (.allocateExact t _ _, .ok (.pointer p)) => some (t, p)
  | (.retainForCapture t p _, .ok _) => some (t, p)
  | _ => none

@[simp] theorem obtained_error (e : Event) (x : Exn) : obtained (e, .error x) = none := by
  cases e <;> rfl

theorem obtained_of_requests {size : ℕ} {isExact : Bool} {ans : AllocAnswer}
    (hreq : e.Requests t size isExact ans) (p : Ptr) :
    obtained (e, .ok (.pointer p)) = some (t, p) := by
  cases hreq <;> rfl

/-- A freeze by the owner of the transaction puts the block among the frozen ones. -/
theorem mem_frozen_of_freeze (hpins : ∀ c, c ∈ s.captureFrozenBlockSet ↔ c ∈ s.captureFrozenBlocks)
    (howner : s.OwnsPinMode t) : b ∈ (s.freeze t b).captureFrozenBlocks := by
  rw [freeze_captureFrozenBlocks]
  split_ifs with hnew
  · simp
  · rw [← hpins]
    exact not_not.mp fun hb => hnew ⟨howner, hb⟩

/-- What the owner of a transaction obtains is frozen. -/
theorem frozen_of_obtains {l : Event × Outcome} (h : Invariant w) (hstep : Step w l w')
    (hl : obtained l = some (t, p)) (hp : p ≠ nullptr) (howner : w.state.OwnsPinMode t) :
    ∃ b, w'.state.allBlocks.lookup p = some b ∧ b ∈ w'.state.captureFrozenBlocks ∧
      w'.Active w.state.captureGeneration := by
  obtain ⟨e, o⟩ := l
  have henabled := hstep.1
  have hsound := h.sound (h.closed_of_enabled henabled)
  have hpool : w.poolAlive = true → ∀ {s' : State} {b},
      s'.transaction = (w.state.freeze t b).transaction →
      b ∈ s'.captureFrozenBlocks ∧
        { w with state := s' }.Active w.state.captureGeneration := by
    intro hpool s' b htrans
    have hfrozen : s'.captureFrozenBlocks = (w.state.freeze t b).captureFrozenBlocks :=
      congrArg Transaction.captureFrozenBlocks htrans
    have hmode : s'.pinnedMode = (w.state.freeze t b).pinnedMode :=
      congrArg Transaction.pinnedMode htrans
    have hgen : s'.captureGeneration = (w.state.freeze t b).captureGeneration :=
      congrArg Transaction.captureGeneration htrans
    refine ⟨hfrozen ▸ mem_frozen_of_freeze h.pins.members howner, hpool, ?_, ?_⟩
    · exact hmode.trans ((freeze_pinnedMode _ _ _).trans howner.1)
    · exact hgen.trans (freeze_captureGeneration _ _ _)
  cases h.effect_of_step hstep with
  | null =>
    cases hl
    exact absurd rfl hp
  | @allocated e t' size isExact ans q s' hreq hs =>
    rw [obtained_of_requests hreq, Option.some.injEq, Prod.mk.injEq] at hl
    obtain ⟨rfl, rfl⟩ := hl
    have hboth := hreq.answers henabled
    obtain ⟨b, hserved⟩ := hs.served hsound hboth.2.fresh
    exact ⟨b, hserved.lookup, hpool hboth.1 hserved.transaction⟩
  | @frozen t' q b freezeAns flag howner' hlookup =>
    cases hl
    refine ⟨b, ?_, hpool henabled rfl⟩
    show (w.state.freeze t b).allBlocks.lookup p = some b
    rw [freeze_allBlocks, hlookup]
  | failed hreq => cases hreq <;> cases hl
  | rejected => simp at hl
  | handled => cases hl
  | trimmed => cases hl
  | _ => cases hl

/-- The transaction `g` is open, its commit is still building the lease, or its lease is alive. -/
def World.Lasts (w : World) (g : ℕ) : Prop :=
  w.Active g ∨ (∃ c ∈ w.commits, c.generation = g ∧ c.stage ≠ .handler) ∨
    ∃ l ∈ w.leases, l.generation = g

theorem World.Lasts.carries (h : w.Lasts g) : ∃ l, Carries w g l := by
  rcases h with h | ⟨c, hc, hgen, hstage⟩ | ⟨l, hl, hgen⟩
  · exact ⟨_, .active h⟩
  · exact ⟨_, .commit hc hgen hstage⟩
  · exact ⟨_, .lease hl hgen⟩

/-- Only the open transaction carries its blocks. -/
theorem Carries.eq_of_active (h : Invariant w) (hactive : w.Active g) {l : List BlockId}
    (hl : Carries w g l) : l = w.state.captureFrozenBlocks := by
  have hfresh := hactive.2.2 ▸ h.owners.captureGeneration_notMem hactive.2.1
  cases hl with
  | active => rfl
  | commit hc hgen _ =>
    exact absurd (List.mem_append_left _ (List.mem_map.mpr ⟨_, hc, hgen⟩)) hfresh
  | lease hl hgen =>
    exact absurd (List.mem_append_right _ (List.mem_map.mpr ⟨_, hl, hgen⟩)) hfresh

/-- **A pinned address stays valid.** From the step in which the owner of a pin transaction obtains
a block, and for as long as the transaction is open, its commit is building the lease or the lease
is alive, the address names this block and is passed neither to `Free` nor to `FreeAsync`. -/
theorem pinned_address_stays_valid {l : Event × Outcome} (h : PoolRun trace w₀)
    (hstep : Step w₀ l w₁) (hl : obtained l = some (t, p)) (hp : p ≠ nullptr)
    (howner : w₀.state.OwnsPinMode t) (hrun : Run Step w₁ since w)
    (hlasts : w.Lasts w₀.state.captureGeneration) :
    ∃ b, w₁.state.allBlocks.lookup p = some b ∧ w.state.allBlocks.lookup p = some b ∧
      (w.state.blocks b).ptr = p ∧ NotFreed p w₁.state w.state := by
  have hinv := invariant_of_run h
  have hinv₁ := hinv.step hstep
  obtain ⟨b, hlookup, hfrozen, hactive⟩ := frozen_of_obtains hinv hstep hl hp howner
  have hkept := kept_of_carried hinv₁ hlookup
    (fun l hl => (hl.eq_of_active hinv₁ hactive).symm ▸ hfrozen) hactive.2.2.ge hrun
    hlasts.carries
  have hinv' : Invariant w := hrun.invariant Invariant (fun _ _ _ hi hs => hi.step hs) hinv₁
  exact ⟨b, hlookup, hkept.lookup, hinv'.placement.address p b hkept.lookup, hkept.notFreed⟩

/-- A pool on which thread 7 has opened a transaction. -/
def pinnedPool : World := ((World.initial none false).runEvents [.beginPinMode 7]).1

/-- The pool after thread 7 allocated a block in its transaction. -/
def frozenPool : World := (pinnedPool.perform (.allocate 7 100 (.granting 1 4096))).1

/-- The block was deallocated and trimmed around, and its lease has outlived the pool object. -/
def outlivedPool : World :=
  (frozenPool.runEvents
    [.deallocate 7 4096 true, .trim 3 .granting, .commitPinMode 7,
      .advanceCommit ⟨7, 1, [1], [], .makePinState⟩ true,
      .advanceCommit ⟨7, 1, [], [1], .newPinLease⟩ true,
      .advanceCommit ⟨7, 1, [], [1], .controlBlock⟩ true, .trim 3 .granting,
      .destroyPool .granting]).1

theorem pinned_address_stays_valid_after_pool :
    ∃ b, frozenPool.state.allBlocks.lookup 4096 = some b ∧
      outlivedPool.state.allBlocks.lookup 4096 = some b ∧
      (outlivedPool.state.blocks b).ptr = 4096 ∧
      NotFreed 4096 frozenPool.state outlivedPool.state :=
  pinned_address_stays_valid (poolRun_runEvents (by decide) : PoolRun _ pinnedPool)
    (⟨by decide, rfl⟩ :
      Step pinnedPool (.allocate 7 100 (.granting 1 4096), .ok (.pointer 4096)) frozenPool)
    rfl (by decide) (by decide)
    (World.run_runEvents (by decide) : Run Step frozenPool _ outlivedPool)
    (.inr (.inr ⟨⟨1, [1]⟩, by decide, rfl⟩))

end InfiniRT.Pool
