import InfiniRT.Pool.Invariant

/-!
# The ledger of logical owners

The ledger of an address is read off the calls of a run alone: every allocation that returned the
address and every `retain_allocation` of it adds an owner, every `deallocate` of it takes one away.
It equals the `use_count` the pool keeps, and with it says when a block may be handed out again.
Proved:

* **`useCountAt_of_run`** — over any part of a run the `use_count` changes as the calls say;
* **`Placement.reusable_iff`** — a block may be reused exactly if it has no owner;
* **`exclusive_ownership`** — each block is in its place, and no allocation returns an address that
  has an owner.
-/

namespace InfiniRT.Pool

open InfiniRT.Library

variable {w w' w₀ : World} {e : Event} {o : Outcome} {x : Event × Outcome} {s s' : State}
  {b c : BlockId} {p q : Ptr} {trace before since : List (Event × Outcome)}

/-- A successful `allocate` or `allocate_exact` returned `p`. -/
def isGrant (p : Ptr) : Event × Outcome → Bool
  | (.allocate .., .ok (.pointer q)) => q = p
  | (.allocateExact .., .ok (.pointer q)) => q = p
  | _ => false

/-- A successful `retain_allocation(p)`. -/
def isRetain (p : Ptr) : Event × Outcome → Bool
  | (.retainAllocation _ q, .ok _) => q = p
  | _ => false

/-- A successful `deallocate(p)`. -/
def isRelease (p : Ptr) : Event × Outcome → Bool
  | (.deallocate _ q _, .ok _) => q = p
  | _ => false

/-- The logical owners of `p` after a run. -/
def ledger (p : Ptr) (trace : List (Event × Outcome)) : ℤ :=
  trace.countP (isGrant p) + trace.countP (isRetain p) - trace.countP (isRelease p)

/-- What one call does to the ledger of `p`. -/
def ledgerChange (p : Ptr) (x : Event × Outcome) : ℤ := ledger p [x]

theorem ledger_append (p : Ptr) (trace trace' : List (Event × Outcome)) :
    ledger p (trace ++ trace') = ledger p trace + ledger p trace' := by
  simp only [ledger, List.countP_append]
  omega

/-- The `use_count` at an address, if it is tracked. -/
def State.useCountAt (s : State) (p : Ptr) : ℕ :=
  (s.allBlocks.lookup p).elim 0 fun b => (s.blocks b).useCount

theorem useCountAt_of_lookup (h : s.allBlocks.lookup p = some b) :
    s.useCountAt p = (s.blocks b).useCount := by
  simp [State.useCountAt, h]

theorem useCountAt_of_untracked (h : s.allBlocks.lookup p = none) : s.useCountAt p = 0 := by
  simp [State.useCountAt, h]

theorem useCountAt_congr (hall : s'.allBlocks.lookup p = s.allBlocks.lookup p)
    (hblocks : ∀ b, s.allBlocks.lookup p = some b →
      (s'.blocks b).useCount = (s.blocks b).useCount) : s'.useCountAt p = s.useCountAt p := by
  cases hp : s.allBlocks.lookup p with
  | none => rw [useCountAt_of_untracked hp, useCountAt_of_untracked (hall.trans hp)]
  | some b => rw [useCountAt_of_lookup hp, useCountAt_of_lookup (hall.trans hp), hblocks b hp]

/-- `trim` takes away only addresses without owners. -/
theorem TrimStep.useCountAt (hs : TrimStep s s') (hplace : Placement s) (p : Ptr) :
    s'.useCountAt p = s.useCountAt p := by
  have hremoved : ∀ {c}, s.Tracked c → (s.blocks c).inUse = false →
      s'.allBlocks = s.allBlocks.erase (s.blocks c).ptr → s'.useCountAt p = s.useCountAt p := by
    intro c hc hidle hall
    by_cases hp : p = (s.blocks c).ptr
    · subst hp
      rw [useCountAt_of_lookup (hplace.lookup_ptr hc), hplace.useCount_eq_zero hc hidle,
        useCountAt_of_untracked (by rw [hall, AList.lookup_erase])]
    · refine useCountAt_congr (by rw [hall, AList.lookup_erase_ne hp]) fun b _ => ?_
      rw [hs.blocks]
  cases hs with
  | @free i kept rest c hlist hpin =>
    have hc : s.Idle i c := hplace.mem_free.mp (by rw [hlist]; simp)
    exact hremoved hc.1 hc.2.2.2 rfl
  | @large kept rest c hlist hpin huse =>
    have hc : s.Bulky c := hplace.mem_large.mp (by rw [hlist]; simp)
    exact hremoved hc.1 huse rfl
  | refused hb hstatus => rfl

theorem TrimSteps.useCountAt (hs : TrimSteps s s') (hplace : Placement s) (p : Ptr) :
    s'.useCountAt p = s.useCountAt p ∧ Placement s' := by
  induction hs with
  | refl => exact ⟨rfl, hplace⟩
  | tail _ hlast ih => exact ⟨(hlast.useCountAt ih.2 p).trans ih.1, ih.2.trimStep hlast⟩

/-! ### The law of the ledger -/

theorem ledgerChange_error (p : Ptr) (e : Event) (x : Exn) : ledgerChange p (e, .error x) = 0 := by
  cases e <;> rfl

theorem ledgerChange_grant {t : ThreadId} {size : ℕ} {isExact : Bool} {ans : AllocAnswer}
    (hreq : e.Requests t size isExact ans) (p q : Ptr) :
    ledgerChange p (e, .ok (.pointer q)) = if q = p then 1 else 0 := by
  cases hreq <;> by_cases hqp : q = p <;>
    simp [ledgerChange, ledger, isGrant, isRetain, isRelease, hqp]

/-- **One step of the ledger**: the `use_count` at an address changes as the call says. -/
theorem Effect.useCountAt (h : Invariant w) (henabled : w.Enabled e) (he : Effect w e o w')
    (hp : p ≠ nullptr) :
    (w'.state.useCountAt p : ℤ) = w.state.useCountAt p + ledgerChange p (e, o) := by
  have hsound := h.sound (h.closed_of_enabled henabled)
  have hplace := h.placement
  have hsame : ∀ {s' : State}, s'.useCountAt p = w.state.useCountAt p → ledgerChange p (e, o) = 0 →
      (s'.useCountAt p : ℤ) = w.state.useCountAt p + ledgerChange p (e, o) := by
    intro s' hcount hchange
    rw [hcount, hchange, Int.add_zero]
  have hreleased : ∀ l, (w.state.releaseFrozenBlocks l).useCountAt p = w.state.useCountAt p := by
    intro l
    rw [releaseFrozenBlocks_eq]
    rfl
  have hclosed : ∀ (w₁ : World) (ans : DestroyAnswer),
      (w₁.closeIfUnowned ans).state.useCountAt p = w₁.state.useCountAt p := by
    intro w₁ ans
    rw [World.closeIfUnowned_rest]
    rfl
  cases he with
  | @failed e t size isExact ans s' hreq x hs =>
    have hans := (hreq.answers henabled).2
    refine hsame (useCountAt_congr (by rw [hs.rest]) fun b hb => ?_) (ledgerChange_error p e x)
    rw [hs.blocks b fun hnew => hans.fresh.block b hnew ⟨p, hb⟩]
  | null => exact hsame rfl ((ledgerChange_grant (.allocate ..) p nullptr).trans (if_neg hp.symm))
  | @allocated e t size isExact ans q s' hreq hs =>
    have hans := (hreq.answers henabled).2
    obtain ⟨b, hserved⟩ := hs.served hsound hans.fresh
    have hplace' := (hsound.allocated hans.fresh hs).placement
    by_cases hqp : q = p
    · subst hqp
      have hzero : w.state.useCountAt q = 0 := by
        rcases hserved.origin with ⟨hlookup, hidle, -⟩ | ⟨hlookup, -⟩
        · rw [useCountAt_of_lookup hlookup, hplace.useCount_eq_zero ⟨q, hlookup⟩ hidle]
        · exact useCountAt_of_untracked hlookup
      show (s'.useCountAt q : ℤ) = _
      rw [useCountAt_of_lookup hserved.lookup, hserved.useCount, hzero,
        ledgerChange_grant hreq, if_pos rfl]
      rfl
    · have hlookup := hserved.lookup_ne p (Ne.symm hqp)
      refine hsame (useCountAt_congr hlookup fun c hc => ?_)
        ((ledgerChange_grant hreq p q).trans (if_neg hqp))
      rw [hserved.blocks_ne c
        (hplace'.ne_of_lookup (hlookup.trans hc) hserved.lookup (Ne.symm hqp))]
  | rejected x he => exact hsame rfl (ledgerChange_error p e x)
  | deallocateNull => exact hsame rfl (by
      simp [ledgerChange, ledger, isGrant, isRetain, isRelease, hp.symm])
  | @released t q b pushBack hq hlookup huse howner =>
    show ((w.state.release b).useCountAt p : ℤ) = _
    by_cases hqp : q = p
    · subst hqp
      rw [useCountAt_of_lookup ((congrArg _ (release_allBlocks _ _)).trans hlookup),
        release_useCount, useCountAt_of_lookup hlookup]
      simp only [ledgerChange, ledger, isGrant, isRetain, isRelease, List.countP_singleton,
        decide_true, Bool.false_eq_true, if_true, if_false]
      omega
    · refine hsame (useCountAt_congr (by rw [release_allBlocks]) fun c hc => ?_) (by
        simp [ledgerChange, ledger, isGrant, isRetain, isRelease, hqp])
      rw [release_blocks_ne _ (hplace.ne_of_lookup hc hlookup (Ne.symm hqp))]
  | @retained t q b hlookup =>
    show ((w.state.retain b).useCountAt p : ℤ) = _
    by_cases hqp : q = p
    · subst hqp
      rw [useCountAt_of_lookup ((congrArg _ (retain_allBlocks _ _)).trans hlookup),
        retain_useCount, useCountAt_of_lookup hlookup]
      simp only [ledgerChange, ledger, isGrant, isRetain, isRelease, List.countP_singleton,
        decide_true, Bool.false_eq_true, if_true, if_false]
      omega
    · refine hsame (useCountAt_congr (by rw [retain_allBlocks]) fun c hc => ?_) (by
        simp [ledgerChange, ledger, isGrant, isRetain, isRelease, hqp])
      rw [retain_blocks_ne _ (hplace.ne_of_lookup hc hlookup (Ne.symm hqp))]
  | dropped d hd hstage => exact hsame (hreleased d.retained) rfl
  | handled d granted hd hstage => exact hsame (hreleased d.blocks) rfl
  | canceled howner => exact hsame (hreleased w.state.captureFrozenBlocks) rfl
  | @frozen t q b freezeAns flag howner hlookup =>
    refine hsame (useCountAt_congr (by rw [freeze_allBlocks]) fun c _ => ?_) rfl
    rw [freeze_blocks]
  | trimmed trimAns o hs => exact hsame (hs.useCountAt hplace p).1 rfl
  | leaseDropped l destroyAns hl =>
    exact hsame ((hclosed _ destroyAns).trans (hreleased l.blocks)) rfl
  | poolDropped destroyAns hpool hcommits => exact hsame (hclosed _ destroyAns) rfl
  | _ => exact hsame rfl rfl

/-- **The law of the ledger** over any part of a run. -/
theorem useCountAt_of_run (h : Invariant w₀) (hrun : Run Step w₀ since w) (hp : p ≠ nullptr) :
    (w.state.useCountAt p : ℤ) = w₀.state.useCountAt p + ledger p since := by
  refine (hrun.history (fun trace w => Invariant w ∧
    (w.state.useCountAt p : ℤ) = w₀.state.useCountAt p + ledger p trace) ?_ ⟨h, by simp [ledger]⟩).2
  rintro trace w x w' ⟨hinv, hcount⟩ hstep
  refine ⟨hinv.step hstep, ?_⟩
  rw [(hinv.effect_of_step hstep).useCountAt hinv hstep.1 hp, hcount, ledger_append, Int.add_assoc]
  rfl

/-! ### When a block may be handed out again -/

/-- `allocate` and `allocate_exact` may take the block: it is in a list they search, and the search
does not skip it. -/
def State.Reusable (s : State) (b : BlockId) : Prop :=
  ((∃ i, b ∈ s.freeBlocks i) ∨ b ∈ s.largeBlocks) ∧ (s.blocks b).inUse = false

/-- A tracked block may be reused exactly while it has no owner. -/
theorem Placement.reusable_iff (h : Placement s) (hb : s.Tracked b) :
    s.Reusable b ↔ (s.blocks b).useCount = 0 := by
  constructor
  · exact fun hreuse => h.useCount_eq_zero hb hreuse.2
  · intro hzero
    have hidle : (s.blocks b).inUse = false := by
      rw [← Bool.not_eq_true, h.owners b hb]
      omega
    refine ⟨?_, hidle⟩
    by_cases hkind : (s.blocks b).kind = .SizeClass
    · exact .inl ⟨_, h.mem_free.mpr ⟨hb, hkind, rfl, hidle⟩⟩
    · exact .inr (h.mem_large.mpr ⟨hb, hkind⟩)

/-- A tracked block may be trimmed exactly while it has neither owner nor pin. -/
theorem Placement.trimmable_iff (h : Placement s) (hb : s.Tracked b) :
    s.Trimmable b ↔ (s.blocks b).useCount = 0 ∧ (s.blocks b).pinCount = 0 := by
  rw [← h.reusable_iff hb]
  constructor
  · rintro ⟨hpin, ⟨i, hfree⟩ | ⟨hlarge, hidle⟩⟩
    · exact ⟨⟨.inl ⟨i, hfree⟩, (h.mem_free.mp hfree).2.2.2⟩, hpin⟩
    · exact ⟨⟨.inr hlarge, hidle⟩, hpin⟩
  · rintro ⟨⟨hfree | hlarge, hidle⟩, hpin⟩
    · exact ⟨hpin, .inl hfree⟩
    · exact ⟨hpin, .inr ⟨hlarge, hidle⟩⟩

/-- Each call does one thing at most to the ledger of an address. -/
theorem ledgerChange_eq (p : Ptr) (x : Event × Outcome) :
    ledgerChange p x =
      if isGrant p x ∨ isRetain p x then 1 else if isRelease p x then -1 else 0 := by
  obtain ⟨e, o⟩ := x
  cases e <;> rcases o with x | v <;> try rfl
  all_goals cases v <;> try rfl
  all_goals
    simp only [ledgerChange, ledger, isGrant, isRetain, isRelease, List.countP_singleton]
    split_ifs <;> simp_all

theorem Invariant.ne_nullptr (h : Invariant w) (hb : w.state.allBlocks.lookup p = some b) :
    p ≠ nullptr := by
  rintro rfl
  exact h.nonnull (AList.lookup_isSome.mp (by rw [hb]; rfl))

/-- The use counts at a tracked address before and after one step. -/
theorem useCount_step (h : Invariant w) (hstep : Step w x w')
    (hb : w.state.allBlocks.lookup p = some b) (hb' : w'.state.allBlocks.lookup p = some b) :
    ((w'.state.blocks b).useCount : ℤ) = (w.state.blocks b).useCount + ledgerChange p x := by
  have hp : p ≠ nullptr := h.ne_nullptr hb
  have := (h.effect_of_step hstep).useCountAt h hstep.1 hp
  rwa [useCountAt_of_lookup hb, useCountAt_of_lookup hb'] at this

/-- A grant finds no owner. -/
theorem useCountAt_of_grant (h : Invariant w) (hstep : Step w x w') (hx : isGrant p x)
    (hp : p ≠ nullptr) : w.state.useCountAt p = 0 := by
  obtain ⟨e, o⟩ := x
  have hsound := h.sound (h.closed_of_enabled hstep.1)
  have hgrant : ∀ {t : ThreadId} {size : ℕ} {isExact : Bool} {ans : AllocAnswer} {q : Ptr},
      e.Requests t size isExact ans → o = .ok (.pointer q) → q = p := by
    rintro t size isExact ans q hreq rfl
    cases hreq <;> simpa [isGrant] using hx
  cases h.effect_of_step hstep with
  | null => exact absurd (hgrant (.allocate ..) rfl).symm hp
  | @allocated e t size isExact ans q s' hreq hs =>
    obtain rfl := hgrant hreq rfl
    have hans : w.Answers ans := by
      have := hstep.1
      cases hreq <;> exact this.2
    obtain ⟨b, hserved⟩ := hs.served hsound hans.fresh
    rcases hserved.origin with ⟨hlookup, hidle, -⟩ | ⟨hlookup, -⟩
    · rw [useCountAt_of_lookup hlookup, h.placement.useCount_eq_zero ⟨q, hlookup⟩ hidle]
    · exact useCountAt_of_untracked hlookup
  | failed hreq => cases hreq <;> cases hx
  | rejected x he => cases e <;> cases hx
  | _ => cases hx

/-- A release finds an owner. -/
theorem useCount_of_release (h : Invariant w) (hstep : Step w x w') (hx : isRelease p x)
    (hb : w.state.allBlocks.lookup p = some b) : 0 < (w.state.blocks b).useCount := by
  obtain ⟨e, o⟩ := x
  cases h.effect_of_step hstep with
  | deallocateNull t pushBack =>
    have hp : nullptr = p := by simpa [isRelease] using hx
    exact absurd hp.symm (h.ne_nullptr hb)
  | @released t q c pushBack hq hlookup huse howner =>
    have hp : q = p := by simpa [isRelease] using hx
    subst hp
    rw [hlookup, Option.some.injEq] at hb
    exact hb ▸ howner
  | failed hreq => cases hreq <;> cases hx
  | allocated hreq => cases hreq <;> cases hx
  | rejected x he => cases e <;> cases hx
  | _ => cases hx

/-! ### Exclusive ownership -/

theorem useCountAt_initial (stream : Option Stream) (isNvidia : Bool) (p : Ptr) :
    (World.initial stream isNvidia).state.useCountAt p = 0 :=
  useCountAt_of_untracked (AList.lookup_empty p)

/-- **Exclusive ownership.** In every reachable state each block is in its place, and no allocation
returns an address that still has an owner.  (Owners are counted by natural numbers: the statement
is about runs in which no `std::size_t` wraps.) -/
theorem exclusive_ownership (h : PoolRun trace w) :
    Placement w.state ∧
      ∀ x w' p, Step w x w' → isGrant p x → p ≠ nullptr → ledger p trace = 0 := by
  have hinv := invariant_of_run h
  refine ⟨hinv.placement, fun x w' p hstep hx hp => ?_⟩
  obtain ⟨stream, isNvidia, hrun⟩ := h
  have hlaw := useCountAt_of_run (Invariant.initial stream isNvidia) hrun hp
  have hzero := useCountAt_of_grant hinv hstep hx hp
  have hstart := useCountAt_initial stream isNvidia p
  omega

/-- A pool whose one block was allocated on one thread and given back on another. -/
def givenBackPool : World :=
  ((World.initial (some 5) true).runEvents
    [.allocate 1 100 (.granting 1 4096), .deallocate 2 4096 true]).1

theorem exclusive_ownership_of_reuse :
    Placement givenBackPool.state ∧
      ledger 4096 [(.allocate 1 100 (.granting 1 4096), .ok (.pointer 4096)),
        (.deallocate 2 4096 true, .ok .none)] = 0 :=
  have h := exclusive_ownership (poolRun_runEvents (by decide) : PoolRun _ givenBackPool)
  ⟨h.1, h.2 (.allocate 3 200 (.granting 2 8192), .ok (.pointer 4096)) _ 4096 ⟨by decide, rfl⟩ rfl
    (by decide)⟩

end InfiniRT.Pool
