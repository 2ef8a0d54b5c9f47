import InfiniRT.Pool.Ledger

/-!
# The life of a block

A block is born when an allocation makes the pool grow, and lives as long as `all_blocks_` holds it.
What an event does to a living block is said once, in `Effect.life`: its address, size, kind and
class are never written again, its use and its pins may change, and its generation is rewritten
exactly by the allocation that returns it.  Proved:

* **`Allocated.supplied`** — a successful request gets a block of its kind that is large enough;
* **`Effect.life`** — what an event does to a block that it leaves tracked.
-/

namespace InfiniRT.Pool

open InfiniRT.Library

variable {w w' : World} {e : Event} {o : Outcome} {x : Event × Outcome} {s s' : State}
  {b c : BlockId} {p q : Ptr} {t : ThreadId} {held : List BlockId} {ans : AllocAnswer} {size : ℕ}
  {isExact : Bool} {trace : List (Event × Outcome)}

/-- The thread whose `allocate` or `allocate_exact` returned `p`, if the call is one that did. -/
def grantedTo (p : Ptr) : Event × Outcome → Option ThreadId
  | (.allocate t _ _, .ok (.pointer q)) => if q = p then some t else none
  | (.allocateExact t _ _, .ok (.pointer q)) => if q = p then some t else none
  | _ => none

@[simp] theorem grantedTo_error (p : Ptr) (e : Event) (y : Exn) :
    grantedTo p (e, .error y) = none := by
  cases e <;> rfl

theorem grantedTo_of_requests (hreq : e.Requests t size isExact ans) (p q : Ptr) :
    grantedTo p (e, .ok (.pointer q)) = if q = p then some t else none := by
  cases hreq <;> rfl

/-- The fields of a block that are written at its birth only. -/
structure SameLife (x y : Block) : Prop where
  ptr : y.ptr = x.ptr
  size : y.size = x.size
  kind : y.kind = x.kind
  classIndex : y.classIndex = x.classIndex

theorem SameLife.refl (x : Block) : SameLife x x := ⟨rfl, rfl, rfl, rfl⟩

theorem SameLife.trans {x y z : Block} (h : SameLife x y) (h' : SameLife y z) : SameLife x z :=
  ⟨h'.ptr.trans h.ptr, h'.size.trans h.size, h'.kind.trans h.kind,
    h'.classIndex.trans h.classIndex⟩

/-- `y` is `x` with another use, and with other pins. -/
def SameStamp (x y : Block) : Prop :=
  SameLife x y ∧ y.allocationCaptureGeneration = x.allocationCaptureGeneration

theorem SameStamp.refl (x : Block) : SameStamp x x := ⟨.refl x, rfl⟩

theorem release_sameStamp (s : State) (b c : BlockId) :
    SameStamp (s.blocks c) ((s.release b).blocks c) := by
  by_cases hc : c = b
  · subst hc
    unfold State.release State.giveBack
    split_ifs <;>
      simp [SameStamp, State.dropOwner, State.endUse, State.pushFree, State.setFreeBlocks,
        State.modifyBlock, State.setBlock] <;> exact ⟨rfl, rfl, rfl, rfl⟩
  · rw [release_blocks_ne _ hc]
    exact .refl _

theorem retain_sameStamp (s : State) (b c : BlockId) :
    SameStamp (s.blocks c) ((s.retain b).blocks c) := by
  by_cases hc : c = b
  · subst hc
    unfold State.retain
    split_ifs <;>
      simp [SameStamp, State.addOwner, State.dropFree, State.setFreeBlocks, State.modifyBlock,
        State.setBlock] <;> exact ⟨rfl, rfl, rfl, rfl⟩
  · rw [retain_blocks_ne _ hc]
    exact .refl _

theorem freeze_sameStamp (s : State) (t : ThreadId) (b c : BlockId) :
    SameStamp (s.blocks c) ((s.freeze t b).blocks c) := by
  rw [freeze_blocks]
  exact ⟨⟨rfl, rfl, rfl, rfl⟩, rfl⟩

theorem releaseFrozenBlocks_sameStamp (s : State) (l : List BlockId) (c : BlockId) :
    SameStamp (s.blocks c) ((s.releaseFrozenBlocks l).blocks c) := by
  rw [releaseFrozenBlocks_eq]
  exact ⟨⟨rfl, rfl, rfl, rfl⟩, rfl⟩

theorem stamp_sameLife (s : State) (b c : BlockId) (generation : ℕ) :
    SameLife (s.blocks c) ((s.stamp b generation).blocks c) := by
  by_cases hc : c = b
  · subst hc
    rw [State.stamp, State.modifyBlock_blocks_self]
    exact ⟨rfl, rfl, rfl, rfl⟩
  · rw [stamp_blocks_ne _ _ hc]
    exact .refl _

theorem startUse_sameStamp (s : State) (b c : BlockId) :
    SameStamp (s.blocks c) ((s.startUse b).blocks c) := by
  by_cases hc : c = b
  · subst hc
    rw [startUse_blocks_self]
    exact ⟨⟨rfl, rfl, rfl, rfl⟩, rfl⟩
  · rw [startUse_blocks_ne _ hc]
    exact .refl _

/-! ### What `trim` leaves -/

/-- `trim` adds nothing to `all_blocks_` and writes no block. -/
theorem TrimSteps.lookup (hs : TrimSteps s s') (hb : s'.allBlocks.lookup p = some b) :
    s.allBlocks.lookup p = some b := by
  have herase : ∀ {s : State} {q : Ptr}, (s.allBlocks.erase q).lookup p = some b →
      s.allBlocks.lookup p = some b := by
    intro s q hb
    by_cases hpq : p = q
    · rw [hpq, AList.lookup_erase] at hb
      cases hb
    · rwa [AList.lookup_erase_ne hpq] at hb
  induction hs with
  | refl => exact hb
  | tail _ hlast ih =>
    refine ih ?_
    cases hlast with
    | free => exact herase hb
    | large => exact herase hb
    | refused => exact hb

theorem TrimSteps.blocks (hs : TrimSteps s s') : s'.blocks = s.blocks := by
  induction hs with
  | refl => rfl
  | tail _ hlast ih => rw [hlast.blocks, ih]

/-! ### Birth and service -/

/-- A block that an allocation has just made for its request. -/
structure Newborn (size : ℕ) (isExact : Bool) (s : State) (b : BlockId) (s' : State) : Prop where
  untracked : ¬ s.Tracked b
  /-- The backend was asked for the size recorded. -/
  asked : ∃ stream, s'.calls =
    .malloc stream (s'.blocks b).size kSuccess (s'.blocks b).ptr :: s.calls
  kind : (s'.blocks b).kind = .SizeClass ∧
      s.requestClass size isExact = some (s'.blocks b).classIndex ∧
      (s'.blocks b).size = s.blockSize (s'.blocks b).classIndex ∨
    s.requestClass size isExact = none ∧ (s'.blocks b).kind = requestKind isExact ∧
      (s'.blocks b).size = roundUp size

/-- A cached block that fits a request. -/
structure Chosen (size : ℕ) (isExact : Bool) (s : State) (b : BlockId) : Prop where
  idle : (s.blocks b).inUse = false
  kind : (s.blocks b).kind = .SizeClass ∧
      s.requestClass size isExact = some (s.blocks b).classIndex ∨
    s.requestClass size isExact = none ∧ fitsLarge (roundUp size) isExact (s.blocks b)

/-- What a successful request returned, and what it wrote. -/
structure Supplied (t : ThreadId) (size : ℕ) (isExact : Bool) (s : State) (p : Ptr) (b : BlockId)
    (s' : State) : Prop where
  served : Served t s p b s'
  stamp : (s'.blocks b).allocationCaptureGeneration = s.generationFor t
  origin : s.allBlocks.lookup p = some b ∧ Chosen size isExact s b ∧
      SameLife (s.blocks b) (s'.blocks b) ∧ s'.calls = s.calls ∨
    s.allBlocks.lookup p = none ∧ (s'.blocks b).ptr = p ∧ p ∉ live s.calls ∧
      Newborn size isExact s b s'

/-- A block enrolled with the fields of `blk` keeps them while it is frozen and stamped. -/
theorem enrolled_sameLife (s : State) (ans : BackendAnswer) (b : BlockId) (blk : Block)
    {s₁ : State} (h : s₁.blocks = (s.enroll ans b blk).blocks) (t : ThreadId) (generation : ℕ) :
    SameLife { blk with ptr := ans.out } (((s₁.freeze t b).stamp b generation).blocks b) := by
  have hsame := (freeze_sameStamp s₁ t b b).1.trans (stamp_sameLife _ b b generation)
  rwa [h, enroll_blocks_self] at hsame

theorem stamp_generation (s : State) (b : BlockId) (generation : ℕ) :
    ((s.stamp b generation).blocks b).allocationCaptureGeneration = generation := by
  rw [State.stamp, State.modifyBlock_blocks_self]

/-- **Every successful request is supplied.** -/
theorem Allocated.supplied (h : Sound held s) (hans : s.Fresh ans)
    (hs : Allocated t ans size isExact s p s') : ∃ b, Supplied t size isExact s p b s' := by
  cases hs with
  | reuseClass i b hclass hfind =>
    have hidle := h.placement.mem_free.mp (List.mem_of_find?_eq_some hfind)
    obtain ⟨htracked, hkind, hindex, huse⟩ := hidle
    have hsame : SameLife (s.blocks b) (((s.freeze t b).stamp b (s.generationFor t)).blocks b) :=
      (freeze_sameStamp s t b b).1.trans (stamp_sameLife _ _ _ _)
    have huse' := startUse_sameStamp
      (((s.freeze t b).stamp b (s.generationFor t)).takeFree i) b b
    refine ⟨b, .reuseClass h.placement t _ hfind, ?_, .inl ⟨h.placement.lookup_ptr htracked,
      ⟨huse, .inl ⟨hkind, hindex ▸ hclass⟩⟩, hsame.trans huse'.1, freeze_calls s t b⟩⟩
    exact huse'.2.trans (stamp_generation _ _ _)
  | growClass i b hclass hfind hblock hstatus hgrow =>
    have hserved := Served.growClass h hans t (s.generationFor t) (s.blockSize i) i hblock hstatus
    have hlife := enrolled_sameLife s ans.backend b (newBlock (s.blockSize i) .SizeClass i) rfl t
      (s.generationFor t)
    refine ⟨b, hserved, stamp_generation _ _ _, .inr ⟨?_, hlife.ptr, hans.address, ?_⟩⟩
    · exact AList.lookup_eq_none.mpr (h.notMem_allBlocks hans)
    refine ⟨hans.block b hblock, ⟨s.allocationStream, ?_⟩, .inl ⟨hlife.kind, ?_, ?_⟩⟩
    · rw [stamp_calls, freeze_calls, enroll_calls, hlife.ptr, hlife.size, hstatus]
    · rw [hlife.classIndex]
      exact hclass
    · rw [hlife.size, hlife.classIndex]
      rfl
  | reuseLarge b hclass hfind =>
    have hbulky := h.placement.mem_large.mp (List.mem_of_find?_eq_some hfind)
    have hfits := List.find?_some hfind
    have huse : (s.blocks b).inUse = false := by
      simp only [fitsLarge, Bool.and_eq_true, Bool.not_eq_true'] at hfits
      exact hfits.1.1
    have hsame : SameLife (s.blocks b) (((s.freeze t b).stamp b (s.generationFor t)).blocks b) :=
      (freeze_sameStamp s t b b).1.trans (stamp_sameLife _ _ _ _)
    have huse' := startUse_sameStamp ((s.freeze t b).stamp b (s.generationFor t)) b b
    refine ⟨b, .reuseLarge h.placement t _ hfind, ?_, .inl ⟨h.placement.lookup_ptr hbulky.1,
      ⟨huse, .inr ⟨hclass, hfits⟩⟩, hsame.trans huse'.1, freeze_calls s t b⟩⟩
    exact huse'.2.trans (stamp_generation _ _ _)
  | growLarge b hclass hfind hblock hstatus hgrow =>
    have hserved := Served.growLarge h hans t (s.generationFor t) (roundUp size) isExact hblock
      hstatus
    have hlife := enrolled_sameLife s ans.backend b
      (newBlock (roundUp size) (requestKind isExact) 0) (pushLarge_blocks _ b) t
      (s.generationFor t)
    refine ⟨b, hserved, stamp_generation _ _ _, .inr ⟨?_, hlife.ptr, hans.address, ?_⟩⟩
    · exact AList.lookup_eq_none.mpr (h.notMem_allBlocks hans)
    refine ⟨hans.block b hblock, ⟨s.allocationStream, ?_⟩, .inr ⟨hclass, hlife.kind, hlife.size⟩⟩
    rw [stamp_calls, freeze_calls, pushLarge_calls, enroll_calls, hlife.ptr, hlife.size, hstatus]

/-! ### What an event does to a living block -/

/-- What happened to the block `b`, at `p` after an event: it lived on, and was stamped if the event
returned it, or the event made it. -/
inductive Life (w : World) (x : Event × Outcome) (w' : World) (p : Ptr) (b : BlockId) : Prop
  | on (hb : w.state.allBlocks.lookup p = some b)
      (hsame : SameLife (w.state.blocks b) (w'.state.blocks b))
      (hstamp : (w'.state.blocks b).allocationCaptureGeneration =
        match grantedTo p x with
        | some t => w.state.generationFor t
        | none => (w.state.blocks b).allocationCaptureGeneration)
  | born {t : ThreadId} {size : ℕ} {isExact : Bool} (hnew : w.state.allBlocks.lookup p = none)
      (hgranted : grantedTo p x = some t)
      (hstamp : (w'.state.blocks b).allocationCaptureGeneration = w.state.generationFor t)
      (hborn : Newborn size isExact w.state b w'.state)

namespace Life

/-- An event that returns no allocation. -/
theorem of_sameStamp {o : Outcome} (hb : w.state.allBlocks.lookup p = some b)
    (hsame : SameStamp (w.state.blocks b) (w'.state.blocks b))
    (hgranted : grantedTo p (e, o) = none) : Life w (e, o) w' p b :=
  .on hb hsame.1 (by rw [hgranted]; exact hsame.2)

end Life

/-- **What an event does to a block that it leaves tracked.** -/
theorem Effect.life (h : Invariant w) (henabled : w.Enabled e) (he : Effect w e o w')
    (hp : p ≠ nullptr) (hb : w'.state.allBlocks.lookup p = some b) : Life w (e, o) w' p b := by
  have hsound := h.sound (h.closed_of_enabled henabled)
  have hreleased : ∀ {l : List BlockId} {w₁ : World}, grantedTo p (e, o) = none →
      w₁.state = w.state.releaseFrozenBlocks l → w₁.state.allBlocks.lookup p = some b →
      Life w (e, o) w₁ p b := by
    intro l w₁ hnone hw₁ hb
    refine .of_sameStamp ?_ ?_ hnone
    · rw [hw₁, releaseFrozenBlocks_eq] at hb
      exact hb
    · rw [hw₁]
      exact releaseFrozenBlocks_sameStamp _ _ _
  cases he with
  | @failed e t size isExact ans s' hreq x hs =>
    have hans := (hreq.answers henabled).2
    have hb : w.state.allBlocks.lookup p = some b := by
      have hb : s'.allBlocks.lookup p = some b := hb
      rwa [hs.rest] at hb
    refine .of_sameStamp hb ?_ (grantedTo_error _ _ _)
    show SameStamp _ (s'.blocks b)
    rw [hs.blocks b fun hnew => hans.fresh.block b hnew ⟨p, hb⟩]
    exact .refl _
  | null t ans => exact .of_sameStamp hb (.refl _) (if_neg hp.symm)
  | @allocated e t size isExact ans q s' hreq hs =>
    have hans := (hreq.answers henabled).2
    have hplace' := (hsound.allocated hans.fresh hs).placement
    obtain ⟨c, hserved, hstamp, horigin⟩ := hs.supplied hsound hans.fresh
    by_cases hqp : q = p
    · subst hqp
      obtain rfl : c = b := Option.some.inj (hserved.lookup.symm.trans hb)
      have hgranted := (grantedTo_of_requests hreq q q).trans (if_pos rfl)
      rcases horigin with ⟨hold, -, hsame, -⟩ | ⟨hnew, -, -, hborn⟩
      · exact .on hold hsame (by rw [hgranted]; exact hstamp)
      · exact .born hnew hgranted hstamp hborn
    · have hold := hserved.lookup_ne p (Ne.symm hqp)
      refine .of_sameStamp (hold.symm.trans hb) ?_
        ((grantedTo_of_requests hreq p q).trans (if_neg hqp))
      show SameStamp _ (s'.blocks b)
      rw [hserved.blocks_ne b (hplace'.ne_of_lookup hb hserved.lookup (Ne.symm hqp))]
      exact .refl _
  | rejected x he => exact .of_sameStamp hb (.refl _) (grantedTo_error _ _ _)
  | @released t q c pushBack =>
    refine .of_sameStamp ?_ (release_sameStamp _ _ _) rfl
    exact (congrArg _ (release_allBlocks w.state c)).symm.trans hb
  | @retained t q c =>
    refine .of_sameStamp ?_ (retain_sameStamp _ _ _) rfl
    exact (congrArg _ (retain_allBlocks w.state c)).symm.trans hb
  | dropped d hd hstage => exact hreleased rfl rfl hb
  | handled d granted hd hstage => exact hreleased rfl rfl hb
  | canceled howner =>
    refine .of_sameStamp ?_ ?_ rfl
    · have hb : (w.state.releaseFrozenBlocks w.state.captureFrozenBlocks).allBlocks.lookup p =
        some b := hb
      rwa [releaseFrozenBlocks_eq] at hb
    · exact releaseFrozenBlocks_sameStamp w.state w.state.captureFrozenBlocks b
  | @frozen t q c freezeAns flag howner hlookup =>
    refine .of_sameStamp ?_ (freeze_sameStamp _ _ _ _) rfl
    exact (congrArg _ (freeze_allBlocks w.state t c)).symm.trans hb
  | @trimmed t s' trimAns o hs =>
    refine .of_sameStamp (hs.lookup hb) ?_ rfl
    show SameStamp _ (s'.blocks b)
    rw [hs.blocks]
    exact .refl _
  | leaseDropped l destroyAns hl =>
    rw [World.closeIfUnowned_rest] at hb ⊢
    refine .of_sameStamp ?_ (releaseFrozenBlocks_sameStamp w.state l.blocks b) rfl
    have hb : (w.state.releaseFrozenBlocks l.blocks).allBlocks.lookup p = some b := hb
    rwa [releaseFrozenBlocks_eq] at hb
  | poolDropped destroyAns hpool hcommits =>
    rw [World.closeIfUnowned_rest] at hb ⊢
    exact .of_sameStamp (by exact hb) (.refl _) rfl
  | _ => exact .of_sameStamp hb (.refl _) rfl

end InfiniRT.Pool
