import InfiniRT.Pool.Placement

/-!
# Every operation keeps the blocks in their places

One lemma for each transformation the operations are written with, each an instance of one of the
five ways to move.  Proved:

* **`enrollClass`** — a new block of a size class, with `enrollLarge`;
* **`release`** — an owner gives a block back, with `retain` for a new owner;
* **`trimStep`** — one removal of `trim`;
* **`destroy`** — `~State` leaves no block.
-/

namespace InfiniRT.Pool.Placement

open InfiniRT.Library

variable {s s' : State} {t : ThreadId} {b c : BlockId} {i : ℕ}

theorem sameField_freeze (s : State) (t : ThreadId) (b c : BlockId) :
    SameField ((s.freeze t b).blocks c) (s.blocks c) := by
  rw [freeze_blocks]
  exact ⟨rfl, rfl, rfl, rfl, rfl, .rfl⟩

theorem sameField_stamp (s : State) (generation : ℕ) (b c : BlockId) :
    SameField ((s.stamp b generation).blocks c) (s.blocks c) := by
  by_cases hc : c = b
  · subst hc
    simp only [State.stamp, State.modifyBlock_blocks_self]
    exact ⟨rfl, rfl, rfl, rfl, rfl, .rfl⟩
  · rw [stamp_blocks_ne s generation hc]
    exact .refl _

theorem freeze (h : Placement s) (t : ThreadId) (b : BlockId) : Placement (s.freeze t b) :=
  h.stay (by simp) (by simp) (by simp) fun c _ => sameField_freeze s t b c

theorem stamp (h : Placement s) (b : BlockId) (generation : ℕ) : Placement (s.stamp b generation) :=
  h.stay rfl rfl rfl fun c _ => sameField_stamp s generation b c

theorem sameField_touched (s : State) (t : ThreadId) (b c : BlockId) (generation : ℕ) :
    SameField (((s.freeze t b).stamp b generation).blocks c) (s.blocks c) :=
  (sameField_stamp _ _ _ _).trans (sameField_freeze _ _ _ _)

/-- The two writes that precede every reuse do not matter to the search of a free list. -/
theorem find?_touched (s : State) (t : ThreadId) (b : BlockId) (generation i : ℕ) :
    (((s.freeze t b).stamp b generation).freeBlocks i).find?
        (fun c => !(((s.freeze t b).stamp b generation).blocks c).inUse) =
      (s.freeBlocks i).find? fun c => !(s.blocks c).inUse := by
  rw [stamp_freeBlocks, freeze_freeBlocks]
  congr 1
  funext c
  rw [(sameField_touched s t b c generation).inUse]

theorem eraseP_of_find? {l : List BlockId} {q : BlockId → Bool} (h : l.find? q = some b) :
    l.eraseP q = l.erase b := by
  induction l with
  | nil => simp at h
  | cons c l ih =>
    cases hq : q c with
    | true =>
      rw [List.find?_cons_of_pos hq, Option.some.injEq] at h
      rw [List.eraseP_cons_of_pos hq, h, List.erase_cons_head]
    | false =>
      rw [List.find?_cons_of_neg (by simp [hq])] at h
      have hb : q b = true := List.find?_some h
      have hcb : c ≠ b := by
        rintro rfl
        simp [hq] at hb
      rw [List.eraseP_cons_of_neg (by simp [hq]), ih h, List.erase_cons_tail (by simpa using hcb)]

/-- In a sound state a block is in no free list but that of its class. -/
theorem count_free_of_ne (h : Placement s) {j : ℕ} (hb : s.Idle i b) (hij : i ≠ j) :
    (s.freeBlocks j).count b = 0 := by
  rw [h.free, if_neg]
  rintro ⟨-, -, hj, -⟩
  exact hij (hb.2.2.1.symm.trans hj)

/-- The free lists when the first idle block of a class is taken. -/
theorem freeBlocks_takeFree (hi : i < s.sizeClasses.length)
    (hfind : (s.freeBlocks i).find? (fun c => !(s.blocks c).inUse) = some b) (j : ℕ) :
    ((s.takeFree i).startUse b).freeBlocks j =
      if i = j then (s.freeBlocks i).erase b else s.freeBlocks j := by
  have hset : ((s.takeFree i).startUse b).freeBlocks j =
      if i = j ∧ j < s.sizeClasses.length then (s.freeBlocks i).erase b else s.freeBlocks j := by
    rw [← eraseP_of_find? hfind]
    exact State.freeBlocks_setFreeBlocks s i j _
  rw [hset]
  refine if_congr ⟨And.left, fun hij => ⟨hij, hij ▸ hi⟩⟩ rfl rfl

/-- Reuse of a class block. -/
theorem reuseClass (h : Placement s)
    (hfind : (s.freeBlocks i).find? (fun c => !(s.blocks c).inUse) = some b) :
    Placement ((s.takeFree i).startUse b) := by
  have hb : s.Idle i b := h.mem_free.mp (List.mem_of_find?_eq_some hfind)
  have hi : i < s.sizeClasses.length := by
    rw [← hb.2.2.1]
    exact h.classIndex_lt hb.1 hb.2.1
  refine h.acquire (b := b) rfl (setFreeBlocks_blockSizes s i _) ?_ rfl ?_ ?_ ?_ ?_ ?_ ?_ ?_
  · intro j c
    rw [freeBlocks_takeFree hi hfind]
    by_cases hij : i = j
    · subst hij
      rw [if_pos rfl, List.count_erase]
      have hone := h.free i b
      by_cases hcb : c = b
      · subst hcb
        simp [hone, hb]
      · simp [hcb, Ne.symm hcb]
    · rw [if_neg hij]
      by_cases hcb : c = b
      · rw [if_pos hcb, hcb, h.count_free_of_ne hb hij]
      · rw [if_neg hcb]
  · intro c hc _
    rw [startUse_blocks_ne _ hc]
    exact .refl _
  all_goals simp [State.startUse]

/-- Reuse of a block of the large list. -/
theorem reuseLarge (h : Placement s) (hb : s.Bulky b) : Placement (s.startUse b) := by
  refine h.acquire (b := b) rfl rfl ?_ rfl ?_ ?_ ?_ ?_ ?_ ?_ ?_
  · intro j c
    by_cases hcb : c = b
    · subst hcb
      rw [if_pos rfl]
      show (s.freeBlocks j).count c = 0
      rw [h.free, if_neg fun hidle => hb.2 hidle.2.1]
    · rw [if_neg hcb]
      rfl
  · intro c hc _
    rw [startUse_blocks_ne _ hc]
    exact .refl _
  all_goals simp [State.startUse]

/-- A new block of a size class. -/
theorem enrollClass (h : Placement s) {ans : BackendAnswer} (hb : ¬ s.Tracked b)
    (hp : ans.out ∉ s.allBlocks) (hi : i < s.sizeClasses.length) :
    Placement (s.enroll ans b (newBlock (s.blockSize i) .SizeClass i)) := by
  refine h.enroll hb hp (enroll_allBlocks ..) (enroll_sizeClasses ..) ?_ ?_ ?_ ?_ ?_ ?_
  · intro c
    rw [enroll_blocks_self]
    simp [newBlock]
  · intro c hc
    rw [enroll_blocks_ne _ _ _ hc]
    exact .refl _
  · rw [enroll_blocks_self]
  · rw [enroll_blocks_self]
    rfl
  · rw [enroll_blocks_self]
    exact Nat.one_pos
  · intro _
    rw [enroll_blocks_self, ← h.classes]
    simp [newBlock, State.blockSize, hi]

/-- A new block of the large list. -/
theorem enrollLarge (h : Placement s) {ans : BackendAnswer} (isExact : Bool) (size : ℕ)
    (hb : ¬ s.Tracked b) (hp : ans.out ∉ s.allBlocks) :
    Placement ((s.enroll ans b (newBlock size (requestKind isExact) 0)).pushLarge b) := by
  have hself : ((s.enroll ans b (newBlock size (requestKind isExact) 0)).pushLarge b).blocks b =
      { newBlock size (requestKind isExact) 0 with ptr := ans.out } := by
    rw [pushLarge_blocks, enroll_blocks_self]
  have hkind : requestKind isExact ≠ .SizeClass := by cases isExact <;> simp [requestKind]
  refine h.enroll hb hp (by simp) (by simp) ?_ ?_ ?_ ?_ ?_ ?_
  · intro c
    rw [hself, pushLarge_largeBlocks, enroll_largeBlocks, List.count_append, List.count_singleton]
    by_cases hcb : c = b
    · simp [hcb, newBlock, hkind]
    · simp [hcb, Ne.symm hcb]
  · intro c hc
    rw [pushLarge_blocks, enroll_blocks_ne _ _ _ hc]
    exact .refl _
  · rw [hself]
  · rw [hself]
    rfl
  · rw [hself]
    exact Nat.one_pos
  · intro hk
    rw [hself] at hk
    exact absurd hk hkind

theorem count_filter_ne (l : List BlockId) (b c : BlockId) :
    (l.filter (· ≠ b)).count c = if c = b then 0 else l.count c := by
  by_cases hcb : c = b
  · subst hcb
    rw [if_pos rfl]
    exact List.count_eq_zero_of_not_mem (by simp)
  · rw [if_neg hcb]
    exact List.count_filter (by simpa using hcb)

/-- A `deallocate`. -/
theorem release (h : Placement s) (hb : s.Tracked b) (huse : (s.blocks b).inUse = true) :
    Placement (s.release b) := by
  unfold State.release
  split
  case isTrue hmany =>
    refine h.stay rfl rfl rfl fun c _ => ?_
    by_cases hcb : c = b
    · subst hcb
      simp only [State.dropOwner, State.modifyBlock_blocks_self]
      exact ⟨rfl, rfl, rfl, rfl, rfl, ⟨fun _ => by omega, fun _ => by simp only; omega⟩⟩
    · rw [show (s.dropOwner b).blocks c = s.blocks c from
        State.modifyBlock_blocks_ne _ _ hcb]
      exact .refl _
  case isFalse =>
    unfold State.giveBack
    split
    case isTrue hkind =>
      have hi := h.classIndex_lt hb hkind
      refine h.giveUp (b := b) hb huse rfl (setFreeBlocks_blockSizes _ _ _) ?_ rfl ?_ ?_
      · intro i c
        show ((s.pushFree b).freeBlocks i).count c = _
        rw [State.pushFree, State.freeBlocks_setFreeBlocks]
        by_cases hclass : (s.blocks b).classIndex = i
        · subst hclass
          rw [if_pos ⟨rfl, hi⟩, List.count_append, List.count_singleton]
          by_cases hcb : c = b
          · simp [hcb, hkind]
          · simp [hcb, Ne.symm hcb]
        · rw [if_neg fun hj => hclass hj.1]
          simp [hclass]
      · intro c hcb
        exact State.modifyBlock_blocks_ne (s.pushFree b) _ hcb
      · exact State.modifyBlock_blocks_self (s.pushFree b) b _
    case isFalse hkind =>
      refine h.giveUp (b := b) hb huse rfl rfl ?_ rfl ?_ ?_
      · intro i c
        rw [if_neg fun hc => hkind hc.2.1]
        rfl
      · intro c hcb
        exact State.modifyBlock_blocks_ne s _ hcb
      · exact State.modifyBlock_blocks_self s b _

/-- A `retain_allocation`. -/
theorem retain (h : Placement s) (hb : s.Tracked b) : Placement (s.retain b) := by
  unfold State.retain
  split
  case isTrue hkind =>
    have hi := h.classIndex_lt hb hkind
    refine h.acquire (b := b) rfl (setFreeBlocks_blockSizes _ _ _) ?_ rfl ?_ ?_ ?_ ?_ ?_ ?_ ?_
    · intro i c
      show ((s.dropFree b).freeBlocks i).count c = _
      rw [State.dropFree, State.freeBlocks_setFreeBlocks]
      by_cases hclass : (s.blocks b).classIndex = i
      · subst hclass
        rw [if_pos ⟨rfl, hi⟩, count_filter_ne]
      · rw [if_neg fun hj => hclass hj.1]
        by_cases hcb : c = b
        · subst hcb
          rw [if_pos rfl, h.free, if_neg fun hidle => hclass hidle.2.2.1]
        · rw [if_neg hcb]
    · intro c hcb _
      rw [show ((s.dropFree b).addOwner b).blocks c = s.blocks c from
        State.modifyBlock_blocks_ne (s.dropFree b) _ hcb]
      exact .refl _
    all_goals simp [State.addOwner, State.dropFree, State.setFreeBlocks]
  case isFalse hkind =>
    refine h.acquire (b := b) rfl rfl ?_ rfl ?_ ?_ ?_ ?_ ?_ ?_ ?_
    · intro i c
      show (s.freeBlocks i).count c = _
      by_cases hcb : c = b
      · subst hcb
        rw [if_pos rfl, h.free, if_neg fun hidle => hkind hidle.2.1]
      · rw [if_neg hcb]
    · intro c hcb _
      rw [show (s.addOwner b).blocks c = s.blocks c from State.modifyBlock_blocks_ne s _ hcb]
      exact .refl _
    all_goals simp [State.addOwner]

theorem count_removed {l kept rest : List BlockId} (hl : l = kept ++ b :: rest)
    (hnodup : l.Nodup) (c : BlockId) :
    (kept ++ rest).count c = if c = b then 0 else l.count c := by
  subst hl
  by_cases hcb : c = b
  · subst hcb
    rw [if_pos rfl]
    refine List.count_eq_zero_of_not_mem ?_
    have := List.nodup_middle.mp hnodup
    exact (List.nodup_cons.mp this).1
  · rw [if_neg hcb, List.count_append, List.count_append, List.count_cons_of_ne (Ne.symm hcb)]

/-- One removal of `trim`. -/
theorem trimStep (h : Placement s) (hs : TrimStep s s') : Placement s' := by
  cases hs with
  | @free i kept rest b hlist hpin =>
    have hb : s.Idle i b := h.mem_free.mp (by rw [hlist]; simp)
    have hi := State.lt_of_freeBlocks_eq hlist
    refine h.remove hb.1 rfl (setFreeBlocks_blockSizes (State.untrack _ _) i _) ?_ ?_ rfl
    · intro j c
      rw [State.freeBlocks_setFreeBlocks]
      show (if i = j ∧ j < s.sizeClasses.length then _ else s.freeBlocks j).count c = _
      by_cases hij : i = j
      · subst hij
        rw [if_pos ⟨rfl, hi⟩, count_removed hlist (h.free_nodup i)]
      · rw [if_neg fun hj => hij hj.1]
        by_cases hcb : c = b
        · rw [if_pos hcb, hcb, h.count_free_of_ne hb hij]
        · rw [if_neg hcb]
    · intro c
      show s.largeBlocks.count c = _
      by_cases hcb : c = b
      · rw [if_pos hcb, hcb, h.large, if_neg fun hbulky => hbulky.2 hb.2.1]
      · rw [if_neg hcb]
  | @large kept rest b hlist hpin huse =>
    have hb : s.Bulky b := h.mem_large.mp (by rw [hlist]; simp)
    refine h.remove hb.1 rfl rfl ?_ ?_ rfl
    · intro j c
      show (s.freeBlocks j).count c = _
      by_cases hcb : c = b
      · rw [if_pos hcb, hcb, h.free, if_neg fun hidle => hb.2 hidle.2.1]
      · rw [if_neg hcb]
    · exact count_removed hlist h.large_nodup
  | refused hb hstatus => exact h.stay rfl rfl rfl fun _ _ => .refl _

theorem releaseFrozenBlocks (h : Placement s) (l : List BlockId) :
    Placement (s.releaseFrozenBlocks l) := by
  rw [releaseFrozenBlocks_eq]
  exact h.stay rfl rfl rfl fun c _ => ⟨rfl, rfl, rfl, rfl, rfl, .rfl⟩

theorem openPinMode (h : Placement s) (t : ThreadId) : Placement (s.openPinMode t) :=
  h.stay rfl rfl rfl fun _ _ => .refl _

theorem closePinMode (h : Placement s) : Placement s.closePinMode :=
  h.stay rfl rfl rfl fun _ _ => .refl _

theorem destroy (h : Placement s) (ans : DestroyAnswer) : Placement (s.destroy ans) := by
  rw [destroy_rest]
  exact h.stay rfl rfl rfl fun _ _ => .refl _

/-- A failed allocation. -/
theorem untouched (h : Placement s) {ans : AllocAnswer} (hs : Untouched ans s s')
    (hnew : ∀ b, ans.makeShared = some b → ¬ s.Tracked b) : Placement s' := by
  rw [hs.rest]
  refine h.stay rfl rfl rfl fun c hc => ?_
  show SameField (s'.blocks c) (s.blocks c)
  rw [hs.blocks c fun hb => hnew c hb hc]
  exact .refl _

end InfiniRT.Pool.Placement
