import InfiniRT.Pool.PlacementSteps

/-!
# Who pins each block

`Pins held s` accounts for the pins of a state: `held` lists the blocks held outside it, by leases
and by commits on their way, once for each holder, and the open transaction holds the blocks of
`capture_frozen_blocks_`.  The pin count of a block is the number of times it is held.  A block that
is held is tracked, so its address stays in `all_blocks_`.  Proved:

* **`pinCount_pos`** — a block that is held is pinned;
* **`freeze`** — the open transaction holds one block more;
* **`dropHeld`** — a lease or a commit drops a block;
* **`cancel`** — a cancelled transaction drops its blocks.
-/

namespace InfiniRT.Pool

open InfiniRT.Library

/-- **The pin invariant.** -/
structure Pins (held : List BlockId) (s : State) : Prop where
  nodup : s.captureFrozenBlocks.Nodup
  members : ∀ b, b ∈ s.captureFrozenBlockSet ↔ b ∈ s.captureFrozenBlocks
  idle : s.pinnedMode = false → s.captureFrozenBlocks = []
  count : ∀ b, s.Tracked b →
    (s.blocks b).pinCount = held.count b + s.captureFrozenBlocks.count b
  tracked : ∀ b, b ∈ held ∨ b ∈ s.captureFrozenBlocks → s.Tracked b

namespace Pins

variable {held held' : List BlockId} {s s' : State} {b c : BlockId} {t : ThreadId} {p : Ptr}

/-- A pinned block is a held one. -/
theorem pinCount_pos (h : Pins held s) (hb : s.Tracked b) :
    0 < (s.blocks b).pinCount ↔ b ∈ held ∨ b ∈ s.captureFrozenBlocks := by
  rw [h.count b hb, ← List.count_pos_iff, ← List.count_pos_iff]
  omega

/-- A block nobody holds. -/
theorem notMem_of_pinCount (h : Pins held s) (hb : s.Tracked b)
    (hpin : (s.blocks b).pinCount = 0) : b ∉ held ∧ b ∉ s.captureFrozenBlocks := by
  rw [← not_or, ← h.pinCount_pos hb]
  omega

/-- Pins do not depend on the order in which the holders are listed. -/
theorem perm (h : Pins held s) (hp : held.Perm held') : Pins held' s :=
  ⟨h.nodup, h.members, h.idle, fun b hb => by rw [h.count b hb, hp.count_eq],
    fun b hb => h.tracked b (by rwa [hp.mem_iff])⟩

/-- Steps that leave the transaction and the pin counts alone. -/
theorem stay (h : Pins held s) (htracked : ∀ b, s'.Tracked b ↔ s.Tracked b)
    (hfrozen : s'.captureFrozenBlocks = s.captureFrozenBlocks)
    (hset : s'.captureFrozenBlockSet = s.captureFrozenBlockSet)
    (hmode : s'.pinnedMode = s.pinnedMode)
    (hcount : ∀ b, s.Tracked b → (s'.blocks b).pinCount = (s.blocks b).pinCount) :
    Pins held s' := by
  refine ⟨by rw [hfrozen]; exact h.nodup, ?_, ?_, ?_, ?_⟩
  · rw [hfrozen, hset]
    exact h.members
  · rw [hfrozen, hmode]
    exact h.idle
  · intro b hb
    have hb := (htracked b).mp hb
    rw [hcount b hb, hfrozen, h.count b hb]
  · intro b hb
    rw [hfrozen] at hb
    exact (htracked b).mpr (h.tracked b hb)

/-- Freezing a tracked block. -/
theorem freeze (h : Pins held s) (t : ThreadId) (hb : s.Tracked b) : Pins held (s.freeze t b) := by
  unfold State.freeze
  split
  case isFalse => exact h
  case isTrue hnew =>
    have hb' : b ∉ s.captureFrozenBlocks := by rw [← h.members]; exact hnew.2
    refine ⟨?_, ?_, ?_, ?_, ?_⟩
    · rw [List.nodup_append]
      refine ⟨h.nodup, List.nodup_singleton b, ?_⟩
      intro c hc d hd hcd
      rw [List.mem_singleton] at hd
      exact hb' (hd ▸ hcd ▸ hc)
    · intro c
      simp only [Finset.mem_insert, List.mem_append, List.mem_singleton, h.members]
      exact or_comm
    · intro hmode
      exact absurd (hmode.symm.trans hnew.1.1) (by simp)
    · intro c hc
      have hcount := h.count c hc
      by_cases hcb : c = b
      · subst hcb
        simp [List.count_eq_zero_of_not_mem hb', hcount]
      · simp [State.modifyBlock_blocks_ne _ _ hcb, hcount, Ne.symm hcb]
    · intro c hc
      simp only [List.mem_append, List.mem_singleton] at hc
      rcases hc with hc | hc | rfl
      · exact h.tracked c (.inl hc)
      · exact h.tracked c (.inr hc)
      · exact hb

/-- Enrollting a new block, which nobody holds. -/
theorem enroll (h : Pins held s) (hb : ¬ s.Tracked b)
    (htracked : ∀ c, s'.Tracked c ↔ c = b ∨ s.Tracked c)
    (hfrozen : s'.captureFrozenBlocks = s.captureFrozenBlocks)
    (hset : s'.captureFrozenBlockSet = s.captureFrozenBlockSet)
    (hmode : s'.pinnedMode = s.pinnedMode)
    (hothers : ∀ c, c ≠ b → (s'.blocks c).pinCount = (s.blocks c).pinCount)
    (hself : (s'.blocks b).pinCount = 0) : Pins held s' := by
  have hfree : b ∉ held ∧ b ∉ s.captureFrozenBlocks := by
    rw [← not_or]
    exact fun hmem => hb (h.tracked b hmem)
  refine ⟨by rw [hfrozen]; exact h.nodup, ?_, ?_, ?_, ?_⟩
  · rw [hfrozen, hset]
    exact h.members
  · rw [hfrozen, hmode]
    exact h.idle
  · intro c hc
    by_cases hcb : c = b
    · rw [hcb, hself, hfrozen, List.count_eq_zero_of_not_mem hfree.1,
        List.count_eq_zero_of_not_mem hfree.2]
    · rw [hothers c hcb, hfrozen, h.count c (((htracked c).mp hc).resolve_left hcb)]
  · intro c hc
    rw [hfrozen] at hc
    exact (htracked c).mpr (.inr (h.tracked c hc))

/-- Removing a block nobody holds. -/
theorem remove (h : Pins held s) (hb : s.Tracked b) (hpin : (s.blocks b).pinCount = 0)
    (htracked : ∀ c, s'.Tracked c ↔ s.Tracked c ∧ c ≠ b)
    (hfrozen : s'.captureFrozenBlocks = s.captureFrozenBlocks)
    (hset : s'.captureFrozenBlockSet = s.captureFrozenBlockSet)
    (hmode : s'.pinnedMode = s.pinnedMode) (hblocks : s'.blocks = s.blocks) :
    Pins held s' := by
  have hfree := h.notMem_of_pinCount hb hpin
  refine ⟨by rw [hfrozen]; exact h.nodup, ?_, ?_, ?_, ?_⟩
  · rw [hfrozen, hset]
    exact h.members
  · rw [hfrozen, hmode]
    exact h.idle
  · intro c hc
    rw [hblocks, hfrozen, h.count c ((htracked c).mp hc).1]
  · intro c hc
    rw [hfrozen] at hc
    refine (htracked c).mpr ⟨h.tracked c hc, ?_⟩
    rintro rfl
    exact hc.elim hfree.1 hfree.2

/-- `begin_pin_mode`. -/
theorem openPinMode (h : Pins held s) (t : ThreadId) (hmode : s.pinnedMode = false) :
    Pins held (s.openPinMode t) := by
  refine ⟨h.nodup, h.members, ?_, h.count, h.tracked⟩
  intro hfalse
  exact h.idle hmode

/-- The locked section of `commit_pin_mode`: the pins of the transaction pass to the commit. -/
theorem closePinMode (h : Pins held s) :
    Pins (s.captureFrozenBlocks ++ held) s.closePinMode := by
  refine ⟨List.nodup_nil, by simp [State.closePinMode], fun _ => rfl, ?_, ?_⟩
  · intro b hb
    have hcount := h.count b hb
    simp only [State.closePinMode, List.count_append, List.count_nil]
    omega
  · intro b hb
    simp only [State.closePinMode, List.mem_append, List.not_mem_nil, or_false] at hb
    exact h.tracked b hb.symm

/-- Holders outside the state drop the pins of `l`. -/
theorem dropHeld (h : Pins held s) {l : List BlockId} (hl : held.Perm (l ++ held')) :
    Pins held' (s.releaseFrozenBlocks l) := by
  rw [releaseFrozenBlocks_eq]
  refine ⟨h.nodup, h.members, h.idle, ?_, ?_⟩
  · intro b hb
    have hcount := h.count b hb
    rw [hl.count_eq, List.count_append] at hcount
    show (s.blocks b).pinCount - l.count b = held'.count b + s.captureFrozenBlocks.count b
    omega
  · intro b hb
    refine h.tracked b (hb.imp_left fun hmem => ?_)
    rw [hl.mem_iff, List.mem_append]
    exact .inr hmem

/-- `cancel_pin_mode`: the transaction drops its pins. -/
theorem cancel (h : Pins held s) :
    Pins held (s.releaseFrozenBlocks s.captureFrozenBlocks).closePinMode := by
  rw [releaseFrozenBlocks_eq]
  refine ⟨List.nodup_nil, by simp [State.closePinMode], fun _ => rfl, ?_, ?_⟩
  · intro b hb
    have hcount := h.count b hb
    show (s.blocks b).pinCount - s.captureFrozenBlocks.count b = held.count b + 0
    omega
  · intro b hb
    refine h.tracked b (.inl ?_)
    simpa [State.closePinMode] using hb

/-! ### Every operation keeps the accounts -/

theorem stamp (h : Pins held s) (b : BlockId) (generation : ℕ) :
    Pins held (s.stamp b generation) := by
  refine h.stay (fun _ => .rfl) rfl rfl rfl fun c _ => ?_
  by_cases hc : c = b
  · subst hc
    simp [State.stamp]
  · rw [stamp_blocks_ne s generation hc]

theorem startUse (h : Pins held s) (b : BlockId) : Pins held (s.startUse b) := by
  refine h.stay (fun _ => .rfl) rfl rfl rfl fun c _ => ?_
  by_cases hc : c = b
  · subst hc
    simp [State.startUse]
  · rw [startUse_blocks_ne s hc]

theorem setFreeBlocks (h : Pins held s) (i : ℕ) (l : List BlockId) :
    Pins held (s.setFreeBlocks i l) :=
  h.stay (fun _ => .rfl) rfl rfl rfl fun _ _ => rfl

theorem setLarge (h : Pins held s) (l : List BlockId) : Pins held (s.setLarge l) :=
  h.stay (fun _ => .rfl) rfl rfl rfl fun _ _ => rfl

theorem modifyBlock (h : Pins held s) (b : BlockId) {f : Block → Block}
    (hf : (f (s.blocks b)).pinCount = (s.blocks b).pinCount) :
    Pins held (s.modifyBlock b f) := by
  refine h.stay (fun _ => .rfl) rfl rfl rfl fun c _ => ?_
  by_cases hc : c = b
  · subst hc
    rw [State.modifyBlock_blocks_self, hf]
  · rw [State.modifyBlock_blocks_ne _ _ hc]

/-- A new block. -/
theorem enrollBlock (h : Pins held s) {ans : BackendAnswer} (size : ℕ) (kind : Kind) (i : ℕ)
    (hb : ¬ s.Tracked b) (hp : ans.out ∉ s.allBlocks) :
    Pins held (s.enroll ans b (newBlock size kind i)) := by
  refine h.enroll hb ?_ (by simp) (by simp) (by simp) ?_ ?_
  · exact tracked_insert hp (enroll_allBlocks ..)
  · intro c hc
    rw [enroll_blocks_ne _ _ _ hc]
  · rw [enroll_blocks_self]
    rfl

theorem release (h : Pins held s) (b : BlockId) : Pins held (s.release b) := by
  unfold State.release State.giveBack
  split_ifs
  · exact h.modifyBlock b rfl
  · exact (h.setFreeBlocks _ _).modifyBlock b rfl
  · exact h.modifyBlock b rfl

theorem retain (h : Pins held s) (b : BlockId) : Pins held (s.retain b) := by
  unfold State.retain
  split_ifs
  · exact (h.setFreeBlocks _ _).modifyBlock b rfl
  · exact h.modifyBlock b rfl

/-- One removal of `trim`. -/
theorem trimStep (h : Pins held s) (hplace : Placement s) (hs : TrimStep s s') : Pins held s' := by
  cases hs with
  | @free i kept rest b hlist hpin =>
    have hb : s.Tracked b := (hplace.mem_free.mp (by rw [hlist]; simp) : s.Idle i b).1
    exact h.remove hb hpin (hplace.tracked_erase hb rfl) rfl rfl rfl rfl
  | @large kept rest b hlist hpin huse =>
    have hb : s.Tracked b := (hplace.mem_large.mp (by rw [hlist]; simp) : s.Bulky b).1
    exact h.remove hb hpin (hplace.tracked_erase hb rfl) rfl rfl rfl rfl
  | refused hb hstatus => exact h.stay (fun _ => .rfl) rfl rfl rfl fun _ _ => rfl

theorem destroy (h : Pins held s) (ans : DestroyAnswer) : Pins held (s.destroy ans) := by
  rw [destroy_rest]
  exact h.stay (fun _ => .rfl) rfl rfl rfl fun _ _ => rfl

/-- A failed allocation. -/
theorem untouched (h : Pins held s) {ans : AllocAnswer} (hs : Untouched ans s s')
    (hnew : ∀ b, ans.makeShared = some b → ¬ s.Tracked b) : Pins held s' := by
  rw [hs.rest]
  refine h.stay (fun _ => .rfl) rfl rfl rfl fun c hc => ?_
  show (s'.blocks c).pinCount = (s.blocks c).pinCount
  rw [hs.blocks c fun hb => hnew c hb hc]

end Pins

end InfiniRT.Pool
