import InfiniRT.Pool.AllocateSteps
import Mathlib.Data.List.Count

/-!
# What the other operations do to the state

The counterpart of `allocateImpl_run` for each remaining member function.  A rejected call leaves
the very state it found.  `trim` and `~State` make many backend calls, so `trim` is described by the
elementary removals it performs in order (`TrimSteps`), also when it throws in the middle.  Proved:

* **`deallocate_run`** — `deallocate` by cases, and `retainAllocation_tracked` with its counterpart;
* **`takeFrozenBlocks_run`** — how a commit takes the frozen blocks, with a lemma for each other
  operation of a transaction;
* **`trim_run`** — `trim` is a sequence of elementary removals;
* **`destroy_rest`** — what `~State` leaves as it is.
-/

namespace InfiniRT.Pool

open InfiniRT.Library Action

variable {s s' s'' : State} {t : ThreadId} {b : BlockId} {p : Ptr}

/-! ### Logical owners -/

/-- What the last `deallocate` of a block writes. -/
def State.giveBack (s : State) (b : BlockId) : State :=
  (if (s.blocks b).kind = .SizeClass then s.pushFree b else s).endUse b

/-- What a `deallocate` writes. -/
def State.release (s : State) (b : BlockId) : State :=
  if 1 < (s.blocks b).useCount then s.dropOwner b else s.giveBack b

/-- What a `retain_allocation` writes. -/
def State.retain (s : State) (b : BlockId) : State :=
  (if (s.blocks b).kind = .SizeClass then s.dropFree b else s).addOwner b

theorem deallocate_null (pushBack : Bool) (s : State) :
    (deallocate pushBack nullptr).run s = (.ok (), s) := by
  simp [deallocate]

theorem deallocate_untracked (pushBack : Bool) (hp : p ≠ nullptr)
    (h : s.allBlocks.lookup p = none) :
    (deallocate pushBack p).run s = (.error notAllocated, s) := by
  simp [deallocate, hp, run_bind, h]

theorem deallocate_unowned (pushBack : Bool) (hp : p ≠ nullptr)
    (h : s.allBlocks.lookup p = some b)
    (hidle : (s.blocks b).inUse = false ∨ (s.blocks b).useCount = 0) :
    (deallocate pushBack p).run s = (.error doubleFree, s) := by
  simp [deallocate, hp, run_bind, h, hidle]

/-- `deallocate` of an owned block releases it, or finds no memory for the free list. -/
theorem deallocate_owned (pushBack : Bool) (hp : p ≠ nullptr)
    (h : s.allBlocks.lookup p = some b) (huse : (s.blocks b).inUse = true)
    (howner : 0 < (s.blocks b).useCount) :
    (deallocate pushBack p).run s = (.ok (), s.release b) ∨
      pushBack = false ∧ (deallocate pushBack p).run s = (.error .badAlloc, s) := by
  have hidle : ¬((s.blocks b).inUse = false ∨ (s.blocks b).useCount = 0) := by
    simp [huse, howner.ne']
  by_cases hone : 1 < (s.blocks b).useCount
  · left
    simp [deallocate, hp, run_bind, h, hidle, hone, State.release]
  · by_cases hkind : (s.blocks b).kind = .SizeClass <;> cases pushBack <;>
      simp [deallocate, hp, run_bind, h, hidle, hone, hkind, State.release, State.giveBack]

/-- `deallocate` by cases. -/
theorem deallocate_run (pushBack : Bool) (p : Ptr) (s : State) :
    (∃ e, (deallocate pushBack p).run s = (.error e, s)) ∨
    (p = nullptr ∧ (deallocate pushBack p).run s = (.ok (), s)) ∨
    ∃ b, p ≠ nullptr ∧ s.allBlocks.lookup p = some b ∧ (s.blocks b).inUse = true ∧
      0 < (s.blocks b).useCount ∧ (deallocate pushBack p).run s = (.ok (), s.release b) := by
  by_cases hp : p = nullptr
  · exact .inr (.inl ⟨hp, hp ▸ deallocate_null pushBack s⟩)
  cases h : s.allBlocks.lookup p with
  | none => exact .inl ⟨_, deallocate_untracked pushBack hp h⟩
  | some b =>
    by_cases hidle : (s.blocks b).inUse = false ∨ (s.blocks b).useCount = 0
    · exact .inl ⟨_, deallocate_unowned pushBack hp h hidle⟩
    · rw [not_or, Bool.not_eq_false] at hidle
      have howner : 0 < (s.blocks b).useCount := Nat.pos_of_ne_zero hidle.2
      rcases deallocate_owned pushBack hp h hidle.1 howner with hok | ⟨-, herr⟩
      · exact .inr (.inr ⟨b, hp, rfl, hidle.1, howner, hok⟩)
      · exact .inl ⟨_, herr⟩

theorem retainAllocation_untracked (h : s.allBlocks.lookup p = none) :
    (retainAllocation p).run s = (.error notAllocated, s) := by
  simp [retainAllocation, run_bind, h]

theorem retainAllocation_tracked (h : s.allBlocks.lookup p = some b) :
    (retainAllocation p).run s = (.ok (s.blocks b).size, s.retain b) := by
  by_cases hkind : (s.blocks b).kind = .SizeClass <;>
    simp [retainAllocation, run_bind, h, hkind, State.retain]

/-! ### What a change of owners leaves alone -/

theorem release_blocks_ne (s : State) {b c : BlockId} (h : c ≠ b) :
    (s.release b).blocks c = s.blocks c := by
  unfold State.release State.giveBack
  split_ifs
  · exact State.modifyBlock_blocks_ne s _ h
  · exact State.modifyBlock_blocks_ne (s.pushFree b) _ h
  · exact State.modifyBlock_blocks_ne s _ h

theorem release_useCount (s : State) (b : BlockId) :
    ((s.release b).blocks b).useCount = (s.blocks b).useCount - 1 := by
  unfold State.release State.giveBack
  split_ifs with hmany
  · simp [State.dropOwner]
  all_goals
    simp only [State.endUse, State.modifyBlock_blocks_self]
    omega

theorem retain_blocks_ne (s : State) {b c : BlockId} (h : c ≠ b) :
    (s.retain b).blocks c = s.blocks c := by
  unfold State.retain
  split_ifs
  · exact State.modifyBlock_blocks_ne (s.dropFree b) _ h
  · exact State.modifyBlock_blocks_ne s _ h

theorem retain_useCount (s : State) (b : BlockId) :
    ((s.retain b).blocks b).useCount = (s.blocks b).useCount + 1 := by
  unfold State.retain
  split_ifs <;> simp [State.addOwner, State.dropFree, State.setFreeBlocks]

theorem release_allBlocks (s : State) (b : BlockId) : (s.release b).allBlocks = s.allBlocks := by
  unfold State.release State.giveBack
  split_ifs <;> rfl

theorem retain_allBlocks (s : State) (b : BlockId) : (s.retain b).allBlocks = s.allBlocks := by
  unfold State.retain
  split_ifs <;> rfl

/-! ### Pin transactions -/

/-- `begin_pin_mode` is rejected or opens a transaction. -/
theorem beginPinMode_run (t : ThreadId) (s : State) :
    (∃ e, (beginPinMode t).run s = (.error e, s)) ∨
    (s.pinnedMode = false ∧ s.captureGeneration ≠ 2 ^ 64 - 1 ∧
      (beginPinMode t).run s = (.ok (), s.openPinMode t)) := by
  cases hmode : s.pinnedMode with
  | true =>
    refine .inl ⟨.runtimeError "allocator graph capture is already active", ?_⟩
    unfold beginPinMode
    rw [run_bind_ok (run_get s), if_pos hmode, run_throw]
  | false =>
    by_cases hstale : s.captureFrozenBlocks ≠ [] ∨ s.captureFrozenBlockSet ≠ ∅
    · refine .inl ⟨.runtimeError "allocator pin transaction contains stale blocks", ?_⟩
      unfold beginPinMode
      rw [run_bind_ok (run_get s), if_neg (by simp [hmode]), if_pos hstale, run_throw]
    · by_cases hmax : s.captureGeneration = 2 ^ 64 - 1
      · refine .inl ⟨.overflowError "allocator capture generation exhausted", ?_⟩
        unfold beginPinMode
        rw [run_bind_ok (run_get s), if_neg (by simp [hmode]), if_neg hstale, if_pos hmax,
          run_throw]
      · refine .inr ⟨rfl, hmax, ?_⟩
        unfold beginPinMode
        rw [run_bind_ok (run_get s), if_neg (by simp [hmode]), if_neg hstale, if_neg hmax,
          run_modify]

/-- The locked section of `commit_pin_mode` finds no transaction, is rejected, or closes it. -/
theorem takeFrozenBlocks_run (t : ThreadId) (s : State) :
    (∃ e, s.pinnedMode = true ∧ s.pinOwner ≠ some t ∧
      (takeFrozenBlocks t).run s = (.error e, s)) ∨
    (s.pinnedMode = false ∧ (takeFrozenBlocks t).run s = (.ok none, s)) ∨
    (s.OwnsPinMode t ∧
      (takeFrozenBlocks t).run s = (.ok (some s.captureFrozenBlocks), s.closePinMode)) := by
  cases hmode : s.pinnedMode with
  | false =>
    refine .inr (.inl ⟨rfl, ?_⟩)
    unfold takeFrozenBlocks
    rw [run_bind_ok (run_get s), if_pos hmode, run_pure]
  | true =>
    by_cases howner : s.pinOwner = some t
    · refine .inr (.inr ⟨⟨hmode, howner⟩, ?_⟩)
      unfold takeFrozenBlocks
      rw [run_bind_ok (run_get s), if_neg (by simp [hmode]), if_neg (not_not.mpr howner),
        run_bind_ok (run_modify _ _), run_pure]
    · refine .inl ⟨.runtimeError
        "cannot commit allocator pin mode: another thread owns the graph capture", rfl, howner, ?_⟩
      unfold takeFrozenBlocks
      rw [run_bind_ok (run_get s), if_neg (by simp [hmode]), if_pos howner, run_throw]

/-- `cancel_pin_mode` is rejected, or drops the pins of the transaction and closes it. -/
theorem cancelPinMode_run (t : ThreadId) (s : State) :
    (∃ e, s.pinnedMode = true ∧ s.pinOwner ≠ some t ∧
      (cancelPinMode t).run s = (.error e, s)) ∨
    ((s.pinnedMode = true → s.pinOwner = some t) ∧
      (cancelPinMode t).run s =
        (.ok (), (s.releaseFrozenBlocks s.captureFrozenBlocks).closePinMode)) := by
  by_cases h : s.pinnedMode = true ∧ s.pinOwner ≠ some t
  · refine .inl ⟨.runtimeError
      "cannot cancel allocator pin mode: another thread owns the graph capture", h.1, h.2, ?_⟩
    unfold cancelPinMode
    rw [run_bind_ok (run_get s), if_pos h, run_throw]
  · refine .inr ⟨fun hmode => not_not.mp fun howner => h ⟨hmode, howner⟩, ?_⟩
    unfold cancelPinMode
    rw [run_bind_ok (run_get s), if_neg h, run_modify]

/-- `retain_for_capture` throws and changes nothing, or freezes a tracked block. -/
theorem retainForCapture_run (t : ThreadId) (ans : FreezeAnswer) (p : Ptr) (s : State) :
    (∃ e, (retainForCapture t ans p).run s = (.error e, s)) ∨
    ∃ b, s.OwnsPinMode t ∧ s.allBlocks.lookup p = some b ∧
      (retainForCapture t ans p).run s =
        (.ok (decide (((s.freeze t b).blocks b).allocationCaptureGeneration ≠
            (s.freeze t b).captureGeneration)), s.freeze t b) := by
  by_cases howner : s.OwnsPinMode t
  · cases h : s.allBlocks.lookup p with
    | none =>
      refine .inl ⟨.runtimeError "capture requires pool-owned memory", ?_⟩
      unfold retainForCapture
      rw [run_bind_ok (run_get s), if_neg (not_not.mpr howner), h, run_throw]
    | some b =>
      have hrun : (retainForCapture t ans p).run s = (do
          freezeForCapture t ans b
          let s ← get
          return (s.blocks b).allocationCaptureGeneration ≠ s.captureGeneration :
            PoolAction Bool).run s := by
        unfold retainForCapture
        rw [run_bind_ok (run_get s), if_neg (not_not.mpr howner), h]
      rcases freezeForCapture_run t ans b s with hf | ⟨-, hf⟩
      · refine .inr ⟨b, howner, rfl, ?_⟩
        rw [hrun, run_bind_ok hf, run_bind_ok (run_get _), run_pure]
      · exact .inl ⟨_, hrun.trans (run_bind_error hf)⟩
  · refine .inl ⟨.runtimeError "allocator graph capture is not active on this thread", ?_⟩
    unfold retainForCapture
    rw [run_bind_ok (run_get s), if_pos howner, run_throw]

/-! ### Releasing a list of pins -/

/-- The guard `if (block->pin_count > 0)` makes the decrement a truncated subtraction. -/
theorem releaseFrozenBlocks_eq (s : State) (l : List BlockId) :
    s.releaseFrozenBlocks l =
      { s with
        blocks := fun b => { s.blocks b with pinCount := (s.blocks b).pinCount - l.count b } } := by
  induction l generalizing s with
  | nil => simp [State.releaseFrozenBlocks]
  | cons c l ih =>
    rw [State.releaseFrozenBlocks, ih]
    by_cases hpin : 0 < (s.blocks c).pinCount
    · simp only [hpin, if_true, State.modifyBlock, State.setBlock]
      congr 1
      funext b
      by_cases hb : b = c
      · subst hb
        simp only [Function.update_self, List.count_cons_self]
        congr 1
        omega
      · simp [Function.update_of_ne hb, List.count_cons_of_ne (Ne.symm hb)]
    · simp only [hpin, if_false]
      congr 1
      funext b
      by_cases hb : b = c
      · subst hb
        have hzero : (s.blocks b).pinCount = 0 := by omega
        simp [hzero]
      · simp [List.count_cons_of_ne (Ne.symm hb)]

/-! ### Trimming -/

/-- The state after `free_block_`. -/
def State.returned (s : State) (p : Ptr) (status : Error) : State :=
  { s with calls := .free s.allocationStream p status :: s.calls }

@[simp] theorem freeBlock_run (status : Error) (p : Ptr) (s : State) :
    (freeBlock status p).run s = (.ok status, s.returned p status) := rfl

/-- `trim` would give the block back: it is unpinned, and in a free list or idle in the large
list. -/
def State.Trimmable (s : State) (b : BlockId) : Prop :=
  (s.blocks b).pinCount = 0 ∧
    ((∃ i, b ∈ s.freeBlocks i) ∨ b ∈ s.largeBlocks ∧ (s.blocks b).inUse = false)

/-- One elementary effect of `trim`: an unpinned block of a free list or an idle unpinned block of
the large list goes back to the backend, or the backend refuses it. -/
inductive TrimStep (s : State) : State → Prop
  | free {i : ℕ} {kept rest : List BlockId} {b : BlockId}
      (hlist : s.freeBlocks i = kept ++ b :: rest) (hpin : (s.blocks b).pinCount = 0) :
      TrimStep s (((s.returned (s.blocks b).ptr kSuccess).untrack (s.blocks b).ptr).setFreeBlocks
        i (kept ++ rest))
  | large {kept rest : List BlockId} {b : BlockId}
      (hlist : s.largeBlocks = kept ++ b :: rest) (hpin : (s.blocks b).pinCount = 0)
      (huse : (s.blocks b).inUse = false) :
      TrimStep s (((s.returned (s.blocks b).ptr kSuccess).untrack (s.blocks b).ptr).setLarge
        (kept ++ rest))
  | refused {b : BlockId} {status : Error} (hb : s.Trimmable b) (hstatus : status ≠ kSuccess) :
      TrimStep s (s.returned (s.blocks b).ptr status)

theorem TrimStep.blocks (hs : TrimStep s s') : s'.blocks = s.blocks := by
  cases hs <;> rfl

/-- Elementary effects of `trim` in order. -/
inductive TrimSteps (s : State) : State → Prop
  | refl : TrimSteps s s
  | tail {s' s'' : State} : TrimSteps s s' → TrimStep s' s'' → TrimSteps s s''

theorem TrimSteps.trans (h : TrimSteps s s') (h' : TrimSteps s' s'') : TrimSteps s s'' := by
  induction h' with
  | refl => exact h
  | tail _ hlast ih => exact ih.tail hlast

/-- One loop of `trim`, over a list `get` that `store` writes back, is a sequence of elementary
effects.  `kept` is the part of the list the iterator has passed. -/
theorem trimList_run (idle : Block → Bool) (answer : Ptr → Error) (operation : String)
    (store : List BlockId → State → State) (get : State → List BlockId)
    (hstep : ∀ (s : State) kept b rest, get s = kept ++ b :: rest → idle (s.blocks b) = true →
      let s' := store (kept ++ rest) ((s.returned (s.blocks b).ptr kSuccess).untrack
        (s.blocks b).ptr)
      s.Trimmable b ∧ TrimStep s s' ∧ get s' = kept ++ rest) :
    ∀ (rest kept : List BlockId) (s : State), get s = kept ++ rest →
      ∃ r s', (trimList idle answer operation store kept rest).run s = (r, s') ∧
        TrimSteps s s' := by
  intro rest
  induction rest with
  | nil => exact fun kept s _ => ⟨_, s, rfl, .refl⟩
  | cons b rest ih =>
    intro kept s hget
    unfold trimList
    rw [run_bind_ok (run_get s)]
    cases hidle : idle (s.blocks b) with
    | true =>
      simp only [hidle, if_true]
      rw [run_bind_ok (freeBlock_run _ _ _)]
      obtain ⟨hb, hone, hrest⟩ := hstep s kept b rest hget hidle
      by_cases hstatus : answer (s.blocks b).ptr = kSuccess
      · obtain ⟨r, s', hrun, hs'⟩ := ih kept _ hrest
        refine ⟨r, s', ?_, (TrimSteps.tail .refl hone).trans hs'⟩
        rw [hstatus, run_bind_ok (check_kSuccess _ _), run_bind_ok (run_modify _ _),
          run_bind_ok (run_modify _ _)]
        exact hrun
      · exact ⟨_, _, run_bind_error (check_of_ne hstatus _ _), .tail .refl (.refused hb hstatus)⟩
    | false =>
      simp only [hidle, Bool.false_eq_true, if_false]
      exact ih (kept ++ [b]) s (by simpa using hget)

/-- A size class with a free block exists. -/
theorem State.lt_of_freeBlocks_eq {s : State} {i : ℕ} {kept rest : List BlockId} {b : BlockId}
    (h : s.freeBlocks i = kept ++ b :: rest) : i < s.sizeClasses.length := by
  by_contra hi
  simp [State.freeBlocks, List.getElem?_eq_none (Nat.le_of_not_lt hi)] at h

theorem trimClasses_run (answer : Ptr → Error) :
    ∀ (n i : ℕ) (s : State), ∃ r s', (trimClasses answer i n).run s = (r, s') ∧
      TrimSteps s s' := by
  intro n
  induction n with
  | zero => exact fun i s => ⟨_, s, rfl, .refl⟩
  | succ n ih =>
    intro i s
    unfold trimClasses
    rw [run_bind_ok (run_get s)]
    obtain ⟨r, s', hrun, hs'⟩ := trimList_run (fun blk => blk.pinCount = 0) answer
      "trim size-class block" (fun l s => s.setFreeBlocks i l) (fun s => s.freeBlocks i)
      (fun s kept b rest hget hidle => by
        have hi := State.lt_of_freeBlocks_eq hget
        have hpin : (s.blocks b).pinCount = 0 := by simpa using hidle
        refine ⟨⟨hpin, .inl ⟨i, by rw [hget]; simp⟩⟩, .free hget hpin, ?_⟩
        simp [State.untrack, State.returned, hi])
      (s.freeBlocks i) [] s rfl
    cases r with
    | ok a =>
      obtain ⟨r', s'', hrun', hs''⟩ := ih (i + 1) s'
      exact ⟨r', s'', (run_bind_ok hrun).trans hrun', hs'.trans hs''⟩
    | error e => exact ⟨_, s', run_bind_error hrun, hs'⟩

/-- `trim` performs elementary removals, whether it returns or throws. -/
theorem trim_run (ans : TrimAnswer) (s : State) :
    ∃ r s', (trim ans).run s = (r, s') ∧ TrimSteps s s' := by
  unfold trim deviceGuard
  cases ans.guard with
  | false => exact ⟨_, s, run_bind_error (run_throw _ _), .refl⟩
  | true =>
    simp only [if_true]
    rw [run_bind_ok (run_pure _ _), run_bind_ok (run_get s)]
    obtain ⟨r, s₁, hrun, hs₁⟩ := trimClasses_run ans.free s.sizeClasses.length 0 s
    cases r with
    | error e => exact ⟨_, s₁, run_bind_error hrun, hs₁⟩
    | ok a =>
      rw [run_bind_ok hrun, run_bind_ok (run_get s₁)]
      obtain ⟨r', s₂, hrun', hs₂⟩ := trimList_run
        (fun blk => blk.pinCount = 0 && !blk.inUse) ans.free "trim large/exact block"
        (fun l s => s.setLarge l) (fun s => s.largeBlocks)
        (fun s kept b rest hget hidle => by
          simp only [Bool.and_eq_true, decide_eq_true_eq, Bool.not_eq_true'] at hidle
          exact ⟨⟨hidle.1, .inr ⟨by rw [hget]; simp, hidle.2⟩⟩, .large hget hidle.1 hidle.2, rfl⟩)
        s₁.largeBlocks [] s₁ rfl
      exact ⟨r', s₂, hrun', hs₁.trans hs₂⟩

/-! ### The destructor -/

/-- The calls of the loop of `~State`, newest first. -/
def freeCalls (s : State) (answer : Ptr → Error) (entries : List (Σ _ : Ptr, BlockId)) :
    List BackendCall :=
  ((entries.map fun entry => (s.blocks entry.2).ptr).filter (· ≠ nullptr)).reverse.map fun p =>
    .free s.allocationStream p (answer p)

theorem freeEntries_eq (answer : Ptr → Error) (entries : List (Σ _ : Ptr, BlockId)) (s : State) :
    s.freeEntries answer entries = { s with calls := freeCalls s answer entries ++ s.calls } := by
  induction entries generalizing s with
  | nil => rfl
  | cons entry rest ih =>
    by_cases hp : (s.blocks entry.2).ptr = nullptr
    · simp [State.freeEntries, hp, ih, freeCalls]
    · simp [State.freeEntries, hp, ih, freeCalls]

/-- The drain before the frees of `~State` succeeds: the device can be selected, and the stream, if
the backend has one, synchronizes. -/
def State.Drains (s : State) (ans : DestroyAnswer) : Prop :=
  ans.guard = true ∧ (s.stream.isSome → ans.drain = kSuccess)

/-- `~State` frees what `all_blocks_` holds if the stream drains. -/
theorem destroy_calls_of_drains (ans : DestroyAnswer) (h : s.Drains ans) :
    (s.destroy ans).calls = freeCalls s ans.free s.allBlocks.entries ++ s.calls := by
  have hdrain : ¬(s.stream.isSome ∧ ans.drain ≠ kSuccess) := fun hd => hd.2 (h.2 hd.1)
  simp only [State.destroy, h.1, Bool.true_eq_false, if_false, hdrain, freeEntries_eq]
  split_ifs <;> rfl

/-- `~State` touches nothing if the stream does not drain. -/
theorem destroy_of_not_drains (ans : DestroyAnswer) (h : ¬ s.Drains ans) : s.destroy ans = s := by
  unfold State.Drains at h
  cases hg : ans.guard with
  | false => simp [State.destroy, hg]
  | true =>
    have hdrain : s.stream.isSome ∧ ans.drain ≠ kSuccess := by
      simpa [hg] using h
    simp [State.destroy, hg, hdrain]

/-- `~State` writes the stream and the calls only. -/
theorem destroy_rest (s : State) (ans : DestroyAnswer) :
    s.destroy ans =
      { s with stream := (s.destroy ans).stream, calls := (s.destroy ans).calls } := by
  by_cases h : s.Drains ans
  · have hdrain : ¬(s.stream.isSome ∧ ans.drain ≠ kSuccess) := fun hd => hd.2 (h.2 hd.1)
    simp only [State.destroy, h.1, Bool.true_eq_false, if_false, hdrain, freeEntries_eq]
    split_ifs <;> rfl
  · rw [destroy_of_not_drains ans h]

end InfiniRT.Pool
