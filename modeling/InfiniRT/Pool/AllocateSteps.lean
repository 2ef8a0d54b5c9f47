import InfiniRT.Pool.Operations

/-!
# What an allocation does to the state

One lemma for each path of `allocate_impl_`, with every answer of the environment considered.  A
path either throws and leaves the state `Untouched`, or returns and leaves a state written with the
few transformations `freeze`, `stamp`, `take`, `startUse`, `enroll` and `pushLarge`.  The proofs
about runs use these lemmas and never unfold the program text again.  Proved:

* **`allocateImpl_run`** — `allocate_impl_` throws and leaves the state untouched, or serves the
  request in one of four ways.
-/

namespace InfiniRT.Pool

open InfiniRT.Library Action

/-! ### The steps that may throw -/

@[simp] theorem check_kSuccess (operation : String) (s : State) :
    (check kSuccess operation).run s = (.ok (), s) := rfl

theorem check_of_ne {status : Error} (h : status ≠ kSuccess) (operation : String) (s : State) :
    (check status operation).run s = (.error (failedOperation status operation), s) := by
  simp [check, h]

@[simp] theorem hostAllocation_true (s : State) : (hostAllocation true).run s = (.ok (), s) := rfl

@[simp] theorem hostAllocation_false (s : State) :
    (hostAllocation false).run s = (.error .badAlloc, s) := rfl

@[simp] theorem makeBlock_none (blk : Block) (s : State) :
    (makeBlock none blk).run s = (.error .badAlloc, s) := rfl

@[simp] theorem makeBlock_some (b : BlockId) (blk : Block) (s : State) :
    (makeBlock (some b) blk).run s = (.ok b, s.setBlock b blk) := rfl

/-- What `freeze_for_capture_` writes when its insertions find memory. -/
def State.freeze (s : State) (t : ThreadId) (b : BlockId) : State :=
  if s.OwnsPinMode t ∧ b ∉ s.captureFrozenBlockSet then
    { s.modifyBlock b fun blk => { blk with pinCount := blk.pinCount + 1 } with
      captureFrozenBlocks := s.captureFrozenBlocks ++ [b]
      captureFrozenBlockSet := insert b s.captureFrozenBlockSet }
  else s

/-- Both insertions of `freeze_for_capture_` find memory. -/
def FreezeAnswer.granted (ans : FreezeAnswer) : Prop := ans.pushBack = true ∧ ans.insert = true

/-- `freeze_for_capture_` freezes the block or changes nothing. -/
theorem freezeForCapture_run (t : ThreadId) (ans : FreezeAnswer) (b : BlockId) (s : State) :
    (freezeForCapture t ans b).run s = (.ok (), s.freeze t b) ∨
      ¬ ans.granted ∧ (freezeForCapture t ans b).run s = (.error .badAlloc, s) := by
  rcases ans with ⟨_ | _, _ | _⟩ <;>
    by_cases h : s.OwnsPinMode t ∧ b ∉ s.captureFrozenBlockSet <;>
      simp [freezeForCapture, State.freeze, run_bind, run_tryCatch, h, State.modifyBlock,
        State.setBlock, FreezeAnswer.granted]

/-- The state after the backend answered `ans` to `allocate_block_` for the block `b`. -/
def State.answered (s : State) (ans : BackendAnswer) (b : BlockId) (size : ℕ) : State :=
  { s.modifyBlock b fun blk => { blk with ptr := ans.out } with
      calls := .malloc s.allocationStream size ans.status ans.out :: s.calls }

@[simp] theorem answered_allBlocks (s : State) (ans : BackendAnswer) (b : BlockId) (n : ℕ) :
    (s.answered ans b n).allBlocks = s.allBlocks := rfl

@[simp] theorem answered_blocks_self (s : State) (ans : BackendAnswer) (b : BlockId) (n : ℕ) :
    (s.answered ans b n).blocks b = { s.blocks b with ptr := ans.out } := by
  simp [State.answered]

/-- Growth is refused while the pool's stream is being captured, or cannot tell. -/
def State.RefusesGrowth (s : State) (ans : BackendAnswer) : Prop :=
  s.allocationStream.isSome ∧ (ans.captureQuery ≠ kSuccess ∨ ans.capturing = true)

theorem allocateBlock_run (ans : BackendAnswer) (b : BlockId) (size : ℕ) (s : State) :
    (s.RefusesGrowth ans ∧ ∃ e, (allocateBlock ans b size).run s = (.error e, s)) ∨
    (¬ s.RefusesGrowth ans ∧
      (allocateBlock ans b size).run s = (.ok ans.status, s.answered ans b size)) := by
  unfold State.RefusesGrowth
  cases hs : s.allocationStream with
  | none => right; simp [allocateBlock, run_bind, hs, State.answered]
  | some st =>
    by_cases hq : ans.captureQuery = kSuccess
    · cases hc : ans.capturing
      · right; simp [allocateBlock, run_bind, hs, hq, hc, State.answered]
      · left; simp [allocateBlock, run_bind, hs, hq, hc]
    · left
      simp [allocateBlock, run_bind, hs, hq, check_of_ne hq]

/-! ### Growth -/

/-- What an allocation relies on: a successful backend call hands out a non-null address, no answer
names an address the pool tracks, and a new block object is in no list. -/
structure State.Unclaimed (s : State) (ans : AllocAnswer) : Prop where
  nonnull : ans.backend.status = kSuccess → ans.backend.out ≠ nullptr
  address : ans.backend.out ∉ s.allBlocks
  block : ∀ b, ans.makeShared = some b → b ∉ s.largeBlocks

/-- The calls a failed `allocate_impl_` may have made: none, an allocation that left nothing, or an
allocation followed by the clean-up of its address. -/
def FailedCalls (ans : AllocAnswer) (s s' : State) : Prop :=
  s'.calls = s.calls ∨ ∃ size,
    let call := .malloc s.allocationStream size ans.backend.status ans.backend.out
    (ans.backend.status ≠ kSuccess ∧ ans.backend.out = nullptr ∧ s'.calls = call :: s.calls) ∨
    (ans.backend.out ≠ nullptr ∧
      s'.calls = .free s.allocationStream ans.backend.out ans.cleanup :: call :: s.calls)

/-- `s'` differs from `s` only in the calls made and in the block object that was never shared. -/
structure Untouched (ans : AllocAnswer) (s s' : State) : Prop where
  rest : s' = { s with blocks := s'.blocks, calls := s'.calls }
  blocks : ∀ b, ans.makeShared ≠ some b → s'.blocks b = s.blocks b
  calls : FailedCalls ans s s'

theorem Untouched.refl (ans : AllocAnswer) (s : State) : Untouched ans s s :=
  ⟨rfl, fun _ _ => rfl, .inl rfl⟩

/-- The block `b` in `all_blocks_` at the address the backend handed out for it. -/
def State.emplaced (s : State) (ans : BackendAnswer) (b : BlockId) (size : ℕ) : State :=
  { s.answered ans b size with allBlocks := s.allBlocks.insert ans.out b }

theorem track_answered (s : State) (ans : BackendAnswer) (b : BlockId) (size : ℕ)
    (h : ans.out ∉ s.allBlocks) : (s.answered ans b size).track b = s.emplaced ans b size := by
  simp [State.track, State.emplaced, h]

/-- The states in which the `try` block of a growth path may throw. -/
inductive Halfway (s : State) (ans : BackendAnswer) (b : BlockId) (size : ℕ) : State → Prop
  | refused : Halfway s ans b size s
  | answered : Halfway s ans b size (s.answered ans b size)
  | emplaced : ans.status = kSuccess → Halfway s ans b size (s.emplaced ans b size)

theorem registerClassBlock_run (t : ThreadId) (ans : AllocAnswer) (b : BlockId)
    (blockSize generation : ℕ) (s : State) (h : s.Unclaimed ans) :
    (∃ e s', (registerClassBlock t ans b blockSize generation).run s = (.error e, s') ∧
      Halfway s ans.backend b blockSize s') ∨
    (ans.backend.status = kSuccess ∧ ¬ s.RefusesGrowth ans.backend ∧
      (registerClassBlock t ans b blockSize generation).run s =
        (.ok (), ((s.emplaced ans.backend b blockSize).freeze t b).stamp b generation)) := by
  unfold registerClassBlock
  rcases allocateBlock_run ans.backend b blockSize s with ⟨-, e, he⟩ | ⟨hgrow, hok⟩
  · left
    exact ⟨e, s, by rw [run_bind_error he], .refused⟩
  rw [run_bind_ok hok]
  by_cases hstatus : ans.backend.status = kSuccess
  · rw [hstatus, run_bind_ok (check_kSuccess _ _)]
    cases ans.emplace with
    | false =>
      left
      exact ⟨_, _, run_bind_error (hostAllocation_false _), .answered⟩
    | true =>
      rw [run_bind_ok (hostAllocation_true _), run_bind_ok (run_modify _ _),
        track_answered s ans.backend b blockSize h.address]
      rcases freezeForCapture_run t ans.freeze b (s.emplaced ans.backend b blockSize)
        with hf | ⟨-, hf⟩
      · right
        exact ⟨rfl, hgrow, by rw [run_bind_ok hf, run_modify]⟩
      · left
        exact ⟨_, _, run_bind_error hf, .emplaced hstatus⟩
  · left
    exact ⟨_, _, run_bind_error (check_of_ne hstatus _ _), .answered⟩

theorem registerLargeBlock_run (t : ThreadId) (ans : AllocAnswer) (b : BlockId)
    (size generation : ℕ) (s : State) (h : s.Unclaimed ans) :
    (∃ e s', (registerLargeBlock t ans b size generation).run s = (.error e, s') ∧
      (Halfway s ans.backend b size s' ∨
        ans.backend.status = kSuccess ∧ s' = (s.emplaced ans.backend b size).pushLarge b)) ∨
    (ans.backend.status = kSuccess ∧ ¬ s.RefusesGrowth ans.backend ∧
      (registerLargeBlock t ans b size generation).run s =
        (.ok (), (((s.emplaced ans.backend b size).pushLarge b).freeze t b).stamp b
          generation)) := by
  unfold registerLargeBlock
  rcases allocateBlock_run ans.backend b size s with ⟨-, e, he⟩ | ⟨hgrow, hok⟩
  · left
    exact ⟨e, s, by rw [run_bind_error he], .inl .refused⟩
  rw [run_bind_ok hok]
  by_cases hstatus : ans.backend.status = kSuccess
  · rw [hstatus, run_bind_ok (check_kSuccess _ _)]
    cases ans.emplace with
    | false =>
      left
      exact ⟨_, _, run_bind_error (hostAllocation_false _), .inl .answered⟩
    | true =>
      rw [run_bind_ok (hostAllocation_true _), run_bind_ok (run_modify _ _),
        track_answered s ans.backend b size h.address]
      cases ans.pushLarge with
      | false =>
        left
        exact ⟨_, _, run_bind_error (hostAllocation_false _), .inl (.emplaced hstatus)⟩
      | true =>
        rw [run_bind_ok (hostAllocation_true _), run_bind_ok (run_modify _ _)]
        rcases freezeForCapture_run t ans.freeze b
          ((s.emplaced ans.backend b size).pushLarge b) with hf | ⟨-, hf⟩
        · right
          exact ⟨rfl, hgrow, by rw [run_bind_ok hf, run_modify]⟩
        · left
          exact ⟨_, _, run_bind_error hf, .inr ⟨rfl, rfl⟩⟩
  · left
    exact ⟨_, _, run_bind_error (check_of_ne hstatus _ _), .inl .answered⟩

theorem erase_insert_of_notMem {p : Ptr} {b : BlockId} {m : AList fun _ : Ptr => BlockId}
    (h : p ∉ m) : (m.insert p b).erase p = m := by
  apply AList.ext
  rw [AList.insert_of_notMem h]
  exact List.kerase_cons_eq rfl

theorem erase_of_notMem {p : Ptr} {m : AList fun _ : Ptr => BlockId} (h : p ∉ m) :
    m.erase p = m :=
  AList.ext (List.kerase_of_notMem_keys h)

/-- What the handler of a growth path leaves of `s`: the new block is untracked and its address
given back, if the backend left one. -/
def State.discarded (s : State) (cleanup : Error) (b : BlockId) : State :=
  if (s.blocks b).ptr ≠ nullptr then
    { s.untrack (s.blocks b).ptr with
      calls := .free s.allocationStream (s.blocks b).ptr cleanup :: s.calls }
  else s

theorem discardClassBlock_run (ans : AllocAnswer) (b : BlockId) (e : Exn) (s : State) :
    (discardClassBlock ans b e).run s = (.error e, s.discarded ans.cleanup b) := by
  by_cases h : (s.blocks b).ptr = nullptr <;>
    simp [discardClassBlock, freeBlock, run_bind, h, State.discarded, State.untrack]

theorem discardLargeBlock_run (ans : AllocAnswer) (b : BlockId) (e : Exn) (s : State) :
    (discardLargeBlock ans b e).run s =
      (.error e,
        if (s.blocks b).ptr ≠ nullptr then (s.dropLarge b).discarded ans.cleanup b else s) := by
  by_cases h : (s.blocks b).ptr = nullptr <;>
    simp [discardLargeBlock, freeBlock, run_bind, h, State.discarded, State.untrack,
      State.dropLarge]

theorem dropLarge_of_notMem {s : State} {b : BlockId} (h : b ∉ s.largeBlocks) :
    s.dropLarge b = s := by
  have hf : s.largeBlocks.filter (· ≠ b) = s.largeBlocks :=
    List.filter_eq_self.mpr fun c hc => by
      simpa using fun hcb : c = b => h (hcb ▸ hc)
  simp only [State.dropLarge, hf]

theorem dropLarge_pushLarge {s : State} {b : BlockId} (h : b ∉ s.largeBlocks) :
    (s.pushLarge b).dropLarge b = s := by
  have hf : (s.largeBlocks ++ [b]).filter (· ≠ b) = s.largeBlocks := by
    rw [List.filter_append]
    simpa using fun c hc (hcb : c = b) => h (hcb ▸ hc)
  simp only [State.dropLarge, State.pushLarge, hf]

section Growth

variable {t : ThreadId} {ans : AllocAnswer} {s s' : State} {b : BlockId} {blk : Block}
  {size generation : ℕ}

/-- The handler undoes a half-made registration. -/
theorem Halfway.untouched (h : s.Unclaimed ans) (hptr : blk.ptr = nullptr)
    (hb : ans.makeShared = some b) (hs : Halfway (s.setBlock b blk) ans.backend b size s') :
    Untouched ans s (s'.discarded ans.cleanup b) := by
  have hblocks : ∀ (f : Block) (c : BlockId), ans.makeShared ≠ some c →
      Function.update s.blocks b f c = s.blocks c := fun f c hc =>
    Function.update_of_ne (fun hcb : c = b => hc (hcb ▸ hb)) _ _
  cases hs with
  | refused =>
    have hd : (s.setBlock b blk).discarded ans.cleanup b = s.setBlock b blk := by
      simp [State.discarded, hptr]
    rw [hd]
    exact ⟨rfl, hblocks _, .inl rfl⟩
  | answered =>
    by_cases hout : ans.backend.out = nullptr
    · have hd : ((s.setBlock b blk).answered ans.backend b size).discarded ans.cleanup b =
          (s.setBlock b blk).answered ans.backend b size := by
        simp [State.discarded, hout]
      rw [hd]
      refine ⟨rfl, ?_, .inr ⟨size, .inl ⟨fun hs => h.nonnull hs hout, hout, rfl⟩⟩⟩
      intro c hc
      simp [State.answered, State.modifyBlock, State.setBlock, hblocks _ c hc]
    · have hd : ((s.setBlock b blk).answered ans.backend b size).discarded ans.cleanup b =
          { (s.setBlock b blk).answered ans.backend b size with
            calls := .free s.allocationStream ans.backend.out ans.cleanup ::
              ((s.setBlock b blk).answered ans.backend b size).calls } := by
        have he : s.allBlocks.erase ans.backend.out = s.allBlocks := erase_of_notMem h.address
        simp [State.discarded, hout, State.untrack, State.answered, State.modifyBlock,
          State.setBlock, he]
      rw [hd]
      refine ⟨rfl, ?_, .inr ⟨size, .inr ⟨hout, rfl⟩⟩⟩
      intro c hc
      simp [State.answered, State.modifyBlock, State.setBlock, hblocks _ c hc]
  | emplaced hstatus =>
    have hout := h.nonnull hstatus
    have hd : ((s.setBlock b blk).emplaced ans.backend b size).discarded ans.cleanup b =
        { (s.setBlock b blk).answered ans.backend b size with
          calls := .free s.allocationStream ans.backend.out ans.cleanup ::
            ((s.setBlock b blk).answered ans.backend b size).calls } := by
      have he : (s.allBlocks.insert ans.backend.out b).erase ans.backend.out = s.allBlocks :=
        erase_insert_of_notMem h.address
      simp [State.discarded, State.emplaced, hout, State.untrack, State.answered,
        State.modifyBlock, State.setBlock, he]
    rw [hd]
    refine ⟨rfl, ?_, .inr ⟨size, .inr ⟨hout, rfl⟩⟩⟩
    intro c hc
    simp [State.answered, State.modifyBlock, State.setBlock, hblocks _ c hc]

/-- A new block in `all_blocks_`. -/
def State.enroll (s : State) (ans : BackendAnswer) (b : BlockId) (blk : Block) : State :=
  (s.setBlock b blk).emplaced ans b blk.size

@[simp] theorem freeze_blocks_ptr (s : State) (t : ThreadId) (b c : BlockId) :
    ((s.freeze t b).blocks c).ptr = (s.blocks c).ptr := by
  unfold State.freeze
  split
  · by_cases hc : c = b <;> simp [State.modifyBlock, State.setBlock, hc]
  · rfl

@[simp] theorem stamp_blocks_ptr (s : State) (b c : BlockId) (generation : ℕ) :
    ((s.stamp b generation).blocks c).ptr = (s.blocks c).ptr := by
  by_cases hc : c = b <;>
    simp [State.stamp, State.modifyBlock, State.setBlock, hc]

theorem emplaced_blocks_self_ptr (s : State) (ans : BackendAnswer) (b : BlockId) (size : ℕ) :
    ((s.emplaced ans b size).blocks b).ptr = ans.out := by
  simp [State.emplaced]

/-- Growth of a size class enrolls a new block, or throws and leaves the state untouched. -/
theorem growClass_run (t : ThreadId) (i : ℕ) (h : s.Unclaimed ans) :
    (∃ e s', (growClass t ans i size generation).run s = (.error e, s') ∧ Untouched ans s s') ∨
    ∃ b, ans.makeShared = some b ∧ ans.backend.status = kSuccess ∧
      ¬ s.RefusesGrowth ans.backend ∧
      (growClass t ans i size generation).run s =
        (.ok ans.backend.out,
          ((s.enroll ans.backend b (newBlock size .SizeClass i)).freeze t b).stamp b
            generation) := by
  unfold growClass
  cases hb : ans.makeShared with
  | none => exact .inl ⟨_, s, run_bind_error (makeBlock_none _ _), .refl ans s⟩
  | some b =>
    have h' : (s.setBlock b (newBlock size .SizeClass i)).Unclaimed ans :=
      ⟨h.nonnull, h.address, h.block⟩
    rw [run_bind_ok (makeBlock_some _ _ _)]
    rcases registerClassBlock_run t ans b size generation _ h' with
      ⟨e, s₁, hrun, hs₁⟩ | ⟨hstatus, hgrow, hrun⟩
    · left
      refine ⟨e, s₁.discarded ans.cleanup b, ?_, hs₁.untouched h rfl hb⟩
      rw [run_bind_error]
      rw [run_tryCatch_error hrun, discardClassBlock_run]
    · right
      refine ⟨b, rfl, hstatus, hgrow, ?_⟩
      rw [run_bind_ok (run_tryCatch_ok hrun), run_bind_ok (run_get _), run_pure]
      simp only [stamp_blocks_ptr, freeze_blocks_ptr, emplaced_blocks_self_ptr]
      rfl

theorem Halfway.largeBlocks (hs : Halfway s ans.backend b size s') :
    s'.largeBlocks = s.largeBlocks := by
  cases hs <;> rfl

/-- The handler of the large path also takes the new block off `large_blocks_`, where it is only
if the insertion there was the last one made. -/
theorem discardLarge_halfway (h : s.Unclaimed ans) (hb : b ∉ s.largeBlocks)
    (hs : Halfway s ans.backend b size s' ∨
      ans.backend.status = kSuccess ∧ s' = (s.emplaced ans.backend b size).pushLarge b) :
    ∃ s₁, Halfway s ans.backend b size s₁ ∧
      (if (s'.blocks b).ptr ≠ nullptr then (s'.dropLarge b).discarded ans.cleanup b else s') =
        s₁.discarded ans.cleanup b := by
  rcases hs with hs | ⟨hstatus, rfl⟩
  · refine ⟨s', hs, ?_⟩
    rw [dropLarge_of_notMem (by rwa [hs.largeBlocks])]
    by_cases hptr : (s'.blocks b).ptr = nullptr <;> simp [State.discarded, hptr]
  · refine ⟨s.emplaced ans.backend b size, .emplaced hstatus, ?_⟩
    have hptr : (((s.emplaced ans.backend b size).pushLarge b).blocks b).ptr ≠ nullptr := by
      simpa [State.pushLarge, emplaced_blocks_self_ptr] using h.nonnull hstatus
    rw [if_pos hptr, dropLarge_pushLarge (s := s.emplaced ans.backend b size) hb]

/-- Growth of the large list enrolls a new block at its end, or throws and leaves the state
untouched. -/
theorem growLarge_run (t : ThreadId) (isExact : Bool) (h : s.Unclaimed ans) :
    (∃ e s', (growLarge t ans size isExact generation).run s = (.error e, s') ∧
      Untouched ans s s') ∨
    ∃ b, ans.makeShared = some b ∧ ans.backend.status = kSuccess ∧
      ¬ s.RefusesGrowth ans.backend ∧
      (growLarge t ans size isExact generation).run s =
        (.ok ans.backend.out,
          (((s.enroll ans.backend b (newBlock size (requestKind isExact) 0)).pushLarge b).freeze
            t b).stamp b generation) := by
  unfold growLarge
  cases hb : ans.makeShared with
  | none => exact .inl ⟨_, s, run_bind_error (makeBlock_none _ _), .refl ans s⟩
  | some b =>
    have h' : (s.setBlock b (newBlock size (requestKind isExact) 0)).Unclaimed ans :=
      ⟨h.nonnull, h.address, h.block⟩
    have hnew := h.block b hb
    rw [run_bind_ok (makeBlock_some _ _ _)]
    rcases registerLargeBlock_run t ans b size generation _ h' with
      ⟨e, s₁, hrun, hs₁⟩ | ⟨hstatus, hgrow, hrun⟩
    · left
      obtain ⟨s₂, hs₂, heq⟩ := discardLarge_halfway h' hnew hs₁
      refine ⟨e, s₂.discarded ans.cleanup b, ?_, hs₂.untouched h rfl hb⟩
      rw [run_bind_error]
      rw [run_tryCatch_error hrun, discardLargeBlock_run, heq]
    · right
      refine ⟨b, rfl, hstatus, hgrow, ?_⟩
      rw [run_bind_ok (run_tryCatch_ok hrun), run_bind_ok (run_get _), run_pure]
      simp only [stamp_blocks_ptr, freeze_blocks_ptr, State.pushLarge, emplaced_blocks_self_ptr]
      rfl

end Growth

/-! ### Reuse -/

@[simp] theorem startUse_blocks_ptr (s : State) (b c : BlockId) :
    ((s.startUse b).blocks c).ptr = (s.blocks c).ptr := by
  by_cases hc : c = b <;> simp [State.startUse, State.modifyBlock, State.setBlock, hc]

@[simp] theorem takeFree_blocks (s : State) (i : ℕ) : (s.takeFree i).blocks = s.blocks := rfl

/-- Reuse of a class block takes it off its free list, or changes nothing. -/
theorem reuseClassBlock_run (t : ThreadId) (ans : AllocAnswer) (i generation : ℕ) (b : BlockId)
    (s : State) :
    (reuseClassBlock t ans i generation b).run s =
        (.ok (s.blocks b).ptr,
          (((s.freeze t b).stamp b generation).takeFree i).startUse b) ∨
      ¬ ans.freeze.granted ∧
        (reuseClassBlock t ans i generation b).run s = (.error .badAlloc, s) := by
  unfold reuseClassBlock
  rcases freezeForCapture_run t ans.freeze b s with hf | ⟨hans, hf⟩
  · left
    simp [run_bind, hf]
  · right
    exact ⟨hans, run_bind_error hf⟩

/-- Reuse of a large or exact block leaves it where it is, or changes nothing. -/
theorem reuseLargeBlock_run (t : ThreadId) (ans : AllocAnswer) (generation : ℕ) (b : BlockId)
    (s : State) :
    (reuseLargeBlock t ans generation b).run s =
        (.ok (s.blocks b).ptr, ((s.freeze t b).stamp b generation).startUse b) ∨
      ¬ ans.freeze.granted ∧
        (reuseLargeBlock t ans generation b).run s = (.error .badAlloc, s) := by
  unfold reuseLargeBlock
  rcases freezeForCapture_run t ans.freeze b s with hf | ⟨hans, hf⟩
  · left
    simp [run_bind, hf]
  · right
    exact ⟨hans, run_bind_error hf⟩

/-! ### The whole call -/

/-- `size` rounded up to a multiple of 256. -/
def roundUp (size : ℕ) : ℕ := (size + 255) / 256 * 256

theorem alignUp_run (size : ℕ) (s : State) :
    (alignUp size 256).run s =
      if size > 2 ^ 64 - 1 - 255 then (.error exceedsAddressable, s)
      else (.ok (roundUp size), s) := by
  unfold alignUp
  by_cases h : size > 2 ^ 64 - 1 - 255
  · rw [if_pos h, if_pos h]
    rfl
  · rw [if_neg h, if_neg h]
    rfl

/-- The class a request is served from, if any. -/
def State.requestClass (s : State) (size : ℕ) (isExact : Bool) : Option ℕ :=
  if isExact then none else s.findClass (roundUp size)

/-- What a successful request for a non-null block did. -/
inductive Allocated (t : ThreadId) (ans : AllocAnswer) (size : ℕ) (isExact : Bool) (s : State) :
    Ptr → State → Prop
  /-- An idle block of the class that fits was taken off its free list. -/
  | reuseClass (i : ℕ) (b : BlockId) (hclass : s.requestClass size isExact = some i)
      (hfind : (s.freeBlocks i).find? (fun c => !(s.blocks c).inUse) = some b) :
      Allocated t ans size isExact s (s.blocks b).ptr
        ((((s.freeze t b).stamp b (s.generationFor t)).takeFree i).startUse b)
  /-- A new block of the class that fits was made. -/
  | growClass (i : ℕ) (b : BlockId) (hclass : s.requestClass size isExact = some i)
      (hfind : (s.freeBlocks i).find? (fun c => !(s.blocks c).inUse) = none)
      (hblock : ans.makeShared = some b) (hstatus : ans.backend.status = kSuccess)
      (hgrow : ¬ s.RefusesGrowth ans.backend) :
      Allocated t ans size isExact s ans.backend.out
        (((s.enroll ans.backend b (newBlock (s.blockSize i) .SizeClass i)).freeze t b).stamp b
          (s.generationFor t))
  /-- The first idle block of the large list that fits was put in use. -/
  | reuseLarge (b : BlockId) (hclass : s.requestClass size isExact = none)
      (hfind : s.largeBlocks.find? (fun c => fitsLarge (roundUp size) isExact (s.blocks c)) =
        some b) :
      Allocated t ans size isExact s (s.blocks b).ptr
        (((s.freeze t b).stamp b (s.generationFor t)).startUse b)
  /-- A new large or exact block was made. -/
  | growLarge (b : BlockId) (hclass : s.requestClass size isExact = none)
      (hfind : s.largeBlocks.find? (fun c => fitsLarge (roundUp size) isExact (s.blocks c)) =
        none)
      (hblock : ans.makeShared = some b) (hstatus : ans.backend.status = kSuccess)
      (hgrow : ¬ s.RefusesGrowth ans.backend) :
      Allocated t ans size isExact s ans.backend.out
        ((((s.enroll ans.backend b (newBlock (roundUp size) (requestKind isExact) 0)).pushLarge
          b).freeze t b).stamp b (s.generationFor t))

/-- `align_up` does not overflow on the size. -/
def Addressable (size : ℕ) : Prop := size ≤ 2 ^ 64 - 1 - 255

theorem alignUp_of_addressable {size : ℕ} (h : Addressable size) (s : State) :
    (alignUp size 256).run s = (.ok (roundUp size), s) := by
  rw [alignUp_run, if_neg (Nat.not_lt.mpr h)]

/-- A request that fits a class is served from it. -/
theorem allocateImpl_of_class {t : ThreadId} {ans : AllocAnswer} {size i : ℕ} {isExact : Bool}
    {s : State} (hsize : size ≠ 0) (hbig : Addressable size)
    (hclass : s.requestClass size isExact = some i) :
    (allocateImpl t ans size isExact).run s =
      (allocateFromClass t ans (s.generationFor t) i).run s := by
  unfold allocateImpl
  rw [if_neg hsize, run_bind_ok (alignUp_of_addressable hbig s), run_bind_ok (run_get s)]
  rw [State.requestClass] at hclass
  simp only [hclass]

/-- Every other request is served from the large list. -/
theorem allocateImpl_of_large {t : ThreadId} {ans : AllocAnswer} {size : ℕ} {isExact : Bool}
    {s : State} (hsize : size ≠ 0) (hbig : Addressable size)
    (hclass : s.requestClass size isExact = none) :
    (allocateImpl t ans size isExact).run s =
      (allocateFromLarge t ans (roundUp size) isExact (s.generationFor t)).run s := by
  unfold allocateImpl
  rw [if_neg hsize, run_bind_ok (alignUp_of_addressable hbig s), run_bind_ok (run_get s)]
  rw [State.requestClass] at hclass
  simp only [hclass]

theorem allocateFromClass_found {t : ThreadId} {ans : AllocAnswer} {generation i : ℕ} {s : State}
    {b : BlockId} (hfind : (s.freeBlocks i).find? (fun c => !(s.blocks c).inUse) = some b) :
    (allocateFromClass t ans generation i).run s =
      (reuseClassBlock t ans i generation b).run s := by
  simp [allocateFromClass, run_bind, hfind]

theorem allocateFromLarge_found {t : ThreadId} {ans : AllocAnswer} {generation size : ℕ}
    {isExact : Bool} {s : State} {b : BlockId}
    (hfind : s.largeBlocks.find? (fun c => fitsLarge size isExact (s.blocks c)) = some b) :
    (allocateFromLarge t ans size isExact generation).run s =
      (reuseLargeBlock t ans generation b).run s := by
  simp [allocateFromLarge, run_bind, hfind]

/-- **`allocate_impl_` by cases.** It throws and leaves the state untouched, answers a request for
nothing with a null address, or serves the request in one of four ways. -/
theorem allocateImpl_run (t : ThreadId) (ans : AllocAnswer) (size : ℕ) (isExact : Bool)
    (s : State) (h : s.Unclaimed ans) :
    (∃ e s', (allocateImpl t ans size isExact).run s = (.error e, s') ∧ Untouched ans s s') ∨
    (size = 0 ∧ isExact = false ∧ (allocateImpl t ans size isExact).run s = (.ok nullptr, s)) ∨
    ∃ p s', size ≠ 0 ∧ Addressable size ∧
      (allocateImpl t ans size isExact).run s = (.ok p, s') ∧
      Allocated t ans size isExact s p s' := by
  by_cases hsize : size = 0
  · cases isExact
    · exact .inr (.inl ⟨hsize, rfl, by simp [allocateImpl, hsize]⟩)
    · exact .inl ⟨.invalidArgument "exact allocator request must be nonzero", s, by
        simp [allocateImpl, hsize], .refl ans s⟩
  by_cases hbig : Addressable size
  case neg =>
    left
    refine ⟨exceedsAddressable, s, ?_, .refl ans s⟩
    have halign : (alignUp size 256).run s = (.error exceedsAddressable, s) := by
      rw [alignUp_run, if_pos (Nat.lt_of_not_le hbig)]
    unfold allocateImpl
    rw [if_neg hsize, run_bind_error halign]
  cases hclass : s.requestClass size isExact with
  | some i =>
    rw [allocateImpl_of_class hsize hbig hclass]
    cases hfind : (s.freeBlocks i).find? (fun c => !(s.blocks c).inUse) with
    | some b =>
      rw [allocateFromClass_found hfind]
      rcases reuseClassBlock_run t ans i (s.generationFor t) b s with hok | ⟨-, herr⟩
      · exact .inr (.inr ⟨_, _, hsize, hbig, hok, .reuseClass i b hclass hfind⟩)
      · exact .inl ⟨_, s, herr, .refl ans s⟩
    | none =>
      have hrun : (allocateFromClass t ans (s.generationFor t) i).run s =
          (growClass t ans i (s.blockSize i) (s.generationFor t)).run s := by
        simp [allocateFromClass, run_bind, hfind]
      rw [hrun]
      rcases growClass_run t i h with herr | ⟨b, hb, hstatus, hgrow, hok⟩
      · exact .inl herr
      · exact .inr (.inr ⟨_, _, hsize, hbig, hok, .growClass i b hclass hfind hb hstatus hgrow⟩)
  | none =>
    rw [allocateImpl_of_large hsize hbig hclass]
    cases hfind : s.largeBlocks.find? (fun c => fitsLarge (roundUp size) isExact (s.blocks c)) with
    | some b =>
      rw [allocateFromLarge_found hfind]
      rcases reuseLargeBlock_run t ans (s.generationFor t) b s with hok | ⟨-, herr⟩
      · exact .inr (.inr ⟨_, _, hsize, hbig, hok, .reuseLarge b hclass hfind⟩)
      · exact .inl ⟨_, s, herr, .refl ans s⟩
    | none =>
      have hrun : (allocateFromLarge t ans (roundUp size) isExact (s.generationFor t)).run s =
          (growLarge t ans (roundUp size) isExact (s.generationFor t)).run s := by
        simp [allocateFromLarge, run_bind, hfind]
      rw [hrun]
      rcases growLarge_run t isExact h with herr | ⟨b, hb, hstatus, hgrow, hok⟩
      · exact .inl herr
      · exact .inr (.inr ⟨_, _, hsize, hbig, hok, .growLarge b hclass hfind hb hstatus hgrow⟩)

/-! ### What a transformation leaves alone -/

section Frames

variable {s : State} {b c : BlockId}

@[simp] theorem freeze_allBlocks (s : State) (t : ThreadId) (b : BlockId) :
    (s.freeze t b).allBlocks = s.allBlocks := by
  unfold State.freeze
  split <;> rfl

@[simp] theorem freeze_sizeClasses (s : State) (t : ThreadId) (b : BlockId) :
    (s.freeze t b).sizeClasses = s.sizeClasses := by
  unfold State.freeze
  split <;> rfl

@[simp] theorem freeze_largeBlocks (s : State) (t : ThreadId) (b : BlockId) :
    (s.freeze t b).largeBlocks = s.largeBlocks := by
  unfold State.freeze
  split <;> rfl

@[simp] theorem freeze_calls (s : State) (t : ThreadId) (b : BlockId) :
    (s.freeze t b).calls = s.calls := by
  unfold State.freeze
  split <;> rfl

@[simp] theorem freeze_pinnedMode (s : State) (t : ThreadId) (b : BlockId) :
    (s.freeze t b).pinnedMode = s.pinnedMode := by
  unfold State.freeze
  split <;> rfl

@[simp] theorem freeze_pinOwner (s : State) (t : ThreadId) (b : BlockId) :
    (s.freeze t b).pinOwner = s.pinOwner := by
  unfold State.freeze
  split <;> rfl

@[simp] theorem freeze_captureGeneration (s : State) (t : ThreadId) (b : BlockId) :
    (s.freeze t b).captureGeneration = s.captureGeneration := by
  unfold State.freeze
  split <;> rfl

/-- Freezing raises a pin count and writes no other field of a block. -/
theorem freeze_blocks (s : State) (t : ThreadId) (b c : BlockId) :
    (s.freeze t b).blocks c =
      { s.blocks c with pinCount := ((s.freeze t b).blocks c).pinCount } := by
  unfold State.freeze
  split
  · by_cases hc : c = b
    · subst hc
      simp
    · simp [State.modifyBlock_blocks_ne _ _ hc]
  · rfl

theorem freeze_blocks_ne (s : State) (t : ThreadId) (h : c ≠ b) :
    (s.freeze t b).blocks c = s.blocks c := by
  unfold State.freeze
  split
  · simp [State.modifyBlock_blocks_ne _ _ h]
  · rfl

theorem stamp_blocks_ne (s : State) (generation : ℕ) (h : c ≠ b) :
    (s.stamp b generation).blocks c = s.blocks c := State.modifyBlock_blocks_ne _ _ h

theorem startUse_blocks_ne (s : State) (h : c ≠ b) : (s.startUse b).blocks c = s.blocks c :=
  State.modifyBlock_blocks_ne _ _ h

@[simp] theorem freeze_freeBlocks (s : State) (t : ThreadId) (b : BlockId) (i : ℕ) :
    (s.freeze t b).freeBlocks i = s.freeBlocks i := by
  simp only [State.freeBlocks, freeze_sizeClasses]

@[simp] theorem stamp_freeBlocks (s : State) (b : BlockId) (generation i : ℕ) :
    (s.stamp b generation).freeBlocks i = s.freeBlocks i := rfl

/-- The free lists are replaced, the sizes of the classes stay. -/
@[simp] theorem setFreeBlocks_blockSizes (s : State) (i : ℕ) (l : List BlockId) :
    (s.setFreeBlocks i l).sizeClasses.map (·.blockSize) = s.sizeClasses.map (·.blockSize) := by
  apply List.ext_getElem?
  intro j
  simp only [State.setFreeBlocks, List.getElem?_map, List.getElem?_modify]
  by_cases hij : i = j
  · subst hij
    cases s.sizeClasses[i]? <;> simp
  · simp [hij]

@[simp] theorem enroll_allBlocks (s : State) (ans : BackendAnswer) (b : BlockId) (blk : Block) :
    (s.enroll ans b blk).allBlocks = s.allBlocks.insert ans.out b := by
  simp only [State.enroll, State.emplaced, State.answered, State.modifyBlock, State.setBlock]

@[simp] theorem enroll_sizeClasses (s : State) (ans : BackendAnswer) (b : BlockId) (blk : Block) :
    (s.enroll ans b blk).sizeClasses = s.sizeClasses := by
  simp only [State.enroll, State.emplaced, State.answered, State.modifyBlock, State.setBlock]

@[simp] theorem enroll_largeBlocks (s : State) (ans : BackendAnswer) (b : BlockId) (blk : Block) :
    (s.enroll ans b blk).largeBlocks = s.largeBlocks := by
  simp only [State.enroll, State.emplaced, State.answered, State.modifyBlock, State.setBlock]

@[simp] theorem enroll_captureFrozenBlocks (s : State) (ans : BackendAnswer) (b : BlockId)
    (blk : Block) : (s.enroll ans b blk).captureFrozenBlocks = s.captureFrozenBlocks := by
  simp only [State.enroll, State.emplaced, State.answered, State.modifyBlock, State.setBlock]

@[simp] theorem enroll_captureFrozenBlockSet (s : State) (ans : BackendAnswer) (b : BlockId)
    (blk : Block) : (s.enroll ans b blk).captureFrozenBlockSet = s.captureFrozenBlockSet := by
  simp only [State.enroll, State.emplaced, State.answered, State.modifyBlock, State.setBlock]

@[simp] theorem enroll_pinnedMode (s : State) (ans : BackendAnswer) (b : BlockId) (blk : Block) :
    (s.enroll ans b blk).pinnedMode = s.pinnedMode := by
  simp only [State.enroll, State.emplaced, State.answered, State.modifyBlock, State.setBlock]

@[simp] theorem enroll_calls (s : State) (ans : BackendAnswer) (b : BlockId) (blk : Block) :
    (s.enroll ans b blk).calls =
      .malloc s.allocationStream blk.size ans.status ans.out :: s.calls := by
  simp only [State.enroll, State.emplaced, State.answered, State.modifyBlock, State.setBlock]

@[simp] theorem stamp_calls (s : State) (b : BlockId) (generation : ℕ) :
    (s.stamp b generation).calls = s.calls := rfl

@[simp] theorem stamp_allBlocks (s : State) (b : BlockId) (generation : ℕ) :
    (s.stamp b generation).allBlocks = s.allBlocks := rfl

@[simp] theorem pushLarge_calls (s : State) (b : BlockId) : (s.pushLarge b).calls = s.calls := rfl

@[simp] theorem pushLarge_blocks (s : State) (b : BlockId) : (s.pushLarge b).blocks = s.blocks :=
  rfl

@[simp] theorem pushLarge_allBlocks (s : State) (b : BlockId) :
    (s.pushLarge b).allBlocks = s.allBlocks := rfl

@[simp] theorem pushLarge_sizeClasses (s : State) (b : BlockId) :
    (s.pushLarge b).sizeClasses = s.sizeClasses := rfl

@[simp] theorem pushLarge_largeBlocks (s : State) (b : BlockId) :
    (s.pushLarge b).largeBlocks = s.largeBlocks ++ [b] := rfl

/-- A new address with a new block in `all_blocks_`. -/
theorem tracked_insert {s s' : State} {p : Ptr} (hp : p ∉ s.allBlocks)
    (hall : s'.allBlocks = s.allBlocks.insert p b) (c : BlockId) :
    s'.Tracked c ↔ c = b ∨ s.Tracked c := by
  simp only [State.Tracked, hall]
  constructor
  · rintro ⟨q, hq⟩
    by_cases hqp : q = p
    · subst hqp
      rw [AList.lookup_insert] at hq
      exact .inl (Option.some.inj hq).symm
    · rw [AList.lookup_insert_ne hqp] at hq
      exact .inr ⟨q, hq⟩
  · rintro (rfl | ⟨q, hq⟩)
    · exact ⟨p, AList.lookup_insert _⟩
    · refine ⟨q, ?_⟩
      rw [AList.lookup_insert_ne, hq]
      rintro rfl
      exact hp (AList.lookup_isSome.mp (by rw [hq]; rfl))

theorem enroll_blocks_self (s : State) (ans : BackendAnswer) (b : BlockId) (blk : Block) :
    (s.enroll ans b blk).blocks b = { blk with ptr := ans.out } := by
  simp [State.enroll, State.emplaced]

theorem enroll_blocks_ne (s : State) (ans : BackendAnswer) (blk : Block) (h : c ≠ b) :
    (s.enroll ans b blk).blocks c = s.blocks c := by
  simp [State.enroll, State.emplaced, State.answered, State.modifyBlock_blocks_ne _ _ h,
    State.setBlock_blocks_ne _ _ h]

end Frames

end InfiniRT.Pool
