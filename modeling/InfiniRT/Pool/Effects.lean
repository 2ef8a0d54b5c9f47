import InfiniRT.Pool.Soundness
import InfiniRT.Pool.World

/-!
# What one event can do

`Effect w e o w'` lists everything an event can do to a pool and its owners, one constructor for
each way an event can end.  `effect_of_step` is the only proof that looks at the program text of a
step; whatever is proved of runs afterwards is a case analysis of `Effect`.  Proved:

* **`effect_of_step`** — every step has one of the effects.
-/

namespace InfiniRT.Pool

open InfiniRT.Library Action

section Served

variable {s s' : State} {t : ThreadId} {b c : BlockId} {p q : Ptr} {held : List BlockId}
  {ans : AllocAnswer} {size : ℕ} {isExact : Bool}

/-! ### The pin transaction of a state -/

/-- The fields of `State` that make up the pin transaction. -/
structure Transaction where
  pinnedMode : Bool
  pinOwner : Option ThreadId
  captureGeneration : ℕ
  captureFrozenBlocks : List BlockId
  captureFrozenBlockSet : Finset BlockId

/-- The pin transaction of a state. -/
def State.transaction (s : State) : Transaction where
  pinnedMode := s.pinnedMode
  pinOwner := s.pinOwner
  captureGeneration := s.captureGeneration
  captureFrozenBlocks := s.captureFrozenBlocks
  captureFrozenBlockSet := s.captureFrozenBlockSet

theorem release_transaction (s : State) (b : BlockId) :
    (s.release b).transaction = s.transaction := by
  unfold State.release State.giveBack
  split_ifs <;> rfl

theorem retain_transaction (s : State) (b : BlockId) :
    (s.retain b).transaction = s.transaction := by
  unfold State.retain
  split_ifs <;> rfl

theorem enroll_transaction (s : State) (ans : BackendAnswer) (b : BlockId) (blk : Block) :
    (s.enroll ans b blk).transaction = s.transaction := by
  simp only [State.transaction, State.enroll, State.emplaced, State.answered, State.modifyBlock,
    State.setBlock]

theorem pushLarge_transaction (s : State) (b : BlockId) :
    (s.pushLarge b).transaction = s.transaction := rfl

theorem TrimSteps.transaction (hs : TrimSteps s s') : s'.transaction = s.transaction := by
  induction hs with
  | refl => rfl
  | tail _ hlast ih =>
    rw [← ih]
    cases hlast <;> rfl

theorem Untouched.transaction (hs : Untouched ans s s') : s'.transaction = s.transaction := by
  rw [hs.rest]
  rfl

/-- Freezing depends on the transaction only. -/
theorem freeze_transaction_congr (t : ThreadId) (b : BlockId)
    (h : s'.transaction = s.transaction) :
    (s'.freeze t b).transaction = (s.freeze t b).transaction := by
  have hmode : s'.pinnedMode = s.pinnedMode := congrArg Transaction.pinnedMode h
  have howner : s'.pinOwner = s.pinOwner := congrArg Transaction.pinOwner h
  have hgen : s'.captureGeneration = s.captureGeneration :=
    congrArg Transaction.captureGeneration h
  have hfrozen : s'.captureFrozenBlocks = s.captureFrozenBlocks :=
    congrArg Transaction.captureFrozenBlocks h
  have hset : s'.captureFrozenBlockSet = s.captureFrozenBlockSet :=
    congrArg Transaction.captureFrozenBlockSet h
  have hcond : (s'.OwnsPinMode t ∧ b ∉ s'.captureFrozenBlockSet) ↔
      s.OwnsPinMode t ∧ b ∉ s.captureFrozenBlockSet := by
    simp only [State.OwnsPinMode, hmode, howner, hset]
  unfold State.freeze
  by_cases hnew : s.OwnsPinMode t ∧ b ∉ s.captureFrozenBlockSet
  · rw [if_pos hnew, if_pos (hcond.mpr hnew)]
    simp only [State.transaction, State.modifyBlock, State.setBlock, hmode, howner, hgen, hfrozen,
      hset]
  · rw [if_neg hnew, if_neg fun hnew' => hnew (hcond.mp hnew')]
    exact h

/-! ### What all successful allocations have in common -/

/-- The block `b` was handed out at the address `p`. -/
structure Served (t : ThreadId) (s : State) (p : Ptr) (b : BlockId) (s' : State) : Prop where
  transaction : s'.transaction = (s.freeze t b).transaction
  lookup : s'.allBlocks.lookup p = some b
  lookup_ne : ∀ q, q ≠ p → s'.allBlocks.lookup q = s.allBlocks.lookup q
  /-- It was idle, or it is new and its memory comes from the backend. -/
  origin : s.allBlocks.lookup p = some b ∧ (s.blocks b).inUse = false ∧ s'.calls = s.calls ∨
    s.allBlocks.lookup p = none ∧ ¬ s.Tracked b ∧ p ∉ live s.calls ∧
      ∃ stream n, s'.calls = .malloc stream n kSuccess p :: s.calls
  blocks_ne : ∀ c, c ≠ b → s'.blocks c = s.blocks c
  inUse : (s'.blocks b).inUse = true
  useCount : (s'.blocks b).useCount = 1

theorem startUse_blocks_self (s : State) (b : BlockId) :
    (s.startUse b).blocks b = { s.blocks b with inUse := true, useCount := 1 } :=
  State.modifyBlock_blocks_self _ _ _

theorem Served.of_reuse (s₁ : State) (hp : s.allBlocks.lookup p = some b)
    (hidle : (s.blocks b).inUse = false)
    (htransaction : s₁.transaction = (s.freeze t b).transaction)
    (hall : s₁.allBlocks = s.allBlocks) (hblocks : ∀ c, c ≠ b → s₁.blocks c = s.blocks c)
    (hcalls : s₁.calls = s.calls) : Served t s p b (s₁.startUse b) where
  transaction := htransaction
  lookup := by
    show s₁.allBlocks.lookup p = some b
    rw [hall, hp]
  lookup_ne q _ := by
    show s₁.allBlocks.lookup q = s.allBlocks.lookup q
    rw [hall]
  origin := .inl ⟨hp, hidle, hcalls⟩
  blocks_ne c hc := by rw [startUse_blocks_ne _ hc, hblocks c hc]
  inUse := by rw [startUse_blocks_self]
  useCount := by rw [startUse_blocks_self]

theorem Served.of_grow (s₁ : State) (blk : Block) (generation : ℕ) (hb : ¬ s.Tracked b)
    (hp : ans.backend.out ∉ s.allBlocks) (hout : ans.backend.out ∉ live s.calls)
    (hstatus : ans.backend.status = kSuccess)
    (huse : blk.inUse = true) (hcount : blk.useCount = 1)
    (htransaction : s₁.transaction = s.transaction)
    (hall : s₁.allBlocks = s.allBlocks.insert ans.backend.out b)
    (hblocks : s₁.blocks = (s.enroll ans.backend b blk).blocks)
    (hcalls : s₁.calls = (s.enroll ans.backend b blk).calls) :
    Served t s ans.backend.out b ((s₁.freeze t b).stamp b generation) where
  transaction := freeze_transaction_congr t b htransaction
  lookup := by
    rw [stamp_allBlocks, freeze_allBlocks, hall, AList.lookup_insert]
  lookup_ne q hq := by
    rw [stamp_allBlocks, freeze_allBlocks, hall, AList.lookup_insert_ne hq]
  origin := by
    refine .inr ⟨AList.lookup_eq_none.mpr hp, hb, hout, s.allocationStream, blk.size, ?_⟩
    rw [stamp_calls, freeze_calls, hcalls, enroll_calls, hstatus]
  blocks_ne c hc := by
    rw [stamp_blocks_ne _ _ hc, freeze_blocks_ne _ _ hc, hblocks, enroll_blocks_ne _ _ _ hc]
  inUse := by
    rw [State.stamp, State.modifyBlock_blocks_self, freeze_blocks, hblocks, enroll_blocks_self]
    exact huse
  useCount := by
    rw [State.stamp, State.modifyBlock_blocks_self, freeze_blocks, hblocks, enroll_blocks_self]
    exact hcount

/-- The first idle block of a class. -/
theorem Served.reuseClass (h : Placement s) (t : ThreadId) (generation : ℕ) {i : ℕ}
    (hfind : (s.freeBlocks i).find? (fun c => !(s.blocks c).inUse) = some b) :
    Served t s (s.blocks b).ptr b
      ((((s.freeze t b).stamp b generation).takeFree i).startUse b) := by
  have hb := h.mem_free.mp (List.mem_of_find?_eq_some hfind)
  refine .of_reuse _ (h.lookup_ptr hb.1) hb.2.2.2 rfl ?_ ?_ ?_
  · exact freeze_allBlocks s t b
  · intro c hc
    rw [takeFree_blocks, stamp_blocks_ne _ _ hc, freeze_blocks_ne _ _ hc]
  · exact freeze_calls s t b

/-- The first idle block of the large list that fits. -/
theorem Served.reuseLarge (h : Placement s) (t : ThreadId) (generation : ℕ)
    (hfind : s.largeBlocks.find? (fun c => fitsLarge size isExact (s.blocks c)) = some b) :
    Served t s (s.blocks b).ptr b (((s.freeze t b).stamp b generation).startUse b) := by
  have hb := h.mem_large.mp (List.mem_of_find?_eq_some hfind)
  have hidle : (s.blocks b).inUse = false := by
    have hfits := List.find?_some hfind
    simp only [fitsLarge, Bool.and_eq_true, Bool.not_eq_true'] at hfits
    exact hfits.1.1
  refine .of_reuse _ (h.lookup_ptr hb.1) hidle rfl ?_ ?_ ?_
  · exact freeze_allBlocks s t b
  · intro c hc
    rw [stamp_blocks_ne _ _ hc, freeze_blocks_ne _ _ hc]
  · exact freeze_calls s t b

/-- A new block of a class. -/
theorem Served.growClass (h : Sound held s) (hans : s.Fresh ans) (t : ThreadId)
    (generation blockSize i : ℕ) (hblock : ans.makeShared = some b)
    (hstatus : ans.backend.status = kSuccess) :
    Served t s ans.backend.out b
      (((s.enroll ans.backend b (newBlock blockSize .SizeClass i)).freeze t b).stamp b
        generation) :=
  .of_grow (s.enroll ans.backend b (newBlock blockSize .SizeClass i))
    (newBlock blockSize .SizeClass i) generation (hans.block b hblock) (h.notMem_allBlocks hans)
    hans.address hstatus rfl rfl (enroll_transaction ..) (enroll_allBlocks ..) rfl rfl

/-- A new large or exact block. -/
theorem Served.growLarge (h : Sound held s) (hans : s.Fresh ans) (t : ThreadId)
    (generation size : ℕ) (isExact : Bool) (hblock : ans.makeShared = some b)
    (hstatus : ans.backend.status = kSuccess) :
    Served t s ans.backend.out b
      ((((s.enroll ans.backend b (newBlock size (requestKind isExact) 0)).pushLarge b).freeze
        t b).stamp b generation) := by
  refine .of_grow ((s.enroll ans.backend b (newBlock size (requestKind isExact) 0)).pushLarge b)
    (newBlock size (requestKind isExact) 0) generation (hans.block b hblock)
    (h.notMem_allBlocks hans) hans.address hstatus rfl rfl ?_ ?_ ?_ ?_
  · rw [pushLarge_transaction, enroll_transaction]
  · rw [pushLarge_allBlocks, enroll_allBlocks]
  · exact pushLarge_blocks ..
  · exact pushLarge_calls ..

theorem Allocated.served (h : Sound held s) (hans : s.Fresh ans)
    (hs : Allocated t ans size isExact s p s') : ∃ b, Served t s p b s' := by
  cases hs with
  | reuseClass i b hi hfind => exact ⟨b, .reuseClass h.placement t _ hfind⟩
  | growClass i b hi hfind hblock hstatus hgrow =>
    exact ⟨b, .growClass h hans t _ _ _ hblock hstatus⟩
  | reuseLarge b hi hfind => exact ⟨b, .reuseLarge h.placement t _ hfind⟩
  | growLarge b hi hfind hblock hstatus hgrow =>
    exact ⟨b, .growLarge h hans t _ _ _ hblock hstatus⟩

end Served

/-! ### The effects -/

/-- The event asks for `size` bytes on the thread `t`. -/
inductive Event.Requests : Event → ThreadId → ℕ → Bool → AllocAnswer → Prop
  | allocate (t : ThreadId) (size : ℕ) (ans : AllocAnswer) :
      Requests (.allocate t size ans) t size false ans
  | allocateExact (t : ThreadId) (size : ℕ) (ans : AllocAnswer) :
      Requests (.allocateExact t size ans) t size true ans

/-- A request is made of a pool that lives, and its answer is one the backend may give. -/
theorem Event.Requests.answers {w : World} {e : Event} {t : ThreadId} {size : ℕ} {isExact : Bool}
    {ans : AllocAnswer} (hreq : e.Requests t size isExact ans) (henabled : w.Enabled e) :
    w.poolAlive = true ∧ w.Answers ans := by
  cases hreq <;> exact henabled

/-- The commit of the transaction that is open. -/
def State.beginCommit (s : State) (t : ThreadId) : PendingCommit where
  thread := t
  generation := s.captureGeneration
  blocks := s.captureFrozenBlocks
  retained := []
  stage := .makePinState

namespace PendingCommit

/-- The `PinState` was built and took the vector over. -/
def withPinState (c : PendingCommit) : PendingCommit :=
  { c with blocks := [], retained := c.blocks, stage := .newPinLease }

/-- The `PinLease` was built and took the `PinState` over. -/
def withPinLease (c : PendingCommit) : PendingCommit := { c with stage := .controlBlock }

/-- The `PinState` could not be built. -/
def failed (c : PendingCommit) : PendingCommit := { c with stage := .handler }

/-- Unwinding destroyed the `PinState`. -/
def dropped (c : PendingCommit) : PendingCommit := { c with retained := [], stage := .handler }

/-- The lease a commit returns. -/
def lease (c : PendingCommit) : Lease := { generation := c.generation, blocks := c.retained }

end PendingCommit

/-- Everything one event can do. -/
inductive Effect (w : World) : Event → Outcome → World → Prop
  /-- An allocation threw and left the state untouched. -/
  | failed {e : Event} {t : ThreadId} {size : ℕ} {isExact : Bool} {ans : AllocAnswer} {s' : State}
      (hreq : e.Requests t size isExact ans) (x : Exn)
      (hs : Untouched ans w.state s') : Effect w e (.error x) { w with state := s' }
  /-- A request for nothing was answered with a null address. -/
  | null (t : ThreadId) (ans : AllocAnswer) :
      Effect w (.allocate t 0 ans) (.ok (.pointer nullptr)) w
  | allocated {e : Event} {t : ThreadId} {size : ℕ} {isExact : Bool} {ans : AllocAnswer} {p : Ptr}
      {s' : State} (hreq : e.Requests t size isExact ans)
      (hs : Allocated t ans size isExact w.state p s') (hsize : size ≠ 0)
      (hbig : Addressable size) :
      Effect w e (.ok (.pointer p)) { w with state := s' }
  /-- A call was rejected, or found no memory, before it wrote anything. -/
  | rejected {e : Event} (x : Exn) (he : ∀ d granted, e ≠ .advanceCommit d granted) :
      Effect w e (.error x) w
  | deallocateNull (t : ThreadId) (pushBack : Bool) :
      Effect w (.deallocate t nullptr pushBack) (.ok .none) w
  | released {t : ThreadId} {p : Ptr} {b : BlockId} (pushBack : Bool) (hp : p ≠ nullptr)
      (hlookup : w.state.allBlocks.lookup p = some b)
      (huse : (w.state.blocks b).inUse = true) (howner : 0 < (w.state.blocks b).useCount) :
      Effect w (.deallocate t p pushBack) (.ok .none) { w with state := w.state.release b }
  | retained {t : ThreadId} {p : Ptr} {b : BlockId}
      (hlookup : w.state.allBlocks.lookup p = some b) :
      Effect w (.retainAllocation t p) (.ok (.size (w.state.blocks b).size))
        { w with state := w.state.retain b }
  | began {t : ThreadId} (hmode : w.state.pinnedMode = false)
      (hgen : w.state.captureGeneration ≠ 2 ^ 64 - 1) :
      Effect w (.beginPinMode t) (.ok .none) { w with state := w.state.openPinMode t }
  /-- There was no transaction to commit. -/
  | nothingToCommit {t : ThreadId} (hmode : w.state.pinnedMode = false) :
      Effect w (.commitPinMode t) (.ok .nullLease) w
  | committed {t : ThreadId} (howner : w.state.OwnsPinMode t) :
      Effect w (.commitPinMode t) (.ok (.committing (w.state.beginCommit t)))
        { w with
          state := w.state.closePinMode
          commits := w.state.beginCommit t :: w.commits }
  | builtPinState (d : PendingCommit) (hd : d ∈ w.commits) (hstage : d.stage = .makePinState) :
      Effect w (.advanceCommit d true) (.ok (.committing d.withPinState))
        (w.setCommit d d.withPinState)
  | noPinState (d : PendingCommit) (hd : d ∈ w.commits) (hstage : d.stage = .makePinState) :
      Effect w (.advanceCommit d false) (.ok (.committing d.failed)) (w.setCommit d d.failed)
  | builtPinLease (d : PendingCommit) (hd : d ∈ w.commits) (hstage : d.stage = .newPinLease) :
      Effect w (.advanceCommit d true) (.ok (.committing d.withPinLease))
        (w.setCommit d d.withPinLease)
  /-- The `PinLease` or its control block could not be built. -/
  | dropped (d : PendingCommit) (hd : d ∈ w.commits)
      (hstage : d.stage = .newPinLease ∨ d.stage = .controlBlock) :
      Effect w (.advanceCommit d false) (.ok (.committing d.dropped))
        { w.setCommit d d.dropped with state := w.state.releaseFrozenBlocks d.retained }
  | leased (d : PendingCommit) (hd : d ∈ w.commits) (hstage : d.stage = .controlBlock) :
      Effect w (.advanceCommit d true) (.ok (.lease d.lease))
        { w with commits := w.commits.erase d, leases := d.lease :: w.leases }
  /-- The handler of `commit_pin_mode` threw on. -/
  | handled (d : PendingCommit) (granted : Bool) (hd : d ∈ w.commits)
      (hstage : d.stage = .handler) :
      Effect w (.advanceCommit d granted) (.error .badAlloc)
        { w with
          state := w.state.releaseFrozenBlocks d.blocks
          commits := w.commits.erase d }
  | canceled {t : ThreadId} (howner : w.state.pinnedMode = true → w.state.pinOwner = some t) :
      Effect w (.cancelPinMode t) (.ok .none)
        { w with
          state := (w.state.releaseFrozenBlocks w.state.captureFrozenBlocks).closePinMode }
  | frozen {t : ThreadId} {p : Ptr} {b : BlockId} (freezeAns : FreezeAnswer) (flag : Bool)
      (howner : w.state.OwnsPinMode t)
      (hlookup : w.state.allBlocks.lookup p = some b) :
      Effect w (.retainForCapture t p freezeAns) (.ok (.flag flag))
        { w with state := w.state.freeze t b }
  | readBytes (t : ThreadId) : Effect w (.pinnedBytes t) (.ok (.size w.state.pinnedBytes)) w
  | trimmed {t : ThreadId} {s' : State} (trimAns : TrimAnswer) (o : Outcome)
    (hs : TrimSteps w.state s') :
      Effect w (.trim t trimAns) o { w with state := s' }
  | leaseDropped (l : Lease) (destroyAns : DestroyAnswer) (hl : l ∈ w.leases) :
      Effect w (.destroyLease l destroyAns) (.ok .none)
        (({ w with
            state := w.state.releaseFrozenBlocks l.blocks
            leases := w.leases.erase l } : World).closeIfUnowned destroyAns)
  | poolDropped (destroyAns : DestroyAnswer) (hpool : w.poolAlive = true)
      (hcommits : w.commits = []) :
      Effect w (.destroyPool destroyAns) (.ok .none)
        ({ w with poolAlive := false }.closeIfUnowned destroyAns)

variable {w w' : World} {s' : State} {e : Event} {o : Outcome} {t : ThreadId} {ans : AllocAnswer}
  {size : ℕ} {isExact : Bool} {held : List BlockId}

/-- The environment's contract in terms of the state. -/
theorem World.Answers.fresh (h : w.Answers ans) : w.state.Fresh ans where
  block b hb := by
    intro htracked
    refine h.1 b hb ?_
    simp only [World.shared, List.mem_append]
    exact .inl (.inl (.inl (.inl (.inl ((w.state.tracked_iff_mem_entries b).mp htracked)))))
  nonnull := h.2.1
  address := h.2.2

theorem call_eq {α : Type} {x : PoolAction α} {value : α → Value} {r : Except Exn α}
    (h : x.run w.state = (r, s')) : w.call x value = ({ w with state := s' }, r.map value) := by
  simp only [World.call, h]

/-- A function that selects the device first. -/
theorem guarded_run {α : Type} (selected : Bool) (x : PoolAction α) (s : State) :
    (do deviceGuard selected; x : PoolAction α).run s =
      if selected then x.run s
      else (.error (.runtimeError "cannot select runtime device"), s) := by
  cases selected <;> simp [deviceGuard, run_bind]

/-- An allocation behind its device guard. -/
theorem effect_of_request (hsound : Sound held w.state)
    (hreq : e.Requests t size isExact ans) (hans : w.Answers ans)
    (h : w.call (do deviceGuard ans.guard; allocateImpl t ans size isExact) .pointer = (w', o)) :
    Effect w e o w' := by
  have hrun := guarded_run ans.guard (allocateImpl t ans size isExact) w.state
  cases hguard : ans.guard with
  | false =>
    rw [hguard, if_neg Bool.false_ne_true] at hrun
    rw [hguard, call_eq hrun] at h
    cases h
    exact .rejected _ fun d granted he => by cases hreq <;> cases he
  | true =>
    rw [hguard, if_pos rfl] at hrun
    rw [hguard] at h
    rcases allocateImpl_run t ans size isExact w.state (hsound.unclaimed hans.fresh) with
      ⟨x, s', herr, hs⟩ | ⟨rfl, hexact, hnull⟩ | ⟨p, s', hsize, hbig, hok, hs⟩
    · rw [call_eq (hrun.trans herr)] at h
      cases h
      exact .failed hreq x hs
    · rw [call_eq (hrun.trans hnull)] at h
      cases h
      cases hreq with
      | allocate => exact .null t ans
      | allocateExact => cases hexact
    · rw [call_eq (hrun.trans hok)] at h
      cases h
      exact .allocated hreq hs hsize hbig

/-- **A step is one of the effects.** -/
theorem effect_of_step (hsound : Sound held w.state) (h : Step w (e, o) w') : Effect w e o w' := by
  obtain ⟨henabled, h⟩ := h
  cases e with
  | allocate t size ans =>
    exact effect_of_request hsound (.allocate t size ans) henabled.2 h
  | allocateExact t size ans =>
    exact effect_of_request hsound (.allocateExact t size ans) henabled.2 h
  | deallocate t p pushBack =>
    simp only [World.perform] at h
    rcases deallocate_run pushBack p w.state with ⟨x, hrun⟩ | ⟨rfl, hrun⟩ |
      ⟨b, hp, hlookup, huse, howner, hrun⟩ <;> rw [call_eq hrun] at h <;> cases h
    · exact .rejected x (by simp)
    · exact .deallocateNull t pushBack
    · exact .released pushBack hp hlookup huse howner
  | retainAllocation t p =>
    simp only [World.perform] at h
    cases hlookup : w.state.allBlocks.lookup p with
    | none =>
      rw [call_eq (retainAllocation_untracked hlookup)] at h
      cases h
      exact .rejected _ (by simp)
    | some b =>
      rw [call_eq (retainAllocation_tracked hlookup)] at h
      cases h
      exact .retained hlookup
  | beginPinMode t =>
    simp only [World.perform] at h
    rcases beginPinMode_run t w.state with ⟨x, hrun⟩ | ⟨hmode, hgen, hrun⟩ <;>
      rw [call_eq hrun] at h <;> cases h
    · exact .rejected x (by simp)
    · exact .began hmode hgen
  | commitPinMode t =>
    simp only [World.perform, World.commitSection] at h
    rcases takeFrozenBlocks_run t w.state with ⟨x, -, -, hrun⟩ | ⟨hmode, hrun⟩ | ⟨howner, hrun⟩ <;>
      rw [hrun] at h <;> cases h
    · exact .rejected x (by simp)
    · exact .nothingToCommit hmode
    · exact .committed howner
  | advanceCommit d granted =>
    simp only [World.perform, World.commitStep] at h
    cases hstage : d.stage <;> cases granted <;> simp only [hstage] at h <;> cases h
    · exact .noPinState d henabled hstage
    · exact .builtPinState d henabled hstage
    · exact .dropped d henabled (.inl hstage)
    · exact .builtPinLease d henabled hstage
    · exact .dropped d henabled (.inr hstage)
    · exact .leased d henabled hstage
    · exact .handled d false henabled hstage
    · exact .handled d true henabled hstage
  | cancelPinMode t =>
    simp only [World.perform] at h
    rcases cancelPinMode_run t w.state with ⟨x, -, -, hrun⟩ | ⟨howner, hrun⟩ <;>
      rw [call_eq hrun] at h <;> cases h
    · exact .rejected x (by simp)
    · exact .canceled howner
  | retainForCapture t p freezeAns =>
    simp only [World.perform] at h
    rcases retainForCapture_run t freezeAns p w.state with
      ⟨x, hrun⟩ | ⟨b, howner, hlookup, hrun⟩ <;>
      rw [call_eq hrun] at h <;> cases h
    · exact .rejected x (by simp)
    · exact .frozen freezeAns _ howner hlookup
  | pinnedBytes t =>
    cases h
    exact .readBytes t
  | trim t trimAns =>
    simp only [World.perform] at h
    obtain ⟨r, s', hrun, hs⟩ := trim_run trimAns w.state
    rw [call_eq hrun] at h
    cases h
    exact .trimmed trimAns _ hs
  | destroyLease l destroyAns =>
    cases h
    exact .leaseDropped l destroyAns henabled
  | destroyPool destroyAns =>
    cases h
    exact .poolDropped destroyAns henabled.1 henabled.2

end InfiniRT.Pool
