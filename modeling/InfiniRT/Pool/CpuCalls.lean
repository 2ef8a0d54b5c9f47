import InfiniRT.Pool.CpuHeap
import InfiniRT.Pool.GuardedRuns

/-!
# The calls of a pool on the CPU

A pool on the CPU has no stream.  Whatever an event does, its calls are requests for one number of
bytes with one answer, and frees that succeed: the program text is walked once, with the rules for
what a program may do to its state.  Proved:

* **`cpuCalls_guarded_allocateImpl`** — an allocation makes requests for one size with one answer;
* **`callsOnCpu_trim`** — `trim` makes frees that succeed and nothing else.
-/

namespace InfiniRT.Pool

open InfiniRT.Library Action

/-! ### The parts of an operation -/

/-- From `s` to `s'` a pool without a stream made calls as one event on the CPU makes them. -/
def CpuCalls (size : ℕ) (ans : BackendAnswer) (s s' : State) : Prop :=
  s.allocationStream = none → s'.allocationStream = none ∧
    ∃ new, s'.calls = new ++ s.calls ∧ ∀ c ∈ new, c.OnCpu size ans

section Calls

variable {size : ℕ} {a : BackendAnswer} {s s' s'' : State} {t : ThreadId} {ans : AllocAnswer}

namespace CpuCalls

theorem quiet (halloc : s'.allocationStream = s.allocationStream) (hcalls : s'.calls = s.calls) :
    CpuCalls size a s s' := fun hnone => ⟨halloc.trans hnone, [], hcalls, by simp⟩

theorem refl (s : State) : CpuCalls size a s s := quiet rfl rfl

theorem trans (s s' s'' : State) (h : CpuCalls size a s s') (h' : CpuCalls size a s' s'') :
    CpuCalls size a s s'' := by
  intro hnone
  obtain ⟨hnone', new, hcalls, hnew⟩ := h hnone
  obtain ⟨hnone'', new', hcalls', hnew'⟩ := h' hnone'
  refine ⟨hnone'', new' ++ new, by rw [hcalls', hcalls, List.append_assoc], fun c hc => ?_⟩
  rcases List.mem_append.mp hc with hc | hc
  · exact hnew' c hc
  · exact hnew c hc

/-- One call. -/
theorem single {c : BackendCall} (halloc : s'.allocationStream = s.allocationStream)
    (hcalls : s'.calls = c :: s.calls) (hc : s.allocationStream = none → c.OnCpu size a) :
    CpuCalls size a s s' := fun hnone =>
  ⟨halloc.trans hnone, [c], hcalls, fun _ hd => List.mem_singleton.mp hd ▸ hc hnone⟩

end CpuCalls

/-- The program makes such calls only. -/
abbrev CallsOnCpu (size : ℕ) (a : BackendAnswer) {α : Type} (x : PoolAction α) : Prop :=
  Moves (CpuCalls size a) x

theorem callsOnCpu_modify {f : State → State}
    (halloc : ∀ s, (f s).allocationStream = s.allocationStream)
    (hcalls : ∀ s, (f s).calls = s.calls) : CallsOnCpu size a (modify f) :=
  .modify fun s => .quiet (halloc s) (hcalls s)

theorem callsOnCpu_check (status : Error) (operation : String) :
    CallsOnCpu size a (check status operation) := by
  unfold check
  split
  · exact .throw CpuCalls.refl _
  · exact .pure CpuCalls.refl _

theorem callsOnCpu_hostAllocation (granted : Bool) :
    CallsOnCpu size a (hostAllocation granted) := by
  unfold hostAllocation
  split
  · exact .pure CpuCalls.refl _
  · exact .throw CpuCalls.refl _

theorem callsOnCpu_freeze (t : ThreadId) (f : FreezeAnswer) (b : BlockId) :
    CallsOnCpu size a (freezeForCapture t f b) := by
  intro s
  rcases freezeForCapture_run t f b s with hrun | ⟨-, hrun⟩
  · rw [hrun]
    exact .quiet (State.Adds.freeze s t b).allocationStream (State.Adds.freeze s t b).calls
  · rw [hrun]
    exact .refl s

theorem callsOnCpu_allocateBlock (b : BlockId) : CallsOnCpu size a (allocateBlock a b size) := by
  intro s
  rcases allocateBlock_run a b size s with ⟨-, e, hrun⟩ | ⟨-, hrun⟩
  · rw [hrun]
    exact .refl s
  · rw [hrun]
    exact .single rfl rfl fun hnone => ⟨hnone, rfl, rfl, rfl⟩

theorem callsOnCpu_freeBlock (p : Ptr) : CallsOnCpu size a (freeBlock kSuccess p) := by
  intro s
  exact .single rfl rfl fun hnone => ⟨hnone, rfl⟩

theorem callsOnCpu_makeBlock (granted : Option BlockId) (blk : Block) :
    CallsOnCpu size a (makeBlock granted blk) := by
  cases granted with
  | none => exact .throw CpuCalls.refl _
  | some b =>
    exact .bind CpuCalls.trans (callsOnCpu_modify (fun _ => rfl) fun _ => rfl) fun _ =>
      .pure CpuCalls.refl _

theorem callsOnCpu_getBlock (f : State → Ptr) :
    CallsOnCpu size a (do return f (← get) : PoolAction Ptr) :=
  .bind CpuCalls.trans (.get CpuCalls.refl) fun _ => .pure CpuCalls.refl _

theorem callsOnCpu_track (b : BlockId) :
    CallsOnCpu size a (modify (·.track b) : PoolAction Unit) := by
  apply callsOnCpu_modify
  · intro s
    unfold State.track
    split <;> rfl
  · intro s
    unfold State.track
    split <;> rfl

/-- The end of a growth path. -/
theorem callsOnCpu_register (b : BlockId) (generation : ℕ) (f : FreezeAnswer) :
    CallsOnCpu size a (do
      freezeForCapture t f b
      modify (·.stamp b generation) : PoolAction Unit) :=
  .bind CpuCalls.trans (callsOnCpu_freeze t f b) fun _ =>
    callsOnCpu_modify (fun _ => rfl) fun _ => rfl

theorem callsOnCpu_growClass (i generation : ℕ) (hcleanup : ans.cleanup = kSuccess) :
    CallsOnCpu size ans.backend (growClass t ans i size generation) := by
  refine .bind CpuCalls.trans (callsOnCpu_makeBlock _ _) fun b => ?_
  refine .bind CpuCalls.trans (.tryCatch CpuCalls.trans ?_ fun e => ?_) fun _ =>
    callsOnCpu_getBlock _
  · refine .bind CpuCalls.trans (callsOnCpu_allocateBlock b) fun status => ?_
    refine .bind CpuCalls.trans (callsOnCpu_check status _) fun _ => ?_
    refine .bind CpuCalls.trans (callsOnCpu_hostAllocation _) fun _ => ?_
    exact .bind CpuCalls.trans (callsOnCpu_track b) fun _ => callsOnCpu_register b generation _
  · refine .bind CpuCalls.trans (.get CpuCalls.refl) fun s => ?_
    rw [hcleanup]
    dsimp only
    split
    · refine .bind CpuCalls.trans (callsOnCpu_modify (fun _ => rfl) fun _ => rfl) fun _ => ?_
      exact .bind CpuCalls.trans (callsOnCpu_freeBlock _) fun _ => .throw CpuCalls.refl e
    · exact .throw CpuCalls.refl e

theorem callsOnCpu_growLarge (isExact : Bool) (generation : ℕ) (hcleanup : ans.cleanup = kSuccess) :
    CallsOnCpu size ans.backend (growLarge t ans size isExact generation) := by
  refine .bind CpuCalls.trans (callsOnCpu_makeBlock _ _) fun b => ?_
  refine .bind CpuCalls.trans (.tryCatch CpuCalls.trans ?_ fun e => ?_) fun _ =>
    callsOnCpu_getBlock _
  · refine .bind CpuCalls.trans (callsOnCpu_allocateBlock b) fun status => ?_
    refine .bind CpuCalls.trans (callsOnCpu_check status _) fun _ => ?_
    refine .bind CpuCalls.trans (callsOnCpu_hostAllocation _) fun _ => ?_
    refine .bind CpuCalls.trans (callsOnCpu_track b) fun _ => ?_
    refine .bind CpuCalls.trans (callsOnCpu_hostAllocation _) fun _ => ?_
    refine .bind CpuCalls.trans (callsOnCpu_modify (fun _ => rfl) fun _ => rfl) fun _ => ?_
    exact callsOnCpu_register b generation _
  · refine .bind CpuCalls.trans (.get CpuCalls.refl) fun s => ?_
    rw [hcleanup]
    dsimp only
    split
    · refine .bind CpuCalls.trans (callsOnCpu_modify (fun _ => rfl) fun _ => rfl) fun _ => ?_
      refine .bind CpuCalls.trans (callsOnCpu_modify (fun _ => rfl) fun _ => rfl) fun _ => ?_
      exact .bind CpuCalls.trans (callsOnCpu_freeBlock _) fun _ => .throw CpuCalls.refl e
    · exact .throw CpuCalls.refl e

/-- A cached block is put in use without a call. -/
theorem callsOnCpu_startUse (b : BlockId) : CallsOnCpu size a (do
    modify (·.startUse b)
    return ((← get).blocks b).ptr : PoolAction Ptr) :=
  .bind CpuCalls.trans (callsOnCpu_modify (fun _ => rfl) fun _ => rfl) fun _ =>
    callsOnCpu_getBlock _

theorem callsOnCpu_reuseClassBlock (i generation : ℕ) (b : BlockId) :
    CallsOnCpu size a (reuseClassBlock t ans i generation b) := by
  refine .bind CpuCalls.trans (callsOnCpu_freeze t _ b) fun _ => ?_
  refine .bind CpuCalls.trans (callsOnCpu_modify (fun _ => rfl) fun _ => rfl) fun _ => ?_
  refine .bind CpuCalls.trans (callsOnCpu_modify (fun _ => rfl) fun _ => rfl) fun _ => ?_
  exact callsOnCpu_startUse b

theorem callsOnCpu_reuseLargeBlock (generation : ℕ) (b : BlockId) :
    CallsOnCpu size a (reuseLargeBlock t ans generation b) := by
  refine .bind CpuCalls.trans (callsOnCpu_freeze t _ b) fun _ => ?_
  refine .bind CpuCalls.trans (callsOnCpu_modify (fun _ => rfl) fun _ => rfl) fun _ => ?_
  exact callsOnCpu_startUse b

theorem callsOnCpu_allocateFromLarge (isExact : Bool) (generation : ℕ)
    (hcleanup : ans.cleanup = kSuccess) :
    CallsOnCpu size ans.backend (allocateFromLarge t ans size isExact generation) := by
  refine .bind CpuCalls.trans (.get CpuCalls.refl) fun s => ?_
  split
  · exact callsOnCpu_reuseLargeBlock generation _
  · exact callsOnCpu_growLarge isExact generation hcleanup

/-! ### Requests -/

/-- How much the pool asks the backend for if a request makes it grow; a request for nothing does
not. -/
def State.growthSize (s : State) (size : ℕ) (isExact : Bool) : ℕ :=
  if size = 0 then 1 else (s.requestClass size isExact).elim (roundUp size) s.blockSize

theorem growthSize_ne_zero (h : Placement s) (size : ℕ) (isExact : Bool) :
    s.growthSize size isExact ≠ 0 := by
  unfold State.growthSize
  split
  · exact Nat.one_ne_zero
  · next hsize =>
    cases hclass : s.requestClass size isExact with
    | none =>
      have hle := le_roundUp size
      show roundUp size ≠ 0
      omega
    | some i =>
      cases isExact with
      | true => cases hclass
      | false =>
        have hfind : s.findClass (roundUp size) = some i := hclass
        rw [findClass_eq h] at hfind
        obtain ⟨m, hm, hfits, -⟩ := findIdx?_fits classSizes_ascending hfind
        have hle := le_roundUp size
        show s.blockSize i ≠ 0
        rw [blockSize_eq h, hm, Option.getD_some]
        omega

theorem cpuCalls_allocateFromClass (i generation : ℕ) (hcleanup : ans.cleanup = kSuccess)
    (s : State) :
    CpuCalls (s.blockSize i) ans.backend s ((allocateFromClass t ans generation i).run s).2 := by
  unfold allocateFromClass
  rw [run_bind_ok (run_get s)]
  split
  · exact callsOnCpu_reuseClassBlock i generation _ s
  · exact callsOnCpu_growClass i generation hcleanup s

theorem cpuCalls_allocateImpl (t : ThreadId) (size : ℕ) (isExact : Bool)
    (hcleanup : ans.cleanup = kSuccess) (s : State) :
    CpuCalls (s.growthSize size isExact) ans.backend s
      ((allocateImpl t ans size isExact).run s).2 := by
  by_cases hsize : size = 0
  · unfold allocateImpl
    rw [if_pos hsize]
    cases isExact <;> exact .refl s
  by_cases hbig : Addressable size
  · rw [State.growthSize, if_neg hsize]
    cases hclass : s.requestClass size isExact with
    | some i =>
      rw [allocateImpl_of_class hsize hbig hclass]
      exact cpuCalls_allocateFromClass i _ hcleanup s
    | none =>
      rw [allocateImpl_of_large hsize hbig hclass]
      exact callsOnCpu_allocateFromLarge isExact _ hcleanup s
  · have halign : (alignUp size 256).run s = (.error exceedsAddressable, s) := by
      rw [alignUp_run, if_pos (Nat.lt_of_not_le hbig)]
    unfold allocateImpl
    rw [if_neg hsize, run_bind_error halign]
    exact .refl s

/-- `allocate` and `allocate_exact`. -/
theorem cpuCalls_guarded_allocateImpl (selected : Bool) (t : ThreadId) (size : ℕ) (isExact : Bool)
    (hcleanup : ans.cleanup = kSuccess) (s : State) :
    CpuCalls (s.growthSize size isExact) ans.backend s
      ((do deviceGuard selected; allocateImpl t ans size isExact : PoolAction Ptr).run s).2 := by
  rw [guarded_run]
  split
  · exact cpuCalls_allocateImpl t size isExact hcleanup s
  · exact .refl s

/-! ### `trim` -/

theorem callsOnCpu_trimList {idle : Block → Bool} {answer : Ptr → Error} {operation : String}
    (store : List BlockId → State → State) (hanswer : ∀ p, answer p = kSuccess)
    (hstore : ∀ l s,
      (store l s).allocationStream = s.allocationStream ∧ (store l s).calls = s.calls)
    (rest kept : List BlockId) :
    CallsOnCpu size a (trimList idle answer operation store kept rest) := by
  induction rest generalizing kept with
  | nil => exact .pure CpuCalls.refl _
  | cons b rest ih =>
    refine .bind CpuCalls.trans (.get CpuCalls.refl) fun s => ?_
    dsimp only
    rw [hanswer]
    split
    · refine .bind CpuCalls.trans (callsOnCpu_freeBlock _) fun status => ?_
      refine .bind CpuCalls.trans (callsOnCpu_check status _) fun _ => ?_
      refine .bind CpuCalls.trans (callsOnCpu_modify (fun _ => rfl) fun _ => rfl) fun _ => ?_
      refine .bind CpuCalls.trans (callsOnCpu_modify ?_ ?_) fun _ => ih kept
      · exact fun s => (hstore _ s).1
      · exact fun s => (hstore _ s).2
    · exact ih _

theorem callsOnCpu_trimClasses {answer : Ptr → Error} (hanswer : ∀ p, answer p = kSuccess)
    (i n : ℕ) :
    CallsOnCpu size a (trimClasses answer i n) := by
  induction n generalizing i with
  | zero => exact .pure CpuCalls.refl _
  | succ n ih =>
    refine .bind CpuCalls.trans (.get CpuCalls.refl) fun s => ?_
    refine .bind CpuCalls.trans ?_ fun _ => ih (i + 1)
    exact callsOnCpu_trimList (fun l s => s.setFreeBlocks i l) hanswer (fun _ _ => ⟨rfl, rfl⟩) _ _

theorem callsOnCpu_deviceGuard (selected : Bool) : CallsOnCpu size a (deviceGuard selected) := by
  unfold deviceGuard
  split
  · exact .pure CpuCalls.refl _
  · exact .throw CpuCalls.refl _

theorem callsOnCpu_trim {trimAns : TrimAnswer} (hanswer : ∀ p, trimAns.free p = kSuccess) :
    CallsOnCpu size a (trim trimAns) := by
  refine .bind CpuCalls.trans (callsOnCpu_deviceGuard _) fun _ => ?_
  refine .bind CpuCalls.trans (.get CpuCalls.refl) fun s => ?_
  refine .bind CpuCalls.trans (callsOnCpu_trimClasses hanswer _ _) fun _ => ?_
  refine .bind CpuCalls.trans (.get CpuCalls.refl) fun s => ?_
  exact callsOnCpu_trimList (fun l s => s.setLarge l) hanswer (fun _ _ => ⟨rfl, rfl⟩) _ _

end Calls

end InfiniRT.Pool
