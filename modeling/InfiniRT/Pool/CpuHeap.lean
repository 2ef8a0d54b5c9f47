import InfiniRT.Library.Ledger
import InfiniRT.Pool.Conservation
import InfiniRT.Pool.Isolation

/-!
# The CPU runtime over the C heap

`Runtime<Device::Type::kCpu>` hands memory of the C library on.  `std::malloc` may answer a null
address, and for no bytes this is no failure; `std::free` has no meaning for an address that was not
handed out, or was already freed.  The asynchronous functions are not supported.

A heap backs the calls of a pool and a client if it consists of what the pool was given and of what
the client has allocated itself.  Proved:

* **`CHeap.Backs.serveAll`** — a heap that backs the calls so far serves the next ones and backs
  them too.
-/

namespace InfiniRT.Pool

open InfiniRT.Library

/-! ### The C heap -/

/-- The heap of the C library: what is allocated. -/
abbrev CHeap := List Region

namespace CHeap

/-- `std::malloc`, where the library answers `granted`. -/
def malloc (h : CHeap) (size : ℕ) (granted : Ptr) : CHeap :=
  if granted = nullptr then h else (granted, size) :: h

/-- The contract of `std::malloc`: what it hands out is apart from all that is allocated. -/
def Grants (h : CHeap) (size : ℕ) (granted : Ptr) : Prop :=
  granted ≠ nullptr → ∀ r ∈ h, Region.Apart (granted, size) r

instance (h : CHeap) (size : ℕ) (granted : Ptr) : Decidable (h.Grants size granted) :=
  inferInstanceAs (Decidable (_ → _))

/-- `std::free`. -/
def free (h : CHeap) (p : Ptr) : Except Fault CHeap :=
  if p = nullptr then .ok h
  else if ∃ r ∈ h, r.1 = p then .ok (h.eraseP fun r => r.1 = p)
  else .error .undefined

end CHeap

/-! ### The runtime -/

namespace CpuRuntime

/-- `kErrorInvalidValue`. -/
def kErrorInvalidValue : Error := 1

/-- `kErrorMemoryAllocation`. -/
def kErrorMemoryAllocation : Error := 2

/-- `StreamCreate`: the status and `*stream`. -/
def streamCreate : Error × Option Stream := (kSuccess, none)

/-- `SetDevice`. -/
def setDevice (device : ℤ) : Error := if device ≠ 0 then kErrorInvalidValue else kSuccess

/-- `Malloc`: the status and the heap; what `std::malloc` answers is in `*ptr`. -/
def malloc (h : CHeap) (size : ℕ) (granted : Ptr) : Error × CHeap :=
  (if size ≠ 0 ∧ granted = nullptr then kErrorMemoryAllocation else kSuccess, h.malloc size granted)

/-- `MallocAsync`. -/
def mallocAsync (h : CHeap) : Error × CHeap := (kErrorInvalidValue, h)

/-- `Free`. -/
def free (h : CHeap) (p : Ptr) : Except Fault (Error × CHeap) := do
  return (kSuccess, ← h.free p)

/-- `FreeAsync`. -/
def freeAsync (h : CHeap) : Error × CHeap := (kErrorInvalidValue, h)

/-- What the runtime does for a call of a pool: the status and the heap. -/
def serve (h : CHeap) : BackendCall → Except Fault (Error × CHeap)
  | .malloc none size _ out => .ok (malloc h size out)
  | .malloc (some _) _ _ _ => .ok (mallocAsync h)
  | .free none p _ => free h p
  | .free (some _) _ _ => .ok (freeAsync h)

/-- The heap after calls, the newest first. -/
def serveAll (h : CHeap) : List BackendCall → Except Fault CHeap
  | [] => .ok h
  | c :: calls => do
    let h ← serveAll h calls
    let r ← serve h c
    return r.2

end CpuRuntime

/-- The status that was recorded. -/
def BackendCall.status : BackendCall → Error
  | .malloc _ _ status _ => status
  | .free _ _ status => status

/-- The status that was recorded is the one the runtime returns. -/
def BackendCall.Answered (c : BackendCall) : Prop :=
  ∀ h r, CpuRuntime.serve h c = .ok r → c.status = r.1

theorem malloc_status {size : ℕ} (hsize : size ≠ 0) (h : CHeap) (granted : Ptr) :
    (CpuRuntime.malloc h size granted).1 =
      if granted = nullptr then CpuRuntime.kErrorMemoryAllocation else kSuccess := by
  unfold CpuRuntime.malloc
  by_cases hnull : granted = nullptr
  · rw [if_pos hnull, if_pos ⟨hsize, hnull⟩]
  · rw [if_neg hnull, if_neg fun hboth => hnull hboth.2]

/-- A positive number of bytes is there exactly if the status says so. -/
theorem malloc_status_eq_kSuccess {size : ℕ} (hsize : size ≠ 0) (h : CHeap) (granted : Ptr) :
    (CpuRuntime.malloc h size granted).1 = kSuccess ↔ granted ≠ nullptr := by
  rw [malloc_status hsize]
  by_cases hnull : granted = nullptr
  · rw [if_pos hnull]
    exact ⟨fun heq => absurd heq (by decide), fun hne => absurd hnull hne⟩
  · rw [if_neg hnull]
    exact ⟨fun _ => hnull, fun _ => rfl⟩

/-! ### Backed calls -/

/-- The heap is what the calls were given, and what the client owns. -/
structure CHeap.Backs (heap : CHeap) (calls : List BackendCall) (own : List Region) : Prop where
  perm : heap.Perm (liveRegions calls ++ own)
  apart : heap.Pairwise Region.Apart
  nonnull : ∀ r ∈ heap, r.1 ≠ nullptr
  separated : Separated calls

namespace CHeap.Backs

variable {heap : CHeap} {calls : List BackendCall} {own : List Region} {size : ℕ} {p out : Ptr}

theorem nil : CHeap.Backs [] [] [] := ⟨.nil, .nil, by simp, trivial⟩

theorem mem_of_live {r : Region} (h : heap.Backs calls own) (hr : r ∈ liveRegions calls) :
    r ∈ heap :=
  h.perm.mem_iff.mpr (List.mem_append_left _ hr)

theorem mem_of_own {r : Region} (h : heap.Backs calls own) (hr : r ∈ own) : r ∈ heap :=
  h.perm.mem_iff.mpr (List.mem_append_right _ hr)

/-- What starts at an address that was handed out. -/
theorem exists_region (h : heap.Backs calls own) (hp : p ∈ live calls) :
    ∃ r ∈ liveRegions calls, r ∈ heap ∧ r.1 = p := by
  rw [← map_liveRegions] at hp
  obtain ⟨r, hr, rfl⟩ := List.mem_map.mp hp
  exact ⟨r, hr, h.mem_of_live hr, rfl⟩

/-- A range starts where no other one does. -/
theorem start_injective (h : heap.Backs calls own) :
    heap.Pairwise fun r q => decide (r.1 = p) = true → ¬ decide (q.1 = p) = true := by
  apply h.apart.imp
  intro r q hapart hr hq
  rw [decide_eq_true_eq] at hr hq
  exact hapart.1 (hr.trans hq.symm)

/-- A successful `Malloc` of the pool. -/
theorem malloc (h : heap.Backs calls own) (hout : out ≠ nullptr)
    (hapart : ∀ r ∈ heap, Region.Apart (out, size) r) (stream : Option Stream) :
    CHeap.Backs (heap.malloc size out) (.malloc stream size kSuccess out :: calls) own := by
  rw [CHeap.malloc, if_neg hout]
  refine ⟨?_, .cons hapart h.apart, fun r hr => ?_, h.separated, fun _ r hr => ?_⟩
  · rw [liveRegions, if_pos rfl]
    exact h.perm.cons _
  · rcases List.mem_cons.mp hr with rfl | hr
    · exact hout
    · exact h.nonnull r hr
  · exact hapart r (h.mem_of_live hr)

/-- A `Malloc` that failed. -/
theorem refused (h : heap.Backs calls own) {status : Error} (hstatus : status ≠ kSuccess)
    (stream : Option Stream) : heap.Backs (.malloc stream size status out :: calls) own := by
  refine ⟨?_, h.apart, h.nonnull, h.separated, fun hok => absurd hok hstatus⟩
  rw [liveRegions, if_neg hstatus]
  exact h.perm

/-- A `Free` of the pool. -/
theorem free (h : heap.Backs calls own) (hp : p ∈ live calls) (stream : Option Stream) :
    ∃ heap', heap.free p = .ok heap' ∧ CHeap.Backs heap' (.free stream p kSuccess :: calls) own ∧
      ∀ r ∈ heap', r ∈ heap := by
  obtain ⟨r, hlive, hr, hstart⟩ := h.exists_region hp
  have hnull : p ≠ nullptr := hstart ▸ h.nonnull r hr
  have hfound : decide (r.1 = p) = true := decide_eq_true hstart
  refine ⟨heap.eraseP fun r => r.1 = p, ?_, ⟨?_, ?_, ?_, h.separated⟩, fun q hq => ?_⟩
  · rw [CHeap.free, if_neg hnull, if_pos ⟨r, hr, hstart⟩]
  · have hpool : (liveRegions calls ++ own).eraseP (fun q => q.1 = p) =
        (liveRegions calls).eraseP (fun q => q.1 = p) ++ own :=
      @List.eraseP_append_left _ (fun q : Region => decide (q.1 = p)) r hfound _ own hlive
    rw [liveRegions, if_pos rfl, ← hpool]
    exact h.perm.eraseP _ h.start_injective
  · exact h.apart.sublist List.eraseP_sublist
  · intro q hq
    exact h.nonnull q (List.mem_of_mem_eraseP hq)
  · exact List.mem_of_mem_eraseP hq

/-- The client allocates. -/
theorem mallocOwn (h : heap.Backs calls own) (hgrants : heap.Grants size out) :
    CHeap.Backs (heap.malloc size out) calls (CHeap.malloc own size out) := by
  unfold CHeap.malloc
  by_cases hout : out = nullptr
  · rw [if_pos hout, if_pos hout]
    exact h
  · rw [if_neg hout, if_neg hout]
    refine ⟨?_, .cons (hgrants hout) h.apart, fun r hr => ?_, h.separated⟩
    · exact (h.perm.cons _).trans List.perm_middle.symm
    · rcases List.mem_cons.mp hr with rfl | hr
      · exact hout
      · exact h.nonnull r hr

/-- The client frees what it has allocated. -/
theorem freeOwn (h : heap.Backs calls own) (hp : ∃ r ∈ own, r.1 = p) :
    ∃ heap', heap.free p = .ok heap' ∧ CHeap.Backs heap' calls (own.eraseP fun r => r.1 = p) := by
  obtain ⟨r, hown, hstart⟩ := hp
  have hr := h.mem_of_own hown
  have hnull : p ≠ nullptr := hstart ▸ h.nonnull r hr
  refine ⟨heap.eraseP fun r => r.1 = p, ?_, ?_, ?_, fun q hq => ?_, h.separated⟩
  · rw [CHeap.free, if_neg hnull, if_pos ⟨r, hr, hstart⟩]
  · -- the pool has no range with this start
    have hpool : ∀ q ∈ liveRegions calls, ¬ decide (q.1 = p) = true := by
      intro q hq heq
      have happend : (liveRegions calls ++ own).Pairwise Region.Apart :=
        h.apart.perm h.perm fun hapart => hapart.symm
      have hapart := (List.pairwise_append.mp happend).2.2 q hq r hown
      exact hapart.1 ((of_decide_eq_true heq).trans hstart.symm)
    rw [← List.eraseP_append_right _ hpool]
    exact h.perm.eraseP _ h.start_injective
  · exact h.apart.sublist List.eraseP_sublist
  · exact h.nonnull q (List.mem_of_mem_eraseP hq)

end CHeap.Backs

/-! ### A series of calls -/

/-- The calls that one event of a pool on the CPU may make: requests for `size` bytes that are
answered as `ans` says, and successful frees. -/
def BackendCall.OnCpu (size : ℕ) (ans : BackendAnswer) : BackendCall → Prop
  | .malloc stream n status out => stream = none ∧ n = size ∧ status = ans.status ∧ out = ans.out
  | .free stream _ status => stream = none ∧ status = kSuccess

section Series

variable {heap : CHeap} {calls new : List BackendCall} {own : List Region} {size : ℕ}
  {ans : BackendAnswer}

theorem BackendCall.OnCpu.answered {c : BackendCall} (hsize : size ≠ 0)
    (hstatus : ∀ h, ans.status = (CpuRuntime.malloc h size ans.out).1) (hc : c.OnCpu size ans) :
    c.Answered := by
  intro h r hserve
  cases c with
  | malloc stream n status out =>
    obtain ⟨rfl, rfl, rfl, rfl⟩ := hc
    cases hserve
    exact hstatus h
  | free stream p status =>
    obtain ⟨rfl, rfl⟩ := hc
    change (do return (kSuccess, ← h.free p)) = Except.ok r at hserve
    cases hfree : h.free p with
    | error e =>
      rw [hfree] at hserve
      cases hserve
    | ok h' =>
      rw [hfree] at hserve
      cases hserve
      rfl

/-- **Calls on the heap.**  The heap serves the calls of an event, and goes on to back all of
them. -/
theorem CHeap.Backs.serveAll (h : heap.Backs calls own) (hsize : size ≠ 0)
    (hstatus : ∀ h, ans.status = (CpuRuntime.malloc h size ans.out).1)
    (hgrants : heap.Grants size ans.out) (hproper : ProperCalls (new ++ calls))
    (hnew : ∀ c ∈ new, c.OnCpu size ans) :
    ∃ heap', CpuRuntime.serveAll heap new = .ok heap' ∧ heap'.Backs (new ++ calls) own ∧
      ∀ r ∈ heap', r ∈ heap ∨ r = (ans.out, size) := by
  induction new with
  | nil => exact ⟨heap, rfl, h, fun r hr => .inl hr⟩
  | cons c new ih =>
    have hrest : ProperCalls (new ++ calls) := @ProperCalls.of_append [c] _ hproper
    obtain ⟨mid, hmid, hbacks, hmem⟩ := ih hrest fun d hd => hnew d (List.mem_cons_of_mem _ hd)
    have hc := hnew c List.mem_cons_self
    rw [CpuRuntime.serveAll, hmid]
    cases c with
    | malloc stream n status out =>
      obtain ⟨rfl, rfl, rfl, rfl⟩ := hc
      have hok := hstatus mid
      refine ⟨mid.malloc n ans.out, rfl, ?_, ?_⟩
      · by_cases hout : ans.out = nullptr
        · have hfailed : ans.status ≠ kSuccess := by
            rw [hok]
            exact fun heq => (malloc_status_eq_kSuccess hsize _ _).mp heq hout
          rw [CHeap.malloc, if_pos hout]
          exact hbacks.refused hfailed none
        · have hsucceeded : ans.status = kSuccess := by
            rw [hok]
            exact (malloc_status_eq_kSuccess hsize _ _).mpr hout
          have hfresh := hproper.1 hsucceeded
          rw [hsucceeded]
          refine hbacks.malloc hout (fun r hr => ?_) none
          rcases hmem r hr with hr' | rfl
          · exact hgrants hout r hr'
          · -- it would have been handed out before, to the pool or to the client
            rcases List.mem_append.mp (hbacks.perm.mem_iff.mp hr) with hlive | hown
            · refine absurd ?_ hfresh
              rw [← map_liveRegions]
              exact List.mem_map_of_mem hlive
            · exact absurd rfl (hgrants hout _ (h.mem_of_own hown)).1
      · intro r hr
        rw [CHeap.malloc] at hr
        split at hr
        · exact hmem r hr
        · rcases List.mem_cons.mp hr with rfl | hr
          · exact .inr rfl
          · exact hmem r hr
    | free stream p status =>
      obtain ⟨rfl, rfl⟩ := hc
      obtain ⟨heap', hfree, hbacks', hsub⟩ := hbacks.free hproper.1 none
      refine ⟨heap', ?_, hbacks', fun r hr => hmem r (hsub r hr)⟩
      show (do let r ← CpuRuntime.serve mid (.free none p kSuccess); return r.2) = _
      rw [CpuRuntime.serve, CpuRuntime.free, hfree]
      rfl

end Series

end InfiniRT.Pool
