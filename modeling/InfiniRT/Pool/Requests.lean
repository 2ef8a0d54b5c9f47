import InfiniRT.Pool.Lives

/-!
# What a request gets

A request that throws leaves the pool as it was.  A request that succeeds returns a block of the
right kind that is large enough: its kind and its size are those it was born with, and the backend
was asked for that size.  `align_up` is computed in `std::size_t`, where one intermediate sum may
wrap; its result does not.  Proved:

* **`failed_request_unchanged`** — a request that throws leaves the pool and its owners as before;
* **`sameLife_of_run`** — kind, class and size of a block never change;
* **`requests_supplied`** — a request that returns an address returns a block that fits it.
-/

namespace InfiniRT.Pool

open InfiniRT.Library

variable {w w' : World} {e : Event} {o : Outcome} {x : Event × Outcome} {s s' : State}
  {b : BlockId} {p q : Ptr} {t : ThreadId} {size : ℕ} {isExact : Bool} {ans : AllocAnswer}
  {blk : Block} {trace since : List (Event × Outcome)} {calls new : List BackendCall}

/-! ### Failure -/

/-- **A failed request changes nothing.** Whatever made `allocate` or `allocate_exact` throw, the
pool and its owners are as before but for the record of backend calls and for block objects nobody
shares; no shared block was written, and the backend has the memory it had. -/
theorem failed_request_unchanged {y : Exn} (h : PoolRun trace w)
    (hreq : e.Requests t size isExact ans) (hcleanup : ans.cleanup = kSuccess)
    (hstep : Step w (e, .error y) w') :
    w' = { w with state := { w.state with
      blocks := w'.state.blocks, calls := w'.state.calls } } ∧
    (∀ b ∈ w.shared, w'.state.blocks b = w.state.blocks b) ∧
    live w'.state.calls = live w.state.calls := by
  have hinv := invariant_of_run h
  have hans : w.Answers ans := by
    have := hstep.1
    cases hreq <;> exact this.2
  cases hinv.effect_of_step hstep with
  | @failed e t' size' isExact' ans' s' hreq' x hs =>
    obtain rfl : ans' = ans := by cases hreq <;> cases hreq' <;> rfl
    refine ⟨?_, fun b hb => hs.blocks b fun hnew => hans.1 b hnew hb, ?_⟩
    · have hrest := hs.rest
      simp only
      rw [← hrest]
    · rcases hs.calls.live hans.2.2 with hlive | ⟨hrefused, -⟩
      · exact hlive
      · exact absurd hcleanup hrefused
  | rejected => exact ⟨rfl, fun _ _ => rfl, rfl⟩
  | _ => cases hreq

/-- A pool in a transaction that has frozen one block. -/
def refusedPool : World :=
  ((World.initial none false).runEvents [.beginPinMode 7, .allocate 7 100 (.granting 1 4096)]).1

/-- The growth path gets its memory, but the frozen set has none for its node. -/
def refusedAnswer : AllocAnswer := { AllocAnswer.granting 2 8192 with freeze := ⟨true, false⟩ }

theorem failed_request_unchanged_of_refused :
    (refusedPool.perform (.allocate 7 100 refusedAnswer)).1.state.captureFrozenBlocks = [1] ∧
    ∀ b ∈ refusedPool.shared,
      (refusedPool.perform (.allocate 7 100 refusedAnswer)).1.state.blocks b =
        refusedPool.state.blocks b :=
  have h := failed_request_unchanged (poolRun_runEvents (by decide) : PoolRun _ refusedPool)
    (.allocate 7 100 refusedAnswer) rfl
    (⟨by decide, rfl⟩ : Step refusedPool (.allocate 7 100 refusedAnswer, .error .badAlloc) _)
  ⟨congrArg (fun w : World => w.state.captureFrozenBlocks) h.1, h.2.1⟩

/-! ### Rounding -/

/-- `align_up` in the arithmetic of a 64-bit `std::size_t`; `none` where it throws. -/
def alignUpWord (size alignment : BitVec 64) : Option (BitVec 64) :=
  if size > BitVec.allOnes 64 - (alignment - 1) then none
  else some ((size + alignment - 1) / alignment * alignment)

theorem le_roundUp (size : ℕ) : size ≤ roundUp size := by
  unfold roundUp
  omega

/-- The rounded size is representable exactly if the check of `align_up` passes. -/
theorem roundUp_lt_iff (size : ℕ) : roundUp size < 2 ^ 64 ↔ Addressable size := by
  unfold roundUp Addressable
  omega

/-- `align_up` of a machine word: the sum may wrap, the result is the rounded size. -/
theorem alignUpWord_eq (size : BitVec 64) :
    alignUpWord size 256 =
      if roundUp size.toNat < 2 ^ 64 then some (BitVec.ofNat 64 (roundUp size.toNat))
      else none := by
  have hsize := size.isLt
  have hcheck : size > BitVec.allOnes 64 - (256 - 1) ↔ ¬ roundUp size.toNat < 2 ^ 64 := by
    rw [roundUp_lt_iff, Addressable, gt_iff_lt, BitVec.lt_def]
    simp only [show (BitVec.allOnes 64 - (256 - 1)).toNat = 2 ^ 64 - 1 - 255 from rfl, Nat.not_le]
  unfold alignUpWord
  by_cases hfits : roundUp size.toNat < 2 ^ 64
  · rw [if_neg (fun hbig => hcheck.mp hbig hfits), if_pos hfits]
    have hbound := (roundUp_lt_iff _).mp hfits
    unfold Addressable at hbound
    -- The sum is taken first, so it wraps to zero at the largest size that passes the check.
    have hsum : (size + 256 - 1).toNat = size.toNat + 255 := by
      rw [BitVec.toNat_sub, BitVec.toNat_add, show (256 : BitVec 64).toNat = 256 from rfl,
        show (1 : BitVec 64).toNat = 1 from rfl]
      omega
    refine congrArg some (BitVec.eq_of_toNat_eq ?_)
    rw [BitVec.toNat_mul, BitVec.toNat_udiv, hsum, BitVec.toNat_ofNat]
    rfl
  · rw [if_pos (hcheck.mpr hfits), if_neg hfits]

/-! ### Classes -/

/-- The first entry of an ascending list that fits is the smallest one. -/
theorem findIdx?_fits {l : List ℕ} (hl : l.Pairwise (· < ·)) {n i : ℕ}
    (h : l.findIdx? (fun m => decide (n ≤ m)) = some i) :
    ∃ m, l[i]? = some m ∧ n ≤ m ∧ ∀ m' ∈ l, n ≤ m' → m ≤ m' := by
  obtain ⟨hi, hfits, hfirst⟩ := List.findIdx?_eq_some_iff_getElem.mp h
  refine ⟨l[i], List.getElem?_eq_getElem hi, of_decide_eq_true hfits, fun m' hm' hn => ?_⟩
  obtain ⟨j, hj, rfl⟩ := List.getElem_of_mem hm'
  by_cases hji : j < i
  · exact absurd (decide_eq_true hn) (hfirst j hji)
  · rcases Nat.lt_or_eq_of_le (Nat.le_of_not_lt hji) with hij | rfl
    · exact Nat.le_of_lt (List.pairwise_iff_getElem.mp hl i j hi hj hij)
    · exact Nat.le_refl _

theorem classSizes_ascending : classSizes.Pairwise (· < ·) := by decide

/-- The largest block size of a class: 256 MiB. -/
def largestClass : ℕ := 256 * 1024 * 1024

theorem findClass_eq (h : Placement s) (n : ℕ) :
    s.findClass n = classSizes.findIdx? fun m => decide (n ≤ m) := by
  rw [← h.classes, List.findIdx?_map]
  rfl

theorem blockSize_eq (h : Placement s) (i : ℕ) : s.blockSize i = classSizes[i]?.getD 0 := by
  rw [← h.classes, List.getElem?_map, State.blockSize]
  cases s.sizeClasses[i]? <;> rfl

/-- A class serves the requests up to its largest block. -/
theorem findClass_none_iff (h : Placement s) (n : ℕ) : s.findClass n = none ↔ largestClass < n := by
  rw [findClass_eq h, List.findIdx?_eq_none_iff]
  constructor
  · intro hnone
    have := hnone largestClass (by decide)
    simpa using this
  · intro hlt m hm
    have hle : ∀ m ∈ classSizes, m ≤ largestClass := by decide
    have := hle m hm
    simp only [decide_eq_false_iff_not]
    omega

/-! ### The block returned -/

/-- The block is of the kind the request asks for, and large enough. -/
structure RightBlock (size : ℕ) (isExact : Bool) (blk : Block) : Prop where
  enough : size ≤ blk.size
  /-- Up to 256 MiB `allocate` returns a block of the smallest class that fits. -/
  sizeClass : isExact = false → roundUp size ≤ largestClass →
    blk.kind = .SizeClass ∧ classSizes[blk.classIndex]? = some blk.size ∧
      roundUp size ≤ blk.size ∧ ∀ n ∈ classSizes, roundUp size ≤ n → blk.size ≤ n
  large : isExact = false → largestClass < roundUp size →
    blk.kind = .Large ∧ roundUp size ≤ blk.size
  exactly : isExact = true → blk.kind = .Exact ∧ blk.size = roundUp size

theorem RightBlock.sameLife {blk' : Block} (h : RightBlock size isExact blk)
    (hsame : SameLife blk blk') : RightBlock size isExact blk' := by
  obtain ⟨henough, hclass, hlarge, hexact⟩ := h
  refine ⟨?_, ?_, ?_, ?_⟩ <;> rw [hsame.size]
  · exact henough
  · rw [hsame.kind, hsame.classIndex]
    exact hclass
  · rw [hsame.kind]
    exact hlarge
  · rw [hsame.kind]
    exact hexact

/-- A block of the class a request is served from. -/
theorem rightBlock_of_class {i : ℕ} (h : Placement s)
    (hclass : s.requestClass size isExact = some i)
    (hkind : blk.kind = .SizeClass) (hindex : blk.classIndex = i)
    (hsize : classSizes[i]? = some blk.size) : RightBlock size isExact blk := by
  cases isExact with
  | true => cases hclass
  | false =>
    have hfind : s.findClass (roundUp size) = some i := hclass
    have hsome := hfind
    rw [findClass_eq h] at hfind
    obtain ⟨m, hm, hfits, hleast⟩ := findIdx?_fits classSizes_ascending hfind
    obtain rfl : m = blk.size := Option.some.inj (hm.symm.trans hsize)
    refine ⟨(le_roundUp size).trans hfits, fun _ _ => ⟨hkind, hindex ▸ hsize, hfits, hleast⟩,
      fun _ hbig => ?_, fun hfalse => nomatch hfalse⟩
    rw [(findClass_none_iff h _).mpr hbig] at hsome
    cases hsome

/-- A block of the large list that fits. -/
theorem rightBlock_of_large (h : Placement s) (hclass : s.requestClass size isExact = none)
    (hkind : blk.kind = requestKind isExact)
    (hsize : if isExact then blk.size = roundUp size else roundUp size ≤ blk.size) :
    RightBlock size isExact blk := by
  cases isExact with
  | true =>
    exact ⟨(le_roundUp size).trans hsize.ge, fun hfalse => (nomatch hfalse),
      fun hfalse => (nomatch hfalse), fun _ => ⟨hkind, hsize⟩⟩
  | false =>
    have hbig := (findClass_none_iff h _).mp hclass
    exact ⟨(le_roundUp size).trans hsize, fun _ hsmall => absurd hbig (Nat.not_lt.mpr hsmall),
      fun _ _ => ⟨hkind, hsize⟩, fun hfalse => (nomatch hfalse)⟩

theorem Chosen.rightBlock (h : Placement s) (hb : s.Tracked b)
    (hchosen : Chosen size isExact s b) : RightBlock size isExact (s.blocks b) := by
  rcases hchosen.kind with ⟨hkind, hclass⟩ | ⟨hclass, hfits⟩
  · exact rightBlock_of_class h hclass hkind rfl (h.classSize b hb hkind)
  · simp only [fitsLarge, Bool.and_eq_true, decide_eq_true_eq] at hfits
    refine rightBlock_of_large h hclass hfits.1.2 ?_
    have hsize := hfits.2
    cases isExact <;> simpa using hsize

theorem Newborn.rightBlock (h : Placement s) (hborn : Newborn size isExact s b s') :
    RightBlock size isExact (s'.blocks b) := by
  rcases hborn.kind with ⟨hkind, hclass, hsize⟩ | ⟨hclass, hkind, hsize⟩
  · refine rightBlock_of_class h hclass hkind rfl ?_
    cases isExact with
    | true => cases hclass
    | false =>
      have hfind : s.findClass (roundUp size) = some (s'.blocks b).classIndex := hclass
      rw [findClass_eq h] at hfind
      obtain ⟨m, hm, -⟩ := findIdx?_fits classSizes_ascending hfind
      rw [hsize, blockSize_eq h, hm]
      rfl
  · refine rightBlock_of_large h hclass hkind ?_
    cases isExact
    · exact hsize.ge
    · exact hsize

/-! ### What the backend was asked for -/

/-- The size of the last successful `Malloc` or `MallocAsync` that handed out `p`. -/
def askedSize (p : Ptr) : List BackendCall → Option ℕ
  | [] => none
  | .malloc _ n status out :: calls =>
    if status = kSuccess ∧ out = p then some n else askedSize p calls
  | .free .. :: calls => askedSize p calls

theorem askedSize_malloc_of_ne (hq : q ≠ p) (stream : Option Stream) (n : ℕ) (status : Error)
    (calls : List BackendCall) :
    askedSize p (.malloc stream n status q :: calls) = askedSize p calls :=
  if_neg fun hask => hq hask.2

theorem TrimSteps.askedSize (hs : TrimSteps s s') (p : Ptr) :
    askedSize p s'.calls = askedSize p s.calls := by
  induction hs with
  | refl => rfl
  | tail _ hlast ih =>
    rw [← ih]
    cases hlast <;> rfl

theorem FailedCalls.askedSize (hs : FailedCalls ans s s') (hp : ans.backend.out ≠ p) :
    askedSize p s'.calls = askedSize p s.calls := by
  rcases hs with hcalls | ⟨n, ⟨-, -, hcalls⟩ | ⟨-, hcalls⟩⟩
  · rw [hcalls]
  · rw [hcalls, askedSize_malloc_of_ne hp]
  · rw [hcalls]
    exact askedSize_malloc_of_ne hp s.allocationStream n ans.backend.status s.calls

/-- Each tracked block records the size the backend was asked for. -/
structure Sized (w : World) : Prop where
  invariant : Invariant w
  asked : w.closed = false → ∀ p b, w.state.allBlocks.lookup p = some b →
    askedSize p w.state.calls = some (w.state.blocks b).size

/-- The backend is not asked for a tracked address again. -/
theorem Effect.askedSize (h : Invariant w) (henabled : w.Enabled e) (he : Effect w e o w')
    (hopen : w'.closed = false) (hb : w.state.allBlocks.lookup p = some b) :
    askedSize p w'.state.calls = askedSize p w.state.calls := by
  have hsound := h.sound (h.closed_of_enabled henabled)
  have hlive : p ∈ live w.state.calls :=
    hsound.backing.live p (AList.lookup_isSome.mp (by rw [hb]; rfl))
  have hreleased : ∀ l, Pool.askedSize p (w.state.releaseFrozenBlocks l).calls =
      Pool.askedSize p w.state.calls := fun l => by rw [releaseFrozenBlocks_eq]
  cases he with
  | @failed e t size isExact ans s' hreq x hs =>
    have hans := (hreq.answers henabled).2
    exact hs.calls.askedSize fun hout => hans.2.2 (hout ▸ hlive)
  | @allocated e t size isExact ans q s' hreq hs =>
    have hans := (hreq.answers henabled).2
    obtain ⟨c, hserved⟩ := hs.served hsound hans.fresh
    rcases hserved.origin with ⟨-, -, hcalls⟩ | ⟨-, -, hout, stream, n, hcalls⟩
    · exact congrArg _ hcalls
    · have hqp : q ≠ p := fun hqp => hout (hqp ▸ hlive)
      show Pool.askedSize p s'.calls = _
      rw [hcalls, askedSize_malloc_of_ne hqp]
  | released =>
    show Pool.askedSize p (w.state.release _).calls = _
    unfold State.release State.giveBack
    split_ifs <;> rfl
  | retained =>
    show Pool.askedSize p (w.state.retain _).calls = _
    unfold State.retain
    split_ifs <;> rfl
  | dropped d => exact hreleased d.retained
  | handled d => exact hreleased d.blocks
  | canceled => exact hreleased w.state.captureFrozenBlocks
  | frozen => exact congrArg _ (freeze_calls _ _ _)
  | trimmed trimAns o hs => exact hs.askedSize p
  | leaseDropped l =>
    rw [World.closeIfUnowned_of_open hopen]
    exact hreleased l.blocks
  | poolDropped => rw [World.closeIfUnowned_of_open hopen]
  | _ => rfl

theorem Sized.step (h : Sized w) (hstep : Step w x w') : Sized w' := by
  obtain ⟨e, o⟩ := x
  have hinv := h.invariant
  have hinv' := hinv.step hstep
  have heffect := hinv.effect_of_step hstep
  refine ⟨hinv', fun hopen p b hb => ?_⟩
  cases heffect.life hinv hstep.1 (hinv'.ne_nullptr hb) hb with
  | on hold hsame hstamp =>
    rw [heffect.askedSize hinv hstep.1 hopen hold, hsame.size,
      h.asked (hinv.closed_of_enabled hstep.1) p b hold]
  | born hnew hgranted hstamp hborn =>
    obtain ⟨stream, hcalls⟩ := hborn.asked
    rw [hcalls, hinv'.placement.address p b hb]
    exact if_pos ⟨rfl, rfl⟩

theorem sized_of_run (h : PoolRun trace w) : Sized w := by
  obtain ⟨stream, isNvidia, hrun⟩ := h
  refine hrun.invariant Sized (fun _ _ _ hs hstep => hs.step hstep)
    ⟨.initial stream isNvidia, fun _ p b hb => ?_⟩
  rw [show (World.initial stream isNvidia).state.allBlocks = ∅ from rfl, AList.lookup_empty] at hb
  cases hb

/-! ### The life of a block -/

/-- A step after which the address still names the block. -/
def StepKeeping (p : Ptr) (b : BlockId) (w : World) (x : Event × Outcome) (w' : World) : Prop :=
  Step w x w' ∧ w'.state.allBlocks.lookup p = some b

/-- A step that leaves a block tracked leaves its kind, class and size. -/
theorem sameLife_of_step (h : Invariant w) (hb : w.state.allBlocks.lookup p = some b)
    (hstep : StepKeeping p b w x w') : SameLife (w.state.blocks b) (w'.state.blocks b) := by
  obtain ⟨hstep, hb'⟩ := hstep
  cases (h.effect_of_step hstep).life h hstep.1 (h.ne_nullptr hb) hb' with
  | on _ hsame => exact hsame
  | born hnew =>
    rw [hb] at hnew
    cases hnew

/-- **A block keeps its kind, class and size for life.** -/
theorem sameLife_of_run (h : Invariant w) (hb : w.state.allBlocks.lookup p = some b)
    (hrun : Run (StepKeeping p b) w since w') :
    SameLife (w.state.blocks b) (w'.state.blocks b) := by
  refine (hrun.invariant (fun u => Invariant u ∧ u.state.allBlocks.lookup p = some b ∧
    SameLife (w.state.blocks b) (u.state.blocks b)) ?_ ⟨h, hb, .refl _⟩).2.2
  rintro u x u' ⟨hinv, hu, hsame⟩ hstep
  exact ⟨hinv.step hstep.1, hstep.2, hsame.trans (sameLife_of_step hinv hu hstep)⟩

/-- What a successful request returned: the start of a block of the right kind, with the size the
backend was asked for; if the block was cached it was of that kind and size before. -/
structure Returned (w : World) (size : ℕ) (isExact : Bool) (p : Ptr) (b : BlockId) (w' : World) :
    Prop where
  lookup : w'.state.allBlocks.lookup p = some b
  start : (w'.state.blocks b).ptr = p
  asked : askedSize p w'.state.calls = some (w'.state.blocks b).size
  right : RightBlock size isExact (w'.state.blocks b)
  cached : ∀ c, w.state.allBlocks.lookup p = some c →
    c = b ∧ SameLife (w.state.blocks c) (w'.state.blocks b)

theorem returned_of_step (h : Sized w) (hreq : e.Requests t size isExact ans)
    (hstep : Step w (e, .ok (.pointer p)) w') (hp : p ≠ nullptr) :
    ∃ b, Returned w size isExact p b w' := by
  have hinv := h.invariant
  have hsound := hinv.sound (hinv.closed_of_enabled hstep.1)
  have hopen : w'.closed = false := by
    obtain ⟨henabled, hperform⟩ := hstep
    have hsame : w'.closed = w.closed := by
      cases hreq <;> exact (congrArg (fun r : World × Outcome => r.1.closed) hperform).symm
    rw [hsame, hinv.closed_of_enabled henabled]
  have hsized := h.step hstep
  cases hinv.effect_of_step hstep with
  | null => exact absurd rfl hp
  | @allocated e t' size' isExact' ans' q s' hreq' hs =>
    have hans : w.Answers ans' := by
      have := hstep.1
      cases hreq' <;> exact this.2
    obtain ⟨rfl, rfl⟩ : size' = size ∧ isExact' = isExact := by
      cases hreq <;> cases hreq' <;> exact ⟨rfl, rfl⟩
    obtain ⟨b, hsupplied⟩ := hs.supplied hsound hans.fresh
    have hlookup := hsupplied.served.lookup
    refine ⟨b, hlookup, hsized.invariant.placement.address p b hlookup,
      hsized.asked hopen p b hlookup, ?_, fun c hc => ?_⟩
    · rcases hsupplied.origin with ⟨hold, hchosen, hsame, -⟩ | ⟨-, -, -, hborn⟩
      · exact (hchosen.rightBlock hinv.placement ⟨p, hold⟩).sameLife hsame
      · exact hborn.rightBlock hinv.placement
    · rcases hsupplied.origin with ⟨hold, -, hsame, -⟩ | ⟨hnew, -⟩
      · obtain rfl := Option.some.inj (hc.symm.trans hold)
        exact ⟨rfl, hsame⟩
      · rw [hc] at hnew
        cases hnew
  | _ => cases hreq

/-- **A returned block is large enough and of the right kind.** After any run: a request that
returns an address returns the start of a block that fits it, recorded with the size the backend was
asked for; a tracked block keeps its kind, class and size as long as it lives; and the rounding of
requests, in machine arithmetic, throws exactly where the rounded size is not representable. -/
theorem requests_supplied (h : PoolRun trace w) :
    (∀ e t size isExact ans p w', Event.Requests e t size isExact ans →
      Step w (e, .ok (.pointer p)) w' → p ≠ nullptr → ∃ b, Returned w size isExact p b w') ∧
    (∀ p b since w', w.state.allBlocks.lookup p = some b → Run (StepKeeping p b) w since w' →
      SameLife (w.state.blocks b) (w'.state.blocks b)) ∧
    ∀ size : BitVec 64,
      (∀ n, alignUpWord size 256 = some n → n.toNat = roundUp size.toNat) ∧
      (alignUpWord size 256 = none ↔ 2 ^ 64 ≤ roundUp size.toNat) ∧
      ∀ s, (alignUp size.toNat 256).run s =
        (match alignUpWord size 256 with
          | some n => .ok n.toNat
          | none => .error exceedsAddressable, s) := by
  have hsized := sized_of_run h
  refine ⟨fun e t size isExact ans p w' hreq hstep hp => returned_of_step hsized hreq hstep hp,
    fun p b since w' hb hrun => sameLife_of_run hsized.invariant hb hrun, fun size => ?_⟩
  have hword := alignUpWord_eq size
  by_cases hfits : roundUp size.toNat < 2 ^ 64
  · rw [if_pos hfits] at hword
    have hnat : (BitVec.ofNat 64 (roundUp size.toNat)).toNat = roundUp size.toNat := by
      rw [BitVec.toNat_ofNat, Nat.mod_eq_of_lt hfits]
    refine ⟨fun n hn => ?_, ?_, fun s => ?_⟩
    · rw [hword, Option.some.injEq] at hn
      rw [← hn, hnat]
    · rw [hword]
      exact iff_of_false (by simp) (Nat.not_le.mpr hfits)
    · rw [hword, alignUp_run, if_neg (Nat.not_lt.mpr ((roundUp_lt_iff _).mp hfits))]
      simp only [hnat]
  · rw [if_neg hfits] at hword
    refine ⟨fun n hn => ?_, ?_, fun s => ?_⟩
    · rw [hword] at hn
      cases hn
    · rw [hword]
      exact iff_of_true rfl (Nat.le_of_not_lt hfits)
    · have hbig := fun hsmall => hfits ((roundUp_lt_iff _).mpr hsmall)
      rw [hword, alignUp_run, if_pos (Nat.lt_of_not_le hbig)]

/-- Thread 1 has an exact block, and has given back a block of the smallest class. -/
def assortedPool : World :=
  ((World.initial (some 5) true).runEvents
    [.allocateExact 1 100 (.granting 1 4096), .allocate 1 100 (.granting 2 8192),
      .deallocate 1 8192 true]).1

theorem requests_supplied_of_assorted :
    (∃ b, Returned assortedPool 300 false 8192 b
      (assortedPool.perform (.allocate 2 300 (.granting 3 12288))).1) ∧
    alignUpWord (BitVec.ofNat 64 (2 ^ 64 - 256)) 256 ≠ none :=
  have h := requests_supplied (poolRun_runEvents (by decide) : PoolRun _ assortedPool)
  ⟨h.1 (.allocate 2 300 (.granting 3 12288)) 2 300 false (.granting 3 12288) 8192 _
      (.allocate 2 300 (.granting 3 12288)) ⟨by decide, rfl⟩ (by decide),
    fun hnone => absurd ((h.2.2 _).2.1.mp hnone) (by decide)⟩

end InfiniRT.Pool
