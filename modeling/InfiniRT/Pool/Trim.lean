import InfiniRT.Pool.Requests

/-!
# `trim` is exact

The two loops of `trim` meet the blocks that are neither in use nor pinned in a fixed order.  A
`trim` that returns has given back all of them and nothing else; one whose backend refuses a block
has given back those before it.  Each loop walks one list, and what it removes from that list is in
no other.  Proved:

* **`trimClasses_exact`** — the loop over the size classes;
* **`trim_exact_run`** — `trim` follows a fixed order and stops at the first block that the backend
  refuses;
* **`trim_exact`** — in every reachable state the order lists the blocks that are neither in use nor
  pinned.
-/

namespace InfiniRT.Pool

open InfiniRT.Library Action

variable {w w' : World} {o : Outcome} {s s' s'' : State} {b c : BlockId} {p : Ptr} {t : ThreadId}
  {l l' kept rest : List BlockId} {answer : Ptr → Error} {r : Except Exn Unit}
  {trace : List (Event × Outcome)}

/-- `s'` is `s` with the blocks of `l` given back in order and removed, and nothing else changed:
every other block keeps its fields, its address and its place in its list. -/
structure Trimmed (l : List BlockId) (s s' : State) : Prop where
  allBlocks : s'.allBlocks = l.foldl (fun m b => m.erase (s.blocks b).ptr) s.allBlocks
  lookup : ∀ p b, s'.allBlocks.lookup p = some b ↔ s.allBlocks.lookup p = some b ∧ b ∉ l
  free : ∀ i, s'.freeBlocks i = (s.freeBlocks i).filter (· ∉ l)
  large : s'.largeBlocks = s.largeBlocks.filter (· ∉ l)
  blockSizes : s'.sizeClasses.map (·.blockSize) = s.sizeClasses.map (·.blockSize)
  calls : s'.calls =
    (l.map fun b => .free s.allocationStream (s.blocks b).ptr kSuccess).reverse ++ s.calls
  rest : s' = { s with
    sizeClasses := s'.sizeClasses
    largeBlocks := s'.largeBlocks
    allBlocks := s'.allBlocks
    calls := s'.calls }

namespace Trimmed

theorem refl (s : State) : Trimmed [] s s := ⟨rfl, by simp, by simp, by simp, rfl, rfl, rfl⟩

theorem blocks (h : Trimmed l s s') : s'.blocks = s.blocks := by rw [h.rest]

theorem allocationStream (h : Trimmed l s s') : s'.allocationStream = s.allocationStream := by
  rw [h.rest]

/-- Nothing is given back, nothing changes. -/
theorem eq_of_nil (h : Trimmed [] s s') : s' = s := by
  have hsizeClasses : s'.sizeClasses = s.sizeClasses := by
    have hlength : s'.sizeClasses.length = s.sizeClasses.length := by
      simpa using congrArg List.length h.blockSizes
    refine List.ext_getElem hlength fun i hi hi' => ?_
    have hfree := h.free i
    have hsize := congrArg (·[i]?) h.blockSizes
    simp only [State.freeBlocks, List.getElem?_eq_getElem hi, List.getElem?_eq_getElem hi',
      Option.elim_some, List.not_mem_nil, not_false_eq_true, decide_true, List.filter_true,
      List.getElem?_map, Option.map_some, Option.some.injEq] at hfree hsize
    cases hs' : s'.sizeClasses[i]
    cases hs : s.sizeClasses[i]
    rw [hs', hs] at hfree hsize
    simp only at hfree hsize
    rw [hfree, hsize]
  have hlarge : s'.largeBlocks = s.largeBlocks := by simpa using h.large
  rw [h.rest, hsizeClasses, hlarge, h.allBlocks, h.calls]
  rfl

theorem filter_notMem_append (x l l' : List BlockId) :
    (x.filter (· ∉ l)).filter (· ∉ l') = x.filter (· ∉ l ++ l') := by
  rw [List.filter_filter]
  refine List.filter_congr fun b _ => ?_
  simp [Bool.and_comm]

theorem trans (h : Trimmed l s s') (h' : Trimmed l' s' s'') : Trimmed (l ++ l') s s'' where
  allBlocks := by rw [h'.allBlocks, h.allBlocks, h.blocks, List.foldl_append]
  lookup p b := by
    rw [h'.lookup, h.lookup, List.mem_append, not_or, and_assoc]
  free i := by rw [h'.free, h.free, filter_notMem_append]
  large := by rw [h'.large, h.large, filter_notMem_append]
  blockSizes := h'.blockSizes.trans h.blockSizes
  calls := by
    rw [h'.calls, h.calls, h.blocks, h.allocationStream, List.map_append, List.reverse_append,
      List.append_assoc]
  rest := by
    conv_lhs => rw [h'.rest, h.rest]

/-- A block that goes is taken out of `all_blocks_`. -/
theorem lookup_erase (h : Placement s) (hb : s.Tracked b)
    (hall : s'.allBlocks = s.allBlocks.erase (s.blocks b).ptr) (p : Ptr) (c : BlockId) :
    s'.allBlocks.lookup p = some c ↔ s.allBlocks.lookup p = some c ∧ c ∉ [b] := by
  rw [List.mem_singleton]
  refine ⟨h.lookup_of_erase hall, fun ⟨hp, hcb⟩ => ?_⟩
  rw [hall, AList.lookup_erase_ne, hp]
  rintro rfl
  exact hcb (Option.some.inj (hp.symm.trans (h.lookup_ptr hb)))

theorem filter_removed (hl : l = kept ++ b :: rest) (hnodup : l.Nodup) :
    kept ++ rest = l.filter (· ∉ [b]) := by
  subst hl
  have hmid := List.nodup_cons.mp (List.nodup_middle.mp hnodup)
  have hne : ∀ c ∈ kept ++ rest, c ≠ b := fun c hc hcb => hmid.1 (hcb ▸ hc)
  rw [List.filter_append, List.filter_cons_of_neg (by simp), ← List.filter_append]
  refine (List.filter_eq_self.mpr fun c hc => ?_).symm
  simpa using hne c hc

theorem filter_absent (h : b ∉ l) : l = l.filter (· ∉ [b]) := by
  refine (List.filter_eq_self.mpr fun c hc => ?_).symm
  have : c ≠ b := fun hcb => h (hcb ▸ hc)
  simpa using this

/-- A block of a free list goes. -/
theorem ofFree (h : Placement s) {i : ℕ} (hlist : s.freeBlocks i = kept ++ b :: rest) :
    Trimmed [b] s (((s.returned (s.blocks b).ptr kSuccess).untrack (s.blocks b).ptr).setFreeBlocks
      i (kept ++ rest)) := by
  have hb : s.Idle i b := h.mem_free.mp (by rw [hlist]; simp)
  have hi := State.lt_of_freeBlocks_eq hlist
  refine ⟨rfl, lookup_erase h hb.1 rfl, fun j => ?_, ?_, ?_, rfl, rfl⟩
  · rw [State.freeBlocks_setFreeBlocks]
    show (if i = j ∧ j < s.sizeClasses.length then kept ++ rest else s.freeBlocks j) = _
    by_cases hij : i = j
    · subst hij
      rw [if_pos ⟨rfl, hi⟩]
      exact filter_removed hlist (h.free_nodup i)
    · rw [if_neg fun hj => hij hj.1]
      exact filter_absent fun hmem => hij (hb.2.2.1.symm.trans (h.mem_free.mp hmem).2.2.1)
  · exact filter_absent fun hmem => (h.mem_large.mp hmem).2 hb.2.1
  · exact setFreeBlocks_blockSizes _ _ _

/-- A block of the large list goes. -/
theorem ofLarge (h : Placement s) (hlist : s.largeBlocks = kept ++ b :: rest) :
    Trimmed [b] s (((s.returned (s.blocks b).ptr kSuccess).untrack (s.blocks b).ptr).setLarge
      (kept ++ rest)) := by
  have hb : s.Bulky b := h.mem_large.mp (by rw [hlist]; simp)
  refine ⟨rfl, lookup_erase h hb.1 rfl, fun j => ?_, filter_removed hlist h.large_nodup, rfl, rfl,
    rfl⟩
  exact filter_absent fun hmem => hb.2 (h.mem_free.mp hmem).2.1

/-- Lists that hold none of the blocks that went are as they were. -/
theorem free_of_disjoint (h : Trimmed l s s') {i : ℕ} (hl : ∀ b ∈ s.freeBlocks i, b ∉ l) :
    s'.freeBlocks i = s.freeBlocks i := by
  rw [h.free, List.filter_eq_self.mpr fun b hb => decide_eq_true (hl b hb)]

theorem large_of_disjoint (h : Trimmed l s s') (hl : ∀ b ∈ s.largeBlocks, b ∉ l) :
    s'.largeBlocks = s.largeBlocks := by
  rw [h.large, List.filter_eq_self.mpr fun b hb => decide_eq_true (hl b hb)]

end Trimmed

/-! ### The loops -/

/-- Giving back the blocks of `order` one after the other, until the backend refuses one. -/
inductive TrimRun (answer : Ptr → Error) (s : State) (order : List BlockId) :
    Except Exn Unit → State → Prop
  | all {s' : State} (hall : ∀ b ∈ order, answer (s.blocks b).ptr = kSuccess)
      (hs : Trimmed order s s') : TrimRun answer s order (.ok ()) s'
  | stopped {before after : List BlockId} {b : BlockId} {s' : State} (e : Exn)
      (horder : order = before ++ b :: after)
      (hbefore : ∀ c ∈ before, answer (s.blocks c).ptr = kSuccess)
      (hb : answer (s.blocks b).ptr ≠ kSuccess) (hs : Trimmed before s s') :
      TrimRun answer s order (.error e) (s'.returned (s.blocks b).ptr (answer (s.blocks b).ptr))

namespace TrimRun

/-- A loop that returned is followed by another one. -/
theorem append (hall : ∀ b ∈ l, answer (s.blocks b).ptr = kSuccess) (hs : Trimmed l s s')
    (h : TrimRun answer s' l' r s'') : TrimRun answer s (l ++ l') r s'' := by
  have hblocks := hs.blocks
  cases h with
  | all hall' hs' =>
    rw [hblocks] at hall'
    refine .all (fun b hb => ?_) (hs.trans hs')
    rcases List.mem_append.mp hb with hb | hb
    · exact hall b hb
    · exact hall' b hb
  | @stopped before after b s₁ e horder hbefore hb hs' =>
    rw [hblocks] at hbefore hb ⊢
    refine .stopped e (by rw [horder, List.append_assoc]) (fun c hc => ?_) hb (hs.trans hs')
    rcases List.mem_append.mp hc with hc | hc
    · exact hall c hc
    · exact hbefore c hc

/-- A loop that threw is followed by nothing. -/
theorem extend {e : Exn} (h : TrimRun answer s l (.error e) s') (l' : List BlockId) :
    TrimRun answer s (l ++ l') (.error e) s' := by
  cases h with
  | stopped _ horder hbefore hb hs =>
    exact .stopped e (by rw [horder, List.append_assoc, List.cons_append]) hbefore hb hs

end TrimRun

/-- One loop of `trim`, over a list `get` that `store` writes back; it has passed `kept`. -/
theorem trimList_exact (idle : Block → Bool) (answer : Ptr → Error) (operation : String)
    (store : List BlockId → State → State) (get : State → List BlockId)
    (hstep : ∀ (s : State) kept b rest, Placement s → get s = kept ++ b :: rest →
      idle (s.blocks b) = true →
      let s' := store (kept ++ rest) ((s.returned (s.blocks b).ptr kSuccess).untrack
        (s.blocks b).ptr)
      Trimmed [b] s s' ∧ Placement s' ∧ get s' = kept ++ rest) :
    ∀ (rest kept : List BlockId) (s : State), Placement s → get s = kept ++ rest →
      ∃ r s', (trimList idle answer operation store kept rest).run s = (r, s') ∧ Placement s' ∧
        TrimRun answer s (rest.filter fun b => idle (s.blocks b)) r s' := by
  intro rest
  induction rest with
  | nil => exact fun kept s hplace _ => ⟨_, s, rfl, hplace, .all (by simp) (.refl s)⟩
  | cons b rest ih =>
    intro kept s hplace hget
    unfold trimList
    rw [run_bind_ok (run_get s)]
    cases hidle : idle (s.blocks b) with
    | true =>
      simp only [hidle, if_true]
      rw [run_bind_ok (freeBlock_run _ _ _), List.filter_cons_of_pos (by simpa using hidle)]
      obtain ⟨hone, hplace', hrest⟩ := hstep s kept b rest hplace hget hidle
      by_cases hstatus : answer (s.blocks b).ptr = kSuccess
      · obtain ⟨r, s', hrun, hs', htrim⟩ := ih kept _ hplace' hrest
        rw [hone.blocks] at htrim
        refine ⟨r, s', ?_, hs', TrimRun.append (by simpa using hstatus) hone htrim⟩
        rw [hstatus, run_bind_ok (check_kSuccess _ _), run_bind_ok (run_modify _ _),
          run_bind_ok (run_modify _ _)]
        exact hrun
      · refine ⟨_, _, run_bind_error (check_of_ne hstatus _ _), ?_,
          .stopped _ (List.nil_append _).symm (by simp) hstatus (.refl s)⟩
        exact hplace.stay rfl rfl rfl fun _ _ => .refl _
    | false =>
      simp only [hidle, Bool.false_eq_true, if_false]
      rw [List.filter_cons_of_neg (by simpa using hidle)]
      exact ih (kept ++ [b]) s hplace (by simpa using hget)

/-- The unpinned blocks of the free lists of `n` classes from class `i` on. -/
def State.unpinnedFree (s : State) (i n : ℕ) : List BlockId :=
  (List.range' i n).flatMap fun j => (s.freeBlocks j).filter fun b => (s.blocks b).pinCount = 0

/-- The idle unpinned blocks of the large list. -/
def State.unpinnedLarge (s : State) : List BlockId :=
  s.largeBlocks.filter fun b => (s.blocks b).pinCount = 0 && !(s.blocks b).inUse

theorem unpinnedFree_succ (s : State) (i n : ℕ) :
    s.unpinnedFree i (n + 1) =
      ((s.freeBlocks i).filter fun b => (s.blocks b).pinCount = 0) ++ s.unpinnedFree (i + 1) n := by
  rw [State.unpinnedFree, List.range'_succ, List.flatMap_cons]
  rfl

theorem mem_unpinnedFree (h : Placement s) {i n : ℕ} :
    b ∈ s.unpinnedFree i n ↔
      (∃ j, (i ≤ j ∧ j < i + n) ∧ s.Idle j b) ∧ (s.blocks b).pinCount = 0 := by
  simp only [State.unpinnedFree, List.mem_flatMap, List.mem_range'_1, List.mem_filter,
    decide_eq_true_eq, h.mem_free]
  constructor
  · rintro ⟨j, hj, hb, hpin⟩
    exact ⟨⟨j, hj, hb⟩, hpin⟩
  · rintro ⟨⟨j, hj, hb⟩, hpin⟩
    exact ⟨j, hj, hb, hpin⟩

theorem mem_unpinnedLarge (h : Placement s) :
    b ∈ s.unpinnedLarge ↔ s.Bulky b ∧ (s.blocks b).pinCount = 0 ∧ (s.blocks b).inUse = false := by
  simp only [State.unpinnedLarge, List.mem_filter, Bool.and_eq_true, decide_eq_true_eq,
    Bool.not_eq_true', h.mem_large]

/-- The loop over the classes. -/
theorem trimClasses_exact (answer : Ptr → Error) :
    ∀ (n i : ℕ) (s : State), Placement s → ∃ r s', (trimClasses answer i n).run s = (r, s') ∧
      Placement s' ∧ TrimRun answer s (s.unpinnedFree i n) r s' := by
  intro n
  induction n with
  | zero => exact fun i s hplace =>
    ⟨_, s, rfl, hplace, .all (by simp [State.unpinnedFree]) (.refl s)⟩
  | succ n ih =>
    intro i s hplace
    unfold trimClasses
    rw [run_bind_ok (run_get s)]
    obtain ⟨r, s', hrun, hplace', htrim⟩ := trimList_exact (fun blk => blk.pinCount = 0) answer
      "trim size-class block" (fun l s => s.setFreeBlocks i l) (fun s => s.freeBlocks i)
      (fun s kept b rest hplace hget hidle => by
        have hi := State.lt_of_freeBlocks_eq hget
        have hpin : (s.blocks b).pinCount = 0 := by simpa using hidle
        refine ⟨.ofFree hplace hget, hplace.trimStep (.free hget hpin), ?_⟩
        simp [State.untrack, State.returned, hi])
      (s.freeBlocks i) [] s hplace rfl
    rw [unpinnedFree_succ]
    cases r with
    | error e => exact ⟨_, s', run_bind_error hrun, hplace', htrim.extend _⟩
    | ok a =>
      obtain ⟨r', s'', hrun', hplace'', htrim'⟩ := ih (i + 1) s' hplace'
      refine ⟨r', s'', (run_bind_ok hrun).trans hrun', hplace'', ?_⟩
      cases htrim with
      | all hall hs =>
        refine .append hall hs ?_
        -- The later classes are as they were.
        have hlater : s'.unpinnedFree (i + 1) n = s.unpinnedFree (i + 1) n := by
          refine List.flatMap_congr fun j hj => ?_
          have hij : i < j := (List.mem_range'_1.mp hj).1
          rw [hs.blocks, hs.free_of_disjoint fun b hb hmem => ?_]
          have hbi := hplace.mem_free.mp (List.mem_of_mem_filter hmem)
          have hbj := hplace.mem_free.mp hb
          exact absurd (hbi.2.2.1.symm.trans hbj.2.2.1) (Nat.ne_of_lt hij)
        rw [← hlater]
        exact htrim'

/-- The blocks `trim` gives back, in its order. -/
def State.trimOrder (s : State) : List BlockId :=
  s.unpinnedFree 0 s.sizeClasses.length ++ s.unpinnedLarge

/-- **`trim` by its order.** -/
theorem trim_exact_run (ans : TrimAnswer) (hguard : ans.guard = true) (hplace : Placement s) :
    ∃ r s', (trim ans).run s = (r, s') ∧ Placement s' ∧ TrimRun ans.free s s.trimOrder r s' := by
  unfold trim deviceGuard
  simp only [hguard, if_true]
  rw [run_bind_ok (run_pure _ _), run_bind_ok (run_get s)]
  obtain ⟨r, s₁, hrun, hplace₁, htrim⟩ := trimClasses_exact ans.free s.sizeClasses.length 0 s hplace
  cases r with
  | error e => exact ⟨_, s₁, run_bind_error hrun, hplace₁, htrim.extend _⟩
  | ok a =>
    rw [run_bind_ok hrun, run_bind_ok (run_get s₁)]
    obtain ⟨r', s₂, hrun', hplace₂, htrim'⟩ := trimList_exact
      (fun blk => blk.pinCount = 0 && !blk.inUse) ans.free "trim large/exact block"
      (fun l s => s.setLarge l) (fun s => s.largeBlocks)
      (fun s kept b rest hplace hget hidle => by
        simp only [Bool.and_eq_true, decide_eq_true_eq, Bool.not_eq_true'] at hidle
        exact ⟨.ofLarge hplace hget, hplace.trimStep (.large hget hidle.1 hidle.2), rfl⟩)
      s₁.largeBlocks [] s₁ hplace₁ rfl
    refine ⟨r', s₂, hrun', hplace₂, ?_⟩
    cases htrim with
    | all hall hs =>
      refine .append hall hs ?_
      have hlarge : s₁.unpinnedLarge = s.unpinnedLarge := by
        rw [State.unpinnedLarge, State.unpinnedLarge, hs.blocks,
          hs.large_of_disjoint fun b hb hmem => ?_]
        obtain ⟨⟨j, -, hidle⟩, -⟩ := (mem_unpinnedFree hplace).mp hmem
        exact (hplace.mem_large.mp hb).2 hidle.2.1
      rw [← hlarge]
      exact htrim'

/-! ### What is given back -/

/-- The order holds the blocks that are neither in use nor pinned. -/
theorem mem_trimOrder (h : Placement s) :
    b ∈ s.trimOrder ↔
      s.Tracked b ∧ (s.blocks b).inUse = false ∧ (s.blocks b).pinCount = 0 := by
  rw [State.trimOrder, List.mem_append, mem_unpinnedFree h, mem_unpinnedLarge h]
  constructor
  · rintro (⟨⟨j, -, hb⟩, hpin⟩ | ⟨hb, hpin, huse⟩)
    · exact ⟨hb.1, hb.2.2.2, hpin⟩
    · exact ⟨hb.1, huse, hpin⟩
  · rintro ⟨hb, huse, hpin⟩
    by_cases hkind : (s.blocks b).kind = .SizeClass
    · have hclass := h.classIndex_lt hb hkind
      exact .inl ⟨⟨_, ⟨Nat.zero_le _, by omega⟩, hb, hkind, rfl, huse⟩, hpin⟩
    · exact .inr ⟨⟨hb, hkind⟩, hpin, huse⟩

theorem trimOrder_nodup (h : Placement s) : s.trimOrder.Nodup := by
  refine List.nodup_append.mpr ⟨?_, h.large_nodup.filter _, ?_⟩
  · refine List.nodup_flatMap.mpr ⟨fun j _ => (h.free_nodup j).filter _, ?_⟩
    refine List.Pairwise.imp_of_mem (fun {i j} _ _ hij b hbi hbj => ?_)
      (List.nodup_range' (n := s.sizeClasses.length) (s := 0))
    have hi := h.mem_free.mp (List.mem_of_mem_filter hbi)
    have hj := h.mem_free.mp (List.mem_of_mem_filter hbj)
    exact hij (hi.2.2.1.symm.trans hj.2.2.1)
  · rintro b hfree c hlarge rfl
    obtain ⟨⟨j, -, hidle⟩, -⟩ := (mem_unpinnedFree h).mp hfree
    exact ((mem_unpinnedLarge h).mp hlarge).1.2 hidle.2.1

/-- After a `trim` that returned there is nothing left to give back. -/
theorem Trimmed.trimOrder_eq_nil (h : Placement s) (hs : Trimmed s.trimOrder s s')
    (h' : Placement s') : s'.trimOrder = [] := by
  refine List.eq_nil_iff_forall_not_mem.mpr fun b hb => ?_
  obtain ⟨⟨p, hp⟩, huse, hpin⟩ := (mem_trimOrder h').mp hb
  obtain ⟨hold, hkept⟩ := (hs.lookup p b).mp hp
  rw [hs.blocks] at huse hpin
  exact hkept ((mem_trimOrder h).mpr ⟨⟨p, hold⟩, huse, hpin⟩)

/-- The outcome of the event is that of the member function. -/
theorem trim_perform {ans : TrimAnswer} (hrun : (trim ans).run w.state = (r, s')) :
    w.perform (.trim t ans) = ({ w with state := s' }, r.map fun _ => .none) :=
  call_eq hrun

/-- A `trim` whose device cannot be selected. -/
theorem trim_unguarded {ans : TrimAnswer} (hguard : ans.guard = false) :
    (trim ans).run s = (.error (.runtimeError "cannot select runtime device"), s) := by
  unfold trim deviceGuard
  rw [hguard]
  exact run_bind_error (run_throw _ _)

/-- A `trim` when there is nothing to give back. -/
theorem trim_nothing {ans : TrimAnswer} (h : Placement w.state) (hnil : w.state.trimOrder = []) :
    (w.perform (.trim t ans)).1 = w := by
  cases hguard : ans.guard with
  | false => rw [trim_perform (trim_unguarded hguard)]
  | true =>
    obtain ⟨r, s', hrun, -, htrim⟩ := trim_exact_run ans hguard h
    rw [hnil] at htrim
    rw [trim_perform hrun]
    cases htrim with
    | all _ hs => rw [hs.eq_of_nil]
    | stopped _ horder => simp at horder

/-- The pool stopped in the middle of a `trim`: the blocks before `b` are given back, `b` was
refused and is tracked, free and reusable. -/
structure StoppedAt (ans : TrimAnswer) (s : State) (before : List BlockId) (b : BlockId)
    (s' : State) : Prop where
  succeeded : ∀ c ∈ before, ans.free (s.blocks c).ptr = kSuccess
  refused : ans.free (s.blocks b).ptr ≠ kSuccess
  trimmed : ∃ s₁, Trimmed before s s₁ ∧
    s' = s₁.returned (s.blocks b).ptr (ans.free (s.blocks b).ptr)
  tracked : s'.allBlocks.lookup (s'.blocks b).ptr = some b
  reusable : s'.Reusable b
  unpinned : (s'.blocks b).pinCount = 0

/-- **`trim` is exact.** In every reachable state it gives back, in a fixed order without
repetition, blocks that are neither in use nor pinned.  If it returns it has given back all of them,
has changed nothing else, and a second one does nothing; if it throws, the device could not be
selected, or the blocks before the first one refused have been given back. -/
theorem trim_exact {ans : TrimAnswer} (h : PoolRun trace w) (hstep : Step w (.trim t ans, o) w') :
    w.state.trimOrder.Nodup ∧
    (∀ b, b ∈ w.state.trimOrder ↔ w.state.Tracked b ∧ (w.state.blocks b).inUse = false ∧
      (w.state.blocks b).pinCount = 0) ∧
    w' = { w with state := w'.state } ∧
    (∀ v, o = .ok v → Trimmed w.state.trimOrder w.state w'.state ∧
      ∀ t' ans', (w'.perform (.trim t' ans')).1 = w') ∧
    (∀ y, o = .error y → ans.guard = false ∧ w' = w ∨
      ∃ before b after, w.state.trimOrder = before ++ b :: after ∧
        StoppedAt ans w.state before b w'.state) := by
  have hplace := (invariant_of_run h).placement
  have hperform := hstep.2
  refine ⟨trimOrder_nodup hplace, fun b => mem_trimOrder hplace, ?_⟩
  cases hguard : ans.guard with
  | false =>
    rw [trim_perform (trim_unguarded hguard)] at hperform
    cases hperform
    exact ⟨rfl, fun v hv => (nomatch hv), fun y _ => .inl ⟨rfl, rfl⟩⟩
  | true =>
    obtain ⟨r, s', hrun, hplace', htrim⟩ := trim_exact_run ans hguard hplace
    rw [trim_perform hrun] at hperform
    cases hperform
    refine ⟨rfl, fun v hv => ?_, fun y hy => .inr ?_⟩
    · cases htrim with
      | stopped => cases hv
      | all _ hs =>
        exact ⟨hs, fun t' ans' => trim_nothing hplace' (hs.trimOrder_eq_nil hplace hplace')⟩
    · cases htrim with
      | all => cases hy
      | @stopped before after b s₁ e horder hbefore hb hs =>
        have hmem : b ∈ w.state.trimOrder := by simp [horder]
        obtain ⟨⟨p, hp⟩, huse, hpin⟩ := (mem_trimOrder hplace).mp hmem
        have hnot : b ∉ before := fun hbefore => by
          have hnodup := trimOrder_nodup hplace
          rw [horder] at hnodup
          exact (List.nodup_append.mp hnodup).2.2 b hbefore b (by simp) rfl
        have hlookup : s₁.allBlocks.lookup p = some b := (hs.lookup p b).mpr ⟨hp, hnot⟩
        have hptr : (s₁.blocks b).ptr = p := by rw [hs.blocks, hplace.address p b hp]
        have hidle : (s₁.blocks b).inUse = false := by rw [hs.blocks, huse]
        refine ⟨before, b, after, horder, hbefore, hb, ⟨s₁, hs, rfl⟩, ?_, ?_, ?_⟩
        · show s₁.allBlocks.lookup (s₁.blocks b).ptr = some b
          rw [hptr, hlookup]
        · have hzero := hplace'.useCount_eq_zero ⟨p, hlookup⟩ hidle
          exact (hplace'.reusable_iff ⟨p, hlookup⟩).mpr hzero
        · show (s₁.blocks b).pinCount = 0
          rw [hs.blocks, hpin]

/-- Three idle blocks, one of them pinned by a transaction, and one block in use. -/
def trimmablePool : World :=
  ((World.initial none false).runEvents
    [.allocate 1 100 (.granting 1 4096), .allocateExact 1 512 (.granting 2 8192),
      .allocate 1 100 (.granting 3 12288), .beginPinMode 1, .allocate 1 100 (.granting 4 16384),
      .deallocate 1 4096 true, .deallocate 1 8192 true, .deallocate 1 16384 true]).1

/-- A `trim` whose second free is refused. -/
def refusingTrim : TrimAnswer :=
  { guard := true, free := fun p => if p = 8192 then 1 else kSuccess }

theorem trim_exact_of_refusing :
    ∃ before b after, trimmablePool.state.trimOrder = before ++ b :: after ∧
      StoppedAt refusingTrim trimmablePool.state before b
        (trimmablePool.perform (.trim 1 refusingTrim)).1.state :=
  ((trim_exact (poolRun_runEvents (by decide) : PoolRun _ trimmablePool)
    (⟨by decide, rfl⟩ : Step trimmablePool (.trim 1 refusingTrim,
      .error (failedOperation 1 "trim large/exact block")) _)).2.2.2.2 _ rfl).resolve_left
        fun hguard => Bool.noConfusion hguard.1

end InfiniRT.Pool
