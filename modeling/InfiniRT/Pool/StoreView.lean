import InfiniRT.Library.GrowingStore
import InfiniRT.Pool.Effects
import Mathlib.Data.Fintype.EquivFin

/-!
# The pool as a store that grows on demand

What decides whether an allocation reuses a block or asks the backend is how many blocks wait in
each free list, and the kinds, sizes and uses of the blocks in the large list, in order.
`State.store` is that much of a state.  On it `allocate_impl_` is `Store.serve` and `deallocate` is
`Store.giveBack`, whoever else holds blocks and pins: the size classes are the classes of cells, the
large list is the list of slots, and `find_if` is the first-fit search.  Proved:

* **`Allocated.serves`** — a successful allocation is a request to the store;
* **`allocateImpl_of_stocked`** — a request that the store serves without growth does not reach the
  backend;
* **`deallocate_of_lends`** — a `deallocate` of what is lent is a return to the store.
-/

namespace InfiniRT.Pool

open InfiniRT.Library Action

variable {s s' : State} {t : ThreadId} {b c : BlockId} {p q : Ptr} {held : List BlockId}
  {ans : AllocAnswer} {size i j : ℕ} {isExact : Bool}

/-- A block as a slot. -/
def State.slot (s : State) (b : BlockId) : Slot (Kind × ℕ) where
  label := ((s.blocks b).kind, (s.blocks b).size)
  taken := (s.blocks b).inUse

/-- The free lists and the large list as a store. -/
def State.store (s : State) : Store ℕ (Kind × ℕ) where
  cells i := (s.freeBlocks i).length
  slots := s.largeBlocks.map s.slot

/-- What `find_if` asks of the kind and the size of a block. -/
def fitsLabel (size : ℕ) (isExact : Bool) (label : Kind × ℕ) : Bool :=
  label.1 = requestKind isExact && if isExact then label.2 = size else label.2 ≥ size

theorem fitsLabel_new (size : ℕ) (isExact : Bool) :
    fitsLabel size isExact (requestKind isExact, size) = true := by
  cases isExact <;> simp [fitsLabel]

/-- What `allocate_impl_` asks of the store. -/
def request (size : ℕ) (isExact : Bool) : Request ℕ (Kind × ℕ) :=
  if size = 0 then .nothing
  else
    match if isExact then none else classSizes.findIdx? fun n => decide (roundUp size ≤ n) with
    | some i => .cell i
    | none =>
      .slot (fitsLabel (roundUp size) isExact) (requestKind isExact, roundUp size)
        (fitsLabel_new _ _)

theorem request_of_requestClass (h : Placement s) (hsize : size ≠ 0) :
    request size isExact =
      match s.requestClass size isExact with
      | some i => .cell i
      | none =>
        .slot (fitsLabel (roundUp size) isExact) (requestKind isExact, roundUp size)
          (fitsLabel_new _ _) := by
  have hclass : s.requestClass size isExact =
      if isExact then none else classSizes.findIdx? fun n => decide (roundUp size ≤ n) := by
    rw [State.requestClass, State.findClass, ← h.classes, List.findIdx?_map]
    rfl
  rw [request, if_neg hsize, hclass]

/-- The search of the large list is the search of the slots. -/
theorem findSlot_store (s : State) (size : ℕ) (isExact : Bool) :
    s.store.findSlot (fitsLabel size isExact) =
      s.largeBlocks.findIdx? fun c => fitsLarge size isExact (s.blocks c) := by
  rw [Store.findSlot, State.store, List.findIdx?_map]
  congr 1
  funext c
  cases isExact <;> simp only [Function.comp_apply, State.slot, fitsLarge, fitsLabel,
    Bool.and_assoc] <;> rfl

theorem findSlot_of_find? (h : s.largeBlocks.find?
      (fun c => fitsLarge size isExact (s.blocks c)) = some b) :
    ∃ j, s.store.findSlot (fitsLabel size isExact) = some j ∧ s.largeBlocks[j]? = some b := by
  rw [List.find?_eq_bind_findIdx?_getElem?, Option.bind_eq_some_iff] at h
  rw [findSlot_store]
  exact h

theorem findSlot_eq_none (h : s.largeBlocks.find?
      (fun c => fitsLarge size isExact (s.blocks c)) = none) :
    s.store.findSlot (fitsLabel size isExact) = none := by
  rw [findSlot_store, List.findIdx?_eq_none_iff]
  intro c hc
  simpa using List.find?_eq_none.mp h c hc

/-- Every block in a free list is idle, so a class has none to reuse only if its list is empty. -/
theorem freeBlocks_eq_nil (h : Placement s)
    (hfind : (s.freeBlocks i).find? (fun c => !(s.blocks c).inUse) = none) :
    s.freeBlocks i = [] := by
  rw [List.eq_nil_iff_forall_not_mem]
  intro c hc
  have hidle := (h.mem_free.mp hc).2.2.2
  simpa [hidle] using List.find?_eq_none.mp hfind c hc

/-! ### Blocks lent by the pool -/

/-- The block `b` stands at `p` and has one logical owner. -/
structure State.Lent (s : State) (p : Ptr) (b : BlockId) : Prop where
  nonnull : p ≠ nullptr
  lookup : s.allBlocks.lookup p = some b
  inUse : (s.blocks b).inUse = true
  useCount : (s.blocks b).useCount = 1

/-- The address `p` was handed out for what `Store.serve` calls `h`. -/
def State.Lends (s : State) (p : Ptr) : Handle ℕ → Prop
  | .nothing => p = nullptr
  | .cell i => ∃ b, s.Lent p b ∧ (s.blocks b).kind = .SizeClass ∧ (s.blocks b).classIndex = i
  | .slot j => ∃ b, s.Lent p b ∧ s.largeBlocks[j]? = some b

theorem State.Lent.keep (h : s.Lent p b) (hlookup : s'.allBlocks.lookup p = some b)
    (hblocks : s'.blocks b = s.blocks b) : s'.Lent p b :=
  ⟨h.nonnull, hlookup, by rw [hblocks, h.inUse], by rw [hblocks, h.useCount]⟩

theorem State.Lends.keep {hd : Handle ℕ} (h : s.Lends p hd)
    (hkeep : ∀ c, s.Lent p c → s'.allBlocks.lookup p = some c ∧ s'.blocks c = s.blocks c)
    (hlarge : s.largeBlocks <+: s'.largeBlocks) : s'.Lends p hd := by
  cases hd with
  | nothing => exact h
  | cell i =>
    obtain ⟨b, hb, hkind, hclass⟩ := h
    obtain ⟨hlookup, hblocks⟩ := hkeep b hb
    exact ⟨b, hb.keep hlookup hblocks, by rw [hblocks, hkind], by rw [hblocks, hclass]⟩
  | slot j =>
    obtain ⟨b, hb, hj⟩ := h
    obtain ⟨hlookup, hblocks⟩ := hkeep b hb
    obtain ⟨rest, hrest⟩ := hlarge
    refine ⟨b, hb.keep hlookup hblocks, ?_⟩
    rw [← hrest, List.getElem?_append_left (List.getElem?_eq_some_iff.mp hj).1, hj]

/-- What is lent at an address is a block. -/
theorem State.Lends.lent {hd : Handle ℕ} (h : s.Lends p hd) (hp : p ≠ nullptr) :
    ∃ b, s.Lent p b := by
  cases hd with
  | nothing => exact absurd h hp
  | cell i => exact ⟨h.choose, h.choose_spec.1⟩
  | slot j => exact ⟨h.choose, h.choose_spec.1⟩

/-- An allocation is the request `req` to the store, answered with the address `p`. -/
structure Serves (s : State) (req : Request ℕ (Kind × ℕ)) (p : Ptr) (s' : State) : Prop where
  store : s'.store = (s.store.serve req).1
  lends : s'.Lends p (s.store.serve req).2.1
  keeps : ∀ q hd, s.Lends q hd → s'.Lends q hd
  distinct : ∀ q c, s.Lent q c → q ≠ p

/-- A block that is handed out was not lent before. -/
theorem Served.ne_of_lent (hs : Served t s p b s') (h : s.Lent q c) : q ≠ p ∧ c ≠ b := by
  rcases hs.origin with ⟨hlookup, hidle, -⟩ | ⟨hlookup, htracked, -⟩
  · have hcb : c ≠ b := by
      rintro rfl
      exact absurd h.inUse (by rw [hidle]; exact Bool.false_ne_true)
    refine ⟨?_, hcb⟩
    rintro rfl
    exact hcb (Option.some.inj (h.lookup.symm.trans hlookup))
  · refine ⟨?_, ?_⟩
    · rintro rfl
      cases h.lookup.symm.trans hlookup
    · rintro rfl
      exact htracked ⟨q, h.lookup⟩

/-- What is lent elsewhere stays lent when a block is handed out. -/
theorem Served.keeps (hs : Served t s p b s') (hlarge : s.largeBlocks <+: s'.largeBlocks)
    {hd : Handle ℕ} (h : s.Lends q hd) : s'.Lends q hd := by
  refine h.keep (fun c hc => ?_) hlarge
  obtain ⟨hq, hcb⟩ := hs.ne_of_lent hc
  exact ⟨by rw [hs.lookup_ne q hq, hc.lookup], hs.blocks_ne c hcb⟩

theorem Served.lent (hs : Served t s p b s') (hp : p ≠ nullptr) : s'.Lent p b :=
  ⟨hp, hs.lookup, hs.inUse, hs.useCount⟩

/-- The slots when the large list stays and only the block at place `j` is put in use or not. -/
theorem slots_setTaken (hnodup : s.largeBlocks.Nodup) (hj : s.largeBlocks[j]? = some b)
    {taken : Bool} (hlarge : s'.largeBlocks = s.largeBlocks)
    (hothers : ∀ c, c ≠ b → s'.slot c = s.slot c)
    (hself : s'.slot b = { s.slot b with taken := taken }) :
    s'.store.slots = (s.store.setTaken j taken).slots := by
  apply List.ext_getElem?
  intro k
  simp only [State.store, Store.setTaken, hlarge, List.getElem?_modify, List.getElem?_map]
  by_cases hk : j = k
  · subst hk
    simp [hj, hself]
  · cases hc : s.largeBlocks[k]? with
    | none => rfl
    | some c =>
      have hcb : c ≠ b := by
        rintro rfl
        obtain ⟨hlt, -⟩ := List.getElem?_eq_some_iff.mp hj
        exact hk ((List.getElem?_inj hlt hnodup).mp (hj.trans hc.symm))
      simp [hk, hothers c hcb]

/-- The slots when the large list and the blocks in it stay. -/
theorem slots_congr (hlarge : s'.largeBlocks = s.largeBlocks)
    (hslots : ∀ c ∈ s.largeBlocks, s'.slot c = s.slot c) : s'.store.slots = s.store.slots := by
  simp only [State.store, hlarge]
  exact List.map_congr_left hslots

theorem slot_congr (h : s'.blocks c = s.blocks c) : s'.slot c = s.slot c := by
  simp only [State.slot, h]

/-! ### Allocations -/

/-- A block that was handed out serves the request the store served with it. -/
theorem Serves.of_served {req : Request ℕ (Kind × ℕ)} (hs : Served t s p b s')
    (hp : p ≠ nullptr) (hlarge : s.largeBlocks <+: s'.largeBlocks)
    (hstore : s'.store = (s.store.serve req).1)
    (hlends : s'.Lent p b → s'.Lends p (s.store.serve req).2.1) : Serves s req p s' where
  store := hstore
  lends := hlends (hs.lent hp)
  keeps _ _ := hs.keeps hlarge
  distinct _ _ hc := (hs.ne_of_lent hc).1

/-- The address of a tracked block. -/
theorem Sound.ptr_ne_nullptr (h : Sound held s) (hb : s.Tracked b) : (s.blocks b).ptr ≠ nullptr :=
  fun hp => h.backing.nonnull
    (hp ▸ AList.lookup_isSome.mp (by rw [h.placement.lookup_ptr hb]; rfl))

/-- The first idle block of a class is one cell less. -/
theorem Serves.reuseClass (h : Sound held s) (t : ThreadId) (generation : ℕ)
    (hfind : (s.freeBlocks i).find? (fun c => !(s.blocks c).inUse) = some b) :
    Serves s (.cell i) (s.blocks b).ptr
      ((((s.freeze t b).stamp b generation).takeFree i).startUse b) := by
  have hmem := List.mem_of_find?_eq_some hfind
  have hb := h.placement.mem_free.mp hmem
  have hi : i < s.sizeClasses.length := by
    rw [← hb.2.2.1]
    exact h.placement.classIndex_lt hb.1 hb.2.1
  have hserved := Served.reuseClass h.placement t generation hfind
  have hfree : ∀ j, ((((s.freeze t b).stamp b generation).takeFree i).startUse b).freeBlocks j =
      if i = j then (s.freeBlocks i).erase b else s.freeBlocks j := by
    intro j
    have hi' : i < ((s.freeze t b).stamp b generation).sizeClasses.length := by
      show i < (s.freeze t b).sizeClasses.length
      rwa [freeze_sizeClasses]
    rw [Placement.freeBlocks_takeFree hi'
      ((Placement.find?_touched ..).trans hfind)]
    simp only [stamp_freeBlocks, freeze_freeBlocks]
  have hlarge : ((((s.freeze t b).stamp b generation).takeFree i).startUse b).largeBlocks =
      s.largeBlocks := freeze_largeBlocks s t b
  have hself := Placement.sameField_touched s t b b generation
  have hcells : s.store.cells i ≠ 0 := (List.length_pos_of_mem hmem).ne'
  refine .of_served hserved (h.ptr_ne_nullptr hb.1) (by rw [hlarge]) ?_ ?_ <;>
    rw [Store.serve_cell_of_ne hcells]
  · ext1
    · funext j
      show (State.freeBlocks _ j).length = _
      rw [hfree, Store.setCells_cells]
      by_cases hij : i = j
      · subst hij
        rw [if_pos rfl, if_pos rfl, List.length_erase_of_mem hmem]
        rfl
      · rw [if_neg hij, if_neg (Ne.symm hij)]
        rfl
    · refine slots_congr hlarge fun c hc => slot_congr (hserved.blocks_ne c ?_)
      rintro rfl
      exact (h.placement.mem_large.mp hc).2 hb.2.1
  · refine fun hlent => ⟨b, hlent, ?_, ?_⟩ <;>
      rw [startUse_blocks_self, takeFree_blocks]
    · exact hself.kind.trans hb.2.1
    · exact hself.classIndex.trans hb.2.2.1

/-- A new block of a class is a cell that had to be made. -/
theorem Serves.growClass (h : Sound held s) (hans : s.Fresh ans) (t : ThreadId)
    (generation : ℕ) (hfind : (s.freeBlocks i).find? (fun c => !(s.blocks c).inUse) = none)
    (hblock : ans.makeShared = some b) (hstatus : ans.backend.status = kSuccess) :
    Serves s (.cell i) ans.backend.out
      (((s.enroll ans.backend b (newBlock (s.blockSize i) .SizeClass i)).freeze t b).stamp b
        generation) := by
  have hserved := Served.growClass h hans t generation (s.blockSize i) i hblock hstatus
  have hempty := freeBlocks_eq_nil h.placement hfind
  have hcells : s.store.cells i = 0 := by
    show (s.freeBlocks i).length = 0
    rw [hempty, List.length_nil]
  have hlarge :
      (((s.enroll ans.backend b (newBlock (s.blockSize i) .SizeClass i)).freeze t b).stamp b
      generation).largeBlocks = s.largeBlocks := by
    show (State.freeze _ t b).largeBlocks = _
    rw [freeze_largeBlocks, enroll_largeBlocks]
  refine .of_served hserved (hans.nonnull hstatus) (by rw [hlarge]) ?_ ?_ <;>
    rw [Store.serve_cell_of_eq hcells]
  · ext1
    · funext j
      show (State.freeBlocks _ j).length = (s.freeBlocks j).length
      rw [stamp_freeBlocks, freeze_freeBlocks]
      simp only [State.freeBlocks, enroll_sizeClasses]
    · refine slots_congr hlarge fun c hc => slot_congr (hserved.blocks_ne c ?_)
      rintro rfl
      exact hans.block c hblock (h.placement.mem_large.mp hc).1
  · have hself := Placement.sameField_touched
      (s.enroll ans.backend b (newBlock (s.blockSize i) .SizeClass i)) t b b generation
    rw [enroll_blocks_self] at hself
    exact fun hlent => ⟨b, hlent, hself.kind, hself.classIndex⟩

/-- The first idle block of the large list that fits is the first idle slot that fits. -/
theorem Serves.reuseLarge (h : Sound held s) (t : ThreadId) (generation : ℕ) {hfits}
    (hfind : s.largeBlocks.find? (fun c => fitsLarge size isExact (s.blocks c)) = some b) :
    Serves s (.slot (fitsLabel size isExact) (requestKind isExact, size) hfits) (s.blocks b).ptr
      (((s.freeze t b).stamp b generation).startUse b) := by
  have hb := h.placement.mem_large.mp (List.mem_of_find?_eq_some hfind)
  have hserved := Served.reuseLarge h.placement t generation hfind
  obtain ⟨j, hslot, hj⟩ := findSlot_of_find? hfind
  have hlarge : (((s.freeze t b).stamp b generation).startUse b).largeBlocks = s.largeBlocks :=
    freeze_largeBlocks s t b
  refine .of_served hserved (h.ptr_ne_nullptr hb.1) (by rw [hlarge]) ?_ ?_ <;>
    rw [Store.serve_slot_of_some hslot]
  · ext1
    · funext i
      show (State.freeBlocks (s.freeze t b) i).length = (s.freeBlocks i).length
      rw [freeze_freeBlocks]
    · refine slots_setTaken h.placement.large_nodup hj hlarge
        (fun c hc => slot_congr (hserved.blocks_ne c hc)) ?_
      have hself := Placement.sameField_touched s t b b generation
      simp only [State.slot, startUse_blocks_self, hself.kind, hself.size]
  · exact fun hlent => ⟨b, hlent, by rw [hlarge, hj]⟩

/-- A new block at the end of the large list is a slot that had to be made. -/
theorem Serves.growLarge (h : Sound held s) (hans : s.Fresh ans) (t : ThreadId)
    (generation : ℕ) {hfits}
    (hfind : s.largeBlocks.find? (fun c => fitsLarge size isExact (s.blocks c)) = none)
    (hblock : ans.makeShared = some b) (hstatus : ans.backend.status = kSuccess) :
    Serves s (.slot (fitsLabel size isExact) (requestKind isExact, size) hfits) ans.backend.out
      ((((s.enroll ans.backend b (newBlock size (requestKind isExact) 0)).pushLarge b).freeze
        t b).stamp b generation) := by
  have hserved := Served.growLarge h hans t generation size isExact hblock hstatus
  have hslot := findSlot_eq_none hfind
  have hlarge : ((((s.enroll ans.backend b (newBlock size (requestKind isExact) 0)).pushLarge
      b).freeze t b).stamp b generation).largeBlocks = s.largeBlocks ++ [b] := by
    show (State.freeze _ t b).largeBlocks = _
    rw [freeze_largeBlocks, pushLarge_largeBlocks, enroll_largeBlocks]
  have hself := Placement.sameField_touched
    ((s.enroll ans.backend b (newBlock size (requestKind isExact) 0)).pushLarge b) t b b generation
  rw [pushLarge_blocks, enroll_blocks_self] at hself
  refine .of_served hserved (hans.nonnull hstatus) (by rw [hlarge]; exact List.prefix_append ..)
    ?_ ?_ <;> rw [Store.serve_slot_of_none hslot]
  · ext1
    · funext i
      show (State.freeBlocks _ i).length = (s.freeBlocks i).length
      rw [stamp_freeBlocks, freeze_freeBlocks]
      simp only [State.freeBlocks, pushLarge_sizeClasses, enroll_sizeClasses]
    · show List.map _ (State.largeBlocks _) = List.map s.slot s.largeBlocks ++ _
      rw [hlarge, List.map_append]
      congr 1
      · refine List.map_congr_left fun c hc => slot_congr (hserved.blocks_ne c ?_)
        rintro rfl
        exact hans.block c hblock (h.placement.mem_large.mp hc).1
      · simp only [List.map_cons, List.map_nil, State.slot, hself.kind, hself.size, hself.inUse]
        rfl
  · refine fun hlent => ⟨b, hlent, ?_⟩
    rw [hlarge]
    simp [State.store]

theorem Serves.null (s : State) : Serves s (request 0 false) nullptr s where
  store := rfl
  lends := rfl
  keeps _ _ := id
  distinct _ _ hc := hc.nonnull

/-- **A successful allocation is a request to the store.** -/
theorem Allocated.serves (h : Sound held s) (hans : s.Fresh ans) (hsize : size ≠ 0)
    (hs : Allocated t ans size isExact s p s') : Serves s (request size isExact) p s' := by
  rw [request_of_requestClass h.placement hsize]
  cases hs with
  | reuseClass i b hclass hfind =>
    rw [hclass]
    exact .reuseClass h t _ hfind
  | growClass i b hclass hfind hblock hstatus hgrow =>
    rw [hclass]
    exact .growClass h hans t _ hfind hblock hstatus
  | reuseLarge b hclass hfind =>
    rw [hclass]
    exact .reuseLarge h t _ hfind
  | growLarge b hclass hfind hblock hstatus hgrow =>
    rw [hclass]
    exact .growLarge h hans t _ hfind hblock hstatus

/-- Some environment keeps its promise to the state. -/
theorem State.exists_fresh (s : State) : ∃ ans : AllocAnswer, s.Fresh ans := by
  obtain ⟨p, hp⟩ := Infinite.exists_notMem_finset (live s.calls).toFinset
  rw [List.mem_toFinset] at hp
  refine ⟨{
    guard := true
    makeShared := none
    backend := { captureQuery := kSuccess, capturing := false, status := 1, out := p }
    emplace := true
    pushLarge := true
    freeze := { pushBack := true, insert := true }
    cleanup := kSuccess }, ?_, ?_, hp⟩
  · intro b hb
    cases hb
  · intro hstatus
    cases hstatus

/-- **A request the store serves without growth** does not reach the backend, whatever the
environment would answer: it is served, or the host has no memory to freeze the block. -/
theorem allocateImpl_of_stocked (h : Sound held s) (t : ThreadId) (ans : AllocAnswer)
    (hgrown : (s.store.serve (request size isExact)).2.2 = 0)
    (hsize : size = 0 → isExact = false) (hbig : Addressable size) :
    (∃ p s', (allocateImpl t ans size isExact).run s = (.ok p, s') ∧ Sound held s' ∧
      Serves s (request size isExact) p s' ∧ s'.calls = s.calls) ∨
    (¬ ans.freeze.granted ∧ ∃ e, (allocateImpl t ans size isExact).run s = (.error e, s)) := by
  by_cases hzero : size = 0
  · subst hzero
    rw [hsize rfl]
    exact .inl ⟨nullptr, s, by simp [allocateImpl], h, .null s, rfl⟩
  obtain ⟨fresh, hfresh⟩ := s.exists_fresh
  rw [request_of_requestClass h.placement hzero] at hgrown
  cases hclass : s.requestClass size isExact with
  | some i =>
    rw [hclass] at hgrown
    rw [allocateImpl_of_class hzero hbig hclass]
    cases hfind : (s.freeBlocks i).find? (fun c => !(s.blocks c).inUse) with
    | none =>
      have hcells : s.store.cells i = 0 := by
        show (s.freeBlocks i).length = 0
        rw [freeBlocks_eq_nil h.placement hfind, List.length_nil]
      rw [Store.serve_cell_of_eq hcells] at hgrown
      exact absurd hgrown (Reserve.cell_ne_zero i)
    | some b =>
      have hs : Allocated t fresh size isExact s _ _ := .reuseClass i b hclass hfind
      rw [allocateFromClass_found hfind]
      rcases reuseClassBlock_run t ans i (s.generationFor t) b s with hok | ⟨hdenied, herr⟩
      · exact .inl ⟨_, _, hok, h.allocated hfresh hs, hs.serves h hfresh hzero, freeze_calls s t b⟩
      · exact .inr ⟨hdenied, _, herr⟩
  | none =>
    rw [hclass] at hgrown
    rw [allocateImpl_of_large hzero hbig hclass]
    cases hfind : s.largeBlocks.find? (fun c => fitsLarge (roundUp size) isExact (s.blocks c)) with
    | none =>
      rw [Store.serve_slot_of_none (findSlot_eq_none hfind)] at hgrown
      exact absurd hgrown (Reserve.slot_ne_zero _)
    | some b =>
      have hs : Allocated t fresh size isExact s _ _ := .reuseLarge b hclass hfind
      rw [allocateFromLarge_found hfind]
      rcases reuseLargeBlock_run t ans (s.generationFor t) b s with hok | ⟨hdenied, herr⟩
      · exact .inl ⟨_, _, hok, h.allocated hfresh hs, hs.serves h hfresh hzero, freeze_calls s t b⟩
      · exact .inr ⟨hdenied, _, herr⟩

/-! ### Deallocations -/

/-- A deallocation of the address `p` is the return of `hd` to the store. -/
structure Returns (s : State) (p : Ptr) (hd : Handle ℕ) (s' : State) : Prop where
  store : s'.store = s.store.giveBack hd
  keeps : ∀ q hd', (q = p → q = nullptr) → s.Lends q hd' → s'.Lends q hd'

/-- Nothing is lent at the null address. -/
theorem State.Lends.eq_nothing {hd : Handle ℕ} (h : s.Lends nullptr hd) : hd = .nothing := by
  cases hd with
  | nothing => rfl
  | cell i => exact absurd rfl h.choose_spec.1.nonnull
  | slot j => exact absurd rfl h.choose_spec.1.nonnull

theorem State.Lent.release_eq (h : s.Lent p b) : s.release b = s.giveBack b := by
  rw [State.release, h.useCount, if_neg (Nat.lt_irrefl 1)]

/-- The return of a block with one owner. -/
theorem Returns.release (h : Sound held s) {hd : Handle ℕ} (hl : s.Lends p hd) (hb : s.Lent p b) :
    Returns s p hd (s.release b) := by
  have hlarge : (s.release b).largeBlocks = s.largeBlocks := by
    unfold State.release State.giveBack
    split_ifs <;> rfl
  refine ⟨?_, ?_⟩
  · cases hd with
    | nothing => exact absurd hl hb.nonnull
    | cell i =>
      obtain ⟨c, hc, hkind, hclass⟩ := hl
      obtain rfl : c = b := Option.some.inj (hc.lookup.symm.trans hb.lookup)
      have hi := h.placement.classIndex_lt ⟨p, hb.lookup⟩ hkind
      ext1
      · funext j
        show ((s.release c).freeBlocks j).length = _
        rw [hb.release_eq, State.giveBack, if_pos hkind]
        show ((s.pushFree c).freeBlocks j).length = _
        rw [State.pushFree, State.freeBlocks_setFreeBlocks, Store.giveBack, Store.setCells_cells,
          hclass]
        by_cases hij : i = j
        · subst hij
          rw [if_pos ⟨rfl, hclass ▸ hi⟩, if_pos rfl, List.length_append]
          rfl
        · rw [if_neg fun hj => hij hj.1, if_neg (Ne.symm hij)]
          rfl
      · refine slots_congr hlarge fun d hd => slot_congr (release_blocks_ne s ?_)
        rintro rfl
        exact (h.placement.mem_large.mp hd).2 hkind
    | slot j =>
      obtain ⟨c, hc, hj⟩ := hl
      obtain rfl : c = b := Option.some.inj (hc.lookup.symm.trans hb.lookup)
      have hkind := (h.placement.mem_large.mp (List.mem_of_getElem? hj)).2
      have hgive : s.release c = s.endUse c := by
        rw [hb.release_eq, State.giveBack, if_neg hkind]
      ext1
      · rw [hgive]
        rfl
      · refine slots_setTaken h.placement.large_nodup hj hlarge
          (fun d hd => slot_congr (release_blocks_ne s hd)) ?_
        simp only [hgive, State.slot, State.endUse, State.modifyBlock_blocks_self]
  · intro q hd' hq hl'
    refine hl'.keep (fun c hc => ?_) (by rw [hlarge])
    have hqp : q ≠ p := fun hqp => hc.nonnull (hq hqp)
    exact ⟨by rw [release_allBlocks, hc.lookup],
      release_blocks_ne s (h.placement.ne_of_lookup hc.lookup hb.lookup hqp)⟩

/-- **A `deallocate` of what is lent** is a return, or the host has no memory for the free list. -/
theorem deallocate_of_lends (h : Sound held s) {hd : Handle ℕ} (hl : s.Lends p hd)
    (pushBack : Bool) :
    (∃ s', (deallocate pushBack p).run s = (.ok (), s') ∧ Sound held s' ∧ Returns s p hd s' ∧
      s'.calls = s.calls) ∨
    (pushBack = false ∧ ∃ e, (deallocate pushBack p).run s = (.error e, s)) := by
  by_cases hp : p = nullptr
  · subst hp
    rw [hl.eq_nothing]
    exact .inl ⟨s, deallocate_null pushBack s, h, ⟨rfl, fun _ _ _ => id⟩, rfl⟩
  obtain ⟨b, hb⟩ := hl.lent hp
  rcases deallocate_owned pushBack hp hb.lookup hb.inUse (by rw [hb.useCount]; exact Nat.one_pos)
    with hok | ⟨hdenied, herr⟩
  · refine .inl ⟨_, hok, h.release ⟨p, hb.lookup⟩ hb.inUse, .release h hl hb, ?_⟩
    unfold State.release State.giveBack
    split_ifs <;> rfl
  · exact .inr ⟨hdenied, _, herr⟩

end InfiniRT.Pool
