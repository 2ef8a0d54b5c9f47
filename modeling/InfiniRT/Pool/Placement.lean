import InfiniRT.Pool.OperationSteps

/-!
# Where each block is

`Placement` says where a tracked block stands: under its own address in `all_blocks_`, and exactly
once in the one list its kind and its use allow.  A block has five ways to move: it is taken into
use, given back, enrolled, removed, or stays where it is while other fields of it change.  Each way
has one lemma here, stated on the counts of the lists, and each operation is one of the five.
Proved:

* **`acquire`** — a block is taken into use;
* **`giveUp`** — a block is given back;
* **`enroll`** — a new block is tracked;
* **`remove`** — a block is no longer tracked;
* **`stay`** — a block stays where it is.
-/

namespace InfiniRT.Pool

open InfiniRT.Library

/-- A tracked block that waits in the free list of class `i`. -/
def State.Idle (s : State) (i : ℕ) (b : BlockId) : Prop :=
  s.Tracked b ∧ (s.blocks b).kind = .SizeClass ∧ (s.blocks b).classIndex = i ∧
    (s.blocks b).inUse = false

/-- A tracked large or exact block. -/
def State.Bulky (s : State) (b : BlockId) : Prop := s.Tracked b ∧ (s.blocks b).kind ≠ .SizeClass

instance (s : State) (i : ℕ) (b : BlockId) : Decidable (s.Idle i b) :=
  inferInstanceAs (Decidable (_ ∧ _ ∧ _ ∧ _))

instance (s : State) (b : BlockId) : Decidable (s.Bulky b) :=
  inferInstanceAs (Decidable (_ ∧ _))

/-- **The placement invariant.** -/
structure Placement (s : State) : Prop where
  classes : s.sizeClasses.map (·.blockSize) = classSizes
  address : ∀ p b, s.allBlocks.lookup p = some b → (s.blocks b).ptr = p
  owners : ∀ b, s.Tracked b → ((s.blocks b).inUse = true ↔ 0 < (s.blocks b).useCount)
  classSize : ∀ b, s.Tracked b → (s.blocks b).kind = .SizeClass →
    classSizes[(s.blocks b).classIndex]? = some (s.blocks b).size
  free : ∀ i b, (s.freeBlocks i).count b = if s.Idle i b then 1 else 0
  large : ∀ b, s.largeBlocks.count b = if s.Bulky b then 1 else 0

namespace Placement

variable {s s' : State} {b c : BlockId} {i : ℕ} {p : Ptr}

/-! ### Reading the invariant -/

theorem lookup_ptr (h : Placement s) (hb : s.Tracked b) :
    s.allBlocks.lookup (s.blocks b).ptr = some b := by
  obtain ⟨p, hp⟩ := hb
  rw [h.address p b hp, hp]

theorem mem_free (h : Placement s) : b ∈ s.freeBlocks i ↔ s.Idle i b := by
  rw [← List.count_pos_iff, h.free]
  split <;> simp [*]

theorem mem_large (h : Placement s) : b ∈ s.largeBlocks ↔ s.Bulky b := by
  rw [← List.count_pos_iff, h.large]
  split <;> simp [*]

theorem tracked_of_trimmable (h : Placement s) (hb : s.Trimmable b) : s.Tracked b := by
  rcases hb.2 with ⟨i, hmem⟩ | ⟨hmem, -⟩
  · exact (h.mem_free.mp hmem).1
  · exact (h.mem_large.mp hmem).1

theorem free_nodup (h : Placement s) (i : ℕ) : (s.freeBlocks i).Nodup := by
  rw [List.nodup_iff_count_le_one]
  intro b
  rw [h.free]
  split <;> simp

theorem large_nodup (h : Placement s) : s.largeBlocks.Nodup := by
  rw [List.nodup_iff_count_le_one]
  intro b
  rw [h.large]
  split <;> simp

theorem length_sizeClasses (h : Placement s) : s.sizeClasses.length = classSizes.length := by
  rw [← h.classes, List.length_map]

theorem classIndex_lt (h : Placement s) (hb : s.Tracked b)
    (hkind : (s.blocks b).kind = .SizeClass) :
    (s.blocks b).classIndex < s.sizeClasses.length := by
  rw [h.length_sizeClasses]
  exact (List.getElem?_eq_some_iff.mp (h.classSize b hb hkind)).1

/-- Two addresses do not share a block. -/
theorem ne_of_lookup (h : Placement s) (hp : s.allBlocks.lookup p = some b)
    {q : Ptr} (hq : s.allBlocks.lookup q = some c) (hpq : p ≠ q) : b ≠ c := by
  rintro rfl
  exact hpq ((h.address p b hp).symm.trans (h.address q b hq))

/-- A block without owners. -/
theorem useCount_eq_zero (h : Placement s) (hb : s.Tracked b)
    (hidle : (s.blocks b).inUse = false) : (s.blocks b).useCount = 0 := by
  have := (h.owners b hb).mpr
  rw [hidle] at this
  by_contra hne
  exact absurd (this (Nat.pos_of_ne_zero hne)) (by simp)

/-- What is left of `all_blocks_` when a block is erased. -/
theorem lookup_of_erase (h : Placement s)
    (hall : s'.allBlocks = s.allBlocks.erase (s.blocks b).ptr)
    (hp : s'.allBlocks.lookup p = some c) :
    s.allBlocks.lookup p = some c ∧ c ≠ b := by
  rw [hall] at hp
  by_cases hpb : p = (s.blocks b).ptr
  · rw [hpb, AList.lookup_erase] at hp
    cases hp
  · rw [AList.lookup_erase_ne hpb] at hp
    exact ⟨hp, fun hcb => hpb (by rw [← hcb, h.address p c hp])⟩

theorem tracked_erase (h : Placement s) (hb : s.Tracked b)
    (hall : s'.allBlocks = s.allBlocks.erase (s.blocks b).ptr) (c : BlockId) :
    s'.Tracked c ↔ s.Tracked c ∧ c ≠ b := by
  constructor
  · rintro ⟨q, hq⟩
    exact ⟨⟨q, (h.lookup_of_erase hall hq).1⟩, (h.lookup_of_erase hall hq).2⟩
  · rintro ⟨⟨q, hq⟩, hcb⟩
    refine ⟨q, ?_⟩
    rw [hall, AList.lookup_erase_ne, hq]
    intro hqp
    rw [hqp, h.lookup_ptr hb] at hq
    exact hcb (Option.some.inj hq).symm

/-! ### The five ways to move -/

/-- The fields of two blocks that placement reads agree. -/
structure SameField (x y : Block) : Prop where
  ptr : x.ptr = y.ptr
  size : x.size = y.size
  kind : x.kind = y.kind
  classIndex : x.classIndex = y.classIndex
  inUse : x.inUse = y.inUse
  useCount : 0 < x.useCount ↔ 0 < y.useCount

theorem SameField.refl (x : Block) : SameField x x := ⟨rfl, rfl, rfl, rfl, rfl, .rfl⟩

theorem SameField.trans {x y z : Block} (h : SameField x y) (h' : SameField y z) :
    SameField x z :=
  ⟨h.ptr.trans h'.ptr, h.size.trans h'.size, h.kind.trans h'.kind,
    h.classIndex.trans h'.classIndex, h.inUse.trans h'.inUse, h.useCount.trans h'.useCount⟩

/-- A block that stays keeps its place whatever its other fields do. -/
theorem stay (h : Placement s) (hall : s'.allBlocks = s.allBlocks)
    (hclasses : s'.sizeClasses = s.sizeClasses) (hlarge : s'.largeBlocks = s.largeBlocks)
    (hfields : ∀ b, s.Tracked b → SameField (s'.blocks b) (s.blocks b)) : Placement s' := by
  have htracked : ∀ b, s'.Tracked b ↔ s.Tracked b := fun b => by simp only [State.Tracked, hall]
  have hidle : ∀ i b, s'.Idle i b ↔ s.Idle i b := by
    intro i b
    by_cases hb : s.Tracked b
    · obtain ⟨-, -, hkind, hclass, huse, -⟩ := hfields b hb
      simp only [State.Idle, htracked, hkind, hclass, huse]
    · simp only [State.Idle, htracked, hb, false_and]
  have hbulky : ∀ b, s'.Bulky b ↔ s.Bulky b := by
    intro b
    by_cases hb : s.Tracked b
    · simp only [State.Bulky, htracked, (hfields b hb).kind]
    · simp only [State.Bulky, htracked, hb, false_and]
  refine ⟨by rw [hclasses, h.classes], ?_, ?_, ?_, ?_, ?_⟩
  · intro p b hp
    rw [hall] at hp
    rw [(hfields b ⟨p, hp⟩).ptr, h.address p b hp]
  · intro b hb
    have hb := (htracked b).mp hb
    rw [(hfields b hb).inUse, (hfields b hb).useCount, h.owners b hb]
  · intro b hb hkind
    have hb := (htracked b).mp hb
    rw [(hfields b hb).classIndex, (hfields b hb).size]
    exact h.classSize b hb ((hfields b hb).kind ▸ hkind)
  · intro i b
    rw [show s'.freeBlocks i = s.freeBlocks i by simp only [State.freeBlocks, hclasses], h.free]
    exact if_congr (hidle i b).symm rfl rfl
  · intro b
    rw [hlarge, h.large]
    exact if_congr (hbulky b).symm rfl rfl

/-- A tracked block is taken into use: it leaves the free lists. -/
theorem acquire (h : Placement s) (hall : s'.allBlocks = s.allBlocks)
    (hclasses : s'.sizeClasses.map (·.blockSize) = s.sizeClasses.map (·.blockSize))
    (hfree : ∀ i c, (s'.freeBlocks i).count c = if c = b then 0 else (s.freeBlocks i).count c)
    (hlarge : s'.largeBlocks = s.largeBlocks)
    (hothers : ∀ c, c ≠ b → s.Tracked c → SameField (s'.blocks c) (s.blocks c))
    (hptr : (s'.blocks b).ptr = (s.blocks b).ptr) (hsize : (s'.blocks b).size = (s.blocks b).size)
    (hkind : (s'.blocks b).kind = (s.blocks b).kind)
    (hclass : (s'.blocks b).classIndex = (s.blocks b).classIndex)
    (huse : (s'.blocks b).inUse = true) (howner : 0 < (s'.blocks b).useCount) :
    Placement s' := by
  have htracked : ∀ c, s'.Tracked c ↔ s.Tracked c := fun c => by simp only [State.Tracked, hall]
  have hkinds : ∀ c, s.Tracked c → (s'.blocks c).kind = (s.blocks c).kind := by
    intro c hc
    by_cases hcb : c = b
    · rw [hcb, hkind]
    · exact (hothers c hcb hc).kind
  refine ⟨by rw [hclasses, h.classes], ?_, ?_, ?_, ?_, ?_⟩
  · intro p c hp
    rw [hall] at hp
    by_cases hcb : c = b
    · rw [hcb, hptr, ← hcb, h.address p c hp]
    · rw [(hothers c hcb ⟨p, hp⟩).ptr, h.address p c hp]
  · intro c hc
    by_cases hcb : c = b
    · simp [hcb, huse, howner]
    · have hc := (htracked c).mp hc
      rw [(hothers c hcb hc).inUse, (hothers c hcb hc).useCount, h.owners c hc]
  · intro c hc hk
    have hc := (htracked c).mp hc
    rw [hkinds c hc] at hk
    by_cases hcb : c = b
    · rw [hcb, hclass, hsize, ← hcb]
      exact h.classSize c hc hk
    · rw [(hothers c hcb hc).classIndex, (hothers c hcb hc).size]
      exact h.classSize c hc hk
  · intro i c
    rw [hfree]
    by_cases hcb : c = b
    · simp [hcb, State.Idle, huse]
    · rw [if_neg hcb, h.free]
      refine if_congr ?_ rfl rfl
      by_cases hc : s.Tracked c
      · obtain ⟨-, -, hk, hi, hu, -⟩ := hothers c hcb hc
        simp only [State.Idle, htracked, hk, hi, hu]
      · simp only [State.Idle, htracked, hc, false_and]
  · intro c
    rw [hlarge, h.large]
    refine if_congr ?_ rfl rfl
    by_cases hc : s.Tracked c
    · simp only [State.Bulky, htracked, hkinds c hc]
    · simp only [State.Bulky, htracked, hc, false_and]

/-- A block in use is given back: it joins the free list of its class, if it has one. -/
theorem giveUp (h : Placement s) (hb : s.Tracked b) (hinUse : (s.blocks b).inUse = true)
    (hall : s'.allBlocks = s.allBlocks)
    (hclasses : s'.sizeClasses.map (·.blockSize) = s.sizeClasses.map (·.blockSize))
    (hfree : ∀ i c, (s'.freeBlocks i).count c = (s.freeBlocks i).count c +
      if c = b ∧ (s.blocks b).kind = .SizeClass ∧ (s.blocks b).classIndex = i then 1 else 0)
    (hlarge : s'.largeBlocks = s.largeBlocks)
    (hothers : ∀ c, c ≠ b → s'.blocks c = s.blocks c)
    (hself : s'.blocks b = { s.blocks b with useCount := 0, inUse := false }) :
    Placement s' := by
  have htracked : ∀ c, s'.Tracked c ↔ s.Tracked c := fun c => by simp only [State.Tracked, hall]
  refine ⟨by rw [hclasses, h.classes], ?_, ?_, ?_, ?_, ?_⟩
  · intro p c hp
    rw [hall] at hp
    by_cases hcb : c = b
    · rw [hcb, hself, ← hcb]
      exact h.address p c hp
    · rw [hothers c hcb, h.address p c hp]
  · intro c hc
    by_cases hcb : c = b
    · simp [hcb, hself]
    · rw [hothers c hcb]
      exact h.owners c ((htracked c).mp hc)
  · intro c hc hk
    have hc := (htracked c).mp hc
    by_cases hcb : c = b
    · rw [hcb, hself] at hk ⊢
      exact h.classSize b hb hk
    · rw [hothers c hcb] at hk ⊢
      exact h.classSize c hc hk
  · intro i c
    rw [hfree, h.free]
    by_cases hcb : c = b
    · subst hcb
      simp [State.Idle, htracked, hself, hinUse, hb]
    · simp only [hcb, false_and, if_false, Nat.add_zero]
      exact if_congr (by simp only [State.Idle, htracked, hothers c hcb]) rfl rfl
  · intro c
    rw [hlarge, h.large]
    refine if_congr ?_ rfl rfl
    by_cases hcb : c = b
    · subst hcb
      simp only [State.Bulky, htracked, hself]
    · simp only [State.Bulky, htracked, hothers c hcb]

/-- A new block in use is enrolled at a new address. -/
theorem enroll (h : Placement s) (hb : ¬ s.Tracked b) (hp : p ∉ s.allBlocks)
    (hall : s'.allBlocks = s.allBlocks.insert p b)
    (hclasses : s'.sizeClasses = s.sizeClasses)
    (hlarge : ∀ c, s'.largeBlocks.count c = s.largeBlocks.count c +
      if c = b ∧ (s'.blocks b).kind ≠ .SizeClass then 1 else 0)
    (hothers : ∀ c, c ≠ b → SameField (s'.blocks c) (s.blocks c))
    (hptr : (s'.blocks b).ptr = p) (huse : (s'.blocks b).inUse = true)
    (howner : 0 < (s'.blocks b).useCount)
    (hsize : (s'.blocks b).kind = .SizeClass →
      classSizes[(s'.blocks b).classIndex]? = some (s'.blocks b).size) : Placement s' := by
  have htracked := tracked_insert hp hall
  refine ⟨by rw [hclasses, h.classes], ?_, ?_, ?_, ?_, ?_⟩
  · intro q c hq
    rw [hall] at hq
    by_cases hqp : q = p
    · subst hqp
      rw [AList.lookup_insert] at hq
      rw [← Option.some.inj hq, hptr]
    · rw [AList.lookup_insert_ne hqp] at hq
      have hcb : c ≠ b := fun hcb => hb ⟨q, hcb ▸ hq⟩
      rw [(hothers c hcb).ptr, h.address q c hq]
  · intro c hc
    by_cases hcb : c = b
    · simp [hcb, huse, howner]
    · have hc : s.Tracked c := ((htracked c).mp hc).resolve_left hcb
      rw [(hothers c hcb).inUse, (hothers c hcb).useCount, h.owners c hc]
  · intro c hc hk
    by_cases hcb : c = b
    · rw [hcb] at hk ⊢
      exact hsize hk
    · have hc : s.Tracked c := ((htracked c).mp hc).resolve_left hcb
      rw [(hothers c hcb).classIndex, (hothers c hcb).size]
      exact h.classSize c hc ((hothers c hcb).kind ▸ hk)
  · intro i c
    rw [show s'.freeBlocks i = s.freeBlocks i by simp only [State.freeBlocks, hclasses], h.free]
    by_cases hcb : c = b
    · subst hcb
      simp [State.Idle, hb, huse]
    · obtain ⟨-, -, hk, hi, hu, -⟩ := hothers c hcb
      exact if_congr (by simp only [State.Idle, htracked, hcb, false_or, hk, hi, hu]) rfl rfl
  · intro c
    rw [hlarge, h.large]
    by_cases hcb : c = b
    · subst hcb
      simp [State.Bulky, htracked, hb]
    · simp only [hcb, false_and, if_false, Nat.add_zero]
      refine if_congr ?_ rfl rfl
      simp only [State.Bulky, htracked, hcb, false_or, (hothers c hcb).kind]

/-- An idle block is removed from `all_blocks_` and from its list. -/
theorem remove (h : Placement s) (hb : s.Tracked b)
    (hall : s'.allBlocks = s.allBlocks.erase (s.blocks b).ptr)
    (hclasses : s'.sizeClasses.map (·.blockSize) = s.sizeClasses.map (·.blockSize))
    (hfree : ∀ i c, (s'.freeBlocks i).count c = if c = b then 0 else (s.freeBlocks i).count c)
    (hlarge : ∀ c, s'.largeBlocks.count c = if c = b then 0 else s.largeBlocks.count c)
    (hblocks : s'.blocks = s.blocks) : Placement s' := by
  have htracked := h.tracked_erase hb hall
  refine ⟨by rw [hclasses, h.classes], ?_, ?_, ?_, ?_, ?_⟩
  · intro q c hq
    rw [hblocks]
    exact h.address q c (h.lookup_of_erase hall hq).1
  · intro c hc
    rw [hblocks]
    exact h.owners c ((htracked c).mp hc).1
  · intro c hc hk
    rw [hblocks] at hk ⊢
    exact h.classSize c ((htracked c).mp hc).1 hk
  · intro i c
    rw [hfree, h.free]
    by_cases hcb : c = b
    · simp [State.Idle, htracked, hcb]
    · rw [if_neg hcb]
      refine if_congr ?_ rfl rfl
      simp only [State.Idle, htracked, hblocks, ne_eq, hcb, not_false_eq_true, and_true]
  · intro c
    rw [hlarge, h.large]
    by_cases hcb : c = b
    · simp [State.Bulky, htracked, hcb]
    · rw [if_neg hcb]
      refine if_congr ?_ rfl rfl
      simp only [State.Bulky, htracked, hblocks, ne_eq, hcb, not_false_eq_true, and_true]

end Placement

end InfiniRT.Pool
