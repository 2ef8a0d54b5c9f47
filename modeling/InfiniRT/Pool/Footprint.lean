import InfiniRT.Pool.Requests
import Mathlib.Data.Finset.Card

/-!
# How much memory the pool keeps

The blocks of one size class serve each other's requests, and so do the exact blocks of one size: a
`Group`.  The pool makes a block of a group only if every block it has there is in use, and it gives
blocks back only when it trims.  So it never has more blocks of a group than were in use at once at
some moment of the run.  Large blocks are no group: a request may find every idle one too small.
Proved:

* **`members_step`** — the pool gets one more block of a group only when all it has are in use;
* **`footprint_bounded`** — it never has more than were in use at once at some moment.
-/

namespace InfiniRT.Pool

open InfiniRT.Library

/-- Blocks that serve the same requests. -/
inductive Group
  | sizeClass (i : ℕ)
  | exact (size : ℕ)
  deriving DecidableEq, Repr

/-- The block belongs to the group. -/
def Group.Has : Group → Block → Prop
  | .sizeClass i, blk => blk.kind = .SizeClass ∧ blk.classIndex = i
  | .exact size, blk => blk.kind = .Exact ∧ blk.size = size

instance : (g : Group) → (blk : Block) → Decidable (g.Has blk)
  | .sizeClass _, _ => inferInstanceAs (Decidable (_ ∧ _))
  | .exact _, _ => inferInstanceAs (Decidable (_ ∧ _))

/-- The tracked blocks of a group. -/
def State.members (s : State) (g : Group) : Finset BlockId :=
  (s.allBlocks.entries.map (·.2)).toFinset.filter fun b => g.Has (s.blocks b)

/-- Those of them that are in use. -/
def State.busy (s : State) (g : Group) : Finset BlockId :=
  (s.members g).filter fun b => (s.blocks b).inUse = true

variable {w w' : World} {e : Event} {o : Outcome} {x : Event × Outcome} {s s' : State} {g : Group}
  {b c : BlockId} {p : Ptr} {t : ThreadId} {held : List BlockId} {ans : AllocAnswer} {size : ℕ}
  {isExact : Bool} {blk blk' : Block} {trace : List (Event × Outcome)}

theorem mem_members : b ∈ s.members g ↔ s.Tracked b ∧ g.Has (s.blocks b) := by
  rw [State.members, Finset.mem_filter, List.mem_toFinset, s.tracked_iff_mem_entries]

theorem Group.Has.sameLife (h : g.Has blk') (hsame : SameLife blk blk') : g.Has blk := by
  cases g with
  | sizeClass i => exact ⟨hsame.kind ▸ h.1, hsame.classIndex ▸ h.2⟩
  | exact size => exact ⟨hsame.kind ▸ h.1, hsame.size ▸ h.2⟩

/-- The group is exhausted: the pool has no idle block of it. -/
def State.Exhausted (s : State) (g : Group) : Prop := ∀ b ∈ s.members g, (s.blocks b).inUse = true

/-- A class without an idle block in its free list is exhausted. -/
theorem exhausted_of_class {i : ℕ} (h : Placement s)
    (hfind : (s.freeBlocks i).find? (fun c => !(s.blocks c).inUse) = none) :
    s.Exhausted (.sizeClass i) := by
  intro b hb
  obtain ⟨htracked, hkind, hindex⟩ := mem_members.mp hb
  by_contra huse
  have hidle : s.Idle i b := ⟨htracked, hkind, hindex, Bool.eq_false_of_not_eq_true huse⟩
  have hnot := List.find?_eq_none.mp hfind b (h.mem_free.mpr hidle)
  rw [hidle.2.2.2] at hnot
  exact hnot rfl

/-- So is a group of exact blocks of which none was found. -/
theorem exhausted_of_large (h : Placement s) {n : ℕ}
    (hfind : s.largeBlocks.find? (fun c => fitsLarge n true (s.blocks c)) = none) :
    s.Exhausted (.exact n) := by
  intro b hb
  obtain ⟨htracked, hkind, hsize⟩ := mem_members.mp hb
  by_contra huse
  have hbulky : s.Bulky b := ⟨htracked, by rw [hkind]; decide⟩
  refine List.find?_eq_none.mp hfind b (h.mem_large.mpr hbulky) ?_
  simp [fitsLarge, requestKind, Bool.eq_false_of_not_eq_true huse, hkind, hsize]

/-- **The pool makes a block** only for an exhausted group. -/
theorem Allocated.exhausted (h : Placement s) (hs : Allocated t ans size isExact s p s')
    (hnew : s.allBlocks.lookup p = none) (hb : s'.allBlocks.lookup p = some b)
    (hg : g.Has (s'.blocks b)) (hborn : Newborn size isExact s b s') : s.Exhausted g := by
  cases hs with
  | reuseClass i c hclass hfind =>
    rw [h.lookup_ptr (h.mem_free.mp (List.mem_of_find?_eq_some hfind)).1] at hnew
    cases hnew
  | reuseLarge c hclass hfind =>
    rw [h.lookup_ptr (h.mem_large.mp (List.mem_of_find?_eq_some hfind)).1] at hnew
    cases hnew
  | growClass i c hclass hfind hblock hstatus hgrow =>
    rcases hborn.kind with ⟨hkind, hclass', -⟩ | ⟨hclass', -⟩
    · have hindex := Option.some.inj (hclass.symm.trans hclass')
      cases g with
      | sizeClass j =>
        rw [← hg.2, ← hindex]
        exact exhausted_of_class h hfind
      | exact n => cases hkind.symm.trans hg.1
    · cases hclass.symm.trans hclass'
  | growLarge c hclass hfind hblock hstatus hgrow =>
    rcases hborn.kind with ⟨-, hclass', -⟩ | ⟨-, hkind, hsize⟩
    · cases hclass.symm.trans hclass'
    · cases g with
      | sizeClass j =>
        have hsame := hkind.symm.trans hg.1
        cases isExact <;> cases hsame
      | exact n =>
        have hsame := hkind.symm.trans hg.1
        rw [← hg.2, hsize]
        cases isExact with
        | true => exact exhausted_of_large h hfind
        | false => cases hsame

/-! ### Steps and runs -/

/-- A block that an event made: the group was exhausted, the block is in use, and the others are as
they were. -/
theorem Effect.exhausted (h : Invariant w) (henabled : w.Enabled e) (he : Effect w e o w')
    (hp : p ≠ nullptr) (hnew : w.state.allBlocks.lookup p = none)
    (hb : w'.state.allBlocks.lookup p = some b) (hg : g.Has (w'.state.blocks b)) :
    w.state.Exhausted g ∧ (w'.state.blocks b).inUse = true ∧
      ∀ c ≠ b, w'.state.blocks c = w.state.blocks c := by
  have hsound := h.sound (h.closed_of_enabled henabled)
  cases he.life h henabled hp hb with
  | on hold =>
    rw [hnew] at hold
    cases hold
  | born _ hgranted _ _ =>
    cases he with
    | @allocated e t size isExact ans q s' hreq hs =>
      obtain rfl : q = p := by
        rw [grantedTo_of_requests hreq] at hgranted
        by_contra hqp
        rw [if_neg hqp] at hgranted
        cases hgranted
      obtain ⟨c, hsupplied⟩ := hs.supplied hsound (hreq.answers henabled).2.fresh
      obtain rfl := Option.some.inj (hsupplied.served.lookup.symm.trans hb)
      rcases hsupplied.origin with ⟨hold, -⟩ | ⟨-, -, -, hborn⟩
      · rw [hnew] at hold
        cases hold
      · exact ⟨hs.exhausted hsound.placement hnew hb hg hborn, hsupplied.served.inUse,
          hsupplied.served.blocks_ne⟩
    | null => exact absurd hgranted (by rw [grantedTo, if_neg hp.symm]; simp)
    | failed => exact absurd hgranted (by rw [grantedTo_error]; simp)
    | rejected => exact absurd hgranted (by rw [grantedTo_error]; simp)
    | _ => cases hgranted

/-- **One step**: the pool has no more blocks of the group than before, or all it has are in use. -/
theorem members_step (h : Invariant w) (hstep : Step w x w') :
    (w'.state.members g).card ≤ (w.state.members g).card ∨
      w'.state.busy g = w'.state.members g := by
  obtain ⟨e, o⟩ := x
  have hinv' := h.step hstep
  have heffect := h.effect_of_step hstep
  by_cases hborn : ∃ p b, w.state.allBlocks.lookup p = none ∧
      w'.state.allBlocks.lookup p = some b ∧ g.Has (w'.state.blocks b)
  · right
    obtain ⟨p, b, hnew, hb, hg⟩ := hborn
    obtain ⟨hexhausted, huse, hothers⟩ :=
      heffect.exhausted h hstep.1 (hinv'.ne_nullptr hb) hnew hb hg
    refine Finset.filter_true_of_mem fun c hc => ?_
    by_cases hcb : c = b
    · rw [hcb, huse]
    · obtain ⟨⟨q, hq⟩, hgc⟩ := mem_members.mp hc
      rw [hothers c hcb] at hgc ⊢
      cases heffect.life h hstep.1 (hinv'.ne_nullptr hq) hq with
      | on hold => exact hexhausted c (mem_members.mpr ⟨⟨q, hold⟩, hgc⟩)
      | born hnewc =>
        have hmember := mem_members.mp hc
        exact (heffect.exhausted h hstep.1 (hinv'.ne_nullptr hq) hnewc hq hmember.2).2.1 ▸
          congrArg Block.inUse (hothers c hcb).symm
  · left
    refine Finset.card_le_card fun b hb => ?_
    obtain ⟨⟨p, hp⟩, hg⟩ := mem_members.mp hb
    cases heffect.life h hstep.1 (hinv'.ne_nullptr hp) hp with
    | on hold hsame => exact mem_members.mpr ⟨⟨p, hold⟩, hg.sameLife hsame⟩
    | born hnew => exact absurd ⟨p, b, hnew, hp, hg⟩ hborn

/-- **The pool keeps no more than was needed at once.**  In every run and for every group there was
a moment at which as many blocks of the group were in use as the pool has of it now. -/
theorem footprint_bounded {stream : Option Stream} {isNvidia : Bool}
    (hrun : Run Step (World.initial stream isNvidia) trace w) (g : Group) :
    ∃ earlier u, earlier <+: trace ∧ Run Step (World.initial stream isNvidia) earlier u ∧
      (w.state.members g).card ≤ (u.state.busy g).card := by
  induction hrun with
  | nil => exact ⟨[], _, List.nil_prefix, .nil, Nat.le_refl 0⟩
  | snoc hrun hlast ih =>
    have hinv := invariant_of_run ⟨stream, isNvidia, hrun⟩
    rcases members_step (g := g) hinv hlast with hle | hall
    · obtain ⟨earlier, u, hinit, hrun', hcard⟩ := ih
      exact ⟨earlier, u, hinit.trans (List.prefix_append _ _), hrun', hle.trans hcard⟩
    · exact ⟨_, _, List.prefix_rfl, hrun.snoc hlast, by rw [hall]⟩

theorem footprint_bounded_of_assorted : ∃ earlier u,
    earlier <+: ((World.initial (some 5) true).runEvents
      [.allocateExact 1 100 (.granting 1 4096), .allocate 1 100 (.granting 2 8192),
        .deallocate 1 8192 true]).2 ∧ Run Step (World.initial (some 5) true) earlier u ∧
      (assortedPool.state.members (.sizeClass 0)).card ≤ (u.state.busy (.sizeClass 0)).card :=
  footprint_bounded (World.run_runEvents (by decide)) (.sizeClass 0)

end InfiniRT.Pool
