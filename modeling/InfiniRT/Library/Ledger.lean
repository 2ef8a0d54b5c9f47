import InfiniRT.Library.Action
import Mathlib.Data.List.Count
import Mathlib.Logic.Function.Basic

/-!
# Ledgers of live buffers

A `Ledger τ β` holds the live buffers of one allocator: at each address a tag of type `τ`, what the
buffer was allocated with, and a content of type `β`.  The answers of the allocator are part of the
ledger, so a program may meet any sequence of grants and refusals, and addresses may come back once
they are free.  Giving back what is not live, or with another tag, and touching a dead buffer is
undefined behaviour, so a run without a fault has no double free and no stray access.

A `Transfer` says how live memory moves between owners: what is live at the end and what was owned
at the start balance what was live at the start and what is owned at the end, entry by entry.
Proved:

* **`allocate_run`** — an allocation returns a new buffer exactly if the allocator grants the
  request;
* **`deallocate_run`** — giving back a live buffer with its tag is no fault;
* **`Transfer.trans`** — changes of hands compose;
* **`Owned.transfer`** — if every live buffer has one owner, this is so after a change of hands.
-/

namespace InfiniRT.Library

/-- The address of a buffer. -/
abbrev Address := ℕ

/-- What a program may end with instead of a value. -/
inductive Fault
  /-- No memory. -/
  | badAlloc
  /-- The program gave up. -/
  | abort
  /-- The program has no meaning from here on. -/
  | undefined
  deriving DecidableEq, Repr

/-- The live buffers of an allocator, and its answers to the requests to come: an address, or
`none` for no memory.  An answer that names a live buffer counts as no memory. -/
structure Ledger (τ β : Type) where
  buffers : Address → Option (τ × β)
  answers : ℕ → Option Address

namespace Ledger

variable {τ β : Type} {L L' L'' : Ledger τ β} {p q : Address} {tag : τ}
  {content : β} {before after between rest : List (Address × τ)}

/-! ### Operations -/

/-- Write a buffer. -/
def write (L : Ledger τ β) (p : Address) (tag : τ) (content : β) : Ledger τ β :=
  { L with buffers := Function.update L.buffers p (some (tag, content)) }

/-- Drop a buffer. -/
def drop (L : Ledger τ β) (p : Address) : Ledger τ β :=
  { L with buffers := Function.update L.buffers p none }

/-- The next answer was used. -/
def asked (L : Ledger τ β) : Ledger τ β := { L with answers := fun n => L.answers (n + 1) }

/-- Ask for a buffer. -/
def allocate (tag : τ) (content : β) : Action (Ledger τ β) Fault Address := do
  let L ← get
  set L.asked
  match L.answers 0 with
  | some p =>
    if (L.buffers p).isSome then throw .badAlloc
    else do
      modify (·.write p tag content)
      return p
  | none => throw .badAlloc

/-- Give a buffer back; the tag must be the one it was allocated with. -/
def deallocate [DecidableEq τ] (p : Address) (tag : τ) : Action (Ledger τ β) Fault Unit := do
  let L ← get
  match L.buffers p with
  | some (t, _) => if t = tag then modify (·.drop p) else throw .undefined
  | none => throw .undefined

@[simp] theorem write_buffers_self (L : Ledger τ β) (p : Address) (tag : τ) (content : β) :
    (L.write p tag content).buffers p = some (tag, content) := Function.update_self _ _ _

theorem write_buffers_ne (L : Ledger τ β) (tag : τ) (content : β) (h : q ≠ p) :
    (L.write p tag content).buffers q = L.buffers q := Function.update_of_ne h _ _

@[simp] theorem drop_buffers_self (L : Ledger τ β) (p : Address) : (L.drop p).buffers p = none :=
  Function.update_self _ _ _

theorem drop_buffers_ne (L : Ledger τ β) (h : q ≠ p) : (L.drop p).buffers q = L.buffers q :=
  Function.update_of_ne h _ _

@[simp] theorem write_write (L : Ledger τ β) (p : Address) (tag : τ) (content content' : β) :
    (L.write p tag content).write p tag content' = L.write p tag content' := by
  simp only [write, Function.update_idem]

theorem write_self (h : L.buffers p = some (tag, content)) : L.write p tag content = L := by
  simp only [write, ← h, Function.update_eq_self]

@[simp] theorem asked_buffers (L : Ledger τ β) : L.asked.buffers = L.buffers := rfl

/-- The next request is answered with `p`, and `p` is free. -/
def Grants (L : Ledger τ β) (p : Address) : Prop := L.answers 0 = some p ∧ L.buffers p = none

theorem Grants.unique (h : L.Grants p) (h' : L.Grants q) : p = q :=
  Option.some.inj (h.1.symm.trans h'.1)

/-- Every request to come is granted: the answers are free places, and no two are the same. -/
def Granting (L : Ledger τ β) : Prop :=
  ∃ place : ℕ → Address, Function.Injective place ∧
    ∀ n, L.answers n = some (place n) ∧ L.buffers (place n) = none

/-- An allocator that numbers its buffers. -/
example : (⟨fun _ => none, some⟩ : Ledger τ β).Granting :=
  ⟨id, Function.injective_id, fun _ => ⟨rfl, rfl⟩⟩

namespace Granting

theorem of_free (h : L.Granting) (hanswers : L'.answers = L.answers)
    (hfree : ∀ p, L.buffers p = none → L'.buffers p = none) : L'.Granting := by
  obtain ⟨place, hinj, hplace⟩ := h
  exact ⟨place, hinj, fun n => ⟨by rw [hanswers, (hplace n).1], hfree _ (hplace n).2⟩⟩

theorem grants (h : L.Granting) : ∃ p, L.Grants p := by
  obtain ⟨place, _, hplace⟩ := h
  exact ⟨place 0, hplace 0⟩

/-- The request is answered. -/
theorem granted (h : L.Granting) (hp : L.answers 0 = some p) (tag : τ) (content : β) :
    (L.asked.write p tag content).Granting := by
  obtain ⟨place, hinj, hplace⟩ := h
  obtain rfl : place 0 = p := Option.some.inj ((hplace 0).1.symm.trans hp)
  refine ⟨fun n => place (n + 1), fun i j hij => Nat.succ.inj (hinj hij), fun n =>
    ⟨(hplace (n + 1)).1, ?_⟩⟩
  rw [write_buffers_ne _ _ _ fun heq => Nat.succ_ne_zero n (hinj heq)]
  exact (hplace (n + 1)).2

/-- A live buffer is written. -/
theorem written (h : L.Granting) (hp : L.buffers p ≠ none) (tag : τ) (content : β) :
    (L.write p tag content).Granting :=
  h.of_free rfl fun q hq => by
    have hne : q ≠ p := fun hqp => hp (hqp ▸ hq)
    rw [write_buffers_ne _ _ _ hne, hq]

theorem dropped (h : L.Granting) (p : Address) : (L.drop p).Granting :=
  h.of_free rfl fun q hq => by
    rcases eq_or_ne q p with rfl | hne
    · exact drop_buffers_self L q
    · rw [drop_buffers_ne _ hne, hq]

end Granting

/-- A request is answered with a buffer that was not live, or refused. -/
theorem allocate_run (tag : τ) (content : β) (L : Ledger τ β) :
    (∃ p, L.Grants p ∧ (allocate tag content).run L = (.ok p, L.asked.write p tag content)) ∨
    (allocate tag content).run L = (.error .badAlloc, L.asked) ∧ ∀ p, ¬L.Grants p := by
  unfold allocate
  rw [Action.run_bind_ok (Action.run_get L), Action.run_bind_ok (Action.run_set L L.asked)]
  cases hanswer : L.answers 0 with
  | none =>
    refine .inr ⟨rfl, fun q hq => ?_⟩
    rw [hq.1] at hanswer
    cases hanswer
  | some p =>
    dsimp only
    cases hp : L.buffers p with
    | none => exact .inl ⟨p, ⟨hanswer, hp⟩, rfl⟩
    | some b =>
      refine .inr ⟨rfl, fun q hq => ?_⟩
      obtain rfl : q = p := Option.some.inj (hq.1.symm.trans hanswer)
      rw [hq.2] at hp
      cases hp

theorem allocate_spares (h : L.Granting) (tag : τ) (content : β) :
    (allocate tag content).Spares .badAlloc Granting (fun _ _ => True) L := by
  rcases allocate_run tag content L with ⟨p, hp, hrun⟩ | ⟨-, hnot⟩
  · exact .of_ok hrun (h.granted hp.1 tag content) trivial
  · obtain ⟨p, hp⟩ := h.grants
    exact absurd hp (hnot p)

theorem deallocate_spares [DecidableEq τ] (h : L.Granting) (p : Address) (tag : τ) :
    (deallocate p tag).Spares .badAlloc Granting (fun _ _ => True) L := by
  refine .get_bind ?_
  split
  · split
    · exact .modify (h.dropped p) trivial
    · exact .throw h nofun
  · exact .throw h nofun

/-! ### What is live -/

/-- A buffer is live at the address, with the tag. -/
def Live (L : Ledger τ β) (e : Address × τ) : Prop := (L.buffers e.1).map Prod.fst = some e.2

theorem live_iff {e : Address × τ} : L.Live e ↔ ∃ content, L.buffers e.1 = some (e.2, content) := by
  simp [Live, Option.map_eq_some_iff]

theorem Live.of_buffers (h : L.buffers p = some (tag, content)) : L.Live (p, tag) := by
  simp [Live, h]

variable [DecidableEq τ]

instance (L : Ledger τ β) (e : Address × τ) : Decidable (L.Live e) :=
  inferInstanceAs (Decidable (_ = _))

theorem deallocate_run (h : L.Live (p, tag)) : (deallocate p tag).run L = (.ok (), L.drop p) := by
  obtain ⟨content, hp⟩ := live_iff.mp h
  simp only at hp
  unfold deallocate
  rw [Action.run_bind_ok (Action.run_get L)]
  simp [hp]

/-- How often an entry is in the ledger. -/
def entry (L : Ledger τ β) (e : Address × τ) : ℕ := if L.Live e then 1 else 0

theorem entry_eq_of_buffers {e : Address × τ} (h : L'.buffers e.1 = L.buffers e.1) :
    L'.entry e = L.entry e :=
  if_congr (by simp only [Live, h]) rfl rfl

theorem entry_of_buffers (h : L.buffers p = some (tag, content)) (t : τ) :
    L.entry (p, t) = if t = tag then 1 else 0 := by
  simp only [entry, Live, h, Option.map_some, Option.some.injEq, eq_comm]

theorem entry_of_none (h : L.buffers p = none) (t : τ) : L.entry (p, t) = 0 := by
  simp [entry, Live, h]

/-! ### Moving ownership -/

/-- **Live memory changes hands.** Every entry is accounted for, and a buffer that was not owned at
the start is left alone. -/
structure Transfer (L : Ledger τ β) (before : List (Address × τ)) (L' : Ledger τ β)
    (after : List (Address × τ)) : Prop where
  balance : ∀ e, L'.entry e + before.count e = L.entry e + after.count e
  frame : ∀ p b, L.buffers p = some b → (∀ tag, (p, tag) ∉ before) → L'.buffers p = some b

namespace Transfer

theorem of_same (h : L'.buffers = L.buffers) (owned : List (Address × τ)) :
    Transfer L owned L' owned where
  balance e := by rw [entry_eq_of_buffers (congrFun h e.1)]
  frame p b hp _ := by rw [h, hp]

theorem refl (L : Ledger τ β) (owned : List (Address × τ)) : Transfer L owned L owned :=
  of_same rfl owned

theorem trans (h : Transfer L before L' between) (h' : Transfer L' between L'' after) :
    Transfer L before L'' after where
  balance e := by
    have := h.balance e
    have := h'.balance e
    omega
  frame p b hp hnot := by
    have hp' := h.frame p b hp hnot
    refine h'.frame p b hp' fun tag hmem => ?_
    -- the buffer is as it was, so nobody can have come to own it
    have hbalance := h.balance (p, tag)
    have hsame : L'.entry (p, tag) = L.entry (p, tag) :=
      entry_eq_of_buffers (hp'.trans hp.symm)
    have hbefore := List.count_eq_zero_of_not_mem (hnot tag)
    have hbetween := List.count_pos_iff.mpr hmem
    omega

theorem perm {before' after' : List (Address × τ)} (h : Transfer L before L' after)
    (hbefore : before.Perm before') (hafter : after.Perm after') :
    Transfer L before' L' after' where
  balance e := by rw [← hbefore.count_eq, ← hafter.count_eq, h.balance e]
  frame p b hp hnot := h.frame p b hp fun tag hmem => hnot tag (hbefore.mem_iff.mp hmem)

/-- What others own does not matter. -/
theorem extend (h : Transfer L before L' after) (rest : List (Address × τ)) :
    Transfer L (before ++ rest) L' (after ++ rest) where
  balance e := by
    have := h.balance e
    simp only [List.count_append]
    omega
  frame p b hp hnot := h.frame p b hp fun tag hmem => hnot tag (List.mem_append_left _ hmem)

theorem extend_left (h : Transfer L before L' after) (rest : List (Address × τ)) :
    Transfer L (rest ++ before) L' (rest ++ after) :=
  (h.extend rest).perm List.perm_append_comm List.perm_append_comm

/-- A buffer that was not live is owned by whoever asked for it. -/
theorem allocated (hp : L.buffers p = none) (tag : τ) (content : β)
    (owned : List (Address × τ)) :
    Transfer L owned (L.asked.write p tag content) ((p, tag) :: owned) where
  balance e := by
    obtain ⟨q, t⟩ := e
    by_cases hq : q = p
    · subst hq
      rw [entry_of_none hp, entry_of_buffers (write_buffers_self _ _ _ _), List.count_cons]
      by_cases ht : t = tag
      · subst ht
        simp
        omega
      · simp [ht, Ne.symm ht]
    · have hsame : (L.asked.write p tag content).entry (q, t) = L.entry (q, t) :=
        entry_eq_of_buffers (write_buffers_ne L.asked tag content hq)
      rw [hsame, List.count_cons_of_ne (by simpa using fun hpq => absurd hpq.symm hq)]
  frame q b hq _ := by
    rw [write_buffers_ne _ _ _ fun hqp => ?_, asked_buffers, hq]
    rw [hqp, hp] at hq
    cases hq

/-- A buffer given back is owned by nobody. -/
theorem dropped (hp : L.Live (p, tag)) (owned : List (Address × τ)) :
    Transfer L ((p, tag) :: owned) (L.drop p) owned where
  balance e := by
    obtain ⟨content, hbuffer⟩ := live_iff.mp hp
    obtain ⟨q, t⟩ := e
    by_cases hq : q = p
    · subst hq
      rw [entry_of_buffers hbuffer, entry_of_none (drop_buffers_self _ _), List.count_cons]
      by_cases ht : t = tag
      · subst ht
        simp
        omega
      · simp [ht, Ne.symm ht]
    · rw [entry_eq_of_buffers (L := L) (drop_buffers_ne _ hq),
        List.count_cons_of_ne (by simpa using fun hpq => absurd hpq.symm hq)]
  frame q b hq hnot := by
    rw [drop_buffers_ne _ fun hqp => ?_, hq]
    exact hnot tag (hqp ▸ List.mem_cons_self)

/-- An owner writes its buffer. -/
theorem written (hp : L.Live (p, tag)) {owned : List (Address × τ)} (hmem : (p, tag) ∈ owned)
    (content : β) : Transfer L owned (L.write p tag content) owned where
  balance e := by
    obtain ⟨content, hbuffer⟩ := live_iff.mp hp
    obtain ⟨q, t⟩ := e
    by_cases hq : q = p
    · subst hq
      rw [entry_of_buffers hbuffer, entry_of_buffers (write_buffers_self _ _ _ _)]
    · rw [entry_eq_of_buffers (L := L) (write_buffers_ne _ _ _ hq)]
  frame q b hq hnot := by
    rw [write_buffers_ne _ _ _ fun hqp => ?_, hq]
    exact hnot tag (hqp ▸ hmem)

/-- Who owned nothing at the start got what was not live. -/
theorem fresh (h : Transfer L [] L' after) {e : Address × τ} (hmem : e ∈ after) :
    L.buffers e.1 = none := by
  by_contra hlive
  obtain ⟨b, hb⟩ := Option.ne_none_iff_exists'.mp hlive
  have hb' := h.frame e.1 b hb fun _ => List.not_mem_nil
  have hbalance := h.balance e
  have hsame : L'.entry e = L.entry e := entry_eq_of_buffers (hb'.trans hb.symm)
  have hcount := List.count_pos_iff.mpr hmem
  rw [List.count_nil] at hbalance
  omega

/-- Owning nothing at the start and at the end leaves every buffer as it was. -/
theorem buffers_eq (h : Transfer L [] L' []) : L'.buffers = L.buffers := by
  funext p
  cases hp : L.buffers p with
  | some b => exact h.frame p b hp fun _ => List.not_mem_nil
  | none =>
    by_contra hlive
    obtain ⟨⟨t, content⟩, hb⟩ := Option.ne_none_iff_exists'.mp hlive
    have hbalance := h.balance (p, t)
    rw [entry_of_none hp, entry_of_buffers hb, if_pos rfl, List.count_nil] at hbalance
    omega

end Transfer

/-! ### Owners of a whole ledger -/

/-- Every live buffer has exactly one owner, who knows its tag. -/
def Owned (L : Ledger τ β) (owners : List (Address × τ)) : Prop :=
  ∀ e, L.entry e = owners.count e

namespace Owned

variable {owners : List (Address × τ)}

theorem perm {owners' : List (Address × τ)} (h : L.Owned owners) (hp : owners.Perm owners') :
    L.Owned owners' := fun e => by rw [h e, hp.count_eq]

theorem live (h : L.Owned owners) {e : Address × τ} (he : e ∈ owners) : L.Live e := by
  by_contra hdead
  have hcount := List.count_pos_iff.mpr he
  rw [← h e, entry, if_neg hdead] at hcount
  exact Nat.lt_irrefl 0 hcount

theorem mem (h : L.Owned owners) {e : Address × τ} (he : L.Live e) : e ∈ owners := by
  rw [← List.count_pos_iff, ← h e, entry, if_pos he]
  exact Nat.one_pos

/-- Some of the owners exchange buffers with the allocator. -/
theorem transfer (h : L.Owned (before ++ rest)) (ht : Transfer L before L' after) :
    L'.Owned (after ++ rest) := fun e => by
  have hbefore := h e
  have hbalance := ht.balance e
  rw [List.count_append] at hbefore ⊢
  omega

/-- What nobody owns is not live. -/
theorem buffers_eq (h : L.Owned []) : L.buffers = fun _ => none := by
  funext p
  cases hp : L.buffers p with
  | none => rfl
  | some b => exact absurd (h.mem (Live.of_buffers (p := p) hp)) List.not_mem_nil

/-- Two owners do not share a buffer. -/
theorem disjoint (h : L.Owned (before ++ rest)) {e : Address × τ} (he : e ∈ rest) (t : τ) :
    (e.1, t) ∉ before := by
  intro hmem
  have hlive := h.live (List.mem_append_right before he)
  have hlive' := h.live (List.mem_append_left rest hmem)
  obtain rfl : t = e.2 := Option.some.inj (hlive'.symm.trans hlive)
  have hcount := h e
  rw [List.count_append, entry, if_pos hlive] at hcount
  have := List.count_pos_iff.mpr he
  have : 0 < before.count e := List.count_pos_iff.mpr hmem
  omega

/-- The buffers of the other owners stay as they are. -/
theorem frame (h : L.Owned (before ++ rest)) (ht : Transfer L before L' after)
    {e : Address × τ} (he : e ∈ rest) : L'.buffers e.1 = L.buffers e.1 := by
  obtain ⟨content, hbuffer⟩ := live_iff.mp (h.live (List.mem_append_right before he))
  rw [hbuffer, ht.frame e.1 _ hbuffer fun t => h.disjoint he t]

end Owned

end Ledger

end InfiniRT.Library
