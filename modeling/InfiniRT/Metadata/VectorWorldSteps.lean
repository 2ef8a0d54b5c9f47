import InfiniRT.Metadata.VectorModel

/-!
# What every call does

`Performs` is the outcome of a call: it returns and the world advances to the lists the model says,
or there is no memory and nothing changed.  A call that does not ask for memory `Returns`.  There is
one lemma for the calls that touch one vector, one for constructions and one for moves between two
vectors; `perform_run` puts them together.  Proved:

* **`perform_returns`** — a call that needs no new array does what the list model says;
* **`perform_run`** — any call does so, or there is no memory and nothing changed;
* **`sound_of_run`** — in a whole run the world goes where the lists go.
-/

namespace InfiniRT.Metadata

open InfiniRT.Library
open InfiniRT.Library.Ledger (Transfer)
open SmallVector (Holds Attempts Succeeds)

variable {T : Type} {c : Config}

namespace VectorWorld

variable {outside : List (Address × ℕ)} {w w' w'' : VectorWorld T c} {lists lists' : Lists T}
  {o other : ObjectId} {v v' u u' : SmallVector T c} {l : List T} {L : ArrayHeap T}

/-- The call returns, and the world got to the lists that belong to what it returns. -/
def Returns {α : Type} (outside : List (Address × ℕ)) (x : WorldAction T c α) (w : VectorWorld T c)
    (post : α → Lists T) : Prop :=
  ∃ a w', x.run w = (.ok a, w') ∧ Advances outside w w' (post a)

/-- The call returns, and the world got to the lists that belong to what it returns; or there was no
memory and nothing changed. -/
def Performs {α : Type} (outside : List (Address × ℕ)) (x : WorldAction T c α)
    (w : VectorWorld T c) (post : α → Lists T) : Prop :=
  (∃ a w', x.run w = (.ok a, w') ∧ Advances outside w w' (post a)) ∨
    ∃ w', x.run w = (.error .badAlloc, w') ∧ Unchanged w w'

theorem Sound.advances (h : Sound outside w lists) : Advances outside w w lists :=
  ⟨h, .refl _ _⟩

theorem Advances.trans (h : Advances outside w w' lists) (h' : Advances outside w' w'' lists') :
    Advances outside w w'' lists' :=
  ⟨h'.sound, h.transfer.trans h'.transfer⟩

theorem Returns.of_ok {α : Type} {x : WorldAction T c α} {a : α} {post : α → Lists T}
    (h : Advances outside w w' lists') (hpost : post a = lists') (hrun : x.run w = (.ok a, w')) :
    Returns outside x w post := ⟨a, w', hrun, hpost ▸ h⟩

theorem run_getVector (hv : w.vectors.lookup o = some v) : (getVector o).run w = (.ok v, w) := by
  unfold getVector
  rw [Action.run_bind_ok (Action.run_get w), hv]
  rfl

/-- `perform` looks at the world first. -/
theorem Performs.of_get {α : Type} {f : VectorWorld T c → WorldAction T c α} {post : α → Lists T}
    (h : Performs outside (f w) w post) : Performs outside (get >>= f) w post := by
  rw [Performs, Action.run_bind_ok (Action.run_get w)]
  exact h

theorem Returns.of_get {α : Type} {f : VectorWorld T c → WorldAction T c α} {post : α → Lists T}
    (h : Returns outside (f w) w post) : Returns outside (get >>= f) w post := by
  rw [Returns, Action.run_bind_ok (Action.run_get w)]
  exact h

theorem Returns.of_getVector {α : Type} (hv : w.vectors.lookup o = some v)
    {f : SmallVector T c → WorldAction T c α} {post : α → Lists T}
    (h : Returns outside (f v) w post) : Returns outside (getVector o >>= f) w post := by
  rw [Returns, Action.run_bind_ok (run_getVector hv)]
  exact h

/-- A program that reads a vector goes on with it. -/
theorem Performs.of_getVector {α : Type} (hv : w.vectors.lookup o = some v)
    {f : SmallVector T c → WorldAction T c α} {post : α → Lists T}
    (h : Performs outside (f v) w post) : Performs outside (getVector o >>= f) w post := by
  rw [Performs, Action.run_bind_ok (run_getVector hv)]
  exact h

theorem lookup_of_not_alive (h : ¬w.Alive o) : w.vectors.lookup o = none := by
  simpa [Alive] using h

/-! ### Who owns what, vector by vector -/

theorem owners_perm_of_vector (hv : w.vectors.lookup o = some v) :
    w.owners.Perm (v.owned ++ { w with vectors := w.vectors.erase o }.owners) := by
  have h := (ownedBy_perm_of_lookup SmallVector.owned hv).append_right
    (ownedBy HeapAllocation.owned w.allocations ++ w.released)
  rwa [List.append_assoc] at h

theorem owners_insert (w : VectorWorld T c) (L : ArrayHeap T) (o : ObjectId)
    (v : SmallVector T c) :
    { w with heap := L, vectors := w.vectors.insert o v }.owners =
      v.owned ++ { w with vectors := w.vectors.erase o }.owners := by
  simp only [owners, ownedBy_insert, List.append_assoc]

theorem owned_subset_of_ne (hne : other ≠ o) (hu : w.vectors.lookup other = some u) :
    u.owned ⊆ { w with vectors := w.vectors.erase o }.owners := fun _ he =>
  List.mem_append_left _ (owned_subset SmallVector.owned ((AList.lookup_erase_ne hne).trans hu) he)

/-- One vector changed. -/
theorem Sound.set (h : Sound outside w lists) (hv : w.vectors.lookup o = some v)
    (hholds : Holds L v' l) (ht : Transfer w.heap v.owned L v'.owned) :
    Advances outside w { w with heap := L, vectors := w.vectors.insert o v' }
      (Function.update lists o (some l)) := by
  refine h.exchange (owners_perm_of_vector hv) ht (.of_eq (owners_insert w L o v')) fun o' => ?_
  by_cases ho : o' = o
  · subst ho
    left
    simpa using hholds
  · exact .inr ⟨AList.lookup_insert_ne ho, Function.update_of_ne ho _ _,
      fun u hu => owned_subset_of_ne ho hu⟩

/-- One vector was constructed. -/
theorem Sound.add (h : Sound outside w lists) (hfresh : w.vectors.lookup o = none)
    (hholds : Holds L v l) (ht : Transfer w.heap [] L v.owned) :
    Advances outside w { w with heap := L, vectors := w.vectors.insert o v }
      (Function.update lists o (some l)) := by
  have howners : { w with heap := L, vectors := w.vectors.insert o v }.owners =
      v.owned ++ w.owners := by
    rw [owners_insert, erase_of_lookup hfresh]
  have hbefore : w.owners.Perm ([] ++ w.owners) := .refl _
  refine h.exchange hbefore ht (.of_eq howners) fun o' => ?_
  by_cases ho : o' = o
  · subst ho
    left
    simpa using hholds
  · exact .inr ⟨AList.lookup_insert_ne ho, Function.update_of_ne ho _ _,
      fun u hu _ he => List.mem_append_left _ (owned_subset SmallVector.owned hu he)⟩

/-- One vector was destroyed. -/
theorem Sound.remove (h : Sound outside w lists) (hv : w.vectors.lookup o = some v)
    (ht : Transfer w.heap v.owned L []) :
    Advances outside w { w with heap := L, vectors := w.vectors.erase o }
      (Function.update lists o none) := by
  refine h.exchange (owners_perm_of_vector hv) ht (.refl _) fun o' => ?_
  by_cases ho : o' = o
  · subst ho
    left
    simp
  · exact .inr ⟨AList.lookup_erase_ne ho, Function.update_of_ne ho _ _,
      fun u hu => owned_subset_of_ne ho hu⟩

/-- One vector was moved into another. -/
theorem Sound.move (h : Sound outside w lists) (hne : o ≠ other)
    (hv : w.vectors.lookup o = some v) (hu : w.vectors.lookup other = some u)
    (hholds : Holds L v' l) (hsource : Holds L u' []) (howned : u'.owned = [])
    (ht : Transfer w.heap (v.owned ++ u.owned) L v'.owned) :
    Advances outside w
      { w with heap := L, vectors := (w.vectors.insert o v').insert other u' }
      (Function.update (Function.update lists o (some l)) other (some [])) := by
  have hbefore := (ownedBy_perm_of_two SmallVector.owned hne hv hu).append_right
    (ownedBy HeapAllocation.owned w.allocations ++ w.released)
  rw [← List.append_assoc v.owned, List.append_assoc _ _ (_ ++ w.released)] at hbefore
  have hafter := (ownedBy_insert_two SmallVector.owned w.vectors v' u' hne).append_right
    (ownedBy HeapAllocation.owned w.allocations ++ w.released)
  rw [howned, List.nil_append, List.append_assoc] at hafter
  refine h.exchange hbefore ht hafter fun o' => ?_
  by_cases hother : o' = other
  · subst hother
    left
    simpa using hsource
  by_cases ho : o' = o
  · subst ho
    left
    simpa [Function.update_of_ne hother, AList.lookup_insert_ne hother] using hholds
  · refine .inr ⟨(AList.lookup_insert_ne hother).trans (AList.lookup_insert_ne ho), ?_, ?_⟩
    · rw [Function.update_of_ne hother, Function.update_of_ne ho]
    · exact fun x hx => owned_subset_of_ne (w := { w with vectors := w.vectors.erase o }) hother
        ((AList.lookup_erase_ne ho).trans hx)

/-- What the allocations and the callers of `release` own. -/
def held (w : VectorWorld T c) : List (Address × ℕ) :=
  ownedBy HeapAllocation.owned w.allocations ++ w.released

/-- Only the allocations and the callers of `release` exchanged arrays. -/
theorem Sound.exchangeHeld {before after : List (Address × ℕ)} (h : Sound outside w lists)
    (rest : List (Address × ℕ)) (ht : Transfer w.heap before w'.heap after)
    (hsame : w'.vectors = w.vectors) (hbefore : w.held.Perm (before ++ rest))
    (hafter : w'.held.Perm (after ++ rest)) : Advances outside w w' lists := by
  have hswap : ∀ xs ys zs : List (Address × ℕ), (xs ++ (ys ++ zs)).Perm (ys ++ (xs ++ zs)) :=
    fun _ _ _ => List.perm_append_comm_assoc _ _ _
  have howners : w.owners.Perm (before ++ (ownedBy SmallVector.owned w.vectors ++ rest)) :=
    (hbefore.append_left _).trans (hswap _ _ _)
  refine h.exchange howners ht ?_ fun o => .inr ⟨by rw [hsame], rfl, ?_⟩
  · rw [owners, hsame]
    exact (hafter.append_left _).trans (hswap _ _ _)
  · exact fun v hv _ he => List.mem_append_left _ (owned_subset SmallVector.owned hv he)

/-! ### References -/

theorem resolve_reads (h : Sound outside w lists) {r : ElementRef T} (hr : w.Valid r) :
    ∃ x, lists.value r = some x ∧ w.heap.Reads (w.resolve r).load x := by
  cases r with
  | value x => exact ⟨x, rfl, .pure _ x⟩
  | element o i =>
    obtain ⟨v, hv, hi⟩ := hr
    obtain ⟨l, hl, hholds⟩ := h.of_lookup hv
    have hil : i < l.length := hholds.size_eq ▸ hi
    refine ⟨l[i], by simp [Lists.value, hl, hil], ?_⟩
    simpa only [resolve, hv] using hholds.cell_reads hil

/-- What can be read one by one can be read as a range. -/
theorem reads_of_forall {α : Type} {value : α → Option T} {resolve : α → Ref T} {range : List α}
    (h : ∀ r ∈ range, ∃ x, value r = some x ∧ L.Reads (resolve r).load x) :
    ∃ xs, range.mapM value = some xs ∧
      List.Forall₂ (fun r x => L.Reads r.load x) (range.map resolve) xs := by
  induction range with
  | nil => exact ⟨[], rfl, .nil⟩
  | cons r rest ih =>
    obtain ⟨x, hx, hread⟩ := h r List.mem_cons_self
    obtain ⟨xs, hxs, hreads⟩ := ih fun r hr => h r (List.mem_cons_of_mem _ hr)
    refine ⟨x :: xs, ?_, .cons hread hreads⟩
    rw [List.mapM_cons, hx, hxs]
    rfl

theorem resolve_range_reads (h : Sound outside w lists) {range : List (ElementRef T)}
    (hrange : ∀ r ∈ range, w.Valid r) :
    ∃ xs, lists.values range = some xs ∧
      List.Forall₂ (fun r x => w.heap.Reads r.load x) (range.map w.resolve) xs :=
  reads_of_forall fun r hr => resolve_reads h (hrange r hr)

theorem ValidRange.length_le {category : Category} {range : List (ElementRef T)} {xs : List T}
    {R : Ref T → T → Prop} (h : w.ValidRange category range)
    (hreads : List.Forall₂ R (range.map w.resolve) xs) (hinput : category = .input) :
    xs.length ≤ c.maxSize := by
  rw [← hreads.length_eq, List.length_map]
  exact h.2 hinput

theorem length_le_of_not_asks {range : List (ElementRef T)} {xs : List T} {R : Ref T → T → Prop}
    (hreads : List.Forall₂ R (range.map w.resolve) xs)
    (hasks : ¬c.inlineCapacity < range.length) : xs.length ≤ c.inlineCapacity := by
  rw [← hreads.length_eq, List.length_map]
  exact Nat.le_of_not_lt hasks

theorem isHeap_of_not_asks (hu : w.vectors.lookup other = some u)
    (hasks : ¬∃ u, w.vectors.lookup other = some u ∧ c.inlineCapacity < u.capacity) :
    u.isHeap = false := by
  rw [SmallVector.isHeap, decide_eq_false_iff_not]
  exact fun hcap => hasks ⟨u, hu, hcap⟩

/-- The argument of `push_back`, read on the object it is pushed to. -/
theorem argument_load (h : Sound outside w lists) (hv : w.vectors.lookup o = some v)
    {r : ElementRef T} (hr : w.Valid r) :
    ∃ x, lists.value r = some x ∧
      (w.argument o r).load.run ⟨w.heap, v⟩ = (.ok x, ⟨w.heap, v⟩) := by
  obtain ⟨x, hx, hread⟩ := resolve_reads h hr
  have hload : (Argument.ref (w.resolve r)).load.run (⟨w.heap, v⟩ : VectorState T c) =
      (.ok x, ⟨w.heap, v⟩) := run_onHeap (hread w.heap (.refl _))
  refine ⟨x, hx, ?_⟩
  cases r with
  | value => exact hload
  | element o' i =>
    by_cases hown : o' = o ∧ v.isHeap = false
    · -- the reference is to a cell of the object's own inline array
      simp only [argument, hv, if_pos hown]
      obtain ⟨rfl, hinline⟩ := hown
      obtain ⟨u, hu, hi⟩ := hr
      obtain rfl : v = u := Option.some.inj (hv.symm.trans hu)
      obtain ⟨l, hl, hholds⟩ := h.of_lookup hv
      obtain ⟨cells, hst, hcell⟩ := hholds.cell_eq
      have hil : i < l.length := hholds.size_eq ▸ hi
      obtain rfl : l[i] = x := by simpa [Lists.value, hl, hil] using hx
      simp [Argument.load, Action.run_bind, (hst.inline_storage hinline).1, hcell i hil, readCell]
    · simpa only [argument, hv, if_neg hown] using hload

/-! ### Calls on one vector -/

theorem run_call {α : Type} {x : VectorAction T c α} (hv : w.vectors.lookup o = some v)
    {r : Except Fault α} {s : VectorState T c} (hx : x.run ⟨w.heap, v⟩ = (r, s)) :
    (call o x).run w =
      (r, { w with heap := s.heap, vectors := w.vectors.insert o s.this }) := by
  unfold call
  rw [Action.run_bind_ok (run_getVector hv)]
  exact Action.run_zoom hx

theorem run_inHeap {α : Type} {x : Action (ArrayHeap T) Fault α} {r : Except Fault α}
    (hx : x.run w.heap = (r, L)) :
    (inHeap x : WorldAction T c α).run w = (r, { w with heap := L }) :=
  Action.run_zoom hx

/-- A member function that returns. -/
theorem call_returns (h : Sound outside w lists) (hv : w.vectors.lookup o = some v)
    {x : VectorAction T c Unit} (hx : Succeeds x ⟨w.heap, v⟩ l) {post : Reply → Lists T}
    (hpost : post .done = Function.update lists o (some l)) :
    Returns outside (call o x >>= fun _ => pure .done) w post := by
  obtain ⟨s, hrun, hbecomes⟩ := hx
  exact .of_ok (h.set hv hbecomes.holds hbecomes.transfer) hpost
    (Action.run_bind_ok (run_call hv hrun))

/-- **A member function of one vector.** -/
theorem call_performs (h : Sound outside w lists) (hv : w.vectors.lookup o = some v)
    {x : VectorAction T c Unit} (hx : Attempts x ⟨w.heap, v⟩ l) {post : Reply → Lists T}
    (hpost : post .done = Function.update lists o (some l)) :
    Performs outside (call o x >>= fun _ => pure .done) w post := by
  rcases hx with hok | ⟨s, hrun, hsame⟩
  · exact .inl (call_returns h hv hok hpost)
  · refine .inr ⟨_, Action.run_bind_error (run_call hv hrun), fun o' => ?_, rfl, rfl,
      hsame.buffers_eq⟩
    by_cases ho : o' = o
    · subst ho
      rw [hsame.this_eq]
      exact (AList.lookup_insert _).trans hv.symm
    · exact AList.lookup_insert_ne ho

/-- A constructor that returns. -/
theorem construct_returns (h : Sound outside w lists) (hfresh : ¬w.Alive o)
    {init : VectorAction T c Unit} (hinit : Succeeds init ⟨w.heap, {}⟩ l) {post : Reply → Lists T}
    (hpost : post .done = Function.update lists o (some l)) :
    Returns outside (construct o init >>= fun _ => pure .done) w post := by
  obtain ⟨v, L, hrun, hholds, htransfer⟩ := SmallVector.construction_returns hinit
  refine .of_ok (h.add (lookup_of_not_alive hfresh) hholds htransfer) hpost ?_
  have hconstruct : (construct o init).run w =
      (.ok (), { w with heap := L, vectors := w.vectors.insert o v }) := by
    unfold construct
    rw [Action.run_bind_ok (run_inHeap hrun)]
    rfl
  exact Action.run_bind_ok hconstruct

/-- **A constructor.** -/
theorem construct_performs (h : Sound outside w lists) (hfresh : ¬w.Alive o)
    {init : VectorAction T c Unit} (hinit : Attempts init ⟨w.heap, {}⟩ l) {post : Reply → Lists T}
    (hpost : post .done = Function.update lists o (some l)) :
    Performs outside (construct o init >>= fun _ => pure .done) w post := by
  rcases hinit with hok | ⟨s, hrun, hsame⟩
  · exact .inl (construct_returns h hfresh hok hpost)
  · have hrun := SmallVector.construction_error hrun
    have hconstruct : (construct o init).run w = (.error .badAlloc, { w with heap := s.heap }) :=
      Action.run_bind_error (run_inHeap hrun)
    exact .inr ⟨_, Action.run_bind_error hconstruct, fun _ => rfl, rfl, rfl, hsame.buffers_eq⟩

/-! ### Calls on two objects -/

/-- **Move construction** of a vector. -/
theorem moveConstruct_returns [Inhabited T] (h : Sound outside w lists)
    (hfresh : w.vectors.lookup o = none) (hu : w.vectors.lookup other = some u) :
    Returns outside (perform (.moveConstruct o other)) w
      (lists.apply (.moveConstruct o other)) := by
  have hne : o ≠ other := by
    rintro rfl
    rw [hfresh] at hu
    cases hu
  obtain ⟨l, hl, hholds⟩ := h.of_lookup hu
  have hstart := h.add hfresh (SmallVector.holds_empty (c := c) w.heap) (.refl w.heap [])
  have hother : (w.vectors.insert o {}).lookup other = some u :=
    (AList.lookup_insert_ne hne.symm).trans hu
  obtain ⟨s, u', hrun, hmoved⟩ := SmallVector.moveConstructFrom_run hholds
  have hmove := hstart.sound.move hne (AList.lookup_insert _) hother hmoved.holds hmoved.source
    hmoved.source_owned hmoved.transfer
  rw [Function.update_idem] at hmove
  refine .of_ok (a := .done) (hstart.trans hmove) (by simp only [Lists.apply, hl]) ?_
  have hcall := run_call (w := { w with vectors := w.vectors.insert o {} })
    (AList.lookup_insert _) hrun
  unfold perform
  rw [Action.run_bind_ok (Action.run_get w), Action.run_bind_ok (run_getVector hu)]
  unfold putVector
  rw [Action.run_bind_ok (Action.run_modify _ _), Action.run_bind_ok hcall]
  rfl

/-- **Move assignment** of a vector, also to itself. -/
theorem moveAssign_returns [Inhabited T] (h : Sound outside w lists)
    (hv : w.vectors.lookup o = some v) (hu : w.vectors.lookup other = some u) :
    Returns outside (perform (.moveAssign o other)) w (lists.apply (.moveAssign o other)) := by
  by_cases hne : o = other
  · refine .of_ok (a := .done) h.advances (by simp only [Lists.apply, if_pos hne]) ?_
    unfold perform
    rw [Action.run_bind_ok (Action.run_get w), Action.run_bind_ok (run_getVector hu), if_pos hne]
    rfl
  · obtain ⟨l, hl, hholds⟩ := h.of_lookup hu
    obtain ⟨lv, -, -, rest, hst⟩ := h.of_lookup hv
    have hdisjoint : ∀ e ∈ v.owned, ∀ e' ∈ u.owned, e.1 ≠ e'.1 := fun e he e' he' hee => by
      have howned := h.owned.perm ((owners_perm_of_vector hv).append_right outside)
      rw [List.append_assoc] at howned
      have hmem := List.mem_append_left outside (owned_subset_of_ne (Ne.symm hne) hu he')
      exact howned.disjoint hmem e.2 (hee ▸ he)
    obtain ⟨s, u', hrun, hmoved⟩ := SmallVector.moveAssign_run (s := ⟨w.heap, v⟩) hst hholds
      hdisjoint
    have hmove := h.move hne hv hu hmoved.holds hmoved.source hmoved.source_owned hmoved.transfer
    refine .of_ok (a := .done) hmove (by simp only [Lists.apply, if_neg hne, hl]) ?_
    unfold perform
    rw [Action.run_bind_ok (Action.run_get w), Action.run_bind_ok (run_getVector hu),
      if_neg hne, Action.run_bind_ok (run_call hv hrun)]
    rfl

/-- **`ReleaseHeap`** of a vector into a new allocation. -/
theorem releaseHeap_returns [Inhabited T] {a : ObjectId} (h : Sound outside w lists)
    (hv : w.vectors.lookup o = some v) (hfresh : w.allocations.lookup a = none) :
    Returns outside (perform (.releaseHeap o a)) w (lists.apply (.releaseHeap o a)) := by
  obtain ⟨l, hl, hholds⟩ := h.of_lookup hv
  -- the vector keeps what the allocation does not take
  have hadvance : ∀ (v' : SmallVector T c) (x : HeapAllocation) (l' : List T),
      Holds w.heap v' l' → v'.owned ++ x.owned = v.owned →
      Advances outside w
        { w with vectors := w.vectors.insert o v', allocations := w.allocations.insert a x }
        (Function.update lists o (some l')) := by
    intro v' x l' hholds' howned
    have hafter : VectorWorld.owners
        { w with vectors := w.vectors.insert o v', allocations := w.allocations.insert a x } |>.Perm
          (v.owned ++ { w with vectors := w.vectors.erase o }.owners) := by
      rw [← howned]
      simp only [owners, ownedBy_insert, erase_of_lookup hfresh, List.append_assoc]
      exact (List.perm_append_comm_assoc _ _ _).append_left _
    refine h.exchange (owners_perm_of_vector hv) (.refl _ _) hafter fun o' => ?_
    by_cases ho : o' = o
    · subst ho
      left
      simpa using hholds'
    · exact .inr ⟨AList.lookup_insert_ne ho, Function.update_of_ne ho _ _,
        fun u hu => owned_subset_of_ne ho hu⟩
  obtain ⟨hsize, rest, hst⟩ := hholds
  cases hst with
  | @inlined size _ hlen =>
    have hrun := SmallVector.releaseHeap_of_inline
      (s := (⟨w.heap, ⟨.inlineStorage (l.map some ++ rest), size, c.inlineCapacity⟩⟩ :
        VectorState T c)) (by simp [SmallVector.isHeap])
    refine .of_ok (a := .allocation true)
      (hadvance _ {} l ⟨hsize, rest, .inlined hlen⟩ (List.append_nil _)) ?_ ?_
    · rw [← hl, Function.update_eq_self]
      rfl
    · unfold perform
      rw [Action.run_bind_ok (Action.run_get w), Action.run_bind_ok (run_call hv hrun)]
      rfl
  | @allocated p size capacity _ hcap =>
    have hrun := SmallVector.releaseHeap_of_heap
      (s := (⟨w.heap, ⟨.heapData p, size, capacity⟩⟩ : VectorState T c))
      (by simp [SmallVector.isHeap, hcap]) rfl
    refine .of_ok (a := .allocation false)
      (hadvance {} ⟨some p, size, capacity⟩ [] (SmallVector.holds_empty _) rfl) rfl ?_
    unfold perform
    rw [Action.run_bind_ok (Action.run_get w), Action.run_bind_ok (run_call hv hrun)]
    rfl

/-! ### Calls on allocations -/

theorem run_getAllocation {a : ObjectId} {x : HeapAllocation}
    (ha : w.allocations.lookup a = some x) :
    (getAllocation a : WorldAction T c HeapAllocation).run w = (.ok x, w) := by
  unfold getAllocation
  rw [Action.run_bind_ok (Action.run_get w), ha]
  rfl

theorem Sound.allocation_live {a : ObjectId} {x : HeapAllocation} (h : Sound outside w lists)
    (ha : w.allocations.lookup a = some x) {e : Address × ℕ} (he : e ∈ x.owned) :
    w.heap.Live e := by
  refine h.owned.live (List.mem_append_left _ (List.mem_append_right _ ?_))
  exact List.mem_append_left _ (owned_subset HeapAllocation.owned ha he)

theorem constructAllocation_returns [Inhabited T] {a : ObjectId} (h : Sound outside w lists)
    (hfresh : w.allocations.lookup a = none) :
    Returns outside (perform (.constructAllocation a)) w fun _ => lists := by
  have hadv : Advances outside w { w with allocations := w.allocations.insert a {} } lists := by
    refine h.exchangeHeld w.held (.refl w.heap []) rfl (.refl _) (.of_eq ?_)
    simp only [held, ownedBy_insert_of_fresh _ hfresh]
    rfl
  exact .of_ok (a := .done) hadv rfl rfl

theorem moveConstructAllocation_returns [Inhabited T] {a b : ObjectId} {x : HeapAllocation}
    (h : Sound outside w lists) (hfresh : w.allocations.lookup a = none)
    (hx : w.allocations.lookup b = some x) :
    Returns outside (perform (.moveConstructAllocation a b)) w fun _ => lists := by
  have hne : a ≠ b := by
    rintro rfl
    rw [hfresh] at hx
    cases hx
  have hadv : Advances outside w
      { w with allocations := (w.allocations.insert a x).insert b {} } lists := by
    refine h.exchangeHeld w.held (.refl w.heap []) rfl (.refl _) ?_
    have hold := ownedBy_perm_of_lookup HeapAllocation.owned hx
    have hnew := ownedBy_insert_two HeapAllocation.owned w.allocations x {} hne
    rw [erase_of_lookup hfresh] at hnew
    exact (hnew.trans hold.symm).append_right _
  refine .of_ok (a := .done) hadv rfl ?_
  unfold perform
  rw [Action.run_bind_ok (Action.run_get w), Action.run_bind_ok (run_getAllocation hx)]
  rfl

theorem moveAssignAllocation_returns [Inhabited T] {a b : ObjectId} {x y : HeapAllocation}
    (h : Sound outside w lists) (hx : w.allocations.lookup a = some x)
    (hy : w.allocations.lookup b = some y) :
    Returns outside (perform (.moveAssignAllocation a b)) w fun _ => lists := by
  by_cases hne : a = b
  · refine .of_ok (a := .done) h.advances rfl ?_
    unfold perform
    rw [Action.run_bind_ok (Action.run_get w), Action.run_bind_ok (run_getAllocation hx),
      Action.run_bind_ok (run_getAllocation hy), if_pos hne]
    rfl
  · obtain ⟨L, hrun, htransfer⟩ := HeapAllocation.moveAssign_run y
      fun e he => h.allocation_live hx he
    have hadv : Advances outside w
        { w with heap := L, allocations := (w.allocations.insert a y).insert b {} } lists := by
      have hold := (ownedBy_perm_of_two HeapAllocation.owned hne hx hy).append_right w.released
      have hnew := (ownedBy_insert_two HeapAllocation.owned w.allocations y {} hne).append_right
        w.released
      rw [List.append_assoc] at hold
      exact h.exchangeHeld _ htransfer rfl hold hnew
    refine .of_ok (a := .done) hadv rfl ?_
    unfold perform
    rw [Action.run_bind_ok (Action.run_get w), Action.run_bind_ok (run_getAllocation hx),
      Action.run_bind_ok (run_getAllocation hy), if_neg hne, Action.run_bind_ok (run_inHeap hrun)]
    rfl

theorem release_returns [Inhabited T] {a : ObjectId} {x : HeapAllocation}
    (h : Sound outside w lists) (hx : w.allocations.lookup a = some x) :
    Returns outside (perform (.release a)) w fun _ => lists := by
  have hadv : Advances outside w { w with
      allocations := w.allocations.insert a {}
      released := x.owned ++ w.released } lists := by
    refine h.exchangeHeld w.held (.refl w.heap []) rfl (.refl _) ?_
    have hold := (ownedBy_perm_of_lookup HeapAllocation.owned hx).append_right w.released
    rw [List.append_assoc] at hold
    refine List.Perm.trans ?_ hold.symm
    simp only [held, ownedBy_insert]
    exact List.perm_append_comm_assoc _ _ _
  refine .of_ok (a := .done) hadv rfl ?_
  unfold perform
  rw [Action.run_bind_ok (Action.run_get w), Action.run_bind_ok (run_getAllocation hx)]
  rfl

theorem destroyAllocation_returns [Inhabited T] {a : ObjectId} {x : HeapAllocation}
    (h : Sound outside w lists) (hx : w.allocations.lookup a = some x) :
    Returns outside (perform (.destroyAllocation a)) w fun _ => lists := by
  obtain ⟨L, hrun, htransfer⟩ := HeapAllocation.reset_run fun e he => h.allocation_live hx he
  have hadv : Advances outside w
      { w with heap := L, allocations := w.allocations.erase a } lists := by
    have hold := (ownedBy_perm_of_lookup HeapAllocation.owned hx).append_right w.released
    rw [List.append_assoc] at hold
    exact h.exchangeHeld _ htransfer rfl hold (.refl _)
  refine .of_ok (a := .done) hadv rfl ?_
  unfold perform
  rw [Action.run_bind_ok (Action.run_get w), Action.run_bind_ok (run_getAllocation hx),
    Action.run_bind_ok (run_inHeap hrun)]
  rfl

/-! ### All calls -/

theorem destroy_returns [Inhabited T] (h : Sound outside w lists)
    (hv : w.vectors.lookup o = some v) :
    Returns outside (perform (.destroy o)) w (lists.apply (.destroy o)) := by
  obtain ⟨l, -, -, rest, hst⟩ := h.of_lookup hv
  obtain ⟨L, hrun, htransfer⟩ := SmallVector.destroy_run hst
  refine .of_ok (a := .done) (h.remove hv htransfer) rfl ?_
  unfold perform
  rw [Action.run_bind_ok (Action.run_get w), Action.run_bind_ok (run_getVector hv),
    Action.run_bind_ok (run_inHeap hrun)]
  rfl

/-- Assignment of a vector to itself. -/
theorem copyAssign_self_returns [Inhabited T] (h : Sound outside w lists)
    (hv : w.vectors.lookup o = some v) :
    Returns outside (perform (.copyAssign o o)) w (lists.apply (.copyAssign o o)) := by
  refine .of_get (.of_getVector hv ?_)
  rw [if_pos rfl]
  refine .of_ok h.advances ?_ rfl
  simp only [Lists.apply, Function.update_eq_self]

/-- **Every call that needs no new array** does what the list model says. -/
theorem perform_returns [Inhabited T] {op : VectorOp T} (h : Sound outside w lists)
    (hop : w.Enabled op) (hasks : ¬w.Asks op) :
    Returns outside (perform op) w (lists.apply op) := by
  cases op with
  | construct o =>
    have hadv := h.add (lookup_of_not_alive hop) (SmallVector.holds_empty (c := c) w.heap)
      (.refl w.heap [])
    exact .of_ok (a := .done) hadv rfl rfl
  | constructCount o count =>
    exact .of_get (construct_returns h hop
      (SmallVector.initializeCount_of_room (Nat.le_of_not_lt hasks) w.heap) rfl)
  | constructFill o count value =>
    obtain ⟨x, hx, hread⟩ := resolve_reads h hop.2
    refine .of_get (construct_returns h hop.1
      (SmallVector.initializeFill_of_room (Nat.le_of_not_lt hasks) hread) ?_)
    simp only [Lists.apply, hx, Option.map_some]
  | constructRange o category range =>
    obtain ⟨xs, hxs, hreads⟩ := resolve_range_reads h hop.2.1
    refine .of_get (construct_returns h hop.1
      (SmallVector.initializeRange_of_room category hreads (length_le_of_not_asks hreads hasks)) ?_)
    simp only [Lists.apply, hxs]
  | copyConstruct o other =>
    obtain ⟨u, hu⟩ := Option.isSome_iff_exists.mp hop.2
    obtain ⟨l, hl, hholds⟩ := h.of_lookup hu
    refine .of_get (.of_getVector hu (construct_returns h hop.1
      (SmallVector.copyConstructFrom_of_inline hholds (isHeap_of_not_asks hu hasks)) ?_))
    simp only [Lists.apply, hl]
  | moveConstruct o other =>
    obtain ⟨u, hu⟩ := Option.isSome_iff_exists.mp hop.2
    exact moveConstruct_returns h (lookup_of_not_alive hop.1) hu
  | copyAssign o other =>
    obtain ⟨v, hv⟩ := Option.isSome_iff_exists.mp hop.1
    obtain ⟨u, hu⟩ := Option.isSome_iff_exists.mp hop.2
    obtain ⟨l, hl, hholds⟩ := h.of_lookup hu
    obtain ⟨lv, -, -, rest, hst⟩ := h.of_lookup hv
    by_cases hne : o = other
    · subst hne
      exact copyAssign_self_returns h hv
    refine .of_get (.of_getVector hu ?_)
    rw [if_neg hne]
    refine call_returns h hv (SmallVector.copyAssign_of_inline (s := ⟨w.heap, v⟩) hst hholds
      (isHeap_of_not_asks hu fun hasks' => hasks ⟨hne, hasks'⟩)) ?_
    simp only [Lists.apply, hl]
  | moveAssign o other =>
    obtain ⟨v, hv⟩ := Option.isSome_iff_exists.mp hop.1
    obtain ⟨u, hu⟩ := Option.isSome_iff_exists.mp hop.2
    exact moveAssign_returns h hv hu
  | clear o =>
    obtain ⟨v, hv⟩ := Option.isSome_iff_exists.mp hop
    obtain ⟨l, hl, hholds⟩ := h.of_lookup hv
    exact .of_get (call_returns h hv (SmallVector.clear_run hholds) rfl)
  | reserve o requestedCapacity =>
    obtain ⟨v, hv⟩ := Option.isSome_iff_exists.mp hop
    obtain ⟨l, hl, hholds⟩ := h.of_lookup hv
    have hroom : requestedCapacity ≤ v.capacity := Nat.le_of_not_lt fun hlt => hasks ⟨v, hv, hlt⟩
    refine .of_get (call_returns h hv (SmallVector.reserve_of_room hholds hroom) ?_)
    rw [← hl, Function.update_eq_self]
    rfl
  | resize o count =>
    obtain ⟨v, hv⟩ := Option.isSome_iff_exists.mp hop
    obtain ⟨l, hl, hholds⟩ := h.of_lookup hv
    have hroom : count ≤ v.capacity := Nat.le_of_not_lt fun hlt => hasks ⟨v, hv, hlt⟩
    refine .of_get (call_returns h hv (SmallVector.resize_of_room hholds hroom) ?_)
    simp only [Lists.apply, hl, Option.map_some]
  | pushBack o value =>
    obtain ⟨⟨v, hv, -⟩, hvalid⟩ := hop
    obtain ⟨l, hl, hholds⟩ := h.of_lookup hv
    obtain ⟨x, hx, hload⟩ := argument_load h hv hvalid
    have hroom : l.length < v.capacity := Nat.lt_of_le_of_ne hholds.length_le fun hfull =>
      hasks ⟨v, hv, hholds.size_eq.trans hfull⟩
    obtain ⟨s, hrun, -, hbecomes⟩ := SmallVector.pushBack_of_room hholds hroom hload
    refine .of_get (call_returns h hv ⟨s, hrun, hbecomes⟩ ?_)
    simp only [Lists.apply, hl, hx, Option.bind_some, Option.map_some]
  | setElement o i value =>
    obtain ⟨⟨v, hv, hi⟩, hvalid⟩ := hop
    obtain ⟨l, hl, hholds⟩ := h.of_lookup hv
    obtain ⟨x, hx, hload⟩ := argument_load h hv hvalid
    refine .of_get (call_returns h hv
      (SmallVector.setElement_run hholds (hholds.size_eq ▸ hi) hload) ?_)
    simp only [Lists.apply, hl, hx, Option.bind_some, Option.map_some]
  | assign o category range =>
    obtain ⟨v, hv⟩ := Option.isSome_iff_exists.mp hop.1
    obtain ⟨l, -, -, rest, hst⟩ := h.of_lookup hv
    obtain ⟨xs, hxs, hreads⟩ := resolve_range_reads h hop.2.1
    refine .of_get (call_returns h hv
      (SmallVector.assign_of_room hst category hreads (length_le_of_not_asks hreads hasks)) ?_)
    simp only [Lists.apply, hxs]
  | releaseHeap o a =>
    obtain ⟨v, hv⟩ := Option.isSome_iff_exists.mp hop.1
    exact releaseHeap_returns h hv (Option.isNone_iff_eq_none.mp hop.2)
  | destroy o =>
    obtain ⟨v, hv⟩ := Option.isSome_iff_exists.mp hop
    exact destroy_returns h hv
  | constructAllocation a =>
    exact constructAllocation_returns h (Option.isNone_iff_eq_none.mp hop)
  | moveConstructAllocation a other =>
    obtain ⟨x, hx⟩ := Option.isSome_iff_exists.mp hop.2
    exact moveConstructAllocation_returns h (Option.isNone_iff_eq_none.mp hop.1) hx
  | moveAssignAllocation a other =>
    obtain ⟨x, hx⟩ := Option.isSome_iff_exists.mp hop.1
    obtain ⟨y, hy⟩ := Option.isSome_iff_exists.mp hop.2
    exact moveAssignAllocation_returns h hx hy
  | release a =>
    obtain ⟨x, hx⟩ := Option.isSome_iff_exists.mp hop
    exact release_returns h hx
  | destroyAllocation a =>
    obtain ⟨x, hx⟩ := Option.isSome_iff_exists.mp hop
    exact destroyAllocation_returns h hx

/-- **Every call that a program may make** does what the list model says, or fails for want of
memory without a trace. -/
theorem perform_run [Inhabited T] {op : VectorOp T} (h : Sound outside w lists)
    (hop : w.Enabled op) : Performs outside (perform op) w (lists.apply op) := by
  by_cases hasks : w.Asks op
  swap
  · exact .inl (perform_returns h hop hasks)
  cases op with
  | constructCount o count =>
    exact .of_get (construct_performs h hop (SmallVector.initializeCount_run count w.heap) rfl)
  | constructFill o count value =>
    obtain ⟨x, hx, hread⟩ := resolve_reads h hop.2
    refine .of_get (construct_performs h hop.1 (SmallVector.initializeFill_run count hread) ?_)
    simp only [Lists.apply, hx, Option.map_some]
  | constructRange o category range =>
    obtain ⟨xs, hxs, hreads⟩ := resolve_range_reads h hop.2.1
    refine .of_get (construct_performs h hop.1
      (SmallVector.initializeRange_run category hreads (hop.2.length_le hreads)) ?_)
    simp only [Lists.apply, hxs]
  | copyConstruct o other =>
    obtain ⟨u, hu⟩ := Option.isSome_iff_exists.mp hop.2
    obtain ⟨l, hl, hholds⟩ := h.of_lookup hu
    refine .of_get (.of_getVector hu (construct_performs h hop.1
      (SmallVector.copyConstructFrom_run hholds) ?_))
    simp only [Lists.apply, hl]
  | copyAssign o other =>
    obtain ⟨v, hv⟩ := Option.isSome_iff_exists.mp hop.1
    obtain ⟨u, hu⟩ := Option.isSome_iff_exists.mp hop.2
    obtain ⟨l, hl, hholds⟩ := h.of_lookup hu
    obtain ⟨lv, -, -, rest, hst⟩ := h.of_lookup hv
    refine .of_get (.of_getVector hu ?_)
    rw [if_neg hasks.1]
    refine call_performs h hv (SmallVector.copyAssign_run (s := ⟨w.heap, v⟩) hst hholds) ?_
    simp only [Lists.apply, hl]
  | reserve o requestedCapacity =>
    obtain ⟨v, hv⟩ := Option.isSome_iff_exists.mp hop
    obtain ⟨l, hl, hholds⟩ := h.of_lookup hv
    refine .of_get (call_performs h hv (SmallVector.reserve_run hholds requestedCapacity) ?_)
    rw [← hl, Function.update_eq_self]
    rfl
  | resize o count =>
    obtain ⟨v, hv⟩ := Option.isSome_iff_exists.mp hop
    obtain ⟨l, hl, hholds⟩ := h.of_lookup hv
    refine .of_get (call_performs h hv (SmallVector.resize_run hholds count) ?_)
    simp only [Lists.apply, hl, Option.map_some]
  | pushBack o value =>
    obtain ⟨⟨v, hv, hmax⟩, hvalid⟩ := hop
    obtain ⟨l, hl, hholds⟩ := h.of_lookup hv
    obtain ⟨x, hx, hload⟩ := argument_load h hv hvalid
    refine .of_get (call_performs h hv
      (SmallVector.pushBack_run hholds (hholds.size_eq ▸ hmax) hload) ?_)
    simp only [Lists.apply, hl, hx, Option.bind_some, Option.map_some]
  | assign o category range =>
    obtain ⟨v, hv⟩ := Option.isSome_iff_exists.mp hop.1
    obtain ⟨l, -, -, rest, hst⟩ := h.of_lookup hv
    obtain ⟨xs, hxs, hreads⟩ := resolve_range_reads h hop.2.1
    refine .of_get (call_performs h hv
      (SmallVector.assign_run hst category hreads (hop.2.length_le hreads)) ?_)
    simp only [Lists.apply, hxs]
  | _ => exact hasks.elim

/-- A call that failed leaves the world where it was. -/
theorem Sound.unchanged (h : Sound outside w lists) (hsame : Unchanged w w') :
    Advances outside w w' lists := by
  have howners : w'.owners.Perm w.owners := by
    rw [owners, owners, hsame.allocations, hsame.released]
    exact (ownedBy_perm_of_same _ hsame.vectors).append_right _
  have ht : Transfer w.heap w.owners w'.heap w'.owners :=
    (Transfer.of_same hsame.buffers w.owners).perm (.refl _) howners.symm
  refine ⟨⟨fun o => ?_, ?_⟩, ht⟩
  · rw [hsame.vectors]
    exact rel_mono (h.holds o) fun v _ l hholds =>
      hholds.congr fun e _ => congrFun hsame.buffers e.1
  · exact h.owned.transfer ht

/-- **One step** of a program goes where the list model goes. -/
theorem Sound.step [Inhabited T] {call : Call T} (h : Sound outside w lists)
    (hstep : Step w call w') : Advances outside w w' (lists.after call) := by
  obtain ⟨hop, hrun⟩ := hstep
  rcases perform_run h hop with ⟨reply, w₁, hok, hadv⟩ | ⟨w₁, herr, hsame⟩
  · obtain ⟨hresult, rfl⟩ := Prod.mk.inj (hrun.symm.trans hok)
    simpa only [Lists.after, hresult] using hadv
  · obtain ⟨hresult, rfl⟩ := Prod.mk.inj (hrun.symm.trans herr)
    simpa only [Lists.after, hresult] using h.unchanged hsame

/-- **A whole run**, from no objects. -/
theorem sound_of_run [Inhabited T] {answers : ℕ → Option Address} {trace : List (Call T)}
    (hrun : Run Step (initial answers : VectorWorld T c) trace w) :
    Sound [] w (Lists.run trace) := by
  refine hrun.history (fun trace w => Sound [] w (Lists.run trace)) ?_
    ⟨fun o => .none, fun e => rfl⟩
  intro trace w call w' h hstep
  have hadv := (h.step hstep).sound
  rwa [Lists.run, List.foldl_append]

end VectorWorld

end InfiniRT.Metadata
