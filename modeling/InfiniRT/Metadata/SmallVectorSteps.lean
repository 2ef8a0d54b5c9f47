import InfiniRT.Metadata.SmallVector

/-!
# What the members of `SmallVector` do

`Stored L v cells` is the representation: the capacity tells which member of the union was written
last, and the cells are those of the inline array, or of a live buffer with the capacity as its
element count.  `Holds L v l` adds that the first `size` cells hold the list `l`.

Every member function has one lemma.  It says that the function returns with the vector holding a
list and the live memory passed on, or runs out of memory and leaves vector and buffers alone.  A
function that needs an array only for want of room has a second one, which says that it returns
where there is room.  Proved:

* **`Holds.read_run`** — what a vector shows is the list it holds;
* **`pushBack_run`** — `push_back`, also of an element of the vector itself;
* **`copyAssign_run`** — copy assignment, and `moveAssign_run`, which never throws;
* **`assign_run`** — `assign`, also from a range of the vector's own elements.
-/

namespace InfiniRT.Metadata

open InfiniRT.Library
open InfiniRT.Library.Ledger (Transfer)

variable {T : Type} {c : Config}

theorem run_onHeap {α : Type} {x : Action (ArrayHeap T) Fault α} {s : VectorState T c}
    {r : Except Fault α} {L : ArrayHeap T} (h : x.run s.heap = (r, L)) :
    (onHeap x).run s = (r, { s with heap := L }) := Action.run_zoom h

/-- What a loop reads on the heap, it reads on the object. -/
theorem forall₂_onHeap (state : ℕ → List (Option T) → VectorState T c)
    {reads : List (Action (ArrayHeap T) Fault T)} {xs : List T}
    (h : List.Forall₂ (fun read x => ∀ i cells,
      read.run (state i cells).heap = (.ok x, (state i cells).heap)) reads xs) :
    List.Forall₂ (fun read x => ∀ i cells,
      read.run (state i cells) = (.ok x, state i cells)) (reads.map onHeap) xs :=
  List.forall₂_map_left_iff.mpr (h.imp fun _ _ hread i cells => run_onHeap (hread i cells))

theorem forall₂_replicate {α β : Type} {R : α → β → Prop} {a : α} {b : β} (h : R a b) (n : ℕ) :
    List.Forall₂ R (List.replicate n a) (List.replicate n b) := by
  induction n with
  | zero => exact .nil
  | succ n ih => exact .cons h ih

namespace SmallVector

/-! ### Representation -/

/-- The buffer a vector owns, with the element count it gives it back with. -/
def owned (v : SmallVector T c) : List (Address × ℕ) :=
  match v.storage with
  | .inlineStorage _ => []
  | .heapData p => [(p, v.capacity)]

/-- The cells behind `data()`. -/
inductive Stored (L : ArrayHeap T) : SmallVector T c → List (Option T) → Prop
  | inlined {size : ℕ} {cells : List (Option T)} (hlen : cells.length = c.inlineCapacity) :
      Stored L ⟨.inlineStorage cells, size, c.inlineCapacity⟩ cells
  | allocated {p : Address} {size capacity : ℕ} {cells : List (Option T)}
      (hcap : c.inlineCapacity < capacity) (hmax : capacity ≤ c.maxSize)
      (hlen : cells.length = capacity) (hp : L.buffers p = some (capacity, cells)) :
      Stored L ⟨.heapData p, size, capacity⟩ cells

/-- **A vector holds a list.** -/
structure Holds (L : ArrayHeap T) (v : SmallVector T c) (l : List T) : Prop where
  size_eq : v.size = l.length
  stored : ∃ rest, Stored L v (l.map some ++ rest)

variable {L L' : ArrayHeap T} {v other : SmallVector T c} {cells : List (Option T)}
  {l xs : List T} {x : T}

theorem Stored.length_eq (h : Stored L v cells) : cells.length = v.capacity := by
  cases h <;> assumption

theorem Stored.capacity_le (h : Stored L v cells) : v.capacity ≤ c.maxSize := by
  cases h with
  | inlined => exact c.inlineCapacity_le
  | allocated _ hmax => exact hmax

theorem Stored.le_capacity (h : Stored L v cells) : c.inlineCapacity ≤ v.capacity := by
  cases h with
  | inlined => exact Nat.le_refl _
  | allocated hcap => exact Nat.le_of_lt hcap

/-- `IsHeap` tells which member of the union was written last. -/
theorem Stored.isHeap_iff (h : Stored L v cells) : v.isHeap ↔ ∃ p, v.storage = .heapData p := by
  cases h with
  | inlined => simp [isHeap]
  | allocated hcap => simp [isHeap, hcap]

theorem Stored.owned_of_inline (h : Stored L v cells) (hv : v.isHeap = false) : v.owned = [] := by
  cases h with
  | inlined => rfl
  | allocated hcap => simp [isHeap, hcap] at hv

theorem Stored.inline_storage (h : Stored L v cells) (hv : v.isHeap = false) :
    v.storage = .inlineStorage cells ∧ cells.length = c.inlineCapacity := by
  cases h with
  | inlined hlen => exact ⟨rfl, hlen⟩
  | allocated hcap => simp [isHeap, hcap] at hv

theorem Stored.live (h : Stored L v cells) {e : Address × ℕ} (he : e ∈ v.owned) : L.Live e := by
  cases h with
  | inlined => cases he
  | allocated _ _ _ hp =>
    obtain rfl := List.mem_singleton.mp he
    exact Ledger.Live.of_buffers hp

/-- Only the vector's own buffer matters. -/
theorem Stored.congr (h : Stored L v cells)
    (hsame : ∀ e ∈ v.owned, L'.buffers e.1 = L.buffers e.1) : Stored L' v cells := by
  cases h with
  | inlined hlen => exact .inlined hlen
  | allocated hcap hmax hlen hp =>
    exact .allocated hcap hmax hlen ((hsame _ List.mem_cons_self).trans hp)

/-- The size is not part of the representation. -/
theorem Stored.setSize (h : Stored L v cells) (n : ℕ) :
    Stored L ({ v with size := n } : SmallVector T c) cells := by
  cases h with
  | inlined hlen => exact .inlined hlen
  | allocated hcap hmax hlen hp => exact .allocated hcap hmax hlen hp

theorem Stored.element_run (h : Stored L v cells) {i : ℕ} (hi : cells[i]? = some (some x))
    (hsame : ∀ e ∈ v.owned, L'.buffers e.1 = L.buffers e.1) :
    (v.element i).run L' = (.ok x, L') := by
  cases h with
  | inlined => simp [element, SmallVector.cell, isHeap, hi, Ref.load, readCell]
  | allocated hcap hmax hlen hp =>
    have hp' := (hsame _ List.mem_cons_self).trans hp
    simpa [element, SmallVector.cell, isHeap, hcap, Ref.load] using ArrayHeap.load_run hp' hi

theorem Holds.congr (h : Holds L v l) (hsame : ∀ e ∈ v.owned, L'.buffers e.1 = L.buffers e.1) :
    Holds L' v l :=
  ⟨h.size_eq, h.stored.imp fun _ hst => hst.congr hsame⟩

theorem Holds.live (h : Holds L v l) {e : Address × ℕ} (he : e ∈ v.owned) : L.Live e :=
  h.stored.elim fun _ hst => hst.live he

theorem Holds.capacity_le (h : Holds L v l) : v.capacity ≤ c.maxSize :=
  h.stored.elim fun _ hst => hst.capacity_le

theorem Holds.length_le (h : Holds L v l) : l.length ≤ v.capacity := by
  obtain ⟨rest, hst⟩ := h.stored
  rw [← hst.length_eq, List.length_append, List.length_map]
  exact Nat.le_add_right _ _

/-- A vector without elements. -/
theorem holds_nil (hst : Stored L v cells) (hsize : v.size = 0) : Holds L v [] :=
  ⟨hsize, cells, hst⟩

theorem stored_empty (L : ArrayHeap T) :
    Stored L ({} : SmallVector T c) (List.replicate c.inlineCapacity none) :=
  .inlined List.length_replicate

theorem holds_empty (L : ArrayHeap T) : Holds L ({} : SmallVector T c) [] :=
  holds_nil (stored_empty L) rfl

theorem Holds.cell_eq (h : Holds L v l) : ∃ cells, Stored L v cells ∧
    ∀ i (hi : i < l.length), cells[i]? = some (some l[i]) := by
  obtain ⟨rest, hst⟩ := h.stored
  refine ⟨_, hst, fun i hi => ?_⟩
  rw [List.getElem?_append_left (by simpa using hi)]
  simp

/-- **An element of a vector**, read on any heap that has its buffer. -/
theorem Holds.element_run (h : Holds L v l) {i : ℕ} (hi : i < l.length)
    (hsame : ∀ e ∈ v.owned, L'.buffers e.1 = L.buffers e.1) :
    (v.element i).run L' = (.ok l[i], L') := by
  obtain ⟨cells, hst, hcell⟩ := h.cell_eq
  exact hst.element_run (hcell i hi) hsame

/-- The elements of a vector, one after the other. -/
theorem Holds.elements (h : Holds L v l) :
    List.Forall₂ (fun read x => ∀ L' : ArrayHeap T,
        (∀ e ∈ v.owned, L'.buffers e.1 = L.buffers e.1) → read.run L' = (.ok x, L'))
      (v.elements 0 v.size) l := by
  rw [List.forall₂_iff_get]
  refine ⟨by simp [SmallVector.elements, h.size_eq], fun i hi hi' L' hsame => ?_⟩
  simpa [SmallVector.elements] using h.element_run hi' hsame

theorem Holds.cell_reads (h : Holds L v l) {i : ℕ} (hi : i < l.length) :
    L.Reads (v.cell i).load l[i] := fun L' hext => by
  refine h.element_run hi fun e he => ?_
  obtain ⟨content, hp⟩ := Ledger.live_iff.mp (h.live he)
  rw [hp, hext e.1 _ hp]

/-- The range of a vector's elements. -/
theorem Holds.cells_reads (h : Holds L v l) :
    List.Forall₂ (fun r x => L.Reads r.load x) v.cells l := by
  rw [List.forall₂_iff_get]
  refine ⟨by simp [SmallVector.cells, h.size_eq], fun i hi hi' => ?_⟩
  simpa [SmallVector.cells] using h.cell_reads hi'

/-- The elements of a vector, read while others take more memory. -/
theorem Holds.elements_reads (h : Holds L v l) :
    List.Forall₂ L.Reads (v.elements 0 v.size) l :=
  h.elements.imp fun read x hread L' hext => hread L' fun e he => by
    obtain ⟨content, hp⟩ := Ledger.live_iff.mp (h.live he)
    rw [hp, hext e.1 _ hp]

/-- **What a vector shows** is the list it holds. -/
theorem Holds.read_run (h : Holds L v l) : v.read.run L = (.ok l, L) :=
  readAll_run (h.elements.imp fun _ _ hread => hread L fun _ _ => rfl)

/-! ### What a member function does -/

/-- The vector holds `l` afterwards, and the memory it does not need went back. -/
structure Becomes (s s' : VectorState T c) (l : List T) : Prop where
  holds : Holds s'.heap s'.this l
  transfer : Transfer s.heap s.this.owned s'.heap s'.this.owned

/-- Neither the vector nor any buffer changed. -/
structure Same (s s' : VectorState T c) : Prop where
  this_eq : s'.this = s.this
  buffers_eq : s'.heap.buffers = s.heap.buffers

/-- The function returns with the vector holding `l`. -/
def Succeeds (x : VectorAction T c Unit) (s : VectorState T c) (l : List T) : Prop :=
  ∃ s', x.run s = (.ok (), s') ∧ Becomes s s' l

/-- The function returns with the vector holding `l`, or there is no memory and nothing changed. -/
def Attempts (x : VectorAction T c Unit) (s : VectorState T c) (l : List T) : Prop :=
  Succeeds x s l ∨ ∃ s', x.run s = (.error .badAlloc, s') ∧ Same s s'

variable {s s' s'' : VectorState T c}

theorem Becomes.trans (h : Becomes s s' l) (h' : Becomes s' s'' xs) : Becomes s s'' xs :=
  ⟨h'.holds, h.transfer.trans h'.transfer⟩

theorem Holds.becomes (h : Holds s.heap s.this l) : Becomes s s l := ⟨h, .refl _ _⟩

/-! ### Writing cells -/

/-- The object with other cells behind `data()`. -/
def withCells (s : VectorState T c) (cells : List (Option T)) : VectorState T c :=
  match s.this.storage with
  | .inlineStorage _ => { s with this := { s.this with storage := .inlineStorage cells } }
  | .heapData p => { s with heap := s.heap.write p s.this.capacity cells }

/-- The object with another size. -/
def withSize (s : VectorState T c) (n : ℕ) : VectorState T c :=
  { s with this := { s.this with size := n } }

/-- Writing the cells of a vector changes no other buffer. -/
theorem becomes_withCells (hst : Stored s.heap s.this cells) (rest : List (Option T))
    (hlen : l.length + rest.length = cells.length) :
    Becomes s (withSize (withCells s (l.map some ++ rest)) l.length) l := by
  have hlen' : (l.map some ++ rest).length = cells.length := by simpa using hlen
  rcases s with ⟨heap, v⟩
  cases hst with
  | inlined hcells => exact ⟨⟨rfl, rest, .inlined (hlen'.trans hcells)⟩, .refl _ _⟩
  | allocated hcap hmax hcells hp =>
    exact ⟨⟨rfl, rest, .allocated hcap hmax (hlen'.trans hcells) (Ledger.write_buffers_self ..)⟩,
      .written (Ledger.Live.of_buffers hp) List.mem_cons_self _⟩

/-- `Construct(data() + i, x)` while a loop counts `size_`. -/
theorem construct_run (hst : Stored s.heap s.this cells) {now : List (Option T)} {i : ℕ}
    (hi : i < now.length) (n : ℕ) (x : T) :
    (construct i x).run (withSize (withCells s now) n) =
      (.ok (), withSize (withCells s (now.set i (some x))) n) := by
  rcases s with ⟨heap, v⟩
  unfold construct
  rw [Action.run_bind_ok (Action.run_get _)]
  cases hst with
  | inlined =>
    simp [constructInline, withCells, withSize, isHeap, hi, setThis, Action.run_bind]
  | @allocated p size capacity _ hcap _ _ hp =>
    have hstore := ArrayHeap.store_run (Ledger.write_buffers_self heap p capacity now) hi x
    rw [Ledger.write_write] at hstore
    simpa [withCells, withSize, isHeap, hcap] using
      run_onHeap (s := withSize (withCells ⟨heap, ⟨.heapData p, size, capacity⟩⟩ now) n) hstore

/-- `Construct(storage_.inline_storage.data + i, x)`. -/
theorem constructInline_run (hinline : ∃ data, s.this.storage = .inlineStorage data)
    {now : List (Option T)} {i : ℕ} (hi : i < now.length) (x : T) :
    (constructInline i x).run (withCells s now) = (.ok (), withCells s (now.set i (some x))) := by
  rcases s with ⟨heap, ⟨storage, size, capacity⟩⟩
  obtain ⟨data, rfl⟩ := hinline
  simp [constructInline, withCells, hi, setThis, Action.run_bind]

theorem withCells_capacity (s : VectorState T c) (now : List (Option T)) :
    (withCells s now).this.capacity = s.this.capacity := by
  rcases s with ⟨heap, ⟨storage, size, capacity⟩⟩
  cases storage <;> rfl

theorem withCells_self (hst : Stored s.heap s.this cells) : withCells s cells = s := by
  rcases s with ⟨heap, v⟩
  cases hst with
  | inlined => rfl
  | allocated _ _ _ hp => simp only [withCells, Ledger.write_self hp]

/-- **The loops that construct elements at the end.** -/
theorem append_run (h : Holds s.heap s.this l) {reads : List (Action (ArrayHeap T) Fault T)}
    (hreads : List.Forall₂ (fun read x => ∀ cells,
      read.run (withCells s cells).heap = (.ok x, (withCells s cells).heap)) reads xs)
    (hroom : l.length + xs.length ≤ s.this.capacity) : Succeeds (append reads) s (l ++ xs) := by
  obtain ⟨rest, hst⟩ := h.stored
  have hlength := hst.length_eq
  rw [List.length_append, List.length_map] at hlength
  have hstart : withSize (withCells s (l.map some ++ rest)) l.length = s := by
    rw [withCells_self hst, ← h.size_eq]
    rfl
  have hloop := writeAll_run (fun i cells => withSize (withCells s cells) i)
    (fun i x => do construct i x; setSize (i + 1)) (fun i now x hi => by
      rw [Action.run_bind_ok (construct_run hst hi i x)]
      rfl)
    (forall₂_onHeap _ (hreads.imp fun _ _ hread _ now => hread now)) (l.map some) rest (by omega)
  refine ⟨_, ?_, becomes_withCells hst (rest.drop xs.length) ?_⟩
  · unfold append
    rw [Action.run_bind_ok (Action.run_get s), h.size_eq]
    simp only [List.length_map, hstart] at hloop
    rw [hloop, List.map_append, List.length_append]
  · rw [List.length_append, List.length_drop, List.length_append, List.length_map]
    omega

theorem withCells_heap_of_inline (hinline : ∃ data, s.this.storage = .inlineStorage data)
    (now : List (Option T)) : (withCells s now).heap = s.heap := by
  obtain ⟨data, hdata⟩ := hinline
  simp only [withCells, hdata]

/-- **The loops that fill the inline array.** -/
theorem fillInline_run (hst : Stored s.heap s.this cells) (hinline : s.this.isHeap = false)
    {reads : List (Action (ArrayHeap T) Fault T)}
    (hreads : List.Forall₂ (fun read x => read.run s.heap = (.ok x, s.heap)) reads xs)
    (hroom : xs.length ≤ c.inlineCapacity) : Succeeds (fillInline reads) s xs := by
  obtain ⟨hstorage, hlen⟩ := hst.inline_storage hinline
  have hdata : ∃ data, s.this.storage = .inlineStorage data := ⟨cells, hstorage⟩
  have hloop := writeAll_run_zero (fun _ now => withCells s now) constructInline
    (fun _ _ x hi => constructInline_run hdata hi x)
    (forall₂_onHeap _ (hreads.imp fun _ _ hread _ now => by
      rw [withCells_heap_of_inline hdata now, hread]))
    cells (hlen ▸ hroom)
  rw [withCells_self hst] at hloop
  refine ⟨_, ?_, becomes_withCells hst (cells.drop xs.length) ?_⟩
  · unfold fillInline
    rw [Action.run_bind_ok hloop, hreads.length_eq]
    rfl
  · rw [List.length_drop]
    omega

/-! ### New arrays -/

/-- `ReplaceWithHeap` makes a filled array the storage and gives the old one back. -/
theorem replaceWithHeap_run (hst : Stored s.heap s.this cells) {p : Address} {capacity : ℕ}
    (hcap : c.inlineCapacity < capacity) (hmax : capacity ≤ c.maxSize)
    {rest : List (Option T)} (hlen : (l.map some ++ rest).length = capacity)
    (hp : s.heap.buffers p = some (capacity, l.map some ++ rest))
    (hne : ∀ e ∈ s.this.owned, e.1 ≠ p) :
    ∃ s', (replaceWithHeap p l.length capacity).run s = (.ok (), s') ∧
      s'.this = ⟨.heapData p, l.length, capacity⟩ ∧ Holds s'.heap s'.this l ∧
      Transfer s.heap (s.this.owned ++ [(p, capacity)]) s'.heap [(p, capacity)] := by
  rcases s with ⟨heap, v⟩
  cases hst with
  | inlined =>
    refine ⟨⟨heap, ⟨.heapData p, l.length, capacity⟩⟩, ?_, rfl,
      ⟨rfl, rest, .allocated hcap hmax hlen hp⟩, .refl _ _⟩
    simp [replaceWithHeap, isHeap, setThis, Action.run_bind]
  | @allocated q size oldCapacity _ hold _ _ hq =>
    have hqp : q ≠ p := hne _ List.mem_cons_self
    have hlive := Ledger.Live.of_buffers hq
    refine ⟨⟨heap.drop q, ⟨.heapData p, l.length, capacity⟩⟩, ?_, rfl,
      ⟨rfl, rest, .allocated hcap hmax hlen ?_⟩, .dropped hlive _⟩
    · simpa [replaceWithHeap, isHeap, hold, setThis, Action.run_bind] using
        run_onHeap (s := (⟨heap, ⟨.heapData p, l.length, capacity⟩⟩ : VectorState T c))
          (Ledger.deallocate_run hlive)
    · rw [Ledger.drop_buffers_ne heap hqp.symm]
      exact hp

/-- **A new array with what was read**, or no memory. -/
theorem replaceWithArray_run (hst : Stored s.heap s.this cells) {capacity : ℕ}
    (hcap : c.inlineCapacity < capacity) {reads : List (Action (ArrayHeap T) Fault T)}
    (hreads : List.Forall₂ s.heap.Reads reads xs) (hroom : xs.length ≤ capacity) :
    (∃ s', (replaceWithArray capacity reads).run s = (.ok (), s') ∧ s'.this.capacity = capacity ∧
      Becomes s s' xs) ∨
    ∃ s', (replaceWithArray capacity reads).run s = (.error .badAlloc, s') ∧ Same s s' := by
  unfold replaceWithArray
  rcases ArrayHeap.allocate_run (T := T) c.maxSize capacity s.heap with
    ⟨p, hmax, hp, hok⟩ | ⟨L', herr, hbuffers⟩
  swap
  · exact .inr ⟨_, Action.run_bind_error (run_onHeap herr), rfl, hbuffers⟩
  left
  rw [Action.run_bind_ok (run_onHeap hok)]
  -- the new array is filled while nothing else changes
  have hloop := writeAll_run_zero
    (fun _ now => { s with heap := s.heap.asked.write p capacity now })
    (fun i x => onHeap (ArrayHeap.store p i x))
    (fun _ now x hi => by
      have hstore := ArrayHeap.store_run (Ledger.write_buffers_self s.heap.asked p capacity now)
        hi x
      rw [Ledger.write_write] at hstore
      exact run_onHeap hstore)
    (forall₂_onHeap (fun _ now => { s with heap := s.heap.asked.write p capacity now })
      (hreads.imp fun _ _ hread _ now => hread _ (.allocated hp capacity now)))
    (List.replicate capacity none) (by simpa using hroom)
  rw [Action.run_bind_ok hloop, hreads.length_eq]
  have hlive := fun e (he : e ∈ s.this.owned) => hst.live he
  have hne : ∀ e ∈ s.this.owned, e.1 ≠ p := fun e he hep => by
    obtain ⟨content, he'⟩ := Ledger.live_iff.mp (hlive e he)
    rw [hep, hp] at he'
    cases he'
  obtain ⟨s', hrun, hthis, hholds, htransfer⟩ := replaceWithHeap_run
    (s := ⟨s.heap.asked.write p capacity
      (xs.map some ++ (List.replicate capacity none).drop xs.length), s.this⟩)
    (hst.congr fun e he => Ledger.write_buffers_ne _ _ _ (hne e he)) hcap hmax
    (by simp; omega) (Ledger.write_buffers_self ..) hne
  refine ⟨s', hrun, by rw [hthis], hholds, ?_⟩
  rw [hthis]
  refine Transfer.trans ?_ htransfer
  exact (Transfer.allocated hp capacity _ s.this.owned).perm (.refl _)
    (List.perm_append_singleton (p, capacity) s.this.owned).symm

theorem reallocate_run (h : Holds s.heap s.this l) {capacity : ℕ}
    (hcap : s.this.capacity < capacity) :
    (∃ s', (reallocate capacity).run s = (.ok (), s') ∧ s'.this.capacity = capacity ∧
      Becomes s s' l) ∨
    ∃ s', (reallocate capacity).run s = (.error .badAlloc, s') ∧ Same s s' := by
  obtain ⟨rest, hst⟩ := h.stored
  unfold reallocate
  rw [Action.run_bind_ok (Action.run_get s)]
  exact replaceWithArray_run hst (Nat.lt_of_le_of_lt hst.le_capacity hcap) h.elements_reads
    (Nat.le_trans h.length_le (Nat.le_of_lt hcap))

/-- While there can be a larger array, growing makes room for one more element. -/
theorem growForAppend_run (h : Holds s.heap s.this l) (hmax : s.this.capacity < c.maxSize) :
    (∃ s', growForAppend.run s = (.ok (), s') ∧ s.this.capacity < s'.this.capacity ∧
      Becomes s s' l) ∨
    ∃ s', growForAppend.run s = (.error .badAlloc, s') ∧ Same s s' := by
  unfold growForAppend
  rw [Action.run_bind_ok (Action.run_get s)]
  refine (reallocate_run h ?_).imp_left ?_
  · split <;> split <;> omega
  · rintro ⟨s', hrun, hcap, hbecomes⟩
    refine ⟨s', hrun, ?_, hbecomes⟩
    rw [hcap]
    split <;> split <;> omega

/-! ### Constructors -/

theorem initialize_of_room {count : ℕ} {reads : List (Action (ArrayHeap T) Fault T)}
    (hreads : List.Forall₂ L.Reads reads xs) (hcount : xs.length = count)
    (hle : count ≤ c.inlineCapacity) :
    Succeeds (if count ≤ c.inlineCapacity then fillInline reads
      else replaceWithArray count reads) (⟨L, {}⟩ : VectorState T c) xs := by
  rw [if_pos hle]
  exact fillInline_run (stored_empty L) (by simp [isHeap])
    (hreads.imp fun _ _ hread => hread L (.refl L)) (hcount ▸ hle)

/-- What all initializers do with a count: fill the inline array, or a new array of that many. -/
theorem initialize_run {count : ℕ} {reads : List (Action (ArrayHeap T) Fault T)}
    (hreads : List.Forall₂ L.Reads reads xs) (hcount : xs.length = count) :
    Attempts (if count ≤ c.inlineCapacity then fillInline reads
      else replaceWithArray count reads) (⟨L, {}⟩ : VectorState T c) xs := by
  by_cases hle : count ≤ c.inlineCapacity
  · exact .inl (initialize_of_room hreads hcount hle)
  · rw [if_neg hle]
    refine (replaceWithArray_run (stored_empty L) (Nat.lt_of_not_le hle) hreads
      (Nat.le_of_eq hcount)).imp_left ?_
    rintro ⟨s', hrun, -, hbecomes⟩
    exact ⟨s', hrun, hbecomes⟩

theorem initializeCount_run [Inhabited T] (count : ℕ) (L : ArrayHeap T) :
    Attempts (initializeCount count) (⟨L, {}⟩ : VectorState T c)
      (List.replicate count default) :=
  initialize_run (forall₂_replicate (.pure L default) count) List.length_replicate

theorem initializeCount_of_room [Inhabited T] {count : ℕ} (hle : count ≤ c.inlineCapacity)
    (L : ArrayHeap T) : Succeeds (initializeCount count) (⟨L, {}⟩ : VectorState T c)
      (List.replicate count default) :=
  initialize_of_room (forall₂_replicate (.pure L default) count) List.length_replicate hle

theorem initializeFill_run (count : ℕ) {value : Ref T} (hvalue : L.Reads value.load x) :
    Attempts (initializeFill count value) (⟨L, {}⟩ : VectorState T c) (List.replicate count x) :=
  initialize_run (forall₂_replicate hvalue count) List.length_replicate

theorem initializeFill_of_room {count : ℕ} (hle : count ≤ c.inlineCapacity) {value : Ref T}
    (hvalue : L.Reads value.load x) :
    Succeeds (initializeFill count value) (⟨L, {}⟩ : VectorState T c) (List.replicate count x) :=
  initialize_of_room (forall₂_replicate hvalue count) List.length_replicate hle

theorem initializeForwardRange_run {range : List (Ref T)}
    (hrange : List.Forall₂ (fun r x => L.Reads r.load x) range xs) :
    Attempts (initializeForwardRange range) (⟨L, {}⟩ : VectorState T c) xs := by
  unfold initializeForwardRange
  by_cases hempty : range = []
  · subst hempty
    obtain rfl : xs = [] := List.forall₂_nil_left_iff.mp hrange
    exact .inl ⟨_, rfl, (holds_empty L).becomes⟩
  · rw [if_neg hempty]
    exact initialize_run (List.forall₂_map_left_iff.mpr hrange) hrange.length_eq.symm

theorem initializeForwardRange_of_room {range : List (Ref T)}
    (hrange : List.Forall₂ (fun r x => L.Reads r.load x) range xs)
    (hle : xs.length ≤ c.inlineCapacity) :
    Succeeds (initializeForwardRange range) (⟨L, {}⟩ : VectorState T c) xs := by
  unfold initializeForwardRange
  by_cases hempty : range = []
  · subst hempty
    obtain rfl : xs = [] := List.forall₂_nil_left_iff.mp hrange
    exact ⟨_, rfl, (holds_empty L).becomes⟩
  · rw [if_neg hempty]
    exact initialize_of_room (List.forall₂_map_left_iff.mpr hrange) hrange.length_eq.symm
      (hrange.length_eq ▸ hle)

theorem withCells_buffers {p : Address} (hp : ∀ e ∈ s.this.owned, e.1 ≠ p)
    (now : List (Option T)) : (withCells s now).heap.buffers p = s.heap.buffers p := by
  rcases s with ⟨heap, ⟨storage, size, capacity⟩⟩
  cases storage with
  | inlineStorage => rfl
  | heapData q => exact Ledger.write_buffers_ne _ _ _ (hp _ List.mem_cons_self).symm

/-- The elements are appended after the capacity was made, if any is needed. -/
theorem appendCopies_run (h : Holds L other l) (hs : Becomes ⟨L, {}⟩ s [])
    (hcap : s.this.capacity = other.capacity) :
    Succeeds (append (other.elements s.this.size other.size)) s l := by
  rw [show s.this.size = 0 from hs.holds.size_eq]
  refine append_run hs.holds (h.elements.imp fun read x hread now => hread _ fun e he => ?_)
    (by simpa [hcap] using h.length_le)
  obtain ⟨content, hp⟩ := Ledger.live_iff.mp (h.live he)
  have hfresh : ∀ e' ∈ s.this.owned, e'.1 ≠ e.1 := fun e' he' hee => by
    have hnone := hs.transfer.fresh he'
    rw [hee, hp] at hnone
    cases hnone
  rw [withCells_buffers hfresh now, hp]
  exact hs.transfer.frame e.1 _ hp fun _ => List.not_mem_nil

theorem copyConstructFrom_of_inline (h : Holds L other l) (hheap : other.isHeap = false) :
    Succeeds (copyConstructFrom other) (⟨L, {}⟩ : VectorState T c) l := by
  obtain ⟨rest, hst⟩ := h.stored
  have hcap : (⟨L, {}⟩ : VectorState T c).this.capacity = other.capacity := by
    rw [← hst.length_eq, (hst.inline_storage hheap).2]
  obtain ⟨s', hrun, hbecomes⟩ := appendCopies_run h (holds_empty L).becomes hcap
  unfold copyConstructFrom
  rw [hheap, if_neg (by simp)]
  exact ⟨s', hrun, hbecomes⟩

theorem copyConstructFrom_run (h : Holds L other l) :
    Attempts (copyConstructFrom other) (⟨L, {}⟩ : VectorState T c) l := by
  cases hheap : other.isHeap with
  | false => exact .inl (copyConstructFrom_of_inline h hheap)
  | true =>
    unfold copyConstructFrom
    rw [hheap, if_pos rfl]
    have hcap : (⟨L, {}⟩ : VectorState T c).this.capacity < other.capacity := by
      simpa [isHeap] using hheap
    rcases reallocate_run (s := ⟨L, {}⟩) (holds_empty L) hcap with
      ⟨s₁, hrun, hcap₁, hbecomes⟩ | ⟨s₁, hrun, hsame⟩
    · obtain ⟨s', hrun', hbecomes'⟩ := appendCopies_run h hbecomes hcap₁
      exact .inl ⟨s', (Action.run_bind_ok hrun).trans hrun', hbecomes.trans hbecomes'⟩
    · exact .inr ⟨s₁, Action.run_bind_error hrun, hsame⟩

/-! ### Moving -/

/-- The vector holds what `other` held and has its memory, and `other` is inline and empty. -/
structure Moved (s s' : VectorState T c) (other other' : SmallVector T c) (l : List T) : Prop where
  holds : Holds s'.heap s'.this l
  source : Holds s'.heap other' []
  source_inline : other'.isHeap = false
  transfer : Transfer s.heap (s.this.owned ++ other.owned) s'.heap s'.this.owned

theorem Moved.source_owned (h : Moved s s' other v l) : v.owned = [] :=
  h.source.stored.elim fun _ hst => hst.owned_of_inline h.source_inline

/-- The destructor of a vector that was moved from does nothing. -/
theorem Moved.destroy_run (h : Moved s s' other v l) :
    (onHeap v.destroy : VectorAction T c Unit).run s' = (.ok (), s') := by
  have hdestroy : v.destroy.run s'.heap = (.ok (), s'.heap) := by
    unfold destroy
    rw [h.source_inline]
    rfl
  exact run_onHeap hdestroy

theorem Holds.elements_of_inline (h : Holds L v l) (hv : v.isHeap = false) :
    List.Forall₂ (fun read x => ∀ L' : ArrayHeap T, read.run L' = (.ok x, L'))
      (v.elements 0 v.size) l := by
  obtain ⟨rest, hst⟩ := h.stored
  exact h.elements.imp fun read x hread L' => hread L' fun e he => by
    rw [hst.owned_of_inline hv] at he
    cases he

theorem Holds.length_le_of_inline (h : Holds L v l) (hv : v.isHeap = false) :
    l.length ≤ c.inlineCapacity := by
  obtain ⟨rest, hst⟩ := h.stored
  rw [← (hst.inline_storage hv).2, List.length_append, List.length_map]
  exact Nat.le_add_right _ _

/-- An inline vector that is moved from stays as it is, without elements. -/
theorem Holds.cleared (h : Holds L v l) (hv : v.isHeap = false) (L' : ArrayHeap T) :
    Holds L' ({ v with size := 0 } : SmallVector T c) [] := by
  obtain ⟨rest, hst⟩ := h.stored
  refine holds_nil ((hst.setSize 0).congr fun e he => ?_) rfl
  rw [show ({ v with size := 0 } : SmallVector T c).owned = v.owned from rfl,
    hst.owned_of_inline hv] at he
  cases he

theorem moveConstructFrom_run (h : Holds L other l) :
    ∃ s' other', (moveConstructFrom other).run (⟨L, {}⟩ : VectorState T c) = (.ok other', s') ∧
      Moved ⟨L, {}⟩ s' other other' l := by
  cases hheap : other.isHeap with
  | false =>
    obtain ⟨rest, hst⟩ := h.stored
    obtain ⟨s', hrun, hbecomes⟩ := append_run (s := ⟨L, {}⟩) (holds_empty (c := c) L)
      ((h.elements_of_inline hheap).imp fun _ _ hread _ => hread _)
      (by simpa using h.length_le_of_inline hheap)
    refine ⟨s', { other with size := 0 }, ?_, hbecomes.holds, h.cleared hheap _, hheap, ?_⟩
    · unfold moveConstructFrom
      rw [hheap]
      simp only
      rw [Action.run_bind_ok (Action.run_get _), Action.run_bind_ok hrun]
      rfl
    · rw [hst.owned_of_inline hheap, List.append_nil]
      exact hbecomes.transfer
  | true =>
    obtain ⟨hsize, rest, hst⟩ := h
    cases hst with
    | inlined => simp [isHeap] at hheap
    | @allocated p size capacity _ hcap hmax hlen hp =>
      refine ⟨⟨L, ⟨.heapData p, size, capacity⟩⟩, {}, ?_,
        ⟨hsize, rest, .allocated hcap hmax hlen hp⟩, holds_empty L, by simp [isHeap],
        .refl L [(p, capacity)]⟩
      unfold moveConstructFrom
      rw [hheap]
      rfl

/-! ### Destruction and assignment -/

theorem destroy_run (hst : Stored L v cells) :
    ∃ L', v.destroy.run L = (.ok (), L') ∧ Transfer L v.owned L' [] := by
  cases hst with
  | inlined => exact ⟨L, by simp [destroy, isHeap], .refl L []⟩
  | @allocated p size capacity _ hcap _ _ hp =>
    have hlive := Ledger.Live.of_buffers hp
    exact ⟨L.drop p, by simpa [destroy, isHeap, hcap] using Ledger.deallocate_run hlive,
      .dropped hlive []⟩

/-- `AssignInline` of values that do not lie on the heap. -/
theorem assignInline_run (hst : Stored s.heap s.this cells)
    {values : List (Action (ArrayHeap T) Fault T)}
    (hvalues : List.Forall₂ (fun read x => ∀ L : ArrayHeap T, read.run L = (.ok x, L)) values xs)
    (hroom : xs.length ≤ c.inlineCapacity) : Succeeds (assignInline values) s xs := by
  rcases s with ⟨heap, v⟩
  unfold assignInline
  rw [Succeeds, Action.run_bind_ok (Action.run_get _)]
  cases hheap : v.isHeap with
  | false => exact fillInline_run hst hheap (hvalues.imp fun _ _ hread => hread heap) hroom
  | true =>
    cases hst with
    | inlined => simp [isHeap] at hheap
    | @allocated p size capacity _ hcap _ _ hp =>
      have hlive := Ledger.Live.of_buffers hp
      have hswitch : switchToInline.run (⟨heap, ⟨.heapData p, size, capacity⟩⟩ : VectorState T c) =
          (.ok (), ⟨heap.drop p, {}⟩) :=
        run_onHeap (s := (⟨heap, {}⟩ : VectorState T c)) (Ledger.deallocate_run hlive)
      obtain ⟨s', hrun, hbecomes⟩ := fillInline_run (s := ⟨heap.drop p, {}⟩)
        (stored_empty (c := c) (heap.drop p)) (by simp [isHeap])
        (hvalues.imp fun _ _ hread => hread _) hroom
      rw [if_pos rfl, Action.run_bind_ok hswitch]
      exact ⟨s', hrun, hbecomes.holds, (Transfer.dropped hlive []).trans hbecomes.transfer⟩

theorem copyAssign_of_inline (hst : Stored s.heap s.this cells) (h : Holds s.heap other l)
    (hheap : other.isHeap = false) : Succeeds (copyAssign other) s l := by
  unfold copyAssign
  rw [hheap, if_neg (by simp)]
  exact assignInline_run hst (h.elements_of_inline hheap) (h.length_le_of_inline hheap)

/-- **Copy assignment** from another vector. -/
theorem copyAssign_run (hst : Stored s.heap s.this cells) (h : Holds s.heap other l) :
    Attempts (copyAssign other) s l := by
  cases hheap : other.isHeap with
  | false => exact .inl (copyAssign_of_inline hst h hheap)
  | true =>
    unfold copyAssign
    rw [hheap, if_pos rfl]
    refine (replaceWithArray_run hst (by simpa [isHeap] using hheap) h.elements_reads
      h.length_le).imp_left ?_
    rintro ⟨s', hrun, -, hbecomes⟩
    exact ⟨s', hrun, hbecomes⟩

/-- **Move assignment** from another vector never throws. -/
theorem moveAssign_run (hst : Stored s.heap s.this cells) (h : Holds s.heap other l)
    (hne : ∀ e ∈ s.this.owned, ∀ e' ∈ other.owned, e.1 ≠ e'.1) :
    ∃ s' other', (moveAssign other).run s = (.ok other', s') ∧ Moved s s' other other' l := by
  unfold moveAssign
  cases hheap : other.isHeap with
  | false =>
    obtain ⟨s', hrun, hbecomes⟩ := assignInline_run hst (h.elements_of_inline hheap)
      (h.length_le_of_inline hheap)
    rw [if_neg (by simp), Action.run_bind_ok hrun]
    refine ⟨s', _, rfl, hbecomes.holds, h.cleared hheap _, hheap, ?_⟩
    obtain ⟨rest, hother⟩ := h.stored
    rw [hother.owned_of_inline hheap, List.append_nil]
    exact hbecomes.transfer
  | true =>
    rw [if_pos rfl]
    obtain ⟨hsize, rest, hother⟩ := h
    cases hother with
    | inlined => simp [isHeap] at hheap
    | @allocated p size capacity _ hcap hmax hlen hp =>
      obtain rfl : size = l.length := hsize
      obtain ⟨s', hrun, hthis, hholds, htransfer⟩ := replaceWithHeap_run hst hcap hmax hlen hp
        fun e he => hne e he _ List.mem_cons_self
      refine ⟨s', {}, ?_, hholds, holds_empty _, by simp [isHeap], ?_⟩
      · unfold moveAssignHeap
        rw [Action.run_bind_ok hrun]
        rfl
      · rw [hthis]
        exact htransfer

/-! ### Objects made on the way -/

/-- The program returns a new vector that holds `l`, or there is no memory and nothing changed. -/
def Constructs (x : Action (ArrayHeap T) Fault (SmallVector T c)) (L : ArrayHeap T) (l : List T) :
    Prop :=
  (∃ v L', x.run L = (.ok v, L') ∧ Holds L' v l ∧ Transfer L [] L' v.owned) ∨
    ∃ L', x.run L = (.error .badAlloc, L') ∧ L'.buffers = L.buffers

theorem construction_ok {init : VectorAction T c Unit} (hrun : init.run ⟨L, {}⟩ = (.ok (), s)) :
    (construction init).run L = (.ok s.this, s.heap) := by
  simp only [construction, Action.run] at hrun ⊢
  rw [hrun]

theorem construction_error {init : VectorAction T c Unit} {e : Fault}
    (hrun : init.run ⟨L, {}⟩ = (.error e, s)) : (construction init).run L = (.error e, s.heap) := by
  simp only [construction, Action.run] at hrun ⊢
  rw [hrun]

theorem construction_returns {init : VectorAction T c Unit} (h : Succeeds init ⟨L, {}⟩ l) :
    ∃ v L', (construction init).run L = (.ok v, L') ∧ Holds L' v l ∧ Transfer L [] L' v.owned := by
  obtain ⟨s, hrun, hholds, htransfer⟩ := h
  exact ⟨s.this, s.heap, construction_ok hrun, hholds, htransfer⟩

theorem construction_run {init : VectorAction T c Unit} (h : Attempts init ⟨L, {}⟩ l) :
    Constructs (construction init) L l := by
  rcases h with hok | ⟨s, hrun, hsame⟩
  · exact .inl (construction_returns hok)
  · exact .inr ⟨s.heap, construction_error hrun, hsame.buffers_eq⟩

theorem localVector_ok {x : VectorAction T c Unit} (hrun : x.run ⟨L, {}⟩ = (.ok (), s)) :
    (localVector x).run L = (.ok s.this, s.heap) := by
  simp only [localVector, Action.run] at hrun ⊢
  rw [hrun]

theorem localVector_error {x : VectorAction T c Unit} {e : Fault} {r : Except Fault Unit}
    (hrun : x.run ⟨L, {}⟩ = (.error e, s)) (hdestroy : s.this.destroy.run s.heap = (r, L')) :
    (localVector x).run L = (r.bind fun _ => .error e, L') := by
  simp only [localVector, Action.run] at hrun hdestroy ⊢
  rw [hrun]
  simp only [hdestroy]
  cases r <;> rfl

/-- A call on a local vector, which may fail with the local half done. -/
theorem localVector_run {x : VectorAction T c Unit}
    (h : Succeeds x ⟨L, {}⟩ l ∨
      ∃ s l', x.run ⟨L, {}⟩ = (.error .badAlloc, s) ∧ Becomes ⟨L, {}⟩ s l') :
    Constructs (localVector x) L l := by
  rcases h with ⟨s, hrun, hholds, htransfer⟩ | ⟨s, l', hrun, hbecomes⟩
  · exact .inl ⟨s.this, s.heap, localVector_ok hrun, hholds, htransfer⟩
  · obtain ⟨rest, hst⟩ := hbecomes.holds.stored
    obtain ⟨L', hdestroy, hgone⟩ := destroy_run hst
    exact .inr ⟨L', localVector_error hrun hdestroy, (hbecomes.transfer.trans hgone).buffers_eq⟩

/-! ### Members that change one vector -/

theorem clear_run (h : Holds s.heap s.this l) : Succeeds clear s [] := by
  obtain ⟨rest, hst⟩ := h.stored
  exact ⟨_, rfl, holds_nil (hst.setSize 0) rfl, .refl _ _⟩

theorem reserve_of_room (h : Holds s.heap s.this l) {requestedCapacity : ℕ}
    (hle : requestedCapacity ≤ s.this.capacity) : Succeeds (reserve requestedCapacity) s l := by
  unfold reserve
  rw [Succeeds, Action.run_bind_ok (Action.run_get s), if_pos hle]
  exact ⟨s, rfl, h.becomes⟩

theorem reserve_run (h : Holds s.heap s.this l) (requestedCapacity : ℕ) :
    Attempts (reserve requestedCapacity) s l := by
  by_cases hle : requestedCapacity ≤ s.this.capacity
  · exact .inl (reserve_of_room h hle)
  · unfold reserve
    rw [Attempts, Succeeds, Action.run_bind_ok (Action.run_get s), if_neg hle]
    refine (reallocate_run h (Nat.lt_of_not_le hle)).imp_left ?_
    rintro ⟨s', hrun, -, hbecomes⟩
    exact ⟨s', hrun, hbecomes⟩

/-- The elements that `resize` keeps, and the value-initialised ones it adds. -/
def resized [Inhabited T] (l : List T) (count : ℕ) : List T :=
  l.take count ++ List.replicate (count - l.length) default

/-- What `resize` does once there is room. -/
theorem appendDefaults_run [Inhabited T] (h : Holds s.heap s.this l) {count : ℕ}
    (hgrow : l.length ≤ count) (hroom : count ≤ s.this.capacity) :
    Succeeds (append (List.replicate (count - l.length) (pure default))) s (resized l count) := by
  rw [resized, List.take_of_length_le hgrow]
  exact append_run h (forall₂_replicate (fun _ => rfl) _) (by simp; omega)

theorem resize_of_room [Inhabited T] (h : Holds s.heap s.this l) {count : ℕ}
    (hroom : count ≤ s.this.capacity) : Succeeds (resize count) s (resized l count) := by
  unfold resize
  rw [Succeeds, Action.run_bind_ok (Action.run_get s)]
  dsimp only
  rw [h.size_eq]
  by_cases hle : count ≤ l.length
  · rw [if_pos hle, resized, Nat.sub_eq_zero_of_le hle, List.replicate_zero, List.append_nil]
    obtain ⟨rest, hst⟩ := h.stored
    refine ⟨_, rfl, ⟨(List.length_take_of_le hle).symm, (l.drop count).map some ++ rest, ?_⟩,
      .refl _ _⟩
    rw [← List.append_assoc, ← List.map_append, List.take_append_drop]
    exact hst.setSize count
  · rw [if_neg hle, if_neg (Nat.not_lt.mpr hroom)]
    exact appendDefaults_run h (Nat.le_of_not_le hle) hroom

theorem resize_run [Inhabited T] (h : Holds s.heap s.this l) (count : ℕ) :
    Attempts (resize count) s (resized l count) := by
  by_cases hroom : count ≤ s.this.capacity
  · exact .inl (resize_of_room h hroom)
  · have hgrow : ¬count ≤ l.length := fun hle => hroom (Nat.le_trans hle h.length_le)
    unfold resize
    rw [Attempts, Succeeds, Action.run_bind_ok (Action.run_get s)]
    dsimp only
    rw [h.size_eq, if_neg hgrow, if_pos (Nat.lt_of_not_le hroom)]
    rcases reallocate_run h (Nat.lt_of_not_le hroom) with
      ⟨s₁, hrun, hcap, hbecomes⟩ | ⟨s₁, hrun, hsame⟩
    · obtain ⟨s', hrun', hbecomes'⟩ :=
        appendDefaults_run hbecomes.holds (Nat.le_of_not_le hgrow) (Nat.le_of_eq hcap.symm)
      exact .inl ⟨s', (Action.run_bind_ok hrun).trans hrun', hbecomes.trans hbecomes'⟩
    · exact .inr ⟨s₁, Action.run_bind_error hrun, hsame⟩

/-- `Construct(data() + size_, x)` where there is room; only `++size_` is missing. -/
theorem constructLast_run (h : Holds s.heap s.this l) (hroom : l.length < s.this.capacity)
    (x : T) : ∃ s', (construct l.length x).run s = (.ok (), s') ∧ s'.this.size = l.length ∧
      s'.this.capacity = s.this.capacity ∧ Becomes s (withSize s' (l.length + 1)) (l ++ [x]) := by
  obtain ⟨rest, hst⟩ := h.stored
  have hlength := hst.length_eq
  rw [List.length_append, List.length_map] at hlength
  have hi : l.length < (l.map some ++ rest).length := by
    rw [List.length_append, List.length_map]
    omega
  have hrun := construct_run hst hi l.length x
  rw [withCells_self hst, show withSize s l.length = s by rw [← h.size_eq]; rfl] at hrun
  obtain _ | ⟨cell, rest⟩ := rest
  · simp only [List.length_nil] at hlength
    omega
  have hset : (l.map some ++ cell :: rest).set l.length (some x) =
      (l ++ [x]).map some ++ rest := by
    simp
  have hbecomes := becomes_withCells (l := l ++ [x]) hst rest (by simp; omega)
  rw [hset] at hrun
  rw [List.length_append] at hbecomes
  exact ⟨_, hrun, rfl, withCells_capacity s _, hbecomes⟩

/-- `push_back` into the capacity that is there. -/
theorem pushBack_of_room (h : Holds s.heap s.this l) (hroom : l.length < s.this.capacity)
    {value : Argument T} (hvalue : value.load.run s = (.ok x, s)) :
    ∃ s', (pushBack value).run s = (.ok (), s') ∧ s'.this.capacity = s.this.capacity ∧
      Becomes s s' (l ++ [x]) := by
  obtain ⟨s₁, hrun, hsize, hcap, hbecomes⟩ := constructLast_run h hroom x
  refine ⟨withSize s₁ (l.length + 1), ?_, hcap, hbecomes⟩
  unfold pushBack
  rw [Action.run_bind_ok (Action.run_get s), if_neg (h.size_eq ▸ Nat.ne_of_lt hroom),
    Action.run_bind_ok hvalue, h.size_eq, Action.run_bind_ok hrun,
    Action.run_bind_ok (Action.run_get s₁), hsize]
  rfl

/-- **`push_back`**, also of an element of the vector itself. -/
theorem pushBack_run (h : Holds s.heap s.this l) (hmax : l.length < c.maxSize)
    {value : Argument T} (hvalue : value.load.run s = (.ok x, s)) :
    Attempts (pushBack value) s (l ++ [x]) := by
  rcases Nat.lt_or_eq_of_le h.length_le with hroom | hfull
  · obtain ⟨s', hrun, -, hbecomes⟩ := pushBack_of_room h hroom hvalue
    exact .inl ⟨s', hrun, hbecomes⟩
  · unfold pushBack
    rw [Attempts, Succeeds, Action.run_bind_ok (Action.run_get s),
      if_pos (h.size_eq.trans hfull), Action.run_bind_ok hvalue]
    rcases growForAppend_run h (hfull ▸ hmax) with ⟨s₁, hrun, hcap, hbecomes⟩ | ⟨s₁, hrun, hsame⟩
    · obtain ⟨s₂, hrun₂, hsize₂, -, hbecomes₂⟩ := constructLast_run hbecomes.holds (hfull ▸ hcap) x
      refine .inl ⟨_, ?_, hbecomes.trans hbecomes₂⟩
      rw [Action.run_bind_ok hrun, Action.run_bind_ok (Action.run_get s₁),
        hbecomes.holds.size_eq, Action.run_bind_ok hrun₂, Action.run_bind_ok (Action.run_get s₂),
        hsize₂]
      rfl
    · exact .inr ⟨s₁, Action.run_bind_error hrun, hsame⟩

theorem setElement_run (h : Holds s.heap s.this l) {i : ℕ} (hi : i < l.length)
    {value : Argument T} (hvalue : value.load.run s = (.ok x, s)) :
    Succeeds (setElement i value) s (l.set i x) := by
  obtain ⟨rest, hst⟩ := h.stored
  have hlength : (l.map some ++ rest).length = l.length + rest.length := by simp
  have hroom : i < (l.map some ++ rest).length := by omega
  have hrun := construct_run hst hroom l.length x
  have hset : (l.map some ++ rest).set i (some x) = (l.set i x).map some ++ rest := by
    rw [List.set_append_left _ _ (by simpa using hi), List.map_set]
  rw [withCells_self hst, show withSize s l.length = s by rw [← h.size_eq]; rfl, hset] at hrun
  have hbecomes := becomes_withCells (l := l.set i x) hst rest (by rw [List.length_set, hlength])
  rw [List.length_set] at hbecomes
  exact ⟨_, (Action.run_bind_ok hvalue).trans hrun, hbecomes⟩

/-! ### Ranges that are walked once -/

/-- The loop of `InitializeInputRange`.  What it reads was there before the vector took memory. -/
theorem initializeInputRange_run {range : List (Ref T)}
    (hrange : List.Forall₂ (fun r x => L.Reads r.load x) range xs)
    (h : Holds s.heap s.this l) (htransfer : Transfer L [] s.heap s.this.owned)
    (hmax : l.length + xs.length ≤ c.maxSize) :
    Succeeds (initializeInputRange range) s (l ++ xs) ∨
      ∃ s' l', (initializeInputRange range).run s = (.error .badAlloc, s') ∧ Becomes s s' l' := by
  induction hrange generalizing s l with
  | nil => exact .inl ⟨s, rfl, by simpa using h.becomes⟩
  | @cons first x rest xs hfirst _ ih =>
    have hread := run_onHeap (s := s) (hfirst s.heap (.of_transfer htransfer))
    unfold initializeInputRange
    rw [Succeeds, Action.run_bind_ok hread]
    rw [List.length_cons] at hmax
    have hsaved : (Argument.ref (.fixed (some x))).load.run s = (.ok x, s) := rfl
    rcases pushBack_run h (by omega) hsaved with
      ⟨s₁, hrun, hbecomes⟩ | ⟨s₁, hrun, hsame⟩
    · have hnext := ih hbecomes.holds (htransfer.trans hbecomes.transfer)
        (by rw [List.length_append, List.length_singleton]; omega)
      rw [List.append_assoc, List.singleton_append, Succeeds] at hnext
      rw [Action.run_bind_ok hrun]
      rcases hnext with ⟨s', hrun', hbecomes'⟩ | ⟨s', l', hrun', hbecomes'⟩
      · exact .inl ⟨s', hrun', hbecomes.trans hbecomes'⟩
      · exact .inr ⟨s', l', hrun', hbecomes.trans hbecomes'⟩
    · refine .inr ⟨s₁, l, Action.run_bind_error hrun, ?_, ?_⟩
      · rw [hsame.this_eq]
        exact h.congr fun e _ => congrFun hsame.buffers_eq e.1
      · rw [hsame.this_eq]
        exact .of_same hsame.buffers_eq _

theorem initializeInputRange_of_room {range : List (Ref T)}
    (hrange : List.Forall₂ (fun r x => L.Reads r.load x) range xs)
    (h : Holds s.heap s.this l) (htransfer : Transfer L [] s.heap s.this.owned)
    (hroom : l.length + xs.length ≤ s.this.capacity) :
    Succeeds (initializeInputRange range) s (l ++ xs) := by
  induction hrange generalizing s l with
  | nil => exact ⟨s, rfl, by simpa using h.becomes⟩
  | @cons first x rest xs hfirst _ ih =>
    have hread := run_onHeap (s := s) (hfirst s.heap (.of_transfer htransfer))
    have hsaved : (Argument.ref (.fixed (some x))).load.run s = (.ok x, s) := rfl
    rw [List.length_cons] at hroom
    obtain ⟨s₁, hrun, hcap, hbecomes⟩ := pushBack_of_room h (by omega) hsaved
    obtain ⟨s', hrun', hbecomes'⟩ := ih hbecomes.holds (htransfer.trans hbecomes.transfer)
      (by rw [List.length_append, List.length_singleton, hcap]; omega)
    rw [List.append_assoc, List.singleton_append] at hbecomes'
    refine ⟨s', ?_, hbecomes.trans hbecomes'⟩
    unfold initializeInputRange
    rw [Action.run_bind_ok hread, Action.run_bind_ok hrun, hrun']

/-- The vector that was filled from the range is moved from. -/
theorem initializeRange_of_local {range : List (Ref T)} {v : SmallVector T c}
    (hrun : (localVector (initializeInputRange range)).run L = (.ok v, L')) (hholds : Holds L' v xs)
    (htransfer : Transfer L [] L' v.owned) :
    Succeeds (initializeRange .input range) (⟨L, {}⟩ : VectorState T c) xs := by
  obtain ⟨s₁, v', hrun₁, hmoved⟩ := moveConstructFrom_run hholds
  refine ⟨s₁, ?_, hmoved.holds, htransfer.trans hmoved.transfer⟩
  unfold initializeRange
  dsimp only
  rw [Action.run_bind_ok (run_onHeap (s := (⟨L, {}⟩ : VectorState T c)) hrun),
    Action.run_bind_ok hrun₁]
  exact hmoved.destroy_run

theorem initializeRange_of_room {range : List (Ref T)} (category : Category)
    (hrange : List.Forall₂ (fun r x => L.Reads r.load x) range xs)
    (hle : xs.length ≤ c.inlineCapacity) :
    Succeeds (initializeRange category range) (⟨L, {}⟩ : VectorState T c) xs := by
  cases category with
  | forward => exact initializeForwardRange_of_room hrange hle
  | input =>
    obtain ⟨s, hrun, hbecomes⟩ := initializeInputRange_of_room (c := c) (s := ⟨L, {}⟩) hrange
      (holds_empty L) (.refl L []) (by simpa using hle)
    exact initializeRange_of_local (localVector_ok hrun) hbecomes.holds hbecomes.transfer

/-- **Construction from a range** of either category. -/
theorem initializeRange_run {range : List (Ref T)} (category : Category)
    (hrange : List.Forall₂ (fun r x => L.Reads r.load x) range xs)
    (hmax : category = .input → xs.length ≤ c.maxSize) :
    Attempts (initializeRange category range) (⟨L, {}⟩ : VectorState T c) xs := by
  cases category with
  | forward => exact initializeForwardRange_run hrange
  | input =>
    have hloop := initializeInputRange_run (c := c) (s := ⟨L, {}⟩) hrange (holds_empty L)
      (.refl L []) (by simpa using hmax rfl)
    rcases localVector_run hloop with ⟨v, L₁, hrun, hholds, htransfer⟩ | ⟨L₁, hrun, hbuffers⟩
    · exact .inl (initializeRange_of_local hrun hholds htransfer)
    · exact .inr ⟨_, Action.run_bind_error (run_onHeap (s := (⟨L, {}⟩ : VectorState T c)) hrun),
        rfl, hbuffers⟩

/-- The vector that was built from the range takes the place of the old elements. -/
theorem assign_of_construction (hst : Stored s.heap s.this cells) {category : Category}
    {range : List (Ref T)} {v : SmallVector T c}
    (hrun : (construction (initializeRange category range)).run s.heap = (.ok v, L'))
    (hholds : Holds L' v xs) (htransfer : Transfer s.heap [] L' v.owned) :
    Succeeds (assign category range) s xs := by
  have hext : s.heap.Extends L' := .of_transfer htransfer
  have hst' : Stored L' s.this cells := hst.congr fun e he => by
    obtain ⟨content, hp⟩ := Ledger.live_iff.mp (hst.live he)
    rw [hp, hext e.1 _ hp]
  have hne : ∀ e ∈ s.this.owned, ∀ e' ∈ v.owned, e.1 ≠ e'.1 := fun e he e' he' hee => by
    obtain ⟨content, hp⟩ := Ledger.live_iff.mp (hst.live he)
    rw [hee, htransfer.fresh he'] at hp
    cases hp
  obtain ⟨s₁, v', hrun₁, hmoved⟩ := moveAssign_run (s := ⟨L', s.this⟩) hst' hholds hne
  refine ⟨s₁, ?_, hmoved.holds, Transfer.trans ?_ hmoved.transfer⟩
  · unfold assign
    rw [Action.run_bind_ok (run_onHeap hrun), Action.run_bind_ok hrun₁]
    exact hmoved.destroy_run
  · have h := htransfer.extend_left s.this.owned
    rwa [List.append_nil] at h

theorem assign_of_room (hst : Stored s.heap s.this cells) {range : List (Ref T)}
    (category : Category) (hrange : List.Forall₂ (fun r x => s.heap.Reads r.load x) range xs)
    (hle : xs.length ≤ c.inlineCapacity) : Succeeds (assign category range) s xs := by
  obtain ⟨v, L', hrun, hholds, htransfer⟩ :=
    construction_returns (initializeRange_of_room (c := c) category hrange hle)
  exact assign_of_construction hst hrun hholds htransfer

/-- **`assign`**, also from a range of the vector's own elements. -/
theorem assign_run (hst : Stored s.heap s.this cells) {range : List (Ref T)} (category : Category)
    (hrange : List.Forall₂ (fun r x => s.heap.Reads r.load x) range xs)
    (hmax : category = .input → xs.length ≤ c.maxSize) :
    Attempts (assign category range) s xs := by
  rcases construction_run (initializeRange_run (c := c) category hrange hmax) with
    ⟨v, L₁, hrun, hholds, htransfer⟩ | ⟨L₁, hrun, hbuffers⟩
  · exact .inl (assign_of_construction hst hrun hholds htransfer)
  · unfold assign
    exact .inr ⟨_, Action.run_bind_error (run_onHeap hrun), rfl, hbuffers⟩

/-! ### Taking the buffer out -/

theorem releaseHeap_of_inline (hheap : s.this.isHeap = false) :
    releaseHeap.run s = (.ok {}, s) := by
  unfold releaseHeap
  rw [Action.run_bind_ok (Action.run_get s)]
  dsimp only
  rw [hheap]
  rfl

theorem releaseHeap_of_heap (hheap : s.this.isHeap) {p : Address}
    (hstorage : s.this.storage = .heapData p) :
    releaseHeap.run s =
      (.ok ⟨some p, s.this.size, s.this.capacity⟩, { s with this := {} }) := by
  unfold releaseHeap
  rw [Action.run_bind_ok (Action.run_get s)]
  dsimp only
  rw [hheap, hstorage]
  rfl

end SmallVector

namespace HeapAllocation

theorem reset_run {a : HeapAllocation} {L : ArrayHeap T} (h : ∀ e ∈ a.owned, L.Live e) :
    ∃ L', a.reset.run L = (.ok {}, L') ∧ Transfer L a.owned L' [] := by
  obtain ⟨_ | p, size, capacity⟩ := a
  · exact ⟨L, rfl, .refl L []⟩
  · have hlive : L.Live (p, capacity) := h _ List.mem_cons_self
    refine ⟨L.drop p, ?_, .dropped hlive []⟩
    unfold reset
    simp only
    rw [Action.run_bind_ok (Ledger.deallocate_run hlive)]
    rfl

theorem moveAssign_run {a : HeapAllocation} (other : HeapAllocation) {L : ArrayHeap T}
    (h : ∀ e ∈ a.owned, L.Live e) :
    ∃ L', (a.moveAssign other).run L = (.ok (other, {}), L') ∧ Transfer L a.owned L' [] := by
  obtain ⟨L', hrun, htransfer⟩ := reset_run h
  refine ⟨L', ?_, htransfer⟩
  unfold moveAssign
  rw [Action.run_bind_ok hrun]
  rfl

end HeapAllocation

end InfiniRT.Metadata
