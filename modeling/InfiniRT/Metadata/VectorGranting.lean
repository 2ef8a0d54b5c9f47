import InfiniRT.Metadata.VectorWorldSteps

/-!
# Vectors in memory that is not refused

`Granting` of a memory says that its allocators grant every request to come.  No member of a vector
throws then, as long as it is not asked for more elements than an array can have: the arrays it asks
for hold what it was asked for, or have the capacity of a vector, and growth stops at the largest
capacity.

One lemma for each member, along its program text, and `perform_granted` for the calls of a program.
Proved:

* **`growForAppend_granted`** — a full vector grows, up to the largest capacity there is;
* **`resize_granted`** — `resize` within the limits, with a lemma for each other member;
* **`perform_granted`** — no call of a program is refused memory, unless it asks for more elements
  than there can be.
-/

namespace InfiniRT.Metadata

open InfiniRT.Library
open SmallVector (Holds Constructs)

variable {T : Type} {α : Type} {c : Config}

/-- Every request is granted, and the vector is not larger than an array can be. -/
def VectorState.Granting (s : VectorState T c) : Prop :=
  s.heap.Granting ∧ s.this.capacity ≤ c.maxSize

theorem Ref.load_spares {L : ArrayHeap T} (h : L.Granting) (r : Ref T) :
    r.load.Spares .badAlloc Ledger.Granting (fun _ _ => True) L := by
  cases r with
  | fixed cell => exact readCell_spares h _
  | heapCell p i => exact ArrayHeap.load_spares h p i

theorem Argument.load_spares {s : VectorState T c} (h : s.Granting) (value : Argument T) :
    value.load.Spares .badAlloc VectorState.Granting (fun _ _ => True) s := by
  cases value with
  | own i =>
    refine .get_bind ?_
    split
    · exact readCell_spares h _
    · exact .throw h nofun
  | ref r =>
    show (onHeap r.load).Spares .badAlloc VectorState.Granting (fun _ _ => True) s
    exact .zoom (r.load_spares h.1) (fun _ hL => ⟨hL, h.2⟩) fun _ _ _ => trivial

namespace SmallVector

variable {s : VectorState T c} {L : ArrayHeap T} {reads : List (Action (ArrayHeap T) Fault T)}

/-- The program is not refused memory. -/
abbrev Granted (x : VectorAction T c α) (s : VectorState T c) : Prop :=
  x.Spares .badAlloc VectorState.Granting (fun _ _ => True) s

theorem onHeap_granted {x : Action (ArrayHeap T) Fault α} (h : s.Granting)
    (hx : x.Spares .badAlloc Ledger.Granting (fun _ _ => True) s.heap) : Granted (onHeap x) s :=
  .zoom hx (fun _ hL => ⟨hL, h.2⟩) fun _ _ _ => trivial

theorem setThis_granted (h : s.Granting) {v : SmallVector T c} (hv : v.capacity ≤ c.maxSize) :
    Granted (setThis v) s := .modify ⟨h.1, hv⟩ trivial

theorem setSize_granted (h : s.Granting) (n : ℕ) : Granted (setSize n) s := .modify h trivial

theorem constructInline_granted (h : s.Granting) (i : ℕ) (x : T) :
    Granted (constructInline i x) s := by
  refine .get_bind ?_
  dsimp only
  split
  · split
    · exact setThis_granted h h.2
    · exact .throw h nofun
  · exact .throw h nofun

theorem construct_granted (h : s.Granting) (i : ℕ) (x : T) : Granted (construct i x) s := by
  refine .get_bind ?_
  dsimp only
  split
  · exact onHeap_granted h (ArrayHeap.store_spares h.1 _ i x)
  · exact constructInline_granted h i x
  · exact .throw h nofun

/-- Reading is not refused memory. -/
def Reading (reads : List (Action (ArrayHeap T) Fault T)) : Prop :=
  ∀ read ∈ reads, ∀ L, L.Granting → read.Spares .badAlloc Ledger.Granting (fun _ _ => True) L

theorem reading_replicate (n : ℕ) {read : Action (ArrayHeap T) Fault T}
    (h : ∀ L, L.Granting → read.Spares .badAlloc Ledger.Granting (fun _ _ => True) L) :
    Reading (List.replicate n read) := fun _ hmem =>
  (List.eq_of_mem_replicate hmem).symm ▸ h

theorem reading_load (range : List (Ref T)) : Reading (range.map Ref.load) := fun _ hmem L hL => by
  obtain ⟨r, -, rfl⟩ := List.mem_map.mp hmem
  exact r.load_spares hL

theorem reading_elements (v : SmallVector T c) (start stop : ℕ) :
    Reading (v.elements start stop) := fun _ hmem L hL => by
  obtain ⟨i, -, rfl⟩ := List.mem_map.mp hmem
  exact (v.cell i).load_spares hL

theorem writeAll_granted {write : ℕ → T → VectorAction T c Unit} (h : s.Granting)
    (hwrite : ∀ i x s, s.Granting → Granted (write i x) s) (hreads : Reading reads) (i : ℕ) :
    Granted (writeAll write i (reads.map onHeap)) s := by
  refine writeAll_spares hwrite (fun x hmem s hs => ?_) i h
  obtain ⟨read, hread, rfl⟩ := List.mem_map.mp hmem
  exact onHeap_granted hs (hreads read hread s.heap hs.1)

theorem append_granted (h : s.Granting) (hreads : Reading reads) : Granted (append reads) s :=
  .get_bind (writeAll_granted h (fun i x _ hs => .bind (construct_granted hs i x) fun _ _ _ h₁ =>
    setSize_granted h₁ (i + 1)) hreads _)

theorem fillInline_granted (h : s.Granting) (hreads : Reading reads) :
    Granted (fillInline reads) s :=
  .bind (writeAll_granted h (fun i x _ hs => constructInline_granted hs i x) hreads 0)
    fun _ _ _ h₁ => setSize_granted h₁ _

theorem replaceWithHeap_granted (h : s.Granting) (newData : Address) (newSize : ℕ) {newCapacity : ℕ}
    (hcap : newCapacity ≤ c.maxSize) : Granted (replaceWithHeap newData newSize newCapacity) s := by
  have hset : Granted (setThis
      { storage := .heapData newData, size := newSize, capacity := newCapacity }) s :=
    setThis_granted h hcap
  have hfree : ∀ p, Granted (do
      setThis { storage := .heapData newData, size := newSize, capacity := newCapacity }
      onHeap (Ledger.deallocate p s.this.capacity)) s := fun p =>
    .bind hset fun _ _ _ h₁ => onHeap_granted h₁ (Ledger.deallocate_spares h₁.1 p _)
  have hkeep : Granted (do
      setThis { storage := .heapData newData, size := newSize, capacity := newCapacity }
      pure ()) s := .bind hset fun _ _ _ h₁ => .pure h₁ trivial
  refine .get_bind ?_
  dsimp only
  split
  · exact hfree _
  · exact .throw h nofun
  · exact hkeep

theorem replaceWithArray_granted (h : s.Granting) {newCapacity : ℕ} (hcap : newCapacity ≤ c.maxSize)
    (hreads : Reading reads) : Granted (replaceWithArray newCapacity reads) s := by
  refine .bind (onHeap_granted h (ArrayHeap.allocate_spares h.1 hcap)) fun newData s₁ _ h₁ => ?_
  refine .bind (writeAll_granted h₁ (fun i x s hs => ?_) hreads 0) fun _ s₂ _ h₂ =>
    replaceWithHeap_granted h₂ newData _ hcap
  exact onHeap_granted hs (ArrayHeap.store_spares hs.1 newData i x)

theorem reallocate_granted (h : s.Granting) {newCapacity : ℕ} (hcap : newCapacity ≤ c.maxSize) :
    Granted (reallocate newCapacity) s :=
  .get_bind (replaceWithArray_granted h hcap (reading_elements _ _ _))

/-- Growth stops at the largest capacity. -/
theorem growForAppend_granted (h : s.Granting) : Granted growForAppend s := by
  refine .get_bind (reallocate_granted h ?_)
  have hcap := h.2
  generalize (if s.this.capacity / 2 = 0 then 1 else s.this.capacity / 2) = increment
  split <;> omega

theorem pushBack_granted (h : s.Granting) (value : Argument T) : Granted (pushBack value) s := by
  refine .get_bind ?_
  dsimp only
  split
  · refine .bind (value.load_spares h) fun saved s₁ _ h₁ =>
      .bind (growForAppend_granted h₁) fun _ s₂ _ h₂ =>
        .get_bind (.bind (construct_granted h₂ _ saved) fun _ s₃ _ h₃ =>
          .get_bind (setSize_granted h₃ _))
  · exact .bind (value.load_spares h) fun x s₁ _ h₁ =>
      .bind (construct_granted h₁ _ x) fun _ s₂ _ h₂ => .get_bind (setSize_granted h₂ _)

theorem initializeInputRange_granted (range : List (Ref T)) (h : s.Granting) :
    Granted (initializeInputRange range) s := by
  induction range generalizing s with
  | nil => exact .pure h trivial
  | cons first rest ih =>
    exact .bind (onHeap_granted h (first.load_spares h.1)) fun x s₁ _ h₁ =>
      .bind (pushBack_granted h₁ _) fun _ s₂ _ h₂ => ih h₂

theorem destroy_spares (h : L.Granting) (v : SmallVector T c) :
    v.destroy.Spares .badAlloc Ledger.Granting (fun _ _ => True) L := by
  unfold destroy
  split
  · exact Ledger.deallocate_spares h _ _
  · exact .throw h nofun
  · exact .pure h trivial

/-- A new vector is not larger than an array can be. -/
theorem construction_spares_le {init : VectorAction T c Unit} (hinit : Granted init ⟨L, {}⟩) :
    (construction init).Spares .badAlloc Ledger.Granting (fun v _ => v.capacity ≤ c.maxSize) L := by
  rcases hinit.cases with ⟨_, s, hrun, hG, -⟩ | ⟨e, s, hrun, hG, hne⟩
  · exact .of_ok (construction_ok hrun) hG.1 hG.2
  · exact .of_error (construction_error hrun) hG.1 hne

theorem construction_spares {init : VectorAction T c Unit} (hinit : Granted init ⟨L, {}⟩) :
    (construction init).Spares .badAlloc Ledger.Granting (fun _ _ => True) L := by
  obtain ⟨hG, hne, -⟩ := construction_spares_le hinit
  exact ⟨hG, hne, fun _ _ => trivial⟩

/-- A local vector is not larger than an array can be. -/
theorem localVector_spares {x : VectorAction T c Unit} (hx : Granted x ⟨L, {}⟩) :
    (localVector x).Spares .badAlloc Ledger.Granting (fun v _ => v.capacity ≤ c.maxSize) L := by
  rcases hx.cases with ⟨_, s, hrun, hG, -⟩ | ⟨e, s, hrun, hG, hne⟩
  · exact .of_ok (localVector_ok hrun) hG.1 hG.2
  · rcases (destroy_spares hG.1 s.this).cases with
      ⟨_, L', hdestroy, hL, -⟩ | ⟨e', L', hdestroy, hL, hne'⟩
    · exact .of_error (localVector_error hrun hdestroy) hL hne
    · exact .of_error (localVector_error hrun hdestroy) hL hne'

theorem moveConstructFrom_granted (h : s.Granting) {other : SmallVector T c}
    (hother : other.capacity ≤ c.maxSize) : Granted (moveConstructFrom other) s := by
  unfold moveConstructFrom
  split
  · exact .bind (setThis_granted h hother) fun _ s₁ _ h₁ => .pure h₁ trivial
  · exact .throw h nofun
  · exact .get_bind (.bind (append_granted h (reading_elements _ _ _)) fun _ s₁ _ h₁ =>
      .pure h₁ trivial)

theorem initialize_granted (h : s.Granting) {count : ℕ} (hcount : count ≤ c.maxSize)
    (hreads : Reading reads) :
    Granted (if count ≤ c.inlineCapacity then fillInline reads else replaceWithArray count reads)
      s := by
  split
  · exact fillInline_granted h hreads
  · exact replaceWithArray_granted h hcount hreads

theorem initializeCount_granted [Inhabited T] (h : s.Granting) {count : ℕ}
    (hcount : count ≤ c.maxSize) : Granted (initializeCount count) s :=
  initialize_granted h hcount (reading_replicate count fun _ hL => .pure hL trivial)

theorem initializeFill_granted (h : s.Granting) {count : ℕ} (hcount : count ≤ c.maxSize)
    (value : Ref T) : Granted (initializeFill count value) s :=
  initialize_granted h hcount (reading_replicate count fun _ hL => value.load_spares hL)

theorem initializeForwardRange_granted (h : s.Granting) {range : List (Ref T)}
    (hlen : range.length ≤ c.maxSize) : Granted (initializeForwardRange range) s := by
  unfold initializeForwardRange
  split
  · exact .pure h trivial
  · exact initialize_granted h hlen (reading_load range)

theorem copyConstructFrom_granted (h : s.Granting) {other : SmallVector T c}
    (hother : other.capacity ≤ c.maxSize) : Granted (copyConstructFrom other) s := by
  unfold copyConstructFrom
  split
  · exact .bind (reallocate_granted h hother) fun _ s₁ _ h₁ =>
      .get_bind (append_granted h₁ (reading_elements _ _ _))
  · exact .get_bind (append_granted h (reading_elements _ _ _))

theorem initializeRange_granted (h : s.Granting) (category : Category) {range : List (Ref T)}
    (hlen : range.length ≤ c.maxSize) : Granted (initializeRange category range) s := by
  cases category with
  | forward => exact initializeForwardRange_granted h hlen
  | input =>
    have hlocal := localVector_spares (initializeInputRange_granted range
      (⟨h.1, c.inlineCapacity_le⟩ : VectorState.Granting ⟨s.heap, {}⟩))
    refine .bind (Action.Spares.zoom (Q := fun v _ => v.capacity ≤ c.maxSize) hlocal
      (fun L hL => ⟨hL, h.2⟩) fun v _ hv => hv) fun v s₁ hv h₁ => ?_
    exact .bind (moveConstructFrom_granted h₁ hv) fun left s₂ _ h₂ =>
      onHeap_granted h₂ (destroy_spares h₂.1 left)

theorem releaseHeap_granted (h : s.Granting) : Granted releaseHeap s := by
  refine .get_bind ?_
  dsimp only
  split
  · exact .pure h trivial
  · exact .bind (setThis_granted h c.inlineCapacity_le) fun _ s₁ _ h₁ => .pure h₁ trivial
  · exact .throw h nofun

theorem reserve_granted (h : s.Granting) {requestedCapacity : ℕ}
    (hcap : requestedCapacity ≤ c.maxSize) : Granted (reserve requestedCapacity) s := by
  refine .get_bind ?_
  split
  · exact .pure h trivial
  · exact reallocate_granted h hcap

theorem resize_granted [Inhabited T] (h : s.Granting) {count : ℕ} (hcount : count ≤ c.maxSize) :
    Granted (resize count) s := by
  have happend : ∀ n (s : VectorState T c), s.Granting →
      Granted (append (List.replicate n (pure default))) s := fun n _ hs =>
    append_granted hs (reading_replicate n fun _ hL => .pure hL trivial)
  refine .get_bind ?_
  dsimp only
  split
  · exact setSize_granted h count
  · split
    · exact .bind (reallocate_granted h hcount) fun _ s₁ _ h₁ => happend _ s₁ h₁
    · exact happend _ s h

theorem switchToInline_granted (h : s.Granting) : Granted switchToInline s := by
  refine .get_bind ?_
  dsimp only
  split
  · exact .bind (setThis_granted h c.inlineCapacity_le) fun _ s₁ _ h₁ =>
      onHeap_granted h₁ (Ledger.deallocate_spares h₁.1 _ _)
  · exact .throw h nofun

theorem assignInline_granted (h : s.Granting) (hreads : Reading reads) :
    Granted (assignInline reads) s := by
  have hfill : ∀ s : VectorState T c, s.Granting → Granted (do
      writeAll constructInline 0 (reads.map onHeap)
      setSize reads.length) s := fun _ hs => fillInline_granted hs hreads
  refine .get_bind ?_
  split
  · exact .bind (switchToInline_granted h) fun _ s₁ _ h₁ => hfill s₁ h₁
  · exact hfill s h

theorem copyAssign_granted (h : s.Granting) {other : SmallVector T c}
    (hother : other.capacity ≤ c.maxSize) : Granted (copyAssign other) s := by
  unfold copyAssign
  split
  · exact replaceWithArray_granted h hother (reading_elements _ _ _)
  · exact assignInline_granted h (reading_elements _ _ _)

theorem moveAssign_granted (h : s.Granting) {other : SmallVector T c}
    (hother : other.capacity ≤ c.maxSize) : Granted (moveAssign other) s := by
  unfold moveAssign
  split
  · unfold moveAssignHeap
    split
    · exact .bind (replaceWithHeap_granted h _ _ hother) fun _ s₁ _ h₁ => .pure h₁ trivial
    · exact .throw h nofun
  · exact .bind (assignInline_granted h (reading_elements _ _ _)) fun _ s₁ _ h₁ => .pure h₁ trivial

theorem assign_granted (h : s.Granting) (category : Category) {range : List (Ref T)}
    (hlen : range.length ≤ c.maxSize) : Granted (assign category range) s := by
  have hmake := construction_spares_le (initializeRange_granted
    (⟨h.1, c.inlineCapacity_le⟩ : VectorState.Granting ⟨s.heap, {}⟩) category hlen)
  refine .bind (Action.Spares.zoom (Q := fun v _ => v.capacity ≤ c.maxSize) hmake
    (fun L hL => ⟨hL, h.2⟩) fun v _ hv => hv) fun v s₁ hv h₁ => ?_
  exact .bind (moveAssign_granted h₁ hv) fun left s₂ _ h₂ =>
    onHeap_granted h₂ (destroy_spares h₂.1 left)

end SmallVector

/-! ### Calls -/

namespace VectorWorld

variable {outside : List (Address × ℕ)} {w : VectorWorld T c} {lists : Lists T} {o : ObjectId}
  {v : SmallVector T c}

theorem call_granted (hv : w.vectors.lookup o = some v) {x : VectorAction T c Unit}
    (hx : SmallVector.Granted x ⟨w.heap, v⟩) :
    ((call o x >>= fun _ => pure Reply.done).run w).1 ≠ .error .badAlloc := by
  rcases hx.cases with ⟨_, s, hrun, -, -⟩ | ⟨e, s, hrun, -, hne⟩
  · rw [Action.run_bind_ok (run_call hv hrun)]
    exact nofun
  · rw [Action.run_bind_error (run_call hv hrun)]
    exact fun heq => hne (Except.error.inj heq)

theorem construct_granted (h : w.heap.Granting) {init : VectorAction T c Unit}
    (hinit : ∀ s : VectorState T c, s.Granting → SmallVector.Granted init s) :
    ((construct o init >>= fun _ => pure Reply.done).run w).1 ≠ .error .badAlloc := by
  have hmake := SmallVector.construction_spares (hinit ⟨w.heap, {}⟩ ⟨h, c.inlineCapacity_le⟩)
  rcases hmake.cases with ⟨v, L, hrun, -, -⟩ | ⟨e, L, hrun, -, hne⟩
  · have hconstruct : (construct o init).run w =
        (.ok (), { w with heap := L, vectors := w.vectors.insert o v }) :=
      Action.run_bind_ok (run_inHeap hrun)
    rw [Action.run_bind_ok hconstruct]
    exact nofun
  · have hconstruct : (construct o init).run w = (.error e, { w with heap := L }) :=
      Action.run_bind_error (run_inHeap hrun)
    rw [Action.run_bind_error hconstruct]
    exact fun heq => hne (Except.error.inj heq)

/-- **No call is refused memory** by an allocator that grants every request, unless it asks for more
elements than there can be. -/
theorem perform_granted [Inhabited T] {op : VectorOp T} (h : Sound outside w lists)
    (hop : w.Enabled op) (hasks : w.Asks op) (hgrant : w.heap.Granting)
    (hcount : op.count ≤ c.maxSize) :
    ((perform op).run w).1 ≠ .error .badAlloc := by
  have hgranting : ∀ o v, w.vectors.lookup o = some v →
      VectorState.Granting (⟨w.heap, v⟩ : VectorState T c) := fun o v hv => by
    obtain ⟨l, -, hholds⟩ := h.of_lookup hv
    exact ⟨hgrant, hholds.capacity_le⟩
  have hresolved : ∀ range : List (ElementRef T), range.length ≤ c.maxSize →
      (range.map w.resolve).length ≤ c.maxSize := fun range hle => by rwa [List.length_map]
  unfold perform
  rw [Action.run_bind_ok (Action.run_get w)]
  cases op with
  | constructCount o count =>
    exact construct_granted hgrant fun s hs => SmallVector.initializeCount_granted hs hcount
  | constructFill o count value =>
    exact construct_granted hgrant fun s hs => SmallVector.initializeFill_granted hs hcount _
  | constructRange o category range =>
    exact construct_granted hgrant fun s hs =>
      SmallVector.initializeRange_granted hs category (hresolved range hcount)
  | copyConstruct o other =>
    obtain ⟨u, hu, -⟩ := hasks
    rw [Action.run_bind_ok (run_getVector hu)]
    exact construct_granted hgrant fun s hs =>
      SmallVector.copyConstructFrom_granted hs (hgranting other u hu).2
  | copyAssign o other =>
    obtain ⟨hne, u, hu, -⟩ := hasks
    obtain ⟨v, hv⟩ := Option.isSome_iff_exists.mp hop.1
    rw [Action.run_bind_ok (run_getVector hu), if_neg hne]
    exact call_granted hv
      (SmallVector.copyAssign_granted (hgranting o v hv) (hgranting other u hu).2)
  | reserve o requestedCapacity =>
    obtain ⟨v, hv, -⟩ := hasks
    exact call_granted hv (SmallVector.reserve_granted (hgranting o v hv) hcount)
  | resize o count =>
    obtain ⟨v, hv, -⟩ := hasks
    exact call_granted hv (SmallVector.resize_granted (hgranting o v hv) hcount)
  | pushBack o value =>
    obtain ⟨v, hv, -⟩ := hasks
    exact call_granted hv (SmallVector.pushBack_granted (hgranting o v hv) _)
  | assign o category range =>
    obtain ⟨v, hv⟩ := Option.isSome_iff_exists.mp hop.1
    exact call_granted hv (SmallVector.assign_granted (hgranting o v hv) category
      (hresolved range hcount))
  | _ => exact hasks.elim

end VectorWorld

end InfiniRT.Metadata
