import InfiniRT.Metadata.VectorGranting

/-!
# `SmallVector` refines a plain list

What a program can see of a vector is its elements through `data()` and `size()`, and its capacity.
Along any run this is what the list model says, and the capacity tells where the elements are.
Proved:

* **`perform_cases`** — a call throws only if it needs a new array that an allocator refuses or that
  cannot be;
* **`refines_lists`** — along any run every vector shows the list of the model, in the place that
  its capacity tells.
-/

namespace InfiniRT.Metadata

open InfiniRT.Library
open SmallVector (Holds)

variable {T : Type} {c : Config}

namespace VectorWorld

/-- What a vector shows of a list. -/
structure Shows (w : VectorWorld T c) (v : SmallVector T c) (l : List T) : Prop where
  /-- The elements read one by one through `data()`. -/
  read : v.read.run w.heap = (.ok l, w.heap)
  size_eq : v.size = l.length
  size_le : v.size ≤ v.capacity
  le_capacity : c.inlineCapacity ≤ v.capacity
  heap_iff : (∃ p, v.storage = .heapData p) ↔ c.inlineCapacity < v.capacity

theorem shows_of_holds {w : VectorWorld T c} {v : SmallVector T c} {l : List T}
    (h : Holds w.heap v l) : w.Shows v l := by
  obtain ⟨rest, hst⟩ := h.stored
  refine ⟨h.read_run, h.size_eq, h.size_eq ▸ h.length_le, hst.le_capacity, ?_⟩
  rw [← hst.isHeap_iff]
  simp [SmallVector.isHeap]

/-- `ReleaseHeap` tells inline storage from heap storage, and changes nothing inline. -/
theorem releaseHeap_reply [Inhabited T] {outside : List (Address × ℕ)} {w : VectorWorld T c}
    {lists : Lists T} (h : Sound outside w lists) {o a : ObjectId} {v : SmallVector T c}
    (hv : w.vectors.lookup o = some v) :
    ∃ w', (perform (.releaseHeap o a)).run w =
        (.ok (.allocation (decide (v.capacity ≤ c.inlineCapacity))), w') ∧
      w'.vectors.lookup o =
        some (if v.capacity ≤ c.inlineCapacity then v else {}) := by
  obtain ⟨l, -, hsize, rest, hst⟩ := h.of_lookup hv
  have hrelease : ∃ x : HeapAllocation,
      SmallVector.releaseHeap.run ⟨w.heap, v⟩ =
        (.ok x, ⟨w.heap, if v.capacity ≤ c.inlineCapacity then v else {}⟩) ∧
      x.data.isNone = decide (v.capacity ≤ c.inlineCapacity) := by
    cases hst with
    | inlined =>
      refine ⟨{}, ?_, by simp⟩
      rw [if_pos (Nat.le_refl _)]
      exact SmallVector.releaseHeap_of_inline (by simp [SmallVector.isHeap])
    | @allocated p size capacity _ hcap =>
      refine ⟨⟨some p, size, capacity⟩, ?_, by simpa using hcap⟩
      rw [if_neg (Nat.not_le_of_lt hcap)]
      exact SmallVector.releaseHeap_of_heap (by simp [SmallVector.isHeap, hcap]) rfl
  obtain ⟨x, hrun, hempty⟩ := hrelease
  rw [← hempty]
  refine ⟨_, (Action.run_bind_ok (Action.run_get w)).trans (Action.run_bind_ok (run_call hv hrun)),
    AList.lookup_insert _⟩

/-- **Why a call throws.** It needs a new array, and the allocator refuses a request or there can be
no array with so many elements. -/
theorem perform_cases [Inhabited T] {outside : List (Address × ℕ)} {w : VectorWorld T c}
    {lists : Lists T} (h : Sound outside w lists) {op : VectorOp T} (hop : w.Enabled op) :
    (∃ reply w', (perform op).run w = (.ok reply, w') ∧
      Advances outside w w' (lists.apply op reply)) ∨
    w.Asks op ∧ (¬w.heap.Granting ∨ c.maxSize < op.count) ∧
      ∃ w', (perform op).run w = (.error .badAlloc, w') ∧ Unchanged w w' := by
  by_cases hasks : w.Asks op
  swap
  · exact .inl (perform_returns h hop hasks)
  rcases perform_run h hop with hok | ⟨w', herr, hsame⟩
  · exact .inl hok
  refine .inr ⟨hasks, ?_, w', herr, hsame⟩
  by_contra hnot
  rw [not_or, not_not, Nat.not_lt] at hnot
  exact perform_granted h hop hasks hnot.1 hnot.2 (congrArg Prod.fst herr)

/-- **Vectors are lists.** After any calls on any vectors, every vector shows the list of the model.
Every further call returns and every vector shows what the call means; or the call needs a new array
that the allocator refuses, or of more elements than there can be, and leaves all objects and arrays
as they were. -/
theorem refines_lists [Inhabited T] {answers : ℕ → Option Address} {trace : List (Call T)}
    {w : VectorWorld T c} (hrun : Run Step (initial answers) trace w) :
    (∀ o, Option.Rel w.Shows (w.vectors.lookup o) (Lists.run trace o)) ∧
    (∀ op, w.Enabled op →
      (∃ reply w', (perform op).run w = (.ok reply, w') ∧
        ∀ o, Option.Rel w'.Shows (w'.vectors.lookup o) ((Lists.run trace).apply op reply o)) ∨
      w.Asks op ∧ (¬w.heap.Granting ∨ c.maxSize < op.count) ∧
        ∃ w', (perform op).run w = (.error .badAlloc, w') ∧ Unchanged w w') ∧
    ∀ o a v, w.vectors.lookup o = some v →
      ∃ w', (perform (.releaseHeap o a)).run w =
          (.ok (.allocation (decide (v.capacity ≤ c.inlineCapacity))), w') ∧
        w'.vectors.lookup o = some (if v.capacity ≤ c.inlineCapacity then v else {}) := by
  have h := sound_of_run hrun
  refine ⟨fun o => rel_mono (h.holds o) fun _ _ _ => shows_of_holds, fun op hop => ?_,
    fun o a v hv => releaseHeap_reply h hv⟩
  refine (perform_cases h hop).imp_left fun ⟨reply, w', hok, hadv⟩ => ⟨reply, w', hok, fun o => ?_⟩
  exact rel_mono (hadv.sound.holds o) fun _ _ _ => shows_of_holds

/-! A vector of two inline elements that grows by pushing its own first element. -/

/-- Room for two elements inline and for eight at all. -/
def twoInline : Config where
  inlineCapacity := 2
  maxSize := 8
  inlineCapacity_pos := by decide
  inlineCapacity_le := by decide

/-- The world after one element was constructed and one pushed, so that the inline array is full. -/
def fullWorld : VectorWorld ℕ twoInline :=
  ((perform (.pushBack 0 (.value 8))).run
    ((perform (.constructFill 0 1 (.value 7))).run (initial some)).2).2

/-- The calls: fill the inline array, push the first element again, and move the vector. -/
def growthCalls : List (Call ℕ) :=
  [⟨.constructFill 0 1 (.value 7), .ok .done⟩, ⟨.pushBack 0 (.value 8), .ok .done⟩,
    ⟨.pushBack 0 (.element 0 0), .ok .done⟩, ⟨.moveConstruct 1 0, .ok .done⟩]

/-- The world after them. -/
def grownWorld : VectorWorld ℕ twoInline :=
  ((perform (.moveConstruct 1 0)).run
    ((perform (.pushBack 0 (.element 0 0))).run fullWorld).2).2

theorem run_growthCalls : Run Step (initial some) growthCalls grownWorld := by
  have hfill : Step (initial some : VectorWorld ℕ twoInline)
      ⟨.constructFill 0 1 (.value 7), .ok .done⟩
      ((perform (.constructFill 0 1 (.value 7))).run (initial some)).2 :=
    ⟨⟨by simp [Alive, initial], trivial⟩, rfl⟩
  have hpush : Step ((perform (.constructFill 0 1 (.value 7))).run (initial some)).2
      ⟨.pushBack 0 (.value 8), .ok .done⟩ fullWorld := ⟨⟨⟨_, rfl, by decide⟩, trivial⟩, rfl⟩
  have hgrow : Step fullWorld ⟨.pushBack 0 (.element 0 0), .ok .done⟩
      ((perform (.pushBack 0 (.element 0 0))).run fullWorld).2 :=
    ⟨⟨⟨_, rfl, by decide⟩, ⟨_, rfl, by decide⟩⟩, rfl⟩
  have hmove : Step ((perform (.pushBack 0 (.element 0 0))).run fullWorld).2
      ⟨.moveConstruct 1 0, .ok .done⟩ grownWorld := ⟨⟨by decide, by decide⟩, rfl⟩
  exact (((Run.single hfill).snoc hpush).snoc hgrow).snoc hmove

theorem refines_lists_of_growth :
    (Lists.run growthCalls 0 = some [] ∧ Lists.run growthCalls 1 = some [7, 8, 7]) ∧
      ∀ o, Option.Rel grownWorld.Shows (grownWorld.vectors.lookup o) (Lists.run growthCalls o) :=
  ⟨⟨rfl, rfl⟩, (refines_lists run_growthCalls).1⟩

end VectorWorld

end InfiniRT.Metadata
