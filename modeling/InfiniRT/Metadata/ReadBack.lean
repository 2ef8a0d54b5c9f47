import InfiniRT.Metadata.MetadataSteps

/-!
# Storages read back what they were built from, and nothing leaks

The two results about programs over vectors and storages.  A storage reads as the lists of the model
in each of its three representations, after any constructions, copies and moves, and the tests that
the code makes on its fields tell the member of the union that was written last.  In each heap the
live buffers are those that the live objects and the callers of `release` own, with the element
counts they were allocated with, so no call gives back a buffer twice or with another count.
Proved:

* **`reads_back`** — after any calls every storage reads as the lists of the model;
* **`one_owner`** — in each heap every live buffer has one owner, and nothing is left at the end.
-/

namespace InfiniRT.Metadata

open InfiniRT.Library

variable {Size Stride : Type} {c : StorageConfig}

namespace ShapeStridesStorage

/-- `IsCombined`. -/
def isCombined (st : ShapeStridesStorage Size Stride c) : Bool :=
  match st.isInline, st.storage with
  | false, .heapStorage heap => heap.allocation.isSome
  | _, _ => false

end ShapeStridesStorage

namespace MetadataWorld

/-- What a storage shows of its lists. -/
structure Shows (m : Memory Size Stride) (st : ShapeStridesStorage Size Stride c)
    (l : List Size × List Stride) : Prop where
  shape : st.readShape m = .ok l.1
  strides : st.readStrides m = .ok l.2
  inline_iff : st.isInline ↔ ∃ shape strides, st.storage = .inlineStorage shape strides
  combined_iff : st.isCombined ↔
    ∃ p, st.storage = .heapStorage ⟨some p, .inCombined p, .inCombined p, 0, 0⟩

theorem Stores.shows {m : Memory Size Stride} {st : ShapeStridesStorage Size Stride c}
    {l : List Size × List Stride} (h : Stores m st l) : Shows m st l := by
  refine ⟨h.1.readShape, h.1.readStrides, h.1.isInline_iff, ?_⟩
  have hinline := h.1.isInline_iff
  rcases l with ⟨ls, lt⟩
  obtain ⟨hkeeps, -⟩ := h
  cases hkeeps with
  | inlined => simp [ShapeStridesStorage.isCombined]
  | combined hbig => simp [ShapeStridesStorage.isCombined, ShapeStridesStorage.isInline, hbig]
  | split hbig => simp [ShapeStridesStorage.isCombined, ShapeStridesStorage.isInline, hbig]

variable [Inhabited Size] [Inhabited Stride] [One Stride] [HMul Stride Size Stride]
  {shapes strides combined : ℕ → Option Address} {trace : List (Call Size Stride)}
  {w : MetadataWorld Size Stride c}

/-- **Storages read back what they were built from.** After any calls every storage shows the lists
of the model.  Each further call goes on like that, or there is no memory and every object is as it
was, or the lists that a constructor was given do not fit a storage and it aborts.  A constructor
finds no memory only if an allocator refuses it or a list is longer than an array can be. -/
theorem reads_back
    (hrun : Run Step (initial shapes strides combined : MetadataWorld Size Stride c) trace w) :
    (∀ o, Option.Rel (Shows w.memory) (w.storages.lookup o)
      ((MetadataLists.run trace).storages o)) ∧
    ∀ op, w.Enabled op →
      (∃ reply w', (perform op).run w = (.ok reply, w') ∧
        ∀ o, Option.Rel (Shows w'.memory) (w'.storages.lookup o)
          (((MetadataLists.run trace).apply op reply).storages o)) ∨
      (∃ w', (perform op).run w = (.error .badAlloc, w') ∧ Unchanged w w' ∧
        ∀ l, (MetadataLists.run trace).given op = some l → l.1.length ≤ c.shapeMaxSize →
          l.2.length ≤ c.stridesMaxSize → ¬w.memory.Granting) ∨
      ∃ w' l, (perform op).run w = (.error .abort, w') ∧
        (MetadataLists.run trace).given op = some l ∧
        ¬ShapeStridesStorage.Fits c l.1.length l.2.length := by
  have h := sound_of_run hrun
  refine ⟨fun o => VectorWorld.rel_mono (h.stores o) fun _ _ _ hstores => hstores.shows,
    fun op hop => (perform_run h hop).imp_left fun ⟨reply, w', hok, hsound⟩ => ?_⟩
  exact ⟨reply, w', hok, fun o => VectorWorld.rel_mono (hsound.stores o) fun _ _ _ hstores =>
    hstores.shows⟩

/-- **Every live buffer has one owner.** In each heap the live buffers with their element counts are
those of the live objects and of the callers of `release`; no further call touches or gives back a
buffer that is not its own; and without objects nothing is left but what was released. -/
theorem one_owner
    (hrun : Run Step (initial shapes strides combined : MetadataWorld Size Stride c) trace w) :
    (w.shapes.heap.Owned (w.shapes.owners ++ w.ownedShapes) ∧
      w.strides.heap.Owned (w.strides.owners ++ w.ownedStrides) ∧
      w.combined.Owned w.ownedCombined) ∧
    (∀ op, w.Enabled op → ∀ result w', (perform op).run w = (result, w') →
      result ≠ .error .undefined ∧ (result = .error .badAlloc → Unchanged w w')) ∧
    ((∀ o, w.shapes.vectors.lookup o = none ∧ w.shapes.allocations.lookup o = none ∧
        w.strides.vectors.lookup o = none ∧ w.strides.allocations.lookup o = none ∧
        w.storages.lookup o = none) →
      w.shapes.heap.Owned w.shapes.released ∧ w.strides.heap.Owned w.strides.released ∧
        w.combined.buffers = fun _ => none) := by
  have h := sound_of_run hrun
  refine ⟨⟨h.shapes.owned, h.strides.owned, h.combined⟩, fun op hop result w' hrun' => ?_,
    fun hnone => ?_⟩
  · rcases perform_run h hop with ⟨reply, w₁, hok, -⟩ | ⟨w₁, herr, hsame, -⟩ | ⟨w₁, l, herr, -⟩
    · obtain ⟨rfl, rfl⟩ := Prod.mk.inj (hrun'.symm.trans hok)
      exact ⟨nofun, nofun⟩
    · obtain ⟨rfl, rfl⟩ := Prod.mk.inj (hrun'.symm.trans herr)
      exact ⟨nofun, fun _ => hsame⟩
    · obtain ⟨rfl, rfl⟩ := Prod.mk.inj (hrun'.symm.trans herr)
      exact ⟨nofun, nofun⟩
  · have hshapes := h.shapes.owned
    have hstrides := h.strides.owned
    have hcombined := h.combined
    simp only [VectorWorld.owners, ownedShapes, ownedStrides, ownedCombined,
      ownedBy_of_lookup_none _ fun o => (hnone o).1, ownedBy_of_lookup_none _ fun o =>
        (hnone o).2.1,
      ownedBy_of_lookup_none _ fun o => (hnone o).2.2.1,
      ownedBy_of_lookup_none _ fun o => (hnone o).2.2.2.1,
      ownedBy_of_lookup_none _ fun o => (hnone o).2.2.2.2, List.nil_append, List.append_nil]
      at hshapes hstrides hcombined
    exact ⟨hshapes, hstrides, hcombined.buffers_eq⟩

/-! Two heap vectors whose buffers a storage takes, a copy in a combined allocation, and a move. -/

/-- Two elements inline, on a platform of 64 bits with small arrays. -/
def pairInline : StorageConfig where
  inlineCapacity := 2
  shapeMaxSize := 8
  stridesMaxSize := 8
  sizeofSize := 8
  sizeofStride := 8
  alignofStride := 8
  sizeMax := 2 ^ 64 - 1
  inlineCapacity_pos := Nat.succ_pos 1
  inlineCapacity_le_shape := Nat.le_add_right 2 6
  inlineCapacity_le_strides := Nat.le_add_right 2 6
  alignofStride_pos := Nat.succ_pos 7
  alignofStride_le := Nat.le_add_right 8 (2 ^ 64 - 9)

def noObjects : MetadataWorld ℕ ℕ pairInline := initial some some some

/-- The world after a call. -/
def next (w : MetadataWorld ℕ ℕ pairInline) (op : MetadataOp ℕ ℕ) : MetadataWorld ℕ ℕ pairInline :=
  ((perform op).run w).2

/-- Two vectors of three elements. -/
def twoVectors : MetadataWorld ℕ ℕ pairInline :=
  next (next noObjects (.onShapes (.constructFill 0 3 (.value 7))))
    (.onStrides (.constructFill 0 3 (.value 9)))

/-- A storage took their buffers, and was copied. -/
def twoStorages : MetadataWorld ℕ ℕ pairInline :=
  next (next twoVectors (.constructOwned 0 0 0)) (.copyConstruct 1 0)

/-- The copy was moved. -/
def movedStorage : MetadataWorld ℕ ℕ pairInline := next twoStorages (.moveConstruct 2 1)

def storageCalls : List (Call ℕ ℕ) :=
  [⟨.onShapes (.constructFill 0 3 (.value 7)), .ok (.vector .done)⟩,
    ⟨.onStrides (.constructFill 0 3 (.value 9)), .ok (.vector .done)⟩,
    ⟨.constructOwned 0 0 0, .ok (.storage true)⟩, ⟨.copyConstruct 1 0, .ok (.storage false)⟩,
    ⟨.moveConstruct 2 1, .ok .done⟩]

theorem step_next {w : MetadataWorld ℕ ℕ pairInline} (op : MetadataOp ℕ ℕ) (reply : MetadataReply)
    (hop : w.Enabled op) (hreply : ((perform op).run w).1 = .ok reply) :
    Step w ⟨op, .ok reply⟩ (next w op) := ⟨hop, Prod.ext hreply rfl, nofun⟩

theorem run_storageCalls : Run Step noObjects storageCalls movedStorage := by
  have hshape : Run Step noObjects _ _ :=
    .single (step_next (.onShapes (.constructFill 0 3 (.value 7)))
    (.vector .done) ⟨by decide, trivial⟩ (by decide +kernel))
  have hstrides := hshape.snoc (step_next (.onStrides (.constructFill 0 3 (.value 9)))
    (.vector .done) ⟨by decide, trivial⟩ (by decide +kernel))
  have howned := hstrides.snoc (step_next (.constructOwned 0 0 0) (.storage true)
    ⟨by decide +kernel, by decide +kernel, by decide +kernel⟩ (by decide +kernel))
  have hcopy := howned.snoc (step_next (.copyConstruct 1 0) (.storage false)
    ⟨by decide +kernel, by decide +kernel⟩ (by decide +kernel))
  exact hcopy.snoc (step_next (.moveConstruct 2 1) .done
    ⟨by decide +kernel, by decide +kernel⟩ (by decide +kernel))

theorem reads_back_of_moved :
    ((MetadataLists.run storageCalls).storages 0 = some ([7, 7, 7], [9, 9, 9]) ∧
      (MetadataLists.run storageCalls).storages 1 = some ([], []) ∧
      (MetadataLists.run storageCalls).storages 2 = some ([7, 7, 7], [9, 9, 9])) ∧
    ∀ o, Option.Rel (Shows movedStorage.memory) (movedStorage.storages.lookup o)
      ((MetadataLists.run storageCalls).storages o) :=
  ⟨⟨rfl, rfl, rfl⟩, (reads_back run_storageCalls).1⟩

/-- All objects were destroyed. -/
def destroyedObjects : MetadataWorld ℕ ℕ pairInline :=
  next (next (next (next (next movedStorage (.destroy 0)) (.destroy 1)) (.destroy 2))
    (.onShapes (.destroy 0))) (.onStrides (.destroy 0))

theorem step_destroy {w : MetadataWorld ℕ ℕ pairInline} (o : ObjectId) (hop : w.Alive o)
    (hreply : ((perform (.destroy o)).run w).1 = .ok .done) :
    Step w ⟨.destroy o, .ok .done⟩ (next w (.destroy o)) := step_next _ _ hop hreply

theorem run_destroyedObjects : ∃ trace, Run Step noObjects trace destroyedObjects := by
  have hfirst := run_storageCalls.snoc (step_destroy 0 (by decide +kernel) (by decide +kernel))
  have hsecond := hfirst.snoc (step_destroy 1 (by decide +kernel) (by decide +kernel))
  have hthird := hsecond.snoc (step_destroy 2 (by decide +kernel) (by decide +kernel))
  have hshape := hthird.snoc (step_next (.onShapes (.destroy 0)) (.vector .done)
    (by show VectorWorld.Alive _ 0; decide +kernel) (by decide +kernel))
  exact ⟨_, hshape.snoc (step_next (.onStrides (.destroy 0)) (.vector .done)
    (by show VectorWorld.Alive _ 0; decide +kernel) (by decide +kernel))⟩

theorem one_owner_of_destroyed :
    (movedStorage.shapes.heap.Owned [(0, 3)] ∧ movedStorage.strides.heap.Owned [(0, 3)] ∧
      movedStorage.combined.Owned [(0, ())]) ∧
    destroyedObjects.combined.buffers = fun _ => none := by
  obtain ⟨trace, hrun⟩ := run_destroyedObjects
  have hshapes : movedStorage.shapes.owners ++ movedStorage.ownedShapes = [(0, 3)] := by
    decide +kernel
  have hstrides : movedStorage.strides.owners ++ movedStorage.ownedStrides = [(0, 3)] := by
    decide +kernel
  have hcombined : movedStorage.ownedCombined = [(0, ())] := by decide +kernel
  have hempty : destroyedObjects.shapes.vectors.entries = [] ∧
      destroyedObjects.shapes.allocations.entries = [] ∧
      destroyedObjects.strides.vectors.entries = [] ∧
      destroyedObjects.strides.allocations.entries = [] ∧
      destroyedObjects.storages.entries = [] := by decide +kernel
  have howned := (one_owner run_storageCalls).1
  rw [hshapes, hstrides, hcombined] at howned
  refine ⟨howned, ((one_owner hrun).2.2 fun o => ?_).2.2⟩
  obtain ⟨h₁, h₂, h₃, h₄, h₅⟩ := hempty
  exact ⟨lookup_of_entries_nil h₁ o, lookup_of_entries_nil h₂ o, lookup_of_entries_nil h₃ o,
    lookup_of_entries_nil h₄ o, lookup_of_entries_nil h₅ o⟩

end MetadataWorld

end InfiniRT.Metadata
