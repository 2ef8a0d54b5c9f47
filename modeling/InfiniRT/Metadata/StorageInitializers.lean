import InfiniRT.Metadata.StorageSteps

/-!
# What the initializers do

An initializer of a new object either returns with the object keeping the lists it was given, or
runs out of memory and leaves every buffer alone, or aborts because the lists do not fit; `Builds`
says so.  The vectors that it was handed as rvalues lose their lists if the object took their
buffers, and are as they were otherwise.

A local vector is built, used and destroyed, so whatever it still owns at the end goes back.
Proved:

* **`initializeWith_run`** — lists that are copied;
* **`initializeOwned_builds`** — vectors that are handed over, with a lemma for each mixed form;
* **`moveConstructFrom_run`** — the move constructor never fails;
* **`releaseStorage_run`** — the destructor gives back what the object owns.
-/

namespace InfiniRT.Metadata

open InfiniRT.Library
open InfiniRT.Library.Ledger (Transfer)
open SmallVector (Holds Constructs)

variable {Size Stride : Type} {c : StorageConfig}

namespace ShapeStridesStorage

variable {s s' s₁ : StorageState Size Stride c} {ls : List Size} {lt : List Stride}
  {x body : StorageAction Size Stride c Unit}

/-! ### Outcomes -/

/-- The storage is made of two buffers. -/
def isSplit (st : ShapeStridesStorage Size Stride c) : Bool :=
  match st.storage with
  | .heapStorage heap => heap.allocation.isNone
  | .inlineStorage _ _ => false

/-- What an initializer leaves of a vector whose buffer it may take. -/
def Left {T : Type} {c : Config} (split : Bool) (L : ArrayHeap T) (v : SmallVector T c)
    (L' : ArrayHeap T) (v' : SmallVector T c) : Prop :=
  if split then v' = {} else v' = v ∧ ∀ e ∈ v.owned, L'.buffers e.1 = L.buffers e.1

/-- The object keeps the lists, and every buffer changed hands properly. -/
structure Built (s s' : StorageState Size Stride c) (ls : List Size) (lt : List Stride) : Prop where
  keeps : Keeps s'.memory s'.this ls lt
  narrow : ls.length < 2 ^ 32 ∧ lt.length < 2 ^ 32
  shapes : Transfer s.memory.shapes s.shape.owned s'.memory.shapes
    (s'.this.ownedShapes ++ s'.shape.owned)
  strides : Transfer s.memory.strides s.strides.owned s'.memory.strides
    (s'.this.ownedStrides ++ s'.strides.owned)
  combined : Transfer s.memory.combined [] s'.memory.combined s'.this.ownedCombined
  shape_left : Left s'.this.isSplit s.memory.shapes s.shape s'.memory.shapes s'.shape
  strides_left : Left s'.this.isSplit s.memory.strides s.strides s'.memory.strides s'.strides

/-- Every buffer and the vectors are as they were. -/
structure Failed (s s' : StorageState Size Stride c) : Prop where
  shapes : s'.memory.shapes.buffers = s.memory.shapes.buffers
  strides : s'.memory.strides.buffers = s.memory.strides.buffers
  combined : s'.memory.combined.buffers = s.memory.combined.buffers
  shape_eq : s'.shape = s.shape
  strides_eq : s'.strides = s.strides

/-- **The outcomes of an initializer** for two lists: it is done, or there is no memory, or it
aborts and the lists do not fit. -/
def Ends (x : StorageAction Size Stride c Unit) (s : StorageState Size Stride c) (ls : List Size)
    (lt : List Stride) (done : StorageState Size Stride c → Prop) : Prop :=
  (∃ s', x.run s = (.ok (), s') ∧ done s') ∨
  (∃ s', x.run s = (.error .badAlloc, s') ∧ Failed s s') ∨
  ∃ s', x.run s = (.error .abort, s') ∧ ¬Fits c ls.length lt.length

/-- An initializer builds the object from two lists. -/
abbrev Builds (x : StorageAction Size Stride c Unit) (s : StorageState Size Stride c)
    (ls : List Size) (lt : List Stride) : Prop := Ends x s ls lt (Built s · ls lt)

theorem Ends.imp {done done' : StorageState Size Stride c → Prop} (h : Ends x s ls lt done)
    (himp : ∀ s', done s' → done' s') : Ends x s ls lt done' :=
  h.imp_left fun ⟨s', hrun, hdone⟩ => ⟨s', hrun, himp s' hdone⟩

/-! ### `Initialize` -/

theorem narrowSize_run (n : ℕ) (s : StorageState Size Stride c) :
    (n < 2 ^ 32 ∧ (narrowSize n).run s = (.ok n, s)) ∨
      (2 ^ 32 ≤ n ∧ (narrowSize n).run s = (.error .abort, s)) := by
  unfold narrowSize
  by_cases hlarge : n > 2 ^ 32 - 1
  · rw [if_pos hlarge]
    exact .inr ⟨by omega, rfl⟩
  · rw [if_neg hlarge]
    exact .inl ⟨by omega, rfl⟩

/-- Every initializer narrows both sizes first. -/
theorem narrowSizes_run (n k : ℕ) (s : StorageState Size Stride c)
    (rest : ℕ → ℕ → StorageAction Size Stride c Unit) :
    ((n < 2 ^ 32 ∧ k < 2 ^ 32) ∧
        (do rest (← narrowSize n) (← narrowSize k)).run s = (rest n k).run s) ∨
      (¬(n < 2 ^ 32 ∧ k < 2 ^ 32) ∧
        (do rest (← narrowSize n) (← narrowSize k)).run s = (.error .abort, s)) := by
  rcases narrowSize_run n s with ⟨hn, hrun₁⟩ | ⟨hlarge, hrun₁⟩
  swap
  · exact .inr ⟨by omega, Action.run_bind_error hrun₁⟩
  rw [Action.run_bind_ok hrun₁]
  rcases narrowSize_run k s with ⟨hk, hrun₂⟩ | ⟨hlarge, hrun₂⟩
  · exact .inl ⟨⟨hn, hk⟩, Action.run_bind_ok hrun₂⟩
  · exact .inr ⟨by omega, Action.run_bind_error hrun₂⟩

theorem Fits.narrow {shapeSize stridesSize : ℕ} (h : Fits c shapeSize stridesSize) :
    shapeSize < 2 ^ 32 ∧ stridesSize < 2 ^ 32 := ⟨h.1, h.2.1⟩

/-- A writer puts the lists at the start of the two arrays. -/
def Writes (writer : Destination → StorageAction Size Stride c Unit)
    (s : StorageState Size Stride c) (ls : List Size) (lt : List Stride) : Prop :=
  ∀ s₁ d a b, s₁.memory.shapes = s.memory.shapes → s₁.memory.strides = s.memory.strides →
    s₁.arrays d = some (a, b) → ls.length ≤ a.length → lt.length ≤ b.length →
    (writer d).run s₁ =
      (.ok (), s₁.putArrays d (ls.map some ++ a.drop ls.length) (lt.map some ++ b.drop lt.length))

/-- `Initialize` never splits, and only a combined allocation changes the memory. -/
structure Filled (s s' : StorageState Size Stride c) (ls : List Size) (lt : List Stride) :
    Prop where
  keeps : Keeps s'.memory s'.this ls lt
  narrow : ls.length < 2 ^ 32 ∧ lt.length < 2 ^ 32
  this_split : s'.this.isSplit = false
  shapes_eq : s'.memory.shapes = s.memory.shapes
  strides_eq : s'.memory.strides = s.memory.strides
  combined : Transfer s.memory.combined [] s'.memory.combined s'.this.ownedCombined
  shape_eq : s'.shape = s.shape
  stridesVector_eq : s'.strides = s.strides

theorem owned_of_not_split (h : Keeps s'.memory s'.this ls lt) (hsplit : s'.this.isSplit = false) :
    s'.this.ownedShapes = [] ∧ s'.this.ownedStrides = [] := by
  rcases s' with ⟨m, st, v, u⟩
  cases h with
  | inlined => exact ⟨rfl, rfl⟩
  | combined => exact ⟨rfl, rfl⟩
  | split => cases hsplit

theorem Filled.built (h : Filled s s' ls lt) : Built s s' ls lt := by
  obtain ⟨hshapes, hstrides⟩ := owned_of_not_split h.keeps h.this_split
  refine ⟨h.keeps, h.narrow, ?_, ?_, h.combined, ?_, ?_⟩
  · rw [h.shapes_eq, h.shape_eq, hshapes]
    exact .refl _ _
  · rw [h.strides_eq, h.stridesVector_eq, hstrides]
    exact .refl _ _
  · rw [h.this_split, h.shapes_eq]
    exact ⟨h.shape_eq, fun _ _ => rfl⟩
  · rw [h.this_split, h.strides_eq]
    exact ⟨h.stridesVector_eq, fun _ _ => rfl⟩

/-- Lists up to the inline capacity are written into the object. -/
theorem writer_inline (hstart : s.this = {})
    {writer : Destination → StorageAction Size Stride c Unit} (hwriter : Writes writer s ls lt)
    (hinline : ls.length ≤ c.inlineCapacity ∧ lt.length ≤ c.inlineCapacity) :
    ∃ st, (do writer .inlineStorage; setSizes ls.length lt.length).run s =
        (.ok (), { s with this := st }) ∧ st.isInline ∧ ∀ m, Keeps m st ls lt := by
  have harrays : s.arrays .inlineStorage =
      some (List.replicate c.inlineCapacity none, List.replicate c.inlineCapacity none) := by
    simp only [StorageState.arrays, hstart]
  have hwrite := hwriter s _ _ _ rfl rfl harrays (by simpa using hinline.1)
    (by simpa using hinline.2)
  rw [Action.run_bind_ok hwrite]
  refine ⟨_, rfl, decide_eq_true hinline, fun m => .inlined ?_ ?_⟩
  · simp only [List.length_append, List.length_map, List.length_drop, List.length_replicate]
    omega
  · simp only [List.length_append, List.length_map, List.length_drop, List.length_replicate]
    omega

/-- Lists up to the inline capacity need no memory. -/
theorem initializeWith_inline (hstart : s.this = {})
    {writer : Destination → StorageAction Size Stride c Unit} (hwriter : Writes writer s ls lt)
    (hnarrow : ls.length < 2 ^ 32 ∧ lt.length < 2 ^ 32)
    (hinline : ls.length ≤ c.inlineCapacity ∧ lt.length ≤ c.inlineCapacity) :
    ∃ st, (initializeWith ls.length lt.length writer).run s = (.ok (), { s with this := st }) ∧
      st.isInline ∧ ∀ m, Keeps m st ls lt := by
  unfold initializeWith
  rcases narrowSizes_run ls.length lt.length s _ with ⟨-, hrun⟩ | ⟨hlarge, -⟩
  · rw [hrun, if_pos hinline]
    exact writer_inline hstart hwriter hinline
  · exact absurd hnarrow hlarge

theorem not_split_of_inline {m : Memory Size Stride} {st : ShapeStridesStorage Size Stride c}
    (h : Keeps m st ls lt) (hinline : st.isInline) :
    st.isSplit = false ∧ st.ownedCombined = [] := by
  obtain ⟨shape, strides, hstorage⟩ := h.isInline_iff.mp hinline
  simp only [isSplit, ownedCombined, hstorage, and_self]

/-- **`Initialize`** writes the arrays of the object, or those of a new combined allocation. -/
theorem initializeWith_run (hstart : s.this = {})
    {writer : Destination → StorageAction Size Stride c Unit} (hwriter : Writes writer s ls lt) :
    Ends (initializeWith ls.length lt.length writer) s ls lt (Filled s · ls lt) := by
  unfold initializeWith
  rcases narrowSizes_run ls.length lt.length s _ with ⟨hnarrow, hrun₀⟩ | ⟨hlarge, hrun₀⟩
  swap
  · exact .inr (.inr ⟨s, hrun₀, fun hfits => hlarge hfits.narrow⟩)
  rw [Ends, hrun₀]
  by_cases hinline : ls.length ≤ c.inlineCapacity ∧ lt.length ≤ c.inlineCapacity
  · obtain ⟨st, hrun, hst, hkeeps⟩ := writer_inline hstart hwriter hinline
    obtain ⟨hsplit, howned⟩ := not_split_of_inline (hkeeps s.memory) hst
    rw [if_pos hinline]
    refine .inl ⟨_, hrun, hkeeps _, hnarrow, hsplit, rfl, rfl, ?_, rfl, rfl⟩
    exact howned ▸ .refl _ _
  · rw [if_neg hinline]
    rcases combinedAllocation_run ls.length lt.length s with
      ⟨p, bytes, offset, -, hp, hrun⟩ | ⟨L, hrun, hbuffers, -⟩ | ⟨hrun, hfits⟩
    · -- a combined allocation holds both arrays
      rw [Action.run_bind_ok hrun]
      have hwrite := hwriter { s with memory := { s.memory with
        combined := s.memory.combined.asked.write p ()
          ⟨bytes, List.replicate ls.length none, offset,
          List.replicate lt.length none⟩ } } (.combined p) (List.replicate ls.length none)
        (List.replicate lt.length none) rfl rfl (by simp [StorageState.arrays]) (by simp) (by simp)
      rw [Action.run_bind_ok hwrite]
      refine .inl ⟨_, rfl, ?_⟩
      simp only [StorageState.putArrays, Ledger.write_buffers_self, Ledger.write_write,
        List.drop_replicate, Nat.sub_self, List.replicate_zero, List.append_nil]
      exact ⟨.combined hinline (Ledger.write_buffers_self ..), hnarrow, rfl, rfl, rfl,
        .allocated hp () _ [], rfl, rfl⟩
    · exact .inr (.inl ⟨_, Action.run_bind_error hrun, rfl, rfl, hbuffers, rfl, rfl⟩)
    · exact .inr (.inr ⟨s, Action.run_bind_error hrun, hfits⟩)

theorem builds_of_initializeWith {shapeSize stridesSize : ℕ} (hstart : s.this = {})
    {writer : Destination → StorageAction Size Stride c Unit} (hwriter : Writes writer s ls lt)
    (hshape : shapeSize = ls.length) (hstrides : stridesSize = lt.length) :
    Builds (initializeWith shapeSize stridesSize writer) s ls lt := by
  subst hshape hstrides
  exact (initializeWith_run hstart hwriter).imp fun _ hfilled => hfilled.built

/-! ### Forward ranges -/

/-- What a range refers to is there, and stays there while others take memory. -/
abbrev Refers {T : Type} (L : ArrayHeap T) (range : List (Ref T)) (l : List T) : Prop :=
  List.Forall₂ (fun r x => L.Reads r.load x) range l

theorem writes_ranges {shape : List (Ref Size)} {strides : List (Ref Stride)}
    (hshape : Refers s.memory.shapes shape ls) (hstrides : Refers s.memory.strides strides lt) :
    Writes (fun d => do copyShape shape d; copyStrides strides d) s ls lt := by
  intro s₁ d a b hshapes₁ hstrides₁ harrays ha hb
  have hshape₁ : Refers s₁.memory.shapes shape ls := hshapes₁ ▸ hshape
  have hcopied := arrays_putArrays harrays (ls.map some ++ a.drop ls.length) b
  have hstrides₂ : Refers (s₁.putArrays d (ls.map some ++ a.drop ls.length) b).memory.strides
      strides lt := by
    rw [putArrays_strides, hstrides₁]
    exact hstrides
  rw [Action.run_bind_ok (copyShape_run harrays hshape₁ ha), copyStrides_run hcopied hstrides₂ hb,
    putArrays_putArrays harrays]

theorem initializeForwardRanges_builds (hstart : s.this = {}) {shape : List (Ref Size)}
    {strides : List (Ref Stride)} (hshape : Refers s.memory.shapes shape ls)
    (hstrides : Refers s.memory.strides strides lt) :
    Builds (initializeForwardRanges shape strides) s ls lt :=
  builds_of_initializeWith hstart (writes_ranges hshape hstrides) hshape.length_eq
    hstrides.length_eq

theorem initializeForwardRanges_inline (hstart : s.this = {}) {shape : List (Ref Size)}
    {strides : List (Ref Stride)} (hshape : Refers s.memory.shapes shape ls)
    (hstrides : Refers s.memory.strides strides lt)
    (hnarrow : ls.length < 2 ^ 32 ∧ lt.length < 2 ^ 32)
    (hinline : ls.length ≤ c.inlineCapacity ∧ lt.length ≤ c.inlineCapacity) :
    ∃ st, (initializeForwardRanges shape strides).run s = (.ok (), { s with this := st }) ∧
      ∀ m, Keeps m st ls lt := by
  obtain ⟨st, hrun, -, hkeeps⟩ :=
    initializeWith_inline hstart (writes_ranges hshape hstrides) hnarrow hinline
  rw [← hshape.length_eq, ← hstrides.length_eq] at hrun
  exact ⟨st, hrun, hkeeps⟩

/-! ### Vectors that may be taken apart -/

theorem run_callShape {α : Type} {x : VectorAction Size c.shape α} {r : Except Fault α}
    {t : VectorState Size c.shape} (h : x.run ⟨s.memory.shapes, s.shape⟩ = (r, t)) :
    (callShape x).run s =
      (r, { s with memory := { s.memory with shapes := t.heap }, shape := t.this }) :=
  Action.run_zoom h

theorem run_callStrides {α : Type} {x : VectorAction Stride c.strides α} {r : Except Fault α}
    {t : VectorState Stride c.strides} (h : x.run ⟨s.memory.strides, s.strides⟩ = (r, t)) :
    (callStrides x).run s =
      (r, { s with memory := { s.memory with strides := t.heap }, strides := t.this }) :=
  Action.run_zoom h

/-- A vector beyond the inline capacity has a buffer. -/
theorem buffer_of_holds {T : Type} {cv : Config} {L : ArrayHeap T} {v : SmallVector T cv}
    {l : List T} (h : Holds L v l) (hcap : v.capacity > cv.inlineCapacity) :
    ∃ p capacity rest, v = ⟨.heapData p, l.length, capacity⟩ ∧
      L.buffers p = some (capacity, l.map some ++ rest) := by
  obtain ⟨hsize, rest, hst⟩ := h
  cases hst with
  | inlined => exact absurd hcap (Nat.lt_irrefl _)
  | @allocated p size capacity _ _ _ _ hp =>
    obtain rfl : size = l.length := hsize
    exact ⟨p, capacity, rest, rfl, hp⟩

/-- `InitializeOwned` takes the buffers of two vectors that are both on the heap. -/
theorem initializeOwned_split (hstart : s.this = {}) (hshape : Holds s.memory.shapes s.shape ls)
    (hstrides : Holds s.memory.strides s.strides lt)
    (hbig : ¬(ls.length ≤ c.inlineCapacity ∧ lt.length ≤ c.inlineCapacity))
    (hheap : s.shape.capacity > c.inlineCapacity ∧ s.strides.capacity > c.inlineCapacity) :
    (∃ s', initializeOwned.run s = (.ok (), s') ∧ Built s s' ls lt ∧ s'.this.isSplit) ∨
      ∃ s', initializeOwned.run s = (.error .abort, s') ∧ ¬Fits c ls.length lt.length := by
  unfold initializeOwned
  rw [Action.run_bind_ok (Action.run_get s)]
  dsimp only
  rw [hshape.size_eq, hstrides.size_eq, if_neg hbig, if_pos hheap]
  rcases narrowSizes_run ls.length lt.length s _ with ⟨hnarrow, hrun₀⟩ | ⟨hlarge, hrun₀⟩
  swap
  · exact .inr ⟨s, hrun₀, fun hfits => hlarge hfits.narrow⟩
  rw [hrun₀]
  obtain ⟨p, capacity, shapeRest, hv, hp⟩ := buffer_of_holds hshape hheap.1
  obtain ⟨q, capacity', stridesRest, hu, hq⟩ := buffer_of_holds hstrides hheap.2
  rcases s with ⟨m, st, v, u⟩
  dsimp only at hv hu hstart hp hq
  subst hv hu hstart
  have hshapeHeap : (⟨.heapData p, ls.length, capacity⟩ : Shape Size c).isHeap :=
    decide_eq_true hheap.1
  have hstridesHeap : (⟨.heapData q, lt.length, capacity'⟩ : Strides Stride c).isHeap :=
    decide_eq_true hheap.2
  rw [Action.run_bind_ok (run_callShape (SmallVector.releaseHeap_of_heap hshapeHeap rfl)),
    Action.run_bind_ok (run_callStrides (SmallVector.releaseHeap_of_heap hstridesHeap rfl))]
  exact .inl ⟨_, rfl, ⟨.split hbig hp hq, hnarrow, .refl _ _, .refl _ _, .refl _ _, rfl, rfl⟩,
    rfl⟩

/-- **`InitializeOwned`** takes both buffers, or copies. -/
theorem initializeOwned_builds (hstart : s.this = {}) (hshape : Holds s.memory.shapes s.shape ls)
    (hstrides : Holds s.memory.strides s.strides lt) : Builds initializeOwned s ls lt := by
  by_cases hsplit : ¬(ls.length ≤ c.inlineCapacity ∧ lt.length ≤ c.inlineCapacity) ∧
      s.shape.capacity > c.inlineCapacity ∧ s.strides.capacity > c.inlineCapacity
  · rcases initializeOwned_split hstart hshape hstrides hsplit.1 hsplit.2 with
      ⟨s', hok, hbuilt, -⟩ | habort
    · exact .inl ⟨s', hok, hbuilt⟩
    · exact .inr (.inr habort)
  · have hcopy := initializeForwardRanges_builds hstart hshape.cells_reads hstrides.cells_reads
    unfold initializeOwned
    rw [Builds, Ends, Action.run_bind_ok (Action.run_get s)]
    dsimp only
    rw [hshape.size_eq, hstrides.size_eq]
    by_cases hinline : ls.length ≤ c.inlineCapacity ∧ lt.length ≤ c.inlineCapacity
    · rw [if_pos hinline]
      exact hcopy
    · rw [if_neg hinline, if_neg fun hheap => hsplit ⟨hinline, hheap⟩]
      exact hcopy

/-! ### Local vectors -/

section Locals

variable {α : Type} {leave : StorageAction Size Stride c Unit} {s₂ : StorageState Size Stride c}
  {a : α}

theorem leaving_ok {x : StorageAction Size Stride c α} (hx : x.run s = (.ok a, s₁))
    (hleave : leave.run s₁ = (.ok (), s₂)) : (leaving x leave).run s = (.ok a, s₂) := by
  unfold leaving
  rw [Action.run_bind_ok (Action.run_tryCatch_ok hx), Action.run_bind_ok hleave]
  rfl

theorem leaving_badAlloc {x : StorageAction Size Stride c α}
    (hx : x.run s = (.error .badAlloc, s₁)) (hleave : leave.run s₁ = (.ok (), s₂)) :
    (leaving x leave).run s = (.error .badAlloc, s₂) := by
  unfold leaving
  refine Action.run_bind_error ((Action.run_tryCatch_error hx).trans ?_)
  rw [if_pos rfl, Action.run_bind_ok hleave]
  rfl

theorem leaving_abort {x : StorageAction Size Stride c α} (hx : x.run s = (.error .abort, s₁)) :
    (leaving x leave).run s = (.error .abort, s₁) := by
  unfold leaving
  exact Action.run_bind_error ((Action.run_tryCatch_error hx).trans rfl)

end Locals

/-- What an object owns in two buffers, nobody else gives back. -/
theorem Left.destroy {T : Type} {cv : Config} {split : Bool} {L L' : ArrayHeap T}
    {v v' : SmallVector T cv} {l : List T} (h : Left split L v L' v') (hv : Holds L v l) :
    ∃ L'', v'.destroy.run L' = (.ok (), L'') ∧ Transfer L' v'.owned L'' [] ∧
      (split → L''.buffers = L'.buffers) := by
  cases split with
  | true =>
    obtain rfl : v' = {} := h
    obtain ⟨L'', hrun, htransfer⟩ := SmallVector.destroy_run (SmallVector.stored_empty (c := cv) L')
    exact ⟨L'', hrun, htransfer, fun _ => htransfer.buffers_eq⟩
  | false =>
    obtain ⟨rfl, hsame⟩ : v' = v ∧ ∀ e ∈ v.owned, L'.buffers e.1 = L.buffers e.1 := h
    obtain ⟨rest, hst⟩ := (hv.congr hsame).stored
    obtain ⟨L'', hrun, htransfer⟩ := SmallVector.destroy_run hst
    exact ⟨L'', hrun, htransfer, nofun⟩

theorem Failed.destroy {T : Type} {cv : Config} {L L' : ArrayHeap T} {v : SmallVector T cv}
    {l : List T} (hv : Holds L v l) (hsame : L'.buffers = L.buffers) :
    ∃ L'', v.destroy.run L' = (.ok (), L'') ∧ Transfer L' v.owned L'' [] := by
  obtain ⟨rest, hst⟩ := (hv.congr fun e _ => congrFun hsame e.1).stored
  exact SmallVector.destroy_run hst

/-- **A scope with a local `Strides`.** -/
theorem localStrides_builds {make : Action (ArrayHeap Stride) Fault (Strides Stride c)}
    {lv : List Stride} (hmake : Constructs make s.memory.strides lv) (houter : s.strides = {})
    (hbody : ∀ v L, Holds L v lv →
      Builds body { s with memory := { s.memory with strides := L }, strides := v } ls lt) :
    Builds (do let v ← onStrides make; withStrides v body) s ls lt := by
  rcases hmake with ⟨v, L, hrun, hv, htransfer⟩ | ⟨L, hrun, hbuffers⟩
  swap
  · exact .inr (.inl ⟨_, Action.run_bind_error (run_onStrides hrun), rfl, hbuffers, rfl, rfl, rfl⟩)
  rw [Builds, Ends, Action.run_bind_ok (run_onStrides hrun)]
  unfold withStrides
  rw [Action.run_bind_ok (Action.run_get _), Action.run_bind_ok (Action.run_modify _ _)]
  rcases hbody v L hv with ⟨s₁, hok, hbuilt⟩ | ⟨s₁, herr, hfailed⟩ | ⟨s₁, habort, hfits⟩
  · -- the local gives back what the object did not take
    obtain ⟨L', hdestroy, hgone, hsplit⟩ := hbuilt.strides_left.destroy hv
    refine .inl ⟨{ s₁ with memory := { s₁.memory with strides := L' }, strides := s.strides },
      ?_, ?_⟩
    · refine leaving_ok hok ?_
      rw [Action.run_bind_ok (Action.run_get _), Action.run_bind_ok (run_onStrides hdestroy)]
      rfl
    · refine ⟨hbuilt.keeps.congr (fun _ _ => rfl) (fun e he => ?_) (fun _ _ => rfl), hbuilt.narrow,
        hbuilt.shapes, ?_, hbuilt.combined, hbuilt.shape_left, ?_⟩
      · cases hs : s₁.this.isSplit with
        | true => exact congrFun (hsplit hs) e.1
        | false =>
          rw [(owned_of_not_split hbuilt.keeps hs).2] at he
          exact absurd he List.not_mem_nil
      · rw [houter]
        refine (htransfer.trans hbuilt.strides).trans ?_
        exact hgone.extend_left s₁.this.ownedStrides
      · rw [houter]
        unfold Left
        split
        · rfl
        · exact ⟨rfl, fun e he => absurd he List.not_mem_nil⟩
  · obtain ⟨L', hdestroy, hgone⟩ := Failed.destroy hv hfailed.strides
    refine .inr (.inl ⟨{ s₁ with memory := { s₁.memory with strides := L' }, strides := s.strides },
      ?_, hfailed.shapes, ?_, hfailed.combined, hfailed.shape_eq, rfl⟩)
    · refine leaving_badAlloc herr ?_
      rw [Action.run_bind_ok (Action.run_get _), hfailed.strides_eq,
        Action.run_bind_ok (run_onStrides hdestroy)]
      rfl
    · exact ((htransfer.trans (.of_same hfailed.strides v.owned)).trans hgone).buffers_eq
  · exact .inr (.inr ⟨s₁, leaving_abort habort, hfits⟩)

/-- **A scope with a local `Shape`.** -/
theorem localShape_builds {make : Action (ArrayHeap Size) Fault (Shape Size c)} {lv : List Size}
    (hmake : Constructs make s.memory.shapes lv) (houter : s.shape = {})
    (hbody : ∀ v L, Holds L v lv →
      Builds body { s with memory := { s.memory with shapes := L }, shape := v } ls lt) :
    Builds (do let v ← onShapes make; withShape v body) s ls lt := by
  rcases hmake with ⟨v, L, hrun, hv, htransfer⟩ | ⟨L, hrun, hbuffers⟩
  swap
  · exact .inr (.inl ⟨_, Action.run_bind_error (run_onShapes hrun), hbuffers, rfl, rfl, rfl, rfl⟩)
  rw [Builds, Ends, Action.run_bind_ok (run_onShapes hrun)]
  unfold withShape
  rw [Action.run_bind_ok (Action.run_get _), Action.run_bind_ok (Action.run_modify _ _)]
  rcases hbody v L hv with ⟨s₁, hok, hbuilt⟩ | ⟨s₁, herr, hfailed⟩ | ⟨s₁, habort, hfits⟩
  · obtain ⟨L', hdestroy, hgone, hsplit⟩ := hbuilt.shape_left.destroy hv
    refine .inl ⟨{ s₁ with memory := { s₁.memory with shapes := L' }, shape := s.shape }, ?_, ?_⟩
    · refine leaving_ok hok ?_
      rw [Action.run_bind_ok (Action.run_get _), Action.run_bind_ok (run_onShapes hdestroy)]
      rfl
    · refine ⟨hbuilt.keeps.congr (fun e he => ?_) (fun _ _ => rfl) (fun _ _ => rfl), hbuilt.narrow,
        ?_, hbuilt.strides, hbuilt.combined, ?_, hbuilt.strides_left⟩
      · cases hs : s₁.this.isSplit with
        | true => exact congrFun (hsplit hs) e.1
        | false =>
          rw [(owned_of_not_split hbuilt.keeps hs).1] at he
          exact absurd he List.not_mem_nil
      · rw [houter]
        refine (htransfer.trans hbuilt.shapes).trans ?_
        exact hgone.extend_left s₁.this.ownedShapes
      · rw [houter]
        unfold Left
        split
        · rfl
        · exact ⟨rfl, fun e he => absurd he List.not_mem_nil⟩
  · obtain ⟨L', hdestroy, hgone⟩ := Failed.destroy hv hfailed.shapes
    refine .inr (.inl ⟨{ s₁ with memory := { s₁.memory with shapes := L' }, shape := s.shape },
      ?_, ?_, hfailed.strides, hfailed.combined, rfl, hfailed.strides_eq⟩)
    · refine leaving_badAlloc herr ?_
      rw [Action.run_bind_ok (Action.run_get _), hfailed.shape_eq,
        Action.run_bind_ok (run_onShapes hdestroy)]
      rfl
    · exact ((htransfer.trans (.of_same hfailed.shapes v.owned)).trans hgone).buffers_eq
  · exact .inr (.inr ⟨s₁, leaving_abort habort, hfits⟩)

/-! ### The constructors from two lists -/

theorem constructs_range {T : Type} {cv : Config} {L : ArrayHeap T} {category : Category}
    {range : List (Ref T)} {l : List T} (hrange : Refers L range l)
    (hmax : category = .input → l.length ≤ cv.maxSize) :
    Constructs (SmallVector.construction (c := cv) (SmallVector.initializeRange category range))
      L l :=
  SmallVector.construction_run (SmallVector.initializeRange_run category hrange hmax)

/-- **`InitializeRanges`.** -/
theorem initializeRanges_builds (hstart : s.this = {}) (hempty : s.shape = {} ∧ s.strides = {})
    {shape : Range Size} {strides : Range Stride} (hshape : Refers s.memory.shapes shape.values ls)
    (hstrides : Refers s.memory.strides strides.values lt)
    (hshapeMax : shape.category = .input → ls.length ≤ c.shapeMaxSize)
    (hstridesMax : strides.category = .input → lt.length ≤ c.stridesMaxSize) :
    Builds (initializeRanges shape strides) s ls lt := by
  unfold initializeRanges
  by_cases hforward : shape.category = .forward ∧ strides.category = .forward
  · rw [if_pos hforward]
    exact initializeForwardRanges_builds hstart hshape hstrides
  · rw [if_neg hforward]
    refine localShape_builds (constructs_range hshape hshapeMax) hempty.1 fun v L hv => ?_
    refine localStrides_builds (constructs_range hstrides hstridesMax) hempty.2 fun u L' hu => ?_
    exact initializeOwned_builds hstart hv hu

/-- **`InitializeMixed(Shape&&, const Strides&)`.** -/
theorem initializeMixedShape_builds (hstart : s.this = {}) (hempty : s.strides = {})
    {strides : Strides Stride c} (hshape : Holds s.memory.shapes s.shape ls)
    (hstrides : Holds s.memory.strides strides lt) :
    Builds (initializeMixedShape strides) s ls lt := by
  unfold initializeMixedShape
  rw [Builds, Ends, Action.run_bind_ok (Action.run_get s)]
  by_cases hlong : s.shape.size > c.inlineCapacity ∧ strides.size > c.inlineCapacity ∧
      s.shape.capacity > c.inlineCapacity
  · rw [if_pos hlong]
    refine localStrides_builds (SmallVector.construction_run
      (SmallVector.copyConstructFrom_run hstrides)) hempty fun u L hu => ?_
    exact initializeOwned_builds hstart hshape hu
  · rw [if_neg hlong]
    exact initializeForwardRanges_builds hstart hshape.cells_reads hstrides.cells_reads

/-- **`InitializeMixed(const Shape&, Strides&&)`.** -/
theorem initializeMixedStrides_builds (hstart : s.this = {}) (hempty : s.shape = {})
    {shape : Shape Size c} (hshape : Holds s.memory.shapes shape ls)
    (hstrides : Holds s.memory.strides s.strides lt) :
    Builds (initializeMixedStrides shape) s ls lt := by
  unfold initializeMixedStrides
  rw [Builds, Ends, Action.run_bind_ok (Action.run_get s)]
  by_cases hlong : shape.size > c.inlineCapacity ∧ s.strides.size > c.inlineCapacity ∧
      s.strides.capacity > c.inlineCapacity
  · rw [if_pos hlong]
    refine localShape_builds (SmallVector.construction_run
      (SmallVector.copyConstructFrom_run hshape)) hempty fun v L hv => ?_
    exact initializeOwned_builds hstart hv hstrides
  · rw [if_neg hlong]
    exact initializeForwardRanges_builds hstart hshape.cells_reads hstrides.cells_reads

/-! ### Copy, move and destruction -/

variable {m : Memory Size Stride} {other other' : ShapeStridesStorage Size Stride c}

/-- **The copy constructor.** -/
theorem copyConstructFrom_builds (hstart : s.this = {}) (h : Keeps s.memory other ls lt) :
    Builds (copyConstructFrom other) s ls lt := by
  unfold copyConstructFrom
  rw [Builds, Ends, Action.run_bind_ok (Action.run_get s)]
  exact initializeForwardRanges_builds hstart h.shape_reads h.strides_reads

/-- The object owns what the other one owned, which is empty now. -/
structure MovedTo (s : StorageState Size Stride c) (st other other' :
    ShapeStridesStorage Size Stride c)
    (ls : List Size) (lt : List Stride) : Prop where
  keeps : Keeps s.memory st ls lt
  source : Keeps s.memory other' [] []
  owned : st.ownedShapes = other.ownedShapes ∧ st.ownedStrides = other.ownedStrides ∧
    st.ownedCombined = other.ownedCombined
  source_owned : other'.ownedShapes = [] ∧ other'.ownedStrides = [] ∧ other'.ownedCombined = []

theorem Keeps.inline_le (h : Keeps m other ls lt) (hinline : other.isInline) :
    ls.length ≤ c.inlineCapacity ∧ lt.length ≤ c.inlineCapacity := by
  have hsizes := of_decide_eq_true hinline
  rwa [h.shapeSize_eq, h.stridesSize_eq] at hsizes

theorem Keeps.owned_of_inline (h : Keeps m other ls lt) (hinline : other.isInline) :
    other.ownedShapes = [] ∧ other.ownedStrides = [] ∧ other.ownedCombined = [] := by
  obtain ⟨shape, strides, hstorage⟩ := h.isInline_iff.mp hinline
  simp only [ownedShapes, ownedStrides, ownedCombined, hstorage, and_self]

/-- **The move constructor** never fails, and the memory stays as it is. -/
theorem moveConstructFrom_run (hstart : s.this = {}) (h : Keeps s.memory other ls lt)
    (hnarrow : ls.length < 2 ^ 32 ∧ lt.length < 2 ^ 32) :
    ∃ st other', (moveConstructFrom other).run s = (.ok other', { s with this := st }) ∧
      MovedTo s st other other' ls lt := by
  unfold moveConstructFrom
  cases hinline : other.isInline with
  | true =>
    have hle := h.inline_le hinline
    obtain ⟨st, hinit, hst, hkeeps⟩ :=
      initializeWith_inline hstart (writes_ranges h.shape_reads h.strides_reads) hnarrow hle
    rw [← h.shapeSize_eq, ← h.stridesSize_eq] at hinit
    refine ⟨st, { other with shapeSize := 0, stridesSize := 0 }, ?_, hkeeps _,
      h.cleared hinline _, ?_, ?_⟩
    · rw [if_pos rfl, Action.run_bind_ok (Action.run_get s), Action.run_bind_ok hinit]
      rfl
    · obtain ⟨h₁, h₂, h₃⟩ := (hkeeps s.memory).owned_of_inline hst
      obtain ⟨h₁', h₂', h₃'⟩ := h.owned_of_inline hinline
      exact ⟨h₁.trans h₁'.symm, h₂.trans h₂'.symm, h₃.trans h₃'.symm⟩
    · exact h.owned_of_inline hinline
  | false =>
    rw [if_neg Bool.false_ne_true]
    have hheap : ∃ heap, other = ⟨.heapStorage heap, ls.length, lt.length⟩ := by
      cases h with
      | inlined hshape hstrides =>
        have hst := (Keeps.inlined (m := s.memory) hshape hstrides).isInline_iff.mpr ⟨_, _, rfl⟩
        rw [hst] at hinline
        cases hinline
      | combined => exact ⟨_, rfl⟩
      | split => exact ⟨_, rfl⟩
    obtain ⟨heap, rfl⟩ := hheap
    refine ⟨⟨.heapStorage heap, ls.length, lt.length⟩, {}, rfl, h, keeps_empty _, ⟨rfl, rfl, rfl⟩,
      rfl, rfl, rfl⟩

/-- **The destructor** gives back what the object owns. -/
theorem releaseStorage_run (h : Keeps m other ls lt) :
    ∃ m', other.releaseStorage.run m = (.ok (), m') ∧
      Transfer m.shapes other.ownedShapes m'.shapes [] ∧
      Transfer m.strides other.ownedStrides m'.strides [] ∧
      Transfer m.combined other.ownedCombined m'.combined [] := by
  have hinline := h.isInline_iff
  cases h with
  | inlined =>
    refine ⟨m, ?_, .refl _ _, .refl _ _, .refl _ _⟩
    unfold releaseStorage
    rw [if_pos (hinline.mpr ⟨_, _, rfl⟩)]
    rfl
  | @combined _ _ p bytes offset hbig hp =>
    have hlive := Ledger.Live.of_buffers hp
    refine ⟨{ m with combined := m.combined.drop p }, ?_, .refl _ _, .refl _ _, .dropped hlive []⟩
    unfold releaseStorage
    rw [if_neg (fun hin => by obtain ⟨_, _, hstorage⟩ := hinline.mp hin; cases hstorage)]
    exact Action.run_zoom (Ledger.deallocate_run hlive)
  | @split _ _ p q capacity capacity' _ _ hbig hp hq =>
    have hlive := Ledger.Live.of_buffers hp
    have hlive' := Ledger.Live.of_buffers hq
    refine ⟨{ m with shapes := m.shapes.drop p, strides := m.strides.drop q }, ?_,
      .dropped hlive [], .dropped hlive' [], .refl _ _⟩
    have hshapes : (Memory.onShapes (Ledger.deallocate p capacity)).run m =
        (.ok (), { m with shapes := m.shapes.drop p }) :=
      Action.run_zoom (Ledger.deallocate_run hlive)
    have hstrides : (Memory.onStrides (Ledger.deallocate q capacity')).run
        { m with shapes := m.shapes.drop p } =
        (.ok (), { m with shapes := m.shapes.drop p, strides := m.strides.drop q }) :=
      Action.run_zoom (Ledger.deallocate_run hlive')
    unfold releaseStorage
    rw [if_neg (fun hin => by obtain ⟨_, _, hstorage⟩ := hinline.mp hin; cases hstorage)]
    exact (Action.run_bind_ok hshapes).trans hstrides

end ShapeStridesStorage

end InfiniRT.Metadata
