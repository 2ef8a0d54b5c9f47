import InfiniRT.Metadata.Granting
import InfiniRT.Metadata.MetadataModel

/-!
# What every call does

`Performs` is the outcome of a call: it returns and the world is what the model says, or there is no
memory and nothing changed, or a constructor aborts because its lists do not fit a storage.  A
constructor finds no memory only if an allocator refuses it.  The constructors differ in how they
build the lists, which `Builds` has for each of them; the rest of the argument is
`construct_performs`.  Proved:

* **`construct_performs`** — every constructor that builds the lists it is given;
* **`perform_run`** — every call that a program may make;
* **`sound_of_run`** — in a whole run the world goes where the model goes.
-/

namespace InfiniRT.Metadata

open InfiniRT.Library
open InfiniRT.Library.Ledger (Transfer)
open SmallVector (Holds)
open ShapeStridesStorage (Keeps Built Builds Failed Fits Left Refers length_defaultStrides)

variable {T Size Stride : Type} {c : StorageConfig}

namespace MetadataWorld

variable {w w' : MetadataWorld Size Stride c} {lists : MetadataLists Size Stride}
  {o other : ObjectId} {st : ShapeStridesStorage Size Stride c} {ls : List Size} {lt : List Stride}
  {post : MetadataReply → MetadataLists Size Stride} {given : Option (List Size × List Stride)}

/-- **The outcomes of a call** that may construct a storage from the lists it is given. -/
def Performs (x : MetadataAction Size Stride c MetadataReply) (w : MetadataWorld Size Stride c)
    (post : MetadataReply → MetadataLists Size Stride)
    (given : Option (List Size × List Stride)) : Prop :=
  (∃ reply w', x.run w = (.ok reply, w') ∧ Sound w' (post reply)) ∨
  (∃ w', x.run w = (.error .badAlloc, w') ∧ Unchanged w w' ∧
    ∀ l, given = some l → l.1.length ≤ c.shapeMaxSize → l.2.length ≤ c.stridesMaxSize →
      ¬w.memory.Granting) ∨
  ∃ w' l, x.run w = (.error .abort, w') ∧ given = some l ∧ ¬Fits c l.1.length l.2.length

theorem Performs.of_ok {x : MetadataAction Size Stride c MetadataReply} (reply : MetadataReply)
    (w' : MetadataWorld Size Stride c) (hrun : x.run w = (.ok reply, w'))
    (h : Sound w' (post reply)) :
    Performs x w post given := .inl ⟨reply, w', hrun, h⟩

/-- A program that reads something first goes on with it. -/
theorem Performs.of_bind {α : Type} {x : MetadataAction Size Stride c α} {a : α}
    {f : α → MetadataAction Size Stride c MetadataReply} (hrun : x.run w = (.ok a, w))
    (h : Performs (f a) w post given) : Performs (x >>= f) w post given := by
  rw [Performs, Action.run_bind_ok hrun]
  exact h

theorem run_getShape {a : ObjectId} {v : Shape Size c} (hv : w.shapes.vectors.lookup a = some v) :
    (callShapes (VectorWorld.getVector a)).run w = (.ok v, w) :=
  Action.run_zoom (VectorWorld.run_getVector hv)

theorem run_getStrides {a : ObjectId} {u : Strides Stride c}
    (hu : w.strides.vectors.lookup a = some u) :
    (callStrides (VectorWorld.getVector a)).run w = (.ok u, w) :=
  Action.run_zoom (VectorWorld.run_getVector hu)

theorem run_getStorage (hst : w.storages.lookup o = some st) :
    (getStorage o).run w = (.ok st, w) := by
  unfold getStorage
  rw [Action.run_bind_ok (Action.run_get w), hst]
  rfl

theorem lookup_of_not_alive (h : ¬w.Alive o) : w.storages.lookup o = none := by
  simpa [Alive] using h

/-! ### Calls on vectors -/

theorem onShapes_performs [Inhabited Size] [Inhabited Stride] [One Stride]
    [HMul Stride Size Stride] {op : VectorOp Size} (h : Sound w lists) (hop : w.shapes.Enabled op) :
    Performs (perform (.onShapes op)) w (lists.apply (.onShapes op)) none := by
  rcases VectorWorld.perform_run h.shapes hop with
    ⟨reply, shapes, hrun, hadv⟩ | ⟨shapes, hrun, hsame⟩
  · exact .of_ok _ _ (Action.run_bind_ok (Action.run_zoom hrun)) (h.setShapes hadv)
  · refine .inr (.inl ⟨{ w with shapes }, Action.run_bind_error (Action.run_zoom hrun),
      ⟨hsame, ?_, rfl, rfl⟩, nofun⟩)
    exact ⟨fun _ => rfl, rfl, rfl, rfl⟩

theorem onStrides_performs [Inhabited Size] [Inhabited Stride] [One Stride]
    [HMul Stride Size Stride] {op : VectorOp Stride} (h : Sound w lists)
    (hop : w.strides.Enabled op) :
    Performs (perform (.onStrides op)) w (lists.apply (.onStrides op)) none := by
  rcases VectorWorld.perform_run h.strides hop with
    ⟨reply, strides, hrun, hadv⟩ | ⟨strides, hrun, hsame⟩
  · exact .of_ok _ _ (Action.run_bind_ok (Action.run_zoom hrun)) (h.setStrides hadv)
  · refine .inr (.inl ⟨{ w with strides }, Action.run_bind_error (Action.run_zoom hrun),
      ⟨?_, hsame, rfl, rfl⟩, nofun⟩)
    exact ⟨fun _ => rfl, rfl, rfl, rfl⟩

/-! ### Constructors -/

theorem not_handed {cv : Config} {w : VectorWorld T cv} :
    ∀ p ∈ (none : Handed T cv), w.vectors.lookup p.1 = some p.2 :=
  fun p hp => absurd hp (Option.not_mem_none p)

theorem handed_some {cv : Config} {w : VectorWorld T cv} {o : ObjectId} {v : SmallVector T cv}
    (hv : w.vectors.lookup o = some v) :
    ∀ p ∈ (some (o, v) : Handed T cv), w.vectors.lookup p.1 = some p.2 := by
  rintro p hp
  obtain rfl := Option.mem_some_iff.mp hp
  exact hv

/-- A vector that a failed constructor was handed is as it was. -/
theorem leave_unchanged {cv : Config} {w : VectorWorld T cv} {x : Handed T cv} {L : ArrayHeap T}
    {v : SmallVector T cv} (hx : ∀ p ∈ x, w.vectors.lookup p.1 = some p.2) (hv : v = x.vector)
    (hL : L.buffers = w.heap.buffers) : VectorWorld.Unchanged w (w.leave x L v) := by
  rcases x with _ | ⟨o, u⟩
  · exact ⟨fun _ => rfl, rfl, rfl, hL⟩
  · refine ⟨fun o' => ?_, rfl, rfl, hL⟩
    by_cases ho : o' = o
    · subst ho hv
      exact (AList.lookup_insert _).trans (hx _ rfl).symm
    · exact AList.lookup_insert_ne ho

/-- **Every constructor** that builds the lists it is given. -/
theorem construct_performs (h : Sound w lists) (hfresh : ¬w.Alive o) {shape : Handed Size c.shape}
    {strides : Handed Stride c.strides}
    (hshape : ∀ p ∈ shape, w.shapes.vectors.lookup p.1 = some p.2)
    (hstrides : ∀ p ∈ strides, w.strides.vectors.lookup p.1 = some p.2)
    {init : StorageAction Size Stride c Unit}
    (hinit : Builds init ⟨w.memory, {}, shape.vector, strides.vector⟩ ls lt)
    (hgranted : w.memory.Granting → ls.length ≤ c.shapeMaxSize → lt.length ≤ c.stridesMaxSize →
      ShapeStridesStorage.Granted init ⟨w.memory, {}, shape.vector, strides.vector⟩)
    (hgiven : given = some (ls, lt))
    (hpost : ∀ split, post (.storage split) =
      lists.build o given (shape.map Prod.fst) (strides.map Prod.fst) split) :
    Performs (construct o shape strides init) w post given := by
  rcases hinit with ⟨s, hrun, hbuilt⟩ | ⟨s, hrun, hfailed⟩ | ⟨s, hrun, hfits⟩
  · refine .of_ok (.storage s.this.isSplit) _ ?_
      (hpost s.this.isSplit ▸ hgiven ▸ h.build (lookup_of_not_alive hfresh) hshape hstrides hbuilt)
    unfold Action.run construct
    rw [hrun]
  · refine .inr (.inl ⟨w.leave shape strides s, ?_, ⟨leave_unchanged hshape hfailed.shape_eq
      hfailed.shapes, leave_unchanged hstrides hfailed.strides_eq hfailed.strides, hfailed.combined,
      rfl⟩, fun l hl hls hlt hgranting => ?_⟩)
    · unfold Action.run construct
      rw [hrun]
    · obtain rfl := Option.some.inj (hl.symm.trans hgiven)
      exact (hgranted hgranting hls hlt).ne_error hrun
  · refine .inr (.inr ⟨w.leave shape strides s, (ls, lt), ?_, hgiven, hfits⟩)
    unfold Action.run construct
    rw [hrun]

/-! ### References -/

theorem resolveShapes_refers (h : Sound w lists) {range : List (MetadataRef Size)}
    (hrange : ∀ r ∈ range, w.ValidShape r) :
    ∃ ls, range.mapM lists.shapeValue = some ls ∧
      Refers w.memory.shapes (range.map w.resolveShape) ls := by
  refine VectorWorld.reads_of_forall fun r hr => ?_
  have hvalid := hrange r hr
  cases r with
  | vector r => exact VectorWorld.resolve_reads h.shapes hvalid
  | stored o i =>
    obtain ⟨st, hst, hi⟩ := hvalid
    obtain ⟨l, hl, hkeeps, -⟩ := h.of_lookup hst
    rw [hkeeps.shapeSize_eq] at hi
    refine ⟨l.1[i], by simp [MetadataLists.shapeValue, hl, hi], ?_⟩
    simpa only [resolveShape, hst] using hkeeps.shapeCell_reads hi

theorem resolveStrides_refers (h : Sound w lists) {range : List (MetadataRef Stride)}
    (hrange : ∀ r ∈ range, w.ValidStride r) :
    ∃ lt, range.mapM lists.strideValue = some lt ∧
      Refers w.memory.strides (range.map w.resolveStride) lt := by
  refine VectorWorld.reads_of_forall fun r hr => ?_
  have hvalid := hrange r hr
  cases r with
  | vector r => exact VectorWorld.resolve_reads h.strides hvalid
  | stored o i =>
    obtain ⟨st, hst, hi⟩ := hvalid
    obtain ⟨l, hl, hkeeps, -⟩ := h.of_lookup hst
    rw [hkeeps.stridesSize_eq] at hi
    refine ⟨l.2[i], by simp [MetadataLists.strideValue, hl, hi], ?_⟩
    simpa only [resolveStride, hst] using hkeeps.stridesCell_reads hi

theorem Refers.length_le {range : List (MetadataRef T)} {resolve : MetadataRef T → Ref T}
    {L : ArrayHeap T} {l : List T} {n : ℕ} (h : Refers L (range.map resolve) l)
    (hn : range.length ≤ n) : l.length ≤ n := by
  rwa [← h.length_eq, List.length_map]

/-! ### Moves and destruction -/

section Moves

variable [Inhabited Size] [Inhabited Stride] [One Stride] [HMul Stride Size Stride]

/-- **The move constructor.** -/
theorem moveConstruct_performs (h : Sound w lists) (hop : w.Enabled (.moveConstruct o other)) :
    Performs (perform (.moveConstruct o other)) w (lists.apply (.moveConstruct o other)) given := by
  have hfresh := lookup_of_not_alive hop.1
  obtain ⟨st, hst⟩ := Option.isSome_iff_exists.mp hop.2
  obtain ⟨l, hl, hkeeps, hnarrow⟩ := h.of_lookup hst
  have hne : o ≠ other := by
    rintro rfl
    rw [hfresh] at hst
    cases hst
  obtain ⟨new, left, hrun, hmoved⟩ := ShapeStridesStorage.moveConstructFrom_run
    (c := c) (s := ⟨w.memory, {}, {}, {}⟩) rfl hkeeps hnarrow
  obtain ⟨hshapes, hstrides, hcombined⟩ := hmoved.owned
  obtain ⟨hshapesLeft, hstridesLeft, hcombinedLeft⟩ := hmoved.source_owned
  refine .of_ok .done { w with storages := (w.storages.insert o new).insert other left } ?_
    ⟨?_, ?_, ?_, ?_⟩
  · refine (Action.run_bind_ok (run_getStorage hst)).trans
      ((Action.run_bind_ok (Action.run_get w)).trans ?_)
    rw [hrun]
    rfl
  · exact h.shapes.of_perm (ownedBy_perm_of_moved _ hne hfresh hst hshapes hshapesLeft)
  · exact h.strides.of_perm (ownedBy_perm_of_moved _ hne hfresh hst hstrides hstridesLeft)
  · exact h.combined.perm (ownedBy_perm_of_moved _ hne hfresh hst hcombined hcombinedLeft)
  · intro o'
    show Option.Rel (Stores w.memory) (((w.storages.insert o new).insert other left).lookup o')
      (Function.update (Function.update lists.storages o (lists.storages other)) other
        (some ([], [])) o')
    by_cases hother : o' = other
    · subst hother
      rw [AList.lookup_insert, Function.update_self]
      exact .some ⟨hmoved.source, by simp⟩
    · rw [AList.lookup_insert_ne hother, Function.update_of_ne hother]
      by_cases ho : o' = o
      · subst ho
        rw [AList.lookup_insert, Function.update_self, hl]
        exact .some ⟨hmoved.keeps, hnarrow⟩
      · rw [AList.lookup_insert_ne ho, Function.update_of_ne ho]
        exact h.stores o'

/-- **The destructor.** -/
theorem destroy_performs (h : Sound w lists) (hop : w.Enabled (.destroy o)) :
    Performs (perform (.destroy o)) w (lists.apply (.destroy o)) given := by
  obtain ⟨st, hst⟩ := Option.isSome_iff_exists.mp hop
  obtain ⟨l, hl, hkeeps, -⟩ := h.of_lookup hst
  obtain ⟨m, hrun, hshapes, hstrides, hcombined⟩ := ShapeStridesStorage.releaseStorage_run hkeeps
  obtain ⟨hshapes', hshapesFrame⟩ :=
    h.shapes.shift (ownedBy_perm_of_lookup _ hst) hshapes (.refl _)
  obtain ⟨hstrides', hstridesFrame⟩ :=
    h.strides.shift (ownedBy_perm_of_lookup _ hst) hstrides (.refl _)
  have hcombined' := h.combined.perm (ownedBy_perm_of_lookup _ hst)
  refine .of_ok .done { w.setMemory m with storages := w.storages.erase o } ?_
    ⟨hshapes', hstrides', hcombined'.transfer hcombined, fun o' => ?_⟩
  · refine (Action.run_bind_ok (run_getStorage hst)).trans ?_
    exact Action.run_bind_ok (Action.run_zoom hrun)
  · show Option.Rel (Stores m) ((w.storages.erase o).lookup o')
      (Function.update lists.storages o none o')
    by_cases ho : o' = o
    · subst ho
      rw [AList.lookup_erase, Function.update_self]
      exact .none
    · rw [AList.lookup_erase_ne ho, Function.update_of_ne ho]
      exact h.stores_congr (AList.lookup_erase_ne ho).symm hshapesFrame hstridesFrame fun e he =>
        hcombined'.frame hcombined he

end Moves

/-! ### Each constructor -/

theorem empty_builds (m : Memory Size Stride) :
    Builds (pure () : StorageAction Size Stride c Unit) ⟨m, {}, {}, {}⟩ [] [] := by
  refine .inl ⟨_, rfl, ShapeStridesStorage.keeps_empty m, by simp, .refl _ _, .refl _ _, .refl _ _,
    ?_, ?_⟩
  · exact ⟨rfl, fun _ _ => rfl⟩
  · exact ⟨rfl, fun _ _ => rfl⟩

section Constructors

variable [Inhabited Size] [Inhabited Stride] [One Stride] [HMul Stride Size Stride]

/-- The constructors without strides are the same up to how the shape is passed. -/
theorem constructArgument_performs (h : Sound w lists) (hfresh : ¬w.Alive o) {shape : ShapeRef Size}
    {arg : ShapeArgument Size c} {handed : Handed Size c.shape}
    (hrun : (shapeArgument shape).run w = (.ok (arg, handed), w))
    (hhanded : ∀ p ∈ handed, w.shapes.vectors.lookup p.1 = some p.2)
    (hname : handed.map Prod.fst = (.constructDefault o shape : MetadataOp Size Stride).handed.1)
    (hstart : arg.start w.memory = (⟨w.memory, {}, handed.vector, {}⟩ : StorageState Size Stride c))
    (hls : lists.shapeOf shape = some ls) (hlists : arg.Lists w.memory ls)
    (hmax : ∀ range, arg = .range range → range.category = .input → ls.length ≤ c.shapeMaxSize) :
    Performs (perform (.constructDefault o shape)) w (lists.apply (.constructDefault o shape))
      (lists.given (.constructDefault o shape)) := by
  have hbuilds := ShapeArgument.constructor_builds (1 : Stride) (· * ·) hlists hmax
  rw [hstart] at hbuilds
  refine .of_bind hrun (construct_performs h hfresh hhanded not_handed hbuilds
    (fun hm hls' hlt => ?_) (by rw [MetadataLists.given, hls, Option.map_some]) fun split => ?_)
  · have hgranted := ShapeArgument.constructor_granted (1 : Stride) (· * ·) hm hlists hls'
      (length_defaultStrides (1 : Stride) (· * ·) ls ▸ hlt)
    rwa [hstart] at hgranted
  · rw [hname]
    cases shape <;> rfl

theorem constructDefault_performs (h : Sound w lists) {shape : ShapeRef Size}
    (hop : w.Enabled (.constructDefault o shape)) :
    Performs (perform (.constructDefault o shape)) w (lists.apply (.constructDefault o shape))
      (lists.given (.constructDefault o shape)) := by
  cases shape with
  | constShape a =>
    obtain ⟨v, hv⟩ := Option.isSome_iff_exists.mp hop.2
    obtain ⟨ls, hls, hholds⟩ := h.shapes.of_lookup hv
    have hrun : (shapeArgument (.constShape a)).run w = (.ok (.constShape v, none), w) :=
      Action.run_bind_ok (run_getShape hv)
    exact constructArgument_performs h hop.1 hrun not_handed rfl rfl hls hholds nofun
  | movedShape a =>
    obtain ⟨v, hv⟩ := Option.isSome_iff_exists.mp hop.2
    obtain ⟨ls, hls, hholds⟩ := h.shapes.of_lookup hv
    have hrun : (shapeArgument (.movedShape a)).run w = (.ok (.movedShape v, some (a, v)), w) :=
      Action.run_bind_ok (run_getShape hv)
    exact constructArgument_performs h hop.1 hrun (handed_some hv) rfl rfl hls hholds nofun
  | range range =>
    obtain ⟨ls, hls, hrefers⟩ := resolveShapes_refers h hop.2.1
    have hrun : (shapeArgument (.range range)).run w =
        (.ok (.range ⟨range.category, range.values.map w.resolveShape⟩, none), w) :=
      Action.run_bind_ok (Action.run_get w)
    refine constructArgument_performs h hop.1 hrun not_handed rfl rfl hls hrefers ?_
    intro _ heq hinput
    cases heq
    exact Refers.length_le hrefers (hop.2.2 hinput)

/-- The constructors from two vectors are the same up to who is handed over. -/
theorem constructVectors_performs (h : Sound w lists) {a b : ObjectId} {op : MetadataOp Size Stride}
    (hop : w.shapes.Alive a ∧ w.strides.Alive b)
    (hgiven : lists.given op =
      (lists.shapes a).bind fun ls => (lists.strides b).map fun lt => (ls, lt))
    {build : Shape Size c → Strides Stride c → MetadataAction Size Stride c MetadataReply}
    (hbuild : ∀ v u ls lt, w.shapes.vectors.lookup a = some v →
      w.strides.vectors.lookup b = some u →
      Holds w.memory.shapes v ls → Holds w.memory.strides u lt → lists.given op = some (ls, lt) →
      Performs (build v u) w (lists.apply op) (lists.given op)) :
    Performs (do
      let v ← callShapes (VectorWorld.getVector a)
      let u ← callStrides (VectorWorld.getVector b)
      build v u) w (lists.apply op) (lists.given op) := by
  obtain ⟨v, hv⟩ := Option.isSome_iff_exists.mp hop.1
  obtain ⟨u, hu⟩ := Option.isSome_iff_exists.mp hop.2
  obtain ⟨ls, hls, hholds⟩ := h.shapes.of_lookup hv
  obtain ⟨lt, hlt, hholds'⟩ := h.strides.of_lookup hu
  refine .of_bind (run_getShape hv) (.of_bind (run_getStrides hu) ?_)
  refine hbuild v u ls lt hv hu hholds hholds' ?_
  rw [hgiven, hls, hlt]
  rfl

/-- **Every call that a program may make** does what the model says, fails for want of memory
without a trace, or aborts over lists that do not fit. -/
theorem perform_run {op : MetadataOp Size Stride} (h : Sound w lists) (hop : w.Enabled op) :
    Performs (perform op) w (lists.apply op) (lists.given op) := by
  cases op with
  | onShapes op => exact onShapes_performs h hop
  | onStrides op => exact onStrides_performs h hop
  | construct o =>
    exact construct_performs h hop not_handed not_handed (empty_builds w.memory)
      (fun hm _ _ => .pure hm.start trivial) rfl fun _ => rfl
  | constructConst o a b =>
    refine constructVectors_performs h hop.2 rfl fun v u ls lt hv hu hholds hholds' hgiven => ?_
    exact construct_performs h hop.1 not_handed not_handed
      (ShapeStridesStorage.initializeForwardRanges_builds rfl hholds.cells_reads
        hholds'.cells_reads)
      (fun hm _ _ => ShapeStridesStorage.initializeForwardRanges_granted hm.start _ _)
      hgiven fun _ => rfl
  | constructOwned o a b =>
    refine constructVectors_performs h hop.2 rfl fun v u ls lt hv hu hholds hholds' hgiven => ?_
    exact construct_performs h hop.1 (handed_some hv) (handed_some hu)
      (ShapeStridesStorage.initializeOwned_builds rfl hholds hholds')
      (fun hm _ _ => ShapeStridesStorage.initializeOwned_granted
        ⟨hm, hholds.capacity_le, hholds'.capacity_le⟩)
      hgiven fun _ => rfl
  | constructMixedShape o a b =>
    refine constructVectors_performs h hop.2 rfl fun v u ls lt hv hu hholds hholds' hgiven => ?_
    exact construct_performs h hop.1 (handed_some hv) not_handed
      (ShapeStridesStorage.initializeMixedShape_builds rfl rfl hholds hholds')
      (fun hm _ _ => ShapeStridesStorage.initializeMixedShape_granted (s := ⟨w.memory, {}, v, {}⟩)
        ⟨hm, hholds.capacity_le, c.inlineCapacity_le_strides⟩ hholds')
      hgiven fun _ => rfl
  | constructMixedStrides o a b =>
    refine constructVectors_performs h hop.2 rfl fun v u ls lt hv hu hholds hholds' hgiven => ?_
    exact construct_performs h hop.1 not_handed (handed_some hu)
      (ShapeStridesStorage.initializeMixedStrides_builds rfl rfl hholds hholds')
      (fun hm _ _ => ShapeStridesStorage.initializeMixedStrides_granted (s := ⟨w.memory, {}, {}, u⟩)
        ⟨hm, c.inlineCapacity_le_shape, hholds'.capacity_le⟩ hholds)
      hgiven fun _ => rfl
  | constructRanges o shape strides =>
    obtain ⟨hfresh, ⟨hshape, hshapeMax⟩, hstrides, hstridesMax⟩ := hop
    obtain ⟨ls, hls, hrefers⟩ := resolveShapes_refers h hshape
    obtain ⟨lt, hlt, hrefers'⟩ := resolveStrides_refers h hstrides
    refine .of_bind (Action.run_get w) (construct_performs h hfresh not_handed not_handed
      (ShapeStridesStorage.initializeRanges_builds rfl ⟨rfl, rfl⟩ hrefers hrefers'
        (fun hinput => Refers.length_le hrefers (hshapeMax hinput))
        fun hinput => Refers.length_le hrefers' (hstridesMax hinput))
      (fun hm => ShapeStridesStorage.initializeRanges_granted hm.start hrefers hrefers')
      ?_ fun _ => rfl)
    simp only [MetadataLists.given, hls, hlt, Option.bind_some, Option.map_some]
  | constructDefault o shape => exact constructDefault_performs h hop
  | copyConstruct o other =>
    obtain ⟨st, hst⟩ := Option.isSome_iff_exists.mp hop.2
    obtain ⟨l, hl, hkeeps, -⟩ := h.of_lookup hst
    exact .of_bind (run_getStorage hst) (construct_performs h hop.1 not_handed not_handed
      (ShapeStridesStorage.copyConstructFrom_builds rfl hkeeps)
      (fun hm _ _ => .get_bind (ShapeStridesStorage.initializeForwardRanges_granted hm.start _ _))
      hl fun _ => rfl)
  | moveConstruct o other => exact moveConstruct_performs h hop
  | destroy o => exact destroy_performs h hop

end Constructors

/-! ### Runs -/

/-- A call that failed leaves the world where it was. -/
theorem Sound.unchanged (h : Sound w lists) (hsame : Unchanged w w') : Sound w' lists := by
  have hshapes : w'.ownedShapes = w.ownedShapes := by rw [ownedShapes, hsame.storages]; rfl
  have hstrides : w'.ownedStrides = w.ownedStrides := by rw [ownedStrides, hsame.storages]; rfl
  have hcombined : w'.ownedCombined = w.ownedCombined := by rw [ownedCombined, hsame.storages]; rfl
  refine ⟨hshapes ▸ (h.shapes.unchanged hsame.shapes).sound,
    hstrides ▸ (h.strides.unchanged hsame.strides).sound, fun e => ?_, fun o => ?_⟩
  · rw [hcombined, Ledger.entry_eq_of_buffers (congrFun hsame.combined e.1)]
    exact h.combined e
  · rw [hsame.storages]
    exact h.stores_congr rfl (fun e _ => congrFun hsame.shapes.buffers e.1)
      (fun e _ => congrFun hsame.strides.buffers e.1) fun e _ => congrFun hsame.combined e.1

section Runs

variable [Inhabited Size] [Inhabited Stride] [One Stride] [HMul Stride Size Stride]

/-- **One step** of a program goes where the model goes. -/
theorem Sound.step {call : Call Size Stride} (h : Sound w lists) (hstep : Step w call w') :
    Sound w' (lists.after call) := by
  obtain ⟨hop, hrun, habort⟩ := hstep
  rcases perform_run h hop with ⟨reply, w₁, hok, hsound⟩ | ⟨w₁, herr, hsame, -⟩ | ⟨w₁, l, herr, -⟩
  · obtain ⟨hresult, rfl⟩ := Prod.mk.inj (hrun.symm.trans hok)
    simpa only [MetadataLists.after, hresult] using hsound
  · obtain ⟨hresult, rfl⟩ := Prod.mk.inj (hrun.symm.trans herr)
    simpa only [MetadataLists.after, hresult] using h.unchanged hsame
  · exact absurd (Prod.mk.inj (hrun.symm.trans herr)).1 habort

/-- **A whole run**, from no objects. -/
theorem sound_of_run {shapes strides combined : ℕ → Option Address}
    {trace : List (Call Size Stride)}
    (hrun : Run Step (initial shapes strides combined : MetadataWorld Size Stride c) trace w) :
    Sound w (MetadataLists.run trace) := by
  refine hrun.history (fun trace w => Sound w (MetadataLists.run trace)) ?_
    ⟨⟨fun _ => .none, fun _ => rfl⟩,
    ⟨fun _ => .none, fun _ => rfl⟩, fun _ => rfl, fun _ => .none⟩
  intro trace w call w' h hstep
  have hsound := h.step hstep
  rwa [MetadataLists.run, List.foldl_append]

end Runs

end MetadataWorld

end InfiniRT.Metadata
