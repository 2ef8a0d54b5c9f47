import InfiniRT.Metadata.MetadataWorld
import InfiniRT.Metadata.VectorWorldSteps

/-!
# Storages as pairs of lists

`MetadataLists` is what a program over vectors and storages is about: a vector is a list, a storage
is two lists.  `Sound` ties a `MetadataWorld` to it: every storage keeps its lists, and in each of
the three heaps every live buffer has one owner.  To the vectors, the storages are the outside.

A constructor makes a storage the owner of new buffers, or of buffers that vectors had;
`Sound.build` is the one place where this is looked at.  Proved:

* **`Sound.build`** — a constructor made a storage the owner of new buffers, or of those of vectors;
* **`Sound.leave`** — the vectors that a constructor took from are back in their table.
-/

namespace InfiniRT.Metadata

open InfiniRT.Library
open InfiniRT.Library.Ledger (Transfer)
open SmallVector (Holds)
open ShapeStridesStorage (Keeps Built Builds Failed Fits Left)

variable {T Size Stride : Type} {c : StorageConfig}

/-! ### The list model -/

/-- A vector that was handed over is empty if its buffer was taken. -/
def Lists.handOver (lists : Lists T) (o : Option ObjectId) (split : Bool) : Lists T :=
  match o, split with
  | some o, true => Function.update lists o (some [])
  | _, _ => lists

/-- The lists that each live object is. -/
structure MetadataLists (Size Stride : Type) where
  shapes : Lists Size
  strides : Lists Stride
  storages : ObjectId → Option (List Size × List Stride)

/-- Whether a new storage took the buffers of the vectors it was handed. -/
def MetadataReply.split : MetadataReply → Bool
  | .storage split => split
  | _ => false

/-- The vectors that a constructor is handed. -/
def MetadataOp.handed : MetadataOp Size Stride → Option ObjectId × Option ObjectId
  | .constructOwned _ shape strides => (some shape, some strides)
  | .constructMixedShape _ shape _ => (some shape, none)
  | .constructMixedStrides _ _ strides => (none, some strides)
  | .constructDefault _ (.movedShape shape) => (some shape, none)
  | _ => (none, none)

namespace MetadataLists

variable (lists : MetadataLists Size Stride)

/-- The value a shape reference refers to. -/
def shapeValue : MetadataRef Size → Option Size
  | .vector r => lists.shapes.value r
  | .stored o i => (lists.storages o).bind fun l => l.1[i]?

/-- The value a stride reference refers to. -/
def strideValue : MetadataRef Stride → Option Stride
  | .vector r => lists.strides.value r
  | .stored o i => (lists.storages o).bind fun l => l.2[i]?

/-- The shape that a constructor without strides is given. -/
def shapeOf : ShapeRef Size → Option (List Size)
  | .constShape a | .movedShape a => lists.shapes a
  | .range range => range.values.mapM lists.shapeValue

/-- The lists that a constructor is given. -/
def given [One Stride] [HMul Stride Size Stride] :
    MetadataOp Size Stride → Option (List Size × List Stride)
  | .construct _ => some ([], [])
  | .constructConst _ shape strides | .constructOwned _ shape strides
  | .constructMixedShape _ shape strides | .constructMixedStrides _ shape strides =>
    (lists.shapes shape).bind fun ls => (lists.strides strides).map fun lt => (ls, lt)
  | .constructRanges _ shape strides =>
    (shape.values.mapM lists.shapeValue).bind fun ls =>
      (strides.values.mapM lists.strideValue).map fun lt => (ls, lt)
  | .constructDefault _ shape =>
    (lists.shapeOf shape).map fun ls => (ls, defaultStrides 1 (· * ·) ls)
  | .copyConstruct _ other | .moveConstruct _ other => lists.storages other
  | .onShapes _ | .onStrides _ | .destroy _ => none

/-- A storage was constructed. -/
def build (o : ObjectId) (l : Option (List Size × List Stride)) (shape strides : Option ObjectId)
    (split : Bool) : MetadataLists Size Stride where
  shapes := lists.shapes.handOver shape split
  strides := lists.strides.handOver strides split
  storages := Function.update lists.storages o l

/-- **The meaning of a call.** A new storage has the lists its constructor was given, and one that
was moved from is empty. -/
def apply [Inhabited Size] [Inhabited Stride] [One Stride] [HMul Stride Size Stride]
    (op : MetadataOp Size Stride) (reply : MetadataReply) : MetadataLists Size Stride :=
  match op, reply with
  | .onShapes op, .vector reply => { lists with shapes := lists.shapes.apply op reply }
  | .onStrides op, .vector reply => { lists with strides := lists.strides.apply op reply }
  | .onShapes _, _ | .onStrides _, _ => lists
  | .construct o, _ | .constructConst o _ _, _ | .constructOwned o _ _, _
  | .constructMixedShape o _ _, _ | .constructMixedStrides o _ _, _ | .constructRanges o _ _, _
  | .constructDefault o _, _ | .copyConstruct o _, _ =>
    lists.build o (lists.given op) op.handed.1 op.handed.2 reply.split
  | .moveConstruct o other, _ =>
    { lists with
      storages := Function.update (Function.update lists.storages o (lists.storages other)) other
        (some ([], [])) }
  | .destroy o, _ => { lists with storages := Function.update lists.storages o none }

/-- The lists after a call; one that throws changes nothing. -/
def after [Inhabited Size] [Inhabited Stride] [One Stride] [HMul Stride Size Stride]
    (call : MetadataWorld.Call Size Stride) : MetadataLists Size Stride :=
  match call.result with
  | .ok reply => lists.apply call.op reply
  | .error _ => lists

/-- The lists after a whole run. -/
def run [Inhabited Size] [Inhabited Stride] [One Stride] [HMul Stride Size Stride]
    (trace : List (MetadataWorld.Call Size Stride)) : MetadataLists Size Stride :=
  trace.foldl (fun lists call => lists.after call) ⟨fun _ => none, fun _ => none, fun _ => none⟩

end MetadataLists

/-! ### Vectors and what is outside -/

namespace VectorWorld

variable {cv : Config} {outside outside' before after rest taken : List (Address × ℕ)}
  {w : VectorWorld T cv} {lists : Lists T} {x : Handed T cv} {L : ArrayHeap T}
    {v' : SmallVector T cv}
  {split : Bool}

theorem Sound.of_perm (h : Sound outside w lists) (hperm : outside.Perm outside') :
    Sound outside' w lists :=
  ⟨h.holds, h.owned.perm (hperm.append_left _)⟩

/-- The outside exchanged arrays with the allocator. -/
theorem Sound.shift (h : Sound outside w lists) (hbefore : outside.Perm (before ++ rest))
    (ht : Transfer w.heap before L after) (hafter : outside'.Perm (after ++ rest)) :
    Sound outside' { w with heap := L } lists ∧ ∀ e ∈ rest, L.buffers e.1 = w.heap.buffers e.1 := by
  have hbefore' : (w.owners ++ outside).Perm (before ++ (w.owners ++ rest)) :=
    (hbefore.append_left _).trans (List.perm_append_comm_assoc _ _ _)
  have hafter' : (w.owners ++ outside').Perm (after ++ (w.owners ++ rest)) :=
    (hafter.append_left _).trans (List.perm_append_comm_assoc _ _ _)
  refine ⟨h.rebuild hbefore' ht hafter' fun o => .inr ⟨rfl, rfl, fun v hv e he => ?_⟩, fun e he =>
    (h.owned.perm hbefore').frame ht (List.mem_append_right _ he)⟩
  exact List.mem_append_left _ (List.mem_append_left _ (owned_subset SmallVector.owned hv he))

/-- What the constructor left of a vector is the list, or nothing. -/
theorem holds_of_left {l : List T} {v : SmallVector T cv} {L₀ : ArrayHeap T} (hv : Holds L₀ v l)
    (hleft : Left split L₀ v L v') : Holds L v' (if split then [] else l) := by
  cases split with
  | true =>
    obtain rfl : v' = {} := hleft
    exact SmallVector.holds_empty L
  | false =>
    obtain ⟨rfl, hsame⟩ : v' = v ∧ ∀ e ∈ v.owned, L.buffers e.1 = L₀.buffers e.1 := hleft
    exact hv.congr hsame

/-- **A constructor is done.** Someone outside has what it took. -/
theorem Sound.leave (h : Sound outside w lists) (hx : ∀ p ∈ x, w.vectors.lookup p.1 = some p.2)
    (ht : Transfer w.heap x.vector.owned L (taken ++ v'.owned))
    (hleft : Left split w.heap x.vector L v') :
    Sound (taken ++ outside) (w.leave x L v') (lists.handOver (x.map Prod.fst) split) ∧
      ∀ e ∈ outside, L.buffers e.1 = w.heap.buffers e.1 := by
  rcases x with _ | ⟨o, v⟩
  · -- a local is gone
    obtain rfl : v' = {} := by
      cases split with
      | true => exact hleft
      | false => exact hleft.1
    exact h.shift (.refl _) ht
      (by rw [show ({} : SmallVector T cv).owned = [] from rfl, List.append_nil])
  · have hv : w.vectors.lookup o = some v := hx _ rfl
    obtain ⟨l, hl, hholds⟩ := h.of_lookup hv
    have hbefore : (w.owners ++ outside).Perm
        (v.owned ++ ({ w with vectors := w.vectors.erase o }.owners ++ outside)) := by
      rw [← List.append_assoc]
      exact (owners_perm_of_vector hv).append_right outside
    have hafter : ((w.leave (some (o, v)) L v').owners ++ (taken ++ outside)).Perm
        (taken ++ v'.owned ++ ({ w with vectors := w.vectors.erase o }.owners ++ outside)) := by
      have hinsert := owners_insert w L o v'
      show (VectorWorld.owners { w with heap := L, vectors := w.vectors.insert o v' } ++ _).Perm _
      rw [hinsert, List.append_assoc, List.append_assoc]
      exact ((List.perm_append_comm_assoc _ _ _).append_left _).trans
        (List.perm_append_comm_assoc _ _ _)
    refine ⟨h.rebuild hbefore ht hafter fun o' => ?_, fun e he =>
      (h.owned.perm hbefore).frame ht (List.mem_append_right _ he)⟩
    by_cases ho : o' = o
    · subst ho
      left
      have hnew := holds_of_left hholds hleft
      have hlookup :
          (w.leave (some (o', v)) L v').vectors.lookup o' = some v' := AList.lookup_insert _
      have hlist : lists.handOver (some o') split o' = some (if split then [] else l) := by
        cases split with
        | true => exact Function.update_self ..
        | false => exact hl
      rw [hlookup]
      show Option.Rel _ _ (lists.handOver (some o') split o')
      rw [hlist]
      exact .some hnew
    · refine .inr ⟨AList.lookup_insert_ne ho, ?_, fun u hu e he =>
        List.mem_append_left _ (owned_subset_of_ne ho hu he)⟩
      cases split with
      | true => exact Function.update_of_ne ho _ _
      | false => rfl

end VectorWorld

/-! ### What ties the world to it -/

namespace MetadataWorld

/-- What the storages own of the three heaps. -/
def ownedShapes (w : MetadataWorld Size Stride c) : List (Address × ℕ) :=
  ownedBy ShapeStridesStorage.ownedShapes w.storages

def ownedStrides (w : MetadataWorld Size Stride c) : List (Address × ℕ) :=
  ownedBy ShapeStridesStorage.ownedStrides w.storages

def ownedCombined (w : MetadataWorld Size Stride c) : List (Address × Unit) :=
  ownedBy ShapeStridesStorage.ownedCombined w.storages

/-- A storage keeps two lists that are short enough for their sizes. -/
def Stores (m : Memory Size Stride) (st : ShapeStridesStorage Size Stride c)
    (l : List Size × List Stride) : Prop :=
  Keeps m st l.1 l.2 ∧ l.1.length < 2 ^ 32 ∧ l.2.length < 2 ^ 32

/-- **Every object is what the model says, and every live buffer has one owner.** -/
structure Sound (w : MetadataWorld Size Stride c) (lists : MetadataLists Size Stride) : Prop where
  shapes : VectorWorld.Sound w.ownedShapes w.shapes lists.shapes
  strides : VectorWorld.Sound w.ownedStrides w.strides lists.strides
  combined : w.combined.Owned w.ownedCombined
  stores : ∀ o, Option.Rel (Stores w.memory) (w.storages.lookup o) (lists.storages o)

/-- The call left every object and every buffer as it was. -/
structure Unchanged (w w' : MetadataWorld Size Stride c) : Prop where
  shapes : VectorWorld.Unchanged w.shapes w'.shapes
  strides : VectorWorld.Unchanged w.strides w'.strides
  combined : w'.combined.buffers = w.combined.buffers
  storages : w'.storages = w.storages

variable {w w' : MetadataWorld Size Stride c} {lists : MetadataLists Size Stride} {o : ObjectId}
  {st : ShapeStridesStorage Size Stride c} {ls : List Size} {lt : List Stride}
    {m : Memory Size Stride}

theorem Sound.of_lookup (h : Sound w lists) (hst : w.storages.lookup o = some st) :
    ∃ l, lists.storages o = some l ∧ Stores w.memory st l := by
  have hrel := h.stores o
  rw [hst] at hrel
  generalize lists.storages o = entry at hrel ⊢
  cases hrel with
  | some hstores => exact ⟨_, rfl, hstores⟩

/-- Only the storage's own buffers matter. -/
theorem Stores.congr {l : List Size × List Stride} (h : Stores m st l) {m' : Memory Size Stride}
    (hshapes : ∀ e ∈ st.ownedShapes, m'.shapes.buffers e.1 = m.shapes.buffers e.1)
    (hstrides : ∀ e ∈ st.ownedStrides, m'.strides.buffers e.1 = m.strides.buffers e.1)
    (hcombined : ∀ e ∈ st.ownedCombined, m'.combined.buffers e.1 = m.combined.buffers e.1) :
    Stores m' st l :=
  ⟨h.1.congr hshapes hstrides hcombined, h.2⟩

/-- The storages that a call does not touch keep their lists if it leaves their buffers alone. -/
theorem Sound.stores_congr (h : Sound w lists) {m' : Memory Size Stride}
    {storages : ObjectTable ObjectId (ShapeStridesStorage Size Stride c)}
    (hstorage : w.storages.lookup o = storages.lookup o)
    (hshapes : ∀ e ∈ ownedBy ShapeStridesStorage.ownedShapes storages,
      m'.shapes.buffers e.1 = w.memory.shapes.buffers e.1)
    (hstrides : ∀ e ∈ ownedBy ShapeStridesStorage.ownedStrides storages,
      m'.strides.buffers e.1 = w.memory.strides.buffers e.1)
    (hcombined : ∀ e ∈ ownedBy ShapeStridesStorage.ownedCombined storages,
      m'.combined.buffers e.1 = w.memory.combined.buffers e.1) :
    Option.Rel (Stores m') (w.storages.lookup o) (lists.storages o) :=
  VectorWorld.rel_mono (h.stores o) fun _ hst _ hstores =>
    hstores.congr (fun e he => hshapes e (owned_subset _ (hstorage ▸ hst) he))
      (fun e he => hstrides e (owned_subset _ (hstorage ▸ hst) he))
      fun e he => hcombined e (owned_subset _ (hstorage ▸ hst) he)

/-- A call on a vector changes nothing that a storage owns. -/
theorem Sound.setShapes (h : Sound w lists) {shapes : VectorWorld Size c.shape} {l : Lists Size}
    (hadv : VectorWorld.Advances w.ownedShapes w.shapes shapes l) :
    Sound { w with shapes } { lists with shapes := l } where
  shapes := hadv.sound
  strides := h.strides
  combined := h.combined
  stores _ := h.stores_congr rfl (fun _ he => h.shapes.owned.frame hadv.transfer he)
    (fun _ _ => rfl)
    fun _ _ => rfl

theorem Sound.setStrides (h : Sound w lists) {strides : VectorWorld Stride c.strides}
    {l : Lists Stride} (hadv : VectorWorld.Advances w.ownedStrides w.strides strides l) :
    Sound { w with strides } { lists with strides := l } where
  shapes := h.shapes
  strides := hadv.sound
  combined := h.combined
  stores _ := h.stores_congr rfl (fun _ _ => rfl)
    (fun _ he => h.strides.owned.frame hadv.transfer he)
    fun _ _ => rfl

/-- **A storage was built** by a constructor that may have taken the buffers of vectors. -/
theorem Sound.build (h : Sound w lists) (hfresh : w.storages.lookup o = none)
    {shape : Handed Size c.shape} {strides : Handed Stride c.strides}
    (hshape : ∀ p ∈ shape, w.shapes.vectors.lookup p.1 = some p.2)
    (hstrides : ∀ p ∈ strides, w.strides.vectors.lookup p.1 = some p.2)
    {s : StorageState Size Stride c}
    (hbuilt : Built ⟨w.memory, {}, shape.vector, strides.vector⟩ s ls lt) :
    Sound { w.leave shape strides s with storages := w.storages.insert o s.this }
      (lists.build o (some (ls, lt)) (shape.map Prod.fst)
        (strides.map Prod.fst) s.this.isSplit) := by
  obtain ⟨hshapes, hshapesFrame⟩ := h.shapes.leave hshape hbuilt.shapes hbuilt.shape_left
  obtain ⟨hstrides', hstridesFrame⟩ := h.strides.leave hstrides hbuilt.strides hbuilt.strides_left
  have hcombined : w.combined.Owned ([] ++ w.ownedCombined) := h.combined
  refine ⟨?_, ?_, ?_, fun o' => ?_⟩
  · rw [ownedShapes, ownedBy_insert_of_fresh _ hfresh]
    exact hshapes
  · rw [ownedStrides, ownedBy_insert_of_fresh _ hfresh]
    exact hstrides'
  · rw [ownedCombined, ownedBy_insert_of_fresh _ hfresh]
    exact hcombined.transfer hbuilt.combined
  · have hmemory : (w.leave shape strides s).memory = s.memory := by
      rcases shape with _ | _ <;> rcases strides with _ | _ <;> rfl
    by_cases ho : o' = o
    · subst ho
      have hstores : Stores s.memory s.this (ls, lt) := ⟨hbuilt.keeps, hbuilt.narrow⟩
      rw [AList.lookup_insert]
      show Option.Rel (Stores (w.leave shape strides s).memory) (some s.this)
        (Function.update lists.storages o' (some (ls, lt)) o')
      rw [Function.update_self, hmemory]
      exact .some hstores
    · rw [AList.lookup_insert_ne ho]
      show Option.Rel (Stores (w.leave shape strides s).memory) (w.storages.lookup o')
        (Function.update lists.storages o (some (ls, lt)) o')
      rw [Function.update_of_ne ho, hmemory]
      exact h.stores_congr rfl hshapesFrame hstridesFrame fun e he =>
        hcombined.frame hbuilt.combined he

end MetadataWorld

end InfiniRT.Metadata
