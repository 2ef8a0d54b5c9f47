import InfiniRT.Metadata.SmallVectorSteps
import InfiniRT.Metadata.VectorWorld

/-!
# Vectors as lists

`Lists` is what a program over vectors is about: each live object is a list, and `apply` gives every
call its `std::vector` meaning.  `Sound` ties a `VectorWorld` to it: each vector holds its list, and
every live array is owned exactly once, by an object, by a caller of `release`, or by someone
outside the world, who is why `outside` is a parameter.

A call exchanges what the objects it touches own for other arrays, so `Sound.exchange` is the one
place where the rest of the world is looked at.  Proved:

* **`Sound.rebuild`** — the rule for every change of owners;
* **`Sound.exchange`** — the rule for every call, with the objects it does not touch as they were.
-/

namespace InfiniRT.Metadata

open InfiniRT.Library
open InfiniRT.Library.Ledger (Transfer)
open SmallVector (Holds)

variable {T : Type} {c : Config}

/-! ### The list model -/

/-- The list that each live object is. -/
abbrev Lists (T : Type) := ObjectId → Option (List T)

namespace Lists

/-- The value a reference refers to. -/
def value (lists : Lists T) : ElementRef T → Option T
  | .value x => some x
  | .element o i => (lists o).bind fun l => l[i]?

/-- The values of a range. -/
def values (lists : Lists T) (range : List (ElementRef T)) : Option (List T) :=
  range.mapM lists.value

/-- **The meaning of a call.** A moved-from object is empty.  `ReleaseHeap` empties the object if it
returns an array, and does nothing otherwise. -/
def apply [Inhabited T] (lists : Lists T) (op : VectorOp T) (reply : Reply) : Lists T :=
  match op with
  | .construct o => Function.update lists o (some [])
  | .constructCount o count => Function.update lists o (some (List.replicate count default))
  | .constructFill o count value =>
    Function.update lists o ((lists.value value).map (List.replicate count))
  | .constructRange o _ range => Function.update lists o (lists.values range)
  | .copyConstruct o other => Function.update lists o (lists other)
  | .moveConstruct o other =>
    Function.update (Function.update lists o (lists other)) other (some [])
  | .copyAssign o other => Function.update lists o (lists other)
  | .moveAssign o other =>
    if o = other then lists
    else Function.update (Function.update lists o (lists other)) other (some [])
  | .clear o => Function.update lists o (some [])
  | .reserve _ _ => lists
  | .resize o count => Function.update lists o ((lists o).map (SmallVector.resized · count))
  | .pushBack o value =>
    Function.update lists o ((lists o).bind fun l => (lists.value value).map fun x => l ++ [x])
  | .setElement o i value =>
    Function.update lists o ((lists o).bind fun l => (lists.value value).map fun x => l.set i x)
  | .assign o _ range => Function.update lists o (lists.values range)
  | .releaseHeap o _ =>
    if reply = .allocation true then lists else Function.update lists o (some [])
  | .destroy o => Function.update lists o none
  | .constructAllocation _ | .moveConstructAllocation _ _ | .moveAssignAllocation _ _
  | .release _ | .destroyAllocation _ => lists

/-- The lists after a call; one that throws changes nothing. -/
def after [Inhabited T] (lists : Lists T) (call : VectorWorld.Call T) : Lists T :=
  match call.result with
  | .ok reply => lists.apply call.op reply
  | .error _ => lists

/-- The lists after a whole run. -/
def run [Inhabited T] (trace : List (VectorWorld.Call T)) : Lists T :=
  trace.foldl Lists.after fun _ => none

end Lists

/-! ### What ties the world to it -/

namespace VectorWorld

/-- The live arrays and who is to give them back, inside the world. -/
def owners (w : VectorWorld T c) : List (Address × ℕ) :=
  ownedBy SmallVector.owned w.vectors ++
    (ownedBy HeapAllocation.owned w.allocations ++ w.released)

/-- **Every vector holds its list, and every live array has one owner.** -/
structure Sound (outside : List (Address × ℕ)) (w : VectorWorld T c) (lists : Lists T) : Prop where
  holds : ∀ o, Option.Rel (Holds w.heap) (w.vectors.lookup o) (lists o)
  owned : w.heap.Owned (w.owners ++ outside)

/-- The world got to these lists, and its owners have what is live. -/
structure Advances (outside : List (Address × ℕ)) (w w' : VectorWorld T c) (lists' : Lists T) :
    Prop where
  sound : Sound outside w' lists'
  transfer : Transfer w.heap w.owners w'.heap w'.owners

/-- The call left every object and every array as it was. -/
structure Unchanged (w w' : VectorWorld T c) : Prop where
  vectors : ∀ o, w'.vectors.lookup o = w.vectors.lookup o
  allocations : w'.allocations = w.allocations
  released : w'.released = w.released
  buffers : w'.heap.buffers = w.heap.buffers

variable {outside outside' before after rest : List (Address × ℕ)} {w w' : VectorWorld T c}
  {lists lists' : Lists T} {o : ObjectId} {v : SmallVector T c} {l : List T} {L : ArrayHeap T}

theorem rel_mono {α β : Type} {R S : α → β → Prop} {a : Option α} {b : Option β}
    (h : Option.Rel R a b) (himp : ∀ x, a = some x → ∀ y, R x y → S x y) : Option.Rel S a b := by
  cases h with
  | none => exact .none
  | some hxy => exact .some (himp _ rfl _ hxy)

theorem Sound.of_lookup (h : Sound outside w lists) (hv : w.vectors.lookup o = some v) :
    ∃ l, lists o = some l ∧ Holds w.heap v l := by
  have hrel := h.holds o
  rw [hv] at hrel
  generalize lists o = entry at hrel ⊢
  cases hrel with
  | some hholds => exact ⟨_, rfl, hholds⟩

/-- **The rule for every change.** Some owners exchange arrays with the allocator and with each
other, the others own the rest.  What is outside the world may change hands as well. -/
theorem Sound.rebuild (h : Sound outside w lists)
    (hbefore : (w.owners ++ outside).Perm (before ++ rest))
    (ht : Transfer w.heap before w'.heap after)
    (hafter : (w'.owners ++ outside').Perm (after ++ rest))
    (hvectors : ∀ o, Option.Rel (Holds w'.heap) (w'.vectors.lookup o) (lists' o) ∨
      (w'.vectors.lookup o = w.vectors.lookup o ∧ lists' o = lists o ∧
        ∀ v, w.vectors.lookup o = some v → v.owned ⊆ rest)) :
    Sound outside' w' lists' := by
  have howned := h.owned.perm hbefore
  refine ⟨fun o => ?_, (howned.transfer ht).perm hafter.symm⟩
  rcases hvectors o with hnew | ⟨hlookup, hlist, hrest⟩
  · exact hnew
  · rw [hlookup, hlist]
    exact rel_mono (h.holds o) fun v hv l hholds => hholds.congr fun e he =>
      howned.frame ht (hrest v hv he)

/-- **The rule for every call.** The objects a call touches exchange arrays with the allocator and
with each other, and the objects it does not touch own the rest. -/
theorem Sound.exchange (h : Sound outside w lists) (hbefore : w.owners.Perm (before ++ rest))
    (ht : Transfer w.heap before w'.heap after) (hafter : w'.owners.Perm (after ++ rest))
    (hvectors : ∀ o, Option.Rel (Holds w'.heap) (w'.vectors.lookup o) (lists' o) ∨
      (w'.vectors.lookup o = w.vectors.lookup o ∧ lists' o = lists o ∧
        ∀ v, w.vectors.lookup o = some v → v.owned ⊆ rest)) :
    Advances outside w w' lists' := by
  have hbefore' : (w.owners ++ outside).Perm (before ++ (rest ++ outside)) := by
    rw [← List.append_assoc]
    exact hbefore.append_right outside
  have hafter' : (w'.owners ++ outside).Perm (after ++ (rest ++ outside)) := by
    rw [← List.append_assoc]
    exact hafter.append_right outside
  refine ⟨h.rebuild hbefore' ht hafter' fun o => ?_, (ht.extend rest).perm hbefore.symm hafter.symm⟩
  exact (hvectors o).imp_right fun ⟨hlookup, hlist, hrest⟩ =>
    ⟨hlookup, hlist, fun v hv e he => List.mem_append_left _ (hrest v hv he)⟩

end VectorWorld

end InfiniRT.Metadata
