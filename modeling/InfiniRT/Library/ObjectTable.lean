import InfiniRT.Library.Ledger
import Mathlib.Data.List.AList

/-!
# Tables of objects that own buffers

The live objects of a program are an association list from names to objects, and `ownedBy` lists
what they own together.  Taking one object out of the table takes what it owns off the list; what
the others own stays, and this is all an ownership proof needs to know about the table.  Proved:

* **`ownedBy_perm_of_lookup`** — what the table owns is what one object owns and what the others
  own;
* **`ownedBy_perm_of_two`** — the same for two objects;
* **`ownedBy_insert`** — replacing an object replaces what it owns.
-/

namespace InfiniRT.Library

/-- The live objects of one type, by name. -/
abbrev ObjectTable (κ ω : Type) := AList fun _ : κ => ω

variable {κ ω τ : Type} (owned : ω → List (Address × τ)) {objects : ObjectTable κ ω}
  {k k' : κ} {x : ω}

/-- What the objects of a table own together. -/
def ownedBy (owned : ω → List (Address × τ)) (objects : ObjectTable κ ω) : List (Address × τ) :=
  objects.entries.flatMap fun e => owned e.2

variable [DecidableEq κ]

theorem ownedBy_insert (k : κ) (x : ω) :
    ownedBy owned (objects.insert k x) = owned x ++ ownedBy owned (objects.erase k) := by
  rw [ownedBy, AList.entries_insert, List.flatMap_cons]
  rfl

/-- The object by that name owns its part, the others own the rest. -/
theorem ownedBy_perm_of_lookup (h : objects.lookup k = some x) :
    (ownedBy owned objects).Perm (owned x ++ ownedBy owned (objects.erase k)) := by
  have hmem : k ∈ objects.entries.keys := AList.lookup_isSome.mp (by rw [h]; rfl)
  obtain ⟨y, before, after, hnot, hentries, herase⟩ := List.exists_of_kerase hmem
  obtain rfl : y = x := by
    have hy : y ∈ objects.lookup k := AList.mem_lookup_iff.mpr (by simp [hentries])
    exact Option.some.inj (hy.symm.trans h)
  have herased : (objects.erase k).entries = before ++ after := herase
  rw [ownedBy, ownedBy, hentries, herased, List.flatMap_append, List.flatMap_cons,
    List.flatMap_append]
  exact List.perm_append_comm_assoc _ _ _

theorem lookup_of_entries_nil (h : objects.entries = []) (k : κ) : objects.lookup k = none := by
  obtain rfl : objects = ∅ := AList.ext h
  exact AList.lookup_empty k

theorem erase_of_lookup (h : objects.lookup k = none) : objects.erase k = objects :=
  AList.ext (List.kerase_of_notMem_keys (AList.lookup_eq_none.mp h))

theorem ownedBy_insert_of_fresh (h : objects.lookup k = none) (x : ω) :
    ownedBy owned (objects.insert k x) = owned x ++ ownedBy owned objects := by
  rw [ownedBy_insert, erase_of_lookup h]

/-- What an object owns is among what the table owns. -/
theorem owned_subset (h : objects.lookup k = some x) : owned x ⊆ ownedBy owned objects :=
  fun _ he => (ownedBy_perm_of_lookup owned h).mem_iff.mpr (List.mem_append_left _ he)

/-- Tables with the same objects own the same. -/
theorem ownedBy_perm_of_same {objects' : ObjectTable κ ω}
    (h : ∀ k, objects'.lookup k = objects.lookup k) :
    (ownedBy owned objects').Perm (ownedBy owned objects) :=
  (List.lookup_ext objects'.nodupKeys objects.nodupKeys fun k x => by
    have hk : objects'.entries.dlookup k = objects.entries.dlookup k := h k
    rw [hk]).flatMap_right _

theorem erase_insert (k : κ) (x : ω) : (objects.insert k x).erase k = objects.erase k := by
  refine AList.ext ?_
  show List.kerase k (objects.insert k x).entries = List.kerase k objects.entries
  rw [AList.entries_insert]
  exact List.kerase_cons_eq (s := (⟨k, x⟩ : Sigma fun _ : κ => ω)) rfl

/-- Two objects own their parts, the others own the rest. -/
theorem ownedBy_perm_of_two {x' : ω} (hne : k ≠ k') (h : objects.lookup k = some x)
    (h' : objects.lookup k' = some x') :
    (ownedBy owned objects).Perm
      (owned x ++ (owned x' ++ ownedBy owned ((objects.erase k).erase k'))) :=
  (ownedBy_perm_of_lookup owned h).trans
    ((ownedBy_perm_of_lookup owned ((AList.lookup_erase_ne hne.symm).trans h')).append_left _)

theorem ownedBy_insert_two (objects : ObjectTable κ ω) (x x' : ω) (hne : k ≠ k') :
    (ownedBy owned ((objects.insert k x).insert k' x')).Perm
      (owned x ++ (owned x' ++ ownedBy owned ((objects.erase k).erase k'))) := by
  have hx : ((objects.insert k x).insert k' x').lookup k = some x :=
    (AList.lookup_insert_ne hne).trans (AList.lookup_insert _)
  have h := ownedBy_perm_of_two owned hne hx (AList.lookup_insert _)
  rwa [AList.erase_erase, erase_insert, AList.erase_erase, erase_insert] at h

/-- What an object owned belongs to a new one, and it has nothing left. -/
theorem ownedBy_perm_of_moved {y x' : ω} (hne : k ≠ k') (h : objects.lookup k = none)
    (h' : objects.lookup k' = some x) (hy : owned y = owned x) (hx' : owned x' = []) :
    (ownedBy owned objects).Perm (ownedBy owned ((objects.insert k y).insert k' x')) := by
  have hnew := ownedBy_insert_two owned objects y x' hne
  rw [hy, hx', List.nil_append, erase_of_lookup h] at hnew
  exact (ownedBy_perm_of_lookup owned h').trans hnew.symm

/-- Without objects nothing is owned. -/
theorem ownedBy_of_lookup_none (h : ∀ k, objects.lookup k = none) : ownedBy owned objects = [] := by
  have hempty : objects.entries = [] := by
    by_contra hne
    obtain ⟨e, he⟩ := List.exists_mem_of_ne_nil _ hne
    have hmem : e.2 ∈ objects.lookup e.1 := AList.mem_lookup_iff.mpr he
    rw [h e.1] at hmem
    cases hmem
  rw [ownedBy, hempty, List.flatMap_nil]

end InfiniRT.Library
