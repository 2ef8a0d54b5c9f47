import Mathlib.Algebra.Notation.Defs
import Mathlib.Data.List.Basic
import Mathlib.Data.List.GetD
import Mathlib.Logic.Function.Basic
import Mathlib.Tactic.Common

/-!
# Stores that grow on demand

A `Store` keeps idle cells, interchangeable within a class, and a list of labelled slots that is
searched first fit.  A request takes a cell of its class or the first idle slot that fits, and one
is made when there is none.  The `Reserve` of a run is what it had to make, in order.

Two facts about a script of requests and returns.  Stocked with its reserve in advance, the store
serves the script without growth and ends the same (`run_stock`): first fit over the longer list
makes the very same choices.  And a script that gives everything back only adds its reserve to the
store (`run_of_balanced`).  So a script that ran once runs again without growth (`run_again`).
Proved:

* **`run_stock`** — stocked with its reserve, the store serves a script without growth and ends the
  same;
* **`run_of_balanced`** — a script that gives everything back only adds its reserve;
* **`run_again`** — a script that ran once runs again without growth.
-/

namespace InfiniRT.Library

variable {ι α : Type*}

/-- A labelled place that is taken or idle. -/
structure Slot (α : Type*) where
  label : α
  taken : Bool

/-- The number of idle cells of each class, and the slots in the order they are searched. -/
@[ext] structure Store (ι α : Type*) where
  cells : ι → ℕ
  slots : List (Slot α)

/-- What a request was served with. -/
inductive Handle (ι : Type*)
  | nothing
  | cell (i : ι)
  | slot (j : ℕ)
  deriving DecidableEq

/-- What is asked for: nothing, a cell of a class, or a slot with a label that fits.  A new slot
gets the label `label`. -/
inductive Request (ι α : Type*)
  | nothing
  | cell (i : ι)
  | slot (fits : α → Bool) (label : α) (hfits : fits label = true)

/-- Cells and slots to be made. -/
@[ext] structure Reserve (ι α : Type*) where
  cells : ι → ℕ
  labels : List α

namespace Reserve

instance : Zero (Reserve ι α) := ⟨⟨fun _ => 0, []⟩⟩

instance : Add (Reserve ι α) :=
  ⟨fun r r' => ⟨fun i => r.cells i + r'.cells i, r.labels ++ r'.labels⟩⟩

@[simp] theorem cells_zero (i : ι) : (0 : Reserve ι α).cells i = 0 := rfl

@[simp] theorem labels_zero : (0 : Reserve ι α).labels = [] := rfl

@[simp] theorem cells_add (r r' : Reserve ι α) (i : ι) :
    (r + r').cells i = r.cells i + r'.cells i := rfl

@[simp] theorem labels_add (r r' : Reserve ι α) : (r + r').labels = r.labels ++ r'.labels := rfl

/-- One cell. -/
def cell [DecidableEq ι] (i : ι) : Reserve ι α := ⟨fun j => if j = i then 1 else 0, []⟩

/-- One slot. -/
def slot (label : α) : Reserve ι α := ⟨fun _ => 0, [label]⟩

theorem add_eq_zero {r r' : Reserve ι α} (h : r + r' = 0) : r = 0 ∧ r' = 0 := by
  have hcells : ∀ i, r.cells i + r'.cells i = 0 := fun i => congrFun (congrArg Reserve.cells h) i
  have hlabels : r.labels ++ r'.labels = [] := congrArg Reserve.labels h
  rw [List.append_eq_nil_iff] at hlabels
  refine ⟨Reserve.ext (funext fun i => ?_) hlabels.1, Reserve.ext (funext fun i => ?_) hlabels.2⟩
  · exact (Nat.add_eq_zero_iff.mp (hcells i)).1
  · exact (Nat.add_eq_zero_iff.mp (hcells i)).2

theorem cell_ne_zero [DecidableEq ι] (i : ι) : (cell i : Reserve ι α) ≠ 0 := fun h => by
  simpa [cell] using congrFun (congrArg Reserve.cells h) i

theorem slot_ne_zero (label : α) : (slot label : Reserve ι α) ≠ 0 := fun h => by
  simpa [slot] using congrArg Reserve.labels h

end Reserve

namespace Store

/-! ### Operations -/

/-- The first idle slot with a label that fits. -/
def findSlot (σ : Store ι α) (fits : α → Bool) : Option ℕ :=
  σ.slots.findIdx? fun c => !c.taken && fits c.label

/-- Write the flag of a slot. -/
def setTaken (σ : Store ι α) (j : ℕ) (taken : Bool) : Store ι α :=
  { σ with slots := σ.slots.modify j fun c => { c with taken := taken } }

/-- A new slot, taken, behind the others. -/
def addSlot (σ : Store ι α) (label : α) : Store ι α :=
  { σ with slots := σ.slots ++ [⟨label, true⟩] }

/-- Add idle cells and slots. -/
def stock (σ : Store ι α) (r : Reserve ι α) : Store ι α where
  cells i := σ.cells i + r.cells i
  slots := σ.slots ++ r.labels.map fun label => ⟨label, false⟩

theorem stock_stock (σ : Store ι α) (r r' : Reserve ι α) :
    (σ.stock r).stock r' = σ.stock (r + r') := by
  ext1
  · funext i
    simp only [stock, Reserve.cells_add, Nat.add_assoc]
  · simp only [stock, Reserve.labels_add, List.map_append, List.append_assoc]

theorem stock_zero (σ : Store ι α) : σ.stock 0 = σ := by
  ext1
  · rfl
  · simp [stock]

/-- A slot found is found at the same place in a longer list. -/
theorem findSlot_stock_of_some {σ : Store ι α} {fits : α → Bool} {j : ℕ}
    (h : σ.findSlot fits = some j) (r : Reserve ι α) : (σ.stock r).findSlot fits = some j := by
  rw [findSlot] at h
  rw [findSlot, stock, List.findIdx?_append, h, Option.some_or]

/-- Where no slot fits, the first one of the reserve is found if it does. -/
theorem findSlot_stock_of_none {σ : Store ι α} {fits : α → Bool} {label : α}
    (h : σ.findSlot fits = none) (hfits : fits label = true) (r : Reserve ι α) :
    (σ.stock (.slot label + r)).findSlot fits = some σ.slots.length := by
  rw [findSlot] at h
  rw [findSlot, stock, List.findIdx?_append, h]
  simp [Reserve.slot, List.findIdx?_cons, hfits]

theorem setTaken_stock {σ : Store ι α} {j : ℕ} {taken : Bool} (r : Reserve ι α)
    (hj : j < σ.slots.length ∨ taken = false) :
    (σ.stock r).setTaken j taken = (σ.setTaken j taken).stock r := by
  ext1
  · rfl
  · apply List.ext_getElem?
    intro k
    simp only [setTaken, stock, List.getElem?_modify, List.getElem?_append, List.length_modify,
      List.getElem?_map]
    by_cases hk : k < σ.slots.length
    · simp [hk]
    · simp only [if_neg hk]
      rcases hj with hj | rfl
      · simp [show j ≠ k by omega]
      · cases r.labels[k - σ.slots.length]? <;> simp

theorem modify_append_cons (slots : List (Slot α)) (c : Slot α) (rest : List (Slot α))
    (f : Slot α → Slot α) :
    (slots ++ c :: rest).modify slots.length f = slots ++ f c :: rest := by
  induction slots with
  | nil => rfl
  | cons a slots ih => simp [ih]

variable [DecidableEq ι]

/-- Write the number of idle cells of a class. -/
def setCells (σ : Store ι α) (i : ι) (n : ℕ) : Store ι α :=
  { σ with cells := Function.update σ.cells i n }

/-- Serve a request: the store after it, what it was served with, and what had to be made. -/
def serve (σ : Store ι α) : Request ι α → Store ι α × Handle ι × Reserve ι α
  | .nothing => (σ, .nothing, 0)
  | .cell i =>
    if σ.cells i = 0 then (σ, .cell i, .cell i)
    else (σ.setCells i (σ.cells i - 1), .cell i, 0)
  | .slot fits label _ =>
    match σ.findSlot fits with
    | some j => (σ.setTaken j true, .slot j, 0)
    | none => (σ.addSlot label, .slot σ.slots.length, .slot label)

/-- Take back what a request was served with. -/
def giveBack (σ : Store ι α) : Handle ι → Store ι α
  | .nothing => σ
  | .cell i => σ.setCells i (σ.cells i + 1)
  | .slot j => σ.setTaken j false

theorem setCells_cells (σ : Store ι α) (i : ι) (n : ℕ) (j : ι) :
    (σ.setCells i n).cells j = if j = i then n else σ.cells j :=
  Function.update_apply _ _ _ _

theorem serve_cell_of_ne {σ : Store ι α} {i : ι} (h : σ.cells i ≠ 0) :
    σ.serve (.cell i) = (σ.setCells i (σ.cells i - 1), .cell i, 0) := if_neg h

theorem serve_cell_of_eq {σ : Store ι α} {i : ι} (h : σ.cells i = 0) :
    σ.serve (.cell i) = (σ, .cell i, .cell i) := if_pos h

theorem serve_slot_of_some {σ : Store ι α} {fits : α → Bool} {label : α} {hfits} {j : ℕ}
    (h : σ.findSlot fits = some j) :
    σ.serve (.slot fits label hfits) = (σ.setTaken j true, .slot j, 0) := by
  simp only [serve, h]

theorem serve_slot_of_none {σ : Store ι α} {fits : α → Bool} {label : α} {hfits}
    (h : σ.findSlot fits = none) :
    σ.serve (.slot fits label hfits) =
      (σ.addSlot label, .slot σ.slots.length, .slot label) := by
  simp only [serve, h]

/-! ### One request -/

/-- **A reserve anticipates growth.**  With what a request makes already there, it is served with
the same and makes nothing. -/
theorem serve_stock (σ : Store ι α) (req : Request ι α) (r : Reserve ι α) :
    (σ.stock ((σ.serve req).2.2 + r)).serve req =
      ((σ.serve req).1.stock r, (σ.serve req).2.1, 0) := by
  cases req with
  | nothing => simp only [serve, ← stock_stock, stock_zero]
  | cell i =>
    by_cases hi : σ.cells i = 0
    · -- the cell that was made stands in the reserve
      have hmade : (σ.stock (.cell i + r)).cells i ≠ 0 := by simp [stock, Reserve.cell]
      rw [serve_cell_of_eq hi, serve_cell_of_ne hmade, Prod.mk.injEq, and_iff_left rfl]
      ext1
      · funext j
        rw [setCells_cells]
        by_cases hj : j = i
        · subst hj
          simp [stock, Reserve.cell]
          omega
        · simp [stock, Reserve.cell, hj]
      · simp [setCells, stock, Reserve.cell]
    · have hleft : (σ.stock r).cells i ≠ 0 := by
        simp only [stock]
        omega
      rw [serve_cell_of_ne hi, ← stock_stock, stock_zero, serve_cell_of_ne hleft, Prod.mk.injEq,
        and_iff_left rfl]
      ext1
      · funext j
        simp only [stock, setCells_cells]
        split
        case isTrue hj =>
          subst hj
          omega
        case isFalse => rfl
      · rfl
  | slot fits label hfits =>
    cases hfind : σ.findSlot fits with
    | some j =>
      have hj : j < σ.slots.length := (List.findIdx?_eq_some_iff_getElem.mp hfind).1
      rw [serve_slot_of_some hfind, ← stock_stock, stock_zero,
        serve_slot_of_some (findSlot_stock_of_some hfind r), setTaken_stock r (.inl hj)]
    | none =>
      rw [serve_slot_of_none hfind, serve_slot_of_some (findSlot_stock_of_none hfind hfits r),
        Prod.mk.injEq, and_iff_left rfl]
      ext1
      · funext i
        simp [setTaken, addSlot, stock, Reserve.slot]
      · have hnew := modify_append_cons σ.slots ⟨label, false⟩
          (r.labels.map fun label => ⟨label, false⟩) fun c => { c with taken := true }
        simpa [setTaken, addSlot, stock, Reserve.slot] using hnew

/-- A return does not care for idle cells and slots. -/
theorem giveBack_stock (σ : Store ι α) (h : Handle ι) (r : Reserve ι α) :
    (σ.stock r).giveBack h = (σ.giveBack h).stock r := by
  cases h with
  | nothing => rfl
  | cell i =>
    ext1
    · funext j
      simp only [giveBack, stock, setCells_cells]
      split
      case isTrue hj =>
        subst hj
        omega
      case isFalse => rfl
    · rfl
  | slot j => exact setTaken_stock r (.inr rfl)

/-- Returns commute. -/
theorem giveBack_comm (σ : Store ι α) (h h' : Handle ι) :
    (σ.giveBack h).giveBack h' = (σ.giveBack h').giveBack h := by
  cases h with
  | nothing => rfl
  | cell i =>
    cases h' with
    | nothing => rfl
    | slot j => rfl
    | cell j =>
      ext1
      · funext k
        simp only [giveBack, setCells_cells]
        by_cases hij : i = j
        · subst hij
          rfl
        · rw [if_neg (Ne.symm hij), if_neg hij]
          by_cases hki : k = i
          · subst hki
            simp [hij]
          · simp [hki]
      · rfl
  | slot i =>
    cases h' with
    | nothing => rfl
    | cell j => rfl
    | slot j =>
      ext1
      · rfl
      · apply List.ext_getElem?
        intro k
        simp only [giveBack, setTaken, List.getElem?_modify]
        cases σ.slots[k]? with
        | none => rfl
        | some c => by_cases hi : i = k <;> by_cases hj : j = k <;> simp [hi, hj]

/-- A request given back leaves what was made for it. -/
theorem giveBack_serve (σ : Store ι α) (req : Request ι α) :
    (σ.serve req).1.giveBack (σ.serve req).2.1 = σ.stock (σ.serve req).2.2 := by
  cases req with
  | nothing => simp only [serve, giveBack, stock_zero]
  | cell i =>
    by_cases hi : σ.cells i = 0
    · rw [serve_cell_of_eq hi]
      ext1
      · funext j
        simp only [giveBack, setCells_cells, stock, Reserve.cell]
        split
        case isTrue hj => rw [hj]
        case isFalse => rfl
      · simp [giveBack, setCells, stock, Reserve.cell]
    · rw [serve_cell_of_ne hi, stock_zero]
      ext1
      · funext j
        simp only [giveBack, setCells_cells]
        split
        case isTrue hj =>
          subst hj
          simp only [if_true]
          omega
        case isFalse => rfl
      · rfl
  | slot fits label hfits =>
    cases hfind : σ.findSlot fits with
    | some j =>
      obtain ⟨hj, hfound, -⟩ := List.findIdx?_eq_some_iff_getElem.mp hfind
      rw [serve_slot_of_some hfind, stock_zero]
      ext1
      · rfl
      · apply List.ext_getElem?
        intro k
        simp only [giveBack, setTaken, List.getElem?_modify]
        by_cases hk : j = k
        · subst hk
          have hidle : σ.slots[j].taken = false := by
            simp only [Bool.and_eq_true, Bool.not_eq_true'] at hfound
            exact hfound.1
          simp [List.getElem?_eq_getElem hj, ← hidle]
        · cases σ.slots[k]? <;> simp [hk]
    | none =>
      rw [serve_slot_of_none hfind]
      ext1
      · funext i
        simp [giveBack, setTaken, addSlot, stock, Reserve.slot]
      · exact modify_append_cons σ.slots ⟨label, true⟩ [] fun c => { c with taken := false }

/-! ### Scripts -/

/-- One command of a script: a request, or the return of what request number `k` of the script,
counted from zero, was served with. -/
inductive Command (ι α : Type*)
  | take (req : Request ι α)
  | give (k : ℕ)

/-- Run a script; `handles` are what its requests were served with so far. -/
def run (σ : Store ι α) (handles : List (Handle ι)) :
    List (Command ι α) → Store ι α × Reserve ι α
  | [] => (σ, 0)
  | .take req :: rest =>
    let last := (σ.serve req).1.run (handles ++ [(σ.serve req).2.1]) rest
    (last.1, (σ.serve req).2.2 + last.2)
  | .give k :: rest => (σ.giveBack (handles.getD k .nothing)).run handles rest

/-- Every return of the script is of an earlier request that is not given back yet, and at its end
everything is given back.  `live` are the numbers of the requests not given back, and `next` is the
number of the next one. -/
def Balanced (live : List ℕ) (next : ℕ) : List (Command ι α) → Prop
  | [] => live = []
  | .take _ :: rest => Balanced (next :: live) (next + 1) rest
  | .give k :: rest => k ∈ live ∧ Balanced (live.erase k) next rest

/-- **Warm-up.** A store stocked with what a script has to make runs it without growth, and ends the
same. -/
theorem run_stock (σ : Store ι α) (handles : List (Handle ι)) (script : List (Command ι α)) :
    (σ.stock (σ.run handles script).2).run handles script = ((σ.run handles script).1, 0) := by
  induction script generalizing σ handles with
  | nil => simp only [run, stock_zero]
  | cons c rest ih =>
    cases c with
    | take req =>
      have hserve := serve_stock σ req
        ((σ.serve req).1.run (handles ++ [(σ.serve req).2.1]) rest).2
      simp only [run, hserve, ih]
      rfl
    | give k => simp only [run, giveBack_stock, ih]

/-- Give back what the requests in `live` were served with. -/
def giveBackAll (σ : Store ι α) (handles : List (Handle ι)) (live : List ℕ) : Store ι α :=
  live.foldr (fun k σ => σ.giveBack (handles.getD k .nothing)) σ

theorem giveBackAll_stock (σ : Store ι α) (handles : List (Handle ι)) (live : List ℕ)
    (r : Reserve ι α) : (σ.stock r).giveBackAll handles live =
      (σ.giveBackAll handles live).stock r := by
  induction live with
  | nil => rfl
  | cons k live ih =>
    show ((σ.stock r).giveBackAll handles live).giveBack _ = _
    rw [ih, giveBack_stock]
    rfl

/-- It does not matter when a handle is given back. -/
theorem giveBackAll_giveBack (σ : Store ι α) (handles : List (Handle ι)) (live : List ℕ)
    (h : Handle ι) :
    (σ.giveBack h).giveBackAll handles live = (σ.giveBackAll handles live).giveBack h := by
  induction live with
  | nil => rfl
  | cons k live ih =>
    show ((σ.giveBack h).giveBackAll handles live).giveBack _ = _
    rw [ih, giveBack_comm]
    rfl

theorem giveBackAll_erase (σ : Store ι α) (handles : List (Handle ι)) {live : List ℕ} {k : ℕ}
    (hk : k ∈ live) :
    (σ.giveBack (handles.getD k .nothing)).giveBackAll handles (live.erase k) =
      σ.giveBackAll handles live := by
  rw [giveBackAll_giveBack]
  have hperm := (List.perm_cons_erase hk).foldr_eq'
    (f := fun k σ => Store.giveBack σ (handles.getD k .nothing))
    (fun _ _ _ _ τ => giveBack_comm τ _ _) σ
  exact hperm.symm

theorem giveBackAll_append (σ : Store ι α) (handles : List (Handle ι)) (h : Handle ι)
    {live : List ℕ} (hlive : ∀ k ∈ live, k < handles.length) :
    σ.giveBackAll (handles ++ [h]) live = σ.giveBackAll handles live := by
  refine List.foldr_ext _ _ σ fun k hk τ => ?_
  rw [List.getD_append _ _ _ _ (hlive k hk)]

/-- **A balanced script only adds its reserve.** -/
theorem run_of_balanced (σ : Store ι α) (handles : List (Handle ι)) {live : List ℕ}
    {script : List (Command ι α)} (h : Balanced live handles.length script)
    (hlive : ∀ k ∈ live, k < handles.length) :
    (σ.run handles script).1 = (σ.giveBackAll handles live).stock (σ.run handles script).2 := by
  induction script generalizing σ handles live with
  | nil =>
    have hnone : live = [] := h
    rw [hnone]
    exact (stock_zero σ).symm
  | cons c rest ih =>
    cases c with
    | take req =>
      have hlive' : ∀ k ∈ handles.length :: live,
          k < (handles ++ [(σ.serve req).2.1]).length := by
        intro k hk
        rw [List.length_append, List.length_singleton]
        rcases List.mem_cons.mp hk with rfl | hk
        · exact Nat.lt_succ_self _
        · exact Nat.lt_succ_of_lt (hlive k hk)
      have hnew : (handles ++ [(σ.serve req).2.1]).getD handles.length .nothing =
          (σ.serve req).2.1 := by simp
      -- the new handle is given back first
      have hback : (σ.serve req).1.giveBackAll (handles ++ [(σ.serve req).2.1])
          (handles.length :: live) = (σ.giveBackAll handles live).stock (σ.serve req).2.2 := by
        show ((σ.serve req).1.giveBackAll _ live).giveBack _ = _
        rw [giveBackAll_append _ _ _ hlive, hnew, ← giveBackAll_giveBack, giveBack_serve,
          giveBackAll_stock]
      simp only [run]
      rw [ih _ _ (by simpa [Balanced] using h) hlive', hback, stock_stock]
    | give k =>
      obtain ⟨hk, hrest⟩ := h
      simp only [run]
      rw [ih _ _ hrest fun j hj => hlive j (List.mem_of_mem_erase hj),
        giveBackAll_erase σ handles hk]

/-- **A script that ran once runs again without growth**, and leaves the store as it is. -/
theorem run_again (σ : Store ι α) {script : List (Command ι α)} (h : Balanced [] 0 script) :
    (σ.run [] script).1.run [] script = ((σ.run [] script).1, 0) := by
  have hstock : (σ.run [] script).1 = σ.stock (σ.run [] script).2 := by
    refine run_of_balanced σ [] h ?_
    simp
  calc (σ.run [] script).1.run [] script
      = (σ.stock (σ.run [] script).2).run [] script := by rw [← hstock]
    _ = ((σ.run [] script).1, 0) := run_stock σ [] script

end Store

end InfiniRT.Library
