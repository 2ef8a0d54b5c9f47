import InfiniRT.Library.Ledger
import Mathlib.Data.List.Forall2

/-!
# Heaps of arrays

An `ArrayHeap T` is a ledger whose buffers are arrays of cells, with the element count as the tag.
A cell is `none` until a value is constructed in it, and reading such a cell is undefined.  Programs
fill arrays cell by cell from things they read, so there is one loop, `writeAll`, with one rule.
Proved:

* **`load_run`** — a constructed cell of a live array is read;
* **`readAll_run`** — reads of several cells give the list of what is in them;
* **`writeAll_run`** — the rule for a loop that constructs cells from what it reads.
-/

namespace InfiniRT.Library

variable {T : Type}

/-- The live arrays of one allocator. -/
abbrev ArrayHeap (T : Type) := Ledger ℕ (List (Option T))

/-- Read a cell. -/
def readCell {σ : Type} : Option (Option T) → Action σ Fault T
  | some (some x) => pure x
  | _ => throw .undefined

theorem readCell_spares {σ : Type} {G : σ → Prop} {s : σ} (h : G s) (cell : Option (Option T)) :
    (readCell cell).Spares .badAlloc G (fun _ _ => True) s := by
  unfold readCell
  split
  · exact .pure h trivial
  · exact .throw h nofun

namespace ArrayHeap

variable {L L' : ArrayHeap T} {p : Address} {n i : ℕ} {cells : List (Option T)} {x : T}

/-- Read cell `i` of the array at `p`. -/
def load (p : Address) (i : ℕ) : Action (ArrayHeap T) Fault T := do
  let L ← get
  match L.buffers p with
  | some (_, cells) => readCell cells[i]?
  | none => throw .undefined

/-- Construct `x` in cell `i` of the array at `p`. -/
def store (p : Address) (i : ℕ) (x : T) : Action (ArrayHeap T) Fault Unit := do
  let L ← get
  match L.buffers p with
  | some (n, cells) =>
    if i < cells.length then modify (·.write p n (cells.set i (some x))) else throw .undefined
  | none => throw .undefined

/-- Ask for an array of `n` cells, if there can be one that large. -/
def allocate (maxSize n : ℕ) : Action (ArrayHeap T) Fault Address :=
  if n > maxSize then throw .badAlloc else Ledger.allocate n (List.replicate n none)

theorem load_run (hp : L.buffers p = some (n, cells)) (hi : cells[i]? = some (some x)) :
    (load p i).run L = (.ok x, L) := by
  unfold load
  rw [Action.run_bind_ok (Action.run_get L), hp]
  simp only [hi, readCell, Action.run_pure]

theorem store_run (hp : L.buffers p = some (n, cells)) (hi : i < cells.length) (x : T) :
    (store p i x).run L = (.ok (), L.write p n (cells.set i (some x))) := by
  unfold store
  rw [Action.run_bind_ok (Action.run_get L), hp]
  simp only [hi, if_true, Action.run_modify]

/-- An allocation finds a place for the array, or leaves the buffers as they are. -/
theorem allocate_run (maxSize n : ℕ) (L : ArrayHeap T) :
    (∃ p, n ≤ maxSize ∧ L.buffers p = none ∧
      (allocate maxSize n).run L = (.ok p, L.asked.write p n (List.replicate n none))) ∨
    ∃ L', (allocate maxSize n).run L = (.error .badAlloc, L') ∧ L'.buffers = L.buffers := by
  unfold allocate
  by_cases hn : n > maxSize
  · rw [if_pos hn]
    exact .inr ⟨L, rfl, rfl⟩
  · rw [if_neg hn]
    rcases Ledger.allocate_run n (List.replicate n (none : Option T)) L with
      ⟨p, hp, hok⟩ | ⟨herr, -⟩
    · exact .inl ⟨p, Nat.le_of_not_lt hn, hp.2, hok⟩
    · exact .inr ⟨L.asked, herr, rfl⟩

/-! ### Memory that is not refused -/

theorem load_spares (h : L.Granting) (p : Address) (i : ℕ) :
    (load p i).Spares .badAlloc Ledger.Granting (fun _ _ => True) L := by
  refine .get_bind ?_
  split
  · exact readCell_spares h _
  · exact .throw h nofun

theorem store_spares (h : L.Granting) (p : Address) (i : ℕ) (x : T) :
    (store p i x).Spares .badAlloc Ledger.Granting (fun _ _ => True) L := by
  refine .get_bind ?_
  split
  next n cells hp =>
    split
    · exact .modify (h.written (by rw [hp]; exact Option.some_ne_none _) _ _) trivial
    · exact .throw h nofun
  · exact .throw h nofun

theorem allocate_spares {maxSize : ℕ} (h : L.Granting) (hn : n ≤ maxSize) :
    (allocate maxSize n).Spares .badAlloc Ledger.Granting (fun _ _ => True) L := by
  unfold allocate
  rw [if_neg (Nat.not_lt.mpr hn)]
  exact Ledger.allocate_spares h _ _

/-! ### Heaps that have more -/

/-- `L'` has every array of `L` as it is. -/
def Extends (L L' : ArrayHeap T) : Prop := ∀ p b, L.buffers p = some b → L'.buffers p = some b

theorem Extends.refl (L : ArrayHeap T) : L.Extends L := fun _ _ => id

/-- A new array leaves the others alone. -/
theorem Extends.allocated (hp : L.buffers p = none) (n : ℕ) (cells : List (Option T)) :
    L.Extends (L.asked.write p n cells) := fun q b hq => by
  rw [Ledger.write_buffers_ne _ _ _ fun hqp => ?_, Ledger.asked_buffers, hq]
  rw [hqp, hp] at hq
  cases hq

/-- What nobody owned at the start of a transfer is still there at its end. -/
theorem Extends.of_transfer {after : List (Address × ℕ)} (h : Ledger.Transfer L [] L' after) :
    L.Extends L' := fun p b hp => h.frame p b hp fun _ hmem => absurd hmem (List.not_mem_nil)

/-- `read` yields `x` on the heap, and on every heap that has more. -/
def Reads (L : ArrayHeap T) (read : Action (ArrayHeap T) Fault T) (x : T) : Prop :=
  ∀ L', L.Extends L' → read.run L' = (.ok x, L')

theorem Reads.pure (L : ArrayHeap T) (x : T) : L.Reads (Pure.pure x) x := fun _ _ => rfl

theorem Reads.load (hp : L.buffers p = some (n, cells)) (hi : cells[i]? = some (some x)) :
    L.Reads (ArrayHeap.load p i) x := fun _ h => load_run (h p _ hp) hi

end ArrayHeap

/-! ### Reading and writing cells in order -/

/-- The values that a list of programs reads. -/
def readAll {σ : Type} : List (Action σ Fault T) → Action σ Fault (List T)
  | [] => pure []
  | read :: rest => do
    let x ← read
    let xs ← readAll rest
    return x :: xs

theorem readAll_run {σ : Type} {s : σ} {reads : List (Action σ Fault T)} {xs : List T}
    (h : List.Forall₂ (fun read x => read.run s = (.ok x, s)) reads xs) :
    (readAll reads).run s = (.ok xs, s) := by
  induction h with
  | nil => rfl
  | cons hread _ ih =>
    unfold readAll
    rw [Action.run_bind_ok hread, Action.run_bind_ok ih]
    rfl

/-- Write the cells from `i` on with what the elements of a list read. -/
def writeAll {σ : Type} (write : ℕ → T → Action σ Fault Unit) :
    ℕ → List (Action σ Fault T) → Action σ Fault Unit
  | _, [] => pure ()
  | i, read :: rest => do
    let x ← read
    write i x
    writeAll write (i + 1) rest

theorem writeAll_spares {σ : Type} {G : σ → Prop} {write : ℕ → T → Action σ Fault Unit}
    (hwrite : ∀ i x s, G s → (write i x).Spares .badAlloc G (fun _ _ => True) s)
    {reads : List (Action σ Fault T)}
    (hreads : ∀ read ∈ reads, ∀ s, G s → read.Spares .badAlloc G (fun _ _ => True) s) (i : ℕ)
    {s : σ} (h : G s) : (writeAll write i reads).Spares .badAlloc G (fun _ _ => True) s := by
  induction reads generalizing i s with
  | nil => exact .pure h trivial
  | cons read rest ih =>
    refine .bind (hreads read List.mem_cons_self s h) fun x s₁ _ h₁ =>
      .bind (hwrite i x s₁ h₁) fun _ s₂ _ h₂ => ?_
    exact ih (fun read hmem => hreads read (List.mem_cons_of_mem _ hmem)) (i + 1) h₂

/-- **The loop rule.** `σ i cells` is the state before cell `i` is written. -/
theorem writeAll_run {σ : Type} (state : ℕ → List (Option T) → σ)
    (write : ℕ → T → Action σ Fault Unit)
    (hwrite : ∀ i cells x, i < cells.length →
      (write i x).run (state i cells) = (.ok (), state (i + 1) (cells.set i (some x))))
    {reads : List (Action σ Fault T)} {xs : List T}
    (hreads : List.Forall₂ (fun read x => ∀ i cells,
      read.run (state i cells) = (.ok x, state i cells)) reads xs)
    (done rest : List (Option T)) (hlen : xs.length ≤ rest.length) :
    (writeAll write done.length reads).run (state done.length (done ++ rest)) =
      (.ok (), state (done.length + xs.length) (done ++ xs.map some ++ rest.drop xs.length)) := by
  induction hreads generalizing done rest with
  | nil => simp [writeAll]
  | @cons read x reads xs hread hreads ih =>
    cases rest with
    | nil => cases hlen
    | cons cell rest =>
      have hin : done.length < (done ++ cell :: rest).length := by simp
      have hset : (done ++ cell :: rest).set done.length (some x) = done ++ [some x] ++ rest := by
        simp
      have hnext := ih (done ++ [some x]) rest (Nat.le_of_succ_le_succ hlen)
      rw [List.length_append, List.length_singleton] at hnext
      unfold writeAll
      rw [Action.run_bind_ok (hread _ _), Action.run_bind_ok (hwrite _ _ _ hin), hset, hnext]
      simp only [List.map_cons, List.length_cons, List.drop_succ_cons, List.append_assoc,
        List.singleton_append]
      congr 2
      omega

/-- The loop rule for a whole array. -/
theorem writeAll_run_zero {σ : Type} (state : ℕ → List (Option T) → σ)
    (write : ℕ → T → Action σ Fault Unit)
    (hwrite : ∀ i cells x, i < cells.length →
      (write i x).run (state i cells) = (.ok (), state (i + 1) (cells.set i (some x))))
    {reads : List (Action σ Fault T)} {xs : List T}
    (hreads : List.Forall₂ (fun read x => ∀ i cells,
      read.run (state i cells) = (.ok x, state i cells)) reads xs)
    (cells : List (Option T)) (hlen : xs.length ≤ cells.length) :
    (writeAll write 0 reads).run (state 0 cells) =
      (.ok (), state xs.length (xs.map some ++ cells.drop xs.length)) := by
  have h := writeAll_run state write hwrite hreads [] cells hlen
  rwa [List.length_nil, Nat.zero_add] at h

end InfiniRT.Library
