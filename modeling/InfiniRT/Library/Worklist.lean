import Mathlib.Data.Finset.Card
import Mathlib.Order.Bounds.Basic
import Mathlib.Tactic.Common

/-!
# Worklists over a directed graph

A worklist collects what can be reached from a set of seeds.  It takes the last pending node, reads
the set of its dependencies, and visits these in some order: a dependency that was not seen becomes
seen and pending.  The graph may have cycles and the order of every iteration over a set is
arbitrary.

A node is pending once, when it is first seen, so the nodes that were not seen and those that are
pending are together one fewer after each round.  When nothing is pending, what was seen is closed,
and it never contains more than a closed set does.  Proved:

* **`Invariant.round`** — a round keeps the invariant;
* **`run_isLeast`** — the loop ends with the least closed set;
* **`run_seeds_isLeast`** — from the seeds it needs at most one round for each node, in any order.
-/

namespace InfiniRT.Library

/-- The order in which each iteration over a set meets its members. -/
structure SetOrder (α : Type) [DecidableEq α] where
  list : ℕ → Finset α → List α
  nodup : ∀ n s, (list n s).Nodup
  toFinset : ∀ n s, (list n s).toFinset = s

namespace Worklist

variable {α : Type} [DecidableEq α] {deps : α → Option (Finset α)} {order : SetOrder α}
  {seeds seen nodes : Finset α} {pending : List α} {n fuel : ℕ} {x : α}

/-- Visit a dependency. -/
def visit (state : Finset α × List α) (dependency : α) : Finset α × List α :=
  if dependency ∈ state.1 then state else (insert dependency state.1, state.2 ++ [dependency])

/-- The loop, for at most `fuel` rounds; `n` numbers the iterations over sets, and dependencies that
cannot be read end the program. -/
def run (deps : α → Option (Finset α)) (order : SetOrder α) :
    ℕ → ℕ → Finset α → List α → Option (Finset α)
  | 0, _, _, _ => none
  | fuel + 1, n, seen, pending =>
    match pending.getLast? with
    | none => some seen
    | some x => do
      let dependencies ← deps x
      let state := (order.list n dependencies).foldl visit (seen, pending.dropLast)
      run deps order fuel (n + 1) state.1 state.2

/-- The set contains the seeds and the dependencies of its members. -/
def Closed (deps : α → Option (Finset α)) (seeds : Finset α) (S : Set α) : Prop :=
  ↑seeds ⊆ S ∧ ∀ x ∈ S, ∀ dependencies, deps x = some dependencies → ↑dependencies ⊆ S

/-! ### One round -/

/-- Visiting a list adds its members to what was seen, and makes the new ones pending. -/
theorem foldl_visit (l : List α) (seen : Finset α) (pending : List α) :
    (l.foldl visit (seen, pending)).1 = seen ∪ l.toFinset ∧
      ∃ new, (l.foldl visit (seen, pending)).2 = pending ++ new ∧
        (∀ y, y ∈ new ↔ y ∈ l ∧ y ∉ seen) ∧ new.length + seen.card = (seen ∪ l.toFinset).card := by
  induction l generalizing seen pending with
  | nil => exact ⟨by simp, [], by simp, by simp, by simp⟩
  | cons y l ih =>
    rw [List.foldl_cons]
    by_cases hy : y ∈ seen
    · have hsame : seen ∪ (y :: l).toFinset = seen ∪ l.toFinset := by
        rw [List.toFinset_cons, Finset.union_insert, Finset.insert_eq_self]
        exact Finset.mem_union_left _ hy
      obtain ⟨hseen, new, hpending, hmem, hcard⟩ := ih seen pending
      rw [visit, if_pos hy, hsame]
      refine ⟨hseen, new, hpending, fun z => (hmem z).trans ?_, hcard⟩
      refine and_congr_left fun hz => (List.mem_cons.trans (or_iff_right ?_)).symm
      rintro rfl
      exact hz hy
    · have hsame : seen ∪ (y :: l).toFinset = insert y seen ∪ l.toFinset := by
        rw [List.toFinset_cons, Finset.union_insert, Finset.insert_union]
      obtain ⟨hseen, new, hpending, hmem, hcard⟩ := ih (insert y seen) (pending ++ [y])
      rw [visit, if_neg hy, hsame]
      refine ⟨hseen, y :: new, ?_, fun z => ?_, ?_⟩
      · rw [hpending, List.append_assoc, List.singleton_append]
      · rw [List.mem_cons, hmem, List.mem_cons, Finset.mem_insert]
        by_cases hz : z = y
        · subst hz
          simp [hy]
        · simp [hz]
      · rw [Finset.card_insert_of_notMem hy] at hcard
        rw [List.length_cons]
        omega

/-- What holds before every round. -/
structure Invariant (deps : α → Option (Finset α)) (seeds seen : Finset α) (pending : List α) :
    Prop where
  seeds_seen : seeds ⊆ seen
  pending_seen : ∀ y ∈ pending, y ∈ seen
  done : ∀ y ∈ seen, y ∉ pending → ∀ dependencies, deps y = some dependencies → dependencies ⊆ seen
  least : ∀ S, Closed deps seeds S → ↑seen ⊆ S

theorem Invariant.start (hpending : pending.toFinset = seeds) :
    Invariant deps seeds seeds pending where
  seeds_seen := Finset.Subset.refl seeds
  pending_seen _ hy := hpending ▸ List.mem_toFinset.mpr hy
  done _ hy hnot := absurd (List.mem_toFinset.mp (hpending ▸ hy)) hnot
  least _ hS := hS.1

/-- **A round keeps the invariant.** -/
theorem Invariant.round {dependencies : Finset α} {l : List α}
    (h : Invariant deps seeds seen (pending ++ [x])) (hx : deps x = some dependencies)
    (hl : l.toFinset = dependencies) :
    Invariant deps seeds (l.foldl visit (seen, pending)).1 (l.foldl visit (seen, pending)).2 := by
  obtain ⟨hseen, new, hpending, hmem, -⟩ := foldl_visit l seen pending
  rw [hseen, hpending, hl]
  refine ⟨h.seeds_seen.trans Finset.subset_union_left, fun y hy => ?_, fun y hy hnot d hd => ?_,
    fun S hS => ?_⟩
  · rcases List.mem_append.mp hy with hy | hy
    · exact Finset.mem_union_left _ (h.pending_seen y (List.mem_append_left _ hy))
    · exact Finset.mem_union_right _ (hl ▸ List.mem_toFinset.mpr ((hmem y).mp hy).1)
  · by_cases hyx : y = x
    · -- the node that was taken: all its dependencies are seen now
      subst hyx
      rw [hx] at hd
      obtain rfl := Option.some.inj hd
      exact Finset.subset_union_right
    · have hold : y ∈ seen := by
        rcases Finset.mem_union.mp hy with hy | hy
        · exact hy
        · by_contra hunseen
          exact hnot (List.mem_append_right _
            ((hmem y).mpr ⟨List.mem_toFinset.mp (hl ▸ hy), hunseen⟩))
      refine (h.done y hold (fun hpend => ?_) d hd).trans Finset.subset_union_left
      rcases List.mem_append.mp hpend with hpend | hpend
      · exact hnot (List.mem_append_left _ hpend)
      · exact hyx (List.mem_singleton.mp hpend)
  · rw [Finset.coe_union]
    refine Set.union_subset (h.least S hS) (hS.2 x ?_ dependencies hx)
    exact h.least S hS (h.pending_seen x (by simp))

/-! ### The whole loop -/

/-- **The loop ends**, and what was seen is the least closed set. -/
theorem run_isLeast (hinv : Invariant deps seeds seen pending) (hnodes : seen ⊆ nodes)
    (hbound : ∀ y dependencies, deps y = some dependencies → dependencies ⊆ nodes)
    (hread : ∀ y ∈ seen, (deps y).isSome)
    (hreads : ∀ y dependencies, deps y = some dependencies → ∀ z ∈ dependencies, (deps z).isSome)
    (hfuel : nodes.card - seen.card + pending.length < fuel) :
    ∃ result : Finset α, run deps order fuel n seen pending = some result ∧
      IsLeast {S | Closed deps seeds S} (↑result : Set α) := by
  induction fuel generalizing n seen pending with
  | zero => exact absurd hfuel (Nat.not_lt_zero _)
  | succ fuel ih =>
    rcases List.eq_nil_or_concat' pending with rfl | ⟨rest, x, rfl⟩
    · refine ⟨seen, rfl, ⟨Finset.coe_subset.mpr hinv.seeds_seen, fun y hy d hd => ?_⟩, hinv.least⟩
      exact Finset.coe_subset.mpr (hinv.done y hy List.not_mem_nil d hd)
    · obtain ⟨dependencies, hx⟩ := Option.isSome_iff_exists.mp
        (hread x (hinv.pending_seen x (by simp)))
      have hl := order.toFinset n dependencies
      obtain ⟨hseen, new, hpending, -, hcard⟩ := foldl_visit (order.list n dependencies) seen rest
      have hround := hinv.round hx hl
      have hrun : run deps order (fuel + 1) n seen (rest ++ [x]) =
          run deps order fuel (n + 1) ((order.list n dependencies).foldl visit (seen, rest)).1
            ((order.list n dependencies).foldl visit (seen, rest)).2 := by
        rw [run, List.getLast?_concat]
        simp only [hx, List.dropLast_concat]
        rfl
      have hsub : seen ∪ dependencies ⊆ nodes := Finset.union_subset hnodes (hbound x _ hx)
      have hle := Finset.card_le_card hsub
      rw [hl] at hcard hseen
      rw [hrun]
      refine ih hround ?_ (fun y hy => ?_) ?_
      · rw [hseen]
        exact hsub
      · rw [hseen] at hy
        rcases Finset.mem_union.mp hy with hy | hy
        · exact hread y hy
        · exact hreads x dependencies hx y hy
      · rw [hseen, hpending, List.length_append]
        rw [List.length_append, List.length_singleton] at hfuel
        omega

/-- **Started on the seeds**, in any order, the loop needs at most one round for each node. -/
theorem run_seeds_isLeast (order : SetOrder α) (n k : ℕ) (hnodes : seeds ⊆ nodes)
    (hbound : ∀ y dependencies, deps y = some dependencies → dependencies ⊆ nodes)
    (hread : ∀ y ∈ seeds, (deps y).isSome)
    (hreads : ∀ y dependencies, deps y = some dependencies → ∀ z ∈ dependencies, (deps z).isSome)
    (hfuel : nodes.card < fuel) :
    ∃ result : Finset α, run deps order fuel n seeds (order.list k seeds) = some result ∧
      IsLeast {S | Closed deps seeds S} (↑result : Set α) := by
  have hl := order.toFinset k seeds
  have hlength : (order.list k seeds).length = seeds.card := by
    rw [← List.toFinset_card_of_nodup (order.nodup k seeds), hl]
  have hle := Finset.card_le_card hnodes
  exact run_isLeast (.start hl) hnodes hbound hread hreads (by omega)

end Worklist

end InfiniRT.Library
