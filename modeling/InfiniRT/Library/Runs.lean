import Mathlib.Data.List.Basic
import Mathlib.Data.List.Induction
import Mathlib.Tactic.Common

/-!
# Runs of a labelled transition system

A step relation `step w l w'` says that the system may go from `w` to `w'` showing the label `l`.
A `Run` is a finite sequence of steps with the labels it showed, oldest first.  Everything a
development proves about whole runs goes through the rules here: an invariant kept by each step
holds at the end of each run, a relation to the labels shown so far is extended step by step, and
a property kept while a second one lasts is kept along every run on which that one lasts.  Proved:

* **`Run.invariant`** — what each step keeps holds at the end of a run;
* **`Run.history`** — a relation to the labels shown so far is extended step by step;
* **`Run.persists`** — what each step keeps while something lasts is kept by a run on which that
  lasts.
-/

namespace InfiniRT.Library

variable {W L : Type*} {step : W → L → W → Prop}

/-- A finite run of `step` with the labels it shows. -/
inductive Run (step : W → L → W → Prop) (w : W) : List L → W → Prop
  | nil : Run step w [] w
  | snoc {w' w'' : W} {trace : List L} {l : L} :
      Run step w trace w' → step w' l w'' → Run step w (trace ++ [l]) w''

namespace Run

variable {w w' w'' : W} {trace trace' : List L} {l : L}

theorem single (h : step w l w') : Run step w [l] w' := .snoc .nil h

/-- Steps that do not leave a state. -/
theorem loop (h : ∀ l ∈ trace, step w l w) : Run step w trace w := by
  induction trace using List.reverseRecOn with
  | nil => exact .nil
  | append_singleton rest l ih =>
    exact .snoc (ih fun l' hl' => h l' (List.mem_append_left _ hl')) (h l (by simp))

/-- The last step of a run. -/
theorem last (h : Run step w (trace ++ [l]) w'') : ∃ w', Run step w trace w' ∧ step w' l w'' := by
  generalize hlabels : trace ++ [l] = labels at h
  cases h with
  | nil => simp at hlabels
  | snoc hrun hlast =>
    obtain ⟨rfl, hl⟩ := List.append_inj' hlabels rfl
    cases hl
    exact ⟨_, hrun, hlast⟩

/-- Runs compose. -/
theorem append (h : Run step w trace w') (h' : Run step w' trace' w'') :
    Run step w (trace ++ trace') w'' := by
  induction h' with
  | nil => simpa using h
  | snoc _ hstep ih =>
    rw [← List.append_assoc]
    exact .snoc ih hstep

/-- A run passes through a state wherever its labels are cut. -/
theorem split (h : Run step w (trace ++ trace') w'') :
    ∃ w', Run step w trace w' ∧ Run step w' trace' w'' := by
  generalize hlabels : trace ++ trace' = labels at h
  induction h generalizing trace' with
  | nil =>
    obtain ⟨rfl, rfl⟩ := List.append_eq_nil_iff.mp hlabels
    exact ⟨_, .nil, .nil⟩
  | snoc hrun hlast ih =>
    rcases List.eq_nil_or_concat' trace' with rfl | ⟨rest, l', rfl⟩
    · rw [List.append_nil] at hlabels
      exact ⟨_, hlabels ▸ hrun.snoc hlast, .nil⟩
    · rw [← List.append_assoc] at hlabels
      obtain ⟨hinit, hlab⟩ := List.append_inj' hlabels rfl
      cases hlab
      obtain ⟨w', hfirst, hrest⟩ := ih hinit
      exact ⟨w', hfirst, hrest.snoc hlast⟩

/-- **Invariant rule.** A property kept by every step whose label is allowed holds at the end of
a run that shows allowed labels only. -/
theorem invariant_of_labels (allowed : L → Prop) (Inv : W → Prop)
    (hstep : ∀ w l w', Inv w → allowed l → step w l w' → Inv w')
    (h : Run step w trace w') (hlabels : ∀ l ∈ trace, allowed l) (hw : Inv w) : Inv w' := by
  induction h with
  | nil => exact hw
  | snoc _ hlast ih =>
    refine hstep _ _ _ (ih fun l hl => hlabels l ?_) (hlabels _ ?_) hlast
    · exact List.mem_append_left _ hl
    · simp

/-- The invariant rule without a restriction on the labels. -/
theorem invariant (Inv : W → Prop) (hstep : ∀ w l w', Inv w → step w l w' → Inv w')
    (h : Run step w trace w') (hw : Inv w) : Inv w' :=
  invariant_of_labels (fun _ => True) Inv (fun w l w' hi _ => hstep w l w' hi) h
    (fun _ _ => trivial) hw

/-- **History rule.** A relation between the labels shown so far and the state holds at the end of
a run, if it holds at its start and each step extends it. -/
theorem history (R : List L → W → Prop)
    (hstep : ∀ trace w l w', R trace w → step w l w' → R (trace ++ [l]) w')
    (h : Run step w trace w') (hw : R [] w) : R trace w' := by
  induction h with
  | nil => exact hw
  | snoc _ hlast ih => exact hstep _ _ _ _ ih hlast

/-- **Persistence rule.** Under the invariant, `alive` may end along a step but never begins, and
a step into a state where it lasts keeps `Q`.  Then `Q` lasts as long as `alive` does. -/
theorem persists (Inv Q alive : W → Prop)
    (hinv : ∀ w l w', Inv w → step w l w' → Inv w')
    (hback : ∀ w l w', Inv w → step w l w' → alive w' → alive w)
    (hkeep : ∀ w l w', Inv w → Q w → step w l w' → alive w' → Q w')
    (h : Run step w trace w') (hw : Inv w) (hQ : Q w) (halive : alive w') : Q w' := by
  induction h with
  | nil => exact hQ
  | snoc hrun hlast ih =>
    have hi := invariant Inv hinv hrun hw
    exact hkeep _ _ _ hi (ih (hback _ _ _ hi hlast halive)) hlast halive

end Run

end InfiniRT.Library
