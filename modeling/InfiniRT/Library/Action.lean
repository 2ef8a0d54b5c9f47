import Mathlib.Logic.Basic
import Mathlib.Tactic.Common

/-!
# Programs with a state and exceptions

An `Action σ ε α` runs on a state and returns a value or throws.  A throw keeps every write made
before it: nothing is rolled back, and a handler sees the state the body left.  The rules for a run
follow the constructors, so a proof walks the program text.  Proved:

* **`run_bind_ok`** — the run of a sequence whose first part returns, with its counterparts for a
  throw and for a handler;
* **`Spares.bind`** — the sequencing rule for programs that never throw one particular exception;
* **`Moves.bind`** — the sequencing rule for what a program may do to its state, however it ends.
-/

namespace InfiniRT.Library

/-- A program over the state `σ` which returns an `α` or throws an `ε`. -/
def Action (σ ε α : Type) : Type := σ → Except ε α × σ

namespace Action

variable {σ ε α β : Type}

/-- Run a program on a state. -/
def run (x : Action σ ε α) (s : σ) : Except ε α × σ := x s

instance : Monad (Action σ ε) where
  pure a := fun s => (.ok a, s)
  bind x f := fun s =>
    match x s with
    | (.ok a, s') => f a s'
    | (.error e, s') => (.error e, s')

instance : MonadStateOf σ (Action σ ε) where
  get := fun s => (.ok s, s)
  set s := fun _ => (.ok (), s)
  modifyGet f := fun s => (.ok (f s).1, (f s).2)

instance : MonadExceptOf ε (Action σ ε) where
  throw e := fun s => (.error e, s)
  tryCatch x handler := fun s =>
    match x s with
    | (.ok a, s') => (.ok a, s')
    | (.error e, s') => handler e s'

/-! ### Running the constructors -/

@[simp] theorem run_pure (a : α) (s : σ) : (pure a : Action σ ε α).run s = (.ok a, s) := rfl

@[simp] theorem run_get (s : σ) : (get : Action σ ε σ).run s = (.ok s, s) := rfl

@[simp] theorem run_set (s s' : σ) : (set s' : Action σ ε PUnit).run s = (.ok (), s') := rfl

@[simp] theorem run_modify (f : σ → σ) (s : σ) :
    (modify f : Action σ ε PUnit).run s = (.ok (), f s) := rfl

@[simp] theorem run_throw (e : ε) (s : σ) : (throw e : Action σ ε α).run s = (.error e, s) := rfl

theorem run_bind (x : Action σ ε α) (f : α → Action σ ε β) (s : σ) :
    (x >>= f).run s =
      match x.run s with
      | (.ok a, s') => (f a).run s'
      | (.error e, s') => (.error e, s') := rfl

theorem run_bind_ok {x : Action σ ε α} {f : α → Action σ ε β} {s s' : σ} {a : α}
    (h : x.run s = (.ok a, s')) : (x >>= f).run s = (f a).run s' := by
  rw [run_bind, h]

theorem run_bind_error {x : Action σ ε α} {f : α → Action σ ε β} {s s' : σ} {e : ε}
    (h : x.run s = (.error e, s')) : (x >>= f).run s = (.error e, s') := by
  rw [run_bind, h]

theorem run_tryCatch (x : Action σ ε α) (handler : ε → Action σ ε α) (s : σ) :
    (tryCatch x handler).run s =
      match x.run s with
      | (.ok a, s') => (Except.ok a, s')
      | (.error e, s') => (handler e).run s' := rfl

theorem run_tryCatch_ok {x : Action σ ε α} {handler : ε → Action σ ε α} {s s' : σ} {a : α}
    (h : x.run s = (.ok a, s')) : (tryCatch x handler).run s = (.ok a, s') := by
  rw [run_tryCatch, h]

theorem run_tryCatch_error {x : Action σ ε α} {handler : ε → Action σ ε α} {s s' : σ} {e : ε}
    (h : x.run s = (.error e, s')) : (tryCatch x handler).run s = (handler e).run s' := by
  rw [run_tryCatch, h]

/-! ### Equations between programs -/

theorem pure_bind (a : α) (f : α → Action σ ε β) : (pure a >>= f : Action σ ε β) = f a := rfl

theorem map_eq_bind (f : α → β) (x : Action σ ε α) : f <$> x = x >>= fun a => pure (f a) := rfl

theorem map_throw (f : α → β) (e : ε) :
    (f <$> (throw e : Action σ ε α) : Action σ ε β) = throw e := rfl

theorem map_id (x : Action σ ε α) : (fun a => a) <$> x = x := by
  funext s
  show (x >>= fun a => pure a).run s = x.run s
  rcases hrun : x.run s with ⟨a | a, s'⟩
  · exact run_bind_error hrun
  · exact run_bind_ok hrun

theorem bind_map {γ : Type} (f : α → β) (x : Action σ ε α) (g : β → Action σ ε γ) :
    (f <$> x) >>= g = x >>= fun a => g (f a) := by
  funext s
  show ((x >>= fun a => pure (f a)) >>= g).run s = (x >>= fun a => g (f a)).run s
  rcases hrun : x.run s with ⟨a | a, s'⟩
  · rw [run_bind_error (run_bind_error hrun), run_bind_error hrun]
  · rw [run_bind_ok hrun, run_bind, run_bind_ok hrun]
    rfl

theorem map_map {γ : Type} (f : α → β) (g : β → γ) (x : Action σ ε α) :
    g <$> f <$> x = (fun a => g (f a)) <$> x := by
  rw [map_eq_bind g, bind_map, map_eq_bind]

/-! ### Working on a part of the state -/

/-- Run a program on a part of the state. -/
def zoom {τ : Type} (get : σ → τ) (put : τ → σ → σ) (x : Action τ ε α) : Action σ ε α := fun s =>
  ((x.run (get s)).1, put (x.run (get s)).2 s)

theorem run_zoom {τ : Type} {get : σ → τ} {put : τ → σ → σ} {x : Action τ ε α} {s : σ}
    {r : Except ε α} {t : τ} (h : x.run (get s) = (r, t)) :
    (zoom get put x).run s = (r, put t s) := by
  show ((x.run (get s)).1, put (x.run (get s)).2 s) = _
  rw [h]

/-! ### Exceptions that are not thrown -/

/-- On `s` the program does not throw `e`; it ends in a state with `G`, and if it returns then as
`Q` says. -/
def Spares (e : ε) (G : σ → Prop) (Q : α → σ → Prop) (x : Action σ ε α) (s : σ) : Prop :=
  G (x.run s).2 ∧ (x.run s).1 ≠ .error e ∧ ∀ a, (x.run s).1 = .ok a → Q a (x.run s).2

namespace Spares

variable {e e' : ε} {G : σ → Prop} {Q : α → σ → Prop} {R : β → σ → Prop} {x : Action σ ε α}
  {s s' : σ}

theorem of_ok {a : α} (h : x.run s = (.ok a, s')) (hs : G s') (hQ : Q a s') : Spares e G Q x s := by
  rw [Spares, h]
  exact ⟨hs, nofun, fun _ heq => Except.ok.inj heq ▸ hQ⟩

theorem of_error (h : x.run s = (.error e', s')) (hs : G s') (hne : e' ≠ e) :
    Spares e G Q x s := by
  rw [Spares, h]
  exact ⟨hs, fun heq => hne (Except.error.inj heq), nofun⟩

theorem pure {a : α} (hs : G s) (hQ : Q a s) : Spares e G Q (Pure.pure a : Action σ ε α) s :=
  .of_ok rfl hs hQ

theorem throw (hs : G s) (hne : e' ≠ e) :
    Spares e G Q (MonadExcept.throw e' : Action σ ε α) s := .of_error rfl hs hne

theorem modify {f : σ → σ} {Q : PUnit → σ → Prop} (hs : G (f s)) (hQ : Q () (f s)) :
    Spares e G Q (modify f : Action σ ε PUnit) s := .of_ok rfl hs hQ

theorem cases (h : Spares e G Q x s) :
    (∃ a s', x.run s = (.ok a, s') ∧ G s' ∧ Q a s') ∨
      ∃ e' s', x.run s = (.error e', s') ∧ G s' ∧ e' ≠ e := by
  obtain ⟨hG, hne, hQ⟩ := h
  rcases hrun : x.run s with ⟨r, s'⟩
  rw [hrun] at hG hne hQ
  cases r with
  | ok a => exact .inl ⟨a, s', rfl, hG, hQ a rfl⟩
  | error e' => exact .inr ⟨e', s', rfl, hG, fun heq => hne (congrArg Except.error heq)⟩

theorem ne_error (h : Spares e G Q x s) : x.run s ≠ (.error e, s') := fun hrun =>
  h.2.1 (congrArg Prod.fst hrun)

/-- The first part is known to return. -/
theorem bind_of_ok {f : α → Action σ ε β} {a : α} (hx : x.run s = (.ok a, s'))
    (hf : Spares e G R (f a) s') : Spares e G R (x >>= f) s := by
  rwa [Spares, run_bind_ok hx]

/-- **The sequencing rule.** -/
theorem bind {f : α → Action σ ε β} (hx : Spares e G Q x s)
    (hf : ∀ a s', Q a s' → G s' → Spares e G R (f a) s') : Spares e G R (x >>= f) s := by
  rcases hx.cases with ⟨a, s', hrun, hG, hQ⟩ | ⟨e', s', hrun, hG, hne⟩
  · exact .bind_of_ok hrun (hf a s' hQ hG)
  · exact .of_error (run_bind_error hrun) hG hne

theorem get_bind {f : σ → Action σ ε β} (h : Spares e G R (f s) s) : Spares e G R (get >>= f) s :=
  .bind_of_ok (run_get s) h

/-- A handler is run for other exceptions. -/
theorem tryCatch {handler : ε → Action σ ε α} (hx : Spares e G Q x s)
    (hhandler : ∀ e' s', e' ≠ e → G s' → Spares e G Q (handler e') s') :
    Spares e G Q (MonadExcept.tryCatch x handler) s := by
  rcases hx.cases with ⟨a, s', hrun, hG, hQ⟩ | ⟨e', s', hrun, hG, hne⟩
  · exact .of_ok (run_tryCatch_ok hrun) hG hQ
  · rw [Spares, run_tryCatch_error hrun]
    exact hhandler e' s' hne hG

theorem zoom {τ : Type} {view : σ → τ} {put : τ → σ → σ} {G' : τ → Prop} {Q' : α → τ → Prop}
    {y : Action τ ε α} (h : Spares e G' Q' y (view s)) (hput : ∀ t, G' t → G (put t s))
    (hQ : ∀ a t, Q' a t → Q a (put t s)) : Spares e G Q (Action.zoom view put y) s :=
  ⟨hput _ h.1, h.2.1, fun a heq => hQ a _ (h.2.2 a heq)⟩

end Spares

/-! ### What a program may do to its state -/

/-- Wherever it starts and however it ends, the program moves the state along `R`. -/
def Moves (R : σ → σ → Prop) (x : Action σ ε α) : Prop := ∀ s, R s (x.run s).2

namespace Moves

variable {R : σ → σ → Prop} {x : Action σ ε α}

theorem pure (hrefl : ∀ s, R s s) (a : α) : Moves R (Pure.pure a : Action σ ε α) := hrefl

theorem throw (hrefl : ∀ s, R s s) (e : ε) : Moves R (MonadExcept.throw e : Action σ ε α) := hrefl

theorem get (hrefl : ∀ s, R s s) : Moves R (MonadState.get : Action σ ε σ) := hrefl

theorem modify {f : σ → σ} (h : ∀ s, R s (f s)) : Moves R (modify f : Action σ ε PUnit) := h

theorem bind (htrans : ∀ s t u, R s t → R t u → R s u) {f : α → Action σ ε β} (hx : Moves R x)
    (hf : ∀ a, Moves R (f a)) : Moves R (x >>= f) := by
  intro s
  have hfirst := hx s
  rcases hrun : x.run s with ⟨a | a, s'⟩
  · rw [run_bind_error hrun]
    rwa [hrun] at hfirst
  · rw [run_bind_ok hrun]
    rw [hrun] at hfirst
    exact htrans _ _ _ hfirst (hf a s')

theorem tryCatch (htrans : ∀ s t u, R s t → R t u → R s u) {handler : ε → Action σ ε α}
    (hx : Moves R x) (hhandler : ∀ e, Moves R (handler e)) :
    Moves R (MonadExcept.tryCatch x handler) := by
  intro s
  have hfirst := hx s
  rcases hrun : x.run s with ⟨e | a, s'⟩
  · rw [run_tryCatch_error hrun]
    rw [hrun] at hfirst
    exact htrans _ _ _ hfirst (hhandler e s')
  · rw [run_tryCatch_ok hrun]
    rwa [hrun] at hfirst

end Moves

end Action

end InfiniRT.Library
