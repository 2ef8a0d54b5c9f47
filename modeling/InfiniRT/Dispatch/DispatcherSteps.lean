import InfiniRT.Dispatch.Dispatcher
import Mathlib.Data.List.Basic
import Mathlib.Data.List.Forall2
import Mathlib.Data.List.Pairwise

/-!
# What a dispatch does

The filter keeps the first occurrence of each item the functor can be called with.  A dispatch of
one value is the call of the functor with the item that has this value, its result converted, or an
abort.  A dispatch of several dimensions is, by induction on them, the call with one item for each
key, or an abort.  Proved:

* **`filter_pairwise`** — the filter keeps the order of first occurrence, and no item twice;
* **`multiDispatch_callsOnce`** — a dispatch all of whose keys have an item is one call;
* **`multiDispatch_aborts`** — any other aborts before the functor is called.
-/

namespace InfiniRT.Dispatch

open InfiniRT.Library (Action)

/-! ### The filter -/

section

variable {I : Type} [DecidableEq I] {isInvocable : I → Bool} {filtered all before rest : List I}
  {i : I}

theorem containsValue_iff : containsValue filtered i = true ↔ i ∈ filtered := by
  simp [containsValue]

theorem filter_cons_keep (hi : isInvocable i = true) (hnew : i ∉ filtered) :
    filter isInvocable filtered (i :: rest) = filter isInvocable (filtered ++ [i]) rest := by
  have hc : containsValue filtered i = false :=
    Bool.eq_false_iff.2 fun h => hnew (containsValue_iff.1 h)
  rw [filter, hi, hc]
  rfl

theorem filter_cons_skip (h : isInvocable i = false ∨ i ∈ filtered) :
    filter isInvocable filtered (i :: rest) = filter isInvocable filtered rest := by
  rw [filter, if_neg]
  rcases h with h | h
  · rw [h]
    exact Bool.false_ne_true
  · rw [containsValue_iff.2 h, Bool.not_true, Bool.and_false]
    exact Bool.false_ne_true

/-- The two cases of a step of the filter. -/
theorem keep_or_skip (isInvocable : I → Bool) (filtered : List I) (i : I) :
    (isInvocable i = true ∧ i ∉ filtered) ∨ (isInvocable i = false ∨ i ∈ filtered) := by
  by_cases hmem : i ∈ filtered
  · exact .inr (.inr hmem)
  · cases hi : isInvocable i with
    | true => exact .inl ⟨rfl, hmem⟩
    | false => exact .inr (.inl rfl)

theorem mem_filter_from :
    i ∈ filter isInvocable filtered rest ↔ i ∈ filtered ∨ (i ∈ rest ∧ isInvocable i = true) := by
  induction rest generalizing filtered with
  | nil => simp [filter]
  | cons head tail ih =>
    rcases keep_or_skip isInvocable filtered head with ⟨hi, hnew⟩ | hskip
    · rw [filter_cons_keep hi hnew, ih]
      rw [List.mem_append, List.mem_singleton, List.mem_cons]
      constructor
      · rintro ((h | rfl) | ⟨h, hi'⟩)
        · exact .inl h
        · exact .inr ⟨.inl rfl, hi⟩
        · exact .inr ⟨.inr h, hi'⟩
      · rintro (h | ⟨rfl | h, hi'⟩)
        · exact .inl (.inl h)
        · exact .inl (.inr rfl)
        · exact .inr ⟨h, hi'⟩
    · rw [filter_cons_skip hskip, ih]
      constructor
      · rintro (h | ⟨h, hi⟩)
        · exact .inl h
        · exact .inr ⟨.tail _ h, hi⟩
      · rintro (h | ⟨h, hi⟩)
        · exact .inl h
        · rcases List.mem_cons.1 h with rfl | h
          · exact .inl (hskip.resolve_left fun hf => Bool.false_ne_true (hf.symm.trans hi))
          · exact .inr ⟨h, hi⟩

/-- **What the filter keeps.** -/
theorem mem_filter : i ∈ filter isInvocable [] all ↔ i ∈ all ∧ isInvocable i = true := by
  rw [mem_filter_from]
  simp

/-- The accumulator holds the invocable items that came `before`, each where it first occurred. -/
theorem filter_pairwise_from (hmem : ∀ i, i ∈ filtered ↔ i ∈ before ∧ isInvocable i = true)
    (hfiltered : filtered.Pairwise
      fun a b => (before ++ rest).idxOf a < (before ++ rest).idxOf b) :
    (filter isInvocable filtered rest).Pairwise
      fun a b => (before ++ rest).idxOf a < (before ++ rest).idxOf b := by
  induction rest generalizing filtered before with
  | nil => exact hfiltered
  | cons head tail ih =>
    have hall : before ++ head :: tail = (before ++ [head]) ++ tail := by simp
    rcases keep_or_skip isInvocable filtered head with ⟨hi, hnew⟩ | hskip
    · rw [filter_cons_keep hi hnew, hall]
      have hbefore : head ∉ before := fun h => hnew ((hmem head).2 ⟨h, hi⟩)
      refine ih (fun i => ?_) ?_
      · simp only [List.mem_append, List.mem_singleton, hmem i]
        constructor
        · rintro (⟨h, hi'⟩ | rfl)
          · exact ⟨.inl h, hi'⟩
          · exact ⟨.inr rfl, hi⟩
        · rintro ⟨h | rfl, hi'⟩
          · exact .inl ⟨h, hi'⟩
          · exact .inr rfl
      · rw [← hall, List.pairwise_append]
        refine ⟨hfiltered, List.pairwise_singleton _ _, fun a ha b hb => ?_⟩
        obtain rfl := List.mem_singleton.1 hb
        have hlt : before.idxOf a < before.length := List.idxOf_lt_length_iff.2 ((hmem a).1 ha).1
        rw [List.idxOf_append_of_mem ((hmem a).1 ha).1, List.idxOf_append_of_notMem hbefore]
        omega
    · rw [filter_cons_skip hskip, hall]
      refine ih (fun i => ?_) (by rwa [← hall])
      simp only [List.mem_append, List.mem_singleton, hmem i]
      constructor
      · rintro ⟨h, hi⟩
        exact ⟨.inl h, hi⟩
      · rintro ⟨h | rfl, hi⟩
        · exact ⟨h, hi⟩
        · exact (hmem i).1 (hskip.resolve_left fun hf => Bool.false_ne_true (hf.symm.trans hi))

/-- **The filter keeps the order of first occurrence**, and so no item twice. -/
theorem filter_pairwise (isInvocable : I → Bool) (all : List I) :
    (filter isInvocable [] all).Pairwise fun a b => all.idxOf a < all.idxOf b :=
  have hmem : ∀ i : I, i ∈ [] ↔ i ∈ [] ∧ isInvocable i = true := by simp
  filter_pairwise_from hmem List.Pairwise.nil

end

/-! ### One value -/

section

variable {I V τ R σ ε : Type} [DecidableEq I] [DecidableEq V] [DecidableEq τ]
  {C : ReturnTypes τ R} {T : ValueType I V} {func : TagFunctor I τ (Action σ (Failure ε) R)}
  {returnType : τ} {value : V} {context : String} {items all tail : List I} {i head : I}

omit [DecidableEq I] [DecidableEq τ] in
theorem callMatching_of_mem (hmem : i ∈ items) (hvalue : T.ofItem i = value) :
    callMatching C T func returnType value items =
      (fun r => some (C.convert returnType r)) <$> func.call i := by
  induction items with
  | nil => exact absurd hmem List.not_mem_nil
  | cons item items ih =>
    rw [callMatching]
    by_cases hitem : value = T.ofItem item
    · obtain rfl : i = item := T.ofItem_injective (hvalue.trans hitem)
      rw [if_pos hitem, Action.map_eq_bind]
    · rw [if_neg hitem]
      refine ih ((List.mem_cons.1 hmem).resolve_left fun heq => hitem ?_)
      rw [← hvalue, heq]

omit [DecidableEq I] [DecidableEq τ] in
theorem callMatching_of_not_mem (hnone : ∀ i ∈ items, T.ofItem i ≠ value) :
    callMatching C T func returnType value items = pure none := by
  induction items with
  | nil => rfl
  | cons item items ih =>
    rw [callMatching, if_neg fun h => hnone item List.mem_cons_self h.symm]
    exact ih fun i hi => hnone i (.tail _ hi)

omit [DecidableEq I] in
/-- The item of the head or the tail that has the value is called. -/
theorem dispatchFuncImpl_of_mem (hmem : i ∈ head :: tail) (hvalue : T.ofItem i = value) :
    dispatchFuncImpl C T value func context head tail =
      C.convert (func.returnType head) <$> func.call i := by
  have hmem' : i ∈ tail ++ [head] := by simpa [or_comm] using hmem
  simp only [dispatchFuncImpl]
  rw [callMatching_of_mem hmem' hvalue, Action.bind_map, Action.map_eq_bind]

omit [DecidableEq I] in
theorem dispatchFuncImpl_of_not_mem (hnone : ∀ i ∈ head :: tail, T.ofItem i ≠ value) :
    dispatchFuncImpl C T value func context head tail = throw (.aborted (unsupportedMessage
      (decide (func.returnType head = C.void)) (T.toInt value) context)) := by
  have hnone' : ∀ i ∈ tail ++ [head], T.ofItem i ≠ value := fun i hi =>
    hnone i (by simpa [or_comm] using hi)
  simp only [dispatchFuncImpl]
  rw [callMatching_of_not_mem hnone', Action.pure_bind]

/-- **One value that is allowed.** -/
theorem dispatchFunc_of_mem (hmem : i ∈ all) (hi : func.isInvocable i = true)
    (hvalue : T.ofItem i = value) :
    dispatchFunc C T value func context all =
      C.convert (resultType C func.isInvocable func.returnType all) <$> func.call i := by
  have hkept : i ∈ filter func.isInvocable [] all := mem_filter.2 ⟨hmem, hi⟩
  rw [dispatchFunc, resultType]
  rcases hfilter : filter func.isInvocable [] all with _ | ⟨head, tail⟩
  · rw [hfilter] at hkept
    exact absurd hkept List.not_mem_nil
  · rw [hfilter] at hkept
    exact dispatchFuncImpl_of_mem hkept hvalue

/-- **One value that is not allowed.** -/
theorem dispatchFunc_of_not_mem
    (hnone : ∀ i ∈ all, func.isInvocable i = true → T.ofItem i ≠ value) :
    ∃ message, dispatchFunc C T value func context all = throw (.aborted message) := by
  have hkept : ∀ i ∈ filter func.isInvocable [] all, T.ofItem i ≠ value := fun i hi =>
    hnone i (mem_filter.1 hi).1 (mem_filter.1 hi).2
  rw [dispatchFunc]
  rcases hfilter : filter func.isInvocable [] all with _ | ⟨head, tail⟩
  · exact ⟨_, rfl⟩
  · rw [hfilter] at hkept
    exact ⟨_, dispatchFuncImpl_of_not_mem hkept⟩

end

/-! ### Several dimensions -/

section

variable {I V τ R σ ε : Type} [DecidableEq I] [DecidableEq V] [DecidableEq τ]
  {C : ReturnTypes τ R} {T : ValueType I V}
  {func : TagFunctor (List I) τ (Action σ (Failure ε) R)} {returnType : List I → τ}
  {context : String} {dimension : Dimension I V} {dimensions : List (Dimension I V)}
  {values before keys : List Key} {key : Key} {items resolved : List I} {i : I} {index : ℕ}

/-- An allowed item for each key: its value is that of the key in the value type. -/
inductive Resolved (T : ValueType I V) : List (Dimension I V) → List Key → List I → Prop
  | nil : Resolved T [] [] []
  | cons {dimension : Dimension I V} {dimensions : List (Dimension I V)} {key : Key}
      {keys : List Key} {i : I} {resolved : List I} :
      i ∈ dimension.allowed → T.ofItem i = dimension.cast key →
      Resolved T dimensions keys resolved →
      Resolved T (dimension :: dimensions) (key :: keys) (i :: resolved)

omit [DecidableEq I] [DecidableEq V] in
/-- Dimensions and keys that come from one list are resolved side by side. -/
theorem resolved_map_iff {L : Type} {dimension : L → Dimension I V} {key : L → Key} {ls : List L} :
    Resolved T (ls.map dimension) (ls.map key) resolved ↔
      List.Forall₂ (fun l i => i ∈ (dimension l).allowed ∧ T.ofItem i = (dimension l).cast (key l))
        ls resolved := by
  constructor
  · intro h
    induction ls generalizing resolved with
    | nil =>
      cases h
      exact .nil
    | cons l ls ih =>
      cases h with
      | cons hmem hvalue h => exact .cons ⟨hmem, hvalue⟩ (ih h)
  · intro h
    induction h with
    | nil => exact .nil
    | cons hitem _ ih => exact .cons hitem.1 hitem.2 ih

/-- What becomes of a result on its way out through the dimensions, the last one first. -/
def convertThrough (C : ReturnTypes τ R) (returnType : List I → τ) :
    List (Dimension I V) → List I → List I → R → R
  | dimension :: rest, items, i :: resolved, r =>
    C.convert (multiReturnType C returnType (dimension :: rest) items)
      (convertThrough C returnType rest (items ++ [i]) resolved r)
  | _, _, _, r => r

theorem valueAt_append :
    (valueAt (before ++ key :: keys) before.length : Action σ (Failure ε) Key) =
    pure key := by
  simp [valueAt]

/-- One dimension whose key has an item goes on with the next. -/
theorem multiDispatch_cons_of_mem (hmem : i ∈ dimension.allowed)
    (hvalue : T.ofItem i = dimension.cast key) :
    multiDispatch C T func context (before ++ key :: keys) before.length
        (dimension :: dimensions) items =
      C.convert (multiReturnType C func.returnType (dimension :: dimensions) items) <$>
        multiDispatch C T func context (before ++ key :: keys) (before.length + 1) dimensions
          (items ++ [i]) := by
  rw [multiDispatch, valueAt_append, Action.pure_bind, dispatchFunc_of_mem hmem rfl hvalue]
  rfl

/-- One dimension whose key has no item ends the dispatch. -/
theorem multiDispatch_cons_of_not_mem
    (hnone : ∀ i ∈ dimension.allowed, T.ofItem i ≠ dimension.cast key) :
    ∃ message, multiDispatch C T func context (before ++ key :: keys) before.length
      (dimension :: dimensions) items = throw (.aborted message) := by
  rw [multiDispatch, valueAt_append, Action.pure_bind]
  exact dispatchFunc_of_not_mem fun i hi _ => hnone i hi

/-- **Every key has an item.** -/
theorem multiDispatch_of_resolved (before : List Key) (items : List I)
    (h : Resolved T dimensions keys resolved) :
    multiDispatch C T func context (before ++ keys) before.length dimensions items =
      convertThrough C func.returnType dimensions items resolved <$>
        func.call (items ++ resolved) := by
  induction h generalizing before items with
  | nil =>
    rw [List.append_nil, List.append_nil, multiDispatch]
    exact (Action.map_id _).symm
  | @cons dimension dimensions key keys i resolved hmem hvalue h ih =>
    rw [multiDispatch_cons_of_mem hmem hvalue]
    have ih' := ih (before ++ [key]) (items ++ [i])
    rw [List.append_assoc, List.append_assoc, List.length_append] at ih'
    exact (congrArg _ ih').trans (Action.map_map _ _ _)

/-- **Some key has no item.** -/
theorem multiDispatch_of_unresolved (before : List Key) (items : List I)
    (hlength : keys.length = dimensions.length)
    (hnone : ∀ resolved, ¬ Resolved T dimensions keys resolved) :
    ∃ message, multiDispatch C T func context (before ++ keys) before.length dimensions items =
      throw (.aborted message) := by
  induction dimensions generalizing keys before items with
  | nil =>
    obtain rfl := List.length_eq_zero_iff.1 hlength
    exact absurd .nil (hnone [])
  | cons dimension dimensions ih =>
    rcases keys with _ | ⟨key, keys⟩
    · cases hlength
    · by_cases hi : ∃ i ∈ dimension.allowed, T.ofItem i = dimension.cast key
      · obtain ⟨i, hmem, hvalue⟩ := hi
        obtain ⟨message, ih'⟩ := ih (before ++ [key]) (items ++ [i])
          (Nat.succ.inj hlength) fun resolved h => hnone (i :: resolved) (.cons hmem hvalue h)
        rw [List.append_assoc, List.length_append] at ih'
        refine ⟨message, ?_⟩
        rw [multiDispatch_cons_of_mem hmem hvalue]
        exact (congrArg _ ih').trans (Action.map_throw _ _)
      · exact multiDispatch_cons_of_not_mem fun i hmem hvalue => hi ⟨i, hmem, hvalue⟩

end

/-! ### Counting the calls -/

section

variable {K τ R σ ε : Type} {func : TagFunctor K τ (Action σ ε R)} {k : K} {convert : R → R}

/-- The state of a program, and the tags its functor was called with, the oldest first. -/
structure Journal (K σ : Type) where
  calls : List K
  state : σ

/-- The functor with its calls noted. -/
def TagFunctor.noted (func : TagFunctor K τ (Action σ ε R)) :
    TagFunctor K τ (Action (Journal K σ) (Failure ε) R) where
  isInvocable := func.isInvocable
  returnType := func.returnType
  call k := fun s => (((func.call k).run s.state).1.mapError .thrown,
    ⟨s.calls ++ [k], ((func.call k).run s.state).2⟩)

/-- On `s` the functor is called once and with `k`, and its result is converted and returned. -/
def CallsOnce (func : TagFunctor K τ (Action σ ε R)) (k : K) (convert : R → R)
    (x : Action (Journal K σ) (Failure ε) R) (s : Journal K σ) : Prop :=
  x.run s = ((((func.call k).run s.state).1.map convert).mapError .thrown,
    ⟨s.calls ++ [k], ((func.call k).run s.state).2⟩)

/-- On `s` the program aborts, and the functor is not called. -/
def Aborts (x : Action (Journal K σ) (Failure ε) R) (s : Journal K σ) : Prop :=
  ∃ message, x.run s = (.error (.aborted message), s)

theorem callsOnce_map (func : TagFunctor K τ (Action σ ε R)) (k : K) (convert : R → R)
    (s : Journal K σ) : CallsOnce func k convert (convert <$> func.noted.call k) s := by
  have hnoted : (func.noted.call k).run s = (((func.call k).run s.state).1.mapError .thrown,
      ⟨s.calls ++ [k], ((func.call k).run s.state).2⟩) := rfl
  rw [CallsOnce, Action.map_eq_bind]
  cases hbody : ((func.call k).run s.state).1 with
  | ok r =>
    rw [hbody] at hnoted
    exact Action.run_bind_ok hnoted
  | error e =>
    rw [hbody] at hnoted
    exact Action.run_bind_error hnoted

theorem aborts_throw (message : String) (s : Journal K σ) :
    Aborts (throw (.aborted message) : Action (Journal K σ) (Failure ε) R) s :=
  ⟨message, rfl⟩

/-- A dispatch that calls the functor does not count as one that does not. -/
theorem CallsOnce.not_aborts {x : Action (Journal K σ) (Failure ε) R} {s : Journal K σ}
    (h : CallsOnce func k convert x s) : ¬ Aborts x s := by
  rintro ⟨message, hrun⟩
  have hcalls : s.calls ++ [k] = s.calls :=
    congrArg (fun y => y.2.calls) ((Eq.symm h).trans hrun)
  exact List.cons_ne_nil k [] (List.append_right_eq_self.1 hcalls)

end

/-! ### The calls of a dispatch -/

section

variable {I V K τ R σ ε : Type} [DecidableEq I] [DecidableEq V] [DecidableEq τ]
  {C : ReturnTypes τ R} {T : ValueType I V} {func : TagFunctor K τ (Action σ ε R)} {k : K}
  {value : V} {context : String} {all : List I} {i : I} {dimensions : List (Dimension I V)}
  {keys : List Key} {resolved : List I}

/-- The adapter calls the functor with `k` where the dispatch calls the adapter with `i`. -/
theorem dispatchFunc_callsOnce {adapter : TagFunctor I τ (Action (Journal K σ) (Failure ε) R)}
    (hcall : adapter.call i = func.noted.call k) (hmem : i ∈ all)
    (hi : adapter.isInvocable i = true) (hvalue : T.ofItem i = value) (s : Journal K σ) :
    CallsOnce func k (C.convert (resultType C adapter.isInvocable adapter.returnType all))
      (dispatchFunc C T value adapter context all) s := by
  rw [dispatchFunc_of_mem hmem hi hvalue, hcall]
  exact callsOnce_map _ _ _ _

theorem dispatchFunc_aborts {adapter : TagFunctor I τ (Action (Journal K σ) (Failure ε) R)}
    (hnone : ∀ i ∈ all, adapter.isInvocable i = true → T.ofItem i ≠ value) (s : Journal K σ) :
    Aborts (dispatchFunc C T value adapter context all) s := by
  obtain ⟨message, hrun⟩ := dispatchFunc_of_not_mem hnone
  rw [hrun]
  exact aborts_throw message s

theorem multiDispatch_callsOnce
    {adapter : TagFunctor (List I) τ (Action (Journal K σ) (Failure ε) R)}
    (hcall : adapter.call resolved = func.noted.call k) (h : Resolved T dimensions keys resolved)
    (s : Journal K σ) :
    CallsOnce func k (convertThrough C adapter.returnType dimensions [] resolved)
      (multiDispatch C T adapter context keys 0 dimensions []) s := by
  have hrun : multiDispatch C T adapter context keys 0 dimensions [] =
      convertThrough C adapter.returnType dimensions [] resolved <$> adapter.call resolved :=
    multiDispatch_of_resolved [] [] h
  rw [hrun, hcall]
  exact callsOnce_map _ _ _ _

/-- Some key has no item. -/
theorem multiDispatch_aborts {adapter : TagFunctor (List I) τ (Action (Journal K σ) (Failure ε) R)}
    {L : Type} {dimension : L → Dimension I V} {key : L → Key} {ls : List L}
    (hnone : ∃ l ∈ ls, ∀ i ∈ (dimension l).allowed, T.ofItem i ≠ (dimension l).cast (key l))
    (s : Journal K σ) :
    Aborts (multiDispatch C T adapter context (ls.map key) 0 (ls.map dimension) []) s := by
  obtain ⟨l, hl, hnone⟩ := hnone
  have hunresolved : ∀ resolved, ¬ Resolved T (ls.map dimension) (ls.map key) resolved := by
    intro resolved h
    have hexists := (resolved_map_iff.1 h).imp fun l i hi =>
      And.intro (show ∃ i ∈ (dimension l).allowed, T.ofItem i = (dimension l).cast (key l) from
        ⟨i, hi⟩) hi
    obtain ⟨i, hmem, hvalue⟩ := ((List.forall₂_and_left _ _).1 hexists).1 l hl
    exact hnone i hmem hvalue
  obtain ⟨message, hrun⟩ : ∃ message, multiDispatch C T adapter context (ls.map key) 0
      (ls.map dimension) [] = throw (.aborted message) :=
    multiDispatch_of_unresolved [] [] (by simp) hunresolved
  rw [hrun]
  exact aborts_throw message s

end

end InfiniRT.Dispatch
