import InfiniRT.Dispatch.DispatcherSteps
import InfiniRT.Library.IntegralTypes

/-!
# Keys of type `std::int64_t`

Each dimension is a `List` of integral constants.  A key is cast to their common type before it is
compared, and the cast is allowed to change it.  Proved:

* **`Allows.matches`** — a key that is allowed is found;
* **`dispatchKeys_routesByValue_iff`** — the exact condition under which keys are routed by value.
-/

namespace InfiniRT.Dispatch

open InfiniRT.Library (Action Platform IntegralType Constant)

/-- `List<allowed...>`.  Each constant is a value of the common type: a template argument of this
type is not made from one that is not. -/
structure IntegralList (P : Platform) where
  head : Constant P
  tail : List (Constant P)
  hasValue : ∀ c ∈ head :: tail,
    (IntegralType.commonType P head.type (tail.map Constant.type)).HasValue P c.value

namespace IntegralList

variable {P : Platform} {L : IntegralList P} {key : Key} {c : Constant P}

/-- The constants as they are written. -/
def constants (L : IntegralList P) : List (Constant P) := L.head :: L.tail

/-- `EnumType`. -/
def enumType (L : IntegralList P) : IntegralType :=
  IntegralType.commonType P L.head.type (L.tail.map Constant.type)

/-- `static_cast<EnumType>(key)`. -/
def cast (L : IntegralList P) (key : Key) : Constant P := Constant.ofInt P L.enumType key.toInt

/-- The constants as arguments of type `EnumType`. -/
def dimension (L : IntegralList P) : Dimension (Constant P) (Constant P) where
  cast := L.cast
  allowed := L.constants.map fun c => Constant.ofInt P L.enumType c.value
  allowed_ne_nil := by simp [constants]

/-- The key is numerically equal to some value of the list. -/
def Allows (L : IntegralList P) (key : Key) : Prop := ∃ c ∈ L.constants, c.value = key.toInt

/-- The key after its cast is equal to some value of the list. -/
def Matches (L : IntegralList P) (key : Key) : Prop :=
  ∃ c ∈ L.constants, c.value = L.enumType.convert P key.toInt

instance : Decidable (L.Allows key) :=
  inferInstanceAs (Decidable (∃ c ∈ L.constants, c.value = key.toInt))

instance : Decidable (L.Matches key) :=
  inferInstanceAs (Decidable (∃ c ∈ L.constants, c.value = L.enumType.convert P key.toInt))

theorem convert_value (hc : c ∈ L.constants) : L.enumType.convert P c.value = c.value :=
  L.hasValue c hc

/-- A value of the list is compared with a key by number. -/
theorem ofInt_eq_cast_iff (hc : c ∈ L.constants) :
    Constant.ofInt P L.enumType c.value = L.cast key ↔
      c.value = L.enumType.convert P key.toInt := by
  constructor
  · intro h
    calc c.value = L.enumType.convert P c.value := (convert_value hc).symm
      _ = L.enumType.convert P key.toInt := congrArg Constant.value h
  · intro h
    exact Constant.ext rfl ((convert_value hc).trans h)

/-- The cast of a key is an allowed argument exactly when the key matches. -/
theorem cast_mem_allowed_iff : L.cast key ∈ L.dimension.allowed ↔ L.Matches key := by
  rw [dimension, List.mem_map]
  constructor
  · rintro ⟨c, hc, heq⟩
    exact ⟨c, hc, (ofInt_eq_cast_iff hc).1 heq⟩
  · rintro ⟨c, hc, heq⟩
    exact ⟨c, hc, (ofInt_eq_cast_iff hc).2 heq⟩

/-- A key that is allowed is not changed by the cast. -/
theorem Allows.hasValue (h : L.Allows key) : L.enumType.HasValue P key.toInt := by
  obtain ⟨c, hc, heq⟩ := h
  exact heq ▸ L.hasValue c hc

theorem Allows.matches (h : L.Allows key) : L.Matches key := by
  obtain ⟨c, hc, heq⟩ := h
  exact ⟨c, hc, by rw [← heq, convert_value hc]⟩

/-- A key that the cast does not change matches only if it is allowed. -/
theorem Matches.allows (h : L.Matches key) (hkey : L.enumType.HasValue P key.toInt) :
    L.Allows key := by
  obtain ⟨c, hc, heq⟩ := h
  exact ⟨c, hc, heq.trans hkey⟩

end IntegralList

section

variable {P : Platform} {τ R σ ε : Type} [DecidableEq τ]
  {lists : List (IntegralList P × Key)}

/-- An integral value type. -/
def constantType (P : Platform) : ValueType (Constant P) (Constant P) where
  ofItem c := c
  ofItem_injective := Function.injective_id
  toInt c := IntegralType.int.convert P c.value
  toInt64 c := IntegralType.long.convert P c.value

/-- `DispatchFunc(std::initializer_list<std::int64_t>, ...)`: the lists, and one key for each. -/
def dispatchKeys (C : ReturnTypes τ R)
    (func : TagFunctor (List (Constant P)) τ (Action σ (Failure ε) R)) (context : String)
    (lists : List (IntegralList P × Key)) : Action σ (Failure ε) R :=
  multiDispatch C (constantType P) func context (lists.map Prod.snd) 0
    (lists.map fun l => l.1.dimension) []

/-- No key is misrouted: if each is numerically equal to some value of its list, the functor is
called once and with these values; if one is not, the functor is not called and the dispatch
aborts. -/
structure RoutesByValue (C : ReturnTypes τ R)
    (func : TagFunctor (List (Constant P)) τ (Action σ ε R)) (context : String)
    (lists : List (IntegralList P × Key)) (s : Journal (List (Constant P)) σ) : Prop where
  calls : (∀ l ∈ lists, l.1.Allows l.2) →
    ∃ items : List (Constant P), items.map Constant.value = lists.map (fun l => l.2.toInt) ∧
      List.Forall₂ (fun l item => item ∈ l.1.dimension.allowed) lists items ∧
      CallsOnce func items
        (convertThrough C func.returnType (lists.map fun l => l.1.dimension) [] items)
        (dispatchKeys C func.noted context lists) s
  aborts : (∃ l ∈ lists, ¬ l.1.Allows l.2) → Aborts (dispatchKeys C func.noted context lists) s

theorem forall₂_cast (h : ∀ l ∈ lists, l.1.Matches l.2) :
    List.Forall₂ (fun l item => item ∈ l.1.dimension.allowed ∧ item = l.1.cast l.2) lists
      (lists.map fun l => l.1.cast l.2) := by
  rw [List.forall₂_map_right_iff, List.forall₂_same]
  exact fun l hl => ⟨IntegralList.cast_mem_allowed_iff.2 (h l hl), rfl⟩

/-- Every key matches: the functor is called with the casts of the keys. -/
theorem dispatchKeys_callsOnce (C : ReturnTypes τ R)
    (func : TagFunctor (List (Constant P)) τ (Action σ ε R)) (context : String)
    (h : ∀ l ∈ lists, l.1.Matches l.2) (s : Journal (List (Constant P)) σ) :
    CallsOnce func (lists.map fun l => l.1.cast l.2)
      (convertThrough C func.returnType (lists.map fun l => l.1.dimension) []
        (lists.map fun l => l.1.cast l.2))
      (dispatchKeys C func.noted context lists) s :=
  multiDispatch_callsOnce rfl (resolved_map_iff.2 (forall₂_cast h)) s

/-- Some key does not match: the functor is not called. -/
theorem dispatchKeys_aborts (C : ReturnTypes τ R)
    (func : TagFunctor (List (Constant P)) τ (Action σ ε R)) (context : String)
    (h : ∃ l ∈ lists, ¬ l.1.Matches l.2) (s : Journal (List (Constant P)) σ) :
    Aborts (dispatchKeys C func.noted context lists) s := by
  obtain ⟨l, hl, hmatches⟩ := h
  have hnone : ∀ item ∈ l.1.dimension.allowed, item ≠ l.1.cast l.2 := fun item hmem heq =>
    hmatches (IntegralList.cast_mem_allowed_iff.1 (heq ▸ hmem))
  exact multiDispatch_aborts ⟨l, hl, hnone⟩ s

theorem map_cast_value (h : ∀ l ∈ lists, l.1.enumType.HasValue P l.2.toInt) :
    (lists.map fun l => l.1.cast l.2).map Constant.value = lists.map fun l => l.2.toInt := by
  rw [List.map_map]
  exact List.map_congr_left h

/-- Whatever the keys, no key is misrouted exactly if some key does not match after its cast or no
key is changed by it. -/
theorem dispatchKeys_routesByValue_iff (C : ReturnTypes τ R)
    (func : TagFunctor (List (Constant P)) τ (Action σ ε R)) (context : String)
    (lists : List (IntegralList P × Key)) (s : Journal (List (Constant P)) σ) :
    RoutesByValue C func context lists s ↔
      (∃ l ∈ lists, ∀ c ∈ l.1.constants, c.value ≠ l.1.enumType.convert P l.2.toInt) ∨
        ∀ l ∈ lists, l.1.enumType.HasValue P l.2.toInt := by
  constructor
  · intro h
    by_cases hmatches : ∀ l ∈ lists, l.1.Matches l.2
    · -- The functor is called, so the second half of the property has nothing to say.
      have hcalls := dispatchKeys_callsOnce C func context hmatches s
      refine .inr fun l hl => ?_
      by_contra hvalue
      have hallows : ¬ l.1.Allows l.2 := fun ha => hvalue ha.hasValue
      exact hcalls.not_aborts (h.aborts ⟨l, hl, hallows⟩)
    · obtain ⟨l, hl⟩ := Classical.not_forall.1 hmatches
      obtain ⟨hl, hnot⟩ := Classical.not_imp.1 hl
      exact .inl ⟨l, hl, fun c hc heq => hnot ⟨c, hc, heq⟩⟩
  · rintro (⟨l, hl, hnone⟩ | hvalue)
    · have hnot : ¬ l.1.Matches l.2 := fun ⟨c, hc, heq⟩ => hnone c hc heq
      exact
        { calls := fun hallows => absurd (hallows l hl).matches hnot
          aborts := fun _ => dispatchKeys_aborts C func context ⟨l, hl, hnot⟩ s }
    · exact
        { calls := fun hallows =>
            have hmatches : ∀ l ∈ lists, l.1.Matches l.2 := fun l hl => (hallows l hl).matches
            ⟨_, map_cast_value hvalue, (forall₂_cast hmatches).imp fun _ _ hitem => hitem.1,
              dispatchKeys_callsOnce C func context hmatches s⟩
          aborts := fun ⟨l, hl, hallows⟩ =>
            dispatchKeys_aborts C func context
              ⟨l, hl, fun hmatches => hallows (hmatches.allows (hvalue l hl))⟩ s }

end

/-- `List<1>`, whose only value is an `int`. -/
def listOfOne : IntegralList ⟨true, true⟩ where
  head := Constant.ofInt _ .int 1
  tail := []
  hasValue := by decide

/-- A functor that returns nothing. -/
def noResult : TagFunctor (List (Constant ⟨true, true⟩)) Unit (Action Unit Empty Unit) where
  isInvocable _ := true
  returnType _ := ()
  call _ := pure ()

/-- The key `2^32 + 1` is not in the list of `1`, and the functor is called with `1`. -/
theorem dispatchKeys_wraps :
    ¬ RoutesByValue ⟨(), fun _ => (), fun _ _ => (), fun _ => rfl⟩ noResult ""
      [(listOfOne, 4294967297#64)] ⟨[], ()⟩ := by
  intro h
  have hallows : ¬ listOfOne.Allows 4294967297#64 := by decide
  have hmatches : ∀ l ∈ [(listOfOne, 4294967297#64)], l.1.Matches l.2 := by decide
  exact (dispatchKeys_callsOnce _ noResult "" hmatches ⟨[], ()⟩).not_aborts
    (h.aborts ⟨_, List.mem_cons_self, hallows⟩)

end InfiniRT.Dispatch
