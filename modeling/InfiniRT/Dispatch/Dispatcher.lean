import InfiniRT.Library.Action
import Mathlib.Data.BitVec
import Mathlib.Data.List.Basic

/-!
# The dispatcher

`DispatchFunc` takes values known at run time to a functor that is called with tags, each a template
argument.  The single form keeps the allowed values the functor can be called with and tries them
one after another; the form for several dimensions resolves one after another and appends what it
found.  What a program passes on besides goes to the functor as it is and counts as part of it.

The compiler chooses the type a dispatch returns from the first allowed value.  The types and how a
value is converted to one are parameters.  The main definitions:

* **`filter`** — the values that the functor can be called with;
* **`dispatchFunc`** — the form for one value;
* **`multiDispatch`** — the form for several dimensions, one after another.
-/

namespace InfiniRT.Dispatch

open InfiniRT.Library (Action)

/-- A key of several dimensions, `std::int64_t`. -/
abbrev Key := BitVec 64

/-- How a dispatch ends without a value. -/
inductive Failure (ε : Type)
  /-- `std::abort`, after a message to `std::cerr`. -/
  | aborted (message : String)
  /-- `std::out_of_range`. -/
  | outOfRange
  /-- What the functor ended with. -/
  | thrown (e : ε)
  deriving DecidableEq, Repr

/-- The types that functors return.  A value converted to `void` is dropped. -/
structure ReturnTypes (τ R : Type) where
  void : τ
  typeOf : R → τ
  convert : τ → R → R
  convert_typeOf : ∀ r, convert (typeOf r) r = r

/-- A functor that is called with a tag. -/
structure TagFunctor (K τ α : Type) where
  /-- `IsInvocableValue`. -/
  isInvocable : K → Bool
  returnType : K → τ
  call : K → α

/-- `ValueType`: the value of an item, which differs from item to item, and the casts of a value. -/
structure ValueType (I V : Type) where
  ofItem : I → V
  ofItem_injective : Function.Injective ofItem
  toInt : V → ℤ
  toInt64 : V → ℤ

/-- One dimension: `static_cast<EnumType>` of a key, and the allowed items. -/
structure Dimension (I V : Type) where
  cast : Key → V
  allowed : List I
  allowed_ne_nil : allowed ≠ []

/-! ### Filtering -/

section

variable {I : Type} [DecidableEq I]

/-- `ContainsValue<List<items...>, value>`. -/
def containsValue (items : List I) (value : I) : Bool := items.any fun item => value = item

/-- `Filter<Functor, Args, List<filtered...>, remaining...>`. -/
def filter (isInvocable : I → Bool) : List I → List I → List I
  | filtered, [] => filtered
  | filtered, head :: tail =>
    if isInvocable head && !containsValue filtered head then
      filter isInvocable (filtered ++ [head]) tail
    else filter isInvocable filtered tail

end

/-! ### One value -/

section

variable {I V τ R σ ε : Type} [DecidableEq I] [DecidableEq V] [DecidableEq τ]

/-- The type a dispatch returns: what the functor returns for the first item that is left. -/
def resultType (C : ReturnTypes τ R) (isInvocable : I → Bool) (returnType : I → τ)
    (allValues : List I) : τ :=
  match filter isInvocable [] allValues with
  | [] => C.void
  | head :: _ => returnType head

/-- The operands of the fold,
`value == items ? (result.emplace(func(ValueTag<items>{})), true) : false`: the first that holds is
the last that is evaluated. -/
def callMatching (C : ReturnTypes τ R) (T : ValueType I V)
    (func : TagFunctor I τ (Action σ (Failure ε) R)) (returnType : τ) (value : V) :
    List I → Action σ (Failure ε) (Option R)
  | [] => pure none
  | item :: items =>
    if value = T.ofItem item then do
      let r ← func.call item
      return some (C.convert returnType r)
    else callMatching C T func returnType value items

/-- The message for a value that no item has. -/
def unsupportedMessage (isVoid : Bool) (value : ℤ) (context : String) : String :=
  (if isVoid then "dispatch error (void): value " else "dispatch error (non-void): value ") ++
    toString value ++ " not supported in the context: " ++ context ++ "\n"

/-- The message of the specialization for no items. -/
def noValuesMessage (value : ℤ) (context : String) : String :=
  "dispatch error: no allowed values registered for value " ++ toString value ++
    " in the context: " ++ context ++ "\n"

/-- `detail::DispatchFuncImpl`.  The fold tests the tail first and the head last. -/
def dispatchFuncImpl (C : ReturnTypes τ R) (T : ValueType I V) (value : V)
    (func : TagFunctor I τ (Action σ (Failure ε) R)) (context : String) (head : I)
    (tail : List I) : Action σ (Failure ε) R := do
  let returnType := func.returnType head
  match ← callMatching C T func returnType value (tail ++ [head]) with
  | some result => return result
  | none =>
    throw (.aborted (unsupportedMessage (decide (returnType = C.void)) (T.toInt value) context))

/-- `detail::DispatchFuncUnwrap::Call`. -/
def dispatchFuncUnwrap (C : ReturnTypes τ R) (T : ValueType I V) (value : V)
    (func : TagFunctor I τ (Action σ (Failure ε) R)) (context : String) :
    List I → Action σ (Failure ε) R
  | [] => throw (.aborted (noValuesMessage (T.toInt64 value) context))
  | head :: tail => dispatchFuncImpl C T value func context head tail

/-- `DispatchFunc`, for one value. -/
def dispatchFunc (C : ReturnTypes τ R) (T : ValueType I V) (value : V)
    (func : TagFunctor I τ (Action σ (Failure ε) R)) (context : String) (allValues : List I) :
    Action σ (Failure ε) R :=
  dispatchFuncUnwrap C T value func context (filter func.isInvocable [] allValues)

/-! ### Several dimensions -/

/-- The type the dispatch of the remaining dimensions returns. -/
def multiReturnType (C : ReturnTypes τ R) (returnType : List I → τ) :
    List (Dimension I V) → List I → τ
  | [], items => returnType items
  | dimension :: rest, items =>
    resultType C (fun _ => true) (fun val => multiReturnType C returnType rest (items ++ [val]))
      dimension.allowed

/-- `values.at(index)`. -/
def valueAt (values : List Key) (index : ℕ) : Action σ (Failure ε) Key :=
  match values[index]? with
  | some value => pure value
  | none => throw .outOfRange

/-- `MultiDispatchRecurseAdapter`: the next dimension is dispatched with one more item.  It can be
called with every item. -/
def multiDispatchRecurseAdapter (nextType : List I → τ) (next : List I → Action σ (Failure ε) R)
    (items : List I) : TagFunctor I τ (Action σ (Failure ε) R) where
  isInvocable _ := true
  returnType val := nextType (items ++ [val])
  call val := next (items ++ [val])

/-- `DispatchFunc` and `MultiDispatchFirstDim`, from the dimension `index` on. -/
def multiDispatch (C : ReturnTypes τ R) (T : ValueType I V)
    (func : TagFunctor (List I) τ (Action σ (Failure ε) R)) (context : String)
    (values : List Key) : ℕ → List (Dimension I V) → List I → Action σ (Failure ε) R
  | _, [], items => func.call items
  | index, dimension :: rest, items => do
    let value ← valueAt values index
    dispatchFunc C T (dimension.cast value)
      (multiDispatchRecurseAdapter (multiReturnType C func.returnType rest)
        (fun next => multiDispatch C T func context values (index + 1) rest next) items)
      context dimension.allowed

end

end InfiniRT.Dispatch
