import InfiniRT.Tensor.TensorView

/-!
# The selected device

The generated dispatch keeps the type of one backend for each thread, and every backend keeps a
current device of its own.  `SetDevice` and `GetDevice` reach the selected backend.  The backends
are parameters: what one answers may depend on everything that happened on the thread before.
The main definitions:

* **`Backends`** — which backends are enabled, and what they answer;
* **`Thread`** — what one thread has selected, with its events;
* **`setDevice`** — `SetDevice`, with `getDevice` and `setRuntimeDeviceType`;
* **`Backends.Cooperates`** — what a backend promises.
-/

namespace InfiniRT.Device

open InfiniRT.Library (Action Fault)
open InfiniRT.Tensor (DeviceType)

/-- A value of `Device::Type`, which any `int` can be cast to. -/
abbrev RawType := BitVec 32

/-- The value of an enumerator. -/
def typeValue : DeviceType → RawType
  | .cpu => 0#32
  | .nvidia => 1#32
  | .cambricon => 2#32
  | .ascend => 3#32
  | .metax => 4#32
  | .moore => 5#32
  | .iluvatar => 6#32
  | .hygon => 7#32
  | .thead => 8#32
  | .mars => 9#32

/-- `AllDeviceTypes`. -/
def allDeviceTypes : List DeviceType :=
  [.cpu, .nvidia, .cambricon, .ascend, .metax, .moore, .iluvatar, .hygon, .thead, .mars]

theorem mem_allDeviceTypes (t : DeviceType) : t ∈ allDeviceTypes := by
  cases t <;> decide

theorem typeValue_injective : Function.Injective typeValue := by
  intro t t' h
  cases t <;> cases t' <;> first | rfl | cases h

/-- `runtime::Error`. -/
abbrev Error := ℤ

/-- `kSuccess`. -/
def kSuccess : Error := 0

/-- What happened on a thread.  A call of `SetDevice` has the device that was current before it and
the one that is current after it. -/
inductive Event
  | select (type : DeviceType)
  | setDevice (backend : DeviceType) (index : ℤ) (status : Error) (before after : ℤ)
  | getDevice (backend : DeviceType) (status : Error)
  | print (text : String)
  deriving DecidableEq, Repr

/-- A build: its backends, and whether assertions are checked. -/
structure Backends where
  /-- `DeviceEnabled`. -/
  enabled : DeviceType → Bool
  asserts : Bool
  /-- The status of `SetDevice` and the device that is current after it. -/
  setDevice : DeviceType → List Event → (current index : ℤ) → Error × ℤ
  /-- The status of `GetDevice` and what it stores, if it stores anything. -/
  getDevice : DeviceType → List Event → (current : ℤ) → Error × Option ℤ

/-- What a thread has selected, and what happened on it, the oldest first. -/
structure Thread (B : Backends) where
  /-- `runtime_device_type_`. -/
  selected : DeviceType
  selected_enabled : B.enabled selected = true
  current : DeviceType → ℤ
  events : List Event

variable {B : Backends} {s s' s'' : Thread B} {t : DeviceType} {type : RawType} {i : ℤ}

namespace Backends

/-- `((type == types && DeviceEnabled<types>::value) || ...)`. -/
def enabledType (B : Backends) (type : RawType) : Bool :=
  allDeviceTypes.any fun t => type == typeValue t && B.enabled t

/-- The case of a `switch` over the enabled types. -/
def case (B : Backends) (type : RawType) : Option { t : DeviceType // B.enabled t = true } :=
  allDeviceTypes.findSome? fun t =>
    if h : B.enabled t = true ∧ typeValue t = type then some ⟨t, h.1⟩ else none

theorem enabledType_eq_true_iff :
    B.enabledType type = true ↔ ∃ t, B.enabled t = true ∧ typeValue t = type := by
  simp only [enabledType, List.any_eq_true, Bool.and_eq_true, beq_iff_eq]
  constructor
  · rintro ⟨t, -, hvalue, henabled⟩
    exact ⟨t, henabled, hvalue.symm⟩
  · rintro ⟨t, henabled, hvalue⟩
    exact ⟨t, mem_allDeviceTypes t, hvalue.symm, henabled⟩

theorem case_typeValue (h : B.enabled t = true) : B.case (typeValue t) = some ⟨t, h⟩ := by
  have hmem := mem_allDeviceTypes t
  cases hcase : B.case (typeValue t) with
  | none =>
    have hnone := List.findSome?_eq_none_iff.mp hcase t hmem
    rw [dif_pos ⟨h, rfl⟩] at hnone
    cases hnone
  | some found =>
    obtain ⟨t', -, hfound⟩ := List.exists_of_findSome?_eq_some hcase
    split at hfound
    · next heq =>
      obtain rfl := typeValue_injective heq.2
      exact hfound.symm
    · cases hfound

end Backends

/-! ### Operations -/

namespace Thread

/-- The selected type and the current device of its backend. -/
def visible (s : Thread B) : DeviceType × ℤ := (s.selected, s.current s.selected)

def record (s : Thread B) (e : Event) : Thread B := { s with events := s.events ++ [e] }

def select (s : Thread B) (t : DeviceType) (h : B.enabled t = true) : Thread B :=
  { s with selected := t, selected_enabled := h, events := s.events ++ [.select t] }

/-- The answer of the selected backend to `SetDevice`. -/
def setAnswer (s : Thread B) (index : ℤ) : Error × ℤ :=
  B.setDevice s.selected s.events (s.current s.selected) index

/-- After a call of `SetDevice`. -/
def moved (s : Thread B) (index : ℤ) : Thread B :=
  { s with
    current := Function.update s.current s.selected (s.setAnswer index).2
    events := s.events ++ [.setDevice s.selected index (s.setAnswer index).1
      (s.current s.selected) (s.setAnswer index).2] }

/-- The answer of the selected backend to `GetDevice`. -/
def getAnswer (s : Thread B) : Error × Option ℤ :=
  B.getDevice s.selected s.events (s.current s.selected)

@[simp] theorem record_selected (s : Thread B) (e : Event) :
    (s.record e).selected = s.selected := rfl

@[simp] theorem record_current (s : Thread B) (e : Event) : (s.record e).current = s.current := rfl

@[simp] theorem record_events (s : Thread B) (e : Event) :
    (s.record e).events = s.events ++ [e] := rfl

@[simp] theorem select_selected (s : Thread B) (h : B.enabled t = true) :
    (s.select t h).selected = t := rfl

@[simp] theorem select_current (s : Thread B) (h : B.enabled t = true) :
    (s.select t h).current = s.current := rfl

@[simp] theorem select_events (s : Thread B) (h : B.enabled t = true) :
    (s.select t h).events = s.events ++ [.select t] := rfl

@[simp] theorem moved_selected (s : Thread B) (i : ℤ) : (s.moved i).selected = s.selected := rfl

@[simp] theorem moved_current (s : Thread B) (i : ℤ) :
    (s.moved i).current = Function.update s.current s.selected (s.setAnswer i).2 := rfl

@[simp] theorem moved_events (s : Thread B) (i : ℤ) : (s.moved i).events = s.events ++
    [.setDevice s.selected i (s.setAnswer i).1 (s.current s.selected) (s.setAnswer i).2] := rfl

end Thread

/-- `runtime_device_type`. -/
def runtimeDeviceType : Action (Thread B) Fault RawType := do
  return typeValue (← get).selected

/-- `set_runtime_device_type`. -/
def setRuntimeDeviceType (type : RawType) : Action (Thread B) Fault Unit := do
  match B.case type with
  | some ⟨t, h⟩ => modify (·.select t h)
  | none => if B.asserts then throw .abort

/-- `runtime::SetDevice`. -/
def setDevice (index : ℤ) : Action (Thread B) Fault Error := do
  let s ← get
  set (s.moved index)
  return (s.setAnswer index).1

/-- `runtime::GetDevice`. -/
def getDevice : Action (Thread B) Fault (Error × Option ℤ) := do
  let s ← get
  set (s.record (.getDevice s.selected s.getAnswer.1))
  return s.getAnswer

theorem run_setRuntimeDeviceType (h : B.enabled t = true) :
    (setRuntimeDeviceType (typeValue t)).run s = (.ok (), s.select t h) := by
  rw [setRuntimeDeviceType, Backends.case_typeValue h]
  rfl

/-! ### Devices that were current -/

/-- The device is current for the backend, or was. -/
def Thread.WasCurrent (s : Thread B) (t : DeviceType) (i : ℤ) : Prop :=
  s.current t = i ∨ ∃ index status after, Event.setDevice t index status i after ∈ s.events

/-- What is assumed of the backends: `GetDevice` reports the current device if it succeeds, and a
device that was current can be made current again. -/
structure Backends.Cooperates (B : Backends) : Prop where
  reports : ∀ s : Thread B, s.getAnswer.1 = kSuccess → s.getAnswer.2 = some (s.current s.selected)
  again : ∀ (s : Thread B) (i : ℤ), s.WasCurrent s.selected i → s.setAnswer i = (kSuccess, i)

/-- What was current stays so. -/
def Thread.Precedes (s s' : Thread B) : Prop := ∀ t i, s.WasCurrent t i → s'.WasCurrent t i

namespace Thread.Precedes

theorem refl (s : Thread B) : s.Precedes s := fun _ _ h => h

theorem trans (h : s.Precedes s') (h' : s'.Precedes s'') : s.Precedes s'' :=
  fun t i hwas => h' t i (h t i hwas)

theorem of_append {events : List Event} (hcurrent : s'.current = s.current)
    (hevents : s'.events = s.events ++ events) : s.Precedes s' := by
  rintro t i (hnow | ⟨index, status, after, hmem⟩)
  · exact .inl (hcurrent ▸ hnow)
  · exact .inr ⟨index, status, after, hevents ▸ List.mem_append_left _ hmem⟩

theorem record (s : Thread B) (e : Event) : s.Precedes (s.record e) := .of_append rfl rfl

theorem select (s : Thread B) (h : B.enabled t = true) : s.Precedes (s.select t h) :=
  .of_append rfl rfl

/-- `SetDevice` leaves a trace of the device it moves away from. -/
theorem moved (s : Thread B) (index : ℤ) : s.Precedes (s.moved index) := by
  rintro t i (hnow | ⟨index', status, after, hmem⟩)
  · by_cases ht : t = s.selected
    · subst ht hnow
      exact .inr ⟨index, _, _, List.mem_append_right _ (List.mem_singleton.mpr rfl)⟩
    · exact .inl ((Function.update_of_ne ht _ _).trans hnow)
  · exact .inr ⟨index', status, after, List.mem_append_left _ hmem⟩

theorem setRuntimeDeviceType (type : RawType) (s : Thread B) :
    s.Precedes ((setRuntimeDeviceType type).run s).2 := by
  unfold Device.setRuntimeDeviceType
  split
  · exact select s _
  · split
    · exact refl s
    · exact refl s

end Thread.Precedes

end InfiniRT.Device
