import InfiniRT.Device.Selection

/-!
# `DeviceGuard`

The constructor has four exits: the type is not enabled, the device is selected already, `SetDevice`
succeeds, and it fails, where the constructor restores at once.  Each exit is one equation for the
guard and the thread it leaves.  Proved:

* **`run_construct_switch`** — a constructor that calls `SetDevice`, with a lemma for each other
  exit;
* **`restore_armed`** — what `restore` selects;
* **`emptyScope_sameSelection_iff`** — the exact condition under which an empty scope restores the
  complete selection.
-/

namespace InfiniRT.Device

open InfiniRT.Library (Action Fault)
open InfiniRT.Tensor (DeviceType)

variable {B : Backends} {s s' : Thread B} {t : DeviceType} {type : RawType} {index : ℤ}

/-- `DeviceGuard`. -/
structure DeviceGuard where
  previousType : RawType
  previousIndex : ℤ := 0
  restoreIndex : Bool := false
  active : Bool := false
  restored : Bool := false
  deriving DecidableEq, Repr

namespace DeviceGuard

/-- What the constructor writes if the type is not enabled. -/
def unsupported : String := "InfiniRT device scope unsupported target device type\n"

/-- What `warn` writes. -/
def warning (status : Error) (operation : String) : String :=
  "InfiniRT device scope " ++ operation ++ " error=" ++ toString status ++ "\n"

/-- `warn`. -/
def warn (status : Error) (operation : String) : Action (Thread B) Fault Unit :=
  if status ≠ kSuccess then modify (·.record (.print (warning status operation))) else pure ()

/-- `restore`, which is what the destructor does. -/
def restore (g : DeviceGuard) : Action (Thread B) Fault DeviceGuard := do
  if g.restored then return g
  setRuntimeDeviceType g.previousType
  if g.restoreIndex then
    let status ← setDevice g.previousIndex
    warn status "restore previous device"
  return { g with restored := true }

/-- The constructor. -/
def construct (targetType : RawType) (targetIndex : ℤ) : Action (Thread B) Fault DeviceGuard := do
  let previousType ← runtimeDeviceType
  if !B.enabledType targetType then
    modify (·.record (.print unsupported))
    return { previousType, restored := true }
  let (previousStatus, stored) ← getDevice
  let g : DeviceGuard :=
    { previousType, previousIndex := stored.getD 0, restoreIndex := previousStatus == kSuccess }
  warn previousStatus "read previous device"
  if g.restoreIndex && g.previousType == targetType && g.previousIndex == targetIndex then
    return { g with active := true }
  setRuntimeDeviceType targetType
  let status ← setDevice targetIndex
  let g := { g with active := status == kSuccess }
  warn status "select target device"
  if !g.active then restore g else return g

/-! ### What each exit leaves -/

/-- The guard after `GetDevice`. -/
def reading (s : Thread B) : DeviceGuard :=
  { previousType := typeValue s.selected
    previousIndex := s.getAnswer.2.getD 0
    restoreIndex := s.getAnswer.1 == kSuccess }

end DeviceGuard

namespace Thread

/-- After a warning, if there is one. -/
def warned (s : Thread B) (status : Error) (operation : String) : Thread B :=
  if status ≠ kSuccess then s.record (.print (DeviceGuard.warning status operation)) else s

/-- After `GetDevice` and its warning. -/
def read (s : Thread B) : Thread B :=
  (s.record (.getDevice s.selected s.getAnswer.1)).warned s.getAnswer.1 "read previous device"

theorem warned_success (s : Thread B) (operation : String) : s.warned kSuccess operation = s :=
  if_neg (not_not.mpr rfl)

@[simp] theorem warned_selected (s : Thread B) (status : Error) (operation : String) :
    (s.warned status operation).selected = s.selected := by
  unfold warned
  split <;> rfl

@[simp] theorem warned_current (s : Thread B) (status : Error) (operation : String) :
    (s.warned status operation).current = s.current := by
  unfold warned
  split <;> rfl

@[simp] theorem read_selected (s : Thread B) : s.read.selected = s.selected := warned_selected _ _ _

@[simp] theorem read_current (s : Thread B) : s.read.current = s.current := warned_current _ _ _

theorem Precedes.warned (s : Thread B) (status : Error) (operation : String) :
    s.Precedes (s.warned status operation) := by
  unfold Thread.warned
  split
  · exact .record s _
  · exact .refl s

theorem Precedes.read (s : Thread B) : s.Precedes s.read :=
  (Precedes.record s _).trans (.warned _ _ _)

/-- Back to a device of a backend. -/
def back (s : Thread B) (t : DeviceType) (ht : B.enabled t = true) (i : ℤ) : Thread B :=
  ((s.select t ht).moved i).warned ((s.select t ht).setAnswer i).1 "restore previous device"

theorem Precedes.back (s : Thread B) (ht : B.enabled t = true) (i : ℤ) :
    s.Precedes (s.back t ht i) :=
  ((Precedes.select s ht).trans (.moved _ i)).trans (.warned _ _ _)

end Thread

namespace DeviceGuard

theorem run_warn (status : Error) (operation : String) (s : Thread B) :
    (warn status operation).run s = (.ok (), s.warned status operation) := by
  unfold warn Thread.warned
  split <;> rfl

theorem restore_restored {g : DeviceGuard} (h : g.restored = true) :
    (restore g).run s = (.ok g, s) := by
  unfold restore
  rw [if_pos h]
  rfl

/-- The type is selected again, and nothing else if the index is not known. -/
theorem restore_type {g : DeviceGuard} (hrestored : g.restored = false)
    (hindex : g.restoreIndex = false) (htype : g.previousType = typeValue t)
    (ht : B.enabled t = true) :
    (restore g).run s = (.ok { g with restored := true }, s.select t ht) := by
  unfold restore
  rw [if_neg (by simp [hrestored]), htype, Action.run_bind_ok (run_setRuntimeDeviceType ht),
    if_neg (by simp [hindex])]
  rfl

theorem restore_index {g : DeviceGuard} (hrestored : g.restored = false)
    (hindex : g.restoreIndex = true) (htype : g.previousType = typeValue t)
    (ht : B.enabled t = true) :
    (restore g).run s = (.ok { g with restored := true }, s.back t ht g.previousIndex) := by
  unfold restore
  rw [if_neg (by simp [hrestored]), htype, Action.run_bind_ok (run_setRuntimeDeviceType ht),
    if_pos hindex]
  show (warn _ _ >>= _).run ((s.select t ht).moved g.previousIndex) = _
  rw [Action.run_bind_ok (run_warn _ _ _)]
  rfl

/-- The first exit. -/
theorem construct_unsupported (h : B.enabledType type = false) :
    (construct type index).run s =
      (.ok { previousType := typeValue s.selected, restored := true },
        s.record (.print unsupported)) := by
  unfold construct
  rw [h]
  rfl

/-- The condition of the second exit. -/
def IsSelected (s : Thread B) (type : RawType) (index : ℤ) : Prop :=
  s.getAnswer.1 = kSuccess ∧ typeValue s.selected = type ∧ s.getAnswer.2.getD 0 = index

instance (s : Thread B) (type : RawType) (index : ℤ) : Decidable (IsSelected s type index) :=
  inferInstanceAs (Decidable (_ ∧ _ ∧ _))

theorem isSelected_iff : ((reading s).restoreIndex && (reading s).previousType == type &&
    (reading s).previousIndex == index) = true ↔ IsSelected s type index := by
  simp only [reading, IsSelected, Bool.and_eq_true, beq_iff_eq, and_assoc]

theorem run_construct (h : B.enabledType type = true) :
    (construct type index).run s =
      ((if (reading s).restoreIndex && (reading s).previousType == type &&
          (reading s).previousIndex == index then
        pure { reading s with active := true }
      else do
        setRuntimeDeviceType type
        let status ← setDevice index
        let g := { reading s with active := status == kSuccess }
        warn status "select target device"
        if !g.active then restore g else return g) : Action (Thread B) Fault DeviceGuard).run
        s.read := by
  unfold construct
  rw [h]
  show (warn _ _ >>= _).run (s.record _) = _
  rw [Action.run_bind_ok (run_warn _ _ _)]
  rfl

/-- The second exit. -/
theorem construct_selected (h : B.enabledType type = true) (hselected : IsSelected s type index) :
    (construct type index).run s = (.ok { reading s with active := true }, s.read) := by
  rw [run_construct h, if_pos (isSelected_iff.mpr hselected)]
  rfl

section Switch

variable (ht : B.enabled t = true)

/-- The thread when `SetDevice` is called. -/
def switched (s : Thread B) (ht : B.enabled t = true) : Thread B := s.read.select t ht

theorem run_construct_switch (hselected : ¬IsSelected s (typeValue t) index) :
    (construct (typeValue t) index).run s =
      (if !(({ reading s with active := ((switched s ht).setAnswer index).1 == kSuccess } :
          DeviceGuard).active) then
        restore { reading s with active := ((switched s ht).setAnswer index).1 == kSuccess }
      else return { reading s with active := ((switched s ht).setAnswer index).1 == kSuccess } :
        Action (Thread B) Fault DeviceGuard).run
        (((switched s ht).moved index).warned ((switched s ht).setAnswer index).1
          "select target device") := by
  have henabled : B.enabledType (typeValue t) = true :=
    Backends.enabledType_eq_true_iff.mpr ⟨t, ht, rfl⟩
  rw [run_construct henabled, if_neg (mt isSelected_iff.mp hselected),
    Action.run_bind_ok (run_setRuntimeDeviceType ht)]
  show (warn _ _ >>= _).run ((switched s ht).moved index) = _
  rw [Action.run_bind_ok (run_warn _ _ _)]
  rfl

/-- The third exit. -/
theorem construct_switched (hselected : ¬IsSelected s (typeValue t) index)
    (hstatus : ((switched s ht).setAnswer index).1 = kSuccess) :
    (construct (typeValue t) index).run s =
      (.ok { reading s with active := true }, (switched s ht).moved index) := by
  rw [run_construct_switch ht hselected, hstatus, Thread.warned_success]
  rfl

/-- The fourth exit. -/
theorem construct_refused (hselected : ¬IsSelected s (typeValue t) index)
    (hstatus : ((switched s ht).setAnswer index).1 ≠ kSuccess) :
    (construct (typeValue t) index).run s = (restore (reading s)).run
      (((switched s ht).moved index).warned ((switched s ht).setAnswer index).1
        "select target device") := by
  rw [run_construct_switch ht hselected, beq_false_of_ne hstatus]
  rfl

end Switch

/-! ### What is restored -/

/-- The guard as it is when nothing was restored yet. -/
def armed (s : Thread B) (active : Bool) : DeviceGuard := { reading s with active }

/-- **Restoring** selects the type of the thread `s` that the guard was constructed on, and the
device of that type if the guard could read it. -/
theorem restore_armed (hB : B.Cooperates) (active : Bool) (hs : s.Precedes s') :
    ∃ u : Thread B, (restore (armed s active)).run s' =
        (.ok { armed s active with restored := true }, u) ∧ s'.Precedes u ∧
      u.selected = s.selected ∧ (u.current = if s.getAnswer.1 = kSuccess then
        Function.update s'.current s.selected (s.current s.selected) else s'.current) ∧
      (s.getAnswer.1 = kSuccess → u.events = s'.events ++ [.select s.selected,
        .setDevice s.selected (s.current s.selected) kSuccess (s'.current s.selected)
          (s.current s.selected)]) := by
  have henabled := s.selected_enabled
  by_cases hread : s.getAnswer.1 = kSuccess
  · have hindex : (armed s active).previousIndex = s.current s.selected := by
      show s.getAnswer.2.getD 0 = _
      rw [hB.reports s hread]
      rfl
    have hanswer : (s'.select s.selected henabled).setAnswer (s.current s.selected) =
        (kSuccess, s.current s.selected) :=
      hB.again _ _ ((hs.trans (.select s' henabled)) _ _ (.inl rfl))
    refine ⟨_, restore_index rfl (beq_iff_eq.mpr hread) rfl henabled, .back s' henabled _, ?_, ?_,
      fun _ => ?_⟩
    · exact Thread.warned_selected _ _ _
    · rw [if_pos hread, hindex, Thread.back, Thread.warned_current, Thread.moved_current, hanswer]
      rfl
    · rw [hindex, Thread.back, hanswer, Thread.warned_success, Thread.moved_events, hanswer,
        Thread.select_events, List.append_assoc]
      rfl
  · refine ⟨_, restore_type rfl (beq_false_of_ne hread) rfl henabled, .select s' henabled, rfl, ?_,
      fun h => absurd h hread⟩
    rw [if_neg hread]
    rfl

/-- A scope with an empty body. -/
def emptyScope (type : RawType) (index : ℤ) : Action (Thread B) Fault Unit := do
  let g ← construct type index
  let _ ← restore g

/-- Nothing of the target type is changed for good: the device is restored, or `SetDevice` leaves
the current device as it was. -/
def LeavesTarget (s : Thread B) (type : RawType) (index : ℤ) : Prop :=
  ∀ t, ∀ ht : B.enabled t = true, typeValue t = type →
    s.selected = t ∧ s.getAnswer.1 = kSuccess ∨
      ((switched s ht).setAnswer index).2 = s.current t

/-- The thread has the complete selection of `s`. -/
def Thread.SameSelection (s s' : Thread B) : Prop :=
  s'.selected = s.selected ∧ ∀ t, B.enabled t = true → s'.current t = s.current t

/-- A scope that called `SetDevice`, whatever the answer was. -/
theorem emptyScope_switched (hB : B.Cooperates) (ht : B.enabled t = true)
    (hselected : ¬IsSelected s (typeValue t) index) :
    ∃ u : Thread B, (emptyScope (typeValue t) index).run s = (.ok (), u) ∧
      u.selected = s.selected ∧ u.current = if s.getAnswer.1 = kSuccess then
        Function.update ((switched s ht).moved index).current s.selected (s.current s.selected)
        else ((switched s ht).moved index).current := by
  have hs : s.Precedes ((switched s ht).moved index) :=
    ((Thread.Precedes.read s).trans (.select _ ht)).trans (.moved _ index)
  by_cases hstatus : ((switched s ht).setAnswer index).1 = kSuccess
  · obtain ⟨u, hrun, -, hu, hcurrent, -⟩ := restore_armed hB true hs
    refine ⟨u, ?_, hu, hcurrent⟩
    rw [emptyScope, Action.run_bind_ok (construct_switched ht hselected hstatus)]
    exact Action.run_bind_ok hrun
  · -- the constructor restores, and the destructor finds nothing to do
    obtain ⟨u, hrun, -, hu, hcurrent, -⟩ := restore_armed hB false (hs.trans (.warned _
      ((switched s ht).setAnswer index).1 "select target device"))
    rw [Thread.warned_current] at hcurrent
    refine ⟨u, ?_, hu, hcurrent⟩
    rw [emptyScope, Action.run_bind_ok ((construct_refused ht hselected hstatus).trans hrun)]
    exact Action.run_bind_ok (restore_restored rfl)

/-- **An empty scope restores the complete selection if and only if it leaves the target alone.** -/
theorem emptyScope_sameSelection_iff (hB : B.Cooperates) (s : Thread B) (type : RawType)
    (index : ℤ) :
    ∃ s', (emptyScope type index).run s = (.ok (), s') ∧
      (Thread.SameSelection s s' ↔ LeavesTarget s type index) := by
  cases htype : B.enabledType type with
  | false =>
    refine ⟨s.record (.print unsupported), ?_,
      iff_of_true ⟨rfl, fun _ _ => rfl⟩ fun t ht hvalue => ?_⟩
    · rw [emptyScope, Action.run_bind_ok (construct_unsupported htype)]
      exact Action.run_bind_ok (restore_restored rfl)
    · rw [Backends.enabledType_eq_true_iff.mpr ⟨t, ht, hvalue⟩] at htype
      cases htype
  | true =>
    by_cases hselected : IsSelected s type index
    · obtain ⟨hread, hvalue, -⟩ := id hselected
      obtain ⟨u, hrun, -, hu, hcurrent, -⟩ := restore_armed hB true (Thread.Precedes.read s)
      refine ⟨u, ?_, iff_of_true ⟨hu, fun t _ => ?_⟩ fun t _ ht => .inl ⟨?_, hread⟩⟩
      · rw [emptyScope, Action.run_bind_ok (construct_selected htype hselected)]
        exact Action.run_bind_ok hrun
      · rw [hcurrent, if_pos hread, Thread.read_current, Function.update_eq_self]
      · exact typeValue_injective (hvalue.trans ht.symm)
    · obtain ⟨t, ht, rfl⟩ := Backends.enabledType_eq_true_iff.mp htype
      obtain ⟨u, hrun, hu, hcurrent⟩ := emptyScope_switched hB ht hselected
      refine ⟨u, hrun, ?_⟩
      have hmoved : ((switched s ht).moved index).current =
          Function.update s.current t ((switched s ht).setAnswer index).2 := by
        rw [Thread.moved_current, switched, Thread.select_current, Thread.read_current]
        rfl
      rw [hmoved] at hcurrent
      constructor
      · rintro ⟨-, hsame⟩ t' ht' hvalue
        obtain rfl := typeValue_injective hvalue
        have hkept := hsame t' ht
        rw [hcurrent] at hkept
        by_cases hread : s.getAnswer.1 = kSuccess
        · by_cases hself : s.selected = t'
          · exact .inl ⟨hself, hread⟩
          · rw [if_pos hread, Function.update_of_ne (Ne.symm hself), Function.update_self] at hkept
            exact .inr hkept
        · rw [if_neg hread, Function.update_self] at hkept
          exact .inr hkept
      · intro hleaves
        refine ⟨hu, fun t' _ => ?_⟩
        rw [hcurrent]
        rcases hleaves t ht rfl with ⟨rfl, hread⟩ | hkept
        · rw [if_pos hread, Function.update_idem, Function.update_eq_self]
        · rw [hkept, Function.update_eq_self, Function.update_eq_self, ite_self]

/-- A build with two backends that have every device. -/
def cpuAndNvidia : Backends where
  enabled t := t = .cpu || t = .nvidia
  asserts := true
  setDevice _ _ _ index := (kSuccess, index)
  getDevice _ _ current := (kSuccess, some current)

theorem cpuAndNvidia_cooperates : cpuAndNvidia.Cooperates := ⟨fun _ _ => rfl, fun _ _ _ => rfl⟩

theorem cpu_enabled : cpuAndNvidia.enabled .cpu = true := rfl

/-- The CPU is selected, and the first device of both backends. -/
def onCpu : Thread cpuAndNvidia := ⟨.cpu, cpu_enabled, fun _ => 0, []⟩

theorem emptyScope_sameSelection_iff_onCpu :
    ∃ s', (emptyScope 1#32 1).run onCpu = (.ok (), s') ∧
      (Thread.SameSelection onCpu s' ↔ LeavesTarget onCpu 1#32 1) :=
  emptyScope_sameSelection_iff cpuAndNvidia_cooperates onCpu 1#32 1

/-- A guard for the second device of the other backend leaves that device current. -/
theorem emptyScope_moves_target : cpuAndNvidia.Cooperates ∧
    ∃ s', (emptyScope 1#32 1).run onCpu = (.ok (), s') ∧ ¬Thread.SameSelection onCpu s' := by
  refine ⟨cpuAndNvidia_cooperates, ((emptyScope 1#32 1).run onCpu).2, rfl, fun hsame => ?_⟩
  have hcurrent : ((emptyScope 1#32 1).run onCpu).2.current .nvidia = 1 := rfl
  have hkept := hsame.2 .nvidia rfl
  rw [hcurrent] at hkept
  cases hkept

end DeviceGuard

end InfiniRT.Device
