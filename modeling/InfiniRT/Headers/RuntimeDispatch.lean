import InfiniRT.Device.Selection
import InfiniRT.Headers.EmittedSwitches
import InfiniRT.Library.Runs

/-!
# The generated dispatch at work

The generator takes names of devices and writes one source file.  What a client of this file does on
one thread is a run: it selects types and calls functions, in any order.  The thread starts with the
default device, which is the first selected one in a fixed order of priority.  Every call that a run
makes is one of the function the client called, on the device that was selected last.  Proved:

* **`selectDevices_spec`** — the devices of a list of names, each once;
* **`caseOf_dispatch`** — the statement that a generated function runs for a type;
* **`dispatch_run`** — every call of a run goes to the device that was selected last.
-/

namespace InfiniRT.Headers

open InfiniRT.Library
open InfiniRT.Device (RawType allDeviceTypes mem_allDeviceTypes typeValue typeValue_injective)
open InfiniRT.Tensor (DeviceType)

/-! ### Devices -/

/-- A key of `_DEVICE_HEADERS`. -/
def deviceName : DeviceType → String
  | .cpu => "cpu"
  | .nvidia => "nvidia"
  | .iluvatar => "iluvatar"
  | .hygon => "hygon"
  | .thead => "thead"
  | .metax => "metax"
  | .mars => "mars"
  | .moore => "moore"
  | .cambricon => "cambricon"
  | .ascend => "ascend"

/-- The device of a key, if there is one. -/
def deviceNamed? (name : String) : Option DeviceType :=
  allDeviceTypes.find? fun device => deviceName device = name

/-- The loop of `main` over the arguments. -/
def selectDevicesFrom (devices : List DeviceType) : List String → Option (List DeviceType)
  | [] => some devices
  | name :: names => do
    let device ← deviceNamed? name
    selectDevicesFrom (if device ∈ devices then devices else devices ++ [device]) names

/-- The devices that `main` works with. -/
def selectDevices (names : List String) : Option (List DeviceType) := selectDevicesFrom [] names

/-- `_DEFAULT_DEVICE_PRIORITY`. -/
def defaultDevicePriority : List DeviceType :=
  [.nvidia, .iluvatar, .hygon, .thead, .metax, .mars, .moore, .cambricon, .ascend, .cpu]

/-- `_default_device`. -/
def defaultDevice (devices : List DeviceType) : Option DeviceType :=
  defaultDevicePriority.find? (· ∈ devices)

/-! ### The source -/

/-- What is written: the function that selects a type, the functions of the interface, and the type
that a thread starts with. -/
structure GeneratedSource where
  setRuntimeDeviceType : Text
  functions : List (RuntimeFunction × Text)
  defaultType : RawType

variable (w : WordCharacters) (tree : SourceTree)

/-- A function with its text. -/
def writeFunction (devices : List DeviceType) (f : RuntimeFunction) :
    Option (RuntimeFunction × Text) := do
  return (f, writeRuntimeDispatchFunction f (← devicesForFunction w tree f devices))

/-- `_write_runtime_dispatch`. -/
def writeRuntimeDispatch (devices : List DeviceType) : Option GeneratedSource := do
  let functions ← publicRuntimeFunctionsForDevices w tree devices
  return {
    setRuntimeDeviceType := writeSetRuntimeDeviceType devices
    functions := ← functions.mapM (writeFunction w tree devices)
    defaultType := typeValue (← defaultDevice devices) }

/-! ### Runs -/

/-- The value of a label. -/
def labelValue? (label : Text) : Option RawType :=
  (allDeviceTypes.find? fun device => (deviceTypeName device).toList = label).map typeValue

/-- The statements of the case that a value selects in the switch of a function. -/
def caseOf (text : Text) (value : RawType) : Option (List Text) :=
  ((readCases (linesOf text)).find? fun c => labelValue? c.1 = some value).map (·.2)

/-- What a client does. -/
inductive RuntimeOp
  | setRuntimeDeviceType (type : RawType)
  | call (f : RuntimeFunction)
  deriving DecidableEq, Repr

/-- What it gets. -/
inductive Answer
  | done
  /-- The call that was made. -/
  | called (expression : Text)
  | invalidValue
  deriving DecidableEq, Repr

/-- The statement that selects a type. -/
def assignment : Text := "      runtime_device_type_ = device_type;".toList

/-- `set_runtime_device_type`, as it was written; a failed assertion ends the program, if assertions
are checked. -/
def GeneratedSource.select (source : GeneratedSource) (asserts : Bool) (selected type : RawType) :
    Option RawType :=
  match caseOf source.setRuntimeDeviceType type with
  | some statements => some (if assignment ∈ statements then type else selected)
  | none => if asserts then none else some selected

/-- A function, as it was written. -/
def runFunction (text : Text) (asserts : Bool) (selected : RawType) : Option Answer :=
  match caseOf text selected with
  | some statements => (statements.head?.bind (between? callStart callEnd)).map .called
  | none => if asserts then none else some .invalidValue

/-- One operation on a thread.  A function that is not in the source cannot be called. -/
def GeneratedSource.perform (source : GeneratedSource) (asserts : Bool) (selected : RawType) :
    RuntimeOp → Option (Answer × RawType)
  | .setRuntimeDeviceType type => (source.select asserts selected type).map fun type =>
    (.done, type)
  | .call f => (source.functions.find? (·.1 = f)).bind fun function =>
    (runFunction function.2 asserts selected).map fun answer => (answer, selected)

/-- A step of a thread. -/
def GeneratedSource.Step (source : GeneratedSource) (asserts : Bool) (selected : RawType)
    (l : RuntimeOp × Answer) (selected' : RawType) : Prop :=
  source.perform asserts selected l.1 = some (l.2, selected')

/-- The device that was selected last. -/
def lastSelected (devices : List DeviceType) (device : DeviceType) (ops : List RuntimeOp) :
    DeviceType :=
  ops.foldl (fun device op =>
    match op with
    | .setRuntimeDeviceType type => (devices.find? (typeValue · = type)).getD device
    | .call _ => device) device

/-- The runtime header of a device has the name of the function among its words. -/
def Mentions (device : DeviceType) (f : RuntimeFunction) : Prop :=
  ∃ text, runtimeHeaderText tree device = some text ∧ f.name.toList ∈ Words.words w.isWord text

/-! ### The devices of the arguments -/

section Arguments

variable {devices : List DeviceType} {device : DeviceType} {names : List String} {name : String}

theorem deviceName_injective : Function.Injective deviceName := by
  intro device device' h
  cases device <;> cases device' <;> first | rfl | exact absurd h (by decide)

theorem deviceNamed?_eq_some : deviceNamed? name = some device ↔ deviceName device = name := by
  constructor
  · intro h
    simpa using List.find?_some h
  · rintro rfl
    cases hfind : deviceNamed? (deviceName device) with
    | none =>
      have hnone := List.find?_eq_none.mp hfind device (mem_allDeviceTypes device)
      exact absurd (decide_eq_true rfl) hnone
    | some found =>
      have hname : deviceName found = deviceName device := by simpa using List.find?_some hfind
      rw [deviceName_injective hname]

/-- The loop keeps the devices apart and adds those that are named. -/
theorem selectDevicesFrom_spec {found : List DeviceType} (hdevices : devices.Nodup)
    (h : selectDevicesFrom devices names = some found) :
    found.Nodup ∧ ∀ device, device ∈ found ↔ device ∈ devices ∨ deviceName device ∈ names := by
  induction names generalizing devices with
  | nil =>
    obtain rfl := Option.some.inj h
    exact ⟨hdevices, fun device => by simp⟩
  | cons name names ih =>
    obtain ⟨new, hnew, hrest⟩ := Option.bind_eq_some_iff.mp h
    obtain rfl := deviceNamed?_eq_some.mp hnew
    have hname : ∀ device, deviceName device ∈ deviceName new :: names ↔
        device = new ∨ deviceName device ∈ names := fun device => by
      rw [List.mem_cons, deviceName_injective.eq_iff]
    split at hrest
    · next hmem =>
      obtain ⟨hnodup, hfound⟩ := ih hdevices hrest
      refine ⟨hnodup, fun device => (hfound device).trans ?_⟩
      rw [hname]
      constructor
      · exact fun hor => hor.imp_right .inr
      · rintro (hold | rfl | hlater)
        exacts [.inl hold, .inl hmem, .inr hlater]
    · next hmem =>
      have hnodup : (devices ++ [new]).Nodup :=
        List.nodup_append.mpr ⟨hdevices, List.nodup_singleton new, fun a ha b hb => by
          rintro rfl
          exact hmem (List.mem_singleton.mp hb ▸ ha)⟩
      obtain ⟨hnodup, hfound⟩ := ih hnodup hrest
      refine ⟨hnodup, fun device => (hfound device).trans ?_⟩
      rw [hname, List.mem_append, List.mem_singleton, or_assoc]

/-- The devices of some names are some devices, each one once. -/
theorem selectDevices_spec (hnames : names ≠ []) (h : selectDevices names = some devices) :
    devices ≠ [] ∧ devices.Nodup ∧ ∀ device, device ∈ devices ↔ deviceName device ∈ names := by
  obtain ⟨hnodup, hfound⟩ := selectDevicesFrom_spec List.nodup_nil h
  have hmem : ∀ device, device ∈ devices ↔ deviceName device ∈ names :=
    fun device => by simp [hfound]
  refine ⟨?_, hnodup, hmem⟩
  rintro rfl
  obtain ⟨name, rest, rfl⟩ := List.exists_cons_of_ne_nil hnames
  obtain ⟨device, hdevice, -⟩ := Option.bind_eq_some_iff.mp h
  exact absurd ((hmem device).mpr (deviceNamed?_eq_some.mp hdevice ▸ List.mem_cons_self))
    List.not_mem_nil

/-- The default device is the selected one of the highest priority. -/
theorem defaultDevice_spec (hne : devices ≠ []) : ∃ default, defaultDevice devices = some default ∧
    default ∈ devices ∧ ∀ device ∈ devices,
      defaultDevicePriority.idxOf default ≤ defaultDevicePriority.idxOf device := by
  have hall : ∀ device, device ∈ defaultDevicePriority := fun device => by cases device <;> decide
  obtain ⟨device, h⟩ := List.exists_mem_of_ne_nil devices hne
  cases hfind : defaultDevice devices with
  | none =>
    have hnone := List.find?_eq_none.mp hfind device (hall device)
    exact absurd (decide_eq_true h) hnone
  | some default =>
    have hmem : default ∈ devices := by simpa using List.find?_some hfind
    refine ⟨default, rfl, hmem, fun device hdevice => ?_⟩
    obtain ⟨-, before, after, hsplit, hbefore⟩ := List.find?_eq_some_iff_append.mp hfind
    have hnot : device ∉ before := fun hmem => by simpa [hdevice] using hbefore device hmem
    have hdefault : default ∉ before := fun hin => by simpa [hmem] using hbefore default hin
    rw [hsplit, List.idxOf_append_of_notMem hnot, List.idxOf_append_of_notMem hdefault,
      List.idxOf_cons_self]
    omega

end Arguments

/-! ### The generated functions -/

section Generation

variable {w tree} {devices found : List DeviceType} {device : DeviceType} {f : RuntimeFunction}
  {functions : List RuntimeFunction}

theorem exists_runtimeHeaderText (hseeds : ∀ path ∈ seedHeaders devices, (tree.file path).isSome)
    (hdevice : device ∈ devices) : ∃ text, runtimeHeaderText tree device = some text := by
  have hheader : ∃ header, (deviceHeaders device).find? (fun header => header.2.1 = "runtime_.h") =
      some header := by
    cases device <;> exact ⟨_, rfl⟩
  obtain ⟨header, hfind⟩ := hheader
  have hseed : header.2.2.toList ∈ seedHeaders devices :=
    List.mem_toFinset.mpr (List.mem_append_right _ (List.mem_flatMap.mpr
      ⟨device, hdevice, List.mem_map.mpr ⟨header, List.mem_of_find?_eq_some hfind, rfl⟩⟩))
  obtain ⟨text, htext⟩ := Option.isSome_iff_exists.mp (hseeds _ hseed)
  refine ⟨text, ?_⟩
  rw [runtimeHeaderText, runtimeHeaderForDevice, hfind]
  exact htext

/-- A function is found in the headers that have its name among their words. -/
theorem devicesForFunction_spec (hf : f.WellFormed)
    (hread : ∀ device ∈ devices, ∃ text, runtimeHeaderText tree device = some text) :
    ∃ found, devicesForFunction w tree f devices = some found ∧ found.Sublist devices ∧
      ∀ device, device ∈ found ↔ device ∈ devices ∧ Mentions w tree device f := by
  induction devices with
  | nil => exact ⟨[], rfl, .slnil, fun device => by simp⟩
  | cons device devices ih =>
    obtain ⟨text, htext⟩ := hread device List.mem_cons_self
    obtain ⟨found, hfound, hsub, hmem⟩ := ih fun device hd =>
      hread device (List.mem_cons_of_mem _ hd)
    have hsearch : Words.search w.isWord f.name.toList none text = true ↔
        Mentions w tree device f := by
      rw [Words.search_iff hf.name_ne fun c hc => w.ascii c (hf.name_word c hc)]
      constructor
      · exact fun hword => ⟨text, htext, hword⟩
      · rintro ⟨text', htext', hword⟩
        obtain rfl := Option.some.inj (htext.symm.trans htext')
        exact hword
    rw [devicesForFunction, htext, hfound]
    refine ⟨_, rfl, ?_, fun device' => ?_⟩
    · split
      · exact hsub.cons_cons device
      · exact hsub.cons device
    · split
      · next hyes =>
        rw [List.mem_cons, List.mem_cons, hmem, or_and_right]
        exact or_congr_left (iff_self_and.mpr fun heq => heq ▸ hsearch.mp hyes)
      · next hno =>
        rw [List.mem_cons, hmem, or_and_right]
        refine (or_iff_right ?_).symm
        rintro ⟨rfl, hmentions⟩
        exact hno (hsearch.mpr hmentions)

/-- The functions that some device has. -/
theorem functionsForDevices_spec (hf : ∀ f ∈ functions, f.WellFormed)
    (hread : ∀ device ∈ devices, ∃ text, runtimeHeaderText tree device = some text) :
    ∃ rest, functionsForDevices w tree devices functions = some rest ∧
      ∀ f, f ∈ rest ↔ f ∈ functions ∧ ∃ device ∈ devices, Mentions w tree device f := by
  induction functions with
  | nil => exact ⟨[], rfl, fun f => by simp⟩
  | cons f functions ih =>
    obtain ⟨rest, hrest, hmem⟩ := ih fun f hmem => hf f (List.mem_cons_of_mem _ hmem)
    obtain ⟨found, hfound, -, hdevices⟩ :=
      devicesForFunction_spec (w := w) (hf f List.mem_cons_self) hread
    rw [functionsForDevices, hfound, hrest]
    refine ⟨_, rfl, fun f' => ?_⟩
    have hempty : found.isEmpty = true ↔ ¬∃ device ∈ devices, Mentions w tree device f := by
      rw [List.isEmpty_iff, List.eq_nil_iff_forall_not_mem]
      simp only [hdevices, not_exists]
    split
    · next hnone =>
      rw [hmem, List.mem_cons, or_and_right]
      refine (or_iff_right ?_).symm
      rintro ⟨rfl, hsome⟩
      exact hempty.mp hnone hsome
    · next hsome =>
      rw [List.mem_cons, List.mem_cons, hmem, or_and_right]
      refine or_congr_left (iff_self_and.mpr ?_)
      rintro rfl
      exact of_not_not (mt hempty.mpr hsome)

/-- What was written for the devices. -/
structure GeneratedSource.WrittenFor (source : GeneratedSource) (w : WordCharacters)
    (tree : SourceTree) (devices : List DeviceType) (default : DeviceType) : Prop where
  nonempty : devices ≠ []
  setRuntimeDeviceType : source.setRuntimeDeviceType = writeSetRuntimeDeviceType devices
  defaultType : source.defaultType = typeValue default
  default_mem : default ∈ devices
  sound : ∀ f function, source.functions.find? (·.1 = f) = some function →
    f ∈ publicRuntimeFunctions ∧ ∃ found, found ≠ [] ∧
      (∀ device, device ∈ found ↔ device ∈ devices ∧ Mentions w tree device f) ∧
      function.2 = writeRuntimeDispatchFunction f found
  complete : ∀ f ∈ publicRuntimeFunctions, ∀ device ∈ devices, Mentions w tree device f →
    ∃ function, source.functions.find? (·.1 = f) = some function

/-- The functions with their texts. -/
theorem mapM_writeFunction (hf : ∀ f ∈ functions, f.WellFormed)
    (hread : ∀ device ∈ devices, ∃ text, runtimeHeaderText tree device = some text) :
    ∃ texts, functions.mapM (writeFunction w tree devices) = some texts ∧
      (∀ f, (∃ function, texts.find? (·.1 = f) = some function) ↔ f ∈ functions) ∧
      ∀ f function, texts.find? (·.1 = f) = some function → ∃ found,
        (∀ device, device ∈ found ↔ device ∈ devices ∧ Mentions w tree device f) ∧
        function.2 = writeRuntimeDispatchFunction f found := by
  induction functions with
  | nil => exact ⟨[], rfl, fun f => by simp, fun f function h => by cases h⟩
  | cons f functions ih =>
    obtain ⟨texts, htexts, hdomain, hsound⟩ := ih fun f hmem => hf f (List.mem_cons_of_mem _ hmem)
    obtain ⟨found, hfound, -, hdevices⟩ :=
      devicesForFunction_spec (w := w) (hf f List.mem_cons_self) hread
    have hwrite : writeFunction w tree devices f =
        some (f, writeRuntimeDispatchFunction f found) := by
      rw [writeFunction, hfound]
      rfl
    rw [List.mapM_cons, hwrite, htexts]
    refine ⟨_, rfl, fun f' => ?_, fun f' function hfind => ?_⟩
    · by_cases heq : f = f'
      · subst heq
        exact iff_of_true ⟨_, List.find?_cons_of_pos (by simp)⟩ List.mem_cons_self
      · rw [List.find?_cons_of_neg (by simpa using heq), hdomain, List.mem_cons]
        exact (or_iff_right (Ne.symm heq)).symm
    · by_cases heq : f = f'
      · subst heq
        rw [List.find?_cons_of_pos (by simp)] at hfind
        obtain rfl := Option.some.inj hfind
        exact ⟨found, hdevices, rfl⟩
      · rw [List.find?_cons_of_neg (by simpa using heq)] at hfind
        exact hsound f' function hfind

theorem writeRuntimeDispatch_spec (hdevices : devices ≠ [])
    (hseeds : ∀ path ∈ seedHeaders devices, (tree.file path).isSome) :
    ∃ source default, writeRuntimeDispatch w tree devices = some source ∧
      defaultDevice devices = some default ∧ source.WrittenFor w tree devices default := by
  have hread : ∀ device ∈ devices, ∃ text, runtimeHeaderText tree device = some text :=
    fun device hdevice => exists_runtimeHeaderText hseeds hdevice
  obtain ⟨functions, hfunctions, hmem⟩ :=
    functionsForDevices_spec (w := w) wellFormed_of_mem hread
  obtain ⟨texts, htexts, hdomain, hsound⟩ := mapM_writeFunction (w := w)
    (fun f hf => wellFormed_of_mem f ((hmem f).mp hf).1) hread
  obtain ⟨default, hdefault, hdefaultMem, -⟩ := defaultDevice_spec hdevices
  refine ⟨⟨writeSetRuntimeDeviceType devices, texts, typeValue default⟩, default, ?_, hdefault,
    hdevices, rfl, rfl, hdefaultMem, fun f function hfind => ?_,
    fun f hf device hdevice hmentions => ?_⟩
  · unfold writeRuntimeDispatch publicRuntimeFunctionsForDevices
    simp only [hfunctions, htexts, hdefault, Option.bind_eq_bind, Option.bind_some, Option.pure_def]
  · obtain ⟨htable, device, hdevice, hmentions⟩ := (hmem f).mp ((hdomain f).mp ⟨function, hfind⟩)
    obtain ⟨found, hfound, htext⟩ := hsound f function hfind
    exact ⟨htable, found, List.ne_nil_of_mem ((hfound device).mpr ⟨hdevice, hmentions⟩), hfound,
      htext⟩
  · exact (hdomain f).mpr ((hmem f).mpr ⟨hf, device, hdevice, hmentions⟩)

end Generation

/-! ### One step -/

section Steps

variable {w tree} {devices : List DeviceType} {device default : DeviceType} {f : RuntimeFunction}
  {source : GeneratedSource} {asserts : Bool} {type selected : RawType}

theorem labelValue?_deviceTypeName (device : DeviceType) :
    labelValue? (deviceTypeName device).toList = some (typeValue device) := by
  have hfind : allDeviceTypes.find? (fun other =>
      (deviceTypeName other).toList = (deviceTypeName device).toList) = some device := by
    cases hfind : allDeviceTypes.find? _ with
    | none =>
      have hnone := List.find?_eq_none.mp hfind device (mem_allDeviceTypes device)
      exact absurd (decide_eq_true rfl) hnone
    | some found =>
      have hlabel : (deviceTypeName found).toList = (deviceTypeName device).toList := by
        simpa using List.find?_some hfind
      rw [deviceTypeName_injective hlabel]
  rw [labelValue?, hfind]
  rfl

/-- A value selects the case of the device it stands for. -/
theorem find?_cases (statements : DeviceType → List Text) (devices : List DeviceType)
    (value : RawType) :
    ((devices.map fun device => ((deviceTypeName device).toList, statements device)).find?
      fun c => labelValue? c.1 = some value).map (·.2) =
      (devices.find? (typeValue · = value)).map statements := by
  rw [List.find?_map, Option.map_map]
  refine congrArg (·.map statements) (congrArg (devices.find? ·) (funext fun device => ?_))
  simp only [Function.comp_apply, labelValue?_deviceTypeName, Option.some.injEq]

theorem find?_typeValue_of_mem (h : device ∈ devices) :
    devices.find? (typeValue · = typeValue device) = some device := by
  cases hfind : devices.find? (typeValue · = typeValue device) with
  | none => exact absurd (decide_eq_true rfl) (List.find?_eq_none.mp hfind device h)
  | some found =>
    have hvalue : typeValue found = typeValue device := by simpa using List.find?_some hfind
    rw [typeValue_injective hvalue]

theorem find?_typeValue_of_not_mem (h : device ∉ devices) :
    devices.find? (typeValue · = typeValue device) = none := by
  refine List.find?_eq_none.mpr fun other hother => ?_
  rw [decide_eq_true_eq]
  exact fun heq => h (typeValue_injective heq ▸ hother)

theorem caseOf_dispatch (hf : f.WellFormed) (hne : devices ≠ []) (value : RawType) :
    caseOf (writeRuntimeDispatchFunction f devices) value =
      (devices.find? (typeValue · = value)).map fun device => [callLine f device] := by
  rw [caseOf, readCases_dispatch hf hne, find?_cases]

theorem caseOf_setRuntimeDeviceType (hne : devices ≠ []) (value : RawType) :
    caseOf (writeSetRuntimeDeviceType devices) value =
      (devices.find? (typeValue · = value)).map fun _ => [assignment, "      return;".toList] := by
  rw [caseOf, readCases_setRuntimeDeviceType hne,
    find?_cases fun _ =>
      ["      runtime_device_type_ = device_type;".toList, "      return;".toList]]
  rfl

/-- The value of an enabled type is stored. -/
theorem select_of_mem (h : source.WrittenFor w tree devices default) (hdevice : device ∈ devices) :
    source.select asserts selected (typeValue device) = some (typeValue device) := by
  unfold GeneratedSource.select
  rw [h.setRuntimeDeviceType, caseOf_setRuntimeDeviceType h.nonempty,
    find?_typeValue_of_mem hdevice]
  exact congrArg some (if_pos List.mem_cons_self)

theorem select_of_not (h : source.WrittenFor w tree devices default)
    (hnone : devices.find? (typeValue · = type) = none) :
    source.select asserts selected type = if asserts then none else some selected := by
  unfold GeneratedSource.select
  rw [h.setRuntimeDeviceType, caseOf_setRuntimeDeviceType h.nonempty, hnone]
  rfl

/-- A function calls the backend of a device that has it. -/
theorem runFunction_of_mem (hf : f.WellFormed) (hdevice : device ∈ devices) :
    runFunction (writeRuntimeDispatchFunction f devices) asserts (typeValue device) =
      some (.called (runtimeCall f device)) := by
  have hbetween : between? callStart callEnd (callLine f device) = some (runtimeCall f device) := by
    rw [between?_eq_some, callLine]
  unfold runFunction
  rw [caseOf_dispatch hf (List.ne_nil_of_mem hdevice), find?_typeValue_of_mem hdevice]
  show ((some (callLine f device)).bind _).map _ = _
  rw [Option.bind_some, hbetween, Option.map_some]

theorem runFunction_of_not_mem (hf : f.WellFormed) (hne : devices ≠ [])
    (hdevice : device ∉ devices) :
    runFunction (writeRuntimeDispatchFunction f devices) asserts (typeValue device) =
      if asserts then none else some .invalidValue := by
  unfold runFunction
  rw [caseOf_dispatch hf hne, find?_typeValue_of_not_mem hdevice]
  rfl

/-- A call on an enabled type. -/
theorem runFunction_spec (asserts : Bool) (h : source.WrittenFor w tree devices default)
    (hdevice : device ∈ devices) {function : RuntimeFunction × Text}
    (hfind : source.functions.find? (·.1 = f) = some function) :
    Mentions w tree device f ∧ runFunction function.2 asserts (typeValue device) =
      some (.called (runtimeCall f device)) ∨
    ¬Mentions w tree device f ∧ runFunction function.2 asserts (typeValue device) =
      if asserts then none else some .invalidValue := by
  obtain ⟨htable, found, hne, hfound, htext⟩ := h.sound f function hfind
  have hf := wellFormed_of_mem f htable
  rw [htext]
  by_cases hmentions : Mentions w tree device f
  · exact .inl ⟨hmentions, runFunction_of_mem hf ((hfound device).mpr ⟨hdevice, hmentions⟩)⟩
  · exact .inr ⟨hmentions, runFunction_of_not_mem hf hne fun hmem =>
      hmentions ((hfound device).mp hmem).2⟩

end Steps

/-! ### Runs of a client -/

section ClientRuns

variable {w tree} {devices : List DeviceType} {device default : DeviceType} {f : RuntimeFunction}
  {source : GeneratedSource} {asserts : Bool} {selected selected' : RawType}
  {steps : List (RuntimeOp × Answer)} {ops : List RuntimeOp} {op : RuntimeOp} {answer : Answer}

/-- What a call of a function answers on a device. -/
def AnswersOn (w : WordCharacters) (tree : SourceTree) (asserts : Bool) (device : DeviceType)
    (f : RuntimeFunction) (answer : Answer) : Prop :=
  Mentions w tree device f ∧ answer = .called (runtimeCall f device) ∨
    ¬Mentions w tree device f ∧ asserts = false ∧ answer = .invalidValue

/-- A run so far: the selected type is that of an enabled device, and every call was answered on the
device that was selected last before it. -/
structure Routed (w : WordCharacters) (tree : SourceTree) (devices : List DeviceType)
    (default : DeviceType) (asserts : Bool) (steps : List (RuntimeOp × Answer))
    (selected : RawType) :
    Prop where
  selected : ∃ device ∈ devices, selected = typeValue device ∧
    lastSelected devices default (steps.map Prod.fst) = device
  calls : ∀ i f answer, steps[i]? = some (.call f, answer) →
    AnswersOn w tree asserts (lastSelected devices default ((steps.take i).map Prod.fst)) f answer

theorem lastSelected_append (op : RuntimeOp) : lastSelected devices default (ops ++ [op]) =
    match op with
    | .setRuntimeDeviceType type =>
      (devices.find? (typeValue · = type)).getD (lastSelected devices default ops)
    | .call _ => lastSelected devices default ops := by
  rw [lastSelected, List.foldl_append]
  rfl

/-- A step of a thread whose type is enabled. -/
theorem step_spec (h : source.WrittenFor w tree devices default) (hdevice : device ∈ devices)
    (hstep : source.Step asserts (typeValue device) (op, answer) selected') :
    (∃ device' ∈ devices, selected' = typeValue device' ∧
      ∀ ops, lastSelected devices default ops = device →
        lastSelected devices default (ops ++ [op]) = device') ∧
    ∀ f, op = .call f → AnswersOn w tree asserts device f answer := by
  cases op with
  | setRuntimeDeviceType type =>
    refine ⟨?_, nofun⟩
    obtain ⟨type', hselect, heq⟩ := Option.map_eq_some_iff.mp hstep
    obtain rfl : type' = selected' := congrArg Prod.snd heq
    cases hfind : devices.find? (typeValue · = type) with
    | some device' =>
      have hvalue : typeValue device' = type := by simpa using List.find?_some hfind
      have hmem := List.mem_of_find?_eq_some hfind
      rw [← hvalue, select_of_mem h hmem] at hselect
      refine ⟨device', hmem, (Option.some.inj hselect).symm, fun ops hlast => ?_⟩
      rw [lastSelected_append]
      show (devices.find? (typeValue · = type)).getD _ = _
      rw [hfind, Option.getD_some]
    | none =>
      rw [select_of_not h hfind] at hselect
      split at hselect
      · cases hselect
      · refine ⟨device, hdevice, (Option.some.inj hselect).symm, fun ops hlast => ?_⟩
        rw [lastSelected_append]
        show (devices.find? (typeValue · = type)).getD _ = _
        rw [hfind, Option.getD_none, hlast]
  | call f =>
    obtain ⟨function, hfind, hrun⟩ := Option.bind_eq_some_iff.mp hstep
    obtain ⟨answer', hanswer, heq⟩ := Option.map_eq_some_iff.mp hrun
    obtain ⟨rfl, rfl⟩ := Prod.mk.inj heq
    refine ⟨⟨device, hdevice, rfl, fun ops hlast => ?_⟩, fun f' hf => ?_⟩
    · rw [lastSelected_append]
      exact hlast
    · obtain rfl := RuntimeOp.call.inj hf
      rcases runFunction_spec asserts h hdevice hfind with ⟨hmentions, hcalled⟩ | ⟨hnot, hnone⟩
      · exact .inl ⟨hmentions, Option.some.inj (hanswer.symm.trans hcalled)⟩
      · rw [hnone] at hanswer
        split at hanswer
        · cases hanswer
        · next hasserts =>
          exact .inr ⟨hnot, by simpa using hasserts, (Option.some.inj hanswer).symm⟩

/-- A step extends a run. -/
theorem Routed.step (hwritten : source.WrittenFor w tree devices default)
    (h : Routed w tree devices default asserts steps selected)
    (hstep : source.Step asserts selected (op, answer) selected') :
    Routed w tree devices default asserts (steps ++ [(op, answer)]) selected' := by
  obtain ⟨device, hdevice, rfl, hlast⟩ := h.selected
  obtain ⟨⟨device', hdevice', hselected', hlast'⟩, hanswer⟩ := step_spec hwritten hdevice hstep
  refine ⟨⟨device', hdevice', hselected', ?_⟩, fun i f answer' hi => ?_⟩
  · rw [List.map_append]
    exact hlast' _ hlast
  · rcases Nat.lt_trichotomy i steps.length with hlt | rfl | hgt
    · rw [List.getElem?_append_left hlt] at hi
      rw [List.take_append_of_le_length hlt.le]
      exact h.calls i f answer' hi
    · rw [List.getElem?_concat_length] at hi
      obtain ⟨rfl, rfl⟩ := Prod.mk.inj (Option.some.inj hi)
      rw [List.take_left, hlast]
      exact hanswer f rfl
    · rw [List.getElem?_eq_none (by simp; omega)] at hi
      cases hi

/-- A function that the selected device has can be called. -/
theorem perform_call (hwritten : source.WrittenFor w tree devices default)
    (hdevice : device ∈ devices)
    (hf : f ∈ publicRuntimeFunctions) (hmentions : Mentions w tree device f) :
    source.perform asserts (typeValue device) (.call f) =
      some (.called (runtimeCall f device), typeValue device) := by
  obtain ⟨function, hfind⟩ := hwritten.complete f hf device hdevice hmentions
  rcases runFunction_spec asserts hwritten hdevice hfind with ⟨-, hcalled⟩ | ⟨hnot, -⟩
  · show (source.functions.find? _).bind _ = _
    rw [hfind, Option.bind_some, hcalled, Option.map_some]
  · exact absurd hmentions hnot

/-- **Every call of every run goes to the device that was selected last**, and to the function that
the client called, if the runtime header of the device has its name.  The devices are those of the
arguments, and the thread starts with the one of the highest priority. -/
theorem dispatch_run (w : WordCharacters) (tree : SourceTree) (names : List String)
    (devices : List DeviceType) (hnames : names ≠ []) (hselect : selectDevices names = some devices)
    (hseeds : ∀ path ∈ seedHeaders devices, (tree.file path).isSome) :
    ∃ source default, writeRuntimeDispatch w tree devices = some source ∧
      (∀ device ∈ devices,
        defaultDevicePriority.idxOf default ≤ defaultDevicePriority.idxOf device) ∧
      (∀ device, device ∈ devices ↔ deviceName device ∈ names) ∧
      ∀ asserts steps selected, Run (source.Step asserts) source.defaultType steps selected →
        Routed w tree devices default asserts steps selected ∧
        ∀ device ∈ devices, ∀ f ∈ publicRuntimeFunctions, Mentions w tree device f →
          source.perform asserts (typeValue device) (.call f) =
            some (.called (runtimeCall f device), typeValue device) := by
  obtain ⟨hne, -, hmem⟩ := selectDevices_spec hnames hselect
  obtain ⟨source, default, hsource, hdefault, hwritten⟩ :=
    writeRuntimeDispatch_spec (w := w) hne hseeds
  obtain ⟨default', hdefault', -, hpriority⟩ := defaultDevice_spec hne
  obtain rfl := Option.some.inj (hdefault.symm.trans hdefault')
  refine ⟨source, default, hsource, hpriority, hmem, fun asserts steps selected hrun => ⟨?_, ?_⟩⟩
  · exact hrun.history (Routed w tree devices default asserts)
      (fun _ _ _ _ h hstep => h.step hwritten hstep)
      ⟨⟨default, hwritten.default_mem, hwritten.defaultType, rfl⟩, nofun⟩
  · exact fun device hdevice f hf hmentions => perform_call hwritten hdevice hf hmentions

/-- Letters, digits and the underscore. -/
def asciiWords : WordCharacters := ⟨fun c => c.isAlphanum || c == '_', fun _ h => h⟩

/-- A tree in which every header declares `Malloc`. -/
def mallocOnly : SourceTree where
  file _ := some "auto Malloc = f;".toList
  texts := ["auto Malloc = f;".toList]
  file_mem _ _ h := List.mem_singleton.mpr (Option.some.inj h).symm

theorem dispatch_run_mallocOnly :
    ∃ source default, writeRuntimeDispatch asciiWords mallocOnly [.cpu, .nvidia] = some source ∧
      (∀ device ∈ [DeviceType.cpu, .nvidia],
        defaultDevicePriority.idxOf default ≤ defaultDevicePriority.idxOf device) ∧
      (∀ device, device ∈ [DeviceType.cpu, .nvidia] ↔
        deviceName device ∈ ["cpu", "nvidia", "cpu"]) ∧
      ∀ asserts steps selected, Run (source.Step asserts) source.defaultType steps selected →
        Routed asciiWords mallocOnly [.cpu, .nvidia] default asserts steps selected ∧
        ∀ device ∈ [DeviceType.cpu, .nvidia], ∀ f ∈ publicRuntimeFunctions,
          Mentions asciiWords mallocOnly device f →
          source.perform asserts (typeValue device) (.call f) =
            some (.called (runtimeCall f device), typeValue device) :=
  dispatch_run asciiWords mallocOnly ["cpu", "nvidia", "cpu"] [.cpu, .nvidia] (by decide)
    (by decide)
    fun _ _ => rfl

end ClientRuns

end InfiniRT.Headers
