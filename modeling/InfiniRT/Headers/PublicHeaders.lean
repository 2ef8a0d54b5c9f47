import InfiniRT.Headers.RuntimeDispatch
import InfiniRT.Library.Brackets

/-!
# The public headers

Under the include root the generator writes the detail headers, a wrapper for every header of a
selected device, and `generated.h`.  Everything that one of these files includes from `infini/rt` on
behalf of the generator is a file that was written, no path is written twice, and no include guard
hides one of the wrappers or `generated.h` behind another.  A path is taken as it is written,
without resolving `..` or `//`.  The texts are built here as the generator builds them: a text of
several lines is a list of parts that are joined, and a part may itself be several lines.  Proved:

* **`includesIn_generatedHeader`** — what `generated.h` includes;
* **`guards_publicFiles`** — a generated file is the only one with its include guard;
* **`writePublicHeaders_publicTree`** — the generator writes a public tree, the same files in any
  order.
-/

namespace InfiniRT.Headers

open InfiniRT.Library
open InfiniRT.Tensor (DeviceType)

/-! ### Wrappers -/

/-- Join the parts of a path. -/
def joinPath (parts : List Text) : Path := ['/'].intercalate parts

/-- The letters of a guard: `replace(".", "_").upper()`. -/
def guardToken (text : Text) : Text :=
  (text.map fun c => if c = '.' then '_' else c).map Char.toUpper

/-- `_guard`. -/
def guard (parts : List Text) : Text :=
  "INFINI_RT_GENERATED_".toList ++ (guardToken (['_'].intercalate parts) ++ ['_'])

/-- How a header starts that is read once. -/
def guardLines (name : Text) : List Text :=
  ["#ifndef ".toList ++ name, "#define ".toList ++ name, []]

/-- Where a wrapper goes. -/
def wrapperParts (device headerName : String) : List Text :=
  ["infini".toList, "rt".toList, device.toList, headerName.toList]

/-- `_write_wrapper`: where it writes, and what. -/
def writeWrapper (device headerName target : String) : Path × Text :=
  (joinPath (wrapperParts device headerName),
    joinLines (guardLines (guard (wrapperParts device headerName)) ++
      ["#include ".toList ++ detailInclude target.toList, [], "#endif".toList, []]))

/-- The wrappers of the devices, in the order of `main`. -/
def writeWrappers (devices : List DeviceType) : List (Path × Text) :=
  devices.flatMap fun device =>
    (deviceHeaders device).map fun header => writeWrapper header.1 header.2.1 header.2.2

/-! ### The generated header -/

/-- The include of a wrapper. -/
def wrapperInclude (headerName : String) (device : DeviceType) : Text :=
  "#include <".toList ++ (joinPath (wrapperParts (deviceName device) headerName) ++ ['>'])

/-- The device has a header for its driver. -/
def hasDriver (device : DeviceType) : Bool :=
  (deviceHeaders device).any fun header => header.2.1 = "driver_.h"

/-- `includes`. -/
def generatedIncludes (devices : List DeviceType) : List Text :=
  ["#include <cstddef>".toList, "#include <cstdint>".toList, "#include <type_traits>".toList] ++
  (["data_type.h".toList, "device.h".toList, "driver.h".toList, "hash.h".toList, "runtime.h".toList,
    "tensor_view.h".toList].map fun header => "#include ".toList ++ detailInclude header) ++
  devices.map (wrapperInclude "device_.h") ++
  devices.map (wrapperInclude "runtime_.h") ++
  (devices.filter hasDriver).map (wrapperInclude "driver_.h")

/-- `has_graph_api`. -/
def hasGraphApi (functions : List RuntimeFunction) : Bool :=
  functions.any fun f => f.name = "StreamBeginCapture" || f.name = "GraphLaunch"

/-- `graph_declarations`. -/
def graphDeclarations (functions : List RuntimeFunction) : Text :=
  if hasGraphApi functions then
    joinLines [
      [],
      "using Graph = void*;".toList,
      [],
      "using GraphExec = void*;".toList,
      [],
      "enum class StreamCaptureMode \x7b".toList,
      "  kStreamCaptureModeGlobal = 0,".toList,
      "  kStreamCaptureModeThreadLocal = 1,".toList,
      "  kStreamCaptureModeRelaxed = 2,".toList,
      "\x7d;".toList,
      []]
  else []

/-- A function of the interface has this name. -/
def hasName (functions : List RuntimeFunction) (name : String) : Bool :=
  functions.any fun f => f.name = name

/-- The declarations of `runtime_declarations`, which are separated by empty lines. -/
def runtimeDeclarations (functions : List RuntimeFunction) : List Text :=
  (functions.map fun f => f.signature ++ [';']) ++
  (if hasName functions "GetDeviceCount" then
    ["Error GetDeviceCount(Device::Type type, int* count);".toList] else []) ++
  if hasName functions "EventQuery" then ["bool IsEventNotReady(Error status);".toList] else []

/-- The lines of `generated.h` that name the default device. -/
def defaultDeviceLines (default : DeviceType) : List Text :=
  ["using DefaultErrorRuntime = Runtime<".toList ++
    ((deviceTypeName default).toList ++ ">;".toList),
    [],
    "inline constexpr Device::Type kDefaultDeviceType = ".toList ++
      ((deviceTypeName default).toList ++ [';'])]

/-- The text of `generated.h` between the includes and the declarations of the functions. -/
def generatedHeaderBody (functions : List RuntimeFunction) (default : DeviceType) : List Text :=
  [ [],
    "namespace infini::rt \x7b".toList,
    [],
    "void set_runtime_device_type(Device::Type device_type);".toList,
    [],
    "Device::Type runtime_device_type();".toList,
    [],
    "namespace runtime \x7b".toList,
    "namespace generated_detail \x7b".toList,
    []] ++
  defaultDeviceLines default ++
  [ [],
    "\x7d  // namespace generated_detail".toList,
    [],
    "using Error = typename generated_detail::DefaultErrorRuntime::Error;".toList,
    [],
    "using Stream = typename generated_detail::DefaultErrorRuntime::Stream;".toList,
    [],
    "using Event = void*;".toList,
    []] ++
  graphDeclarations functions ::
  [ "using MemcpyKind = std::remove_cv_t<".toList,
    "    decltype(generated_detail::DefaultErrorRuntime::kMemcpyHostToHost)>;".toList,
    [],
    "inline constexpr Error kSuccess = generated_detail::DefaultErrorRuntime::kSuccess;".toList,
    [],
    "inline constexpr MemcpyKind kMemcpyHostToHost =".toList,
    "    generated_detail::DefaultErrorRuntime::kMemcpyHostToHost;".toList,
    [],
    "inline constexpr MemcpyKind kMemcpyHostToDevice =".toList,
    "    generated_detail::DefaultErrorRuntime::kMemcpyHostToDevice;".toList,
    [],
    "inline constexpr MemcpyKind kMemcpyDeviceToHost =".toList,
    "    generated_detail::DefaultErrorRuntime::kMemcpyDeviceToHost;".toList,
    [],
    "inline constexpr MemcpyKind kMemcpyDeviceToDevice =".toList,
    "    generated_detail::DefaultErrorRuntime::kMemcpyDeviceToDevice;".toList,
    []]

/-- The text after them. -/
def generatedHeaderEnd : List Text :=
  [[], "\x7d  // namespace runtime".toList, "\x7d  // namespace infini::rt".toList, [],
    "#endif".toList, []]

/-- Where `generated.h` goes. -/
def generatedHeaderPath : Path := joinPath ["infini".toList, "rt".toList, "generated.h".toList]

/-- The text of `generated.h`. -/
def generatedHeaderText (functions : List RuntimeFunction) (default : DeviceType)
    (devices : List DeviceType) : Text :=
  joinLines (guardLines "INFINI_RT_GENERATED_PUBLIC_H_".toList ++
    joinLines (generatedIncludes devices) :: (generatedHeaderBody functions default ++
      joinLines ((runtimeDeclarations functions).intersperse []) :: generatedHeaderEnd))

variable (w : WordCharacters) (tree : SourceTree)

/-- `_write_generated_header`: where it writes, and what. -/
def writeGeneratedHeader (devices : List DeviceType) : Option (Path × Text) := do
  let default ← defaultDevice devices
  let functions ← publicRuntimeFunctionsForDevices w tree devices
  return (generatedHeaderPath, generatedHeaderText functions default devices)

/-- What `main` writes under the include root, in order. -/
def writePublicHeaders (order : SetOrder Path) (devices : List DeviceType) (fuel : ℕ) :
    Option (List (Path × Text)) := do
  let detailHeaders ← writeDetailHeaders order tree devices fuel
  let generated ← writeGeneratedHeader w tree devices
  return detailHeaders ++ writeWrappers devices ++ [generated]

/-! ### Reading the files -/

/-- What a line includes. -/
def includeOf? (line : Text) : Option Path := between? "#include <".toList ['>'] line

/-- What a file includes, line by line. -/
def includesIn (text : Text) : List Path := (linesOf text).filterMap includeOf?

/-- What the first line asks not to be defined. -/
def guardOf? (text : Text) : Option Text :=
  (linesOf text).head?.bind (between? "#ifndef ".toList [])

/-! ### Lines of a text of several parts -/

section Parts

variable {text line target : Text} {parts : List Text} {c : Char}

theorem linesOf_of_oneLine (h : OneLine text) : linesOf text = [text] := List.splitOn_eq_singleton h

/-- The lines of the parts, one part after the other. -/
theorem linesOf_joinLines_parts (hne : parts ≠ []) :
    linesOf (joinLines parts) = parts.flatMap linesOf := by
  induction parts with
  | nil => exact absurd rfl hne
  | cons text parts ih =>
    rcases parts with _ | ⟨next, parts⟩
    · simp [joinLines]
    · have hjoin : joinLines (text :: next :: parts) =
          text ++ '\n' :: joinLines (next :: parts) := by
        unfold joinLines
        rw [List.intercalate_cons_cons, List.append_assoc, List.singleton_append]
      rw [hjoin, linesOf, List.splitOn_append_cons_self, List.flatMap_cons]
      exact congrArg (linesOf text ++ ·) (ih (List.cons_ne_nil next parts))

theorem includesIn_joinLines (hne : parts ≠ []) :
    includesIn (joinLines parts) = parts.flatMap includesIn := by
  rw [includesIn, linesOf_joinLines_parts hne, List.filterMap_flatMap]
  rfl

theorem includesIn_of_oneLine (h : OneLine line) : includesIn line = (includeOf? line).toList := by
  rw [includesIn, linesOf_of_oneLine h]
  cases hinclude : includeOf? line <;> simp [hinclude]

/-- A line that does not start with the mark of a directive includes nothing. -/
theorem includeOf?_of_head (hc : c ≠ '#') : includeOf? (c :: text) = none := by
  refine Option.eq_none_iff_forall_ne_some.mpr fun target htarget => ?_
  have hline := between?_eq_some.mp htarget
  have hstart : "#include <".toList = '#' :: "include <".toList := rfl
  rw [hstart, List.cons_append] at hline
  exact hc (List.cons.inj hline).1

/-- An include in brackets. -/
theorem includesIn_bracketed (htarget : OneLine target) :
    includesIn ("#include ".toList ++ '<' :: (target ++ ['>'])) = [target] := by
  have hline : "#include ".toList ++ '<' :: (target ++ ['>']) =
      "#include <".toList ++ (target ++ ['>']) := rfl
  rw [hline, includesIn_of_oneLine (OneLine.append (by decide) (htarget.append (by decide))),
    includeOf?, between?_eq_some.mpr rfl]
  rfl

theorem includesIn_detailInclude (htarget : OneLine target) :
    includesIn ("#include ".toList ++ detailInclude target) = [outputPath target] := by
  have hpath : OneLine (outputPath target) := OneLine.append (by decide) (htarget.cons (by decide))
  exact includesIn_bracketed hpath

end Parts

/-! ### Wrappers of different headers -/

section Wrappers

variable {device device' : DeviceType} {header header' : String × String × String}
  {text text' : Text}
  {parts : List Text}

/-- The headers of a device are in one directory. -/
theorem deviceHeaders_eq (device : DeviceType) : ∃ directory names,
    deviceHeaders device = backendHeaders (deviceName device) directory names ∧
      OneLine directory.toList ∧ ∀ name ∈ names, OneLine name.toList := by
  cases device <;> exact ⟨_, _, rfl, by decide, by decide⟩

theorem deviceHeaders_spec (hheader : header ∈ deviceHeaders device) :
    header.1 = deviceName device ∧ OneLine header.2.1.toList ∧ OneLine header.2.2.toList := by
  obtain ⟨directory, names, heq, hdirectory, hnames⟩ := deviceHeaders_eq device
  rw [heq] at hheader
  obtain ⟨name, hname, rfl⟩ := List.mem_map.mp hheader
  refine ⟨rfl, hnames name hname, ?_⟩
  simp only [String.toList_append]
  exact (hdirectory.append (by decide)).append (hnames name hname)

theorem oneLine_deviceName (device : DeviceType) : OneLine (deviceName device).toList := by
  cases device <;> decide

/-- The path of a wrapper. -/
theorem joinPath_wrapperParts (device headerName : String) :
    joinPath (wrapperParts device headerName) =
      "infini/rt/".toList ++ (device.toList ++ '/' :: headerName.toList) := by
  simp [joinPath, wrapperParts, List.intercalate_cons_cons]

theorem guardToken_append (text text' : Text) :
    guardToken (text ++ text') = guardToken text ++ guardToken text' := by
  simp only [guardToken, List.map_append]

theorem guardToken_wrapper (device headerName : Text) :
    guardToken ("infini_rt_".toList ++ (device ++ '_' :: headerName)) =
      "INFINI_RT_".toList ++ (guardToken device ++ '_' :: guardToken headerName) := by
  have hstart : guardToken "infini_rt_".toList = "INFINI_RT_".toList := by decide +kernel
  have hseparator : guardToken ('_' :: headerName) = '_' :: guardToken headerName := rfl
  rw [guardToken_append, hstart, guardToken_append, hseparator]

theorem guard_wrapperParts (device headerName : String) : guard (wrapperParts device headerName) =
    "INFINI_RT_GENERATED_".toList ++ ("INFINI_RT_".toList ++
      (guardToken device.toList ++ '_' :: (guardToken headerName.toList ++ ['_']))) := by
  have hparts : ['_'].intercalate (wrapperParts device headerName) =
      "infini_rt_".toList ++ (device.toList ++ '_' :: headerName.toList) := by
    simp [wrapperParts, List.intercalate_cons_cons]
  unfold guard
  rw [hparts, guardToken_wrapper, List.append_assoc, List.append_assoc, List.cons_append]

/-- Two texts that end at the next separator. -/
theorem separator_inj {separator : Char} {rest rest' : Text} (htext : separator ∉ text)
    (htext' : separator ∉ text') (h : text ++ separator :: rest = text' ++ separator :: rest') :
    text = text' ∧ rest = rest' := by
  have hstops : ∀ rest : Text, ∀ c ∈ (separator :: rest).head?, c = separator := fun rest c hc =>
    (Option.some.inj hc).symm
  obtain ⟨hsame, hrest⟩ := @Brackets.append_inj_of_head Char (· = separator) _ _ _ _
    (fun c hc heq => htext (heq ▸ hc)) (fun c hc heq => htext' (heq ▸ hc)) (hstops rest)
    (hstops rest') h
  exact ⟨hsame, (List.cons.inj hrest).2⟩

/-- The name of a device ends at the next separator, in a path and in a guard. -/
theorem device_of_append (render : Text → Text) {separator : Char} {rest rest' : Text}
    (hrender : ∀ device device' : DeviceType, render (deviceName device).toList =
      render (deviceName device').toList → device = device')
    (hseparator : ∀ device : DeviceType, separator ∉ render (deviceName device).toList)
    (h : render (deviceName device).toList ++ separator :: rest =
      render (deviceName device').toList ++ separator :: rest') :
        device = device' ∧ rest = rest' := by
  obtain ⟨hname, hrest⟩ := separator_inj (hseparator device) (hseparator device') h
  exact ⟨hrender device device' hname, hrest⟩

theorem slash_notMem_deviceName (device : DeviceType) : '/' ∉ (deviceName device).toList := by
  cases device <;> decide

theorem underscore_notMem_token (device : DeviceType) :
    '_' ∉ guardToken (deviceName device).toList := by
  cases device <;> decide +kernel

theorem token_deviceName_injective (device device' : DeviceType)
    (h : guardToken (deviceName device).toList = guardToken (deviceName device').toList) :
    device = device' := by
  cases device <;> cases device' <;> first | rfl | exact absurd h (by decide +kernel)

theorem header_of_token (device : DeviceType) : ∀ header ∈ deviceHeaders device,
    ∀ header' ∈ deviceHeaders device,
      guardToken header.2.1.toList = guardToken header'.2.1.toList → header = header' := by
  cases device <;> decide +kernel

end Wrappers

/-! ### What the generated files include -/

section Includes

variable {line name target : Text} {lines : List Text} {functions : List RuntimeFunction}
  {devices : List DeviceType} {device default : DeviceType} {header : String × String × String}

/-- What holds of the characters of a literal holds of the literal. -/
theorem of_literal (P : Text → Prop) {characters : List Char} (h : P characters) :
    P (String.ofList characters).toList := by
  rwa [String.toList_ofList]

/-- A line that is no directive. -/
structure PlainLine (line : Text) : Prop where
  oneLine : OneLine line
  head : line.head? ≠ some '#'

instance (line : Text) : Decidable (PlainLine line) :=
  decidable_of_iff (OneLine line ∧ line.head? ≠ some '#') ⟨fun h => ⟨h.1, h.2⟩, fun h => ⟨h.1, h.2⟩⟩

theorem plainLine_nil : PlainLine [] := by decide

theorem PlainLine.includesIn (h : PlainLine line) : includesIn line = [] := by
  rw [includesIn_of_oneLine h.oneLine]
  cases line with
  | nil => rfl
  | cons c line => rw [includeOf?_of_head fun hc => h.head (congrArg some hc), Option.toList_none]

theorem flatMap_includesIn_eq_nil (h : ∀ line ∈ lines, PlainLine line) :
    lines.flatMap Headers.includesIn = [] :=
  List.flatMap_eq_nil_iff.mpr fun line hline => (h line hline).includesIn

/-- The lines of a guard are directives of other kinds. -/
theorem includesIn_guardLines (h : OneLine name) : (guardLines name).flatMap includesIn = [] := by
  have hother : ∀ start : Text, OneLine start →
      (∀ rest rest', start ++ rest ≠ "#include <".toList ++ rest') →
      includesIn (start ++ name) = [] := by
    intro start hstart hne
    have hnone : includeOf? (start ++ name) = none := Option.eq_none_iff_forall_ne_some.mpr
      fun target htarget => hne name _ (between?_eq_some.mp htarget)
    rw [includesIn_of_oneLine (hstart.append h), hnone, Option.toList_none]
  have hifndef : ∀ rest rest' : Text, "#ifndef ".toList ++ rest ≠ "#include <".toList ++ rest' := by
    simp
  have hdefine : ∀ rest rest' : Text, "#define ".toList ++ rest ≠ "#include <".toList ++ rest' := by
    simp
  rw [guardLines, List.flatMap_cons, List.flatMap_cons, hother _ (by decide) hifndef,
    hother _ (by decide) hdefine]
  rfl

theorem oneLine_guardToken (h : OneLine name) : OneLine (guardToken name) := by
  have hupper : ∀ c : Char, c.toUpper = '\n' → c = '\n' := by
    intro c hc
    delta Char.toUpper at hc
    split at hc
    next hlower =>
      -- the line end is not the capital of a letter
      have hval := congrArg Char.val hc
      have hcode : c.val = '\n'.val - ('A'.val - 'a'.val) := by
        rw [← hval, UInt32.add_sub_cancel]
      rw [hcode] at hlower
      exact absurd hlower (by decide)
    next => exact hc
  intro hmem
  obtain ⟨c, hc, hnewline⟩ := List.mem_map.mp hmem
  obtain ⟨d, hd, rfl⟩ := List.mem_map.mp hc
  have hsame := hupper _ hnewline
  split at hsame
  · exact absurd hsame (by decide)
  · exact h (hsame ▸ hd)

theorem oneLine_guard (hheader : header ∈ deviceHeaders device) :
    OneLine (guard (wrapperParts header.1 header.2.1)) := by
  obtain ⟨hname, hheaderName, -⟩ := deviceHeaders_spec hheader
  rw [guard_wrapperParts, hname]
  have hdevice := oneLine_guardToken (oneLine_deviceName device)
  exact OneLine.append (by decide) (.append (by decide) (hdevice.append
    (.cons (by decide) ((oneLine_guardToken hheaderName).append (by decide)))))

/-- A wrapper includes the header of the backend, and nothing else. -/
theorem includesIn_writeWrapper (hheader : header ∈ deviceHeaders device) :
    includesIn (writeWrapper header.1 header.2.1 header.2.2).2 =
      [outputPath header.2.2.toList] := by
  obtain ⟨-, -, htarget⟩ := deviceHeaders_spec hheader
  have hend : ([[], "#endif".toList, []] : List Text).flatMap includesIn = [] := by decide +kernel
  rw [writeWrapper, includesIn_joinLines (by simp [guardLines]), List.flatMap_append,
    includesIn_guardLines (oneLine_guard hheader), List.nil_append, List.flatMap_cons,
    includesIn_detailInclude htarget, hend]
  rfl

theorem mem_intersperse {separator line : Text} (h : line ∈ lines.intersperse separator) :
    line = separator ∨ line ∈ lines := by
  induction lines with
  | nil => exact .inr h
  | cons first lines ih =>
    rcases lines with _ | ⟨next, lines⟩
    · exact .inr h
    · rw [List.intersperse_cons_cons] at h
      rcases List.mem_cons.mp h with rfl | h
      · exact .inr List.mem_cons_self
      · rcases List.mem_cons.mp h with rfl | h
        · exact .inl rfl
        · exact (ih h).imp_right (List.mem_cons_of_mem _)

/-- The declarations of the table start with the type of an error. -/
theorem signature_eq {f : RuntimeFunction} (hf : f.WellFormed) :
    f.signature = "Error ".toList ++ (f.name.toList ++ '(' :: (f.paramsDecl ++ [')'])) := by
  rw [RuntimeFunction.signature, hf.returnType]
  rfl

theorem mem_runtimeDeclarations (h : line ∈ runtimeDeclarations functions) :
    (∃ f ∈ functions, line = f.signature ++ [';']) ∨
      line ∈ ["Error GetDeviceCount(Device::Type type, int* count);".toList,
        "bool IsEventNotReady(Error status);".toList] := by
  rcases List.mem_append.mp h with h | h
  · rcases List.mem_append.mp h with h | h
    · obtain ⟨f, hf, rfl⟩ := List.mem_map.mp h
      exact .inl ⟨f, hf, rfl⟩
    · split at h
      · exact .inr (List.mem_cons.mpr (.inl (List.mem_singleton.mp h)))
      · cases h
  · split at h
    · exact .inr (List.mem_cons_of_mem _ h)
    · cases h

theorem plainLine_declaration (hf : ∀ f ∈ functions, f.WellFormed)
    (h : line ∈ runtimeDeclarations functions) : PlainLine line := by
  rcases mem_runtimeDeclarations h with ⟨f, hmem, rfl⟩ | hline
  · refine ⟨(hf f hmem).oneLine_signature.append (by decide), ?_⟩
    rw [signature_eq (hf f hmem)]
    exact fun h => absurd (Option.some.inj h) (by decide)
  · rcases List.mem_cons.mp hline with rfl | hline
    · exact of_literal PlainLine (by decide)
    · rw [List.mem_singleton.mp hline]
      exact of_literal PlainLine (by decide)

/-- Declarations include nothing. -/
theorem includesIn_declarations (hf : ∀ f ∈ functions, f.WellFormed) :
    includesIn (joinLines ((runtimeDeclarations functions).intersperse [])) = [] := by
  cases hlines : (runtimeDeclarations functions).intersperse [] with
  | nil => rfl
  | cons first lines =>
    rw [includesIn_joinLines (List.cons_ne_nil first lines), ← hlines]
    refine flatMap_includesIn_eq_nil fun line hline => ?_
    rcases mem_intersperse hline with rfl | hline
    · decide
    · exact plainLine_declaration hf hline

theorem plainLine_defaultDevice (default : DeviceType) :
    ∀ line ∈ defaultDeviceLines default, PlainLine line := by
  have htype := oneLine_deviceTypeName default
  simp only [defaultDeviceLines, List.forall_mem_cons]
  refine ⟨⟨OneLine.append (of_literal OneLine (by decide)) (htype.append (by decide)), ?_⟩,
    by decide, ⟨OneLine.append (of_literal OneLine (by decide)) (htype.append (by decide)), ?_⟩,
    List.forall_mem_nil _⟩ <;>
  exact fun h => absurd (Option.some.inj h) (by decide)

/-- The graph types are declared with plain lines. -/
theorem includesIn_graphDeclarations (functions : List RuntimeFunction) :
    includesIn (graphDeclarations functions) = [] := by
  unfold graphDeclarations
  split
  · rw [includesIn_joinLines (List.cons_ne_nil _ _)]
    refine flatMap_includesIn_eq_nil ?_
    simp only [List.forall_mem_cons, plainLine_nil, true_and]
    and_intros <;> first
      | exact of_literal PlainLine (by decide)
      | exact List.forall_mem_nil _
  · rfl

/-- The rest of `generated.h` includes nothing. -/
theorem includesIn_generatedHeaderBody (functions : List RuntimeFunction) (default : DeviceType) :
    (generatedHeaderBody functions default).flatMap includesIn = [] := by
  refine List.flatMap_eq_nil_iff.mpr ?_
  simp only [generatedHeaderBody, List.forall_mem_append, List.forall_mem_cons,
    plainLine_nil.includesIn, includesIn_graphDeclarations, true_and]
  and_intros <;> first
    | exact (of_literal PlainLine (by decide)).includesIn
    | exact List.forall_mem_nil _
    | exact fun line hline => (plainLine_defaultDevice default line hline).includesIn

/-- The standard headers. -/
def standardHeaders : List Path := ["cstddef".toList, "cstdint".toList, "type_traits".toList]

/-- The detail headers that `generated.h` includes. -/
def includedDetails : List Path :=
  ["data_type.h".toList, "device.h".toList, "driver.h".toList, "hash.h".toList, "runtime.h".toList,
    "tensor_view.h".toList]

/-- The path of the wrapper of a header. -/
def wrapperPath (headerName : String) (device : DeviceType) : Path :=
  joinPath (wrapperParts (deviceName device) headerName)

theorem oneLine_wrapperPath {headerName : String} (h : OneLine headerName.toList)
    (device : DeviceType) :
    OneLine (wrapperPath headerName device) := by
  rw [wrapperPath, joinPath_wrapperParts]
  exact OneLine.append (by decide) ((oneLine_deviceName device).append (h.cons (by decide)))

theorem flatMap_includesIn_wrapperInclude {headerName : String} (h : OneLine headerName.toList)
    (devices : List DeviceType) : (devices.map (wrapperInclude headerName)).flatMap includesIn =
      devices.map (wrapperPath headerName) := by
  rw [List.flatMap_map]
  induction devices with
  | nil => rfl
  | cons device devices ih =>
    rw [List.flatMap_cons, ih, List.map_cons]
    exact congrArg (· ++ _) (includesIn_bracketed (oneLine_wrapperPath h device))

/-- **What `generated.h` includes**: standard headers, detail headers and wrappers of the
devices. -/
theorem includesIn_generatedHeader (hf : ∀ f ∈ functions, f.WellFormed) :
    includesIn (generatedHeaderText functions default devices) =
      standardHeaders ++ includedDetails.map outputPath ++ devices.map (wrapperPath "device_.h") ++
        devices.map (wrapperPath "runtime_.h") ++ (devices.filter hasDriver).map
          (wrapperPath "driver_.h") := by
  have hguard : (guardLines "INFINI_RT_GENERATED_PUBLIC_H_".toList).flatMap includesIn = [] :=
    includesIn_guardLines (of_literal OneLine (by decide))
  have hend : generatedHeaderEnd.flatMap includesIn = [] := by decide +kernel
  have hincludes : (generatedIncludes devices).flatMap includesIn =
      standardHeaders ++ includedDetails.map outputPath ++ devices.map (wrapperPath "device_.h") ++
        devices.map (wrapperPath "runtime_.h") ++
        (devices.filter hasDriver).map (wrapperPath "driver_.h") := by
    simp only [generatedIncludes, List.flatMap_append]
    rw [flatMap_includesIn_wrapperInclude (by decide),
      flatMap_includesIn_wrapperInclude (by decide), flatMap_includesIn_wrapperInclude (by decide)]
    congr 4
  have hne : generatedIncludes devices ≠ [] := by simp [generatedIncludes]
  rw [generatedHeaderText, includesIn_joinLines (by simp [guardLines]), List.flatMap_append, hguard,
    List.nil_append, List.flatMap_cons, includesIn_joinLines hne, hincludes, List.flatMap_append,
    includesIn_generatedHeaderBody, List.nil_append, List.flatMap_cons, includesIn_declarations hf,
    List.nil_append, hend, List.append_nil]

/-- A device has the headers that `generated.h` includes of it. -/
theorem exists_deviceHeader (device : DeviceType) :
    (∃ header ∈ deviceHeaders device, header.2.1 = "device_.h") ∧
    (∃ header ∈ deviceHeaders device, header.2.1 = "runtime_.h" ∧
      runtimeHeaderForDevice device = some header.2.2.toList) ∧
    (hasDriver device = true → ∃ header ∈ deviceHeaders device, header.2.1 = "driver_.h") := by
  refine ⟨?_, ?_, fun h => ?_⟩
  · cases device <;> exact ⟨_, List.mem_cons_of_mem _ List.mem_cons_self, rfl⟩
  · cases device <;>
      exact ⟨_, List.mem_cons_of_mem _ (List.mem_cons_of_mem _ List.mem_cons_self), rfl, rfl⟩
  · obtain ⟨header, hheader, hname⟩ := List.any_eq_true.mp h
    exact ⟨header, hheader, of_decide_eq_true hname⟩

end Includes

/-! ### The whole tree -/

section Tree

variable {w : WordCharacters} {tree : SourceTree} {devices : List DeviceType}
  {device device' default : DeviceType} {header header' : String × String × String}
  {files : List (Path × Text)} {file file' : Path × Text} {path target : Path} {text : Text}

/-- A file includes another one, on a line of its own. -/
def Includes (files : List (Path × Text)) (path target : Path) : Prop :=
  ∃ text, (path, text) ∈ files ∧ target ∈ includesIn text

/-- The file is a detail header. -/
def IsDetail (path : Path) : Prop := ∃ source, path = outputPath source

/-- **What a public tree has to be** for programs that include its headers. -/
structure PublicTree (tree : SourceTree) (devices : List DeviceType) (files : List (Path × Text)) :
    Prop where
  /-- No two files are written to one path, where a path is what was written: `..` and `//` are not
  resolved. -/
  paths : (files.map Prod.fst).Nodup
  /-- A detail header is the rewritten source, and what was rewritten in it and exists is there. -/
  details : ∀ source text, (outputPath source, text) ∈ files → ∃ original,
    tree.file source = some original ∧ text = substitute original ∧
      ∀ target, .rewritten target ∈ pieces 0 original → (tree.file target).isSome →
        outputPath target ∈ files.map Prod.fst
  /-- What a generated file includes is there, or a standard header. -/
  includes : ∀ file ∈ files, ¬IsDetail file.1 → ∀ target ∈ includesIn file.2,
    target ∈ files.map Prod.fst ∨ target ∈ standardHeaders
  /-- A generated file has a guard of its own. -/
  guards : ∀ file ∈ files, ∀ file' ∈ files, ¬IsDetail file.1 → ¬IsDetail file'.1 →
    (guardOf? file.2).isSome ∧ (guardOf? file.2 = guardOf? file'.2 → file = file')
  /-- `generated.h` brings in the runtime of every device. -/
  runtimes : ∀ device ∈ devices, ∃ source, runtimeHeaderForDevice device = some source ∧
    outputPath source ∈ files.map Prod.fst ∧
    Relation.ReflTransGen (Includes files) generatedHeaderPath (outputPath source)

/-- What `_write_detail_headers` writes, in any order. -/
theorem writeDetailHeaders_spec (hseeds : ∀ path ∈ seedHeaders devices, (tree.file path).isSome) :
    ∃ detailHeaders : Finset Path, IncludeClosed tree devices (↑detailHeaders : Set Path) ∧
      (∀ path ∈ detailHeaders, (tree.file path).isSome) ∧
      ∀ order fuel, (nodes tree devices).card < fuel → writeDetailHeaders order tree devices fuel =
        some ((sortedOrder.list 0 detailHeaders).map (detailOutput tree)) := by
  obtain ⟨detailHeaders, -, hleast⟩ :=
    run_includeClosed sortedOrder hseeds (Nat.lt_succ_self (nodes tree devices).card)
  have hexists : ∀ path ∈ detailHeaders, (tree.file path).isSome := fun path hpath =>
    hleast.2 (includeClosed_exists hseeds) (Finset.mem_coe.mpr hpath)
  refine ⟨detailHeaders, hleast.1, hexists, fun order fuel hfuel => ?_⟩
  obtain ⟨found, hrun, hfound⟩ := run_includeClosed order hseeds hfuel
  obtain rfl := Finset.coe_injective (hfound.unique hleast)
  rw [writeDetailHeaders, hrun]
  refine mapM_eq_some_map fun path hpath => ?_
  obtain ⟨text, htext⟩ := Option.isSome_iff_exists.mp (hexists path ((Finset.mem_sort _).mp hpath))
  rw [writeDetailHeader_eq htext, detailOutput_eq htext]

theorem outputPath_injective : Function.Injective outputPath := fun _ _ h =>
  (List.cons.inj (List.append_cancel_left h)).2

/-- A wrapper is among the files of its devices. -/
theorem mem_writeWrappers : file ∈ writeWrappers devices ↔ ∃ device ∈ devices,
    ∃ header ∈ deviceHeaders device, file = writeWrapper header.1 header.2.1 header.2.2 := by
  simp only [writeWrappers, List.mem_flatMap, List.mem_map, eq_comm]

theorem writeWrapper_fst (hheader : header ∈ deviceHeaders device) :
    (writeWrapper header.1 header.2.1 header.2.2).1 = wrapperPath header.2.1 device := by
  rw [writeWrapper, (deviceHeaders_spec hheader).1]
  rfl

/-- The path of a wrapper tells the device and the header. -/
theorem wrapperPath_inj (hheader : header ∈ deviceHeaders device)
    (hheader' : header' ∈ deviceHeaders device')
    (h : wrapperPath header.2.1 device = wrapperPath header'.2.1 device') :
    device = device' ∧ header = header' := by
  simp only [wrapperPath, joinPath_wrapperParts] at h
  obtain ⟨rfl, hrest⟩ := device_of_append id
    (fun _ _ hname => deviceName_injective (String.toList_injective hname)) slash_notMem_deviceName
    (List.append_cancel_left h)
  exact ⟨rfl, header_of_token device header hheader header' hheader' (congrArg guardToken hrest)⟩

theorem not_isDetail_wrapperPath (headerName : String) (device : DeviceType) :
    ¬IsDetail (wrapperPath headerName device) := by
  rintro ⟨source, h⟩
  have hname : ∀ device, (deviceName device).toList ≠ "detail".toList := fun device => by
    cases device <;> decide
  have hdetail : outputPath source =
      "infini/rt/".toList ++ ("detail".toList ++ '/' :: source) := rfl
  rw [wrapperPath, joinPath_wrapperParts, hdetail] at h
  exact hname device (separator_inj (slash_notMem_deviceName device) (by decide)
    (List.append_cancel_left h)).1

theorem generatedHeaderPath_eq :
    generatedHeaderPath = "infini/rt/".toList ++ "generated.h".toList := by
  rfl

theorem not_isDetail_generatedHeaderPath : ¬IsDetail generatedHeaderPath := by
  rintro ⟨source, h⟩
  have hdetail : outputPath source =
      "infini/rt/".toList ++ 'd' :: ("etail".toList ++ '/' :: source) := rfl
  rw [generatedHeaderPath_eq, hdetail] at h
  exact absurd (List.cons.inj (List.append_cancel_left h)).1 (by decide)

theorem wrapperPath_ne_generated (headerName : String) (device : DeviceType) :
    wrapperPath headerName device ≠ generatedHeaderPath := by
  intro h
  rw [wrapperPath, joinPath_wrapperParts, generatedHeaderPath_eq] at h
  have hslash : '/' ∈ "generated.h".toList := by
    rw [← List.append_cancel_left h]
    exact List.mem_append_right _ List.mem_cons_self
  exact absurd hslash (by decide)

/-- The guard of a file is read from its first line. -/
theorem guardOf?_guardLines {name : Text} {lines : List Text} (h : OneLine name) :
    guardOf? (joinLines (guardLines name ++ lines)) = some name := by
  have hline : OneLine ("#ifndef ".toList ++ name) := OneLine.append (by decide) h
  have hlines : linesOf (joinLines (guardLines name ++ lines)) =
      ("#ifndef ".toList ++ name) ::
        (["#define ".toList ++ name, []] ++ lines).flatMap linesOf := by
    rw [linesOf_joinLines_parts (by simp [guardLines]), guardLines, List.cons_append,
      List.flatMap_cons, linesOf_of_oneLine hline]
    rfl
  rw [guardOf?, hlines]
  exact between?_eq_some.mpr (by rw [List.append_nil])

theorem guardOf?_writeWrapper (hheader : header ∈ deviceHeaders device) :
    guardOf? (writeWrapper header.1 header.2.1 header.2.2).2 =
      some (guard (wrapperParts header.1 header.2.1)) :=
  guardOf?_guardLines (oneLine_guard hheader)

/-- The guard of a wrapper tells the device and the header. -/
theorem guard_inj (hheader : header ∈ deviceHeaders device)
    (hheader' : header' ∈ deviceHeaders device')
    (h : guard (wrapperParts header.1 header.2.1) = guard (wrapperParts header'.1 header'.2.1)) :
    device = device' ∧ header = header' := by
  rw [guard_wrapperParts, guard_wrapperParts, (deviceHeaders_spec hheader).1,
    (deviceHeaders_spec hheader').1] at h
  obtain ⟨rfl, hrest⟩ := device_of_append guardToken token_deviceName_injective
    underscore_notMem_token (List.append_cancel_left (List.append_cancel_left h))
  exact ⟨rfl, header_of_token device header hheader header' hheader'
    (List.append_cancel_right hrest)⟩

theorem guard_ne_generated (device headerName : String) :
    guard (wrapperParts device headerName) ≠ "INFINI_RT_GENERATED_PUBLIC_H_".toList := by
  intro h
  have hpublic : "INFINI_RT_GENERATED_PUBLIC_H_".toList =
      "INFINI_RT_GENERATED_".toList ++ 'P' :: "UBLIC_H_".toList := by rfl
  have hinfini : "INFINI_RT_".toList = 'I' :: "NFINI_RT_".toList := by rfl
  rw [guard_wrapperParts, hpublic, hinfini] at h
  exact absurd (List.cons.inj (List.append_cancel_left h)).1 (by decide)

/-- The files of the include root, for the detail headers that are shipped. -/
def publicFiles (tree : SourceTree) (detailHeaders : Finset Path) (devices : List DeviceType)
    (functions : List RuntimeFunction) (default : DeviceType) : List (Path × Text) :=
  (sortedOrder.list 0 detailHeaders).map (detailOutput tree) ++ writeWrappers devices ++
    [(generatedHeaderPath, generatedHeaderText functions default devices)]

section Files

variable {detailHeaders : Finset Path} {functions : List RuntimeFunction}

/-- A file is a detail header, a wrapper or `generated.h`. -/
theorem mem_publicFiles : file ∈ publicFiles tree detailHeaders devices functions default ↔
    (∃ source ∈ detailHeaders, file = detailOutput tree source) ∨
    (∃ device ∈ devices, ∃ header ∈ deviceHeaders device,
      file = writeWrapper header.1 header.2.1 header.2.2) ∨
    file = (generatedHeaderPath, generatedHeaderText functions default devices) := by
  have hsorted : ∀ source, source ∈ sortedOrder.list 0 detailHeaders ↔ source ∈ detailHeaders :=
    fun source => Finset.mem_sort _
  simp only [publicFiles, List.mem_append, List.mem_map, hsorted, mem_writeWrappers,
    List.mem_singleton, or_assoc, eq_comm]

theorem outputPath_mem_publicFiles {source : Path} (h : source ∈ detailHeaders) :
    outputPath source ∈ (publicFiles tree detailHeaders devices functions default).map Prod.fst :=
  List.mem_map.mpr ⟨detailOutput tree source, mem_publicFiles.mpr (.inl ⟨source, h, rfl⟩), rfl⟩

theorem wrapperPath_mem_publicFiles (hdevice : device ∈ devices)
    (hheader : header ∈ deviceHeaders device) :
    wrapperPath header.2.1 device ∈
      (publicFiles tree detailHeaders devices functions default).map Prod.fst :=
  List.mem_map.mpr ⟨_, mem_publicFiles.mpr (.inr (.inl ⟨device, hdevice, header, hheader, rfl⟩)),
    writeWrapper_fst hheader⟩

/-- A header of a device is shipped. -/
theorem deviceHeader_mem (hclosed : IncludeClosed tree devices (↑detailHeaders : Set Path))
    (hdevice : device ∈ devices) (hheader : header ∈ deviceHeaders device) :
    header.2.2.toList ∈ detailHeaders :=
  Finset.mem_coe.mp (hclosed.1 (Finset.mem_coe.mpr (List.mem_toFinset.mpr (List.mem_append_right _
    (List.mem_flatMap.mpr ⟨device, hdevice, List.mem_map.mpr ⟨header, hheader, rfl⟩⟩)))))

theorem deviceHeaders_nodup (device : DeviceType) : (deviceHeaders device).Nodup := by
  cases device <;> decide

/-- Different wrappers go to different places. -/
theorem writeWrappers_paths_nodup (hnodup : devices.Nodup) :
    ((writeWrappers devices).map Prod.fst).Nodup := by
  rw [writeWrappers, List.map_flatMap]
  refine List.nodup_flatMap.mpr ⟨fun device _ => ?_, hnodup.imp fun {device device'} hne => ?_⟩
  · rw [List.map_map]
    refine (deviceHeaders_nodup device).map_on fun header hheader header' hheader' h => ?_
    rw [Function.comp_apply, Function.comp_apply, writeWrapper_fst hheader,
      writeWrapper_fst hheader'] at h
    exact (wrapperPath_inj hheader hheader' h).2
  · intro path hpath hpath'
    obtain ⟨_, hfile, rfl⟩ := List.mem_map.mp hpath
    obtain ⟨header, hheader, rfl⟩ := List.mem_map.mp hfile
    obtain ⟨_, hfile', h⟩ := List.mem_map.mp hpath'
    obtain ⟨header', hheader', rfl⟩ := List.mem_map.mp hfile'
    rw [writeWrapper_fst hheader, writeWrapper_fst hheader'] at h
    exact hne (wrapperPath_inj hheader' hheader h).1.symm

theorem publicFiles_paths_nodup (hnodup : devices.Nodup) :
    ((publicFiles tree detailHeaders devices functions default).map Prod.fst).Nodup := by
  have hdetails :
      (((sortedOrder.list 0 detailHeaders).map (detailOutput tree)).map Prod.fst).Nodup := by
    rw [List.map_map]
    exact (sortedOrder.nodup 0 detailHeaders).map outputPath_injective
  have hapart : ∀ path ∈ (writeWrappers devices).map Prod.fst,
      ¬IsDetail path ∧ path ≠ generatedHeaderPath := by
    intro path hpath
    obtain ⟨file, hfile, rfl⟩ := List.mem_map.mp hpath
    obtain ⟨device, -, header, hheader, rfl⟩ := mem_writeWrappers.mp hfile
    rw [writeWrapper_fst hheader]
    exact ⟨not_isDetail_wrapperPath _ _, wrapperPath_ne_generated _ _⟩
  have hisDetail :
      ∀ path ∈ ((sortedOrder.list 0 detailHeaders).map (detailOutput tree)).map Prod.fst,
      IsDetail path := by
    intro path hpath
    obtain ⟨file, hfile, rfl⟩ := List.mem_map.mp hpath
    obtain ⟨source, -, rfl⟩ := List.mem_map.mp hfile
    exact ⟨source, rfl⟩
  rw [publicFiles, List.map_append, List.map_append]
  refine List.nodup_append.mpr
    ⟨List.nodup_append.mpr ⟨hdetails, writeWrappers_paths_nodup hnodup, ?_⟩,
      List.nodup_singleton _, ?_⟩
  · rintro path hpath _ hpath' rfl
    exact (hapart path hpath').1 (hisDetail path hpath)
  · rintro path hpath _ hpath' rfl
    obtain rfl := List.mem_singleton.mp hpath'
    rcases List.mem_append.mp hpath with hpath | hpath
    · exact not_isDetail_generatedHeaderPath (hisDetail _ hpath)
    · exact (hapart _ hpath).2 rfl

/-- What `generated.h` includes is written. -/
theorem mem_of_includesIn_generatedHeader (hf : ∀ f ∈ functions, f.WellFormed)
    (hclosed : IncludeClosed tree devices (↑detailHeaders : Set Path))
    (h : target ∈ includesIn (generatedHeaderText functions default devices)) :
    target ∈ (publicFiles tree detailHeaders devices functions default).map Prod.fst ∨
      target ∈ standardHeaders := by
  have hwrapper : ∀ device ∈ devices, ∀ headerName, (∃ header ∈ deviceHeaders device,
      header.2.1 = headerName) → wrapperPath headerName device ∈
        (publicFiles tree detailHeaders devices functions default).map Prod.fst := by
    rintro device hdevice _ ⟨header, hheader, rfl⟩
    exact wrapperPath_mem_publicFiles hdevice hheader
  rw [includesIn_generatedHeader hf] at h
  simp only [List.mem_append, List.mem_map, List.mem_filter] at h
  rcases h with (((h | ⟨source, hsource, rfl⟩) | ⟨device, hdevice, rfl⟩) | ⟨device, hdevice, rfl⟩) |
    ⟨device, ⟨hdevice, hdriver⟩, rfl⟩
  · exact .inr h
  · have hcommon : ∀ source ∈ includedDetails, source ∈ commonHeaders := by decide
    have hseed : source ∈ seedHeaders devices :=
      List.mem_toFinset.mpr (List.mem_append_left _ (hcommon source hsource))
    exact .inl (outputPath_mem_publicFiles
      (Finset.mem_coe.mp (hclosed.1 (Finset.mem_coe.mpr hseed))))
  · exact .inl (hwrapper device hdevice _ (exists_deviceHeader device).1)
  · obtain ⟨header, hheader, hname, -⟩ := (exists_deviceHeader device).2.1
    exact .inl (hwrapper device hdevice _ ⟨header, hheader, hname⟩)
  · exact .inl (hwrapper device hdevice _ ((exists_deviceHeader device).2.2 hdriver))

/-- The runtime header of a device is two includes away from `generated.h`. -/
theorem runtime_reached (hf : ∀ f ∈ functions, f.WellFormed) (hdevice : device ∈ devices) :
    ∃ header ∈ deviceHeaders device, runtimeHeaderForDevice device = some header.2.2.toList ∧
      Relation.ReflTransGen (Includes (publicFiles tree detailHeaders devices functions default))
        generatedHeaderPath (outputPath header.2.2.toList) := by
  obtain ⟨header, hheader, hname, hruntime⟩ := (exists_deviceHeader device).2.1
  refine ⟨header, hheader, hruntime, .tail (.single (b := wrapperPath header.2.1 device) ?_) ?_⟩
  · refine ⟨_, mem_publicFiles.mpr (.inr (.inr rfl)), ?_⟩
    rw [includesIn_generatedHeader hf, hname]
    exact List.mem_append_left _ (List.mem_append_right _ (List.mem_map_of_mem hdevice))
  · refine ⟨(writeWrapper header.1 header.2.1 header.2.2).2,
      mem_publicFiles.mpr (.inr (.inl ⟨device, hdevice, header, hheader, ?_⟩)), ?_⟩
    · exact Prod.ext (writeWrapper_fst hheader).symm rfl
    · rw [includesIn_writeWrapper hheader]
      exact List.mem_singleton_self _

/-- A generated file is the only one with its guard. -/
theorem guards_publicFiles (hfile : file ∈ publicFiles tree detailHeaders devices functions default)
    (hfile' : file' ∈ publicFiles tree detailHeaders devices functions default)
    (hdetail : ¬IsDetail file.1) (hdetail' : ¬IsDetail file'.1) :
    (guardOf? file.2).isSome ∧ (guardOf? file.2 = guardOf? file'.2 → file = file') := by
  have hgenerated : guardOf? (generatedHeaderText functions default devices) =
      some "INFINI_RT_GENERATED_PUBLIC_H_".toList :=
        guardOf?_guardLines (of_literal OneLine (by decide))
  rcases mem_publicFiles.mp hfile with ⟨source, -, rfl⟩ | ⟨device, -, header, hheader, rfl⟩ | rfl
  · exact absurd ⟨source, rfl⟩ hdetail
  · rw [guardOf?_writeWrapper hheader]
    refine ⟨rfl, fun h => ?_⟩
    rcases mem_publicFiles.mp hfile' with
      ⟨source, -, rfl⟩ | ⟨device', -, header', hheader', rfl⟩ | rfl
    · exact absurd ⟨source, rfl⟩ hdetail'
    · rw [guardOf?_writeWrapper hheader'] at h
      obtain ⟨-, rfl⟩ := guard_inj hheader hheader' (Option.some.inj h)
      rfl
    · rw [hgenerated] at h
      exact absurd (Option.some.inj h) (guard_ne_generated _ _)
  · refine ⟨hgenerated ▸ rfl, fun h => ?_⟩
    rcases mem_publicFiles.mp hfile' with
      ⟨source, -, rfl⟩ | ⟨device', -, header', hheader', rfl⟩ | rfl
    · exact absurd ⟨source, rfl⟩ hdetail'
    · rw [hgenerated, guardOf?_writeWrapper hheader'] at h
      exact absurd (Option.some.inj h).symm (guard_ne_generated _ _)
    · rfl

theorem publicTree_publicFiles (hnodup : devices.Nodup)
    (hclosed : IncludeClosed tree devices (↑detailHeaders : Set Path))
    (hexists : ∀ path ∈ detailHeaders, (tree.file path).isSome)
    (hf : ∀ f ∈ functions, f.WellFormed) :
    PublicTree tree devices (publicFiles tree detailHeaders devices functions default) where
  paths := publicFiles_paths_nodup hnodup
  details source text hfile := by
    have hsource :
        source ∈ detailHeaders ∧ (outputPath source, text) = detailOutput tree source := by
      rcases mem_publicFiles.mp hfile with
        ⟨source', hsource', heq⟩ | ⟨device, -, header, hheader, heq⟩ | heq
      · obtain rfl := outputPath_injective (congrArg Prod.fst heq)
        exact ⟨hsource', heq⟩
      · have hpath := (congrArg Prod.fst heq).trans (writeWrapper_fst hheader)
        exact absurd ⟨source, hpath.symm⟩ (not_isDetail_wrapperPath _ _)
      · exact absurd ⟨source, (congrArg Prod.fst heq).symm⟩ not_isDetail_generatedHeaderPath
    obtain ⟨original, horiginal⟩ := Option.isSome_iff_exists.mp (hexists source hsource.1)
    refine ⟨original, horiginal, ?_, fun target hrewritten htarget => ?_⟩
    · rw [detailOutput_eq horiginal] at hsource
      exact congrArg Prod.snd hsource.2
    · exact outputPath_mem_publicFiles
        (hclosed.2 source hsource.1 original horiginal target hrewritten htarget)
  includes file hfile hdetail target htarget := by
    rcases mem_publicFiles.mp hfile with
      ⟨source, -, rfl⟩ | ⟨device, hdevice, header, hheader, rfl⟩ | rfl
    · exact absurd ⟨source, rfl⟩ hdetail
    · rw [includesIn_writeWrapper hheader] at htarget
      obtain rfl := List.mem_singleton.mp htarget
      exact .inl (outputPath_mem_publicFiles (deviceHeader_mem hclosed hdevice hheader))
    · exact mem_of_includesIn_generatedHeader hf hclosed htarget
  guards file hfile file' hfile' hdetail hdetail' :=
    guards_publicFiles hfile hfile' hdetail hdetail'
  runtimes device hdevice := by
    obtain ⟨header, hheader, hruntime, hreached⟩ := runtime_reached hf hdevice
    exact ⟨_, hruntime, outputPath_mem_publicFiles (deviceHeader_mem hclosed hdevice hheader),
      hreached⟩

end Files

/-- **The generator writes a public tree.**  For every list of device names that it accepts, and in
whatever order it meets the members of a set, it writes the same files, and these are a tree in
which no include of the generator is missing and no path, as it is written, stands for two files. -/
theorem writePublicHeaders_publicTree (w : WordCharacters) (tree : SourceTree) (names : List String)
    (devices : List DeviceType) (hnames : names ≠ []) (hselect : selectDevices names = some devices)
    (hseeds : ∀ path ∈ seedHeaders devices, (tree.file path).isSome) :
    ∃ files, (∀ order fuel, (nodes tree devices).card < fuel →
        writePublicHeaders w tree order devices fuel = some files) ∧
      PublicTree tree devices files := by
  obtain ⟨hne, hnodup, -⟩ := selectDevices_spec hnames hselect
  obtain ⟨detailHeaders, hclosed, hexists, hdetails⟩ := writeDetailHeaders_spec hseeds
  obtain ⟨default, hdefault, -, -⟩ := defaultDevice_spec hne
  obtain ⟨functions, hfunctions, hmemf⟩ := functionsForDevices_spec (w := w) wellFormed_of_mem
    fun device hdevice => exists_runtimeHeaderText hseeds hdevice
  have hf : ∀ f ∈ functions, f.WellFormed := fun f hf => wellFormed_of_mem f ((hmemf f).mp hf).1
  refine ⟨publicFiles tree detailHeaders devices functions default, fun order fuel hfuel => ?_,
    publicTree_publicFiles hnodup hclosed hexists hf⟩
  rw [writePublicHeaders, hdetails order fuel hfuel, writeGeneratedHeader, hdefault,
    publicRuntimeFunctionsForDevices, hfunctions]
  rfl

/-- A tree in which every name stands for one file, which includes `device.h`. -/
def oneFile : SourceTree where
  file _ := some (opening ++ "device.h".toList ++ [quote])
  texts := [opening ++ "device.h".toList ++ [quote]]
  file_mem _ _ h := List.mem_singleton.mpr (Option.some.inj h).symm

theorem writePublicHeaders_publicTree_oneFile :
    ∃ files, (∀ order fuel, (nodes oneFile [.cpu, .nvidia]).card < fuel →
        writePublicHeaders asciiWords oneFile order [.cpu, .nvidia] fuel = some files) ∧
      PublicTree oneFile [.cpu, .nvidia] files :=
  writePublicHeaders_publicTree asciiWords oneFile ["cpu", "nvidia", "cpu"] [.cpu, .nvidia]
    (by decide) (by decide) fun _ _ => rfl

end Tree

end InfiniRT.Headers
