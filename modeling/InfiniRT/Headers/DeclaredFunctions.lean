import InfiniRT.Headers.PublicHeaders

/-!
# Declared and defined functions

`generated.h` declares functions and the generated source defines them, and each of the two texts is
written on its own.  Read back line by line, with the namespaces that are open at a line, they
agree: in the same order, the source defines what the header declares, each function once, and
besides this only functions of unnamed namespaces.  So a program that is compiled against the header
can be linked.  Proved:

* **`reads_generatedHeaderBody`** — what a reader finds in `generated.h`;
* **`runtimeDispatchText_spec`** — what it finds in the generated source;
* **`declared_eq_defined`** — both have the same functions, each once.
-/

namespace InfiniRT.Headers

open InfiniRT.Library
open InfiniRT.Tensor (DeviceType)

/-! ### The generated source -/

/-- `_write_explicit_device_count_query`. -/
def writeExplicitDeviceCountQuery (devices : List DeviceType) : Text :=
  let cases := joinLines (devices.map fun device => joinLines [caseLine device,
    "      return QueryDeviceCount<".toList ++
      ((deviceTypeName device).toList ++ ">(count);".toList)])
  joinLines [
    "namespace \x7b".toList,
    [],
    "template <Device::Type type>".toList,
    "Error QueryDeviceCount(int* count) \x7b".toList,
    "  using DeviceRuntime = Runtime<type>;".toList,
    "  int queried_count = -1;".toList,
    "  const auto status = DeviceRuntime::GetDeviceCount(&queried_count);".toList,
    "  if (status != DeviceRuntime::kSuccess) return static_cast<Error>(status);".toList,
    "  if (queried_count < 0) return InvalidValueError();".toList,
    "  *count = queried_count;".toList,
    "  return kSuccess;".toList,
    "\x7d".toList,
    [],
    "\x7d  // namespace".toList,
    [],
    "Error GetDeviceCount(Device::Type type, int* count) \x7b".toList,
    "  if (count == nullptr) return InvalidValueError();".toList,
    "  switch (type) \x7b".toList,
    cases,
    "    default:".toList,
    "      return InvalidValueError();".toList,
    "  \x7d".toList,
    "\x7d".toList,
    []]

/-- `event_not_ready_dispatch`, for the devices of its cases. -/
def writeEventNotReadyDispatch (devices : List DeviceType) : Text :=
  let cases := joinLines (devices.map fun device => joinLines [caseLine device,
    "      return status == static_cast<Error>(Runtime<".toList ++
      ((deviceTypeName device).toList ++ ">::kEventNotReady);".toList)])
  joinLines [
    [],
    "bool IsEventNotReady(Error status) \x7b".toList,
    "  if (status == kSuccess) return false;".toList,
    "  switch (infini::rt::runtime_device_type()) \x7b".toList,
    cases,
    "    default:".toList,
    "      return false;".toList,
    "  \x7d".toList,
    "\x7d".toList,
    []]

/-- `stream_capture_mode_helper`. -/
def streamCaptureModeHelper (functions : List RuntimeFunction) : Text :=
  if functions.any fun f => f.params.any fun p => p.type = "StreamCaptureMode" then
    joinLines [
      [],
      "template <Device::Type device_type>".toList,
      "auto RuntimeStreamCaptureMode(StreamCaptureMode mode) \x7b".toList,
      "  using DeviceRuntime = Runtime<device_type>;".toList,
      [],
      "  switch (mode) \x7b".toList,
      "    case StreamCaptureMode::kStreamCaptureModeGlobal:".toList,
      "      return DeviceRuntime::kStreamCaptureModeGlobal;".toList,
      "    case StreamCaptureMode::kStreamCaptureModeThreadLocal:".toList,
      "      return DeviceRuntime::kStreamCaptureModeThreadLocal;".toList,
      "    case StreamCaptureMode::kStreamCaptureModeRelaxed:".toList,
      "      return DeviceRuntime::kStreamCaptureModeRelaxed;".toList,
      "  \x7d".toList,
      [],
      "  assert(false && \"unsupported stream capture mode\");".toList,
      "  return DeviceRuntime::kStreamCaptureModeRelaxed;".toList,
      "\x7d".toList,
      []]
  else []

/-- The source before `set_runtime_device_type`. -/
def sourceStart : List Text :=
  [ "#include <cassert>".toList,
    "#include <cstddef>".toList,
    "#include <type_traits>".toList,
    "#include <utility>".toList,
    [],
    "#include <infini/rt/generated.h>".toList,
    [],
    "namespace infini::rt \x7b".toList,
    "namespace \x7b".toList,
    [],
    "thread_local Device::Type runtime_device_type_ =".toList,
    "    runtime::generated_detail::kDefaultDeviceType;".toList,
    [],
    "\x7d  // namespace".toList,
    []]

/-- The source after `set_runtime_device_type`, up to the first helpers. -/
def runtimeHelpers : List Text :=
  [ [],
    "Device::Type runtime_device_type() \x7b".toList,
    "  return runtime_device_type_;".toList,
    "\x7d".toList,
    [],
    "\x7d  // namespace infini::rt".toList,
    [],
    "namespace infini::rt::runtime \x7b".toList,
    "namespace \x7b".toList,
    [],
    "template <typename Func>".toList,
    "Error CheckCall(Func&& func) \x7b".toList,
    "  using ReturnType = decltype(std::forward<Func>(func)());".toList,
    [],
    "  if constexpr (std::is_void_v<ReturnType>) \x7b".toList,
    "    std::forward<Func>(func)();".toList,
    "    return kSuccess;".toList,
    "  \x7d else \x7b".toList,
    "    return static_cast<Error>(std::forward<Func>(func)());".toList,
    "  \x7d".toList,
    "\x7d".toList,
    [],
    "Error InvalidValueError() \x7b return static_cast<Error>(1); \x7d".toList,
    [],
    "template <Device::Type device_type>".toList,
    "auto RuntimeMemcpyKind(MemcpyKind kind) \x7b".toList,
    "  using DeviceRuntime = Runtime<device_type>;".toList,
    [],
    "  switch (kind) \x7b".toList,
    "    case kMemcpyHostToHost:".toList,
    "      return DeviceRuntime::kMemcpyHostToHost;".toList,
    "    case kMemcpyHostToDevice:".toList,
    "      return DeviceRuntime::kMemcpyHostToDevice;".toList,
    "    case kMemcpyDeviceToHost:".toList,
    "      return DeviceRuntime::kMemcpyDeviceToHost;".toList,
    "    case kMemcpyDeviceToDevice:".toList,
    "      return DeviceRuntime::kMemcpyDeviceToDevice;".toList,
    "  \x7d".toList,
    [],
    "  assert(false && \"unsupported memcpy kind\");".toList,
    "  return DeviceRuntime::kMemcpyHostToHost;".toList,
    "\x7d".toList,
    []]

/-- The source between `set_runtime_device_type` and the functions of the interface. -/
def sourceHelpers (functions : List RuntimeFunction) : List Text :=
  runtimeHelpers ++ [streamCaptureModeHelper functions, "\x7d  // namespace".toList, []]

variable (w : WordCharacters) (tree : SourceTree)

/-- The devices with a case in `event_not_ready_dispatch`: those of `EventQuery` whose runtime
header has the name of the status among its words. -/
def eventNotReadyDevices : List DeviceType → Option (List DeviceType)
  | [] => some []
  | device :: devices => do
    let text ← runtimeHeaderText tree device
    let found ← eventNotReadyDevices devices
    return if Words.search w.isWord "kEventNotReady".toList none text
      then device :: found else found

/-- `event_not_ready_dispatch`. -/
def eventNotReadyDispatch (functions : List RuntimeFunction) (devices : List DeviceType) :
    Option Text :=
  match functions.find? fun f => f.name = "EventQuery" with
  | some eventQuery => do
    let found ← devicesForFunction w tree eventQuery devices
    return writeEventNotReadyDispatch (← eventNotReadyDevices w tree found)
  | none => some []

/-- `explicit_device_count_query`. -/
def explicitDeviceCountQuery (functions : List RuntimeFunction) (devices : List DeviceType) :
    Option Text :=
  match functions.find? fun f => f.name = "GetDeviceCount" with
  | some deviceCountQuery => do
    return writeExplicitDeviceCountQuery (← devicesForFunction w tree deviceCountQuery devices)
  | none => some []

/-- The text that `_write_runtime_dispatch` writes. -/
def runtimeDispatchText (devices : List DeviceType) : Option Text := do
  let functions ← publicRuntimeFunctionsForDevices w tree devices
  let source ← writeRuntimeDispatch w tree devices
  let eventNotReady ← eventNotReadyDispatch w tree functions devices
  let deviceCount ← explicitDeviceCountQuery w tree functions devices
  return joinLines (sourceStart ++ source.setRuntimeDeviceType :: (sourceHelpers functions ++
    [joinLines (source.functions.map Prod.snd), deviceCount, eventNotReady,
      "\x7d  // namespace infini::rt::runtime".toList, []]))

/-! ### Reading the functions of a file -/

/-- A header declares functions, and a source file defines them. -/
inductive FileKind
  | header
  | source
  deriving DecidableEq, Repr

/-- What follows the signature of a function. -/
def FileKind.ending : FileKind → Text
  | .header => [';']
  | .source => " \x7b".toList

/-- What a line says about functions. -/
inductive Mark
  | opens (name : Text)
  | closes
  | function (signature : Text)
  deriving DecidableEq, Repr

/-- The namespace that a line opens; an unnamed one has the empty name. -/
def openedNamespace? (line : Text) : Option Text :=
  (between? "namespace ".toList ['\x7b'] line).map (·.takeWhile (· ≠ ' '))

/-- The signature of a function, if the line is one with its ending.  A function that is defined on
one line is not read; the only one that the generator writes is in an unnamed namespace. -/
def signature? (kind : FileKind) (line : Text) : Option Text :=
  (between? [] kind.ending line).filter fun signature =>
    signature.head? ≠ some ' ' && signature.getLast? = some ')'

/-- What is read of a line. -/
def markOf? (kind : FileKind) (line : Text) : Option Mark :=
  match openedNamespace? line with
  | some name => some (.opens name)
  | none =>
    if "\x7d  // namespace".toList.isPrefixOf line then some .closes
    else (signature? kind line).map .function

/-- What is read of a text, line by line. -/
def marksIn (kind : FileKind) (text : Text) : List Mark := (linesOf text).filterMap (markOf? kind)

/-- The name of the innermost of some namespaces. -/
def qualifiedName (scope : List Text) : Text := "::".toList.intercalate scope.reverse

/-- The functions with their namespaces that other files can call: not those of unnamed
namespaces. -/
def exportedFrom : List Text → List Mark → List (Text × Text)
  | _, [] => []
  | scope, .opens name :: marks => exportedFrom (name :: scope) marks
  | scope, .closes :: marks => exportedFrom scope.tail marks
  | scope, .function signature :: marks =>
    if [] ∈ scope then exportedFrom scope marks
    else (qualifiedName scope, signature) :: exportedFrom scope marks

/-- What a header declares. -/
def declaredFunctions (text : Text) : List (Text × Text) := exportedFrom [] (marksIn .header text)

/-- What a source file defines. -/
def definedFunctions (text : Text) : List (Text × Text) := exportedFrom [] (marksIn .source text)

/-! ### Lines -/

section Lines

variable {kind : FileKind} {line : Text} {parts parts' : List Text} {marks marks' : List Mark}
  {mark : Mark}

theorem marksIn_nil (kind : FileKind) : marksIn kind [] = [] := by
  cases kind <;> rfl

theorem marksIn_of_oneLine (h : OneLine line) : marksIn kind line = (markOf? kind line).toList := by
  rw [marksIn, linesOf_of_oneLine h]
  cases hmark : markOf? kind line <;> simp [hmark]

theorem marksIn_joinLines (kind : FileKind) (parts : List Text) :
    marksIn kind (joinLines parts) = parts.flatMap (marksIn kind) := by
  cases parts with
  | nil => exact marksIn_nil kind
  | cons part parts =>
    rw [marksIn, linesOf_joinLines_parts (List.cons_ne_nil part parts), List.filterMap_flatMap]
    rfl

/-- The parts of a text, one after the other, have these marks. -/
structure Reads (kind : FileKind) (parts : List Text) (marks : List Mark) : Prop where
  flatMap_eq : parts.flatMap (marksIn kind) = marks

namespace Reads

theorem nil : Reads kind [] [] := ⟨rfl⟩

theorem skip (h : marksIn kind line = []) (h' : Reads kind parts marks) :
    Reads kind (line :: parts) marks :=
  ⟨by rw [List.flatMap_cons, h, h'.flatMap_eq, List.nil_append]⟩

theorem take (h : marksIn kind line = [mark]) (h' : Reads kind parts marks) :
    Reads kind (line :: parts) (mark :: marks) :=
  ⟨by rw [List.flatMap_cons, h, h'.flatMap_eq, List.singleton_append]⟩

theorem append (h : Reads kind parts marks) (h' : Reads kind parts' marks') :
    Reads kind (parts ++ parts') (marks ++ marks') :=
  ⟨by rw [List.flatMap_append, h.flatMap_eq, h'.flatMap_eq]⟩

theorem blank (h : Reads kind parts marks) : Reads kind ([] :: parts) marks :=
  skip (marksIn_nil kind) h

/-- A line without a mark. -/
theorem silent {characters : List Char}
    (hline : OneLine characters ∧ markOf? kind characters = none) (h : Reads kind parts marks) :
    Reads kind ((String.ofList characters).toList :: parts) marks := by
  refine skip ?_ h
  rw [String.toList_ofList, marksIn_of_oneLine hline.1, hline.2, Option.toList_none]

/-- A line with a mark. -/
theorem marked {characters : List Char}
    (hline : OneLine characters ∧ markOf? kind characters = some mark)
    (h : Reads kind parts marks) :
    Reads kind ((String.ofList characters).toList :: parts) (mark :: marks) := by
  refine take ?_ h
  rw [String.toList_ofList, marksIn_of_oneLine hline.1, hline.2, Option.toList_some]

theorem joinLines (h : Reads kind parts marks) : marksIn kind (joinLines parts) = marks :=
  (marksIn_joinLines kind parts).trans h.flatMap_eq

end Reads

/-- A line that starts like no namespace can only be a function. -/
theorem markOf?_of_head {c : Char} {rest : Text} (hopens : c ≠ 'n') (hcloses : c ≠ '\x7d') :
    markOf? kind (c :: rest) = (signature? kind (c :: rest)).map .function := by
  have hopened : openedNamespace? (c :: rest) = none := by
    rw [openedNamespace?, Option.map_eq_none_iff, Option.eq_none_iff_forall_ne_some]
    intro name hname
    have hstart : "namespace ".toList = 'n' :: "amespace ".toList := rfl
    rw [between?_eq_some, hstart, List.cons_append] at hname
    exact hopens (List.cons.inj hname).1
  have hnot : "\x7d  // namespace".toList.isPrefixOf (c :: rest) ≠ true := by
    intro hprefix
    obtain ⟨after, hafter⟩ := List.isPrefixOf_iff_prefix.mp hprefix
    have hstart : "\x7d  // namespace".toList = '\x7d' :: "  // namespace".toList := rfl
    rw [hstart, List.cons_append] at hafter
    exact hcloses (List.cons.inj hafter).1.symm
  rw [markOf?, hopened]
  exact if_neg hnot

/-- A line of a body. -/
structure IndentedLine (line : Text) : Prop where
  oneLine : OneLine line
  head : line.head? = some ' '

/-- Bodies have no marks. -/
theorem IndentedLine.marksIn (h : IndentedLine line) (kind : FileKind) :
    marksIn kind line = [] := by
  obtain ⟨hline, hhead⟩ := h
  obtain ⟨rest, rfl⟩ := List.head?_eq_some_iff.mp hhead
  -- Namespaces, their ends and signatures all start at the margin.
  have hsignature : signature? kind (' ' :: rest) = none := by
    rw [signature?, Option.filter_eq_none_iff]
    intro signature hsignature hboth
    have hline := between?_eq_some.mp hsignature
    simp only [Bool.and_eq_true, decide_eq_true_eq] at hboth
    cases signature with
    | nil => exact absurd hboth.2 (by decide)
    | cons c signature =>
      rw [List.nil_append, List.cons_append] at hline
      exact hboth.1 (congrArg some (List.cons.inj hline).1.symm)
  rw [marksIn_of_oneLine hline, markOf?_of_head (by decide) (by decide), hsignature]
  rfl

/-- The cases of a switch have no marks. -/
theorem marksIn_cases (kind : FileKind) (statements : DeviceType → List Text)
    (h : ∀ device, ∀ line ∈ statements device, IndentedLine line) (devices : List DeviceType) :
    marksIn kind (joinLines (devices.map fun device =>
      joinLines (caseLine device :: statements device))) = [] := by
  rw [marksIn_joinLines, List.flatMap_eq_nil_iff]
  intro block hblock
  obtain ⟨device, -, rfl⟩ := List.mem_map.mp hblock
  rw [marksIn_joinLines, List.flatMap_eq_nil_iff]
  intro line hline
  rcases List.mem_cons.mp hline with rfl | hline
  · exact (IndentedLine.mk (oneLine_caseLine device) rfl).marksIn kind
  · exact (h device line hline).marksIn kind

/-- The cases of a switch whose statement names the device. -/
theorem marksIn_deviceCases (kind : FileKind) {before after : List Char}
    (hbefore : IndentedLine before) (hafter : OneLine after) (devices : List DeviceType) :
    marksIn kind (joinLines (devices.map fun device => joinLines [caseLine device,
      (String.ofList before).toList ++
        ((deviceTypeName device).toList ++ (String.ofList after).toList)])) =
        [] := by
  refine marksIn_cases kind _ (fun device line hline => ?_) devices
  obtain rfl := List.mem_singleton.mp hline
  rw [String.toList_ofList, String.toList_ofList]
  obtain ⟨rest, rfl⟩ := List.head?_eq_some_iff.mp hbefore.head
  exact ⟨hbefore.oneLine.append ((oneLine_deviceTypeName device).append hafter), rfl⟩

/-- A signature with its ending. -/
theorem marksIn_signature (kind : FileKind) {c : Char} {rest : Text} (hline : OneLine (c :: rest))
    (hc : c ≠ 'n' ∧ c ≠ '\x7d' ∧ c ≠ ' ') (hlast : (c :: rest).getLast? = some ')') :
    marksIn kind (c :: rest ++ kind.ending) = [.function (c :: rest)] := by
  have hending : OneLine kind.ending := by
    cases kind <;> decide
  have hbetween : between? [] kind.ending (c :: rest ++ kind.ending) = some (c :: rest) :=
    between?_eq_some.mpr rfl
  have hsignature : signature? kind (c :: rest ++ kind.ending) = some (c :: rest) := by
    rw [signature?, hbetween, Option.filter_some, if_pos]
    rw [hlast]
    simpa using hc.2.2
  rw [marksIn_of_oneLine (hline.append hending), List.cons_append, markOf?_of_head hc.1 hc.2.1,
    ← List.cons_append, hsignature]
  rfl

/-- A statement of a header that is no signature. -/
theorem marksIn_statement {c : Char} {rest : Text} (hline : OneLine (c :: rest))
    (hc : c ≠ 'n' ∧ c ≠ '\x7d') (hlast : (c :: rest).getLast? ≠ some ')') :
    marksIn .header (c :: rest ++ [';']) = [] := by
  have hbetween : between? [] [';'] (c :: rest ++ [';']) = some (c :: rest) :=
    between?_eq_some.mpr rfl
  have hsignature : signature? .header (c :: rest ++ [';']) = none := by
    rw [signature?, FileKind.ending, hbetween, Option.filter_some, if_neg]
    simp [hlast]
  rw [marksIn_of_oneLine (hline.append (by decide)), List.cons_append, markOf?_of_head hc.1 hc.2,
    ← List.cons_append, hsignature]
  rfl

end Lines

/-! ### What the source defines -/

section Source

variable {f : RuntimeFunction} {functions : List RuntimeFunction} {devices : List DeviceType}

theorem reads_sourceStart : Reads .source sourceStart
    [.opens "infini::rt".toList, .opens [], .closes] :=
  ⟨by decide +kernel⟩

theorem marksIn_setRuntimeDeviceType (devices : List DeviceType) :
    marksIn .source (writeSetRuntimeDeviceType devices) =
      [.function "void set_runtime_device_type(Device::Type device_type)".toList] := by
  have hcases := marksIn_cases .source
    (fun _ => ["      runtime_device_type_ = device_type;".toList, "      return;".toList]) (by
      simp only [List.forall_mem_cons]
      exact fun _ => ⟨of_literal IndentedLine ⟨by decide, rfl⟩,
        of_literal IndentedLine ⟨by decide, rfl⟩, List.forall_mem_nil _⟩) devices
  exact Reads.joinLines
    (.marked (by decide) (.silent (by decide) (.skip hcases ⟨by decide +kernel⟩)))

theorem marksIn_streamCaptureModeHelper (functions : List RuntimeFunction) :
    marksIn .source (streamCaptureModeHelper functions) =
        [.function "auto RuntimeStreamCaptureMode(StreamCaptureMode mode)".toList] ∨
      marksIn .source (streamCaptureModeHelper functions) = [] := by
  unfold streamCaptureModeHelper
  split
  · exact .inl (by decide +kernel)
  · exact .inr (marksIn_nil .source)

/-- The helpers are in an unnamed namespace. -/
theorem reads_sourceHelpers (functions : List RuntimeFunction) :
    ∃ helpers : List Text, Reads .source (sourceHelpers functions)
      (.function "Device::Type runtime_device_type()".toList :: .closes ::
        .opens "infini::rt::runtime".toList :: .opens [] ::
          (helpers.map .function ++ [.closes])) := by
  have hruntime : Reads .source runtimeHelpers
      [.function "Device::Type runtime_device_type()".toList, .closes,
        .opens "infini::rt::runtime".toList, .opens [],
        .function "Error CheckCall(Func&& func)".toList,
        .function "auto RuntimeMemcpyKind(MemcpyKind kind)".toList] := ⟨by decide +kernel⟩
  have hend : Reads .source ["\x7d  // namespace".toList, []] [.closes] := ⟨by decide +kernel⟩
  rcases marksIn_streamCaptureModeHelper functions with hhelper | hhelper
  · exact ⟨["Error CheckCall(Func&& func)".toList, "auto RuntimeMemcpyKind(MemcpyKind kind)".toList,
      "auto RuntimeStreamCaptureMode(StreamCaptureMode mode)".toList],
      hruntime.append (.take hhelper hend)⟩
  · exact ⟨["Error CheckCall(Func&& func)".toList,
      "auto RuntimeMemcpyKind(MemcpyKind kind)".toList], hruntime.append (.skip hhelper hend)⟩

theorem marksIn_function_signature (kind : FileKind) (hf : f.WellFormed) :
    marksIn kind (f.signature ++ kind.ending) = [.function f.signature] := by
  have hline := hf.oneLine_signature
  have hsignature : f.signature =
      'E' :: ("rror ".toList ++ (f.name.toList ++ '(' :: f.paramsDecl) ++ [')']) := by
    rw [signature_eq hf]
    simp
  rw [hsignature] at hline ⊢
  refine marksIn_signature kind hline (by decide) ?_
  rw [← List.cons_append, List.getLast?_concat]

/-- A generated function defines its signature. -/
theorem marksIn_runtimeDispatchFunction (hf : f.WellFormed) (devices : List DeviceType) :
    marksIn .source (writeRuntimeDispatchFunction f devices) = [.function f.signature] := by
  have hcases := marksIn_cases .source (fun device => [callLine f device]) (by
    intro device line hline
    obtain rfl := List.mem_singleton.mp hline
    exact ⟨hf.oneLine_callLine device, rfl⟩) devices
  exact Reads.joinLines (.take (marksIn_function_signature .source hf) (.silent (by decide)
    (.skip hcases ⟨by decide +kernel⟩)))

/-- The query of a count defines a template in an unnamed namespace and one function. -/
theorem marksIn_explicitDeviceCountQuery (devices : List DeviceType) :
    marksIn .source (writeExplicitDeviceCountQuery devices) =
      [.opens [], .function "Error QueryDeviceCount(int* count)".toList, .closes,
        .function "Error GetDeviceCount(Device::Type type, int* count)".toList] := by
  refine Reads.joinLines ?_
  repeat first
    | refine .blank ?_
    | refine .silent (by decide) ?_
    | refine .marked (by decide) ?_
  exact .skip (marksIn_deviceCases .source ⟨by decide, rfl⟩ (by decide) devices) ⟨by decide +kernel⟩

theorem marksIn_eventNotReadyDispatch (devices : List DeviceType) :
    marksIn .source (writeEventNotReadyDispatch devices) =
      [.function "bool IsEventNotReady(Error status)".toList] :=
  Reads.joinLines (.blank (.marked (by decide) (.silent (by decide) (.silent (by decide)
    (.skip (marksIn_deviceCases .source ⟨by decide, rfl⟩ (by decide) devices)
      ⟨by decide +kernel⟩)))))

/-- The signatures of the interface beside those of the table: the count of the devices of a type,
and whether a status says that an event is not ready. -/
def deviceCountSignature (functions : List RuntimeFunction) : List Text :=
  if hasName functions "GetDeviceCount" then
    ["Error GetDeviceCount(Device::Type type, int* count)".toList] else []

def eventNotReadySignature (functions : List RuntimeFunction) : List Text :=
  if hasName functions "EventQuery" then ["bool IsEventNotReady(Error status)".toList] else []

/-- What both files are about. -/
def interfaceSignatures (functions : List RuntimeFunction) : List Text :=
  functions.map RuntimeFunction.signature ++
    (deviceCountSignature functions ++ eventNotReadySignature functions)

end Source

/-! ### What the header declares -/

section Header

variable {f : RuntimeFunction} {functions : List RuntimeFunction} {devices : List DeviceType}
  {default : DeviceType} {target : Path}

/-- An include ends with a bracket. -/
theorem marksIn_include (h : OneLine target) :
    marksIn .header ("#include ".toList ++ '<' :: (target ++ ['>'])) = [] := by
  have hline : OneLine ('#' :: ("include <".toList ++ (target ++ ['>']))) :=
    OneLine.cons (by decide) (OneLine.append (by decide) (h.append (by decide)))
  have hsignature :
      signature? .header ('#' :: ("include <".toList ++ (target ++ ['>']))) = none := by
    rw [signature?, Option.filter_eq_none_iff]
    intro signature hsignature
    have hend := between?_eq_some.mp hsignature
    rw [List.nil_append, ← List.append_assoc, ← List.cons_append] at hend
    exact absurd (List.singleton_inj.mp (List.append_inj' hend rfl).2) (by decide)
  show marksIn .header ('#' :: ("include <".toList ++ (target ++ ['>']))) = []
  rw [marksIn_of_oneLine hline, markOf?_of_head (by decide) (by decide), hsignature]
  rfl

theorem marksIn_generatedIncludes (devices : List DeviceType) :
    (generatedIncludes devices).flatMap (marksIn .header) = [] := by
  have hwrapper : ∀ headerName : String, OneLine headerName.toList → ∀ devices : List DeviceType,
      ∀ line ∈ devices.map (wrapperInclude headerName), marksIn .header line = [] := by
    intro headerName hname devices line hline
    obtain ⟨device, -, rfl⟩ := List.mem_map.mp hline
    exact marksIn_include (oneLine_wrapperPath hname device)
  have hdetail : ∀ header ∈ includedDetails,
      marksIn .header ("#include ".toList ++ detailInclude header) = [] := by
    intro header hheader
    have hline := (by decide : ∀ header ∈ includedDetails, OneLine header) header hheader
    have hpath : OneLine (outputPath header) := OneLine.append (by decide) (hline.cons (by decide))
    exact marksIn_include hpath
  have hstandard : ∀ header ∈ standardHeaders, marksIn .header
      ("#include ".toList ++ '<' :: (header ++ ['>'])) = [] := fun header hheader =>
    marksIn_include ((by decide : ∀ header ∈ standardHeaders, OneLine header) header hheader)
  refine List.flatMap_eq_nil_iff.mpr fun line hline => ?_
  simp only [generatedIncludes, List.mem_append] at hline
  rcases hline with (((hline | hline) | hline) | hline) | hline
  · have hsame : line ∈ standardHeaders.map fun header =>
        "#include ".toList ++ '<' :: (header ++ ['>']) := hline
    obtain ⟨header, hheader, rfl⟩ := List.mem_map.mp hsame
    exact hstandard header hheader
  · obtain ⟨header, hheader, rfl⟩ := List.mem_map.mp hline
    exact hdetail header hheader
  · exact hwrapper _ (by decide) _ line hline
  · exact hwrapper _ (by decide) _ line hline
  · exact hwrapper _ (by decide) _ line hline

theorem marksIn_graphDeclarations (functions : List RuntimeFunction) :
    marksIn .header (graphDeclarations functions) = [] := by
  unfold graphDeclarations
  split
  · decide +kernel
  · exact marksIn_nil .header

theorem reads_defaultDeviceLines (default : DeviceType) :
    Reads .header (defaultDeviceLines default) [] := by
  have htype := oneLine_deviceTypeName default
  have hlast : (deviceTypeName default).toList.getLast? ≠ some ')' ∧
      (deviceTypeName default).toList ≠ [] := by
    cases default <;> decide
  have hruntime : "using DefaultErrorRuntime = Runtime<".toList ++
      ((deviceTypeName default).toList ++ ">;".toList) =
        'u' :: ("sing DefaultErrorRuntime = Runtime<".toList ++
          (deviceTypeName default).toList ++ ['>']) ++ [';'] := by
    have hstart : "using DefaultErrorRuntime = Runtime<".toList =
        'u' :: "sing DefaultErrorRuntime = Runtime<".toList := rfl
    have hend : ">;".toList = ['>', ';'] := rfl
    rw [hstart, hend]
    simp
  have hdefault : "inline constexpr Device::Type kDefaultDeviceType = ".toList ++
      ((deviceTypeName default).toList ++ [';']) =
        'i' :: ("nline constexpr Device::Type kDefaultDeviceType = ".toList ++
          (deviceTypeName default).toList) ++ [';'] := by
    have hstart : "inline constexpr Device::Type kDefaultDeviceType = ".toList =
        'i' :: "nline constexpr Device::Type kDefaultDeviceType = ".toList := rfl
    rw [hstart]
    simp
  -- Both lines end like declarations, but with no parenthesis before the semicolon.
  unfold defaultDeviceLines
  rw [hruntime, hdefault]
  refine .skip (marksIn_statement ?_ (by decide) ?_)
    (.blank (.skip (marksIn_statement ?_ (by decide) ?_) .nil))
  · exact .cons (by decide)
      ((OneLine.append (of_literal OneLine (by decide)) htype).append (by decide))
  · rw [← List.cons_append, List.getLast?_concat]
    decide
  · exact .cons (by decide) (OneLine.append (of_literal OneLine (by decide)) htype)
  · rw [← List.cons_append, List.getLast?_append_of_ne_nil _ hlast.2]
    exact hlast.1

theorem reads_generatedHeaderBody (functions : List RuntimeFunction) (default : DeviceType) :
    Reads .header (generatedHeaderBody functions default)
      [.opens "infini::rt".toList,
        .function "void set_runtime_device_type(Device::Type device_type)".toList,
        .function "Device::Type runtime_device_type()".toList, .opens "runtime".toList,
        .opens "generated_detail".toList, .closes] := by
  unfold generatedHeaderBody
  refine Reads.append (Reads.append (Reads.append (?_ : Reads .header _
    [.opens "infini::rt".toList,
      .function "void set_runtime_device_type(Device::Type device_type)".toList,
      .function "Device::Type runtime_device_type()".toList, .opens "runtime".toList,
      .opens "generated_detail".toList])
    (reads_defaultDeviceLines default)) (?_ : Reads .header _ [.closes]))
    (.skip (marksIn_graphDeclarations functions) (?_ : Reads .header _ []))
  all_goals exact ⟨by decide +kernel⟩

theorem flatMap_intersperse {α β : Type} {f : α → List β} {separator : α} (h : f separator = [])
    (l : List α) : (l.intersperse separator).flatMap f = l.flatMap f := by
  induction l with
  | nil => rfl
  | cons a l ih =>
    rcases l with _ | ⟨b, l⟩
    · rfl
    · rw [List.intersperse_cons_cons, List.flatMap_cons, List.flatMap_cons, h, ih, List.nil_append]
      rfl

/-- The declarations are those of the interface. -/
theorem marksIn_runtimeDeclarations (hf : ∀ f ∈ functions, f.WellFormed) :
    marksIn .header (joinLines ((runtimeDeclarations functions).intersperse [])) =
      (interfaceSignatures functions).map .function := by
  have htable : ∀ functions : List RuntimeFunction, (∀ f ∈ functions, f.WellFormed) →
      (functions.map fun f => f.signature ++ [';']).flatMap (marksIn .header) =
        (functions.map RuntimeFunction.signature).map .function := by
    intro functions hf
    induction functions with
    | nil => rfl
    | cons f functions ih =>
      rw [List.map_cons, List.flatMap_cons, ih fun f hmem => hf f (List.mem_cons_of_mem _ hmem)]
      exact congrArg (· ++ _) (marksIn_function_signature .header (hf f List.mem_cons_self))
  have hcount : (if hasName functions "GetDeviceCount" then
      ["Error GetDeviceCount(Device::Type type, int* count);".toList] else []).flatMap
        (marksIn .header) =
        (deviceCountSignature functions).map .function := by
    unfold deviceCountSignature
    split
    · exact (Reads.marked (by decide) .nil).flatMap_eq
    · rfl
  have hevent : (if hasName functions "EventQuery" then
      ["bool IsEventNotReady(Error status);".toList] else []).flatMap (marksIn .header) =
        (eventNotReadySignature functions).map .function := by
    unfold eventNotReadySignature
    split
    · exact (Reads.marked (by decide) .nil).flatMap_eq
    · rfl
  rw [marksIn_joinLines, flatMap_intersperse (marksIn_nil .header), runtimeDeclarations,
    List.flatMap_append, List.flatMap_append, htable functions hf, hcount, hevent,
    interfaceSignatures, List.map_append, List.map_append, List.append_assoc]

theorem marksIn_generatedHeaderText (hf : ∀ f ∈ functions, f.WellFormed) :
    marksIn .header (generatedHeaderText functions default devices) =
      .opens "infini::rt".toList ::
        .function "void set_runtime_device_type(Device::Type device_type)".toList ::
        .function "Device::Type runtime_device_type()".toList :: .opens "runtime".toList ::
        .opens "generated_detail".toList :: .closes ::
        ((interfaceSignatures functions).map .function ++ [.closes, .closes]) := by
  have hguard :
      (guardLines "INFINI_RT_GENERATED_PUBLIC_H_".toList).flatMap (marksIn .header) = [] := by
    decide +kernel
  have hend : Reads .header generatedHeaderEnd [.closes, .closes] := ⟨by decide +kernel⟩
  have hincludes : marksIn .header (joinLines (generatedIncludes devices)) = [] := by
    rw [marksIn_joinLines, marksIn_generatedIncludes]
  rw [generatedHeaderText, marksIn_joinLines, List.flatMap_append, hguard, List.nil_append,
    List.flatMap_cons, hincludes, List.nil_append, List.flatMap_append,
    (reads_generatedHeaderBody functions default).flatMap_eq, List.flatMap_cons,
    marksIn_runtimeDeclarations hf, hend.flatMap_eq]
  rfl

end Header

/-! ### What both files are about -/

section Both

variable {w tree} {f : RuntimeFunction} {functions : List RuntimeFunction}
  {devices : List DeviceType}
  {scope : List Text} {signatures : List Text} {marks : List Mark}

theorem exportedFrom_nil (scope : List Text) : exportedFrom scope [] = [] := rfl

theorem exportedFrom_opens (scope : List Text) (name : Text) (marks : List Mark) :
    exportedFrom scope (.opens name :: marks) = exportedFrom (name :: scope) marks := rfl

theorem exportedFrom_closes (scope : List Text) (marks : List Mark) :
    exportedFrom scope (.closes :: marks) = exportedFrom scope.tail marks := rfl

theorem exportedFrom_function {signature : Text} (hscope : [] ∉ scope) :
    exportedFrom scope (.function signature :: marks) =
      (qualifiedName scope, signature) :: exportedFrom scope marks :=
  if_neg hscope

theorem exportedFrom_functions (hscope : [] ∉ scope) :
    exportedFrom scope (signatures.map .function ++ marks) =
      signatures.map (qualifiedName scope, ·) ++ exportedFrom scope marks := by
  induction signatures with
  | nil => rfl
  | cons signature signatures ih =>
    rw [List.map_cons, List.cons_append, exportedFrom_function hscope, ih]
    rfl

/-- A function of an unnamed namespace is not exported. -/
theorem exportedFrom_hiddenFunction {signature : Text} (hscope : [] ∈ scope) :
    exportedFrom scope (.function signature :: marks) = exportedFrom scope marks :=
  if_pos hscope

theorem exportedFrom_hidden (hscope : [] ∈ scope) :
    exportedFrom scope (signatures.map .function ++ marks) = exportedFrom scope marks := by
  induction signatures with
  | nil => rfl
  | cons signature signatures ih =>
    rw [List.map_cons, List.cons_append, exportedFrom_hiddenFunction hscope, ih]

theorem functionsForDevices_sublist {rest : List RuntimeFunction}
    (h : functionsForDevices w tree devices functions = some rest) : rest.Sublist functions := by
  induction functions generalizing rest with
  | nil =>
    obtain rfl := Option.some.inj h
    exact .slnil
  | cons f functions ih =>
    obtain ⟨found, -, h⟩ := Option.bind_eq_some_iff.mp h
    obtain ⟨rest', hrest, h⟩ := Option.bind_eq_some_iff.mp h
    obtain rfl := Option.some.inj h
    split
    · exact (ih hrest).cons f
    · exact (ih hrest).cons_cons f

/-- The texts of the functions define their signatures. -/
theorem reads_functions {texts : List (RuntimeFunction × Text)} (hf : ∀ f ∈ functions, f.WellFormed)
    (h : functions.mapM (writeFunction w tree devices) = some texts) :
    Reads .source (texts.map Prod.snd)
      ((functions.map RuntimeFunction.signature).map .function) := by
  induction functions generalizing texts with
  | nil =>
    obtain rfl := Option.some.inj h
    exact .nil
  | cons f functions ih =>
    rw [List.mapM_cons] at h
    obtain ⟨function, hfunction, h⟩ := Option.bind_eq_some_iff.mp h
    obtain ⟨rest, hrest, h⟩ := Option.bind_eq_some_iff.mp h
    obtain ⟨found, -, hwrite⟩ := Option.bind_eq_some_iff.mp hfunction
    obtain rfl := Option.some.inj h
    obtain rfl := Option.some.inj hwrite
    exact .take (marksIn_runtimeDispatchFunction (hf f List.mem_cons_self) found)
      (ih (fun f hmem => hf f (List.mem_cons_of_mem _ hmem)) hrest)

theorem hasName_eq_isSome (functions : List RuntimeFunction) (name : String) :
    hasName functions name = (functions.find? fun f => f.name = name).isSome :=
  List.isSome_find?.symm

theorem exists_eventNotReadyDevices
    (hread : ∀ device ∈ devices, ∃ text, runtimeHeaderText tree device = some text) :
    ∃ found, eventNotReadyDevices w tree devices = some found := by
  induction devices with
  | nil => exact ⟨[], rfl⟩
  | cons device devices ih =>
    obtain ⟨text, htext⟩ := hread device List.mem_cons_self
    obtain ⟨found, hfound⟩ := ih fun device hmem => hread device (List.mem_cons_of_mem _ hmem)
    rw [eventNotReadyDevices, htext, hfound]
    exact ⟨_, rfl⟩

theorem eventNotReadyDispatch_spec (hf : ∀ f ∈ functions, f.WellFormed)
    (hread : ∀ device ∈ devices, ∃ text, runtimeHeaderText tree device = some text) :
    ∃ text, eventNotReadyDispatch w tree functions devices = some text ∧
      marksIn .source text = (eventNotReadySignature functions).map .function := by
  unfold eventNotReadyDispatch eventNotReadySignature
  rw [hasName_eq_isSome]
  cases hfind : functions.find? fun f => f.name = "EventQuery" with
  | none => exact ⟨[], rfl, marksIn_nil .source⟩
  | some eventQuery =>
    obtain ⟨found, hfound, hsub, -⟩ :=
      devicesForFunction_spec (w := w) (hf _ (List.mem_of_find?_eq_some hfind)) hread
    obtain ⟨cases, hcases⟩ := exists_eventNotReadyDevices (w := w) fun device hdevice =>
      hread device (hsub.subset hdevice)
    refine ⟨writeEventNotReadyDispatch cases, ?_, marksIn_eventNotReadyDispatch cases⟩
    show (devicesForFunction w tree eventQuery devices).bind _ = _
    rw [hfound, Option.bind_some, hcases]
    rfl

/-- What is read of the query of a count. -/
def deviceCountMarks (functions : List RuntimeFunction) : List Mark :=
  if hasName functions "GetDeviceCount" then
    [.opens [], .function "Error QueryDeviceCount(int* count)".toList, .closes,
      .function "Error GetDeviceCount(Device::Type type, int* count)".toList]
  else []

theorem explicitDeviceCountQuery_spec (hf : ∀ f ∈ functions, f.WellFormed)
    (hread : ∀ device ∈ devices, ∃ text, runtimeHeaderText tree device = some text) :
    ∃ text, explicitDeviceCountQuery w tree functions devices = some text ∧
      marksIn .source text = deviceCountMarks functions := by
  unfold explicitDeviceCountQuery deviceCountMarks
  rw [hasName_eq_isSome]
  cases hfind : functions.find? fun f => f.name = "GetDeviceCount" with
  | none => exact ⟨[], rfl, marksIn_nil .source⟩
  | some deviceCountQuery =>
    obtain ⟨found, hfound, -⟩ :=
      devicesForFunction_spec (w := w) (hf _ (List.mem_of_find?_eq_some hfind)) hread
    refine ⟨writeExplicitDeviceCountQuery found, ?_, marksIn_explicitDeviceCountQuery found⟩
    show (devicesForFunction w tree deviceCountQuery devices).bind _ = _
    rw [hfound]
    rfl

/-- The helper of the query is not exported. -/
theorem exportedFrom_deviceCountMarks (hscope : [] ∉ scope) :
    exportedFrom scope (deviceCountMarks functions ++ marks) =
      (deviceCountSignature functions).map (qualifiedName scope, ·) ++
        exportedFrom scope marks := by
  unfold deviceCountMarks deviceCountSignature
  split
  · have hhidden : [] ∈ [] :: scope := List.mem_cons_self
    simp only [List.cons_append, List.nil_append, exportedFrom_opens,
      exportedFrom_hiddenFunction hhidden, exportedFrom_closes, List.tail_cons,
      exportedFrom_function hscope, List.map_cons, List.map_nil]
  · rfl

/-- The functions that other files can call, with their namespaces. -/
def interface (functions : List RuntimeFunction) : List (Text × Text) :=
  [ ("infini::rt".toList, "void set_runtime_device_type(Device::Type device_type)".toList),
    ("infini::rt".toList, "Device::Type runtime_device_type()".toList)] ++
  (interfaceSignatures functions).map ("infini::rt::runtime".toList, ·)

theorem qualifiedName_singleton (name : Text) : qualifiedName [name] = name := by
  simp [qualifiedName]

theorem qualifiedName_runtime :
    qualifiedName ["runtime".toList, "infini::rt".toList] = "infini::rt::runtime".toList := by
  decide

/-- The header declares the interface. -/
theorem declaredFunctions_generatedHeaderText {default : DeviceType}
    (hf : ∀ f ∈ functions, f.WellFormed) :
    declaredFunctions (generatedHeaderText functions default devices) = interface functions := by
  have houter : ([] : Text) ∉ ["infini::rt".toList] := by decide
  have hinner : ([] : Text) ∉ ["runtime".toList, "infini::rt".toList] := by decide
  rw [declaredFunctions, marksIn_generatedHeaderText hf]
  simp only [exportedFrom_opens, exportedFrom_function houter, exportedFrom_closes, List.tail_cons,
    exportedFrom_functions hinner, exportedFrom_nil, qualifiedName_runtime, qualifiedName_singleton,
    interface, List.append_nil, List.cons_append, List.nil_append]

/-- The source defines the interface. -/
theorem runtimeDispatchText_spec (hdevices : devices ≠ []) (hf : ∀ f ∈ functions, f.WellFormed)
    (hread : ∀ device ∈ devices, ∃ text, runtimeHeaderText tree device = some text)
    (hfunctions : publicRuntimeFunctionsForDevices w tree devices = some functions) :
    ∃ source, runtimeDispatchText w tree devices = some source ∧
      definedFunctions source = interface functions := by
  obtain ⟨default, hdefault, -⟩ := defaultDevice_spec hdevices
  obtain ⟨texts, htexts, -⟩ := mapM_writeFunction (w := w) hf hread
  obtain ⟨eventNotReady, hevent, hmarksEvent⟩ := eventNotReadyDispatch_spec (w := w) hf hread
  obtain ⟨deviceCount, hcount, hmarksCount⟩ := explicitDeviceCountQuery_spec (w := w) hf hread
  obtain ⟨helpers, hhelpers⟩ := reads_sourceHelpers functions
  have hsource : runtimeDispatchText w tree devices = some (joinLines (sourceStart ++
      writeSetRuntimeDeviceType devices :: (sourceHelpers functions ++
        [joinLines (texts.map Prod.snd), deviceCount, eventNotReady,
          "\x7d  // namespace infini::rt::runtime".toList, []]))) := by
    unfold runtimeDispatchText writeRuntimeDispatch
    simp only [hfunctions, htexts, hdefault, hevent, hcount, Option.bind_eq_bind, Option.bind_some,
      Option.pure_def]
  have hend : Reads .source ["\x7d  // namespace infini::rt::runtime".toList, []] [.closes] :=
    ⟨by decide +kernel⟩
  refine ⟨_, hsource, ?_⟩
  rw [definedFunctions, marksIn_joinLines, List.flatMap_append, reads_sourceStart.flatMap_eq,
    List.flatMap_cons, marksIn_setRuntimeDeviceType, List.flatMap_append, hhelpers.flatMap_eq,
    List.flatMap_cons, (reads_functions hf htexts).joinLines, List.flatMap_cons, hmarksCount,
    List.flatMap_cons, hmarksEvent, hend.flatMap_eq]
  -- The helpers stand in unnamed namespaces, which are closed before the functions of the
  -- interface.
  have houter : ([] : Text) ∉ ["infini::rt".toList] := by decide
  have hinner : ([] : Text) ∉ ["infini::rt::runtime".toList] := by decide
  have hhidden : ([] : Text) ∈ [[], "infini::rt::runtime".toList] := List.mem_cons_self
  simp only [List.cons_append, List.nil_append, List.append_assoc, exportedFrom_opens,
    exportedFrom_function houter, exportedFrom_closes, List.tail_cons, exportedFrom_hidden hhidden,
    exportedFrom_functions hinner, exportedFrom_deviceCountMarks hinner, exportedFrom_nil,
    qualifiedName_singleton, interface, interfaceSignatures, List.map_append, List.append_nil]

/-- No function is there twice. -/
theorem interfaceSignatures_nodup : (interfaceSignatures publicRuntimeFunctions).Nodup := by
  decide +kernel

/-- A selection from the table adds under a name what the whole table adds, or nothing. -/
theorem signature_sublist {name : String} {signature : Text}
    (hname : hasName publicRuntimeFunctions name = true) :
    (if hasName functions name then [signature] else []).Sublist
      (if hasName publicRuntimeFunctions name then [signature] else []) := by
  rw [if_pos hname]
  split
  · exact .refl _
  · exact List.nil_sublist _

theorem otherSignatures_sublist (functions : List RuntimeFunction) :
    (deviceCountSignature functions ++ eventNotReadySignature functions).Sublist
      (deviceCountSignature publicRuntimeFunctions ++
        eventNotReadySignature publicRuntimeFunctions) :=
  (signature_sublist (by decide)).append (signature_sublist (by decide))

theorem notMem_outer (signature : Text) : ("infini::rt::runtime".toList, signature) ∉
    [ ("infini::rt".toList, "void set_runtime_device_type(Device::Type device_type)".toList),
      ("infini::rt".toList, "Device::Type runtime_device_type()".toList)] := by
  have hne : "infini::rt::runtime".toList ≠ "infini::rt".toList := by decide
  simp only [List.mem_cons, List.not_mem_nil, or_false, Prod.mk.injEq, hne, false_and,
    not_false_eq_true]

theorem interface_nodup (h : functions.Sublist publicRuntimeFunctions) :
    (interface functions).Nodup := by
  have hinner : ((interfaceSignatures functions).map ("infini::rt::runtime".toList, ·)).Nodup :=
    (interfaceSignatures_nodup.sublist ((h.map _).append (otherSignatures_sublist functions))).map
      fun _ _ heq => (Prod.mk.inj heq).2
  refine List.nodup_append.mpr ⟨by decide, hinner, ?_⟩
  rintro function houter function' hfunction rfl
  obtain ⟨signature, -, rfl⟩ := List.mem_map.mp hfunction
  exact notMem_outer signature houter

/-- A function of the table is in the interface if its devices have it. -/
theorem mem_interface (h : functions.Sublist publicRuntimeFunctions)
    (hf : f ∈ publicRuntimeFunctions) :
    ("infini::rt::runtime".toList, f.signature) ∈ interface functions ↔ f ∈ functions := by
  obtain ⟨htable, -, hdisjoint⟩ := List.nodup_append.mp interfaceSignatures_nodup
  constructor
  · intro hmem
    rcases List.mem_append.mp hmem with hmem | hmem
    · exact absurd hmem (notMem_outer f.signature)
    · obtain ⟨signature, hsignature, heq⟩ := List.mem_map.mp hmem
      obtain rfl := (Prod.mk.inj heq).2
      rcases List.mem_append.mp hsignature with hsignature | hother
      · obtain ⟨f', hf', heq⟩ := List.mem_map.mp hsignature
        exact List.inj_on_of_nodup_map htable (h.subset hf') hf heq ▸ hf'
      · -- The table has no function with one of the other signatures.
        have hlast := (otherSignatures_sublist functions).subset hother
        exact absurd rfl (hdisjoint _ (List.mem_map_of_mem hf) _ hlast)
  · exact fun hmem => List.mem_append_right _ (List.mem_map_of_mem (List.mem_append_left _
      (List.mem_map_of_mem hmem)))

/-- **The source defines what the header declares.**  For every list of device names that the
generator accepts, the functions that the generated source exports are those that `generated.h`
declares, in the same namespaces and in the same order, and each of them once.  A function of the
interface is among them exactly if the runtime header of a selected device has its name. -/
theorem declared_eq_defined (w : WordCharacters) (tree : SourceTree) (names : List String)
    (devices : List DeviceType) (hnames : names ≠ []) (hselect : selectDevices names = some devices)
    (hseeds : ∀ path ∈ seedHeaders devices, (tree.file path).isSome) :
    ∃ header source, writeGeneratedHeader w tree devices = some (generatedHeaderPath, header) ∧
      runtimeDispatchText w tree devices = some source ∧
      declaredFunctions header = definedFunctions source ∧ (declaredFunctions header).Nodup ∧
      ∀ f ∈ publicRuntimeFunctions,
        ("infini::rt::runtime".toList, f.signature) ∈ declaredFunctions header ↔
          ∃ device ∈ devices, Mentions w tree device f := by
  obtain ⟨hne, -, -⟩ := selectDevices_spec hnames hselect
  have hread : ∀ device ∈ devices, ∃ text, runtimeHeaderText tree device = some text :=
    fun device hdevice => exists_runtimeHeaderText hseeds hdevice
  obtain ⟨default, hdefault, -, -⟩ := defaultDevice_spec hne
  obtain ⟨functions, hfunctions, hmem⟩ := functionsForDevices_spec (w := w) wellFormed_of_mem hread
  have hsub : functions.Sublist publicRuntimeFunctions := functionsForDevices_sublist hfunctions
  have hf : ∀ f ∈ functions, f.WellFormed := fun f hf => wellFormed_of_mem f (hsub.subset hf)
  obtain ⟨source, hsource, hdefined⟩ := runtimeDispatchText_spec hne hf hread hfunctions
  have hheader : writeGeneratedHeader w tree devices =
      some (generatedHeaderPath, generatedHeaderText functions default devices) := by
    rw [writeGeneratedHeader, hdefault, publicRuntimeFunctionsForDevices, hfunctions]
    rfl
  refine ⟨_, source, hheader, hsource, ?_⟩
  rw [declaredFunctions_generatedHeaderText hf]
  refine ⟨hdefined.symm, interface_nodup hsub, fun f hf => ?_⟩
  rw [mem_interface hsub hf, hmem]
  exact and_iff_right hf

/-- A tree of one text, which has the name of one function, for two devices. -/
theorem declared_eq_defined_mallocOnly :
    ∃ header source, writeGeneratedHeader asciiWords mallocOnly [.cpu, .nvidia] =
        some (generatedHeaderPath, header) ∧
      runtimeDispatchText asciiWords mallocOnly [.cpu, .nvidia] = some source ∧
      declaredFunctions header = definedFunctions source ∧ (declaredFunctions header).Nodup ∧
      ∀ f ∈ publicRuntimeFunctions,
        ("infini::rt::runtime".toList, f.signature) ∈ declaredFunctions header ↔
          ∃ device ∈ [DeviceType.cpu, .nvidia], Mentions asciiWords mallocOnly device f :=
  declared_eq_defined asciiWords mallocOnly ["cpu", "nvidia", "cpu"] [.cpu, .nvidia] (by decide)
    (by decide) fun _ _ => rfl

end Both

end InfiniRT.Headers
