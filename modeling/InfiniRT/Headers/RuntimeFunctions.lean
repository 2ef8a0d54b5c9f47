import InfiniRT.Headers.DetailHeaders
import InfiniRT.Library.Words

/-!
# The generated runtime functions

The generator writes one function for every entry of a table whose name occurs, as a word, in the
runtime header of a selected device.  Such a function switches over the selected type, and has one
case for each of these devices.  The texts are built here as the generator builds them; a text of
several lines is a list of lines that are joined.  The main definitions:

* **`publicRuntimeFunctions`** — the table of the runtime functions;
* **`writeRuntimeDispatchFunction`** — the text of one generated function;
* **`devicesForFunction`** — the devices whose runtime header has the name of a function.
-/

namespace InfiniRT.Headers

open InfiniRT.Library
open InfiniRT.Tensor (DeviceType)

/-- `_Param`. -/
structure Param where
  type : String
  name : String
  deriving DecidableEq, Repr

/-- `_Function`. -/
structure RuntimeFunction where
  returnType : String
  name : String
  params : List Param
  deriving DecidableEq, Repr

/-- `_PUBLIC_RUNTIME_FUNCTIONS`. -/
def publicRuntimeFunctions : List RuntimeFunction := [
  ⟨"Error", "SetDevice", [⟨"int", "device"⟩]⟩,
  ⟨"Error", "GetDevice", [⟨"int*", "device"⟩]⟩,
  ⟨"Error", "GetDeviceCount", [⟨"int*", "count"⟩]⟩,
  ⟨"Error", "DeviceSynchronize", []⟩,
  ⟨"Error", "Malloc", [⟨"void**", "ptr"⟩, ⟨"std::size_t", "size"⟩]⟩,
  ⟨"Error", "MallocHost", [⟨"void**", "ptr"⟩, ⟨"std::size_t", "size"⟩]⟩,
  ⟨"Error", "MallocAsync", [⟨"void**", "ptr"⟩, ⟨"std::size_t", "size"⟩, ⟨"Stream", "stream"⟩]⟩,
  ⟨"Error", "Free", [⟨"void*", "ptr"⟩]⟩,
  ⟨"Error", "FreeHost", [⟨"void*", "ptr"⟩]⟩,
  ⟨"Error", "FreeAsync", [⟨"void*", "ptr"⟩, ⟨"Stream", "stream"⟩]⟩,
  ⟨"Error", "MemGetInfo", [⟨"std::size_t*", "free"⟩, ⟨"std::size_t*", "total"⟩]⟩,
  ⟨"Error", "Memcpy", [⟨"void*", "dst"⟩, ⟨"const void*", "src"⟩, ⟨"std::size_t", "count"⟩,
    ⟨"MemcpyKind", "kind"⟩]⟩,
  ⟨"Error", "MemcpyAsync", [⟨"void*", "dst"⟩, ⟨"const void*", "src"⟩, ⟨"std::size_t", "count"⟩,
    ⟨"MemcpyKind", "kind"⟩, ⟨"Stream", "stream"⟩]⟩,
  ⟨"Error", "Memset", [⟨"void*", "ptr"⟩, ⟨"int", "value"⟩, ⟨"std::size_t", "count"⟩]⟩,
  ⟨"Error", "MemsetAsync", [⟨"void*", "ptr"⟩, ⟨"int", "value"⟩, ⟨"std::size_t", "count"⟩,
    ⟨"Stream", "stream"⟩]⟩,
  ⟨"Error", "StreamCreate", [⟨"Stream*", "stream"⟩]⟩,
  ⟨"Error", "StreamDestroy", [⟨"Stream", "stream"⟩]⟩,
  ⟨"Error", "StreamSynchronize", [⟨"Stream", "stream"⟩]⟩,
  ⟨"Error", "StreamWaitEvent", [⟨"Stream", "stream"⟩, ⟨"Event", "event"⟩,
    ⟨"unsigned int", "flags"⟩]⟩,
  ⟨"Error", "EventCreate", [⟨"Event*", "event"⟩]⟩,
  ⟨"Error", "EventCreateWithFlags", [⟨"Event*", "event"⟩, ⟨"unsigned int", "flags"⟩]⟩,
  ⟨"Error", "EventRecord", [⟨"Event", "event"⟩, ⟨"Stream", "stream"⟩]⟩,
  ⟨"Error", "EventQuery", [⟨"Event", "event"⟩]⟩,
  ⟨"Error", "EventSynchronize", [⟨"Event", "event"⟩]⟩,
  ⟨"Error", "EventDestroy", [⟨"Event", "event"⟩]⟩,
  ⟨"Error", "EventElapsedTime", [⟨"float*", "ms"⟩, ⟨"Event", "start"⟩, ⟨"Event", "end"⟩]⟩,
  ⟨"Error", "StreamBeginCapture", [⟨"Stream", "stream"⟩, ⟨"StreamCaptureMode", "mode"⟩]⟩,
  ⟨"Error", "StreamEndCapture", [⟨"Stream", "stream"⟩, ⟨"Graph*", "graph"⟩]⟩,
  ⟨"Error", "GraphDestroy", [⟨"Graph", "graph"⟩]⟩,
  ⟨"Error", "GraphInstantiate", [⟨"GraphExec*", "graph_exec"⟩, ⟨"Graph", "graph"⟩]⟩,
  ⟨"Error", "GraphExecDestroy", [⟨"GraphExec", "graph_exec"⟩]⟩,
  ⟨"Error", "GraphLaunch", [⟨"GraphExec", "graph_exec"⟩, ⟨"Stream", "stream"⟩]⟩]

/-- `_DEVICE_TYPES`. -/
def deviceTypeName : DeviceType → String
  | .cpu => "Device::Type::kCpu"
  | .nvidia => "Device::Type::kNvidia"
  | .iluvatar => "Device::Type::kIluvatar"
  | .hygon => "Device::Type::kHygon"
  | .thead => "Device::Type::kThead"
  | .metax => "Device::Type::kMetax"
  | .mars => "Device::Type::kMars"
  | .moore => "Device::Type::kMoore"
  | .cambricon => "Device::Type::kCambricon"
  | .ascend => "Device::Type::kAscend"

/-! ### Lines -/

/-- Join lines. -/
def joinLines (lines : List Text) : Text := ['\n'].intercalate lines

/-- The lines of a text. -/
def linesOf (text : Text) : List Text := text.splitOn '\n'

/-- Join parts with a comma and a blank. -/
def joinComma (parts : List Text) : Text := ", ".toList.intercalate parts

/-! ### Functions -/

/-- `params_decl`. -/
def RuntimeFunction.paramsDecl (f : RuntimeFunction) : Text :=
  joinComma (f.params.map fun p => p.type.toList ++ ' ' :: p.name.toList)

/-- `signature`. -/
def RuntimeFunction.signature (f : RuntimeFunction) : Text :=
  f.returnType.toList ++ ' ' :: (f.name.toList ++ '(' :: (f.paramsDecl ++ [')']))

/-- The types of handles that a backend has types of its own for. -/
def handleTypes : List String :=
  ["Stream", "Stream*", "Event", "Event*", "Graph", "Graph*", "GraphExec", "GraphExec*"]

/-- `_runtime_arg`. -/
def runtimeArg (p : Param) (device : DeviceType) : Text :=
  let deviceType := (deviceTypeName device).toList
  let call := '(' :: (p.name.toList ++ [')'])
  if p.type = "MemcpyKind" then "RuntimeMemcpyKind<".toList ++ (deviceType ++ '>' :: call)
  else if p.type ∈ handleTypes then
    "reinterpret_cast<typename Runtime<".toList ++
      (deviceType ++ (">::".toList ++ (p.type.toList ++ '>' :: call)))
  else if p.type = "StreamCaptureMode" then
    "RuntimeStreamCaptureMode<".toList ++ (deviceType ++ '>' :: call)
  else p.name.toList

/-- `_runtime_call`, with `_runtime_args`. -/
def runtimeCall (f : RuntimeFunction) (device : DeviceType) : Text :=
  "Runtime<".toList ++ ((deviceTypeName device).toList ++ (">::".toList ++ (f.name.toList ++
    '(' :: (joinComma (f.params.map fun p => runtimeArg p device) ++ [')']))))

/-! ### Switches -/

/-- How a case starts. -/
def caseStart : Text := "    case ".toList

/-- The line of a case. -/
def caseLine (device : DeviceType) : Text := caseStart ++ ((deviceTypeName device).toList ++ [':'])

/-- What stands before and after the call of a case. -/
def callStart : Text := "      return CheckCall([&] \x7b return ".toList

def callEnd : Text := "; \x7d);".toList

/-- The line that calls the backend. -/
def callLine (f : RuntimeFunction) (device : DeviceType) : Text :=
  callStart ++ (runtimeCall f device ++ callEnd)

/-- `_dispatch_cases`. -/
def dispatchCases (devices : List DeviceType) (f : RuntimeFunction) : Text :=
  joinLines (devices.map fun device => joinLines [caseLine device, callLine f device])

/-- `_write_runtime_dispatch_function`. -/
def writeRuntimeDispatchFunction (f : RuntimeFunction) (devices : List DeviceType) : Text :=
  joinLines [
    f.signature ++ " \x7b".toList,
    "  switch (infini::rt::runtime_device_type()) \x7b".toList,
    dispatchCases devices f,
    "  \x7d".toList,
    [],
    "  assert(false && \"unsupported runtime device type\");".toList,
    "  return InvalidValueError();".toList,
    "\x7d".toList,
    []]

/-- `set_type_cases` and the function around it. -/
def writeSetRuntimeDeviceType (devices : List DeviceType) : Text :=
  joinLines [
    "void set_runtime_device_type(Device::Type device_type) \x7b".toList,
    "  switch (device_type) \x7b".toList,
    joinLines (devices.map fun device => joinLines [caseLine device,
      "      runtime_device_type_ = device_type;".toList, "      return;".toList]),
    "  \x7d".toList,
    [],
    "  assert(false && \"unsupported runtime device type\");".toList,
    "\x7d".toList]

/-! ### Which functions are written -/

/-- What `\w` matches: letters, digits and the underscore, and beyond ASCII what Unicode says. -/
structure WordCharacters where
  isWord : Char → Bool
  ascii : ∀ c, (c.isAlphanum || c == '_') = true → isWord c = true

variable (w : WordCharacters) (tree : SourceTree)

/-- `_runtime_header_for_device`. -/
def runtimeHeaderForDevice (device : DeviceType) : Option Path :=
  ((deviceHeaders device).find? fun header => header.2.1 = "runtime_.h").map (·.2.2.toList)

/-- The text of the runtime header of a device. -/
def runtimeHeaderText (device : DeviceType) : Option Text :=
  do tree.file (← runtimeHeaderForDevice device)

/-- `_devices_for_function`. -/
def devicesForFunction (f : RuntimeFunction) : List DeviceType → Option (List DeviceType)
  | [] => some []
  | device :: devices => do
    let text ← runtimeHeaderText tree device
    let found ← devicesForFunction f devices
    return if Words.search w.isWord f.name.toList none text then device :: found else found

/-- Those of a list of functions that some device has. -/
def functionsForDevices (devices : List DeviceType) :
    List RuntimeFunction → Option (List RuntimeFunction)
  | [] => some []
  | f :: functions => do
    let found ← devicesForFunction w tree f devices
    let rest ← functionsForDevices devices functions
    return if found.isEmpty then rest else f :: rest

/-- `_public_runtime_functions_for_devices`. -/
def publicRuntimeFunctionsForDevices (devices : List DeviceType) : Option (List RuntimeFunction) :=
  functionsForDevices w tree devices publicRuntimeFunctions

end InfiniRT.Headers
