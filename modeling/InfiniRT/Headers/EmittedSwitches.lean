import InfiniRT.Headers.RuntimeFunctions

/-!
# The switches of the generated source

What a generated function does is read back from its text, line by line.  A case is a line that
starts with `case` at its indentation, and the deeper lines after it are its statements.  A
generated function has one case for each device whose runtime header has the name of the function
among its words, and the statement of the case calls this function of that device.  Proved:

* **`readCases_switchLines`** — a switch reads back as its cases;
* **`readCases_dispatch`** — the cases of a generated function are those of its devices.
-/

namespace InfiniRT.Headers

open InfiniRT.Library
open InfiniRT.Tensor (DeviceType)

/-! ### Lines -/

/-- A text without a line break. -/
def OneLine (text : Text) : Prop := '\n' ∉ text

instance (text : Text) : Decidable (OneLine text) := inferInstanceAs (Decidable (_ ∉ _))

section Lines

variable {text text' : Text} {c : Char} {lines lines' : List Text} {blocks : List (List Text)}

theorem OneLine.append (h : OneLine text) (h' : OneLine text') : OneLine (text ++ text') :=
  List.not_mem_append h h'

theorem OneLine.cons (hc : c ≠ '\n') (h : OneLine text) : OneLine (c :: text) :=
  List.not_mem_cons_of_ne_of_not_mem hc.symm h

theorem OneLine.joinComma (h : ∀ text ∈ lines, OneLine text) : OneLine (joinComma lines) := by
  unfold Headers.joinComma
  induction lines with
  | nil => exact List.not_mem_nil
  | cons text lines ih =>
    have htext := h text List.mem_cons_self
    have hlines := fun text hmem => h text (List.mem_cons_of_mem _ hmem)
    rcases lines with _ | ⟨text', lines⟩
    · rw [List.intercalate_singleton]
      exact htext
    · rw [List.intercalate_cons_cons]
      exact (htext.append (by decide)).append (ih hlines)

theorem linesOf_joinLines (h : ∀ line ∈ lines, OneLine line) (hne : lines ≠ []) :
    linesOf (joinLines lines) = lines := List.splitOn_intercalate '\n' h hne

theorem joinLines_append (hne : lines ≠ []) (hne' : lines' ≠ []) :
    joinLines (lines ++ lines') = joinLines lines ++ '\n' :: joinLines lines' := by
  unfold joinLines
  induction lines with
  | nil => exact absurd rfl hne
  | cons line lines ih =>
    rcases lines with _ | ⟨next, lines⟩
    · rw [List.singleton_append, List.intercalate_cons_of_ne_nil hne', List.intercalate_singleton,
        List.append_assoc, List.singleton_append]
    · rw [List.cons_append, List.intercalate_cons_of_ne_nil (by simp),
        ih (List.cons_ne_nil next lines), List.intercalate_cons_cons]
      simp only [List.append_assoc]

/-- Joining blocks of lines joins their lines. -/
theorem joinLines_map_joinLines (hne : blocks ≠ []) (h : ∀ block ∈ blocks, block ≠ []) :
    joinLines (blocks.map joinLines) = joinLines blocks.flatten := by
  induction blocks with
  | nil => exact absurd rfl hne
  | cons block blocks ih =>
    have hblock := h block List.mem_cons_self
    have hblocks := fun block hmem => h block (List.mem_cons_of_mem _ hmem)
    rcases blocks with _ | ⟨next, blocks⟩
    · simp [joinLines]
    · have hrest : (next :: blocks).flatten ≠ [] := by
        rw [List.flatten_cons]
        exact List.append_ne_nil_of_left_ne_nil (hblocks next List.mem_cons_self) _
      rw [List.flatten_cons, joinLines_append hblock hrest, ← ih (List.cons_ne_nil _ _) hblocks,
        List.map_cons, ← List.singleton_append, joinLines_append (by simp) (by simp)]
      simp [joinLines]

/-- A line that is several lines. -/
theorem joinLines_nested (before after : List Text) (hne : lines ≠ []) :
    joinLines (before ++ joinLines lines :: after) = joinLines (before ++ (lines ++ after)) := by
  have hmid : joinLines (joinLines lines :: after) = joinLines (lines ++ after) := by
    rcases after with _ | ⟨line, after⟩
    · simp [joinLines]
    · rw [joinLines_append hne (List.cons_ne_nil _ _), ← List.singleton_append,
        joinLines_append (by simp) (List.cons_ne_nil _ _)]
      simp [joinLines]
  rcases before with _ | ⟨line, before⟩
  · exact hmid
  · rw [joinLines_append (List.cons_ne_nil _ _) (by simp), hmid,
      ← joinLines_append (List.cons_ne_nil _ _) (List.append_ne_nil_of_left_ne_nil hne _)]

end Lines

/-! ### Reading a switch -/

/-- What stands between a start and an end of a line. -/
def between? (start ending line : Text) : Option Text :=
  (line.dropPrefix? start).bind (·.dropSuffix? ending)

theorem between?_eq_some {start ending line middle : Text} :
    between? start ending line = some middle ↔ line = start ++ (middle ++ ending) := by
  simp only [between?, Option.bind_eq_some_iff, List.dropPrefix?_eq_some_iff,
    List.dropSuffix?_eq_some_iff, beq_iff_eq]
  constructor
  · rintro ⟨rest, ⟨_, rfl, rfl⟩, _, rfl, rfl⟩
    rfl
  · rintro rfl
    exact ⟨_, ⟨_, rfl, rfl⟩, _, rfl, rfl⟩

/-- The label of a case. -/
def caseLabel? (line : Text) : Option Text := between? caseStart [':'] line

/-- The indentation of a statement of a case. -/
def statementStart : Text := List.replicate 6 ' '

/-- The line is a statement of a case. -/
def isStatement (line : Text) : Bool := statementStart.isPrefixOf line

/-- The cases of a switch, with their statements. -/
def readCases : List Text → List (Text × List Text)
  | [] => []
  | line :: lines =>
    match caseLabel? line with
    | some label => (label, lines.takeWhile isStatement) :: readCases lines
    | none => readCases lines

/-- The lines of a switch: a case for each device. -/
def switchLines (statements : DeviceType → List Text) (devices : List DeviceType) : List Text :=
  devices.flatMap fun device => caseLine device :: statements device

section Read

variable {statements : DeviceType → List Text} {devices : List DeviceType} {line : Text}
  {lines after : List Text}

theorem caseLabel?_caseLine (device : DeviceType) :
    caseLabel? (caseLine device) = some (deviceTypeName device).toList := by
  rw [caseLabel?, between?_eq_some, caseLine]

theorem isStatement_caseLine (device : DeviceType) : isStatement (caseLine device) = false := rfl

/-- A statement is no case: it has a blank where a case has its keyword. -/
theorem caseLabel?_of_isStatement (h : isStatement line = true) : caseLabel? line = none := by
  obtain ⟨rest, rfl⟩ := List.isPrefixOf_iff_prefix.mp h
  refine Option.eq_none_iff_forall_ne_some.mpr fun label hlabel => ?_
  have hline := between?_eq_some.mp hlabel
  have hstart : caseStart = ' ' :: ' ' :: ' ' :: ' ' :: 'c' :: "ase ".toList := rfl
  rw [hstart] at hline
  simp only [statementStart, List.replicate, List.cons_append, List.cons.injEq] at hline
  exact absurd hline.2.2.2.2.1 (by decide)

theorem readCases_of_not (h : ∀ line ∈ lines, caseLabel? line = none) (after : List Text) :
    readCases (lines ++ after) = readCases after := by
  induction lines with
  | nil => rfl
  | cons line lines ih =>
    rw [List.cons_append, readCases, h line List.mem_cons_self]
    exact ih fun line hmem => h line (List.mem_cons_of_mem _ hmem)

/-- **A switch reads back** as its cases.  What follows it starts with a line that is no
statement. -/
theorem readCases_switchLines
    (hstatements : ∀ device, ∀ line ∈ statements device, isStatement line = true)
    (hafter : after.takeWhile isStatement = []) (devices : List DeviceType) :
    readCases (switchLines statements devices ++ after) =
      (devices.map fun device => ((deviceTypeName device).toList, statements device)) ++
        readCases after := by
  induction devices with
  | nil => rfl
  | cons device devices ih =>
    have hrest : (switchLines statements devices ++ after).takeWhile isStatement = [] := by
      cases devices with
      | nil => exact hafter
      | cons next devices =>
        exact List.takeWhile_cons_of_neg (by rw [isStatement_caseLine]; exact Bool.false_ne_true)
    have hnone := fun line hmem => caseLabel?_of_isStatement (hstatements device line hmem)
    have hbody :
        (statements device ++ (switchLines statements devices ++ after)).takeWhile isStatement =
        statements device := by
      rw [List.takeWhile_append_of_pos (hstatements device), hrest, List.append_nil]
    have hlines : switchLines statements (device :: devices) ++ after =
        caseLine device :: (statements device ++ (switchLines statements devices ++ after)) := by
      rw [switchLines, List.flatMap_cons, List.cons_append, List.cons_append, List.append_assoc]
      rfl
    rw [hlines, readCases, caseLabel?_caseLine, readCases_of_not hnone, ih]
    dsimp only
    rw [hbody, List.map_cons, List.cons_append]

end Read

/-! ### The generated functions -/

section Functions

variable {f : RuntimeFunction} {device : DeviceType} {devices : List DeviceType}

theorem oneLine_deviceTypeName (device : DeviceType) : OneLine (deviceTypeName device).toList := by
  cases device <;> decide

theorem deviceTypeName_injective {device device' : DeviceType}
    (h : (deviceTypeName device).toList = (deviceTypeName device').toList) : device = device' := by
  have hname := String.toList_injective h
  cases device <;> cases device' <;> first | rfl | exact absurd hname (by decide)

theorem oneLine_caseStart : OneLine caseStart := by decide

theorem oneLine_callStart : OneLine callStart := by decide

theorem oneLine_caseLine (device : DeviceType) : OneLine (caseLine device) :=
  oneLine_caseStart.append ((oneLine_deviceTypeName device).append (by decide))

/-- The words of the table. -/
structure RuntimeFunction.WellFormed (f : RuntimeFunction) : Prop where
  returnType : f.returnType = "Error"
  name_ne : f.name.toList ≠ []
  name_word : ∀ c ∈ f.name.toList, (c.isAlphanum || c == '_') = true
  params : ∀ p ∈ f.params, OneLine p.type.toList ∧ OneLine p.name.toList

theorem wellFormed_of_mem : ∀ f ∈ publicRuntimeFunctions, f.WellFormed := by
  have hreturn : ∀ f ∈ publicRuntimeFunctions, f.returnType = "Error" := by decide
  have hne : ∀ f ∈ publicRuntimeFunctions, f.name.toList ≠ [] := by decide
  have hword : ∀ f ∈ publicRuntimeFunctions,
      f.name.toList.all (fun c => c.isAlphanum || c == '_') = true := by decide
  have hparams : ∀ f ∈ publicRuntimeFunctions, ∀ p ∈ f.params,
      OneLine p.type.toList ∧ OneLine p.name.toList := by decide
  exact fun f hf => ⟨hreturn f hf, hne f hf, List.all_eq_true.mp (hword f hf), hparams f hf⟩

namespace RuntimeFunction.WellFormed

theorem oneLine_name (hf : f.WellFormed) : OneLine f.name.toList := fun hmem => by
  have hword := hf.name_word '\n' hmem
  revert hword
  decide

theorem oneLine_signature (hf : f.WellFormed) : OneLine f.signature := by
  have hdecl : OneLine f.paramsDecl := OneLine.joinComma fun text htext => by
    obtain ⟨p, hp, rfl⟩ := List.mem_map.mp htext
    exact (hf.params p hp).1.append ((hf.params p hp).2.cons (by decide))
  unfold signature
  rw [hf.returnType]
  exact OneLine.append (by decide) (.cons (by decide)
    (hf.oneLine_name.append (.cons (by decide) (hdecl.append (by decide)))))

theorem oneLine_runtimeArg {p : Param} (hp : OneLine p.type.toList ∧ OneLine p.name.toList)
    (device : DeviceType) : OneLine (runtimeArg p device) := by
  have hdevice := oneLine_deviceTypeName device
  have hcall : OneLine ('>' :: '(' :: (p.name.toList ++ [')'])) :=
    .cons (by decide) (.cons (by decide) (hp.2.append (by decide)))
  unfold runtimeArg
  dsimp only
  split
  · exact OneLine.append (by decide) (hdevice.append hcall)
  · split
    · exact OneLine.append (by decide)
        (hdevice.append (.append (by decide) (hp.1.append hcall)))
    · split
      · exact OneLine.append (by decide) (hdevice.append hcall)
      · exact hp.2

theorem oneLine_callLine (hf : f.WellFormed) (device : DeviceType) :
    OneLine (callLine f device) := by
  have hargs : OneLine (joinComma (f.params.map fun p => runtimeArg p device)) :=
    OneLine.joinComma fun text htext => by
      obtain ⟨p, hp, rfl⟩ := List.mem_map.mp htext
      exact oneLine_runtimeArg (hf.params p hp) device
  have hcall : OneLine (runtimeCall f device) := OneLine.append (by decide)
    ((oneLine_deviceTypeName device).append (.append (by decide) (hf.oneLine_name.append
      (.cons (by decide) (hargs.append (by decide))))))
  exact oneLine_callStart.append (hcall.append (by decide))

end RuntimeFunction.WellFormed

/-- The lines before and after the cases of a generated function. -/
def headLines (f : RuntimeFunction) : List Text :=
  [f.signature ++ " \x7b".toList, "  switch (infini::rt::runtime_device_type()) \x7b".toList]

def tailLines : List Text :=
  ["  \x7d".toList, [], "  assert(false && \"unsupported runtime device type\");".toList,
    "  return InvalidValueError();".toList, "\x7d".toList, []]

theorem isStatement_callLine (f : RuntimeFunction) (device : DeviceType) :
    isStatement (callLine f device) = true := rfl

/-- A line that does not start with a blank is no case. -/
theorem caseLabel?_of_head {c : Char} {text : Text} (hc : c ≠ ' ') :
    caseLabel? (c :: text) = none := by
  refine Option.eq_none_iff_forall_ne_some.mpr fun label hlabel => ?_
  have hline := between?_eq_some.mp hlabel
  have hstart : caseStart = ' ' :: "   case ".toList := rfl
  rw [hstart, List.cons_append] at hline
  exact hc (List.cons.inj hline).1

/-- The lines of a switch, with what is written around it. -/
theorem linesOf_switch (before after : List Text) (statements : DeviceType → List Text)
    (hbefore : ∀ line ∈ before, OneLine line) (hafter : ∀ line ∈ after, OneLine line)
    (hstatements : ∀ device, ∀ line ∈ statements device, OneLine line) (hne : devices ≠ []) :
    linesOf (joinLines (before ++ joinLines (devices.map fun device =>
      joinLines (caseLine device :: statements device)) :: after)) =
      before ++ (switchLines statements devices ++ after) := by
  have hblocks :
      joinLines (devices.map fun device => joinLines (caseLine device :: statements device)) =
      joinLines (switchLines statements devices) := by
    have hmap : (devices.map fun device => joinLines (caseLine device :: statements device)) =
        (devices.map fun device => caseLine device :: statements device).map joinLines := by
      rw [List.map_map]
      rfl
    rw [hmap, joinLines_map_joinLines (by simpa using hne) (by simp), ← List.flatMap_def]
    rfl
  have hswitch : switchLines statements devices ≠ [] := by
    obtain ⟨first, rest, rfl⟩ := List.exists_cons_of_ne_nil hne
    exact List.cons_ne_nil _ _
  rw [hblocks, joinLines_nested before after hswitch, linesOf_joinLines]
  · intro line hline
    rcases List.mem_append.mp hline with hline | hline
    · exact hbefore line hline
    · rcases List.mem_append.mp hline with hline | hline
      · obtain ⟨device, -, hline⟩ := List.mem_flatMap.mp hline
        rcases List.mem_cons.mp hline with rfl | hline
        · exact oneLine_caseLine device
        · exact hstatements device line hline
      · exact hafter line hline
  · exact List.append_ne_nil_of_right_ne_nil _ (List.append_ne_nil_of_left_ne_nil hswitch _)

/-- **The cases of a generated function** are those of its devices. -/
theorem readCases_dispatch (hf : f.WellFormed) (hne : devices ≠ []) :
    readCases (linesOf (writeRuntimeDispatchFunction f devices)) =
      devices.map fun device => ((deviceTypeName device).toList, [callLine f device]) := by
  have hlines : linesOf (writeRuntimeDispatchFunction f devices) =
      headLines f ++ (switchLines (fun device => [callLine f device]) devices ++ tailLines) := by
    refine linesOf_switch (headLines f) tailLines (fun device => [callLine f device]) ?_
      (by decide) ?_ hne
    · intro line hline
      rcases List.mem_cons.mp hline with rfl | hline
      · exact hf.oneLine_signature.append (by decide)
      · obtain rfl := List.mem_singleton.mp hline
        decide
    · intro device line hline
      obtain rfl := List.mem_singleton.mp hline
      exact hf.oneLine_callLine device
  have hhead : ∀ line ∈ headLines f, caseLabel? line = none := by
    intro line hline
    rcases List.mem_cons.mp hline with rfl | hline
    · have hsignature : f.signature = 'E' :: ("rror".toList ++
          ' ' :: (f.name.toList ++ '(' :: (f.paramsDecl ++ [')']))) := by
        rw [RuntimeFunction.signature, hf.returnType]
        rfl
      rw [hsignature]
      exact caseLabel?_of_head (by decide)
    · obtain rfl := List.mem_singleton.mp hline
      decide
  rw [hlines, readCases_of_not hhead, readCases_switchLines _ (by decide)]
  · have htail : readCases tailLines = [] := by decide
    rw [htail, List.append_nil]
  · intro device line hline
    obtain rfl := List.mem_singleton.mp hline
    exact isStatement_callLine f device

/-- The cases of the function that selects a type. -/
theorem readCases_setRuntimeDeviceType (hne : devices ≠ []) :
    readCases (linesOf (writeSetRuntimeDeviceType devices)) =
      devices.map fun device => ((deviceTypeName device).toList,
        ["      runtime_device_type_ = device_type;".toList, "      return;".toList]) := by
  have hlines := linesOf_switch
    ["void set_runtime_device_type(Device::Type device_type) \x7b".toList,
      "  switch (device_type) \x7b".toList]
    ["  \x7d".toList, [], "  assert(false && \"unsupported runtime device type\");".toList,
      "\x7d".toList]
    (fun _ => ["      runtime_device_type_ = device_type;".toList, "      return;".toList])
    (by decide) (by decide) (fun _ => by decide) hne
  refine (congrArg readCases hlines).trans ?_
  rw [readCases_of_not (by decide), readCases_switchLines (fun _ => by decide) (by decide)]
  exact List.append_nil _

end Functions

end InfiniRT.Headers
