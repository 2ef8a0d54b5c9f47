import InfiniRT.Library.Worklist
import InfiniRT.Tensor.TensorView
import Mathlib.Data.Char
import Mathlib.Data.Finset.Sort
import Mathlib.Data.List.Lex

/-!
# The detail headers of the public headers

`_write_detail_headers` ships the headers that the selected devices need.  A text is a list of code
points, and a name is looked up in the source tree as it is written, so two names may stand for one
file.  The pattern for includes is matched from left to right, and the text between its quotes ends
at the first quote.  An exception is `none`.

One assumption is not written as a hypothesis: no include names a directory of the source tree.  The
`exists` of the generator holds of a directory, and reading it would raise an exception.  Proved:

* **`run_includeClosed`** — the loop ends with the least set that is closed under existing includes;
* **`writeDetailHeaders_closed`** — this set is shipped, in every order, with its includes
  rewritten.
-/

namespace InfiniRT.Headers

open InfiniRT.Library
open InfiniRT.Tensor (DeviceType)

/-- The content of a file. -/
abbrev Text := List Char

/-- A path relative to the source root or to the include root. -/
abbrev Path := List Char

/-- A source tree: the file a name stands for, if there is one.  It has finitely many files. -/
structure SourceTree where
  file : Path → Option Text
  texts : List Text
  file_mem : ∀ path text, file path = some text → text ∈ texts

/-! ### The include pattern -/

/-- The quote. -/
def quote : Char := Char.ofNat 34

/-- How an include starts. -/
def opening : Text := "#include ".toList ++ [quote]

/-- The names that the pattern lists. -/
def plainHeaders : List Path :=
  ["data_type.h".toList, "device.h".toList, "dispatcher.h".toList, "driver.h".toList,
    "hash.h".toList, "runtime.h".toList, "tensor_view.h".toList]

/-- The directories that the pattern lists. -/
def detailDirectories : List Path := ["common/".toList, "native/".toList]

/-- The group of `_DETAIL_INCLUDE_PATTERN`. -/
def isDetailName (name : Path) : Bool :=
  (detailDirectories.any fun directory =>
    directory.isPrefixOf name && decide (directory.length < name.length)) ||
  plainHeaders.contains name

/-- The group, if the pattern matches at the start of the text. -/
def matchDetailInclude (text : Text) : Option Path :=
  if opening.isPrefixOf text then
    let rest := text.drop opening.length
    let name := rest.takeWhile (· ≠ quote)
    -- the group is followed by a quote
    if name.length < rest.length && isDetailName name then some name else none
  else none

/-- A character that is copied, or an include that is rewritten. -/
inductive Piece
  | copied (c : Char)
  | rewritten (target : Path)
  deriving DecidableEq, Repr

/-- The matches of the pattern, from left to right, and what is between them; `skip` characters
belong to the last match. -/
def pieces : (skip : ℕ) → Text → List Piece
  | _, [] => []
  | skip + 1, _ :: text => pieces skip text
  | 0, c :: text =>
    match matchDetailInclude (c :: text) with
    | some target => .rewritten target :: pieces (opening.length + target.length) text
    | none => .copied c :: pieces 0 text

/-- The group of a match. -/
def Piece.target? : Piece → Option Path
  | .copied _ => none
  | .rewritten target => some target

/-- `_DETAIL_PREFIX`. -/
def detailPrefix : Text := "infini/rt/detail".toList

/-- `_detail_include`. -/
def detailInclude (path : Path) : Text := '<' :: (detailPrefix ++ '/' :: path ++ ['>'])

/-- `_rewrite_detail_include`. -/
def rewriteDetailInclude (target : Path) : Text := "#include ".toList ++ detailInclude target

/-- A piece in the output. -/
def Piece.output : Piece → Text
  | .copied c => [c]
  | .rewritten target => rewriteDetailInclude target

/-- `_DETAIL_INCLUDE_PATTERN.findall(text)`. -/
def findAll (text : Text) : List Path := (pieces 0 text).filterMap Piece.target?

/-- `_DETAIL_INCLUDE_PATTERN.sub(_rewrite_detail_include, text)`. -/
def substitute (text : Text) : Text := (pieces 0 text).flatMap Piece.output

/-! ### The generator -/

/-- The headers of a device: the device, the name of the wrapper, and the header it includes. -/
def backendHeaders (device directory : String) (names : List String) :
    List (String × String × String) :=
  names.map fun name => (device, name, directory ++ "/" ++ name)

/-- `_DEVICE_HEADERS`. -/
def deviceHeaders : DeviceType → List (String × String × String)
  | .cpu => backendHeaders "cpu" "native/cpu" ["data_type_.h", "device_.h", "runtime_.h"]
  | .nvidia => backendHeaders "nvidia" "native/cuda/nvidia"
      ["data_type_.h", "device_.h", "runtime_.h", "driver_.h"]
  | .iluvatar => backendHeaders "iluvatar" "native/cuda/iluvatar"
      ["data_type_.h", "device_.h", "runtime_.h"]
  | .hygon => backendHeaders "hygon" "native/cuda/hygon" ["data_type_.h", "device_.h", "runtime_.h"]
  | .thead => backendHeaders "thead" "native/cuda/thead" ["data_type_.h", "device_.h", "runtime_.h"]
  | .metax => backendHeaders "metax" "native/cuda/metax" ["data_type_.h", "device_.h", "runtime_.h"]
  | .mars => backendHeaders "mars" "native/cuda/mars" ["data_type_.h", "device_.h", "runtime_.h"]
  | .moore => backendHeaders "moore" "native/cuda/moore" ["data_type_.h", "device_.h", "runtime_.h"]
  | .cambricon => backendHeaders "cambricon" "native/cambricon"
      ["data_type_.h", "device_.h", "runtime_.h"]
  | .ascend => backendHeaders "ascend" "native/ascend" ["data_type_.h", "device_.h", "runtime_.h"]

/-- `_detail_header_dependencies`. -/
def detailHeaderDependencies (tree : SourceTree) (path : Path) : Option (Finset Path) := do
  let text ← tree.file path
  return ((findAll text).filter fun target => (tree.file target).isSome).toFinset

/-- Where a detail header goes. -/
def outputPath (path : Path) : Path := detailPrefix ++ '/' :: path

/-- `_write_detail_header`: where it writes, and what. -/
def writeDetailHeader (tree : SourceTree) (path : Path) : Option (Path × Text) := do
  let text ← tree.file path
  return (outputPath path, substitute text)

/-- The headers that are shipped for every device. -/
def commonHeaders : List Path :=
  ["common/constexpr_map.h".toList, "common/traits.h".toList, "data_type.h".toList,
    "device.h".toList, "dispatcher.h".toList, "driver.h".toList, "hash.h".toList,
    "runtime.h".toList, "tensor_view.h".toList]

/-- `detail_headers` before the loop. -/
def seedHeaders (devices : List DeviceType) : Finset Path :=
  (commonHeaders ++ devices.flatMap fun device =>
    (deviceHeaders device).map fun header => header.2.2.toList).toFinset

/-- `_write_detail_headers`, with a bound on the rounds of its loop: what is written, in order. -/
def writeDetailHeaders (order : SetOrder Path) (tree : SourceTree) (devices : List DeviceType)
    (fuel : ℕ) : Option (List (Path × Text)) := do
  let pendingHeaders := order.list 0 (seedHeaders devices)
  let detailHeaders ←
    Worklist.run (detailHeaderDependencies tree) order fuel 1 (seedHeaders devices) pendingHeaders
  (detailHeaders.sort (· ≤ ·)).mapM (writeDetailHeader tree)

/-! ### What is shipped -/

variable {tree : SourceTree} {devices : List DeviceType} {path target : Path} {text : Text}

/-- A set of headers with the seeds and with every existing header that one of them includes. -/
def IncludeClosed (tree : SourceTree) (devices : List DeviceType) (S : Set Path) : Prop :=
  ↑(seedHeaders devices) ⊆ S ∧ ∀ path ∈ S, ∀ text, tree.file path = some text →
    ∀ target, .rewritten target ∈ pieces 0 text → (tree.file target).isSome → target ∈ S

/-- A rewritten include names the place where its target goes. -/
theorem rewriteDetailInclude_eq (target : Path) :
    rewriteDetailInclude target = "#include ".toList ++ '<' :: (outputPath target ++ ['>']) := by
  unfold rewriteDetailInclude detailInclude outputPath
  rfl

theorem mem_findAll : target ∈ findAll text ↔ .rewritten target ∈ pieces 0 text := by
  rw [findAll, List.mem_filterMap]
  constructor
  · rintro ⟨piece, hmem, htarget⟩
    cases piece with
    | copied c => cases htarget
    | rewritten name =>
      obtain rfl := Option.some.inj htarget
      exact hmem
  · exact fun hmem => ⟨_, hmem, rfl⟩

/-- The dependencies of a header that exists. -/
theorem detailHeaderDependencies_eq_some {dependencies : Finset Path} :
    detailHeaderDependencies tree path = some dependencies ↔ ∃ text, tree.file path = some text ∧
      dependencies = ((findAll text).filter fun target => (tree.file target).isSome).toFinset := by
  rw [detailHeaderDependencies]
  constructor
  · intro h
    obtain ⟨text, htext, heq⟩ := Option.bind_eq_some_iff.mp h
    exact ⟨text, htext, (Option.some.inj heq).symm⟩
  · rintro ⟨text, htext, rfl⟩
    rw [htext]
    rfl

theorem mem_dependencies :
    target ∈ ((findAll text).filter fun target => (tree.file target).isSome).toFinset ↔
      .rewritten target ∈ pieces 0 text ∧ (tree.file target).isSome := by
  rw [List.mem_toFinset, List.mem_filter, mem_findAll]

/-- What the worklist closes under are the includes. -/
theorem closed_iff {S : Set Path} :
    Worklist.Closed (detailHeaderDependencies tree) (seedHeaders devices) S ↔
      IncludeClosed tree devices S := by
  refine and_congr_right fun _ => forall₂_congr fun path _ => ?_
  constructor
  · intro h text htext target hmem hexists
    exact h _ (detailHeaderDependencies_eq_some.mpr ⟨text, htext, rfl⟩)
      (Finset.mem_coe.mpr (mem_dependencies.mpr ⟨hmem, hexists⟩))
  · intro h dependencies hdependencies target hmem
    obtain ⟨text, htext, rfl⟩ := detailHeaderDependencies_eq_some.mp hdependencies
    obtain ⟨hrewritten, hexists⟩ := mem_dependencies.mp (Finset.mem_coe.mp hmem)
    exact h text htext target hrewritten hexists

/-- Every name that the loop can meet. -/
def nodes (tree : SourceTree) (devices : List DeviceType) : Finset Path :=
  seedHeaders devices ∪ (tree.texts.flatMap findAll).toFinset

theorem dependencies_subset_nodes {dependencies : Finset Path}
    (h : detailHeaderDependencies tree path = some dependencies) :
    dependencies ⊆ nodes tree devices := by
  obtain ⟨text, htext, rfl⟩ := detailHeaderDependencies_eq_some.mp h
  refine fun target hmem => Finset.mem_union_right _ (List.mem_toFinset.mpr ?_)
  exact List.mem_flatMap.mpr ⟨text, tree.file_mem path text htext,
    (List.mem_filter.mp (List.mem_toFinset.mp hmem)).1⟩

/-- With the seeds in the tree, the names that exist are closed. -/
theorem includeClosed_exists (hseeds : ∀ path ∈ seedHeaders devices, (tree.file path).isSome) :
    IncludeClosed tree devices {path | (tree.file path).isSome} :=
  ⟨fun path hpath => hseeds path (Finset.mem_coe.mp hpath), fun _ _ _ _ _ _ hexists => hexists⟩

/-- The loop, in any order. -/
theorem run_includeClosed (order : SetOrder Path) {fuel : ℕ}
    (hseeds : ∀ path ∈ seedHeaders devices, (tree.file path).isSome)
    (hfuel : (nodes tree devices).card < fuel) :
    ∃ detailHeaders : Finset Path, Worklist.run (detailHeaderDependencies tree) order fuel 1
        (seedHeaders devices) (order.list 0 (seedHeaders devices)) = some detailHeaders ∧
      IsLeast {S | IncludeClosed tree devices S} (↑detailHeaders : Set Path) := by
  have hread : ∀ path, (tree.file path).isSome → (detailHeaderDependencies tree path).isSome := by
    intro path hpath
    obtain ⟨text, htext⟩ := Option.isSome_iff_exists.mp hpath
    rw [detailHeaderDependencies_eq_some.mpr ⟨text, htext, rfl⟩]
    rfl
  obtain ⟨detailHeaders, hrun, hleast⟩ := Worklist.run_seeds_isLeast order 1 0
    (Finset.subset_union_left : seedHeaders devices ⊆ nodes tree devices)
    (fun _ _ h => dependencies_subset_nodes h) (fun path hpath => hread path (hseeds path hpath))
    (fun _ dependencies h target hmem => by
      obtain ⟨text, -, rfl⟩ := detailHeaderDependencies_eq_some.mp h
      exact hread target (mem_dependencies.mp hmem).2) hfuel
  simp only [closed_iff] at hleast
  exact ⟨detailHeaders, hrun, hleast⟩

/-- What is written for a header that exists. -/
theorem writeDetailHeader_eq (h : tree.file path = some text) :
    writeDetailHeader tree path = some (outputPath path, substitute text) := by
  rw [writeDetailHeader, h]
  rfl

theorem mapM_eq_some_map {f : Path → Option (Path × Text)} {g : Path → Path × Text} {l : List Path}
    (h : ∀ path ∈ l, f path = some (g path)) : l.mapM f = some (l.map g) := by
  induction l with
  | nil => rfl
  | cons path l ih =>
    rw [List.mapM_cons, h path List.mem_cons_self,
      ih fun path hpath => h path (List.mem_cons_of_mem _ hpath)]
    rfl

/-- The members of a set in increasing order. -/
def sortedOrder : SetOrder Path where
  list _ s := s.sort (· ≤ ·)
  nodup _ s := s.sort_nodup (· ≤ ·)
  toFinset _ s := s.sort_toFinset (· ≤ ·)

/-- What is written for a header. -/
def detailOutput (tree : SourceTree) (path : Path) : Path × Text :=
  (outputPath path, substitute ((tree.file path).getD []))

theorem detailOutput_eq (h : tree.file path = some text) :
    detailOutput tree path = (outputPath path, substitute text) := by
  rw [detailOutput, h]
  rfl

/-- **The shipped headers are closed.** If the seeds are in the tree, then in every order the loop
ends with the least set that is closed under existing includes; this set is written, in increasing
order, and every include that was rewritten and exists is written too. -/
theorem writeDetailHeaders_closed (tree : SourceTree) (devices : List DeviceType)
    (hseeds : ∀ path ∈ seedHeaders devices, (tree.file path).isSome) :
    ∃ detailHeaders : Finset Path, ∃ written : List (Path × Text),
      (∀ order fuel, (nodes tree devices).card < fuel →
        writeDetailHeaders order tree devices fuel = some written) ∧
      IsLeast {S | IncludeClosed tree devices S} (↑detailHeaders : Set Path) ∧
      written.map Prod.fst = (detailHeaders.sort (· ≤ ·)).map outputPath ∧
      ∀ path ∈ detailHeaders, ∃ text, tree.file path = some text ∧
        (outputPath path, substitute text) ∈ written ∧
        ∀ target, .rewritten target ∈ pieces 0 text → (tree.file target).isSome →
          (∃ output, (outputPath target, output) ∈ written) ∧
            rewriteDetailInclude target = "#include ".toList ++
              '<' :: (outputPath target ++ ['>']) := by
  obtain ⟨detailHeaders, -, hleast⟩ :=
    run_includeClosed sortedOrder hseeds (Nat.lt_succ_self (nodes tree devices).card)
  have hexists : ∀ path ∈ detailHeaders, ∃ text, tree.file path = some text := fun path hpath =>
    Option.isSome_iff_exists.mp
      (hleast.2 (includeClosed_exists hseeds) (Finset.mem_coe.mpr hpath))
  have hwrite : ∀ path ∈ detailHeaders.sort (· ≤ ·),
      writeDetailHeader tree path = some (detailOutput tree path) := by
    intro path hpath
    obtain ⟨text, htext⟩ := hexists path ((Finset.mem_sort _).mp hpath)
    rw [writeDetailHeader_eq htext, detailOutput_eq htext]
  have hwritten : ∀ path ∈ detailHeaders, ∀ text, tree.file path = some text →
      (outputPath path, substitute text) ∈
        (detailHeaders.sort (· ≤ ·)).map (detailOutput tree) := by
    intro path hpath text htext
    exact List.mem_map.mpr ⟨path, (Finset.mem_sort _).mpr hpath, detailOutput_eq htext⟩
  refine ⟨detailHeaders, (detailHeaders.sort (· ≤ ·)).map (detailOutput tree),
    fun order fuel hfuel => ?_, hleast, ?_, fun path hpath => ?_⟩
  · -- the least closed set does not depend on the order
    obtain ⟨found, hrun, hfound⟩ := run_includeClosed order hseeds hfuel
    obtain rfl := Finset.coe_injective (hfound.unique hleast)
    rw [writeDetailHeaders, hrun]
    exact mapM_eq_some_map hwrite
  · rw [List.map_map]
    rfl
  · obtain ⟨text, htext⟩ := hexists path hpath
    refine ⟨text, htext, hwritten path hpath text htext, fun target hrewritten hsome => ?_⟩
    obtain ⟨targetText, htargetText⟩ := Option.isSome_iff_exists.mp hsome
    have hmem := hleast.1.2 path (Finset.mem_coe.mpr hpath) text htext target hrewritten hsome
    exact ⟨⟨_, hwritten target (Finset.mem_coe.mp hmem) targetText htargetText⟩,
      rewriteDetailInclude_eq target⟩

/-- An include as the sources write it. -/
def includeLine (name : String) : Text := opening ++ name.toList ++ [quote]

/-- Three headers in a circle; the last one includes a header that is missing, too. -/
def circleFiles : List (Path × Text) :=
  [("native/first.h".toList, includeLine "native/second.h"),
    ("native/second.h".toList, includeLine "native/third.h"),
    ("native/third.h".toList,
      includeLine "native/first.h" ++ '\n' :: includeLine "native/missing.h")]

/-- A tree with a circle of headers that every seed leads to. -/
def circle : SourceTree where
  file path :=
    if path ∈ seedHeaders [.cpu, .nvidia] then some (includeLine "native/first.h")
    else (circleFiles.find? fun file => file.1 = path).map Prod.snd
  texts := includeLine "native/first.h" :: circleFiles.map Prod.snd
  file_mem path text h := by
    split_ifs at h
    · exact Option.some.inj h ▸ List.mem_cons_self
    · obtain ⟨file, hfind, rfl⟩ := Option.map_eq_some_iff.mp h
      exact List.mem_cons_of_mem _ (List.mem_map_of_mem (List.mem_of_find?_eq_some hfind))

/-- The whole circle is shipped, and the missing header is not. -/
theorem writeDetailHeaders_closed_circle :
    ∃ detailHeaders : Finset Path, ∃ written : List (Path × Text),
      (∀ order fuel, (nodes circle [.cpu, .nvidia]).card < fuel →
        writeDetailHeaders order circle [.cpu, .nvidia] fuel = some written) ∧
      written.map Prod.fst = (detailHeaders.sort (· ≤ ·)).map outputPath ∧
      (∀ file ∈ circleFiles, file.1 ∈ detailHeaders) ∧
      "native/missing.h".toList ∉ detailHeaders := by
  obtain ⟨detailHeaders, written, hwrite, hleast, hpaths, hfiles⟩ :=
    writeDetailHeaders_closed circle [.cpu, .nvidia] (by decide)
  have hnext : ∀ path text target, path ∈ detailHeaders → circle.file path = some text →
      .rewritten target ∈ pieces 0 text → (circle.file target).isSome → target ∈ detailHeaders :=
    fun path text target hpath htext hmem hsome => Finset.mem_coe.mp
      (hleast.1.2 path (Finset.mem_coe.mpr hpath) text htext target hmem hsome)
  have hseed : "device.h".toList ∈ detailHeaders :=
    Finset.coe_subset.mp hleast.1.1 (by decide)
  have hfirst : "native/first.h".toList ∈ detailHeaders :=
    hnext _ _ _ hseed rfl (by decide) (by decide)
  have hsecond : "native/second.h".toList ∈ detailHeaders :=
    hnext _ _ _ hfirst rfl (by decide) (by decide)
  have hthird : "native/third.h".toList ∈ detailHeaders :=
    hnext _ _ _ hsecond rfl (by decide) (by decide)
  refine ⟨detailHeaders, written, hwrite, hpaths, fun file hfile => ?_, fun hmissing => ?_⟩
  · simp only [circleFiles, List.mem_cons, List.not_mem_nil, or_false] at hfile
    rcases hfile with rfl | rfl | rfl
    · exact hfirst
    · exact hsecond
    · exact hthird
  · obtain ⟨text, htext, -⟩ := hfiles _ hmissing
    have hnone : circle.file "native/missing.h".toList = none := by decide
    rw [hnone] at htext
    cases htext

end InfiniRT.Headers
