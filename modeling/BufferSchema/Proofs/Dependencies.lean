import BufferSchema.Proofs.Header.Additions
import BufferSchema.Proofs.Header.Congruence
import BufferSchema.Proofs.Text.Ascending

/-!
# Dependencies of a header as a set

What a schema includes is a set of files to all that is made from it: neither the rule for a build
nor the header can tell in which order the files are given and how often. Both list them in
ascending order, the rule by their paths, the header by the stems of those that are not its own.
-/

namespace BufferSchema

/-! ## Stems -/

namespace Path

variable {cs before behind : List Char}

/-- The stem of a path: its file name without the extension, or all of it where it has no file
name. -/
def stem (path : String) : String := (fileStem? path).getD path

theorem splitLastDot?_eq_none_iff : splitLastDot? cs = none ↔ '.' ∉ cs := by
  induction cs with
  | nil => simp [splitLastDot?]
  | cons c cs ih =>
    rw [splitLastDot?, List.mem_cons, not_or, ← ih]
    cases splitLastDot? cs with
    | some split => simp
    | none =>
      by_cases hc : c = '.'
      · simp [hc]
      · simp [hc, Ne.symm hc]

theorem of_splitLastDot?_eq_some (h : splitLastDot? cs = some (before, behind)) :
    cs = before ++ '.' :: behind ∧ '.' ∉ behind := by
  induction cs generalizing before with
  | nil => exact nomatch h
  | cons c cs ih =>
    rw [splitLastDot?] at h
    cases hcs : splitLastDot? cs with
    | some split =>
      obtain ⟨before', behind'⟩ := split
      rw [hcs] at h
      obtain ⟨rfl, rfl⟩ := Prod.mk.inj (Option.some.inj h)
      obtain ⟨rfl, hbehind⟩ := ih hcs
      exact ⟨rfl, hbehind⟩
    | none =>
      rw [hcs] at h
      obtain ⟨rfl, heq⟩ := Option.ite_some_none_eq_some.mp h
      obtain ⟨rfl, rfl⟩ := Prod.mk.inj heq
      exact ⟨rfl, splitLastDot?_eq_none_iff.mp hcs⟩

/-- What is left of a file name without its extension, which begins behind the last dot. A name with
no dot but one at its start has no extension. -/
inductive IsStem : String → String → Prop
  | bare {name : String} (hdots : '.' ∉ name.toList.tail) : IsStem name name
  | extended {stem extension : String} (hstem : stem ≠ "") (hdots : '.' ∉ extension.toList) :
    IsStem (stem ++ "." ++ extension) stem

theorem isStem_splitName (name : String) : IsStem name (splitName name).1 := by
  rw [splitName]
  split
  · next hnone =>
    exact .bare fun hmem ↦ splitLastDot?_eq_none_iff.mp hnone (List.mem_of_mem_tail hmem)
  · next extension hsome =>
    obtain ⟨hname, hdots⟩ := of_splitLastDot?_eq_some hsome
    refine .bare ?_
    rw [hname]
    exact hdots
  · next cs extension hne hsome =>
    obtain ⟨hname, hdots⟩ := of_splitLastDot?_eq_some hsome
    have hparts : name = String.ofList cs ++ "." ++ String.ofList extension := by
      apply String.toList_injective
      simpa using hname
    rw [hparts]
    refine .extended (fun hempty ↦ hne ?_) ?_
    · exact String.ofList_eq_empty_iff.mp hempty
    · rwa [String.toList_ofList]

theorem stem_of_fileName?_eq_none {path : String} (h : fileName? path = none) :
    stem path = path := by
  rw [stem, fileStem?, h]
  rfl

theorem isStem_stem {path name : String} (h : fileName? path = some name) :
    IsStem name (stem path) := by
  rw [stem, fileStem?, h]
  exact isStem_splitName name

end Path

/-! ## Listed files -/

/-- The lines that include the headers of files, and a blank one behind them. -/
def includeBlock : List String → List String
  | [] => []
  | files => files.map (fun file ↦ "#include \"" ++ Path.stem file ++ "_generated.h\"") ++ [""]

theorem includeBlock_eq_nil_iff {files : List String} : includeBlock files = [] ↔ files = [] := by
  cases files with
  | nil => exact Iff.rfl
  | cons file files => simp [includeBlock]

namespace Schema

variable {s : Schema} {files files' : List String}

/-- The files that the rule lists. -/
theorem listsAscending_dependencies (s : Schema) :
    ListsAscending (fun file ↦ file ∈ s.includedFiles ∨ s.sourceFile = some file)
      s.dependencies where
  ascending := (listsAscending_ascending _).ascending
  mem_iff file := by
    rw [dependencies, mem_ascending, List.mem_append, Option.mem_toList]

/-- The included files whose headers are not the schema's own. -/
def otherIncludes (s : Schema) : List String :=
  (ascending s.includedFiles).filter (Path.stem · ≠ s.fileName)

theorem listsAscending_otherIncludes (s : Schema) :
    ListsAscending (fun file ↦ file ∈ s.includedFiles ∧ Path.stem file ≠ s.fileName)
      s.otherIncludes :=
  (listsAscending_ascending s.includedFiles).filter

theorem includeLines_eq_includeBlock (s : Schema) :
    s.includeLines = includeBlock s.otherIncludes := by
  have hstems : s.includedStems = s.otherIncludes.map Path.stem := by
    rw [includedStems, otherIncludes, List.filter_map]
    rfl
  rw [includeLines, hstems]
  cases s.otherIncludes with
  | nil => rfl
  | cons file files =>
    simp only [includeBlock, List.map_map, List.map_cons, Function.comp_def, includeLine_eq]

theorem includeLines_eq_nil_iff :
    s.includeLines = [] ↔ ∀ file ∈ s.includedFiles, Path.stem file = s.fileName := by
  rw [includeLines_eq_includeBlock, includeBlock_eq_nil_iff, List.eq_nil_iff_forall_not_mem]
  refine forall_congr' fun file ↦ ?_
  rw [s.listsAscending_otherIncludes.mem_iff, not_and, not_ne_iff]

/-! ## Headers and rules -/

/-- The schema with other files included. -/
def including (s : Schema) (files : List String) : Schema := { s with includedFiles := files }

theorem makeRule_congr (h : ∀ file, file ∈ files ↔ file ∈ files') (directory : String) :
    (s.including files).makeRule directory = (s.including files').makeRule directory := by
  have hdependencies : (s.including files).dependencies = (s.including files').dependencies := by
    refine ascending_congr fun file ↦ ?_
    rw [List.mem_append, List.mem_append]
    exact or_congr_left (h file)
  rw [makeRule, makeRule, hdependencies]
  rfl

theorem generate_congr (h : ∀ file, file ∈ files ↔ file ∈ files') (options : Options) :
    (s.including files).generate options = (s.including files').generate options := by
  have halike : (s.including files).SpellsAlike (s.including files') :=
    ⟨rfl, fun _ ↦ rfl, fun _ ↦ rfl⟩
  have hfiles : ascending (s.including files).includedFiles =
      ascending (s.including files').includedFiles := ascending_congr h
  have hincludes : (s.including files).includeLines = (s.including files').includeLines := by
    rw [includeLines, includeLines, includedStems, includedStems, hfiles]
    rfl
  rw [generate, generate, header?, header?, halike.enum_eq, halike.struct_eq, halike.table_eq,
    hincludes]
  rfl

end Schema

/-- **Includes are a set.** Neither the rule for a build nor the header can tell lists of included
files with the same members. The rule lists the included files and the source file in ascending
order, each of them once. So does the block of includes, which stands behind that of the runtime,
with the files whose stem is not the name of the schema; it is missing, with its blank line, if
there are none. -/
theorem includes_are_set (s : Schema) (options : Options) (directory : String) :
    (∀ files files', (∀ file, file ∈ files ↔ file ∈ files') →
      (s.including files).makeRule directory =
        (s.including files').makeRule directory ∧
      (s.including files).generate options =
        (s.including files').generate options) ∧
    (∃ files,
      ListsAscending (fun file ↦ file ∈ s.includedFiles ∨ s.sourceFile = some file) files ∧
      s.makeRule directory = headerName directory s.fileName ++ ":" ++
        String.join (files.map (" " ++ ·))) ∧
    (∃ files,
      ListsAscending (fun file ↦ file ∈ s.includedFiles ∧ Path.stem file ≠ s.fileName) files ∧
      (includeBlock files = [] ↔ ∀ file ∈ s.includedFiles, Path.stem file = s.fileName) ∧
      (Succeeds (s.generate options) → s.isEmpty = false → ∃ rest,
        s.generate { options with includeDependenceHeaders := false } =
          .ok (unlines (s.openingLines ++ rest)) ∧
        s.generate { options with includeDependenceHeaders := true } =
          .ok (unlines (s.openingLines ++ includeBlock files ++ rest)))) ∧
    ∀ path, (Path.fileName? path = none → Path.stem path = path) ∧
      ∀ name, Path.fileName? path = some name → Path.IsStem name (Path.stem path) := by
  refine ⟨fun files files' h ↦ ⟨?_, ?_⟩, ?_, ?_, fun path ↦ ⟨?_, fun name ↦ ?_⟩⟩
  · exact Schema.makeRule_congr h directory
  · exact Schema.generate_congr h options
  · exact ⟨s.dependencies, s.listsAscending_dependencies, rfl⟩
  · refine ⟨s.otherIncludes, s.listsAscending_otherIncludes, ?_, fun hok hpending ↦ ?_⟩
    · rw [← s.includeLines_eq_includeBlock]
      exact Schema.includeLines_eq_nil_iff
    · rw [← s.includeLines_eq_includeBlock]
      exact Schema.exists_lines_around_includes hok hpending
  · exact Path.stem_of_fileName?_eq_none
  · exact Path.isStem_stem

/-- A scene that includes a file twice and one of its own name. -/
def assembledDocument : Document :=
  { sceneDocument with
    includedFiles := ["parts/wheel.fbs", "axle", "old/mutual.fbs", "parts/wheel.fbs"] }

/-- The file is listed once, and the header of the scene itself is not included. -/
theorem includes_are_set_assembled : ∃ s rest, Schema.ofDocument assembledDocument = .ok s ∧
    s.makeRule "out/" =
      (s.including ["old/mutual.fbs", "axle", "parts/wheel.fbs"]).makeRule "out/" ∧
    (s.including ["old/mutual.fbs", "axle", "parts/wheel.fbs"]).generate
        { includeDependenceHeaders := true } =
      .ok (unlines (s.openingLines ++
        ["#include \"axle_generated.h\"", "#include \"wheel_generated.h\"", ""] ++ rest)) := by
  obtain ⟨s, hs, hpadding, hpending, hmembers, hblock⟩ :
      ∃ s, Schema.ofDocument assembledDocument = .ok s ∧
        (∀ a ∈ s.pendingStructs, ∀ f ∈ a.fields, f.padding ≤ 15) ∧ s.isEmpty = false ∧
        s.includedFiles = ["parts/wheel.fbs", "axle", "old/mutual.fbs", "parts/wheel.fbs"] ∧
        includeBlock s.otherIncludes =
          ["#include \"axle_generated.h\"", "#include \"wheel_generated.h\"", ""] :=
    ⟨_, rfl, by decide, rfl, rfl, by decide +kernel⟩
  have hok : Succeeds (s.generate { includeDependenceHeaders := true }) :=
    (Schema.sound_of_ofDocument hs).succeeds_generate_iff.mpr hpadding
  obtain ⟨hset, -, ⟨files, hfiles, -, hplace⟩, -⟩ :=
    includes_are_set s { includeDependenceHeaders := true } "out/"
  obtain ⟨hrule, hheader⟩ := hset s.includedFiles ["old/mutual.fbs", "axle", "parts/wheel.fbs"]
    fun file ↦ by rw [hmembers]; simp; tauto
  obtain ⟨rest, -, hon⟩ := hplace hok hpending
  obtain rfl : files = s.otherIncludes :=
    hfiles.unique s.listsAscending_otherIncludes fun _ ↦ Iff.rfl
  rw [hblock] at hon
  exact ⟨s, rest, hs, hrule, hheader.symm.trans hon⟩

end BufferSchema
