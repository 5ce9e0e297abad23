import BufferSchema.Proofs.Command.Writing

/-!
# Targets of rules

The target of a rule is put together from a directory and a name as texts, the path of a header by
taking the name from the directory. However the directory is spelled, both come out as one text, so
that the rules name the files that are written.
-/

namespace BufferSchema

/-! ## Directories -/

namespace Path

variable {directory path : String}

/-- What a path becomes when it is taken from a directory: a slash comes between the two unless
there is one already or nothing in front of it. -/
inductive Joins (path : String) : String → String → Prop
  | empty : Joins path "" path
  | closed (directory : String) : Joins path (directory ++ "/") (directory ++ "/" ++ path)
  | bare {directory : String} (hne : directory ≠ "")
    (hopen : directory.toList.getLast? ≠ some '/') : Joins path directory (directory ++ "/" ++ path)

theorem endsWithSlash_iff : endsWithSlash directory = true ↔ ∃ front, directory = front ++ "/" := by
  rw [endsWithSlash, decide_eq_true_iff, List.getLast?_eq_some_iff]
  constructor
  · rintro ⟨front, hfront⟩
    refine ⟨String.ofList front, String.toList_injective ?_⟩
    rw [hfront, String.toList_append, String.toList_ofList]
    rfl
  · rintro ⟨front, rfl⟩
    exact ⟨front.toList, String.toList_append⟩

theorem joins_asDirectory (directory path : String) :
    Joins path directory (asDirectory directory ++ path) := by
  rw [asDirectory]
  by_cases hempty : directory = ""
  · rw [if_pos (.inl hempty), hempty, String.empty_append]
    exact .empty
  · by_cases hslash : endsWithSlash directory = true
    · rw [if_pos (.inr hslash)]
      obtain ⟨front, rfl⟩ := endsWithSlash_iff.mp hslash
      exact .closed front
    · rw [if_neg (not_or.mpr ⟨hempty, hslash⟩)]
      refine .bare hempty fun hlast ↦ hslash ?_
      rw [endsWithSlash, hlast]
      rfl

theorem asDirectory_asDirectory (directory : String) :
    asDirectory (asDirectory directory) = asDirectory directory := by
  by_cases hclosed : directory = "" ∨ endsWithSlash directory = true
  · have hself : asDirectory directory = directory := if_pos hclosed
    rw [hself, hself]
  · have hslash : asDirectory directory = directory ++ "/" := if_neg hclosed
    rw [hslash]
    exact if_pos (.inr (endsWithSlash_iff.mpr ⟨directory, rfl⟩))

end Path

/-! ## Paths of headers -/

theorem isAbsolute_headerName {fileName : String} (h : fileName.toList.head? ≠ some '/') :
    Path.isAbsolute (headerName "" fileName) = false := by
  rw [Path.isAbsolute, toList_headerName, decide_eq_false_iff_not]
  cases hname : fileName.toList with
  | nil => decide
  | cons c cs => rwa [hname] at h

theorem headerPath_eq {fileName : String} (h : fileName.toList.head? ≠ some '/')
    (directory : String) :
    headerPath directory fileName = Path.asDirectory directory ++ headerName "" fileName := by
  rw [headerPath, Path.join, isAbsolute_headerName h]
  rfl

namespace Schema

/-- The rule of a schema whose target is a path. -/
def ruleFor (s : Schema) (target : String) : String :=
  target ++ ":" ++ String.join (s.dependencies.map (" " ++ ·))

theorem makeRule_asDirectory {s : Schema} (h : s.fileName.toList.head? ≠ some '/')
    (directory : String) :
    s.makeRule (Path.asDirectory directory) = s.ruleFor (headerPath directory s.fileName) := by
  have hname : headerName (Path.asDirectory directory) s.fileName =
      Path.asDirectory directory ++ headerName "" s.fileName := by
    rw [headerName, headerName, String.empty_append, String.append_assoc]
  rw [makeRule, ruleFor, headerPath_eq h, hname]

end Schema

/-! ## Plans -/

namespace Plan

theorem writeHeader_of_generate {s : Schema} {options : Options} {text : String}
    (htext : s.generate options = .ok text) (hne : text ≠ "") (directory : String)
    (verbose : Bool) :
    writeHeader directory options verbose s =
      sayWhen verbose ["[~] Generating code for '" ++ s.fileName ++ "'"] ++
        [.createDirectories directory, .write (headerPath directory s.fileName) text] ++
        sayWhen verbose ["[✓] Generated " ++ headerPath directory s.fileName] := by
  rw [writeHeader, htext]
  dsimp only
  rw [if_neg hne, ← List.append_assoc]
  rfl

theorem write_mem_changes_writeHeader {s : Schema} {options : Options} {verbose : Bool}
    {directory path text : String} :
    .write path text ∈ changes (writeHeader directory options verbose s) ↔
      text ≠ "" ∧ path = headerPath directory s.fileName ∧ s.generate options = .ok text := by
  rw [changes_writeHeader]
  cases s.generate options with
  | error fault => simp
  | ok code =>
    dsimp only
    by_cases hempty : code = ""
    · rw [if_pos hempty]
      refine iff_of_false List.not_mem_nil ?_
      rintro ⟨hne, -, hcode⟩
      exact hne (Except.ok.inj hcode ▸ hempty)
    · rw [if_neg hempty, headerPath]
      simp only [List.mem_cons, reduceCtorEq, false_or, List.not_mem_nil, or_false,
        Step.write.injEq, Except.ok.injEq]
      constructor
      · rintro ⟨rfl, rfl⟩
        exact ⟨hempty, rfl, rfl⟩
      · rintro ⟨-, rfl, rfl⟩
        exact ⟨rfl, rfl⟩

variable {read : String → Except FileError String} {files : List String} {schemas : List Schema}

theorem depends_of_loads
    (h : List.Forall₂ (fun file s ↦ load read file = .ok s) files schemas) (directory : String) :
    depends read files directory =
      schemas.map fun s ↦ .say (s.makeRule (Path.asDirectory directory)) := by
  obtain ⟨lines, hlines⟩ := exists_loadAll_append read false h _ []
  rw [List.append_nil] at hlines
  rw [depends, announceAndLoad, hlines, loadAll, List.append_nil]
  rfl

/-- What is written once all files are loaded. -/
theorem write_mem_codegen_iff
    (h : List.Forall₂ (fun file s ↦ load read file = .ok s) files schemas) {directory : String}
    {options : Options} {verbose : Bool} {path text : String} :
    .write path text ∈ codegen read files directory options verbose ↔
      text ≠ "" ∧
        ∃ s ∈ schemas, path = headerPath directory s.fileName ∧ s.generate options = .ok text := by
  have hchanges : .write path text ∈ codegen read files directory options verbose ↔
      .write path text ∈ changes (codegen read files directory options verbose) := by
    rw [changes, List.mem_filter]
    exact (and_iff_left rfl).symm
  have hdirectory : Step.write path text ≠ .createDirectories directory := Step.noConfusion
  rw [hchanges, changes_codegen_of_loads h, List.mem_cons, or_iff_right hdirectory,
    headerChanges, List.mem_flatMap]
  simp only [write_mem_changes_writeHeader]
  constructor
  · rintro ⟨s, hs, hne, hpath, hcode⟩
    exact ⟨hne, s, hs, hpath, hcode⟩
  · rintro ⟨hne, s, hs, hpath, hcode⟩
    exact ⟨s, hs, hne, hpath, hcode⟩

end Plan

theorem FileTree.run_map_say (t : FileTree) (lines : List String) :
    t.run (lines.map .say) = ⟨.done, lines, t⟩ := by
  induction lines with
  | nil => rfl
  | cons line lines ih =>
    rw [List.map_cons, run, ih]
    rfl

/-- **Rules name the files that are written.** However a directory is spelled, the rule for it has
the path as its target that the header is written to and that is told of, as long as the file name
is relative. So the command that prints rules names the paths that the command that writes headers
writes to, in the order of the schemas. -/
theorem rules_name_headers (directory : String) (options : Options) :
    Path.asDirectory (Path.asDirectory directory) = Path.asDirectory directory ∧
    (∀ s : Schema, s.fileName.toList.head? ≠ some '/' →
      Path.Joins (headerName "" s.fileName) directory (headerPath directory s.fileName) ∧
      s.makeRule (Path.asDirectory directory) = s.ruleFor (headerPath directory s.fileName) ∧
      ∀ text verbose, s.generate options = .ok text → text ≠ "" →
        Plan.writeHeader directory options verbose s =
          Plan.sayWhen verbose ["[~] Generating code for '" ++ s.fileName ++ "'"] ++
            [.createDirectories directory, .write (headerPath directory s.fileName) text] ++
            Plan.sayWhen verbose ["[✓] Generated " ++ headerPath directory s.fileName]) ∧
    ∀ (t : FileTree) files schemas verbose, files.mapM (Plan.load t.read) = .ok schemas →
      (∀ s ∈ schemas, s.fileName.toList.head? ≠ some '/') →
      t.carryOut (.depends files directory) =
        ⟨.done, schemas.map fun s ↦ s.ruleFor (headerPath directory s.fileName), t⟩ ∧
      ∀ path text,
        .write path text ∈ Plan.ofCommand t.read (.codegen files directory options verbose) ↔
          text ≠ "" ∧ ∃ s ∈ schemas, path = headerPath directory s.fileName ∧
            s.generate options = .ok text := by
  refine ⟨Path.asDirectory_asDirectory directory, fun s hs ↦ ⟨?_, ?_, ?_⟩, ?_⟩
  · rw [headerPath_eq hs]
    exact Path.joins_asDirectory directory _
  · exact Schema.makeRule_asDirectory hs directory
  · exact fun text verbose htext hne ↦ Plan.writeHeader_of_generate htext hne directory verbose
  · intro t files schemas verbose hload hnames
    have hloads := Attempt.mapM_eq_ok.mp hload
    refine ⟨?_, fun path text ↦ Plan.write_mem_codegen_iff hloads⟩
    have hrules : (schemas.map fun s ↦ s.makeRule (Path.asDirectory directory)) =
        schemas.map fun s ↦ s.ruleFor (headerPath directory s.fileName) :=
      List.map_congr_left fun s hs ↦ Schema.makeRule_asDirectory (hnames s hs) directory
    rw [FileTree.carryOut, Plan.ofCommand, Plan.depends_of_loads hloads, ← hrules,
      ← FileTree.run_map_say, List.map_map]
    rfl

/-- The rule for a header that is written. -/
theorem rules_name_headers_game : ∃ s text, Plan.load draftTree.read "old.yml" = .ok s ∧
    s.generate {} = .ok text ∧
    draftTree.carryOut (.depends ["old.yml"] "out/") =
      ⟨.done, ["out/game_generated.h:"], draftTree⟩ ∧
    .write "out/game_generated.h" text ∈
      Plan.ofCommand draftTree.read (.codegen ["old.yml"] "out/" {} true) := by
  obtain ⟨s, hs, htest⟩ := Attempt.exists_eq_ok_of_any (x := Plan.load draftTree.read "old.yml")
    (p := fun s ↦ s.fileName = "game" ∧ s.dependencies = [] ∧ s.isEmpty = false ∧
      ∀ a ∈ s.pendingStructs, ∀ f ∈ a.fields, f.padding ≤ 15) (by decide +kernel)
  obtain ⟨hname, hfiles, hpending, hpadding⟩ := of_decide_eq_true htest
  obtain ⟨d, hd⟩ := Plan.exists_document_of_load hs
  obtain ⟨text, htext⟩ : Succeeds (s.generate {}) :=
    (Schema.sound_of_ofDocument hd).succeeds_generate_iff.mpr hpadding
  obtain ⟨-, -, hcommands⟩ := rules_name_headers "out/" {}
  obtain ⟨hrules, hwrites⟩ := hcommands draftTree ["old.yml"] [s] true
    (Attempt.mapM_eq_ok.mpr (.cons hs .nil)) (by simp [hname])
  have hpath : headerPath "out/" s.fileName = "out/game_generated.h" := by
    rw [hname]
    decide +kernel
  refine ⟨s, text, hs, htext, ?_, (hwrites _ _).mpr ⟨?_, s, List.mem_singleton_self s, ?_, htext⟩⟩
  · rw [hrules, List.map_singleton, hpath, Schema.ruleFor, hfiles]
    rfl
  · exact Schema.ne_empty_of_generate htext hpending
  · exact hpath.symm

end BufferSchema
