import BufferSchema.Command.Run
import BufferSchema.Proofs.Attempt

/-!
# Loading comes first

A plan reads schema files up to the first one that does not load. What is planned behind the files
that load is known then: going on with their schemas, or the one step that ends the command. Lines
that are printed change nothing, so the *changes* of a plan, its other steps, tell how it ends and
what it leaves behind.

A schema file does not load for a reason that the command gives together with its path, with one
exception: a scalar that does not fit into its buffer ends the command at once.
-/

namespace BufferSchema

variable {read : String → Except FileError String} {path : String}

namespace Plan

/-! ## Single files -/

theorem exists_document_of_load {s : Schema} (h : load read path = .ok s) :
    ∃ d, Schema.ofDocument d = .ok s := by
  rw [load] at h
  obtain ⟨format, -, h⟩ := Attempt.bind_eq_ok.mp h
  obtain ⟨text, -, h⟩ := Attempt.bind_eq_ok.mp h
  obtain ⟨d, -, h⟩ := Attempt.bind_eq_ok.mp h
  exact ⟨d, Attempt.mapError_eq_ok.mp h⟩

/-- Only a YAML text has a scalar that cannot be kept. -/
theorem load_eq_overfullScalar_iff : load read path = .error .overfullScalar ↔
    ∃ text, Format.ofPath path = .ok .yaml ∧ read path = .ok text ∧
      Document.ofYaml text = .error .overfull := by
  constructor
  · intro h
    rw [load] at h
    -- the format, the text, the document and the schema can fail, each in a way of its own
    rcases Attempt.bind_eq_error.mp h with h | ⟨format, hformat, h⟩
    · rw [Format.ofPath] at h
      split at h <;> exact nomatch h
    rcases Attempt.bind_eq_error.mp h with h | ⟨text, htext, h⟩
    · obtain ⟨_, -, h⟩ := Attempt.mapError_eq_error.mp h
      exact nomatch h
    rcases Attempt.bind_eq_error.mp h with h | ⟨d, -, h⟩
    · cases format with
      | json =>
        obtain ⟨_, -, h⟩ := Attempt.mapError_eq_error.mp h
        exact nomatch h
      | yaml =>
        obtain ⟨defect, hdefect, h⟩ := Attempt.mapError_eq_error.mp h
        cases defect with
        | malformed => exact nomatch h
        | overfull => exact ⟨text, hformat, Attempt.mapError_eq_ok.mp htext, hdefect⟩
    · obtain ⟨_, -, h⟩ := Attempt.mapError_eq_error.mp h
      exact nomatch h
  · rintro ⟨text, hformat, htext, hdefect⟩
    have hparse : Document.parse .yaml text = .error .overfullScalar :=
      Attempt.mapError_eq_error.mpr ⟨.overfull, hdefect, rfl⟩
    refine Attempt.bind_eq_error.mpr (.inr ⟨.yaml, hformat, ?_⟩)
    refine Attempt.bind_eq_error.mpr (.inr ⟨text, Attempt.mapError_eq_ok.mpr htext, ?_⟩)
    exact Attempt.bind_eq_error.mpr (.inl hparse)

/-! ## Files in their order -/

/-- Files that load are gone through, and what comes behind them goes on with their schemas. -/
theorem exists_loadAll_append (read : String → Except FileError String) (verbose : Bool)
    {files : List String} {schemas : List Schema}
    (h : List.Forall₂ (fun file s ↦ load read file = .ok s) files schemas)
    (next : List Schema → List Step) (rest : List String) :
    ∃ lines, loadAll read verbose next (files ++ rest) =
      sayWhen verbose lines ++ loadAll read verbose (fun more ↦ next (schemas ++ more)) rest := by
  induction h generalizing next with
  | nil =>
    refine ⟨[], ?_⟩
    cases verbose <;> rfl
  | @cons file s files schemas hload _ ih =>
    obtain ⟨lines, hlines⟩ := ih fun more ↦ next (s :: more)
    refine ⟨loadedLine file s :: lines, ?_⟩
    rw [List.cons_append, loadAll, hload]
    dsimp only
    rw [hlines]
    cases verbose <;> rfl

theorem exists_loadAll_of_error (read : String → Except FileError String) (verbose : Bool)
    {before after : List String} {e : LoadError}
    (hbefore : ∀ file ∈ before, Succeeds (load read file)) (hpath : load read path = .error e)
    (next : List Schema → List Step) :
    ∃ lines, loadAll read verbose next (before ++ path :: after) =
      sayWhen verbose lines ++ [notLoaded path e] := by
  obtain ⟨schemas, hschemas⟩ := Attempt.succeeds_mapM.mpr hbefore
  obtain ⟨lines, hlines⟩ :=
    exists_loadAll_append read verbose (Attempt.mapM_eq_ok.mp hschemas) next (path :: after)
  refine ⟨lines, ?_⟩
  rw [hlines, loadAll, hpath]

end Plan

/-! ## Changes -/

/-- Whether a step prints a line and does nothing else. -/
def Step.prints : Step → Bool
  | .say _ => true
  | .createDirectories _ | .write _ _ | .fail _ | .stop _ => false

namespace Plan

/-- The steps of a plan that do not only print a line. -/
def changes (steps : List Step) : List Step := steps.filter fun step ↦ !step.prints

@[simp] theorem changes_append (steps steps' : List Step) :
    changes (steps ++ steps') = changes steps ++ changes steps' := List.filter_append ..

@[simp] theorem changes_map_say (lines : List String) : changes (lines.map .say) = [] := by
  rw [changes, List.filter_eq_nil_iff]
  intro step hstep
  obtain ⟨line, -, rfl⟩ := List.mem_map.mp hstep
  exact Bool.false_ne_true

@[simp] theorem changes_sayWhen (wanted : Bool) (lines : List String) :
    changes (sayWhen wanted lines) = [] := by
  rw [sayWhen]
  cases wanted with
  | false => rfl
  | true => exact changes_map_say lines

theorem changes_loadAll_congr (verbose verbose' : Bool) {next next' : List Schema → List Step}
    (h : ∀ schemas, changes (next schemas) = changes (next' schemas)) (files : List String) :
    changes (loadAll read verbose next files) = changes (loadAll read verbose' next' files) := by
  induction files generalizing next next' with
  | nil => exact h []
  | cons file files ih =>
    rw [loadAll, loadAll]
    cases load read file with
    | error e => rfl
    | ok s =>
      dsimp only
      rw [changes_append, changes_append, changes_sayWhen, changes_sayWhen,
        ih fun schemas ↦ h (s :: schemas)]

theorem changes_announceAndLoad (verbose : Bool) (next : List Schema → List Step)
    (files : List String) :
    changes (announceAndLoad read verbose files next) =
      changes (loadAll read verbose next files) := by
  rw [announceAndLoad, changes_append, changes_sayWhen, List.nil_append]

theorem changes_writeHeader (directory : String) (options : Options) (verbose : Bool) (s : Schema) :
    changes (writeHeader directory options verbose s) =
      match s.generate options with
      | .error fault => [.stop (.emission fault)]
      | .ok code =>
        if code = "" then []
        else [.createDirectories directory,
          .write (Path.join directory (headerName "" s.fileName)) code] := by
  rw [writeHeader, changes_append, changes_sayWhen, List.nil_append]
  cases s.generate options with
  | error fault => rfl
  | ok code =>
    dsimp only
    by_cases hcode : code = ""
    · rw [if_pos hcode, if_pos hcode, changes_sayWhen]
    · rw [if_neg hcode, if_neg hcode, changes_append, changes_sayWhen]
      rfl

/-- What the headers of schemas change, one after another. -/
def headerChanges (directory : String) (options : Options) (schemas : List Schema) : List Step :=
  schemas.flatMap fun s ↦ changes (writeHeader directory options false s)

theorem changes_writeHeaders (directory : String) (options : Options) (verbose : Bool)
    (schemas : List Schema) (line : String) :
    changes (.createDirectories directory ::
        schemas.flatMap (writeHeader directory options verbose) ++ [.say line]) =
      .createDirectories directory :: headerChanges directory options schemas := by
  rw [headerChanges, List.cons_append, changes, List.filter_cons_of_pos rfl, List.filter_append,
    List.filter_flatMap]
  refine congrArg _ ((List.append_nil _).trans ?_)
  refine congrArg (schemas.flatMap ·) (funext fun s ↦ ?_)
  exact (changes_writeHeader directory options verbose s).trans
    (changes_writeHeader directory options false s).symm

/-- Progress messages change nothing. -/
theorem changes_codegen (files : List String) (directory : String) (options : Options)
    (verbose verbose' : Bool) :
    changes (codegen read files directory options verbose) =
      changes (codegen read files directory options verbose') := by
  simp only [codegen, changes_append, changes_sayWhen, List.nil_append, changes_announceAndLoad]
  refine changes_loadAll_congr verbose verbose' (fun schemas ↦ ?_) files
  rw [changes_writeHeaders, changes_writeHeaders]

theorem changes_codegen_of_loads {files : List String} {schemas : List Schema}
    (h : List.Forall₂ (fun file s ↦ load read file = .ok s) files schemas) (directory : String)
    (options : Options) (verbose : Bool) :
    changes (codegen read files directory options verbose) =
      .createDirectories directory :: headerChanges directory options schemas := by
  obtain ⟨lines, hlines⟩ := exists_loadAll_append read verbose h _ []
  rw [List.append_nil] at hlines
  rw [codegen, changes_append, changes_sayWhen, List.nil_append, changes_announceAndLoad, hlines,
    changes_append, changes_sayWhen, List.nil_append, loadAll, List.append_nil]
  exact changes_writeHeaders directory options verbose schemas _

theorem changes_codegen_of_error {before after : List String} {e : LoadError}
    (hbefore : ∀ file ∈ before, Succeeds (load read file)) (hpath : load read path = .error e)
    (directory : String) (options : Options) (verbose : Bool) :
    changes (codegen read (before ++ path :: after) directory options verbose) =
      changes [notLoaded path e] := by
  obtain ⟨lines, hlines⟩ := exists_loadAll_of_error read verbose hbefore hpath _
  rw [codegen, changes_append, changes_sayWhen, List.nil_append, changes_announceAndLoad, hlines,
    changes_append, changes_sayWhen, List.nil_append]

theorem depends_of_error {before after : List String} {e : LoadError}
    (hbefore : ∀ file ∈ before, Succeeds (load read file)) (hpath : load read path = .error e)
    (directory : String) :
    depends read (before ++ path :: after) directory = [notLoaded path e] := by
  obtain ⟨lines, hlines⟩ := exists_loadAll_of_error read false hbefore hpath _
  rw [depends, announceAndLoad, hlines]
  rfl

end Plan

/-! ## Runs -/

/-- How a command ended and what it left behind. -/
def Outcome.effect (outcome : Outcome) : Ending × FileTree := (outcome.ending, outcome.tree)

namespace FileTree

theorem effect_run_changes (t : FileTree) (steps : List Step) :
    (t.run (Plan.changes steps)).effect = (t.run steps).effect := by
  induction steps generalizing t with
  | nil => rfl
  | cons step steps ih =>
    cases step with
    | say line => exact ih t
    | createDirectories path =>
      change (t.run (.createDirectories path :: Plan.changes steps)).effect = _
      rw [run, run]
      split
      · exact ih _
      · rfl
    | write path text =>
      change (t.run (.write path text :: Plan.changes steps)).effect = _
      rw [run, run]
      split
      · exact ih _
      · rfl
    | fail failure => rfl
    | stop halt => rfl

theorem effect_eq_of_changes_eq {t : FileTree} {steps steps' : List Step}
    (h : Plan.changes steps = Plan.changes steps') :
    (t.run steps).effect = (t.run steps').effect := by
  rw [← effect_run_changes t steps, h, effect_run_changes]

/-- A file that does not load ends a command with its path, unless it has a scalar that cannot be
kept. -/
theorem run_notLoaded (t : FileTree) (path : String) (e : LoadError) :
    (e = .overfullScalar ∧ t.run [Plan.notLoaded path e] = ⟨.stopped .overfullScalar, [], t⟩) ∨
    (e ≠ .overfullScalar ∧ t.run [Plan.notLoaded path e] =
      ⟨.failed ⟨"failed to load schema model " ++ path, e.causes⟩, [], t⟩) := by
  cases e with
  | overfullScalar => exact .inl ⟨rfl, rfl⟩
  | unsupportedFormat _ | unreadable _ _ | yaml | json _ | unresolved _ =>
    exact .inr ⟨nofun, rfl⟩

end FileTree

end BufferSchema
