import BufferSchema.Proofs.Command.Loading
import BufferSchema.Proofs.Files.Tree
import BufferSchema.Proofs.Header.Parts

/-!
# Writing headers

Every header is written to a path of its own in the output directory, whatever names other headers
have, so that a header is lost only to a later one of the same name. Step by step, a run that is not
stopped by the file system writes the pending schemas in their order; what it leaves behind is read
off by induction on the schemas, from the last one to the first.

Together with the laws of loading, this says what the command that writes headers does to a file
tree: nothing if some schema file does not load, and otherwise exactly what its schemas ask for.
-/

namespace BufferSchema

/-! ## Paths of headers -/

/-- The path of the header that belongs to a file name. -/
def headerPath (directory fileName : String) : String :=
  Path.join directory (headerName "" fileName)

section headerName

variable {n n' : String}

theorem toList_headerName : (headerName "" n).toList = n.toList ++ "_generated.h".toList := by
  rw [headerName, String.empty_append, String.toList_append]

theorem slash_notMem_headerName (h : '/' ∉ n.toList) : '/' ∉ (headerName "" n).toList := by
  rw [toList_headerName, List.mem_append, not_or]
  exact ⟨h, by decide⟩

theorem headerName_notMem : headerName "" n ∉ ["", ".", ".."] := by
  intro h
  have hlength : 12 ≤ (headerName "" n).toList.length := by
    rw [toList_headerName, List.length_append]
    exact Nat.le_add_left _ _
  simp only [List.mem_cons, List.not_mem_nil, or_false] at h
  rcases h with h | h | h <;> rw [h] at hlength <;> exact absurd hlength (by decide)

theorem headerName_injective (h : headerName "" n = headerName "" n') : n = n' := by
  have hlists : n.toList ++ "_generated.h".toList = n'.toList ++ "_generated.h".toList := by
    rw [← toList_headerName, ← toList_headerName, h]
  exact String.toList_injective (List.append_cancel_right hlists)

/-- Headers of different names are different files. -/
theorem eq_of_follow_headerPath {t : FileTree} {directory : String} {place : Place}
    (hslash : '/' ∉ n.toList) (hslash' : '/' ∉ n'.toList)
    (h : t.follow (headerPath directory n) = .ok place)
    (h' : t.follow (headerPath directory n') = .ok place) : n = n' := by
  obtain ⟨base, hbase, hplace⟩ :=
    FileTree.of_follow_join (slash_notMem_headerName hslash) headerName_notMem h
  obtain ⟨base', hbase', hplace'⟩ :=
    FileTree.of_follow_join (slash_notMem_headerName hslash') headerName_notMem h'
  obtain rfl : base = base' := Except.ok.inj (hbase.symm.trans hbase')
  rw [hplace] at hplace'
  exact headerName_injective (List.singleton_inj.mp (List.append_cancel_left hplace'))

end headerName

/-! ## The last schema of a name -/

namespace Schema

/-- The last one of some schemas that has a file name and something to emit. -/
def lastPending? (schemas : List Schema) (name : String) : Option Schema :=
  schemas.reverse.find? fun s ↦ !s.isEmpty && decide (s.fileName = name)

theorem lastPending?_cons (s : Schema) (schemas : List Schema) (name : String) :
    lastPending? (s :: schemas) name = (lastPending? schemas name).or
      (if s.isEmpty = false ∧ s.fileName = name then some s else none) := by
  rw [lastPending?, List.reverse_cons, List.find?_append, ← lastPending?, List.find?_singleton]
  simp only [Bool.and_eq_true, Bool.not_eq_true', decide_eq_true_eq]

theorem of_lastPending?_eq_none {schemas : List Schema} {name : String}
    (h : lastPending? schemas name = none) {s : Schema} (hs : s ∈ schemas)
    (hpending : s.isEmpty = false) : s.fileName ≠ name := by
  intro hname
  refine List.find?_eq_none.mp h s (List.mem_reverse.mpr hs) ?_
  rw [hpending, hname, decide_eq_true rfl]
  rfl

end Schema

/-! ## Endings -/

/-- Whether a command ended because a directory could not be created or a file not be written. -/
def Ending.IsFileFailure (ending : Ending) : Prop := ∃ path reason,
  ending = .failed (directoryFailure path reason) ∨ ending = .failed (writeFailure path reason)

/-- Whether a step ends a command. -/
def Step.ends : Step → Bool
  | .fail _ | .stop _ => true
  | .say _ | .createDirectories _ | .write _ _ => false

namespace FileTree

variable {t t' t'' : FileTree} {directory path text : String} {steps : List Step}

/-- Apart from steps that end a command, only the file system stops one. -/
theorem ending_run (hsteps : ∀ step ∈ steps, step.ends = false) :
    (t.run steps).ending = .done ∨ (t.run steps).ending.IsFileFailure := by
  induction steps generalizing t with
  | nil => exact .inl rfl
  | cons step steps ih =>
    obtain ⟨hstep, hrest⟩ := List.forall_mem_cons.mp hsteps
    cases step with
    | say line => exact ih hrest
    | createDirectories path =>
      rw [run]
      split
      · exact ih hrest
      · exact .inr ⟨path, _, .inl rfl⟩
    | write path text =>
      rw [run]
      split
      · exact ih hrest
      · exact .inr ⟨path, _, .inr rfl⟩
    | fail _ | stop _ => cases hstep

/-! ## Single headers -/

theorem of_run_createDirectories (h : (t.run (.createDirectories path :: steps)).ending = .done) :
    ∃ t', t.AddsDirectories t' ∧ t.run (.createDirectories path :: steps) = t'.run steps := by
  have hadds := addsDirectories_createDirectories (t := t) path
  rw [run] at h ⊢
  split at h
  · next t' hcreate =>
    rw [hcreate] at hadds
    exact ⟨t', hadds, rfl⟩
  · cases h

theorem of_run_write (h : (t.run (.write path text :: steps)).ending = .done) :
    ∃ t', t.write path text = .ok t' ∧ t.run (.write path text :: steps) = t'.run steps := by
  rw [run] at h ⊢
  split at h
  · next t' hwrite => exact ⟨t', hwrite, rfl⟩
  · cases h

/-- One file is written, and nothing else changes except that directories may come. -/
structure WritesAt (t t' : FileTree) (place : Place) (path text : String) : Prop where
  keeps : t.KeepsDirectories t'
  follow : t'.follow path = .ok place
  entry : t'.entry? place = some (.file (.text text))
  others : ∀ other, other ≠ place → t.LeavesAlone t' other

theorem of_run_header
    (h : (t.run (.createDirectories directory :: .write path text :: steps)).ending = .done) :
    ∃ t' place, t.WritesAt t' place path text ∧
      t.run (.createDirectories directory :: .write path text :: steps) = t'.run steps := by
  obtain ⟨t₁, hadds, hrun⟩ := of_run_createDirectories h
  rw [hrun] at h
  obtain ⟨t₂, hwrite, hrun'⟩ := of_run_write h
  obtain ⟨place, hfollow, hentry, rfl⟩ := of_write_eq_ok hwrite
  have hkeeps := keepsDirectories_set hentry (.text text)
  have hplace : place ≠ [] := ne_nil_of_entry?_ne hentry
  refine ⟨_, place, ⟨hadds.keepsDirectories.trans hkeeps, follow_of_keeps hkeeps hfollow, ?_, ?_⟩,
    hrun.trans hrun'⟩
  · rw [entry?_set hplace, if_pos rfl]
  · intro other hother
    exact (hadds.leavesAlone other).trans (leavesAlone_set hplace hother _)

/-! ## All headers -/

/-- The tree `t'` holds the headers of schemas in a directory and is `t` apart from them. Where
several schemas have one name, the header is that of the last one with something to emit. -/
structure HasHeaders (t t' : FileTree) (directory : String) (options : Options)
    (schemas : List Schema) : Prop where
  keeps : t.KeepsDirectories t'
  holds : ∀ name s, Schema.lastPending? schemas name = some s →
    ∃ text, s.generate options = .ok text ∧ t'.read (headerPath directory name) = .ok text
  others : ∀ place,
    (∀ s ∈ schemas, s.isEmpty = false → t'.follow (headerPath directory s.fileName) ≠ .ok place) →
    t.LeavesAlone t' place

variable {options : Options} {schemas : List Schema} {s : Schema}

theorem HasHeaders.refl (t : FileTree) (directory : String) (options : Options) :
    t.HasHeaders t directory options [] :=
  ⟨.refl t, fun _ _ h ↦ (nomatch h), fun place _ ↦ .refl t place⟩

theorem AddsDirectories.hasHeaders (h : t.AddsDirectories t')
    (h' : t'.HasHeaders t'' directory options schemas) :
    t.HasHeaders t'' directory options schemas :=
  ⟨h.keepsDirectories.trans h'.keeps, h'.holds,
    fun place hplace ↦ (h.leavesAlone place).trans (h'.others place hplace)⟩

theorem HasHeaders.cons_of_isEmpty (h : t.HasHeaders t' directory options schemas)
    (hempty : s.isEmpty = true) : t.HasHeaders t' directory options (s :: schemas) := by
  refine ⟨h.keeps, fun name last hlast ↦ ?_, fun place hplace ↦ ?_⟩
  · rw [Schema.lastPending?_cons, hempty, if_neg (fun hs ↦ nomatch hs.1), Option.or_none] at hlast
    exact h.holds name last hlast
  · exact h.others place fun s' hs' ↦ hplace s' (List.mem_cons_of_mem s hs')

/-- A header that was written stays until one of its name is written over it. -/
theorem WritesAt.hasHeaders_cons {place : Place}
    (hslash : ∀ s' ∈ s :: schemas, '/' ∉ s'.fileName.toList) (hpending : s.isEmpty = false)
    (hgenerate : s.generate options = .ok text)
    (hwrite : t.WritesAt t' place (headerPath directory s.fileName) text)
    (h : t'.HasHeaders t'' directory options schemas) :
    t.HasHeaders t'' directory options (s :: schemas) := by
  have hfollow : t''.follow (headerPath directory s.fileName) = .ok place :=
    follow_of_keeps h.keeps hwrite.follow
  refine ⟨hwrite.keeps.trans h.keeps, fun name last hlast ↦ ?_, fun other hother ↦ ?_⟩
  · rw [Schema.lastPending?_cons] at hlast
    cases hlater : Schema.lastPending? schemas name with
    | some later =>
      rw [hlater, Option.some_or] at hlast
      exact h.holds name last (hlater.trans hlast)
    | none =>
      rw [hlater, Option.none_or] at hlast
      obtain ⟨⟨-, rfl⟩, rfl⟩ := Option.ite_some_none_eq_some.mp hlast
      refine ⟨text, hgenerate, read_eq_ok_iff.mpr ⟨place, hfollow, ?_⟩⟩
      -- later headers have other names, so none of them is written to this place
      refine (h.others place fun s' hs' hpending' hfollow' ↦ ?_).entry?_eq hwrite.entry
      have hname : s.fileName = s'.fileName :=
        eq_of_follow_headerPath (hslash s List.mem_cons_self)
          (hslash s' (List.mem_cons_of_mem s hs')) hfollow hfollow'
      exact Schema.of_lastPending?_eq_none hlater hs' hpending' hname.symm
  · have hne : other ≠ place := by
      rintro rfl
      exact hother s List.mem_cons_self hpending hfollow
    refine (hwrite.others other hne).trans (h.others other fun s' hs' ↦ ?_)
    exact hother s' (List.mem_cons_of_mem s hs')

/-- The headers of schemas are written one by one. The induction leaves the tree open, as each
header is written into the tree that the ones before it left behind. -/
theorem hasHeaders_of_run (hslash : ∀ s ∈ schemas, '/' ∉ s.fileName.toList)
    (hgenerate : ∀ s ∈ schemas, Succeeds (s.generate options))
    (hdone : (t.run (Plan.headerChanges directory options schemas)).ending = .done) :
    t.HasHeaders (t.run (Plan.headerChanges directory options schemas)).tree directory options
      schemas := by
  induction schemas generalizing t with
  | nil => exact .refl t directory options
  | cons s schemas ih =>
    obtain ⟨⟨text, htext⟩, hgenerate'⟩ := List.forall_mem_cons.mp hgenerate
    have hslash' := (List.forall_mem_cons.mp hslash).2
    rw [Plan.headerChanges, List.flatMap_cons, Plan.changes_writeHeader, htext] at hdone ⊢
    dsimp only at hdone ⊢
    cases hempty : s.isEmpty with
    | true =>
      obtain rfl : text = "" :=
        Except.ok.inj (htext.symm.trans (Schema.generate_eq_empty_iff.mpr hempty))
      exact (ih hslash' hgenerate' hdone).cons_of_isEmpty hempty
    | false =>
      have hne : text ≠ "" := Schema.ne_empty_of_generate htext hempty
      rw [if_neg hne] at hdone ⊢
      obtain ⟨t', place, hwrite, hrun⟩ := of_run_header hdone
      change t.HasHeaders (t.run (.createDirectories directory :: .write _ text :: _)).tree _ _ _
      rw [hrun]
      exact hwrite.hasHeaders_cons hslash hempty htext (ih hslash' hgenerate' (hrun ▸ hdone))

theorem ends_changes_writeHeader (hgenerate : Succeeds (s.generate options)) :
    ∀ step ∈ Plan.changes (Plan.writeHeader directory options false s), step.ends = false := by
  obtain ⟨text, htext⟩ := hgenerate
  rw [Plan.changes_writeHeader, htext]
  dsimp only
  by_cases hempty : text = ""
  · rw [if_pos hempty]
    exact List.forall_mem_nil _
  · rw [if_neg hempty]
    simp only [List.forall_mem_cons]
    exact ⟨rfl, rfl, List.forall_mem_nil _⟩

/-- Once all files are loaded, only the file system keeps the headers from being written. -/
theorem hasHeaders_of_codegen {files : List String} {verbose : Bool}
    (hloads : List.Forall₂ (fun file s ↦ Plan.load t.read file = .ok s) files schemas)
    (hgenerate : ∀ s ∈ schemas, Succeeds (s.generate options))
    (hslash : ∀ s ∈ schemas, '/' ∉ s.fileName.toList)
    (hfile : ¬ (t.carryOut (.codegen files directory options verbose)).ending.IsFileFailure) :
    (t.carryOut (.codegen files directory options verbose)).ending = .done ∧
      t.HasHeaders (t.carryOut (.codegen files directory options verbose)).tree directory options
        schemas := by
  have heffect : (t.carryOut (.codegen files directory options verbose)).effect =
      (t.run (.createDirectories directory ::
        Plan.headerChanges directory options schemas)).effect := by
    rw [carryOut, Plan.ofCommand, ← effect_run_changes, Plan.changes_codegen_of_loads hloads]
  obtain ⟨hending, htree⟩ := Prod.ext_iff.mp heffect
  dsimp only [Outcome.effect] at hending htree
  rw [hending] at hfile
  rw [hending, htree]
  have hsteps : ∀ step ∈ Plan.headerChanges directory options schemas, step.ends = false := by
    intro step hstep
    obtain ⟨s, hs, hstep⟩ := List.mem_flatMap.mp hstep
    exact ends_changes_writeHeader (hgenerate s hs) step hstep
  have hdone : (t.run (.createDirectories directory ::
      Plan.headerChanges directory options schemas)).ending = .done :=
    (ending_run (List.forall_mem_cons.mpr ⟨rfl, hsteps⟩)).resolve_right hfile
  obtain ⟨t', hadds, hrun⟩ := of_run_createDirectories hdone
  rw [hrun] at hdone ⊢
  exact ⟨hdone, hadds.hasHeaders (hasHeaders_of_run hslash hgenerate hdone)⟩

end FileTree

/-! ## The command -/

theorem Plan.prints_writeHeader {s : Schema} (hempty : s.isEmpty = true) (directory : String)
    (options : Options) (verbose : Bool) :
    ∀ step ∈ writeHeader directory options verbose s, step.prints = true := by
  intro step hstep
  by_contra hprints
  have hmem : step ∈ changes (writeHeader directory options verbose s) := by
    rw [changes, List.mem_filter, Bool.not_eq_true']
    exact ⟨hstep, Bool.not_eq_true _ ▸ hprints⟩
  rw [changes_writeHeader, Schema.generate_eq_empty_iff.mpr hempty] at hmem
  exact List.not_mem_nil hmem

/-- Whether a path leads to a YAML text with a scalar that does not fit into its buffer. -/
def FileTree.HasOverfullScalar (t : FileTree) (path : String) : Prop := ∃ text,
  Format.ofPath path = .ok .yaml ∧ t.read path = .ok text ∧ Document.ofYaml text = .error .overfull

/-- The command that writes headers loads every schema file before it changes anything. The first
file that does not load ends it with the path of the file, unless it holds a scalar that does not
fit into its buffer: then the command ends at once and names no file. Either way the file tree stays
what it was, and the command that prints rules ends in the same way without a line.

If all files load, the tree holds the headers of the schemas afterwards and is the same apart from
them, unless the file system stops the command. A schema with nothing to emit changes nothing, and
neither do progress messages. -/
theorem codegen_loads_before_writing (t : FileTree) (files : List String) (directory : String)
    (options : Options) :
    (∀ before path after e, files = before ++ path :: after →
      (∀ file ∈ before, Succeeds (Plan.load t.read file)) → Plan.load t.read path = .error e →
      ∃ ending,
        (¬ t.HasOverfullScalar path →
          ending = .failed ⟨"failed to load schema model " ++ path, e.causes⟩) ∧
        (t.HasOverfullScalar path → ending = .stopped .overfullScalar) ∧
        (∀ verbose, (t.carryOut (.codegen files directory options verbose)).effect = (ending, t)) ∧
        t.carryOut (.depends files directory) = ⟨ending, [], t⟩) ∧
    (∀ schemas verbose, files.mapM (Plan.load t.read) = .ok schemas →
      (∀ s ∈ schemas, ∀ a ∈ s.pendingStructs, ∀ f ∈ a.fields, f.padding ≤ 15) →
      (∀ s ∈ schemas, '/' ∉ s.fileName.toList) →
      ¬ (t.carryOut (.codegen files directory options verbose)).ending.IsFileFailure →
      (t.carryOut (.codegen files directory options verbose)).ending = .done ∧
        t.HasHeaders (t.carryOut (.codegen files directory options verbose)).tree directory options
          schemas) ∧
    (∀ s verbose, s.isEmpty = true →
      ∀ step ∈ Plan.writeHeader directory options verbose s, step.prints = true) ∧
    ∀ verbose verbose', (t.carryOut (.codegen files directory options verbose)).effect =
      (t.carryOut (.codegen files directory options verbose')).effect := by
  refine ⟨?_, ?_, ?_, ?_⟩
  · rintro before path after e rfl hbefore hpath
    have heffect (verbose : Bool) :
        (t.carryOut (.codegen (before ++ path :: after) directory options verbose)).effect =
          (t.run [Plan.notLoaded path e]).effect :=
      FileTree.effect_eq_of_changes_eq
        (Plan.changes_codegen_of_error hbefore hpath directory options verbose)
    have hdepends : t.carryOut (.depends (before ++ path :: after) directory) =
        t.run [Plan.notLoaded path e] :=
      congrArg t.run (Plan.depends_of_error hbefore hpath directory)
    have hoverfull : t.HasOverfullScalar path ↔ e = .overfullScalar := by
      rw [FileTree.HasOverfullScalar, ← Plan.load_eq_overfullScalar_iff, hpath]
      exact ⟨Except.error.inj, congrArg _⟩
    simp only [hoverfull, heffect, hdepends]
    rcases t.run_notLoaded path e with ⟨he, hrun⟩ | ⟨he, hrun⟩
    · rw [hrun]
      exact ⟨_, fun hne ↦ absurd he hne, fun _ ↦ rfl, fun _ ↦ rfl, rfl⟩
    · rw [hrun]
      exact ⟨_, fun _ ↦ rfl, fun heq ↦ absurd heq he, fun _ ↦ rfl, rfl⟩
  · intro schemas verbose hload hpadding hslash hfile
    have hloads := Attempt.mapM_eq_ok.mp hload
    refine FileTree.hasHeaders_of_codegen hloads (fun s hs ↦ ?_) hslash hfile
    obtain ⟨file, -, hs'⟩ := Attempt.exists_mem_left_of_forall₂ hloads hs
    obtain ⟨d, hd⟩ := Plan.exists_document_of_load hs'
    exact (Schema.sound_of_ofDocument hd).succeeds_generate_iff.mpr (hpadding s hs)
  · intro s verbose hempty
    exact Plan.prints_writeHeader hempty directory options verbose
  · intro verbose verbose'
    exact FileTree.effect_eq_of_changes_eq
      (Plan.changes_codegen files directory options verbose verbose')

/-- A text with an enumeration. -/
def gameText (enum : String) : String :=
  "file-name: game\nenums:\n- name: " ++ enum ++
    "\n  namespace: 0\n  underlying: byte\n  values: []"

/-- Two schemas of one name, a schema with nothing to emit and a text with a scalar that is too
wide. -/
def draftTree : FileTree where
  entries :=
    [(["old.yml"], .file (.text (gameText "Old"))),
      (["empty.yml"], .file (.text "file-name: empty\n")),
      (["new.yml"], .file (.text (gameText "New"))),
      (["wide.yml"], .file (.text "root-type: a                b\n"))]
  working := []

theorem load_draftTree_wide : Plan.load draftTree.read "wide.yml" = .error .overfullScalar :=
  Plan.load_eq_overfullScalar_iff.mpr ⟨_, by decide +kernel, rfl, rfl⟩

theorem succeeds_load_draftTree_old :
    ∀ file ∈ ["old.yml"], Succeeds (Plan.load draftTree.read file) := by
  rw [List.forall_mem_singleton]
  obtain ⟨s, hs, -⟩ := Attempt.exists_eq_ok_of_any (x := Plan.load draftTree.read "old.yml")
    (p := fun _ ↦ true) (by decide +kernel)
  exact ⟨s, hs⟩

/-- A file that does not load can end the command without being named. -/
theorem codegen_stops_unnamed :
    (∃ e, Plan.load draftTree.read "wide.yml" = .error e) ∧
    ∀ causes, (draftTree.carryOut (.codegen ["wide.yml"] "out" {} false)).ending ≠
      .failed ⟨"failed to load schema model wide.yml", causes⟩ := by
  refine ⟨⟨_, load_draftTree_wide⟩, fun causes ↦ ?_⟩
  have hending : (draftTree.carryOut (.codegen ["wide.yml"] "out" {} false)).ending =
      .stopped .overfullScalar := by decide +kernel
  rw [hending]
  exact nofun

/-- The later one of two schemas of a name has the header. A missing file and one with a scalar that
is too wide leave the tree as it is. -/
theorem codegen_loads_before_writing_drafts : ∃ schemas last text,
    ["old.yml", "empty.yml", "new.yml"].mapM (Plan.load draftTree.read) = .ok schemas ∧
    Schema.lastPending? schemas "game" = some last ∧ last.enums.keys = ["New"] ∧
    last.generate {} = .ok text ∧
    (draftTree.carryOut (.codegen ["old.yml", "empty.yml", "new.yml"] "out" {} false)).ending =
      .done ∧
    (draftTree.carryOut (.codegen ["old.yml", "empty.yml", "new.yml"] "out" {} false)).tree.read
      (headerPath "out" "game") = .ok text ∧
    (draftTree.carryOut (.codegen ["old.yml", "gone.yml", "new.yml"] "out" {} true)).effect =
      (.failed ⟨"failed to load schema model gone.yml",
        (LoadError.unreadable "gone.yml" .notFound).causes⟩, draftTree) ∧
    (draftTree.carryOut (.codegen ["old.yml", "wide.yml", "gone.yml"] "out" {} true)).effect =
      (.stopped .overfullScalar, draftTree) := by
  obtain ⟨schemas, hload, hschemas⟩ : ∃ schemas,
      ["old.yml", "empty.yml", "new.yml"].mapM (Plan.load draftTree.read) = .ok schemas ∧
        decide ((∀ s ∈ schemas, ∀ a ∈ s.pendingStructs, ∀ f ∈ a.fields, f.padding ≤ 15) ∧
          (∀ s ∈ schemas, '/' ∉ s.fileName.toList) ∧
          (Schema.lastPending? schemas "game").map (·.enums.keys) = some ["New"]) = true :=
    Attempt.exists_eq_ok_of_any (by decide +kernel)
  obtain ⟨hpadding, hslash, hlast⟩ := of_decide_eq_true hschemas
  obtain ⟨last, hlast, hkeys⟩ := Option.map_eq_some_iff.mp hlast
  have hending : (draftTree.carryOut
      (.codegen ["old.yml", "empty.yml", "new.yml"] "out" {} false)).ending = .done := by
    decide +kernel
  have hfile : ¬ (draftTree.carryOut
      (.codegen ["old.yml", "empty.yml", "new.yml"] "out" {} false)).ending.IsFileFailure := by
    rw [hending]
    rintro ⟨_, _, h | h⟩ <;> exact nomatch h
  obtain ⟨-, hwrites, -, -⟩ :=
    codegen_loads_before_writing draftTree ["old.yml", "empty.yml", "new.yml"] "out" {}
  obtain ⟨-, hheaders⟩ := hwrites schemas false hload hpadding hslash hfile
  obtain ⟨text, htext, hread⟩ := hheaders.holds "game" last hlast
  refine ⟨schemas, last, text, hload, hlast, hkeys, htext, hending, hread, ?_, ?_⟩
  · have hmissing : draftTree.read "gone.yml" = .error .notFound := rfl
    have hgone : Plan.load draftTree.read "gone.yml" =
        .error (.unreadable "gone.yml" .notFound) :=
      Attempt.bind_eq_error.mpr (.inr ⟨.yaml, by decide +kernel, by rw [hmissing]; rfl⟩)
    obtain ⟨hfails, -⟩ :=
      codegen_loads_before_writing draftTree ["old.yml", "gone.yml", "new.yml"] "out" {}
    obtain ⟨ending, hnamed, -, heffect, -⟩ :=
      hfails ["old.yml"] "gone.yml" ["new.yml"] _ rfl succeeds_load_draftTree_old hgone
    have hnone : ¬ draftTree.HasOverfullScalar "gone.yml" := by
      rintro ⟨text, -, htext, -⟩
      rw [hmissing] at htext
      exact nomatch htext
    rw [heffect true, hnamed hnone]
    rfl
  · obtain ⟨hfails, -⟩ :=
      codegen_loads_before_writing draftTree ["old.yml", "wide.yml", "gone.yml"] "out" {}
    obtain ⟨ending, -, hunnamed, heffect, -⟩ :=
      hfails ["old.yml"] "wide.yml" ["gone.yml"] _ rfl succeeds_load_draftTree_old
        load_draftTree_wide
    rw [heffect true, hunnamed (Plan.load_eq_overfullScalar_iff.mp load_draftTree_wide)]

end BufferSchema
