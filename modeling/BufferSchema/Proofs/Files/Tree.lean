import BufferSchema.Files.Tree
import BufferSchema.Proofs.Attempt

/-!
# Laws of file trees

What the operations on a file tree leave alone. Creating directories adds entries and changes none,
and writing a file changes the entry at one place; neither turns a directory into anything else. As
following a path looks at directories only, a path that leads to a place goes on leading there.

Files that are written side by side have places of their own: their paths differ in the last name,
and that name is the last one of the place.
-/

namespace BufferSchema

/-! ## Segments of paths -/

namespace Path

theorem segments_ne_nil (path : List Char) : segments path ≠ [] := by
  cases path with
  | nil => exact List.cons_ne_nil _ _
  | cons c path =>
    rw [segments]
    split
    · exact List.cons_ne_nil _ _
    · split <;> exact List.cons_ne_nil _ _

theorem segments_append_slash (before behind : List Char) :
    segments (before ++ '/' :: behind) = segments before ++ segments behind := by
  induction before with
  | nil => rfl
  | cons c before ih =>
    rw [List.cons_append, segments, segments, ih]
    by_cases h : c = '/'
    · rw [if_pos h, if_pos h, List.cons_append]
    · obtain ⟨segment, rest, hsegments⟩ := List.exists_cons_of_ne_nil (segments_ne_nil before)
      rw [if_neg h, if_neg h, hsegments]
      rfl

theorem segments_of_notMem {name : List Char} (h : '/' ∉ name) : segments name = [name] := by
  induction name with
  | nil => rfl
  | cons c name ih =>
    obtain ⟨hc, hname⟩ := not_or.mp (List.mem_cons.not.mp h)
    rw [segments, if_neg (Ne.symm hc), ih hname]

/-- A directory is closed by a slash, so that its segments stay whole in front of a name. -/
theorem segments_asDirectory_append (directory : String) {name : List Char} (h : '/' ∉ name) :
    segments ((asDirectory directory).toList ++ name) =
      (segments (asDirectory directory).toList).dropLast ++ [name] := by
  have hclosed : (asDirectory directory).toList = [] ∨
      ∃ front, (asDirectory directory).toList = front ++ ['/'] := by
    rw [asDirectory]
    by_cases hopen : directory = "" ∨ endsWithSlash directory = true
    · rw [if_pos hopen]
      rcases hopen with rfl | hslash
      · exact .inl rfl
      · rw [endsWithSlash, decide_eq_true_eq] at hslash
        exact .inr ⟨_, (List.dropLast_append_getLast? _ hslash).symm⟩
    · rw [if_neg hopen, String.toList_append]
      exact .inr ⟨_, rfl⟩
  rcases hclosed with hnil | ⟨front, hfront⟩
  · rw [hnil, List.nil_append, segments_of_notMem h]
    rfl
  · rw [hfront, List.append_assoc, List.singleton_append, segments_append_slash,
      segments_append_slash, segments_of_notMem h]
    rw [segments, List.dropLast_concat]

theorem isAbsolute_append {name : String} (h : '/' ∉ name.toList) (directory : String) :
    isAbsolute (directory ++ name) = isAbsolute directory := by
  rw [isAbsolute, isAbsolute, String.toList_append]
  cases hdirectory : directory.toList with
  | cons c rest => rfl
  | nil =>
    cases hname : name.toList with
    | nil => rfl
    | cons c rest =>
      have hc : c ≠ '/' := by
        rintro rfl
        exact h (hname ▸ List.mem_cons_self)
      simp [hc]

end Path

namespace FileTree

variable {t t' t'' : FileTree} {place other : Place} {path text : String}

/-! ## Entries -/

theorem lookup_filter_ne {entries : List (Place × FileEntry)} (h : other ≠ place) :
    (entries.filter fun e ↦ !decide (e.1 = place)).lookup other = entries.lookup other := by
  induction entries with
  | nil => rfl
  | cons e entries ih =>
    obtain ⟨key, entry⟩ := e
    by_cases hkey : key = place
    · have hne : (other == key) = false := beq_eq_false_iff_ne.mpr (hkey ▸ h)
      rw [List.filter_cons_of_neg (by simp [hkey]), ih, List.lookup_cons, hne]
    · rw [List.filter_cons_of_pos (by simp [hkey]), List.lookup_cons, List.lookup_cons, ih]

theorem entry?_set (hplace : place ≠ []) (entry : FileEntry) (other : Place) :
    entry? (t.set place entry) other = if other = place then some entry else t.entry? other := by
  unfold entry? set
  by_cases h : other = place
  · rw [if_pos h, h, if_neg hplace, List.lookup_cons_self]
  · have hne : (other == place) = false := beq_eq_false_iff_ne.mpr h
    dsimp only
    rw [if_neg h, List.lookup_cons, hne]
    dsimp only
    rw [lookup_filter_ne h]

/-- The root is a directory. -/
theorem ne_nil_of_entry?_ne (h : t.entry? place ≠ some .directory) : place ≠ [] := by
  rintro rfl
  exact h rfl

/-! ## What is left alone -/

/-- What a place holds stays, unless a directory comes where nothing was. -/
def LeavesAlone (t t' : FileTree) (place : Place) : Prop :=
  t'.entry? place = t.entry? place ∨ t.entry? place = none ∧ t'.entry? place = some .directory

/-- Directories stay what they are. -/
structure KeepsDirectories (t t' : FileTree) : Prop where
  working : t'.working = t.working
  entries : ∀ place, t.entry? place = some .directory → t'.entry? place = some .directory

/-- Directories are all that is new, and nothing changes. -/
structure AddsDirectories (t t' : FileTree) : Prop where
  working : t'.working = t.working
  leavesAlone : ∀ place, t.LeavesAlone t' place

theorem LeavesAlone.refl (t : FileTree) (place : Place) : t.LeavesAlone t place := .inl rfl

theorem LeavesAlone.trans (h : t.LeavesAlone t' place) (h' : t'.LeavesAlone t'' place) :
    t.LeavesAlone t'' place := by
  rcases h' with hsame' | ⟨hnone', hnew'⟩
  · rw [LeavesAlone, hsame']
    exact h
  · rcases h with hsame | ⟨-, hnew⟩
    · exact .inr ⟨hsame ▸ hnone', hnew'⟩
    · rw [hnone'] at hnew
      exact nomatch hnew

/-- Whatever is there stays there. -/
theorem LeavesAlone.entry?_eq (h : t.LeavesAlone t' place) {entry : FileEntry}
    (hentry : t.entry? place = some entry) : t'.entry? place = some entry := by
  rcases h with hsame | ⟨hnone, -⟩
  · rw [hsame, hentry]
  · rw [hnone] at hentry
    exact nomatch hentry

theorem leavesAlone_set (hplace : place ≠ []) (hother : other ≠ place) (entry : FileEntry) :
    t.LeavesAlone (t.set place entry) other := by
  left
  rw [entry?_set hplace, if_neg hother]

theorem KeepsDirectories.refl (t : FileTree) : t.KeepsDirectories t := ⟨rfl, fun _ ↦ id⟩

theorem KeepsDirectories.trans (h : t.KeepsDirectories t') (h' : t'.KeepsDirectories t'') :
    t.KeepsDirectories t'' :=
  ⟨h'.working.trans h.working, fun place hplace ↦ h'.entries place (h.entries place hplace)⟩

theorem AddsDirectories.refl (t : FileTree) : t.AddsDirectories t := ⟨rfl, .refl t⟩

theorem AddsDirectories.trans (h : t.AddsDirectories t') (h' : t'.AddsDirectories t'') :
    t.AddsDirectories t'' :=
  ⟨h'.working.trans h.working, fun place ↦ (h.leavesAlone place).trans (h'.leavesAlone place)⟩

theorem AddsDirectories.keepsDirectories (h : t.AddsDirectories t') : t.KeepsDirectories t' :=
  ⟨h.working, fun place ↦ (h.leavesAlone place).entry?_eq⟩

/-! ## Following paths -/

theorem step_eq_ok_of_keeps (h : t.KeepsDirectories t') {name : String}
    (hstep : t.step place name = .ok other) : t'.step place name = .ok other := by
  have hdirectory : t.entry? place = some .directory := by
    rw [step] at hstep
    split at hstep
    · exact absurd hstep Attempt.throw_ne_ok
    · exact absurd hstep Attempt.throw_ne_ok
    · assumption
  rw [step, hdirectory] at hstep
  rw [step, h.entries place hdirectory]
  exact hstep

theorem foldlM_step_of_keeps (h : t.KeepsDirectories t') {names : List String}
    (hfold : names.foldlM t.step place = .ok other) :
    names.foldlM t'.step place = .ok other := by
  induction names generalizing place with
  | nil => exact hfold
  | cons name names ih =>
    rw [List.foldlM_cons] at hfold ⊢
    obtain ⟨next, hnext, hfold⟩ := Attempt.bind_eq_ok.mp hfold
    exact Attempt.bind_eq_ok.mpr ⟨next, step_eq_ok_of_keeps h hnext, ih hfold⟩

/-- A path that leads to a place leads there as long as directories stay. -/
theorem follow_of_keeps (h : t.KeepsDirectories t') (hfollow : t.follow path = .ok place) :
    t'.follow path = .ok place := by
  rw [follow] at hfollow ⊢
  split at hfollow
  · exact absurd hfollow Attempt.throw_ne_ok
  split at hfollow
  · exact absurd hfollow Attempt.throw_ne_ok
  split at hfollow
  · exact absurd hfollow Attempt.throw_ne_ok
  next hnul hempty hlong =>
    rw [if_neg hnul, if_neg hempty, if_neg hlong, h.working]
    exact foldlM_step_of_keeps h hfollow

/-- The place of a directory that files are written into. -/
def directoryPlace (t : FileTree) (directory : String) : Except FileError Place :=
  ((Path.segments (Path.asDirectory directory).toList).dropLast.map String.ofList).foldlM t.step
    (if Path.isAbsolute (Path.asDirectory directory) then [] else t.working)

/-- The place of a file in a directory ends with the name of the file. -/
theorem of_follow_join {directory name : String} (hslash : '/' ∉ name.toList)
    (hname : name ∉ ["", ".", ".."])
    (h : t.follow (Path.join directory name) = .ok place) :
    ∃ base, t.directoryPlace directory = .ok base ∧ place = base ++ [name] := by
  have hrelative : Path.isAbsolute name = false := by
    have hempty : Path.isAbsolute "" = false := rfl
    rw [← hempty, ← Path.isAbsolute_append hslash "", String.empty_append]
  rw [Path.join, if_neg (by rw [hrelative]; exact Bool.false_ne_true), follow] at h
  split at h
  · exact absurd h Attempt.throw_ne_ok
  split at h
  · exact absurd h Attempt.throw_ne_ok
  split at h
  · exact absurd h Attempt.throw_ne_ok
  rw [Path.isAbsolute_append hslash, String.toList_append,
    Path.segments_asDirectory_append directory hslash, List.map_append, List.foldlM_append] at h
  obtain ⟨base, hbase, h⟩ := Attempt.bind_eq_ok.mp h
  refine ⟨base, hbase, ?_⟩
  rw [List.map_singleton, String.ofList_toList, List.foldlM_cons] at h
  obtain ⟨last, hlast, h⟩ := Attempt.bind_eq_ok.mp h
  obtain rfl := Attempt.pure_eq_ok.mp h
  simp only [List.mem_cons, List.not_mem_nil, or_false, not_or] at hname
  rw [step] at hlast
  split at hlast
  · exact absurd hlast Attempt.throw_ne_ok
  · exact absurd hlast Attempt.throw_ne_ok
  rw [if_neg (not_or.mpr ⟨hname.1, hname.2.1⟩), if_neg hname.2.2] at hlast
  split at hlast
  · exact absurd hlast Attempt.throw_ne_ok
  · exact (Attempt.pure_eq_ok.mp hlast).symm

/-! ## Operations -/

theorem read_eq_ok_iff : t.read path = .ok text ↔
    ∃ place, t.follow path = .ok place ∧ t.entry? place = some (.file (.text text)) := by
  rw [read, Attempt.bind_eq_ok]
  refine exists_congr fun place ↦ and_congr_right fun _ ↦ ?_
  cases t.entry? place with
  | none => exact ⟨fun h ↦ absurd h Attempt.throw_ne_ok, fun h ↦ nomatch h⟩
  | some entry =>
    cases entry with
    | directory => exact ⟨fun h ↦ absurd h Attempt.throw_ne_ok, fun h ↦ nomatch h⟩
    | file content =>
      rw [Option.some.injEq, FileEntry.file.injEq]
      cases content with
      | unreadable reason => exact ⟨fun h ↦ absurd h Attempt.throw_ne_ok, fun h ↦ nomatch h⟩
      | text found =>
        rw [FileContent.text.injEq]
        exact Attempt.pure_eq_ok

/-- A file is not read because its path leads nowhere or because of what is there. -/
theorem read_eq_error_iff {reason : FileError} : t.read path = .error reason ↔
    t.follow path = .error reason ∨ ∃ place, t.follow path = .ok place ∧
      (t.entry? place = none ∧ reason = .notFound ∨
        t.entry? place = some .directory ∧ reason = .isADirectory ∨
        t.entry? place = some (.file (.unreadable reason))) := by
  rw [read, Attempt.bind_eq_error]
  refine or_congr_right (exists_congr fun place ↦ and_congr_right fun _ ↦ ?_)
  rcases t.entry? place with - | - | (- | -) <;> simp [@eq_comm _ reason]

theorem of_write_eq_ok (h : t.write path text = .ok t') :
    ∃ place, t.follow path = .ok place ∧ t.entry? place ≠ some .directory ∧
      t' = t.set place (.file (.text text)) := by
  rw [write] at h
  obtain ⟨place, hfollow, h⟩ := Attempt.bind_eq_ok.mp h
  by_cases hdirectory : t.entry? place = some .directory
  · rw [if_pos hdirectory] at h
    exact absurd h Attempt.throw_ne_ok
  · rw [if_neg hdirectory] at h
    exact ⟨place, hfollow, hdirectory, (Attempt.pure_eq_ok.mp h).symm⟩

theorem keepsDirectories_set (h : t.entry? place ≠ some .directory) (content : FileContent) :
    t.KeepsDirectories (t.set place (.file content)) := by
  refine ⟨rfl, fun other hother ↦ ?_⟩
  have hne : other ≠ place := by
    rintro rfl
    exact h hother
  rw [entry?_set (ne_nil_of_entry?_ne h), if_neg hne, hother]

theorem addsDirectories_createDirectory (h : t.createDirectory path = .ok t') :
    t.AddsDirectories t' := by
  rw [createDirectory] at h
  obtain ⟨place, -, h⟩ := Attempt.bind_eq_ok.mp h
  cases hentry : t.entry? place with
  | some entry =>
    rw [hentry] at h
    exact absurd h Attempt.throw_ne_ok
  | none =>
    rw [hentry] at h
    obtain rfl := Attempt.pure_eq_ok.mp h
    have hplace : place ≠ [] := ne_nil_of_entry?_ne (by rw [hentry]; exact nofun)
    refine ⟨rfl, fun other ↦ ?_⟩
    by_cases hother : other = place
    · subst hother
      exact .inr ⟨hentry, by rw [entry?_set hplace, if_pos rfl]⟩
    · exact leavesAlone_set hplace hother _

theorem addsDirectories_createChain (paths : List String) :
    t.AddsDirectories (t.createChain paths).1 := by
  induction paths generalizing t with
  | nil => exact .refl t
  | cons path paths ih =>
    rw [createChain]
    by_cases hpath : path = ""
    · rw [if_pos hpath]
      exact .refl t
    rw [if_neg hpath]
    dsimp only
    -- the directory itself comes last, when those above it are there
    split
    · next hcreate => exact addsDirectories_createDirectory hcreate
    · have habove := ih (t := t)
      split
      · next hfails => exact hfails ▸ habove
      · next hfound =>
        rw [hfound] at habove
        split
        · next hcreate => exact habove.trans (addsDirectories_createDirectory hcreate)
        · exact habove
    · exact .refl t

theorem addsDirectories_createDirectories (path : String) :
    t.AddsDirectories (t.createDirectories path).1 :=
  addsDirectories_createChain (path :: Path.parents path)

end FileTree

end BufferSchema
