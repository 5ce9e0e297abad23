import BufferSchema.Proofs.Header.NameTable
import BufferSchema.Proofs.Header.Parts

/-!
# What options add

Some options only ever add to a header: mutators behind accessors, the includes of included schemas,
tables of value names. For each of them the two headers are compared piece by piece, so that what an
option does to a text is said by what it does to the parts that read it.

## The construction

Both headers have the same parts, in one order. So it is enough to compare the lines of one part for
the two choices of an option, and `Schema.Sound.addsTo` carries the comparison over to the texts. A
part that does not read the option has the same lines twice.

Lines that are added behind others, one for each of a list of fields, are described by `Expands`: it
walks through both lists at once and has a constructor for every way to go on. Emitters put lists of
lines together by appending them, and `Expands.append` and `Expands.flatMap` follow them there.

## What stays

That nothing is lost and nothing is moved is the last part of each comparison: the lines without the
option are a sublist of the lines with it.
-/

namespace BufferSchema

/-! ## Lines with others added behind them -/

/-- The second list is the first one with lines added. For each of the sites, in their order, there
is one line that some are added behind. -/
inductive Expands {σ : Type} (adds : σ → String → List String → Prop) :
    List σ → List String → List String → Prop
  | nil : Expands adds [] [] []
  | keep {sites : List σ} {lines lines' : List String} (line : String) :
    Expands adds sites lines lines' → Expands adds sites (line :: lines) (line :: lines')
  | insert {site : σ} {sites : List σ} {line : String} {added lines lines' : List String} :
    adds site line added → Expands adds sites lines lines' →
      Expands adds (site :: sites) (line :: lines) (line :: (added ++ lines'))

namespace Expands

variable {σ α β : Type} {adds : σ → String → List String → Prop} {sites sites' : List σ}
  {lines lines' more more' : List String}

/-- Where nothing is added, nothing changes. -/
theorem refl (lines : List String) : Expands adds [] lines lines := by
  induction lines with
  | nil => exact .nil
  | cons line lines ih => exact .keep line ih

theorem append (h : Expands adds sites lines lines') (h' : Expands adds sites' more more') :
    Expands adds (sites ++ sites') (lines ++ more) (lines' ++ more') := by
  induction h with
  | nil => exact h'
  | keep line _ ih => exact .keep line ih
  | insert hadds _ ih =>
    rw [List.cons_append, List.cons_append, List.cons_append, List.append_assoc]
    exact .insert hadds ih

theorem append_left (before : List String) (h : Expands adds sites lines lines') :
    Expands adds sites (before ++ lines) (before ++ lines') := (refl before).append h

theorem append_right (after : List String) (h : Expands adds sites lines lines') :
    Expands adds sites (lines ++ after) (lines' ++ after) := by
  have hlines := h.append (refl after)
  rwa [List.append_nil] at hlines

/-- No line is lost, and none is moved. -/
theorem sublist (h : Expands adds sites lines lines') : lines.Sublist lines' := by
  induction h with
  | nil => exact .slnil
  | keep line _ ih => exact ih.cons_cons line
  | insert _ _ ih => exact (ih.trans (List.sublist_append_right _ _)).cons_cons _

/-- Blocks of lines, one for each site. -/
theorem flatMap {xs : List α} {ys : List β} {left : α → List String} {right : β → List String}
    {P : σ → α → Prop} {Q : σ → β → Prop} (hxs : List.Forall₂ P sites xs)
    (hys : List.Forall₂ Q sites ys)
    (h : ∀ site x y, P site x → Q site y → Expands adds [site] (left x) (right y)) :
    Expands adds sites (xs.flatMap left) (ys.flatMap right) := by
  induction hxs generalizing ys with
  | nil =>
    obtain rfl := List.forall₂_nil_left_iff.mp hys
    exact .nil
  | cons hx _ ih =>
    obtain ⟨y, rest, hy, hrest, rfl⟩ := List.forall₂_cons_left_iff.mp hys
    exact (h _ _ _ hx hy).append (ih hrest)

end Expands

/-! ## Mutators -/

/-- A function that reads a field. -/
def Field.ReadBy (f : Field) (text : String) : Prop :=
  ∃ result value, text =
    result ++ f.name ++ "() const" ++ " \x7b " ++ ("return " ++ value ++ ";") ++ " \x7d"

/-- A function that changes a field: one that sets a scalar, or one that hands out anything else. -/
def Field.ChangedBy (f : Field) (text : String) : Prop :=
  ∃ result parameters statement, text =
    result ++ (if f.type.isScalar then "mutate_" else "mutable_") ++ f.name ++ "(" ++
      parameters ++ ")" ++ " \x7b " ++ statement ++ " \x7d"

/-- A mutator behind the line of an accessor. -/
def Field.AddsMutator (f : Field) (line : String) (added : List String) : Prop :=
  ∃ reader mutator, f.ReadBy reader ∧ f.ChangedBy mutator ∧
    line = "  " ++ reader ∧ added = ["  " ++ mutator]

section mutators

variable {s : Schema} {options : Options} {a : Aggregate} {f : Field}

/-! ### Lines of mutators -/

theorem Field.changedBy_mutate (hscalar : f.type.isScalar = true) (result : String)
    {type statement text : String} (htext : text =
      oneLine (result ++ "mutate_" ++ f.name ++ "(" ++ type ++ " _" ++ f.name ++ ")") statement) :
    f.ChangedBy text := by
  refine ⟨result, type ++ " _" ++ f.name, statement, ?_⟩
  rw [htext, if_pos hscalar]
  simp only [oneLine, String.append_assoc]

theorem Field.changedBy_mutable (hscalar : ¬ f.type.isScalar = true)
    {type statement text : String}
    (htext : text = oneLine (type ++ "mutable_" ++ f.name ++ "()") statement) :
    f.ChangedBy text := by
  refine ⟨type, "", statement, ?_⟩
  have hcall : "()" = "(" ++ "" ++ ")" := rfl
  rw [htext, if_neg hscalar, hcall]
  simp only [oneLine, String.append_assoc]

theorem TableMutator.changedBy_text {mutator : TableMutator}
    (h : TableAccessor.mutatorOf s f = .ok mutator) : f.ChangedBy mutator.text := by
  rw [TableAccessor.mutatorOf] at h
  by_cases hscalar : f.type.isScalar = true
  · rw [if_pos hscalar] at h
    obtain ⟨type, -, h⟩ := Attempt.bind_eq_ok.mp h
    obtain ⟨conversion, -, h⟩ := Attempt.bind_eq_ok.mp h
    obtain rfl := Attempt.pure_eq_ok.mp h
    exact Field.changedBy_mutate hscalar "bool " rfl
  · rw [if_neg hscalar] at h
    obtain ⟨type, -, h⟩ := Attempt.bind_eq_ok.mp h
    obtain rfl := Attempt.pure_eq_ok.mp h
    exact Field.changedBy_mutable hscalar rfl

/-! ### Tables -/

/-- With a mutator, the accessors of a field have one line more. -/
theorem TableAccessor.expands_lines (x : TableAccessor) {mutator : TableMutator}
    (hreader : f.ReadBy x.reader) (hmutator : f.ChangedBy mutator.text) :
    Expands Field.AddsMutator [f] { x with mutator := none }.lines
      { x with mutator := some mutator }.lines := by
  have hadds : f.AddsMutator ("  " ++ x.reader) ["  " ++ mutator.text] :=
    ⟨x.reader, mutator.text, hreader, hmutator, rfl, rfl⟩
  have hrest := Expands.insert hadds (.refl
    (((x.nestedRoot.map (nestedReader x.field)).toList ++
      (x.key.map KeyComparison.texts).getD []).map ("  " ++ ·)))
  exact hrest.append_left (docLines "  " x.doc)

theorem TableAccessor.expands_of_ofField {x y : TableAccessor}
    (hx : TableAccessor.ofField s { options with mutableBuffer := false } a f = .ok x)
    (hy : TableAccessor.ofField s { options with mutableBuffer := true } a f = .ok y) :
    Expands Field.AddsMutator [f] x.lines y.lines := by
  obtain ⟨stored, type, conversion, mutator, key, hstored, htype, hconversion, hmutator, hkey,
    rfl⟩ := TableAccessor.of_ofField_eq_ok hx
  obtain ⟨stored', type', conversion', mutator', key', hstored', htype', hconversion', hmutator',
    hkey', rfl⟩ := TableAccessor.of_ofField_eq_ok hy
  -- all but the mutator is spelled without a look at the option
  obtain rfl := Except.ok.inj (hstored.symm.trans hstored')
  obtain rfl := Except.ok.inj (htype.symm.trans htype')
  obtain rfl := Except.ok.inj (hconversion.symm.trans hconversion')
  obtain rfl : key = key' := Except.ok.inj (hkey.symm.trans hkey')
  obtain rfl : none = mutator := Attempt.pure_eq_ok.mp hmutator
  obtain ⟨changing, hchanging, rfl⟩ := Attempt.map_eq_ok.mp hmutator'
  exact expands_lines ⟨f.doc, f.name, type, conversion, _, none, _, key⟩ ⟨type, _, rfl⟩
    (TableMutator.changedBy_text hchanging)

theorem TableFragment.expands_lines {t t' : TableFragment}
    (h : TableFragment.ofAggregate s { options with mutableBuffer := false } a = .ok t)
    (h' : TableFragment.ofAggregate s { options with mutableBuffer := true } a = .ok t') :
    Expands Field.AddsMutator a.liveFields t.lines t'.lines := by
  rw [TableFragment.ofAggregate] at h h'
  obtain ⟨accessors, haccessors, h⟩ := Attempt.bind_eq_ok.mp h
  obtain ⟨checks, hchecks, h⟩ := Attempt.bind_eq_ok.mp h
  obtain ⟨setters, hsetters, h⟩ := Attempt.bind_eq_ok.mp h
  obtain ⟨parameters, hparameters, h⟩ := Attempt.bind_eq_ok.mp h
  obtain ⟨accessors', haccessors', h'⟩ := Attempt.bind_eq_ok.mp h'
  obtain ⟨checks', hchecks', h'⟩ := Attempt.bind_eq_ok.mp h'
  obtain ⟨setters', hsetters', h'⟩ := Attempt.bind_eq_ok.mp h'
  obtain ⟨parameters', hparameters', h'⟩ := Attempt.bind_eq_ok.mp h'
  obtain rfl := Except.ok.inj (hchecks.symm.trans hchecks')
  obtain rfl := Except.ok.inj (hsetters.symm.trans hsetters')
  obtain rfl : parameters = parameters' := Except.ok.inj (hparameters.symm.trans hparameters')
  obtain rfl := Attempt.pure_eq_ok.mp h
  obtain rfl := Attempt.pure_eq_ok.mp h'
  have hlines := Expands.flatMap (Attempt.mapM_eq_ok.mp haccessors)
    (Attempt.mapM_eq_ok.mp haccessors') fun f x y ↦ TableAccessor.expands_of_ofField
  rw [lines, lines, viewLines, viewLines]
  exact (((((hlines.append_left _).append_right _).append_right _).append_right _).append_right
    _).append_right _

/-! ### Structs -/

/-- The accessor of a struct field does not look at the option, and the mutator is there if the
option says so. -/
theorem StructAccessor.of_ofField_eq_ok {x : StructAccessor}
    (h : StructAccessor.ofField s options f = .ok x) :
    ∃ result conversion mutator, s.viewSpelling " " "const " " &" true f.type = .ok result ∧
      s.conversion true f.type = .ok conversion ∧
      x = ⟨f.doc, oneLine (result ++ f.name ++ "() const") ("return " ++ converted conversion
          (if f.type.isScalar then "flatbuffers::EndianScalar(" ++ f.name ++ "_)"
            else f.name ++ "_") ++ ";"), mutator⟩ ∧
      (options.mutableBuffer = false → mutator = none) ∧
      (options.mutableBuffer = true → ∃ text, mutator = some text ∧ f.ChangedBy text) := by
  rw [StructAccessor.ofField] at h
  obtain ⟨result, hresult, h⟩ := Attempt.bind_eq_ok.mp h
  obtain ⟨conversion, hconversion, h⟩ := Attempt.bind_eq_ok.mp h
  dsimp only at h
  by_cases hmutable : options.mutableBuffer = true
  · rw [if_pos hmutable] at h
    have hfalse : options.mutableBuffer ≠ false := by simp [hmutable]
    by_cases hscalar : f.type.isScalar = true
    · rw [if_pos hscalar] at h
      obtain ⟨type, -, h⟩ := Attempt.bind_eq_ok.mp h
      obtain ⟨stored, -, h⟩ := Attempt.bind_eq_ok.mp h
      obtain rfl := Attempt.pure_eq_ok.mp h
      exact ⟨result, conversion, _, hresult, hconversion, rfl, fun h ↦ absurd h hfalse,
        fun _ ↦ ⟨_, rfl, Field.changedBy_mutate hscalar "void " rfl⟩⟩
    · rw [if_neg hscalar] at h
      obtain ⟨type, -, h⟩ := Attempt.bind_eq_ok.mp h
      obtain rfl := Attempt.pure_eq_ok.mp h
      exact ⟨result, conversion, _, hresult, hconversion, rfl, fun h ↦ absurd h hfalse,
        fun _ ↦ ⟨_, rfl, Field.changedBy_mutable hscalar rfl⟩⟩
  · rw [if_neg hmutable] at h
    obtain rfl := Attempt.pure_eq_ok.mp h
    exact ⟨result, conversion, none, hresult, hconversion, rfl, fun _ ↦ rfl,
      fun h ↦ absurd h hmutable⟩

theorem StructAccessor.expands_of_ofField {x y : StructAccessor}
    (hx : StructAccessor.ofField s { options with mutableBuffer := false } f = .ok x)
    (hy : StructAccessor.ofField s { options with mutableBuffer := true } f = .ok y) :
    Expands Field.AddsMutator [f] x.lines y.lines := by
  obtain ⟨result, conversion, mutator, hresult, hconversion, rfl, hnone, -⟩ := of_ofField_eq_ok hx
  obtain ⟨result', conversion', mutator', hresult', hconversion', rfl, -, hsome⟩ :=
    of_ofField_eq_ok hy
  obtain rfl := Except.ok.inj (hresult.symm.trans hresult')
  obtain rfl := Except.ok.inj (hconversion.symm.trans hconversion')
  obtain rfl := hnone rfl
  obtain ⟨text, rfl, htext⟩ := hsome rfl
  have hadds {reader : String} (hreader : f.ReadBy reader) :
      Expands Field.AddsMutator [f] ["  " ++ reader] ["  " ++ reader, "  " ++ text] := by
    have hadds : f.AddsMutator ("  " ++ reader) ["  " ++ text] :=
      ⟨reader, text, hreader, htext, rfl, rfl⟩
    exact .insert hadds (.refl [])
  refine (hadds ?_).append_left (docLines "  " f.doc)
  exact ⟨result, _, rfl⟩

theorem StructFragment.expands_lines {t t' : StructFragment}
    (h : StructFragment.ofAggregate s { options with mutableBuffer := false } a = .ok t)
    (h' : StructFragment.ofAggregate s { options with mutableBuffer := true } a = .ok t') :
    Expands Field.AddsMutator a.fields t.lines t'.lines := by
  rw [StructFragment.ofAggregate] at h h'
  obtain ⟨members, hmembers, h⟩ := Attempt.bind_eq_ok.mp h
  obtain ⟨parameters, hparameters, h⟩ := Attempt.bind_eq_ok.mp h
  obtain ⟨initializers, hinitializers, h⟩ := Attempt.bind_eq_ok.mp h
  obtain ⟨accessors, haccessors, h⟩ := Attempt.bind_eq_ok.mp h
  obtain ⟨members', hmembers', h'⟩ := Attempt.bind_eq_ok.mp h'
  obtain ⟨parameters', hparameters', h'⟩ := Attempt.bind_eq_ok.mp h'
  obtain ⟨initializers', hinitializers', h'⟩ := Attempt.bind_eq_ok.mp h'
  obtain ⟨accessors', haccessors', h'⟩ := Attempt.bind_eq_ok.mp h'
  obtain rfl := Except.ok.inj (hmembers.symm.trans hmembers')
  obtain rfl := Except.ok.inj (hparameters.symm.trans hparameters')
  obtain rfl := Except.ok.inj (hinitializers.symm.trans hinitializers')
  obtain rfl := Attempt.pure_eq_ok.mp h
  obtain rfl := Attempt.pure_eq_ok.mp h'
  have hlines := Expands.flatMap (Attempt.mapM_eq_ok.mp haccessors)
    (Attempt.mapM_eq_ok.mp haccessors') fun f x y ↦ StructAccessor.expands_of_ofField
  rw [lines, lines]
  exact (hlines.append_left _).append_right _

/-! ### Root helpers -/

/-- With mutators, a root type has one helper more, behind the one that reads the root. -/
theorem Schema.of_rootHelpers_eq_ok {helpers helpers' : List InlineFunction}
    (h : s.rootHelpers { options with mutableBuffer := false } = .ok helpers)
    (h' : s.rootHelpers { options with mutableBuffer := true } = .ok helpers') :
    (s.rootType = none ∧ helpers = [] ∧ helpers' = []) ∨
      ∃ name root rest, s.rootType = some name ∧ s.aggregates.get? name = some root ∧
        helpers = RootHelper.get (scopedName name) root.name :: rest ∧
        helpers' = RootHelper.get (scopedName name) root.name :: RootHelper.getMutable root.name ::
          rest := by
  rw [rootHelpers] at h h'
  obtain ⟨found, hfound, h⟩ := Attempt.bind_eq_ok.mp h
  rw [hfound] at h'
  rw [rootAggregate] at hfound
  cases hroot : s.rootType with
  | none =>
    rw [hroot] at hfound
    obtain rfl := Attempt.pure_eq_ok.mp hfound
    exact .inl ⟨rfl, (Attempt.pure_eq_ok.mp h).symm, (Attempt.pure_eq_ok.mp h').symm⟩
  | some name =>
    rw [hroot] at hfound
    obtain ⟨root, hget, hfound⟩ := Attempt.bind_eq_ok.mp hfound
    obtain rfl := Attempt.pure_eq_ok.mp hfound
    refine .inr ⟨name, root, _, rfl, aggregate_eq_ok.mp hget, (Attempt.pure_eq_ok.mp h).symm, ?_⟩
    exact (Attempt.pure_eq_ok.mp h').symm

end mutators

/-! ## Parts of headers -/

namespace Schema

variable {s : Schema} {options options' : Options}

/-- The root helper that reads the root of a buffer. -/
def rootReader (type name : String) : String :=
  "inline const " ++ type ++ " *Get" ++ name ++
    "(const void *buf) \x7b return flatbuffers::GetRoot<" ++ type ++ ">(buf); \x7d"

/-- The root helper that hands out the root of a buffer that can be changed. -/
def rootChanger (name : String) : String :=
  "inline " ++ name ++ " *GetMutable" ++ name ++
    "(void *buf) \x7b return flatbuffers::GetMutableRoot<" ++ name ++ ">(buf); \x7d"

theorem line_get (type name : String) : (RootHelper.get type name).line = rootReader type name := by
  unfold rootReader
  rw [← String.toList_inj]
  simp [InlineFunction.line, oneLine, RootHelper.get]

theorem line_getMutable (name : String) :
    (RootHelper.getMutable name).line = rootChanger name := by
  unfold rootChanger
  rw [← String.toList_inj]
  simp [InlineFunction.line, oneLine, RootHelper.getMutable]

/-- What mutators add to a part: a line for each field that has an accessor there, and one more root
helper with a blank line behind it. -/
def AddsMutators (s : Schema) : Part → List String → List String → Prop
  | .struct a, lines, lines' => Expands Field.AddsMutator a.fields lines lines'
  | .table a, lines, lines' => Expands Field.AddsMutator a.liveFields lines lines'
  | .helpers, lines, lines' =>
    (s.rootType = none ∧ lines = [] ∧ lines' = []) ∨
      ∃ name root rest, s.rootType = some name ∧ s.aggregates.get? name = some root ∧
        lines = [rootReader (scopedName name) root.name, ""] ++ rest ∧
        lines' = [rootReader (scopedName name) root.name, ""] ++ [rootChanger root.name, ""] ++ rest
  | .opening, lines, lines' | .includes, lines, lines' | .otherForwards, lines, lines'
  | .scopeOpening, lines, lines' | .activeForwards, lines, lines' | .enum _, lines, lines'
  | .dispatcher _, lines, lines' | .scopeClosing, lines, lines' | .closing, lines, lines' =>
    lines' = lines

/-- What a wider threshold adds to a part: the name tables of some enumerations. -/
def AddsNameTable (options : Options) (m m' : Int64) : Part → List String → List String → Prop
  | .enum e, lines, lines' =>
    (e.hasNameTable m = e.hasNameTable m' ∧ lines' = lines) ∨
      (e.hasNameTable m = false ∧ e.hasNameTable m' = true ∧ ∃ table before after,
        NameTable.ofEnum? e { options with maxSparseness := m' } = some table ∧
        lines = before ++ after ∧ lines' =
          before ++ NameTable.functionLines e.name table.slots table.offset ++ after)
  | .opening, lines, lines' | .includes, lines, lines' | .otherForwards, lines, lines'
  | .scopeOpening, lines, lines' | .activeForwards, lines, lines' | .struct _, lines, lines'
  | .table _, lines, lines' | .dispatcher _, lines, lines' | .helpers, lines, lines'
  | .scopeClosing, lines, lines' | .closing, lines, lines' => lines' = lines

/-! ## From parts to headers -/

/-- The header for one choice of options, with lines added to its parts, is the header for another.
No line of it is lost, and none is moved. -/
def AddsTo (s : Schema) (options options' : Options)
    (adds : Part → List String → List String → Prop) : Prop :=
  ∃ layout layout', s.LaidOut options layout ∧ s.LaidOut options' layout' ∧
    s.generate options = .ok (unlines (layout.flatMap Piece.lines)) ∧
    s.generate options' = .ok (unlines (layout'.flatMap Piece.lines)) ∧
    List.Forall₂ (fun p p' ↦ p.part = p'.part ∧ adds p.part p.lines p'.lines) layout layout' ∧
    (layout.flatMap Piece.lines).Sublist (layout'.flatMap Piece.lines)

theorem Sound.addsTo (h : s.Sound) (hpending : s.isEmpty = false)
    (hpadding : ∀ a ∈ s.pendingStructs, ∀ f ∈ a.fields, f.padding ≤ 15)
    {adds : Part → List String → List String → Prop}
    (hadds : ∀ part lines lines', s.partLines options part = .ok lines →
      s.partLines options' part = .ok lines' → adds part lines lines')
    (hsublist : ∀ part lines lines', adds part lines lines' → lines.Sublist lines') :
    s.AddsTo options options' adds := by
  obtain ⟨layout, hlayout⟩ := h.exists_laidOut hpending hpadding options
  obtain ⟨layout', hlayout'⟩ := h.exists_laidOut hpending hpadding options'
  have hpieces := hlayout.forall₂ hlayout' rfl fun part lines lines' _ ↦ hadds part lines lines'
  refine ⟨layout, layout', hlayout, hlayout', hlayout.generate_eq hpending,
    hlayout'.generate_eq hpending, hpieces, ?_⟩
  clear hlayout hlayout'
  induction hpieces with
  | nil => exact .slnil
  | cons hpiece _ ih => exact (hsublist _ _ _ hpiece.2).append ih

/-! ### Mutators -/

theorem addsMutators_of_partLines {part : Part} {lines lines' : List String}
    (h : s.partLines { options with mutableBuffer := false } part = .ok lines)
    (h' : s.partLines { options with mutableBuffer := true } part = .ok lines') :
    s.AddsMutators part lines lines' := by
  cases part with
  | struct a =>
    obtain ⟨t, ht, rfl⟩ := Attempt.map_eq_ok.mp h
    obtain ⟨t', ht', rfl⟩ := Attempt.map_eq_ok.mp h'
    exact StructFragment.expands_lines ht ht'
  | table a =>
    obtain ⟨t, ht, rfl⟩ := Attempt.map_eq_ok.mp h
    obtain ⟨t', ht', rfl⟩ := Attempt.map_eq_ok.mp h'
    exact TableFragment.expands_lines ht ht'
  | helpers =>
    obtain ⟨helpers, hhelpers, rfl⟩ := Attempt.map_eq_ok.mp h
    obtain ⟨helpers', hhelpers', rfl⟩ := Attempt.map_eq_ok.mp h'
    rcases of_rootHelpers_eq_ok hhelpers hhelpers' with
      ⟨hroot, rfl, rfl⟩ | ⟨name, root, rest, hroot, hget, rfl, rfl⟩
    · exact .inl ⟨hroot, rfl, rfl⟩
    · refine .inr ⟨name, root, rest.flatMap fun helper ↦ [helper.line, ""], hroot, hget, ?_, ?_⟩
      · rw [List.flatMap_cons, line_get]
      · rw [List.flatMap_cons, List.flatMap_cons, line_get, line_getMutable]
        rfl
  | opening | includes | otherForwards | scopeOpening | activeForwards | enum e | dispatcher e
  | scopeClosing | closing => exact Except.ok.inj (h'.symm.trans h)

theorem sublist_of_addsMutators {part : Part} {lines lines' : List String}
    (h : s.AddsMutators part lines lines') : lines.Sublist lines' := by
  cases part with
  | struct a => exact h.sublist
  | table a => exact h.sublist
  | helpers =>
    rcases h with ⟨-, rfl, rfl⟩ | ⟨name, root, rest, -, -, rfl, rfl⟩
    · exact .slnil
    · exact (List.sublist_append_left _ _).append_right rest
  | opening | includes | otherForwards | scopeOpening | activeForwards | enum e | dispatcher e
  | scopeClosing | closing => exact h ▸ .refl _

/-! ### Name tables -/

theorem addsNameTable_of_partLines {m m' : Int64} (hle : m ≤ m') {part : Part}
    {lines lines' : List String}
    (h : s.partLines { options with maxSparseness := m } part = .ok lines)
    (h' : s.partLines { options with maxSparseness := m' } part = .ok lines') :
    AddsNameTable options m m' part lines lines' := by
  cases part with
  | enum e =>
    obtain ⟨x, hx, rfl⟩ := Attempt.map_eq_ok.mp h
    obtain ⟨y, hy, rfl⟩ := Attempt.map_eq_ok.mp h'
    obtain ⟨htable, rfl⟩ := EnumFragment.eq_of_maxSparseness hx hy
    by_cases hsame : e.hasNameTable m = e.hasNameTable m'
    · refine .inl ⟨hsame, ?_⟩
      rw [← NameTable.ofEnum?_maxSparseness hsame, ← htable]
    · -- the wider threshold takes in what the narrower one does, so that the table is new
      have hnew : e.hasNameTable m = false ∧ e.hasNameTable m' = true := by
        have hmono := Enumeration.hasNameTable_mono (e := e) hle
        cases hm : e.hasNameTable m <;> cases hm' : e.hasNameTable m' <;> simp_all
      have hnone : NameTable.ofEnum? e { options with maxSparseness := m } = none := by
        rw [← Option.not_isSome_iff_eq_none, NameTable.isSome_ofEnum?, hnew.1]
        exact Bool.false_ne_true
      obtain ⟨table, hsome⟩ : ∃ table,
          NameTable.ofEnum? e { options with maxSparseness := m' } = some table := by
        rw [← Option.isSome_iff_exists, NameTable.isSome_ofEnum?, hnew.2]
      obtain ⟨before, after, hwithout, hwith⟩ := x.exists_lines_around_nameTable
      rw [← hnone, ← htable] at hwithout
      refine .inr ⟨hnew.1, hnew.2, table, before, after, hsome, hwithout, ?_⟩
      rw [hsome, ← NameTable.enumName_of_ofEnum? hsome, ← table.lines_eq]
      exact hwith table
  | dispatcher e =>
    obtain ⟨x, hx, rfl⟩ := Attempt.map_eq_ok.mp h
    obtain ⟨y, hy, rfl⟩ := Attempt.map_eq_ok.mp h'
    obtain ⟨-, rfl⟩ := EnumFragment.eq_of_maxSparseness hx hy
    rfl
  | opening | includes | otherForwards | scopeOpening | activeForwards | struct a | table a
  | helpers | scopeClosing | closing => exact Except.ok.inj (h'.symm.trans h)

theorem sublist_of_addsNameTable {m m' : Int64} {part : Part} {lines lines' : List String}
    (h : AddsNameTable options m m' part lines lines') : lines.Sublist lines' := by
  cases part with
  | enum e =>
    rcases h with ⟨-, rfl⟩ | ⟨-, -, table, before, after, -, rfl, rfl⟩
    · exact .refl _
    · exact (List.sublist_append_left _ _).append_right after
  | opening | includes | otherForwards | scopeOpening | activeForwards | struct a | table a
  | dispatcher e | helpers | scopeClosing | closing => exact h ▸ .refl _

/-! ### Includes -/

/-- A block of includes: one for the header of each of some schemas, and a blank line behind them if
there are any. -/
structure IncludesHeaders (stems lines : List String) : Prop where
  empty : stems = [] → lines = []
  block : stems ≠ [] →
    lines = stems.map (fun stem ↦ "#include \"" ++ stem ++ "_generated.h\"") ++ [""]

theorem includeLine_eq (stem : String) :
    "#include \"" ++ headerName "" stem ++ "\"" = "#include \"" ++ stem ++ "_generated.h\"" := by
  rw [headerName, String.empty_append, ← String.append_assoc, String.append_assoc]
  rfl

theorem includesHeaders_includeLines (s : Schema) :
    IncludesHeaders s.includedStems s.includeLines := by
  constructor
  · intro hnone
    rw [includeLines, hnone]
  · intro hsome
    rw [includeLines]
    split
    · next hnone => exact absurd hnone hsome
    · simp only [includeLine_eq]

/-- Where the includes of included schemas stand: right behind that of the runtime. -/
theorem exists_lines_around_includes (hok : Succeeds (s.generate options))
    (hpending : s.isEmpty = false) :
    ∃ rest,
      s.generate { options with includeDependenceHeaders := false } =
        .ok (unlines (s.openingLines ++ rest)) ∧
      s.generate { options with includeDependenceHeaders := true } =
        .ok (unlines (s.openingLines ++ s.includeLines ++ rest)) := by
  -- what can be emitted does not depend on options
  obtain ⟨text, htext⟩ : Succeeds (s.generate { options with includeDependenceHeaders := false }) :=
    succeeds_generate.mpr (succeeds_generate.mp hok)
  obtain ⟨layout, hlayout, -⟩ := (generate_eq_ok_iff hpending).mp htext
  have hgenerate := hlayout.generate_eq hpending
  obtain ⟨hparts, hlines⟩ := hlayout
  obtain ⟨opening, pieces, rfl, hopening, hparts⟩ := List.map_eq_cons_iff.mp hparts
  obtain ⟨includes, pieces, rfl, hincludes, hparts⟩ := List.map_eq_cons_iff.mp hparts
  rw [List.forall_mem_cons, List.forall_mem_cons, hopening, hincludes] at hlines
  obtain ⟨hopeningLines, hincludesLines, hrest⟩ := hlines
  obtain hopeningLines : s.openingLines = opening.lines := Except.ok.inj hopeningLines
  obtain hincludesLines : [] = includes.lines := Except.ok.inj hincludesLines
  refine ⟨pieces.flatMap Piece.lines, ?_, ?_⟩
  · rw [hgenerate, List.flatMap_cons, List.flatMap_cons, ← hopeningLines, ← hincludesLines]
    rfl
  · have hlayout : s.LaidOut { options with includeDependenceHeaders := true }
        (⟨.opening, s.openingLines⟩ :: ⟨.includes, s.includeLines⟩ :: pieces) := by
      refine ⟨?_, ?_⟩
      · rw [List.map_cons, List.map_cons, hparts]
        rfl
      · simp only [List.forall_mem_cons]
        refine ⟨rfl, rfl, fun piece hpiece ↦ ?_⟩
        -- no other part reads the option
        have hpart : piece.part ≠ .includes := by
          have hmem : piece.part ∈ pieces.map Piece.part := List.mem_map_of_mem hpiece
          rw [hparts] at hmem
          intro heq
          simp [heq] at hmem
        rw [← hrest piece hpiece]
        cases hcases : piece.part with
        | includes => exact absurd hcases hpart
        | opening | otherForwards | scopeOpening | activeForwards | enum e | struct a | table a
        | dispatcher e | helpers | scopeClosing | closing => rfl
    rw [hlayout.generate_eq hpending, List.flatMap_cons, List.flatMap_cons, List.append_assoc]

theorem Sound.exists_lines_around_includes (h : s.Sound) (hpending : s.isEmpty = false)
    (hpadding : ∀ a ∈ s.pendingStructs, ∀ f ∈ a.fields, f.padding ≤ 15) (options : Options) :
    ∃ rest,
      s.generate { options with includeDependenceHeaders := false } =
        .ok (unlines (s.openingLines ++ rest)) ∧
      s.generate { options with includeDependenceHeaders := true } =
        .ok (unlines (s.openingLines ++ s.includeLines ++ rest)) :=
  Schema.exists_lines_around_includes (h.succeeds_generate_iff.mpr hpadding) hpending

end Schema

/-- **Options only add.** Let a loaded schema have no wide mask of padding. If there is nothing to
emit, the header is empty under all options. If there is, then the header for a mutable buffer is
that for another one with a mutator behind the accessor of each field and one more root helper; the
includes of included schemas stand right behind that of the runtime and change nothing else; and a
wider threshold adds the name tables of the enumerations that it takes in. -/
theorem options_only_add {d : Document} {s : Schema} (h : Schema.ofDocument d = .ok s)
    (hpadding : ∀ a ∈ s.pendingStructs, ∀ f ∈ a.fields, f.padding ≤ 15) (options : Options) :
    (s.isEmpty = true → ∀ options', s.generate options' = .ok "") ∧
    (s.isEmpty = false →
      s.AddsTo { options with mutableBuffer := false } { options with mutableBuffer := true }
        s.AddsMutators ∧
      (∃ opening includes rest,
        opening = ["// automatically generated by the FlatBuffers compiler, do not modify", "",
          "#ifndef " ++ s.includeGuard, "#define " ++ s.includeGuard, "",
          "#include \"flatbuffers/flatbuffers.h\"", ""] ∧
        Schema.IncludesHeaders s.includedStems includes ∧
        s.generate { options with includeDependenceHeaders := false } =
          .ok (unlines (opening ++ rest)) ∧
        s.generate { options with includeDependenceHeaders := true } =
          .ok (unlines (opening ++ includes ++ rest))) ∧
      ∀ m m' : Int64, m ≤ m' →
        s.AddsTo { options with maxSparseness := m } { options with maxSparseness := m' }
          (Schema.AddsNameTable options m m')) := by
  have hsound : s.Sound := Schema.sound_of_ofDocument h
  refine ⟨fun hempty _ ↦ Schema.generate_eq_empty_iff.mpr hempty, fun hpending ↦ ⟨?_, ?_, ?_⟩⟩
  · exact hsound.addsTo hpending hpadding (fun _ _ _ ↦ Schema.addsMutators_of_partLines)
      fun _ _ _ ↦ Schema.sublist_of_addsMutators
  · obtain ⟨rest, hwithout, hwith⟩ :=
      hsound.exists_lines_around_includes hpending hpadding options
    exact ⟨_, _, rest, rfl, Schema.includesHeaders_includeLines s, hwithout, hwith⟩
  · intro m m' hle
    exact hsound.addsTo hpending hpadding (fun _ _ _ ↦ Schema.addsNameTable_of_partLines hle)
      fun _ _ _ ↦ Schema.sublist_of_addsNameTable

/-- The union of the document has a name table from some threshold on. -/
theorem options_only_add_scene : ∃ s e, Schema.ofDocument sceneDocument = .ok s ∧
    (∀ a ∈ s.pendingStructs, ∀ f ∈ a.fields, f.padding ≤ 15) ∧ s.isEmpty = false ∧
    s.enums.get? "Game.Any" = some e ∧ e.hasNameTable 0 = false ∧ e.hasNameTable 5 = true ∧
    s.AddsTo { mutableBuffer := false } { mutableBuffer := true } s.AddsMutators ∧
    s.AddsTo { maxSparseness := 0 } { maxSparseness := 5 } (Schema.AddsNameTable {} 0 5) := by
  obtain ⟨s, e, hs, hpadding, hpending, he, hnarrow, hwide⟩ :
      ∃ s e, Schema.ofDocument sceneDocument = .ok s ∧
        (∀ a ∈ s.pendingStructs, ∀ f ∈ a.fields, f.padding ≤ 15) ∧ s.isEmpty = false ∧
        s.enums.get? "Game.Any" = some e ∧ e.hasNameTable 0 = false ∧ e.hasNameTable 5 = true :=
    ⟨_, _, rfl, by decide, rfl, rfl, by decide, by decide⟩
  obtain ⟨hmutators, -, htables⟩ := (options_only_add hs hpadding {}).2 hpending
  exact ⟨s, e, hs, hpadding, hpending, he, hnarrow, hwide, hmutators, htables 0 5 (by decide)⟩

end BufferSchema
