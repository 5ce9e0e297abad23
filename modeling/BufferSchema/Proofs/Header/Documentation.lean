import BufferSchema.Proofs.Header.Additions
import BufferSchema.Proofs.Header.Marks

/-!
# Documentation

Documentation goes through the generator without being looked at: it is kept beside what it
describes and written out as comments, each on a line of its own. So a schema gives the text that it
gives without documentation, with comment lines put in. Which lines these are is told by
`Schema.emittedDocs`, and `Commented` tells the two texts apart line by line.

## The construction

`Schema.withoutDocs` takes the documentation out of a schema, and the same is done to each fragment
that an emitter makes. The two commute: the fragment of a declaration without documentation is the
fragment of the declaration without documentation, because no emitter reads a `doc` but to hand it
on. What is left is a comparison of the lines of one fragment with and without its documentation,
and `Commented` is put together there in the order in which the lines are.

## From lines to texts

The lines of a part may hold newlines, because names are plain text. Comments still stand on whole
lines of the text, since they are put in between lines of a part; only their own text has to be free
of newlines. `Commented.exists_lines` cuts the lines of parts at their newlines to say so.
-/

namespace BufferSchema

@[simp] theorem docLines_nil (indent : String) : docLines indent [] = [] := rfl

/-! ## Lines with comments put in -/

/-- The second list is the first one with comment lines put in, one for each of the texts in their
order: blanks, three slashes and the text. -/
inductive Commented : List String → List String → List String → Prop
  | nil : Commented [] [] []
  | keep {docs lines lines' : List String} (line : String) :
    Commented docs lines lines' → Commented docs (line :: lines) (line :: lines')
  | comment {docs lines lines' : List String} (blanks : Nat) (doc : String) :
    Commented docs lines lines' →
      Commented (doc :: docs) lines
        ((String.ofList (List.replicate blanks ' ') ++ "///" ++ doc) :: lines')

namespace Commented

variable {docs docs' lines lines' more more' : List String}

/-- Where there are no comments, nothing changes. -/
theorem refl (lines : List String) : Commented [] lines lines := by
  induction lines with
  | nil => exact .nil
  | cons line lines ih => exact .keep line ih

theorem append (h : Commented docs lines lines') (h' : Commented docs' more more') :
    Commented (docs ++ docs') (lines ++ more) (lines' ++ more') := by
  induction h with
  | nil => exact h'
  | keep line _ ih => exact .keep line ih
  | comment blanks doc _ ih => exact .comment blanks doc ih

theorem append_left (before : List String) (h : Commented docs lines lines') :
    Commented docs (before ++ lines) (before ++ lines') := (refl before).append h

theorem append_right (after : List String) (h : Commented docs lines lines') :
    Commented docs (lines ++ after) (lines' ++ after) := by
  have hlines := h.append (refl after)
  rwa [List.append_nil] at hlines

/-- Comments in front of lines that have their own. -/
theorem docLines_append (blanks : Nat) (docs : List String) (h : Commented docs' lines lines') :
    Commented (docs ++ docs') lines
      (docLines (String.ofList (List.replicate blanks ' ')) docs ++ lines') := by
  induction docs with
  | nil => exact h
  | cons doc docs ih => exact .comment blanks doc ih

/-- Comments in front of lines. -/
theorem docLines (blanks : Nat) (docs lines : List String) :
    Commented docs lines
      (docLines (String.ofList (List.replicate blanks ' ')) docs ++ lines) := by
  have hlines := (refl lines).docLines_append blanks docs
  rwa [List.append_nil] at hlines

/-- Blocks of lines, each with comments of its own. -/
theorem flatMap {α : Type} {docs left right : α → List String} {xs : List α}
    (h : ∀ x ∈ xs, Commented (docs x) (left x) (right x)) :
    Commented (xs.flatMap docs) (xs.flatMap left) (xs.flatMap right) := by
  induction xs with
  | nil => exact .nil
  | cons x xs ih =>
    obtain ⟨hx, hxs⟩ := List.forall_mem_cons.mp h
    exact hx.append (ih hxs)

/-! ### Lines of a text -/

/-- Lines that hold newlines are several lines of the text. -/
private theorem exists_split (line : String) :
    ∃ parts : List String, line ++ "\n" = unlines parts ∧ ∀ part ∈ parts, '\n' ∉ part.toList := by
  suffices h : ∀ l : List Char, ∃ first rest, '\n' ∉ first ∧
      (∀ part ∈ rest, '\n' ∉ String.toList part) ∧
      String.ofList l ++ "\n" = String.ofList first ++ "\n" ++ unlines rest by
    obtain ⟨first, rest, hfirst, hrest, hline⟩ := h line.toList
    rw [String.ofList_toList] at hline
    refine ⟨String.ofList first :: rest, hline, List.forall_mem_cons.mpr ⟨?_, hrest⟩⟩
    rwa [String.toList_ofList]
  intro l
  induction l with
  | nil => exact ⟨[], [], by simp, by simp, by simp [unlines]⟩
  | cons c l ih =>
    obtain ⟨first, rest, hfirst, hrest, hline⟩ := ih
    have hcons : String.ofList (c :: l) = String.ofList [c] ++ String.ofList l := by
      rw [← String.ofList_append, List.singleton_append]
    by_cases hc : c = '\n'
    · refine ⟨[], String.ofList first :: rest, List.not_mem_nil,
        List.forall_mem_cons.mpr ⟨by rwa [String.toList_ofList], hrest⟩, ?_⟩
      rw [hcons, String.append_assoc, hline, hc]
      rfl
    · refine ⟨c :: first, rest, by simp [Ne.symm hc, hfirst], hrest, ?_⟩
      rw [hcons, String.append_assoc, hline, ← String.append_assoc, ← String.append_assoc,
        ← String.ofList_append, List.singleton_append]

/-- The same texts with their lines told apart at every newline. -/
theorem exists_lines (h : Commented docs lines lines') (hdocs : ∀ doc ∈ docs, '\n' ∉ doc.toList) :
    ∃ split split', unlines lines = unlines split ∧ unlines lines' = unlines split' ∧
      (∀ line ∈ split', '\n' ∉ line.toList) ∧ Commented docs split split' := by
  induction h with
  | nil => exact ⟨[], [], rfl, rfl, nofun, .nil⟩
  | keep line _ ih =>
    obtain ⟨split, split', hlines, hlines', hfree, hsplit⟩ := ih hdocs
    obtain ⟨parts, hparts, hfreeParts⟩ := exists_split line
    refine ⟨parts ++ split, parts ++ split', ?_, ?_, ?_, hsplit.append_left parts⟩
    · rw [unlines, hparts, unlines_append, hlines]
    · rw [unlines, hparts, unlines_append, hlines']
    · exact List.forall_mem_append.mpr ⟨hfreeParts, hfree⟩
  | comment blanks doc _ ih =>
    obtain ⟨hdoc, hdocs⟩ := List.forall_mem_cons.mp hdocs
    obtain ⟨split, split', hlines, hlines', hfree, hsplit⟩ := ih hdocs
    refine ⟨split, _, hlines, ?_, List.forall_mem_cons.mpr ⟨?_, hfree⟩, .comment blanks doc hsplit⟩
    · rw [unlines, unlines, hlines']
    · simp [hdoc]

end Commented

/-! ## Schemas without documentation -/

/-- The declarations, each one changed. -/
def Declarations.map {α β : Type} (decls : Declarations α) (f : α → β) : Declarations β where
  entries := decls.entries.map fun entry ↦ (entry.1, f entry.2)
  nodup := by simpa [List.map_map, Function.comp_def] using decls.nodup

theorem Declarations.values_map {α β : Type} (decls : Declarations α) (f : α → β) :
    (decls.map f).values = decls.values.map f := by
  rw [values, values, map, List.map_map, List.map_map]
  rfl

theorem Declarations.get?_map {α β : Type} (decls : Declarations α) (f : α → β) (key : String) :
    (decls.map f).get? key = (decls.get? key).map f := by
  rw [get?, get?, map]
  dsimp only
  induction decls.entries with
  | nil => rfl
  | cons entry entries ih =>
    rw [List.map_cons, List.lookup_cons, List.lookup_cons, ih]
    cases key == entry.1 <;> rfl

/-- The value without documentation. -/
def EnumValue.withoutDocs (v : EnumValue) : EnumValue := { v with doc := [] }

/-- The enumeration without documentation, its own or that of a value. -/
def Enumeration.withoutDocs (e : Enumeration) : Enumeration :=
  { e with doc := [], values := e.values.map EnumValue.withoutDocs }

/-- The field without documentation. -/
def Field.withoutDocs (f : Field) : Field := { f with doc := [] }

/-- The aggregate without documentation, its own or that of a field. -/
def Aggregate.withoutDocs (a : Aggregate) : Aggregate :=
  { a with doc := [], fields := a.fields.map Field.withoutDocs }

/-- The schema without any documentation. -/
def Schema.withoutDocs (s : Schema) : Schema :=
  { s with
    enums := s.enums.map Enumeration.withoutDocs
    aggregates := s.aggregates.map Aggregate.withoutDocs }

/-- The documentation of an enumeration and of its values. -/
def Enumeration.docs (e : Enumeration) : List String := e.doc ++ e.values.flatMap EnumValue.doc

/-- The documentation of an aggregate and of the fields of it that are given. -/
def Aggregate.docsWith (a : Aggregate) (fields : List Field) : List String :=
  a.doc ++ fields.flatMap Field.doc

/-- The documentation that a header holds, in its order there: that of the declarations which are
still to be emitted, with all values of an enumeration and all fields of a struct, but with those
fields of a table only that are not deprecated. -/
def Schema.emittedDocs (s : Schema) : List String :=
  s.pendingEnums.flatMap Enumeration.docs ++
    s.pendingStructs.flatMap (fun a ↦ a.docsWith a.fields) ++
    s.pendingTables.flatMap (fun a ↦ a.docsWith a.liveFields)

/-! ## What the rest of a header reads

Namespaces, names, scopes and types are left alone, and with them every spelling. -/

section

variable {s : Schema} {options : Options}

/-- References read no documentation, and neither does what stands around declarations. -/
theorem Schema.emitsAlike_withoutDocs (s : Schema) : s.EmitsAlike s.withoutDocs where
  namespaces := rfl
  enums name := by
    have houtline (e : Enumeration) : e.withoutDocs.outline = e.outline := by
      rw [Enumeration.outline, Enumeration.outline, Enumeration.withoutDocs, List.map_map]
      rfl
    rw [withoutDocs, Declarations.get?_map, Option.map_map]
    exact congrArg (Option.map · _) (funext fun e ↦ (houtline e).symm)
  aggregates name := by
    rw [withoutDocs, Declarations.get?_map, Option.map_map]
    rfl
  outlines := by
    rw [withoutDocs, Declarations.values_map, List.map_map]
    rfl
  fileName := rfl
  rootType := rfl
  fileIdentifier := rfl
  fileExtension := rfl
  includedFiles := rfl

/-! ## Enumerations -/

theorem nameSlots_withoutDocs (next : Int64) (values : List EnumValue) :
    nameSlots next (values.map EnumValue.withoutDocs) = nameSlots next values := by
  induction values generalizing next with
  | nil => rfl
  | cons v values ih =>
    rw [List.map_cons, nameSlots, nameSlots, ih]
    rfl

theorem Enumeration.hasNameTable_withoutDocs (e : Enumeration) (maxSparseness : Int64) :
    e.withoutDocs.hasNameTable maxSparseness = e.hasNameTable maxSparseness := by
  rw [hasNameTable, hasNameTable, withoutDocs, List.head?_map, List.getLast?_map, List.length_map]
  cases e.values.head? <;> cases e.values.getLast? <;> rfl

theorem NameTable.ofEnum?_withoutDocs (e : Enumeration) :
    ofEnum? e.withoutDocs options = ofEnum? e options := by
  have hvalues : e.withoutDocs.values = e.values.map EnumValue.withoutDocs := rfl
  rw [ofEnum?, ofEnum?, Enumeration.hasNameTable_withoutDocs, hvalues]
  cases e.values with
  | nil => rfl
  | cons first rest =>
    have hslots := nameSlots_withoutDocs first.value (first :: rest)
    have htable : ofValues e.withoutDocs options first.withoutDocs
        (rest.map EnumValue.withoutDocs) = ofValues e options first rest := by
      rw [ofValues, ofValues]
      exact congrArg (NameTable.mk e.name · _) hslots
    rw [List.map_cons]
    dsimp only
    rw [htable]

theorem Dispatcher.ofEnum_withoutDocs (e : Enumeration) :
    ofEnum s options e.withoutDocs = ofEnum s options e := by
  have hvalues : e.withoutDocs.values = e.values.map EnumValue.withoutDocs := rfl
  rw [ofEnum, ofEnum, hvalues]
  cases e.values with
  | nil => rfl
  | cons first rest =>
    rw [List.map_cons]
    dsimp only
    rw [payloadCases, payloadCases, List.mapM_map]
    rfl

/-- The entry without documentation. -/
def EnumEntry.withoutDocs (entry : EnumEntry) : EnumEntry := { entry with doc := [] }

/-- The fragment without documentation. -/
def EnumFragment.withoutDocs (x : EnumFragment) : EnumFragment :=
  { x with doc := [], entries := x.entries.map EnumEntry.withoutDocs }

theorem EnumEntry.commented_linesOf (entries : List EnumEntry) :
    Commented (entries.flatMap EnumEntry.doc) (linesOf (entries.map EnumEntry.withoutDocs))
      (linesOf entries) := by
  induction entries with
  | nil => exact .nil
  | cons entry rest ih =>
    rw [List.map_cons, linesOf, linesOf, List.isEmpty_map, List.flatMap_cons]
    exact (Commented.keep _ ih).docLines_append 2 entry.doc

theorem EnumFragment.commented_declarationLines (x : EnumFragment) :
    Commented (x.doc ++ x.entries.flatMap EnumEntry.doc) x.withoutDocs.declarationLines
      x.declarationLines := by
  have hentries := EnumEntry.commented_linesOf x.entries
  rw [declarationLines, declarationLines]
  simp only [List.append_assoc, List.cons_append]
  exact (Commented.keep x.headLine (hentries.append_right _)).docLines_append 0 x.doc

theorem EnumFragment.ofEnum_withoutDocs {e : Enumeration} {x : EnumFragment}
    (h : ofEnum s options e = .ok x) :
    ofEnum s options e.withoutDocs = .ok x.withoutDocs ∧
      e.docs = x.doc ++ x.entries.flatMap EnumEntry.doc := by
  rw [ofEnum] at h ⊢
  obtain ⟨dispatcher, hdispatcher, h⟩ := Attempt.ite_bind_eq_ok.mp h
  obtain rfl := Attempt.pure_eq_ok.mp h
  refine ⟨Attempt.ite_bind_eq_ok.mpr ⟨dispatcher, ?_, ?_⟩, ?_⟩
  · rw [Dispatcher.ofEnum_withoutDocs]
    exact hdispatcher
  · rw [NameTable.ofEnum?_withoutDocs, withoutDocs, Enumeration.withoutDocs, List.map_map,
      List.map_map]
    rfl
  · rw [List.flatMap_map]
    rfl

/-! ## Structs -/

theorem StructMember.ofFields_withoutDocs (number : Nat) (fields : List Field) :
    ofFields s number (fields.map Field.withoutDocs) = ofFields s number fields := by
  induction fields generalizing number with
  | nil => rfl
  | cons f fields ih =>
    rw [List.map_cons, ofFields, ofFields]
    simp only [ih]
    rfl

theorem StructInitializer.ofFields_withoutDocs (number : Nat) (fields : List Field) :
    ofFields s number (fields.map Field.withoutDocs) = ofFields s number fields := by
  induction fields generalizing number with
  | nil => rfl
  | cons f fields ih =>
    rw [List.map_cons, ofFields, ofFields]
    simp only [ih]
    rfl

/-- The accessors without documentation. -/
def StructAccessor.withoutDocs (x : StructAccessor) : StructAccessor := { x with doc := [] }

/-- The fragment without documentation. -/
def StructFragment.withoutDocs (x : StructFragment) : StructFragment :=
  { x with doc := [], accessors := x.accessors.map StructAccessor.withoutDocs }

theorem StructAccessor.commented_lines (x : StructAccessor) :
    Commented x.doc x.withoutDocs.lines x.lines :=
  .docLines 2 x.doc x.withoutDocs.lines

theorem StructFragment.commented_lines (x : StructFragment) :
    Commented (x.doc ++ x.accessors.flatMap StructAccessor.doc) x.withoutDocs.lines x.lines := by
  have haccessors := Commented.flatMap fun a (_ : a ∈ x.accessors) ↦ a.commented_lines
  rw [lines, lines, withoutDocs, List.flatMap_map]
  simp only [List.append_assoc, docLines_nil, List.nil_append]
  refine Commented.docLines_append 0 x.doc ?_
  exact ((((haccessors.append_right _).append_left _).append_left _).append_left _).append_left _

theorem StructAccessor.ofField_withoutDocs (f : Field) :
    ofField s options f.withoutDocs = withoutDocs <$> ofField s options f := by
  have htype : f.withoutDocs.type = f.type := rfl
  rw [ofField, ofField, htype, map_bind]
  refine bind_congr fun result ↦ ?_
  rw [map_bind]
  refine bind_congr fun conversion ↦ ?_
  dsimp only
  -- the mutator is spelled after the documentation was taken, in three ways
  by_cases hmutable : options.mutableBuffer = true
  · by_cases hscalar : f.type.isScalar = true
    · simp only [if_pos hmutable, if_pos hscalar, map_bind]
      rfl
    · simp only [if_pos hmutable, if_neg hscalar, map_bind]
      rfl
  · simp only [if_neg hmutable]
    rfl

theorem StructFragment.ofAggregate_withoutDocs {a : Aggregate} {x : StructFragment}
    (h : ofAggregate s options a = .ok x) :
    ofAggregate s options a.withoutDocs = .ok x.withoutDocs ∧
      a.docsWith a.fields = x.doc ++ x.accessors.flatMap StructAccessor.doc := by
  rw [ofAggregate] at h
  obtain ⟨members, hmembers, h⟩ := Attempt.bind_eq_ok.mp h
  obtain ⟨parameters, hparameters, h⟩ := Attempt.bind_eq_ok.mp h
  obtain ⟨initializers, hinitializers, h⟩ := Attempt.bind_eq_ok.mp h
  obtain ⟨accessors, haccessors, h⟩ := Attempt.bind_eq_ok.mp h
  obtain rfl := Attempt.pure_eq_ok.mp h
  constructor
  · have hfields : a.withoutDocs.fields = a.fields.map Field.withoutDocs := rfl
    have hparameters' : (a.fields.map Field.withoutDocs).mapM (StructParameter.ofField s) =
        .ok parameters := by
      rw [List.mapM_map]
      exact hparameters
    have haccessors' : (a.fields.map Field.withoutDocs).mapM (StructAccessor.ofField s options) =
        .ok (accessors.map StructAccessor.withoutDocs) := by
      refine Attempt.mapM_map_eq_ok haccessors fun f x hx ↦ ?_
      rw [StructAccessor.ofField_withoutDocs, hx]
      rfl
    rw [ofAggregate, hfields, StructMember.ofFields_withoutDocs, hmembers, hparameters',
      StructInitializer.ofFields_withoutDocs, hinitializers, haccessors']
    rfl
  · refine congrArg (a.doc ++ ·) (Attempt.flatMap_eq_of_mapM_eq_ok haccessors fun f x hx ↦ ?_)
    obtain ⟨result, conversion, mutator, -, -, rfl, -, -⟩ := StructAccessor.of_ofField_eq_ok hx
    rfl

/-! ## Tables -/

theorem Aggregate.liveFields_withoutDocs (a : Aggregate) :
    a.withoutDocs.liveFields = a.liveFields.map Field.withoutDocs := by
  rw [liveFields, liveFields, withoutDocs, List.filter_map]
  rfl

theorem Aggregate.createOrder_withoutDocs (a : Aggregate) :
    a.withoutDocs.createOrder = a.createOrder.map Field.withoutDocs := by
  have hsort : a.withoutDocs.sortBySize = a.sortBySize := rfl
  rw [createOrder, createOrder, liveFields_withoutDocs, ← List.map_reverse, hsort]
  by_cases hsize : a.sortBySize = true
  · rw [if_pos hsize, if_pos hsize, List.map_flatMap]
    simp only [List.filter_map]
    rfl
  · rw [if_neg hsize, if_neg hsize]

/-- The accessors without documentation. -/
def TableAccessor.withoutDocs (x : TableAccessor) : TableAccessor := { x with doc := [] }

/-- The fragment without documentation. -/
def TableFragment.withoutDocs (x : TableFragment) : TableFragment :=
  { x with doc := [], accessors := x.accessors.map TableAccessor.withoutDocs }

theorem TableAccessor.commented_lines (x : TableAccessor) :
    Commented x.doc x.withoutDocs.lines x.lines :=
  .docLines 2 x.doc x.withoutDocs.lines

theorem TableFragment.commented_lines (x : TableFragment) :
    Commented (x.doc ++ x.accessors.flatMap TableAccessor.doc) x.withoutDocs.lines x.lines := by
  have haccessors := Commented.flatMap fun a (_ : a ∈ x.accessors) ↦ a.commented_lines
  rw [lines, lines, viewLines, viewLines, withoutDocs, List.flatMap_map]
  simp only [List.append_assoc, docLines_nil, List.nil_append]
  refine Commented.docLines_append 0 x.doc ?_
  exact (((haccessors.append_right _).append_left _).append_left _).append_left _

theorem TableAccessor.ofField_withoutDocs {a : Aggregate} {f : Field} {x : TableAccessor}
    (h : ofField s options a f = .ok x) :
    ofField s options a.withoutDocs f.withoutDocs = .ok x.withoutDocs ∧ f.doc = x.doc := by
  obtain ⟨stored, type, conversion, mutator, key, hstored, htype, hconversion, hmutator, hkey,
    rfl⟩ := of_ofField_eq_ok h
  refine ⟨?_, rfl⟩
  exact Attempt.bind_eq_ok.mpr ⟨stored, hstored, Attempt.bind_eq_ok.mpr ⟨type, htype,
    Attempt.bind_eq_ok.mpr ⟨conversion, hconversion, Attempt.ite_bind_eq_ok.mpr
      ⟨mutator, hmutator, Attempt.ite_bind_eq_ok.mpr ⟨key, hkey, rfl⟩⟩⟩⟩⟩

theorem TableFragment.ofAggregate_withoutDocs {a : Aggregate} {x : TableFragment}
    (h : ofAggregate s options a = .ok x) :
    ofAggregate s options a.withoutDocs = .ok x.withoutDocs ∧
      a.docsWith a.liveFields = x.doc ++ x.accessors.flatMap TableAccessor.doc := by
  rw [ofAggregate] at h
  obtain ⟨accessors, haccessors, h⟩ := Attempt.bind_eq_ok.mp h
  obtain ⟨checks, hchecks, h⟩ := Attempt.bind_eq_ok.mp h
  obtain ⟨setters, hsetters, h⟩ := Attempt.bind_eq_ok.mp h
  obtain ⟨parameters, hparameters, h⟩ := Attempt.bind_eq_ok.mp h
  obtain rfl := Attempt.pure_eq_ok.mp h
  constructor
  · -- of a field, none but the accessors are kept beside its documentation
    have hsame {β : Type} {f : Field → Emitted β} (hf : f ∘ Field.withoutDocs = f) :
        (a.liveFields.map Field.withoutDocs).mapM f = a.liveFields.mapM f := by
      rw [List.mapM_map, hf]
    have haccessors' : (a.liveFields.map Field.withoutDocs).mapM
        (TableAccessor.ofField s options a.withoutDocs) =
          .ok (accessors.map TableAccessor.withoutDocs) :=
      Attempt.mapM_map_eq_ok haccessors fun f x hx ↦ (TableAccessor.ofField_withoutDocs hx).1
    rw [ofAggregate, Aggregate.liveFields_withoutDocs, Aggregate.createOrder_withoutDocs,
      haccessors', hsame rfl, hchecks, hsame rfl, hsetters, hsame rfl, hparameters,
      List.filter_map, List.map_map, List.map_map, List.map_map]
    have hcount : a.withoutDocs.fields.length = a.fields.length := List.length_map _
    rw [hcount]
    rfl
  · exact congrArg (a.doc ++ ·) (Attempt.flatMap_eq_of_mapM_eq_ok haccessors fun f x hx ↦
      (TableAccessor.ofField_withoutDocs hx).2)

/-! ## Headers -/

/-- The part without documentation. -/
def Part.withoutDocs : Part → Part
  | .enum e => .enum e.withoutDocs
  | .struct a => .struct a.withoutDocs
  | .table a => .table a.withoutDocs
  | .dispatcher e => .dispatcher e.withoutDocs
  | part => part

/-- The documentation that a part holds. -/
def Part.docs : Part → List String
  | .enum e => e.docs
  | .struct a => a.docsWith a.fields
  | .table a => a.docsWith a.liveFields
  | _ => []

namespace Schema

/-- A part gives the lines that it gives without documentation, with its documentation put in. -/
theorem exists_commented_of_partLines {part : Part} {lines : List String}
    (h : s.partLines options part = .ok lines) :
    ∃ code, s.withoutDocs.partLines options part.withoutDocs = .ok code ∧
      Commented part.docs code lines := by
  rw [← s.emitsAlike_withoutDocs.partLines_eq]
  cases part with
  | enum e =>
    obtain ⟨x, hx, rfl⟩ := Attempt.map_eq_ok.mp h
    obtain ⟨hcode, hdocs⟩ := EnumFragment.ofEnum_withoutDocs hx
    refine ⟨_, Attempt.map_eq_ok.mpr ⟨_, hcode, rfl⟩, ?_⟩
    rw [Part.docs, hdocs]
    exact x.commented_declarationLines
  | struct a =>
    obtain ⟨x, hx, rfl⟩ := Attempt.map_eq_ok.mp h
    obtain ⟨hcode, hdocs⟩ := StructFragment.ofAggregate_withoutDocs hx
    refine ⟨_, Attempt.map_eq_ok.mpr ⟨_, hcode, rfl⟩, ?_⟩
    rw [Part.docs, hdocs]
    exact x.commented_lines
  | table a =>
    obtain ⟨x, hx, rfl⟩ := Attempt.map_eq_ok.mp h
    obtain ⟨hcode, hdocs⟩ := TableFragment.ofAggregate_withoutDocs hx
    refine ⟨_, Attempt.map_eq_ok.mpr ⟨_, hcode, rfl⟩, ?_⟩
    rw [Part.docs, hdocs]
    exact x.commented_lines
  | dispatcher e =>
    obtain ⟨x, hx, rfl⟩ := Attempt.map_eq_ok.mp h
    have hcode := (EnumFragment.ofEnum_withoutDocs hx).1
    exact ⟨_, Attempt.map_eq_ok.mpr ⟨_, hcode, rfl⟩, .refl x.dispatcherLines⟩
  | opening | includes | otherForwards | scopeOpening | activeForwards | helpers | scopeClosing
  | closing => exact ⟨lines, h, .refl lines⟩

theorem partGroups_withoutDocs (s : Schema) :
    s.withoutDocs.partGroups.flatten = s.partGroups.flatten.map Part.withoutDocs := by
  have henums : s.withoutDocs.pendingEnums = s.pendingEnums.map Enumeration.withoutDocs := by
    rw [pendingEnums, pendingEnums, withoutDocs, Declarations.values_map, List.filter_map]
    rfl
  have hstructs : s.withoutDocs.pendingStructs = s.pendingStructs.map Aggregate.withoutDocs := by
    rw [pendingStructs, pendingStructs, withoutDocs, Declarations.values_map, List.filter_map]
    rfl
  have htables : s.withoutDocs.pendingTables = s.pendingTables.map Aggregate.withoutDocs := by
    rw [pendingTables, pendingTables, withoutDocs, Declarations.values_map, List.filter_map]
    rfl
  rw [partGroups, partGroups, henums, hstructs, htables]
  simp [Part.withoutDocs, Function.comp_def]

/-- The parts hold the documentation of the schema in its order. -/
theorem flatMap_docs_partGroups (s : Schema) :
    s.partGroups.flatten.flatMap Part.docs = s.emittedDocs := by
  simp [partGroups, emittedDocs, Part.docs, List.flatMap_map]

theorem isEmpty_withoutDocs (s : Schema) : s.withoutDocs.isEmpty = s.isEmpty := by
  rw [isEmpty, isEmpty, withoutDocs, Declarations.values_map, Declarations.values_map,
    List.all_map, List.all_map]
  rfl

theorem LaidOut.exists_commented {layout : List Piece} (h : s.LaidOut options layout) :
    ∃ layout', s.withoutDocs.LaidOut options layout' ∧
      Commented s.emittedDocs (layout'.flatMap Piece.lines) (layout.flatMap Piece.lines) := by
  have hcode : ∀ piece ∈ layout, ∃ code,
      s.withoutDocs.partLines options piece.part.withoutDocs = .ok code ∧
        Commented piece.part.docs code piece.lines :=
    fun piece hpiece ↦ exists_commented_of_partLines (h.lines piece hpiece)
  choose! code hcode hcommented using hcode
  refine ⟨layout.map fun piece ↦ ⟨piece.part.withoutDocs, code piece⟩, ⟨?_, ?_⟩, ?_⟩
  · rw [partGroups_withoutDocs, ← h.parts, List.map_map, List.map_map]
    rfl
  · rw [List.forall_mem_map]
    exact hcode
  · have hlines := Commented.flatMap hcommented
    rw [← flatMap_docs_partGroups, ← h.parts, List.flatMap_map, List.flatMap_map]
    exact hlines

end Schema

end

/-- **Documentation stays out of the code.** Let a loaded schema have no wide mask of padding and no
newline in the documentation that it has still to emit. Its header is the header of the schema
without documentation with whole lines put in. Each of them is a comment that holds one entry of the
documentation, and the entries are those of the declarations that are still to be emitted, in their
order: none is lost and none comes twice. -/
theorem documentation_only_comments {d : Document} {s : Schema} (h : Schema.ofDocument d = .ok s)
    (hpadding : ∀ a ∈ s.pendingStructs, ∀ f ∈ a.fields, f.padding ≤ 15)
    (hdocs : ∀ doc ∈ s.emittedDocs, '\n' ∉ doc.toList) (options : Options) :
    ∃ code lines, s.withoutDocs.generate options = .ok (unlines code) ∧
      s.generate options = .ok (unlines lines) ∧ (∀ line ∈ lines, '\n' ∉ line.toList) ∧
      Commented s.emittedDocs code lines := by
  by_cases hempty : s.isEmpty = true
  · have hnone : s.emittedDocs = [] := by
      rw [Schema.isEmpty_eq, Bool.and_eq_true, Bool.and_eq_true] at hempty
      simp only [List.isEmpty_iff] at hempty
      rw [Schema.emittedDocs, hempty.1.1, hempty.1.2, hempty.2]
      rfl
    refine ⟨[], [], ?_, Schema.generate_eq_empty_iff.mpr hempty, nofun, ?_⟩
    · exact Schema.generate_eq_empty_iff.mpr (s.isEmpty_withoutDocs.trans hempty)
    · rw [hnone]
      exact .nil
  · have hpending : s.isEmpty = false := Bool.eq_false_iff.mpr hempty
    obtain ⟨layout, hlayout⟩ :=
      (Schema.sound_of_ofDocument h).exists_laidOut hpending hpadding options
    obtain ⟨layout', hlayout', hcommented⟩ := hlayout.exists_commented
    obtain ⟨code, lines, hcode, hlines, hfree, hcommented⟩ := hcommented.exists_lines hdocs
    refine ⟨code, lines, ?_, ?_, hfree, hcommented⟩
    · rw [← hcode]
      exact hlayout'.generate_eq (s.isEmpty_withoutDocs.trans hpending)
    · rw [← hlines]
      exact hlayout.generate_eq hpending

/-- The document with a table between two structs, with documentation on everything. One field of
the table is deprecated, and one struct is generated already. -/
def documentedDocument : Document :=
  { sceneDocument with
    enums := [⟨"Any", 0, .utype,
      [⟨"NONE", 0, [" nothing"], none⟩, ⟨"Scene", 1, [], some "Game.Scene"⟩], true,
        [" What a scene", " leads to."], false⟩]
    aggregates := [
      { cornerStruct with doc := [" A corner."], generated := true },
      { sceneTable with
        doc := [" A scene."]
        fields := [⟨"next", .union "Game.Any", 4, "0", false, false, false, 0, none, [" next"]⟩,
          ⟨"old", .bool, 6, "0", true, false, false, 0, none, [" unused"]⟩] },
      { boxStruct with
        fields := [⟨"low", .aggregate "Game.Corner" true, 0, "0", false, false, false, 0, none,
          [" */ int x;"]⟩] }] }

/-- The field of the struct comes before the table, and what is deprecated or generated is left out.
No text gets out of its comment. -/
theorem documentation_only_comments_scene : ∃ s code lines,
    Schema.ofDocument documentedDocument = .ok s ∧
    (∀ a ∈ s.pendingStructs, ∀ f ∈ a.fields, f.padding ≤ 15) ∧
    (∀ doc ∈ s.emittedDocs, '\n' ∉ doc.toList) ∧
    s.withoutDocs.generate {} = .ok (unlines code) ∧ s.generate {} = .ok (unlines lines) ∧
    Commented [" What a scene", " leads to.", " nothing", " */ int x;", " A scene.", " next"]
      code lines := by
  obtain ⟨s, hs, hpadding, hemitted, hdocs⟩ : ∃ s, Schema.ofDocument documentedDocument = .ok s ∧
      (∀ a ∈ s.pendingStructs, ∀ f ∈ a.fields, f.padding ≤ 15) ∧
      s.emittedDocs =
        [" What a scene", " leads to.", " nothing", " */ int x;", " A scene.", " next"] ∧
      ∀ doc ∈ s.emittedDocs, '\n' ∉ doc.toList :=
    ⟨_, rfl, by decide, rfl, by decide⟩
  obtain ⟨code, lines, hcode, hlines, -, hcommented⟩ :=
    documentation_only_comments hs hpadding hdocs {}
  exact ⟨s, code, lines, hs, hpadding, hdocs, hcode, hlines, hemitted ▸ hcommented⟩

end BufferSchema
