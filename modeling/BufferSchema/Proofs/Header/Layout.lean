import BufferSchema.Proofs.Header.Dispatch
import BufferSchema.Proofs.Header.Forward

/-!
# The order of a header

A header is a list of parts, and each part has its lines. The parts come in phases: whatever is of
an earlier phase stands before whatever is of a later one, and within the phase of structs the order
is that of the aggregates. A definition stands before its uses for one of these two reasons: the use
belongs to a later phase, or both are structs and the aggregates are in the right order.
-/

namespace BufferSchema

/-! ## Parts -/

/-- A part of a header. The parts of declarations go by the declaration. -/
inductive Part where
  | opening
  | includes
  | otherForwards
  | scopeOpening
  | activeForwards
  | enum (e : Enumeration)
  | struct (a : Aggregate)
  | table (a : Aggregate)
  | dispatcher (e : Enumeration)
  | helpers
  | scopeClosing
  | closing
  deriving DecidableEq, Repr

/-- The position of a part among the kinds of parts. -/
def Part.phase : Part → Nat
  | .opening => 0
  | .includes => 1
  | .otherForwards => 2
  | .scopeOpening => 3
  | .activeForwards => 4
  | .enum _ => 5
  | .struct _ => 6
  | .table _ => 7
  | .dispatcher _ => 8
  | .helpers => 9
  | .scopeClosing => 10
  | .closing => 11

/-- A part with its lines. -/
structure Piece where
  part : Part
  lines : List String

/-! ## Lines of parts -/

/-- The line that begins the declaration of an enumeration. -/
def Enumeration.declarationHead (e : Enumeration) (options : Options) : String :=
  if options.scopedEnums then "enum class " ++ e.name ++ " : " ++ e.underlying.spelling ++ " \x7b"
  else "enum " ++ e.name ++ " \x7b"

/-- The lines that define inline functions, a blank line behind each. -/
def helperLines (helpers : List InlineFunction) : List String :=
  helpers.flatMap fun helper ↦
    ["inline " ++ helper.result ++ helper.name ++ "(" ++ helper.parameters ++ ")" ++ " \x7b " ++
      helper.statement ++ " \x7d", ""]

theorem EnumFragment.headLine_of_ofEnum {s : Schema} {options : Options} {e : Enumeration}
    {fragment : EnumFragment} (h : EnumFragment.ofEnum s options e = .ok fragment) :
    fragment.headLine = e.declarationHead options := by
  rw [ofEnum] at h
  obtain ⟨dispatcher, -, h⟩ := Attempt.ite_bind_eq_ok.mp h
  obtain rfl := Attempt.pure_eq_ok.mp h
  rw [headLine, Enumeration.declarationHead]
  cases options.scopedEnums <;> rfl

/-- Every field of a struct has a member. -/
theorem StructMember.exists_field_of_ofFields {s : Schema} {number : Nat} {fields : List Field}
    {members : List StructMember} (h : StructMember.ofFields s number fields = .ok members)
    {f : Field} (hf : f ∈ fields) :
    ∃ type, s.viewSpelling " " "" " " false f.type = .ok type ∧ .field type f.name ∈ members := by
  induction fields generalizing number members with
  | nil => exact absurd hf List.not_mem_nil
  | cons g fields ih =>
    rw [StructMember.ofFields] at h
    obtain ⟨type, htype, h⟩ := Attempt.bind_eq_ok.mp h
    obtain ⟨widths, -, h⟩ := Attempt.bind_eq_ok.mp h
    obtain ⟨rest, hrest, h⟩ := Attempt.bind_eq_ok.mp h
    obtain rfl := Attempt.pure_eq_ok.mp h
    rcases List.mem_cons.mp hf with rfl | hf
    · exact ⟨type, htype, List.mem_cons_self⟩
    · obtain ⟨type', htype', hmem⟩ := ih hrest hf
      exact ⟨type', htype', List.mem_append_right _ hmem⟩

/-! ## Layouts -/

namespace Schema

variable {s : Schema} {options : Options}

/-- The parts of the header of a schema. -/
def HasPart (s : Schema) : Part → Prop
  | .enum e | .dispatcher e => e ∈ s.enums.values ∧ e.generated = false
  | .struct a => a ∈ s.aggregates.values ∧ a.generated = false ∧ a.fixed = true
  | .table a => a ∈ s.aggregates.values ∧ a.generated = false ∧ a.fixed = false
  | .opening | .includes | .otherForwards | .scopeOpening | .activeForwards | .helpers
  | .scopeClosing | .closing => True

/-- The fixed aggregates that the fields of an aggregate hold inline. -/
def inlineMembers (s : Schema) (a : Aggregate) : List Aggregate :=
  a.fields.filterMap fun f ↦
    match f.type with
    | .aggregate target true => s.aggregates.get? target
    | _ => none

/-- The members of a struct are generated already or come before it. -/
def MembersFirst (s : Schema) : Prop :=
  ∀ b ∈ s.aggregates.values, b.fixed = true → ∀ a ∈ s.inlineMembers b,
    a.generated = true ∨ [a, b].Sublist s.aggregates.values

instance (s : Schema) : Decidable s.MembersFirst :=
  inferInstanceAs (Decidable (∀ b ∈ s.aggregates.values, b.fixed = true →
    ∀ a ∈ s.inlineMembers b, a.generated = true ∨ [a, b].Sublist s.aggregates.values))

/-- What a part puts into the header. -/
def Contributes (s : Schema) (options : Options) : Part → List String → Prop
  | .opening, lines => lines =
      ["// automatically generated by the FlatBuffers compiler, do not modify", "",
        "#ifndef " ++ s.includeGuard, "#define " ++ s.includeGuard, "",
        "#include \"flatbuffers/flatbuffers.h\"", ""]
  | .includes, lines => lines = if options.includeDependenceHeaders then s.includeLines else []
  | .otherForwards, lines => ∃ forward, s.forwardDeclarations = .ok forward ∧
      lines = forward.otherLines ++ [""] ∧
      ∀ a ∈ s.otherAggregates, "struct " ++ a.name ++ ";" ∈ lines
  | .scopeOpening, lines => lines =
      s.activeNamespace.components.map (fun component ↦ "namespace " ++ component ++ " \x7b") ++
        [""]
  | .activeForwards, lines => ∃ forward, s.forwardDeclarations = .ok forward ∧
      lines = forward.activeLines ++ [""] ∧
      ∀ a ∈ s.activeAggregates, "struct " ++ a.name ++ ";" ∈ lines
  | .enum e, lines => ∃ fragment, EnumFragment.ofEnum s options e = .ok fragment ∧
      lines = fragment.declarationLines ∧ e.declarationHead options ∈ lines ∧
      (e.isUnion = true → dispatcherHead e.name ++ ";" ∈ lines)
  | .struct a, lines => ∃ fragment, StructFragment.ofAggregate s options a = .ok fragment ∧
      lines = fragment.lines ∧
      "MANUALLY_ALIGNED_STRUCT(" ++ toString a.minAlign.toNat ++ ") " ++ a.name ++
        " FLATBUFFERS_FINAL_CLASS \x7b" ∈ lines ∧
      ∀ f ∈ a.fields, ∀ target, f.type = .aggregate target true →
        ∃ spelling, s.pointee f.type = .ok spelling ∧
          "  " ++ spelling ++ " " ++ f.name ++ "_;" ∈ lines
  | .table a, lines => ∃ fragment, TableFragment.ofAggregate s options a = .ok fragment ∧
      lines = fragment.lines ∧
      "struct " ++ a.name ++ " FLATBUFFERS_FINAL_CLASS : private flatbuffers::Table \x7b" ∈ lines ∧
      ∀ f ∈ a.liveFields, ∀ target, f.type = .aggregate target true →
        ∃ spelling before after, s.pointee f.type = .ok spelling ∧
          before ++ ("VerifyField" ++ (if f.required then "Required" else "") ++ "<" ++ spelling ++
            ">(verifier, " ++ slotConstant f.name ++ ")") ++ after ∈ lines
  | .dispatcher e, lines => ∃ fragment, EnumFragment.ofEnum s options e = .ok fragment ∧
      lines = fragment.dispatcherLines ∧
      (e.isUnion = true → lines.head? = some (dispatcherHead e.name ++ " \x7b"))
  | .helpers, lines => ∃ helpers, s.rootHelpers options = .ok helpers ∧
      lines = helperLines helpers
  | .scopeClosing, lines => lines =
      s.activeNamespace.components.reverse.map fun component ↦ "\x7d  // namespace " ++ component
  | .closing, lines => lines = ["", "#endif  // " ++ s.includeGuard]

/-- A header that is laid out in its order. -/
structure IsLayout (s : Schema) (options : Options) (layout : List Piece) : Prop where
  contributes : ∀ piece ∈ layout, s.Contributes options piece.part piece.lines
  /-- No part comes twice. -/
  once : (layout.map Piece.part).Nodup
  /-- No part is missing. -/
  complete : ∀ part, part ∈ layout.map Piece.part ↔ s.HasPart part
  /-- Parts of an earlier phase come before those of a later one. -/
  phases : ∀ p ∈ layout.map Piece.part, ∀ q ∈ layout.map Piece.part, p.phase < q.phase →
    [p, q].Sublist (layout.map Piece.part)
  /-- What an aggregate holds inline comes before it. -/
  members_first : ∀ a b, a ∈ s.inlineMembers b → .struct a ∈ layout.map Piece.part →
    ∀ q ∈ layout.map Piece.part, q = .struct b ∨ q = .table b →
      [.struct a, q].Sublist (layout.map Piece.part)

/-! ## The list of parts -/

/-- The parts in their order, one list for each phase. -/
def partGroups (s : Schema) : List (List Part) :=
  [[.opening], [.includes], [.otherForwards], [.scopeOpening], [.activeForwards],
    s.pendingEnums.map .enum, s.pendingStructs.map .struct, s.pendingTables.map .table,
    s.pendingEnums.map .dispatcher, [.helpers], [.scopeClosing], [.closing]]

theorem pairwise_phase_partGroups :
    s.partGroups.flatten.Pairwise fun p q ↦ p.phase ≤ q.phase := by
  have hpending {α : Type} (l : List α) : l.Pairwise fun _ _ ↦ True :=
    List.pairwise_of_forall fun _ _ ↦ trivial
  rw [List.pairwise_flatten]
  simp [partGroups, List.pairwise_map, Part.phase, hpending]

theorem mem_partGroups_iff {part : Part} : part ∈ s.partGroups.flatten ↔ s.HasPart part := by
  cases part <;> simp [partGroups, HasPart, pendingEnums, pendingStructs, pendingTables]

theorem nodup_partGroups (henums : s.enums.values.Nodup)
    (haggregates : s.aggregates.values.Nodup) : s.partGroups.flatten.Nodup := by
  have henums : s.pendingEnums.Nodup := henums.filter _
  have hstructs : s.pendingStructs.Nodup := haggregates.filter _
  have htables : s.pendingTables.Nodup := haggregates.filter _
  have henum : Function.Injective Part.enum := fun _ _ h ↦ Part.enum.inj h
  have hstruct : Function.Injective Part.struct := fun _ _ h ↦ Part.struct.inj h
  have htable : Function.Injective Part.table := fun _ _ h ↦ Part.table.inj h
  have hdispatcher : Function.Injective Part.dispatcher := fun _ _ h ↦ Part.dispatcher.inj h
  rw [List.nodup_flatten]
  constructor
  · simp [partGroups, List.nodup_map_iff, *]
  · simp [partGroups, List.Disjoint]

/-- Of two parts the one of the earlier phase comes first. -/
theorem sublist_partGroups_of_phase_lt {p q : Part} (hp : p ∈ s.partGroups.flatten)
    (hq : q ∈ s.partGroups.flatten) (h : p.phase < q.phase) :
    [p, q].Sublist s.partGroups.flatten := by
  have hordered := pairwise_phase_partGroups (s := s)
  obtain ⟨before, after, hsplit⟩ := List.append_of_mem hp
  rw [hsplit] at hq hordered ⊢
  rcases List.mem_append.mp hq with hq | hq
  · have hle : q.phase ≤ p.phase :=
      (List.pairwise_append.mp hordered).2.2 q hq p List.mem_cons_self
    omega
  · have hq : q ∈ after := by
      refine (List.mem_cons.mp hq).resolve_left fun heq ↦ ?_
      rw [heq] at h
      omega
    exact ((List.singleton_sublist.mpr hq).cons_cons p).trans (List.sublist_append_right _ _)

/-- Of two structs the one that is declared first comes first. -/
theorem sublist_partGroups_of_sublist {a b : Aggregate} (ha : .struct a ∈ s.partGroups.flatten)
    (hb : .struct b ∈ s.partGroups.flatten) (h : [a, b].Sublist s.aggregates.values) :
    [.struct a, .struct b].Sublist s.partGroups.flatten := by
  obtain ⟨-, hgenerated, hfixed⟩ := mem_partGroups_iff.mp ha
  obtain ⟨-, hgenerated', hfixed'⟩ := mem_partGroups_iff.mp hb
  have hpending : [a, b].Sublist s.pendingStructs := by
    have hfilter := h.filter fun a ↦ !a.generated && a.fixed
    simpa [pendingStructs, hgenerated, hfixed, hgenerated', hfixed'] using hfilter
  have hgroup : s.pendingStructs.map Part.struct ∈ s.partGroups := by simp [partGroups]
  exact (hpending.map Part.struct).trans (List.sublist_flatten_of_mem hgroup)

/-! ## The pieces of a header -/

/-- A header holds what the schema has still to emit, and what stands around it. -/
structure EmitsHeader (s : Schema) (options : Options) (header : Header) : Prop where
  enums : List.Forall₂ (fun e x ↦ EnumFragment.ofEnum s options e = .ok x)
    s.pendingEnums header.enums
  structs : List.Forall₂ (fun a x ↦ StructFragment.ofAggregate s options a = .ok x)
    s.pendingStructs header.structs
  tables : List.Forall₂ (fun a x ↦ TableFragment.ofAggregate s options a = .ok x)
    s.pendingTables header.tables
  forward : s.forwardDeclarations = .ok header.forward
  helpers : s.rootHelpers options = .ok header.helpers
  guard : header.guard = s.includeGuard
  includes : header.includes = if options.includeDependenceHeaders then s.includeLines else []
  scope : header.scope = s.activeNamespace

/-- The text of a header, or nothing where there is nothing to emit. -/
theorem of_generate_eq_ok {text : String} (h : s.generate options = .ok text) :
    (text = "" ∧ s.isEmpty = true) ∨
      ∃ header, s.EmitsHeader options header ∧ text = unlines header.lines := by
  rw [generate, header?] at h
  obtain ⟨header?, hheader, h⟩ := Attempt.bind_eq_ok.mp h
  obtain ⟨enums, henums, hheader⟩ := Attempt.bind_eq_ok.mp hheader
  obtain ⟨structs, hstructs, hheader⟩ := Attempt.bind_eq_ok.mp hheader
  obtain ⟨tables, htables, hheader⟩ := Attempt.bind_eq_ok.mp hheader
  rw [isBlank_eq_isEmpty henums hstructs htables] at hheader
  split at hheader
  · next hempty =>
    obtain rfl := Attempt.pure_eq_ok.mp hheader
    exact .inl ⟨(Attempt.pure_eq_ok.mp h).symm, hempty⟩
  · obtain ⟨forward, hforward, hheader⟩ := Attempt.bind_eq_ok.mp hheader
    obtain ⟨helpers, hhelpers, hheader⟩ := Attempt.bind_eq_ok.mp hheader
    obtain rfl := Attempt.pure_eq_ok.mp hheader
    refine .inr ⟨_, ?_, (Attempt.pure_eq_ok.mp h).symm⟩
    exact ⟨Attempt.mapM_eq_ok.mp henums, Attempt.mapM_eq_ok.mp hstructs,
      Attempt.mapM_eq_ok.mp htables, hforward, hhelpers, rfl, rfl, rfl⟩

theorem ne_empty_of_generate {text : String} (h : s.generate options = .ok text)
    (hpending : s.isEmpty = false) : text ≠ "" := by
  rcases of_generate_eq_ok h with ⟨-, hempty⟩ | ⟨header, -, rfl⟩
  · rw [hpending] at hempty
    exact nomatch hempty
  · intro hnil
    have hlength := congrArg String.length hnil
    simp [Header.lines, unlines] at hlength

/-! ## Emitted lines -/

theorem contributes_enum {e : Enumeration} {fragment : EnumFragment}
    (h : EnumFragment.ofEnum s options e = .ok fragment) :
    s.Contributes options (.enum e) fragment.declarationLines := by
  refine ⟨fragment, h, rfl, ?_, fun hunion ↦ ?_⟩
  · rw [← EnumFragment.headLine_of_ofEnum h, EnumFragment.declarationLines]
    simp
  · exact ((EnumFragment.definesDispatcher_iff h).mpr hunion).1

theorem contributes_dispatcher {e : Enumeration} {fragment : EnumFragment}
    (h : EnumFragment.ofEnum s options e = .ok fragment) :
    s.Contributes options (.dispatcher e) fragment.dispatcherLines :=
  ⟨fragment, h, rfl, fun hunion ↦ ((EnumFragment.definesDispatcher_iff h).mpr hunion).2⟩

theorem contributes_struct {a : Aggregate} {fragment : StructFragment}
    (h : StructFragment.ofAggregate s options a = .ok fragment) :
    s.Contributes options (.struct a) fragment.lines := by
  have hfragment := h
  rw [StructFragment.ofAggregate] at h
  obtain ⟨members, hmembers, h⟩ := Attempt.bind_eq_ok.mp h
  obtain ⟨parameters, -, h⟩ := Attempt.bind_eq_ok.mp h
  obtain ⟨initializers, -, h⟩ := Attempt.bind_eq_ok.mp h
  obtain ⟨accessors, -, h⟩ := Attempt.bind_eq_ok.mp h
  obtain rfl := Attempt.pure_eq_ok.mp h
  refine ⟨_, hfragment, rfl, ?_, fun f hf target htype ↦ ?_⟩
  · simp [StructFragment.lines]
  obtain ⟨type, hview, hmember⟩ := StructMember.exists_field_of_ofFields hmembers hf
  have hscalar : f.type.isScalar = false := by rw [htype]; rfl
  rw [viewSpelling_of_not_isScalar hscalar] at hview
  obtain ⟨spelling, hspelling, rfl⟩ := Attempt.map_eq_ok.mp hview
  refine ⟨spelling, hspelling, ?_⟩
  have hline : "  " ++ spelling ++ " " ++ f.name ++ "_;" =
      (StructMember.field ("" ++ spelling ++ " ") f.name).line := by
    simp only [StructMember.line, String.empty_append, String.append_assoc]
  rw [hline]
  simp only [StructFragment.lines, List.mem_append]
  exact .inl (.inl (.inl (.inl (.inr (List.mem_map_of_mem hmember)))))

theorem contributes_table {a : Aggregate} {fragment : TableFragment}
    (h : TableFragment.ofAggregate s options a = .ok fragment) :
    s.Contributes options (.table a) fragment.lines := by
  refine ⟨fragment, h, rfl, ?_, fun f hf target htype ↦ ?_⟩
  · rw [← TableFragment.name_of_ofAggregate h]
    simp [TableFragment.lines, TableFragment.viewLines]
  obtain ⟨checks, hchecks, hsubset⟩ := TableFragment.exists_fieldChecks h hf
  obtain ⟨spelling, content, hspelling, -, rfl⟩ := Check.of_ofField_eq_ok hchecks
  obtain ⟨before, after, hline⟩ := TableFragment.checkLine_mem (hsubset List.mem_cons_self)
  have hpointee : s.sizeSpelling f.type = s.pointee f.type := by rw [htype]; rfl
  rw [hpointee] at hspelling
  have htext : (Check.slot f.required spelling (slotConstant f.name)).text =
      "VerifyField" ++ (if f.required then "Required" else "") ++ "<" ++ spelling ++
        ">(verifier, " ++ slotConstant f.name ++ ")" := rfl
  rw [htext] at hline
  refine ⟨spelling, before, after, hspelling, ?_⟩
  exact List.mem_append_left _ (List.mem_append_left _ hline)

section pieces

variable {α β : Type} {R : α → β → Prop} {xs : List α} {ys : List β}

/-- The pieces of declarations whose fragments are known. -/
private theorem exists_pieces (h : List.Forall₂ R xs ys) (part : α → Part)
    (lines : β → List String) :
    ∃ layout : List Piece, layout.map Piece.part = xs.map part ∧
      layout.flatMap Piece.lines = ys.flatMap lines ∧
      ∀ piece ∈ layout, ∃ x y, R x y ∧ piece = ⟨part x, lines y⟩ := by
  induction h with
  | nil => exact ⟨[], rfl, rfl, nofun⟩
  | @cons x y xs ys hxy _ ih =>
    obtain ⟨layout, hparts, hlines, hpieces⟩ := ih
    refine ⟨⟨part x, lines y⟩ :: layout, ?_, ?_,
      List.forall_mem_cons.mpr ⟨⟨x, y, hxy, rfl⟩, hpieces⟩⟩
    · rw [List.map_cons, List.map_cons, hparts]
    · rw [List.flatMap_cons, List.flatMap_cons, hlines]

end pieces

/-- A header is cut into its parts. -/
theorem EmitsHeader.exists_layout {header : Header} (h : s.EmitsHeader options header) :
    ∃ layout : List Piece, layout.map Piece.part = s.partGroups.flatten ∧
      layout.flatMap Piece.lines = header.lines ∧
      ∀ piece ∈ layout, s.Contributes options piece.part piece.lines := by
  obtain ⟨enums, henumParts, henumLines, henumPieces⟩ :=
    exists_pieces h.enums .enum EnumFragment.declarationLines
  obtain ⟨structs, hstructParts, hstructLines, hstructPieces⟩ :=
    exists_pieces h.structs .struct StructFragment.lines
  obtain ⟨tables, htableParts, htableLines, htablePieces⟩ :=
    exists_pieces h.tables .table TableFragment.lines
  obtain ⟨dispatchers, hdispatcherParts, hdispatcherLines, hdispatcherPieces⟩ :=
    exists_pieces h.enums .dispatcher EnumFragment.dispatcherLines
  obtain ⟨hactiveLine, hotherLine⟩ := forwardLine_mem h.forward
  -- what has a fixed place stands around the four lists of fragments
  let opening : List Piece :=
    [⟨.opening, ["// automatically generated by the FlatBuffers compiler, do not modify", "",
        "#ifndef " ++ header.guard, "#define " ++ header.guard, "",
        "#include \"flatbuffers/flatbuffers.h\"", ""]⟩,
      ⟨.includes, header.includes⟩,
      ⟨.otherForwards, header.forward.otherLines ++ [""]⟩,
      ⟨.scopeOpening, header.scope.openLines ++ [""]⟩,
      ⟨.activeForwards, header.forward.activeLines ++ [""]⟩]
  let closing : List Piece :=
    [⟨.helpers, header.helpers.flatMap fun helper ↦ [helper.line, ""]⟩,
      ⟨.scopeClosing, header.scope.closeLines⟩,
      ⟨.closing, ["", "#endif  // " ++ header.guard]⟩]
  have hopening : ∀ piece ∈ opening, s.Contributes options piece.part piece.lines := by
    simp only [opening, List.forall_mem_cons]
    refine ⟨by rw [h.guard]; rfl, h.includes, ⟨_, h.forward, rfl, fun a ha ↦ ?_⟩,
      by rw [h.scope]; rfl, ⟨_, h.forward, rfl, fun a ha ↦ ?_⟩, nofun⟩
    · exact List.mem_append_left _ (hotherLine a ha)
    · exact List.mem_append_left _ (hactiveLine a ha)
  have hclosing : ∀ piece ∈ closing, s.Contributes options piece.part piece.lines := by
    simp only [closing, List.forall_mem_cons]
    exact ⟨⟨_, h.helpers, rfl⟩, by rw [h.scope]; rfl, by rw [h.guard]; rfl, nofun⟩
  refine ⟨opening ++ (enums ++ (structs ++ (tables ++ (dispatchers ++ closing)))), ?_, ?_, ?_⟩
  · simp [opening, closing, partGroups, henumParts, hstructParts, htableParts, hdispatcherParts]
  · simp [opening, closing, Header.lines, henumLines, hstructLines, htableLines, hdispatcherLines]
  · simp only [List.forall_mem_append]
    refine ⟨hopening, ?_, ?_, ?_, ?_, hclosing⟩
    · intro piece hpiece
      obtain ⟨e, fragment, hfragment, rfl⟩ := henumPieces piece hpiece
      exact contributes_enum hfragment
    · intro piece hpiece
      obtain ⟨a, fragment, hfragment, rfl⟩ := hstructPieces piece hpiece
      exact contributes_struct hfragment
    · intro piece hpiece
      obtain ⟨a, fragment, hfragment, rfl⟩ := htablePieces piece hpiece
      exact contributes_table hfragment
    · intro piece hpiece
      obtain ⟨e, fragment, hfragment, rfl⟩ := hdispatcherPieces piece hpiece
      exact contributes_dispatcher hfragment

/-- The declarations of a loaded schema do not repeat, because their names do not. -/
theorem nodup_of_ofDocument {d : Document} (h : Schema.ofDocument d = .ok s) :
    s.enums.values.Nodup ∧ s.aggregates.values.Nodup := by
  obtain ⟨enums, aggregates, t, rfl, -⟩ := Schema.ofDocument_eq_ok.mp h
  exact ⟨Declarations.nodup_values (fun e ↦ d.qualifiedName? e.scope e.name) t.enum_names,
    Declarations.nodup_values (fun a ↦ d.qualifiedName? a.scope a.name) t.aggregate_names⟩

end Schema

/-- **Definition before use.** Where the structs of a loaded schema come after their members, a
header that is not empty is cut into parts. Each declaration that is still to be emitted has its
part, behind the forward declarations of all aggregates and inside of the active namespace and the
include guard; enumerations come first, then structs, tables, the bodies of dispatchers and the root
helpers; and what a struct stores or a table checks inline is defined before it. -/
theorem header_laid_out {d : Document} {s : Schema} (h : Schema.ofDocument d = .ok s)
    (hmembers : s.MembersFirst) {options : Options} {text : String}
    (hgenerate : s.generate options = .ok text) (hne : text ≠ "") :
    ∃ layout : List Piece, text = unlines (layout.flatMap Piece.lines) ∧
      s.IsLayout options layout := by
  rcases Schema.of_generate_eq_ok hgenerate with ⟨hempty, -⟩ | ⟨header, hheader, rfl⟩
  · exact absurd hempty hne
  obtain ⟨layout, hparts, hlines, hpieces⟩ := hheader.exists_layout
  obtain ⟨henums, haggregates⟩ := Schema.nodup_of_ofDocument h
  refine ⟨layout, by rw [hlines], ?_⟩
  refine
    { contributes := hpieces
      once := hparts ▸ Schema.nodup_partGroups henums haggregates
      complete := fun part ↦ hparts ▸ Schema.mem_partGroups_iff
      phases := ?_
      members_first := ?_ }
  · rw [hparts]
    exact fun p hp q hq ↦ Schema.sublist_partGroups_of_phase_lt hp hq
  · rw [hparts]
    rintro a b ha hstruct q hq (rfl | rfl)
    · obtain ⟨hmem, -, hfixed⟩ := Schema.mem_partGroups_iff.mp hq
      rcases hmembers b hmem hfixed a ha with hgenerated | hfirst
      · rw [(Schema.mem_partGroups_iff.mp hstruct).2.1] at hgenerated
        exact nomatch hgenerated
      · exact Schema.sublist_partGroups_of_sublist hstruct hq hfirst
    · exact Schema.sublist_partGroups_of_phase_lt hstruct hq (Nat.lt_succ_self 6)

/-- A struct that another one holds. -/
def cornerStruct : Aggregate :=
  ⟨"Corner", 0, true, [⟨"x", .scalar .int none, 0, "0", false, false, false, 0, none, []⟩], 4, 4,
    false, [], false⟩

/-- A struct that holds a struct. -/
def boxStruct : Aggregate :=
  ⟨"Box", 0, true,
    [⟨"low", .aggregate "Game.Corner" true, 0, "0", false, false, false, 0, none, []⟩], 4, 4,
    false, [], false⟩

/-- A table that checks a struct and is a payload of the union that it holds. -/
def sceneTable : Aggregate :=
  ⟨"Scene", 0, false,
    [⟨"frame", .aggregate "Game.Box" true, 4, "0", false, false, false, 0, none, []⟩,
      ⟨"next", .union "Game.Any", 8, "0", false, false, false, 0, none, []⟩], 0, 1,
    false, [], false⟩

/-- A document with a table between two structs, the second of which holds the first one. -/
def sceneDocument : Document :=
  { mutualDocument with
    namespaces := [["Game"]]
    enums := [⟨"Any", 0, .utype,
      [⟨"NONE", 0, [], none⟩, ⟨"Scene", 1, [], some "Game.Scene"⟩], true, [], false⟩]
    aggregates := [cornerStruct, sceneTable, boxStruct]
    rootType := some "Scene" }

theorem header_laid_out_scene : ∃ s text layout, Schema.ofDocument sceneDocument = .ok s ∧
    s.MembersFirst ∧ s.generate {} = .ok text ∧ text ≠ "" ∧
    text = unlines (layout.flatMap Piece.lines) ∧ s.IsLayout {} layout ∧
    [.struct cornerStruct, .struct boxStruct].Sublist (layout.map Piece.part) ∧
    [.struct boxStruct, .table sceneTable].Sublist (layout.map Piece.part) := by
  obtain ⟨s, hs, hmembers, hpadding, hpending, hparts, hinline⟩ :
      ∃ s, Schema.ofDocument sceneDocument = .ok s ∧ s.MembersFirst ∧
        (∀ a ∈ s.pendingStructs, ∀ f ∈ a.fields, f.padding ≤ 15) ∧ s.isEmpty = false ∧
        s.aggregates.values = [cornerStruct, sceneTable, boxStruct] ∧
        s.inlineMembers boxStruct = [cornerStruct] ∧ s.inlineMembers sceneTable = [boxStruct] :=
    ⟨_, rfl, by decide, by decide, rfl, rfl, rfl, rfl⟩
  obtain ⟨text, htext⟩ : Succeeds (s.generate {}) :=
    (Schema.sound_of_ofDocument hs).succeeds_generate_iff.mpr hpadding
  have hne : text ≠ "" := Schema.ne_empty_of_generate htext hpending
  obtain ⟨layout, hlines, hlayout⟩ := header_laid_out hs hmembers htext hne
  have hcorner : .struct cornerStruct ∈ layout.map Piece.part :=
    (hlayout.complete _).mpr ⟨by rw [hparts]; simp, rfl, rfl⟩
  have hbox : .struct boxStruct ∈ layout.map Piece.part :=
    (hlayout.complete _).mpr ⟨by rw [hparts]; simp, rfl, rfl⟩
  have hscene : .table sceneTable ∈ layout.map Piece.part :=
    (hlayout.complete _).mpr ⟨by rw [hparts]; simp, rfl, rfl⟩
  refine ⟨s, text, layout, hs, hmembers, htext, hne, hlines, hlayout, ?_, ?_⟩
  · exact hlayout.members_first _ _ (by rw [hinline.1]; simp) hcorner _ hbox (.inl rfl)
  · exact hlayout.members_first _ _ (by rw [hinline.2]; simp) hbox _ hscene (.inr rfl)

end BufferSchema
