import BufferSchema.Proofs.Header.Collisions
import BufferSchema.Proofs.Header.Routing
import BufferSchema.Proofs.Header.Safety
import BufferSchema.Proofs.Header.Table
import BufferSchema.Proofs.Header.Verifier

/-!
# Defaults of enumerations

The literal of a field that holds values of an enumeration is a number. The accessor and the setter
take it as it stands, and the function that creates a table at once has a default argument in its
place that is of the type of the enumeration: the first entry with that number, or the number itself
in a cast. What an entry stands for is told elsewhere, by the declaration of the enumeration; here
the default argument is looked up there, and is found to stand for the number of the literal.

A literal may be wider than all numbers of 64 bits. No entry has such a number, so that nothing is
lost where it is not read.
-/

namespace BufferSchema

/-! ## What a default argument stands for -/

/-- What an expression stands for in a scope that `path` leads to: an entry stands for its number,
and a cast for the number in it. -/
inductive EnumScope.Denotes (scope : EnumScope) (path : String) : String → Int → Prop where
  | entry {label : String} {n : Int} :
    scope.number? label = some n → scope.Denotes path (path ++ label) n
  | cast (n : Int) :
    scope.Denotes path ("static_cast<" ++ (path ++ scope.name) ++ ">(" ++ toString n ++ ")") n

private theorem EnumScope.open_notMem_label {scope : EnumScope} (hname : '<' ∉ scope.name.toList)
    (hentries : ∀ entry ∈ scope.entries, '<' ∉ entry.1.toList) {label : String} {n : Int}
    (h : scope.number? label = some n) : '<' ∉ label.toList := by
  have hmem {entry : String} (hentry : scope.entries.lookup entry = some n) :
      '<' ∉ entry.toList := by
    obtain ⟨before, after, hsplit, -⟩ := List.lookup_eq_some_iff.mp hentry
    refine hentries (entry, n) ?_
    rw [hsplit]
    exact List.mem_append_right _ List.mem_cons_self
  rw [number?] at h
  split at h
  · obtain ⟨entry, hentry, hlookup⟩ := Option.bind_eq_some_iff.mp h
    obtain ⟨front, hparts, hfront⟩ := List.dropPrefix?_eq_some_iff.mp hentry
    have hbehind := hmem hlookup
    rw [String.toList_ofList] at hbehind
    rw [hparts, eq_of_beq hfront, String.toList_append, List.mem_append, List.mem_append, not_or,
      not_or]
    exact ⟨⟨hname, by decide⟩, hbehind⟩
  · exact hmem h

/-- Where names are names, an expression stands for one number only. -/
theorem EnumScope.Denotes.unique {scope : EnumScope} {path text : String} {m n : Int}
    (hpath : '<' ∉ path.toList) (hname : '<' ∉ scope.name.toList)
    (hentries : ∀ entry ∈ scope.entries, '<' ∉ entry.1.toList)
    (hm : scope.Denotes path text m) (hn : scope.Denotes path text n) : m = n := by
  have hcast {label : String} {i j : Int} (hlabel : scope.number? label = some i) :
      path ++ label ≠ "static_cast<" ++ (path ++ scope.name) ++ ">(" ++ toString j ++ ")" := by
    intro heq
    have hfree : '<' ∉ (path ++ label).toList := by
      rw [String.toList_append, List.mem_append, not_or]
      exact ⟨hpath, open_notMem_label hname hentries hlabel⟩
    rw [heq] at hfree
    simp at hfree
  generalize htext : text = text' at hn
  cases hm with
  | @entry label _ hlabel =>
    cases hn with
    | @entry label' _ hlabel' =>
      obtain rfl := (String.append_right_inj path).mp htext
      exact Option.some.inj (hlabel.symm.trans hlabel')
    | cast => exact absurd htext (hcast hlabel)
  | cast =>
    cases hn with
    | entry hlabel' => exact absurd htext.symm (hcast hlabel')
    | cast =>
      have hnumber := (String.append_left_inj ")").mp htext
      exact toString_injective ((String.append_right_inj _).mp hnumber)

/-! ## Entries of a number -/

/-- How a number is spelled as a value of an enumeration that `path` leads to: as the first entry
with that number, and if there is none, by a cast. -/
inductive Enumeration.SpellsNumber (e : Enumeration) (options : Options) (path : String) (n : Int) :
    String → Prop where
  | first (before : List EnumValue) (v : EnumValue) (after : List EnumValue) :
    e.values = before ++ v :: after → v.value.toInt = n → (∀ w ∈ before, w.value.toInt ≠ n) →
      e.SpellsNumber options path n (path ++ e.entryReference options v)
  | cast : (∀ v ∈ e.values, v.value.toInt ≠ n) →
      e.SpellsNumber options path n
        ("static_cast<" ++ (path ++ e.name) ++ ">(" ++ toString n ++ ")")

theorem CreateParameter.matchingValue?_toString (e : Enumeration) (n : Int) :
    matchingValue? e (toString n) = e.values.find? fun v ↦ v.value.toInt = n := by
  rw [matchingValue?, integer64?_toString_eq_ite]
  by_cases hrange : Int64.minValue.toInt ≤ n ∧ n ≤ Int64.maxValue.toInt
  · rw [if_pos hrange]
    rfl
  · rw [if_neg hrange]
    refine (List.find?_eq_none.mpr fun v _ ↦ ?_).symm
    rw [decide_eq_true_iff]
    rintro rfl
    exact hrange ⟨v.value.minValue_le_toInt, v.value.toInt_le⟩

/-! ## The places of a literal -/

section places

variable {s : Schema} {options : Options} {a : Aggregate} {f : Field} {kind : ScalarKind}
  {enumName : String} {e : Enumeration} {spelling : String}

theorem Schema.qualify_eq_append {scope : NamespaceId} {ns : Namespace}
    (hns : s.namespaceAt scope = .ok ns) (name : String) :
    s.qualify scope name =
      .ok ((if s.isActive scope = true then "" else ns.path "::" "") ++ name) := by
  rw [qualify_of_namespaceAt hns]
  split
  · rw [String.empty_append]
  · rw [← ns.path_eq_append]

theorem CreateParameter.of_enum (htype : f.type = .scalar kind (some enumName))
    (hspelling : s.basicSpelling true f.type = .ok spelling) (he : s.enums.get? enumName = some e)
    {ns : Namespace} (hns : s.namespaceAt e.scope = .ok ns) {n : Int}
    (hliteral : f.defaultValue = toString n) {parameter : CreateParameter}
    (h : CreateParameter.ofField s options f = .ok parameter) :
    ∃ default, parameter = ⟨spelling ++ " ", f.name, default⟩ ∧
      e.SpellsNumber options (if s.isActive e.scope = true then "" else ns.path "::" "") n
        default := by
  obtain ⟨type, default, htype', hdefault, rfl⟩ := of_ofField_eq_ok h
  have hscalar : f.type.isScalar = true := by rw [htype]; rfl
  rw [Schema.wireSpelling, if_pos hscalar, hspelling] at htype'
  obtain rfl := Except.ok.inj htype'
  refine ⟨default, rfl, ?_⟩
  rw [defaultOf, htype] at hdefault
  obtain ⟨decl, hdecl, hdefault⟩ := Attempt.bind_eq_ok.mp hdefault
  obtain rfl := Option.some.inj (he.symm.trans (Schema.enumeration_eq_ok.mp hdecl))
  rw [hliteral, matchingValue?_toString] at hdefault
  split at hdefault
  · next v hfind =>
    obtain ⟨hnumber, before, after, hvalues, hbefore⟩ := List.find?_eq_some_iff_append.mp hfind
    rw [Schema.qualify_eq_append hns] at hdefault
    obtain rfl := Except.ok.inj hdefault
    refine .first before v after hvalues (of_decide_eq_true hnumber) fun w hw ↦ ?_
    have hother := hbefore w hw
    rw [Bool.not_eq_true', decide_eq_false_iff_not] at hother
    exact hother
  · next hfind =>
    rw [Schema.conversion, Schema.basicSpelling_of_get? he, Schema.qualify_eq_append hns]
      at hdefault
    obtain rfl := Except.ok.inj hdefault
    refine .cast fun v hv ↦ ?_
    have hother := List.find?_eq_none.mp hfind v hv
    rw [decide_eq_true_iff] at hother
    exact hother

theorem Enumeration.SpellsNumber.denotes {fragment : EnumFragment}
    (hfragment : EnumFragment.ofEnum s options e = .ok fragment)
    (hnames : (e.values.map EnumValue.name).Nodup) {path text : String} {n : Int}
    (h : e.SpellsNumber options path n text) : fragment.scope.Denotes path text n := by
  cases h with
  | first before v after hvalues hnumber _ =>
    have hv : v ∈ e.values := by
      rw [hvalues]
      exact List.mem_append_right _ List.mem_cons_self
    rw [← hnumber]
    exact .entry (EnumFragment.number?_entryReference hfragment hnames hv)
  | cast _ =>
    have hname : fragment.scope.name = e.name :=
      congrArg EnumScope.name (EnumFragment.scope_of_ofEnum_eq_ok hfragment)
    rw [← hname]
    exact .cast n

theorem EnumFragment.isIdentifier_of_ofEnum_eq_ok {fragment : EnumFragment}
    (h : EnumFragment.ofEnum s options e = .ok fragment) (hname : isIdentifier e.name = true)
    (hvalues : ∀ v ∈ e.values, isIdentifier v.name = true) :
    isIdentifier fragment.name = true ∧
      ∀ entry ∈ fragment.entries, isIdentifier entry.name = true := by
  have hscope := scope_of_ofEnum_eq_ok h
  have hname' : fragment.name = e.name := congrArg EnumScope.name hscope
  have hentries : fragment.scope.entries =
      e.values.map fun v ↦ (e.entryName options v, v.value.toInt) :=
    congrArg EnumScope.entries hscope
  refine ⟨hname'.symm ▸ hname, fun entry hentry ↦ ?_⟩
  have hmem : (entry.name, entry.value.toInt) ∈ fragment.scope.entries :=
    List.mem_map_of_mem hentry
  rw [hentries] at hmem
  obtain ⟨v, hv, heq⟩ := List.mem_map.mp hmem
  rw [← (Prod.mk.inj heq).1]
  exact Enumeration.isIdentifier_entryName hname (hvalues v hv)

theorem EnumFragment.denotes_unique {fragment : EnumFragment}
    (hname : isIdentifier fragment.name = true)
    (hentries : ∀ entry ∈ fragment.entries, isIdentifier entry.name = true) {path text : String}
    (hpath : '<' ∉ path.toList) {m n : Int} (hm : fragment.scope.Denotes path text m)
    (hn : fragment.scope.Denotes path text n) : m = n := by
  refine EnumScope.Denotes.unique hpath (not_mem_of_isIdentifier hname rfl) ?_ hm hn
  intro entry hentry
  obtain ⟨declared, hdeclared, rfl⟩ := List.mem_map.mp hentry
  exact not_mem_of_isIdentifier (hentries declared hdeclared) rfl

end places

/-! ## Agreement -/

/-- **Defaults of enumerations.** The literal of a live field that holds values of an enumeration is
the number `n`, written out; it stands in the accessor of the field and in its setter. In its place
the function that creates a table at once has the first entry with that number, behind the path that
leads to the enumeration, and if there is none, the literal in a cast to the enumeration. Either of
them stands for `n` in the scope that the declaration of the enumeration makes; and where the names
are identifiers, it stands for no other number, and the scope is what the lines of the declaration
say. -/
theorem enumDefaults_keep_number {d : Document} {s : Schema} (h : Schema.ofDocument d = .ok s)
    (options : Options) {a : Aggregate} (ha : a ∈ s.aggregates.values) {f : Field}
    (hf : f ∈ a.liveFields) {kind : ScalarKind} {enumName : String}
    (htype : f.type = .scalar kind (some enumName)) {e : Enumeration}
    (he : s.enums.get? enumName = some e) (hnames : (e.values.map EnumValue.name).Nodup)
    (hliteral : isCanonicalInteger f.defaultValue = true) :
    ∃ n ns t fragment path default, f.defaultValue = toString n ∧
      s.namespaceAt e.scope = .ok ns ∧
      path = (if s.isActive e.scope = true then "" else ns.path "::" "") ∧
      TableFragment.ofAggregate s options a = .ok t ∧
      EnumFragment.ofEnum s options e = .ok fragment ∧
      "  " ++ (path ++ e.name) ++ " " ++ f.name ++ "() const \x7b return static_cast<" ++
        (path ++ e.name) ++ ">(GetField<" ++ kind.spelling ++ ">(" ++ slotConstant f.name ++
          ", " ++ f.defaultValue ++ ")); \x7d" ∈ t.viewLines ∧
      "  void add_" ++ f.name ++ "(" ++ (path ++ e.name) ++ " " ++ f.name ++
        ") \x7b fbb_.AddElement<" ++ kind.spelling ++ ">(" ++ a.name ++ "::" ++
          slotConstant f.name ++ ", static_cast<" ++ kind.spelling ++ ">(" ++ f.name ++ "), " ++
            f.defaultValue ++ "); \x7d" ∈ t.builderLines ∧
      ("   " ++ ((path ++ e.name) ++ " ") ++ f.name ++ " = " ++ default ++ "," ∈ t.createLines ∨
        "   " ++ ((path ++ e.name) ++ " ") ++ f.name ++ " = " ++ default ++ ") \x7b" ∈
          t.createLines) ∧
      e.SpellsNumber options path n default ∧ fragment.scope.Denotes path default n ∧
      (s.IdentifierPaths → isIdentifier e.name = true →
        (∀ v ∈ e.values, isIdentifier v.name = true) →
          (∀ m, fragment.scope.Denotes path default m → m = n) ∧
            EnumScope.read? fragment.declarationLines = some fragment.scope) := by
  obtain ⟨n, hnumber⟩ := exists_toString_of_isCanonicalInteger hliteral
  have hsound := Schema.sound_of_ofDocument h
  obtain ⟨t, ht⟩ : Succeeds (TableFragment.ofAggregate s options a) := hsound.succeeds_ofTable ha
  obtain ⟨fragment, hfragment⟩ : Succeeds (EnumFragment.ofEnum s options e) :=
    hsound.succeeds_ofEnum (Declarations.mem_values_of_get? he)
  obtain ⟨ns, hns, -⟩ := Schema.exists_namespaceAt_of_enum h he
  obtain ⟨⟨accessor, haccessor, hreader⟩, ⟨setter, hsetter, hline⟩, parameter, hparameter,
    hdefault⟩ := TableFragment.exists_parts ht hf
  have hspelling : s.basicSpelling true f.type =
      .ok ((if s.isActive e.scope = true then "" else ns.path "::" "") ++ e.name) := by
    rw [htype, Schema.basicSpelling_of_get? he, Schema.qualify_eq_append hns]
  obtain ⟨default, rfl, hspells⟩ :=
    CreateParameter.of_enum htype hspelling he hns hnumber hdefault
  have hcreate := TableFragment.parameterLine_mem_or hparameter
  have hconverted : f.type.isConverted = true := by rw [htype]; rfl
  have hstorage : f.type.storageSpelling = kind.spelling := by rw [htype]; rfl
  generalize hpath : (if s.isActive e.scope = true then "" else ns.path "::" "") = path at *
  refine ⟨n, ns, t, fragment, path, default, hnumber, hns, hpath.symm, ht, hfragment, ?_, ?_,
    hcreate, hspells, hspells.denotes hfragment hnames, fun hpaths hidentifier hidentifiers ↦ ?_⟩
  · rw [← hstorage, ← TableAccessor.readerLine_of_isConverted hconverted hspelling hreader]
    exact TableFragment.readerLine_mem haccessor
  · rw [← TableFragment.name_of_ofAggregate ht, ← hstorage,
      ← Setter.line_of_isConverted hconverted hspelling hline]
    exact TableFragment.setterLine_mem hsetter
  · obtain ⟨hname, hentries⟩ :=
      EnumFragment.isIdentifier_of_ofEnum_eq_ok hfragment hidentifier hidentifiers
    -- the path is in front of the name in a spelling
    have hqualified : s.qualify e.scope e.name = .ok (path ++ e.name) := by
      rw [Schema.qualify_eq_append hns, hpath]
    have hspelling : '<' ∉ (path ++ e.name).toList :=
      (Schema.isSpelling_of_qualify_eq_ok hpaths (isSpelling_of_isIdentifier hidentifier)
        hqualified).notMem rfl
    rw [String.toList_append, List.mem_append, not_or] at hspelling
    refine ⟨fun m hm ↦ ?_, EnumFragment.read?_declarationLines hname hentries⟩
    exact EnumFragment.denotes_unique hname hentries hspelling.1 hm
      (hspells.denotes hfragment hnames)

/-- An enumeration two of whose entries have one number. -/
def shadeEnum : Enumeration :=
  ⟨"Shade", 0, .byte, [⟨"Dark", -3, [], none⟩, ⟨"Night", -3, [], none⟩, ⟨"Light", 4, [], none⟩],
    false, [], false⟩

/-- A table with a default that is the number of entries, and with one that has more than 64
bits. -/
def wallTable : Aggregate where
  name := "Wall"
  scope := 1
  fixed := false
  fields :=
    [⟨"inner", .scalar .byte (some "Base.Shade"), 4, "-3", false, false, false, 0, none, []⟩,
      ⟨"outer", .scalar .byte (some "Base.Shade"), 6, "18446744073709551616", false, false, false,
        0, none, []⟩]
  byteSize := 0
  minAlign := 1
  sortBySize := false
  doc := []
  generated := false

/-- A document with that table. -/
def wallDocument : Document :=
  { mutualDocument with
    enums := shadeEnum :: mutualDocument.enums
    aggregates := wallTable :: mutualDocument.aggregates }

/-- The first default of that table is the first entry with its number, and the second one is a
cast. -/
theorem enumDefaults_keep_number_wall : ∃ s fragment t,
    Schema.ofDocument wallDocument = .ok s ∧ wallTable ∈ s.aggregates.values ∧
    s.enums.get? "Base.Shade" = some shadeEnum ∧ (shadeEnum.values.map EnumValue.name).Nodup ∧
    (∀ f ∈ wallTable.liveFields, isCanonicalInteger f.defaultValue = true) ∧
    EnumFragment.ofEnum s { scopedEnums := true, prefixedEnums := true } shadeEnum = .ok fragment ∧
    TableFragment.ofAggregate s { scopedEnums := true, prefixedEnums := true } wallTable = .ok t ∧
    ("   Base::Shade inner = Base::Shade::Shade_Dark," ∈ t.createLines ∨
      "   Base::Shade inner = Base::Shade::Shade_Dark) \x7b" ∈ t.createLines) ∧
    fragment.scope.Denotes "Base::" "Base::Shade::Shade_Dark" (-3) ∧
    fragment.scope.Denotes "Base::" "static_cast<Base::Shade>(18446744073709551616)"
      18446744073709551616 := by
  obtain ⟨s, hs, hwall, hshade, hpath⟩ : ∃ s, Schema.ofDocument wallDocument = .ok s ∧
      wallTable ∈ s.aggregates.values ∧ s.enums.get? "Base.Shade" = some shadeEnum ∧
      ∀ ns, s.namespaceAt shadeEnum.scope = .ok ns →
        (if s.isActive shadeEnum.scope = true then "" else ns.path "::" "") = "Base::" := by
    refine ⟨_, rfl, List.mem_cons_self, rfl, fun ns hns ↦ ?_⟩
    obtain rfl := Except.ok.inj hns
    rfl
  have hnames : (shadeEnum.values.map EnumValue.name).Nodup := by decide
  have hliterals : ∀ f ∈ wallTable.liveFields, isCanonicalInteger f.defaultValue = true := by
    decide
  have houter : wallTable.fields[1] ∈ wallTable.liveFields := by decide
  obtain ⟨n, ns, t, fragment, path, default, hnumber, hns, rfl, ht, hfragment, -, -, hcreate,
    hspells, hdenotes, -⟩ := enumDefaults_keep_number hs
      { scopedEnums := true, prefixedEnums := true } hwall List.mem_cons_self rfl hshade hnames
      (hliterals _ List.mem_cons_self)
  obtain ⟨n', ns', t', fragment', path', default', hnumber', hns', rfl, -, hfragment', -, -, -,
    hspells', hdenotes', -⟩ := enumDefaults_keep_number hs
      { scopedEnums := true, prefixedEnums := true } hwall houter rfl hshade hnames
      (hliterals _ houter)
  obtain rfl := Except.ok.inj (hfragment.symm.trans hfragment')
  rw [hpath ns hns] at hcreate hspells hdenotes
  rw [hpath ns' hns'] at hspells' hdenotes'
  obtain rfl : n = -3 := toString_injective hnumber.symm
  obtain rfl : n' = 18446744073709551616 := toString_injective hnumber'.symm
  have hinner : default = "Base::Shade::Shade_Dark" := by
    cases hspells with
    | cast hnone => exact absurd rfl (hnone _ List.mem_cons_self)
    | first before v after hvalues hnumber hbefore =>
      cases before with
      | nil =>
        obtain ⟨rfl, -⟩ := List.cons.inj hvalues
        decide
      | cons w before =>
        obtain ⟨rfl, -⟩ := List.cons.inj hvalues
        exact absurd rfl (hbefore _ List.mem_cons_self)
  have hcast : default' = "static_cast<Base::Shade>(18446744073709551616)" := by
    cases hspells' with
    | cast _ => decide
    | first before v after hvalues hnumber hbefore =>
      have hv : v ∈ shadeEnum.values := by
        rw [hvalues]
        exact List.mem_append_right _ List.mem_cons_self
      have hwide : ∀ v ∈ shadeEnum.values, v.value.toInt ≠ 18446744073709551616 := by decide
      exact absurd hnumber (hwide v hv)
  subst hinner hcast
  have hcomma : "   Base::Shade inner = Base::Shade::Shade_Dark," =
      "   " ++ ("Base::" ++ shadeEnum.name ++ " ") ++ "inner" ++ " = " ++
        "Base::Shade::Shade_Dark" ++ "," := by decide
  have hfinal : "   Base::Shade inner = Base::Shade::Shade_Dark) \x7b" =
      "   " ++ ("Base::" ++ shadeEnum.name ++ " ") ++ "inner" ++ " = " ++
        "Base::Shade::Shade_Dark" ++ ") \x7b" := by decide
  refine ⟨s, fragment, t, hs, hwall, hshade, hnames, hliterals, hfragment, ht, ?_, hdenotes,
    hdenotes'⟩
  rw [hcomma, hfinal]
  exact hcreate

end BufferSchema
