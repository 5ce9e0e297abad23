import BufferSchema.Proofs.Schema.Acceptance

/-!
# Resolving once and again

Resolving loses nothing: a schema holds the declarations of its document as they were written, in
their order, and only adds the names they are known under. It also settles everything at once. A
schema that is written back as a document resolves to itself, because each thing that resolving
changes is left alone the second time: a qualified name has a dot or needs no prefix, a namespace
list that was filled in is not empty, and an empty text that was dropped is not there.
-/

namespace BufferSchema

/-! ## What is left alone -/

theorem Namespace.dot_mem_path {ns : Namespace} (hns : ns.components ≠ []) (name : String) :
    '.' ∈ (ns.path "." name).toList := by
  obtain ⟨component, components, hcomponents⟩ := List.exists_cons_of_ne_nil hns
  have hpath : ns.path "." name = component ++ "." ++ path ⟨components⟩ "." name := by
    rw [path, hcomponents]
    rfl
  simp [hpath, String.toList_append]

theorem Namespace.qualifiedName_qualifiedName (ns : Namespace) (name : String) :
    ns.qualifiedName (ns.qualifiedName name) = ns.qualifiedName name := by
  by_cases hname : '.' ∈ name.toList
  · have hsame : ns.qualifiedName name = name := if_pos hname
    rw [hsame, hsame]
  · have hpath : ns.qualifiedName name = ns.path "." name := if_neg hname
    rw [hpath]
    by_cases hns : ns.components = []
    · -- nothing is put in front of the name
      have hself : ns.path "." name = name := by rw [path, hns, List.foldr_nil]
      rw [hself, hpath, hself]
    · exact if_pos (dot_mem_path hns name)

theorem presentText_presentText (s : Option String) :
    presentText (presentText s) = presentText s := by
  simp [presentText, Option.filter_filter]

namespace Schema

variable {d : Document} {s : Schema}

/-! ## Documents of schemas -/

/-- The document that a schema is written back as. -/
def document (s : Schema) : Document where
  fileName := s.fileName
  sourceFile := s.sourceFile
  namespaces := s.namespaces.map Namespace.components
  enums := s.enums.values
  aggregates := s.aggregates.values
  rootType := s.rootType
  fileIdentifier := s.fileIdentifier
  fileExtension := s.fileExtension
  includedFiles := s.includedFiles

theorem scopes_document (s : Schema) : s.document.scopes = s.namespaces := by
  have hnamespaces : s.document.namespaces ≠ [] := by
    intro hnil
    exact s.namespaces_ne_nil (List.map_eq_nil_iff.mp hnil)
  rw [Document.scopes, if_neg hnamespaces, document, List.map_map]
  exact List.map_id _

theorem activeScope_document (s : Schema) : s.document.activeScope = s.activeNamespace := by
  simp only [Document.activeScope, activeNamespace, scopes_document]

/-! ## What a schema holds of its document -/

/-- A declaration is entered under the name that it has in its namespace. -/
def Enters {α : Type} (s : Schema) (scopeOf : α → NamespaceId) (nameOf : α → String) (a : α)
    (entry : String × α) : Prop :=
  ∃ ns, s.namespaceAt (scopeOf a) = .ok ns ∧ entry = (ns.qualifiedName (nameOf a), a)

/-- Everything that the document says, in the order in which it says it. -/
structure Holds (s : Schema) (d : Document) : Prop where
  fileName : s.fileName = d.fileName
  sourceFile : s.sourceFile = d.sourceFile
  /-- Without namespaces there is the root namespace. -/
  root_namespace : d.namespaces = [] → s.namespaces = [.root]
  namespaces : d.namespaces ≠ [] → s.namespaces.map Namespace.components = d.namespaces
  enums : List.Forall₂ (s.Enters Enumeration.scope Enumeration.name) d.enums s.enums.entries
  aggregates :
    List.Forall₂ (s.Enters Aggregate.scope Aggregate.name) d.aggregates s.aggregates.entries
  rootType : s.rootType = d.rootType.map s.activeNamespace.qualifiedName
  fileIdentifier : s.fileIdentifier = presentText d.fileIdentifier
  fileExtension : s.fileExtension = presentText d.fileExtension
  includedFiles : s.includedFiles = d.includedFiles

theorem forall₂_enters {α : Type} {scopeOf : α → NamespaceId} {nameOf : α → String}
    {decls : Declarations α} {l : List α} (hscopes : s.namespaces = d.scopes)
    (hvalues : decls.values = l) (hnames : ∀ entry ∈ decls.entries,
      d.qualifiedName? (scopeOf entry.2) (nameOf entry.2) = some entry.1) :
    List.Forall₂ (s.Enters scopeOf nameOf) l decls.entries := by
  subst hvalues
  rw [Declarations.values, List.forall₂_map_left_iff, List.forall₂_same]
  intro entry hentry
  have hname := hnames entry hentry
  rw [Document.qualifiedName?, ← hscopes] at hname
  obtain ⟨ns, hns, hkey⟩ := Option.map_eq_some_iff.mp hname
  refine ⟨ns, ?_, Prod.ext hkey.symm rfl⟩
  rw [namespaceAt, hns]
  rfl

theorem holds_of_ofDocument (h : ofDocument d = .ok s) : s.Holds d := by
  obtain ⟨enums, aggregates, t, rfl, -⟩ := ofDocument_eq_ok.mp h
  have hscopes : (d.schemaWith enums aggregates).namespaces = d.scopes := rfl
  have hmapped (hne : d.namespaces ≠ []) : d.scopes.map Namespace.components = d.namespaces := by
    rw [Document.scopes, if_neg hne, List.map_map]
    exact List.map_id _
  exact
    { fileName := rfl
      sourceFile := rfl
      root_namespace := fun hnil ↦ if_pos hnil
      namespaces := hmapped
      enums := forall₂_enters hscopes t.enum_values t.enum_names
      aggregates := forall₂_enters hscopes t.aggregate_values t.aggregate_names
      rootType := rfl
      fileIdentifier := rfl
      fileExtension := rfl
      includedFiles := rfl }

/-! ## The second time -/

/-- A table goes back under the same names, because the namespaces are the same. -/
theorem tabulates_document {enums : Declarations Enumeration}
    {aggregates : Declarations Aggregate} (t : d.Tabulates enums aggregates) :
    (d.schemaWith enums aggregates).document.Tabulates enums aggregates := by
  have hqualified : (d.schemaWith enums aggregates).document.qualifiedName? = d.qualifiedName? := by
    funext scope name
    rw [Document.qualifiedName?, Document.qualifiedName?, scopes_document]
    rfl
  exact
    { enum_values := rfl
      enum_names := by
        intro entry hentry
        rw [hqualified]
        exact t.enum_names entry hentry
      aggregate_values := rfl
      aggregate_names := by
        intro entry hentry
        rw [hqualified]
        exact t.aggregate_names entry hentry }

theorem schemaWith_document (enums : Declarations Enumeration)
    (aggregates : Declarations Aggregate) :
    (d.schemaWith enums aggregates).document.schemaWith enums aggregates =
      d.schemaWith enums aggregates := by
  have hscope : (d.schemaWith enums aggregates).document.activeScope = d.activeScope :=
    activeScope_document _
  have hroot : (d.rootType.map d.activeScope.qualifiedName).map d.activeScope.qualifiedName =
      d.rootType.map d.activeScope.qualifiedName := by
    rw [Option.map_map]
    exact congrArg (d.rootType.map ·) (funext d.activeScope.qualifiedName_qualifiedName)
  rw [Document.schemaWith, mk.injEq, scopes_document, hscope]
  exact ⟨rfl, rfl, rfl, rfl, rfl, hroot, presentText_presentText _, presentText_presentText _, rfl⟩

theorem ofDocument_document (h : ofDocument d = .ok s) : ofDocument s.document = .ok s := by
  obtain ⟨enums, aggregates, t, rfl, hdeclared⟩ := ofDocument_eq_ok.mp h
  have hsame := schemaWith_document (d := d) enums aggregates
  exact ofDocument_eq_ok.mpr ⟨enums, aggregates, tabulates_document t, hsame.symm, hdeclared⟩

end Schema

/-- **Resolving keeps everything, and once is enough.** The schema of a document holds what the
document says, in its order and under qualified names; it is also the schema of the document that it
is written back as. Qualifying a name once more changes nothing, whatever the namespace. -/
theorem resolving_settles {d : Document} {s : Schema} (h : Schema.ofDocument d = .ok s) :
    s.Holds d ∧ Schema.ofDocument s.document = .ok s ∧
      ∀ (ns : Namespace) (name : String),
        ns.qualifiedName (ns.qualifiedName name) = ns.qualifiedName name :=
  ⟨Schema.holds_of_ofDocument h, Schema.ofDocument_document h,
    Namespace.qualifiedName_qualifiedName⟩

theorem resolving_settles_mutual : ∃ s,
    Schema.ofDocument { mutualDocument with rootType := some "Leaf", fileIdentifier := some "" } =
      .ok s ∧
    s.document.rootType = some "Game.Leaf" ∧ s.document.fileIdentifier = none ∧
    s.Holds { mutualDocument with rootType := some "Leaf", fileIdentifier := some "" } ∧
    Schema.ofDocument s.document = .ok s := by
  obtain ⟨s, hs, hroot, hidentifier⟩ : ∃ s, Schema.ofDocument
      { mutualDocument with rootType := some "Leaf", fileIdentifier := some "" } = .ok s ∧
        s.document.rootType = some "Game.Leaf" ∧ s.document.fileIdentifier = none :=
    ⟨_, rfl, rfl, rfl⟩
  obtain ⟨hholds, hagain, -⟩ := resolving_settles hs
  exact ⟨s, hs, hroot, hidentifier, hholds, hagain⟩

end BufferSchema
