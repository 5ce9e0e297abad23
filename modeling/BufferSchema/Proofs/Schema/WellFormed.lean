import BufferSchema.Schema.Resolve
import Mathlib.Data.List.Nodup

/-!
# Well-formed documents

What makes a document a schema, said of the document itself: nothing here walks through its lists in
an order, fills a table or stops at a first failure. `Document.WellFormed` lists the conditions, and
`Document.Violates` is the other side, one way to break a condition for each wording of an error.

Names are collected from a type by relations and not by a function, because a type names at most one
declaration, at any depth of vectors, and what matters is only whether it does.
-/

namespace BufferSchema

namespace TypeRef

/-- A type names an enumeration: as the values of a scalar or as the alternatives of a union. -/
inductive NamesEnum : TypeRef → String → Prop
  | scalar {kind : ScalarKind} {name : String} : NamesEnum (.scalar kind (some name)) name
  | union {name : String} : NamesEnum (.union name) name
  | vector {element : TypeRef} {name : String} (h : NamesEnum element name) :
      NamesEnum (.vector element) name

/-- A type names an aggregate, and takes its layout to be fixed or not. -/
inductive NamesAggregate : TypeRef → String → Bool → Prop
  | aggregate {name : String} {fixed : Bool} : NamesAggregate (.aggregate name fixed) name fixed
  | vector {element : TypeRef} {name : String} {fixed : Bool}
      (h : NamesAggregate element name fixed) : NamesAggregate (.vector element) name fixed

variable {kind : ScalarKind} {element : TypeRef} {name target : String} {fixed expected : Bool}

@[simp] theorem namesEnum_scalar {enumName : Option String} :
    (TypeRef.scalar kind enumName).NamesEnum name ↔ enumName = some name :=
  ⟨fun h ↦ by cases h; rfl, fun h ↦ by subst h; exact .scalar⟩

@[simp] theorem namesEnum_union : (TypeRef.union target).NamesEnum name ↔ target = name :=
  ⟨fun h ↦ by cases h; rfl, fun h ↦ by subst h; exact .union⟩

@[simp] theorem namesEnum_vector :
    (TypeRef.vector element).NamesEnum name ↔ element.NamesEnum name :=
  ⟨fun h ↦ by cases h; assumption, .vector⟩

@[simp] theorem not_namesEnum_bool : ¬ TypeRef.bool.NamesEnum name := nofun

@[simp] theorem not_namesEnum_string : ¬ TypeRef.string.NamesEnum name := nofun

@[simp] theorem not_namesEnum_aggregate : ¬ (TypeRef.aggregate target fixed).NamesEnum name := nofun

@[simp] theorem namesAggregate_aggregate :
    (TypeRef.aggregate target fixed).NamesAggregate name expected ↔
      target = name ∧ fixed = expected :=
  ⟨fun h ↦ by cases h; exact ⟨rfl, rfl⟩, fun ⟨h, h'⟩ ↦ by subst h h'; exact .aggregate⟩

@[simp] theorem namesAggregate_vector :
    (TypeRef.vector element).NamesAggregate name fixed ↔ element.NamesAggregate name fixed :=
  ⟨fun h ↦ by cases h; assumption, .vector⟩

@[simp] theorem not_namesAggregate_scalar {enumName : Option String} :
    ¬ (TypeRef.scalar kind enumName).NamesAggregate name fixed := nofun

@[simp] theorem not_namesAggregate_bool : ¬ TypeRef.bool.NamesAggregate name fixed := nofun

@[simp] theorem not_namesAggregate_string : ¬ TypeRef.string.NamesAggregate name fixed := nofun

@[simp] theorem not_namesAggregate_union :
    ¬ (TypeRef.union target).NamesAggregate name fixed := nofun

end TypeRef

namespace Document

variable (d : Document)

/-! ## Declarations of a document -/

/-- The namespace that generated code is put into. -/
def activeScope : Namespace := d.scopes.getLast d.scopes_ne_nil

/-- The qualified name of a declaration, if its namespace is one of the document's. -/
def qualifiedName? (scope : NamespaceId) (name : String) : Option String :=
  d.scopes[scope.toNat]?.map fun ns ↦ ns.qualifiedName name

/-- The document declares an enumeration under a qualified name. -/
def DeclaresEnum (key : String) (e : Enumeration) : Prop :=
  e ∈ d.enums ∧ d.qualifiedName? e.scope e.name = some key

/-- The document declares an aggregate under a qualified name. -/
def DeclaresAggregate (key : String) (a : Aggregate) : Prop :=
  a ∈ d.aggregates ∧ d.qualifiedName? a.scope a.name = some key

/-! ## The conditions -/

/-- The conditions under which a document is a schema. Deprecated fields are not excepted. -/
structure WellFormed : Prop where
  enum_scope : ∀ e ∈ d.enums, e.scope.toNat < d.scopes.length
  aggregate_scope : ∀ a ∈ d.aggregates, a.scope.toNat < d.scopes.length
  enum_names : d.enums.Pairwise fun e e' ↦
    d.qualifiedName? e.scope e.name ≠ d.qualifiedName? e'.scope e'.name
  aggregate_names : d.aggregates.Pairwise fun a a' ↦
    d.qualifiedName? a.scope a.name ≠ d.qualifiedName? a'.scope a'.name
  root_declared : ∀ name, d.rootType = some name →
    ∃ a, d.DeclaresAggregate (d.activeScope.qualifiedName name) a
  payload_declared : ∀ e ∈ d.enums, ∀ v ∈ e.values, ∀ name, v.unionType = some name →
    ∃ a, d.DeclaresAggregate name a
  /-- Only the first value of a union may select no aggregate. -/
  payload_present : ∀ e ∈ d.enums, e.isUnion = true → ∀ v ∈ e.values.tail, v.unionType ≠ none
  enum_declared : ∀ a ∈ d.aggregates, ∀ f ∈ a.fields, ∀ name, f.type.NamesEnum name →
    ∃ e, d.DeclaresEnum name e
  aggregate_declared : ∀ a ∈ d.aggregates, ∀ f ∈ a.fields, ∀ name fixed,
    f.type.NamesAggregate name fixed → ∃ b, d.DeclaresAggregate name b ∧ b.fixed = fixed
  nestedRoot_declared : ∀ a ∈ d.aggregates, ∀ f ∈ a.fields, ∀ name, f.nestedRoot = some name →
    ∃ b, d.DeclaresAggregate (d.activeScope.qualifiedName name) b

/-- What is wrong with a document, in the words of an error: the owner is the declaration or the
member that breaks a condition, and the names are those it breaks it with. -/
inductive Violates : ResolveError → Prop
  | enum_scope {e : Enumeration} (he : e ∈ d.enums) (h : d.scopes.length ≤ e.scope.toNat) :
      Violates (.namespaceOutOfRange e.name e.scope.toNat d.scopes.length)
  | aggregate_scope {a : Aggregate} (ha : a ∈ d.aggregates)
      (h : d.scopes.length ≤ a.scope.toNat) :
      Violates (.namespaceOutOfRange a.name a.scope.toNat d.scopes.length)
  | enum_names {key : String} {e e' : Enumeration} (h : [e, e'].Sublist d.enums)
      (he : d.DeclaresEnum key e) (he' : d.DeclaresEnum key e') :
      Violates (.duplicateDeclaration key)
  | aggregate_names {key : String} {a a' : Aggregate} (h : [a, a'].Sublist d.aggregates)
      (ha : d.DeclaresAggregate key a) (ha' : d.DeclaresAggregate key a') :
      Violates (.duplicateDeclaration key)
  | root_declared {name : String} (h : d.rootType = some name)
      (hname : ∀ a, ¬ d.DeclaresAggregate (d.activeScope.qualifiedName name) a) :
      Violates (.unknownRootType name)
  | payload_declared {key name : String} {e : Enumeration} {v : EnumValue}
      (he : d.DeclaresEnum key e) (hv : v ∈ e.values) (h : v.unionType = some name)
      (hname : ∀ a, ¬ d.DeclaresAggregate name a) :
      Violates (.unknownAggregate (key ++ "." ++ v.name) name)
  | payload_present {key : String} {e : Enumeration} {v : EnumValue} (he : d.DeclaresEnum key e)
      (hunion : e.isUnion = true) (hv : v ∈ e.values.tail) (h : v.unionType = none) :
      Violates (.missingUnionType (key ++ "." ++ v.name))
  | enum_declared {key name : String} {a : Aggregate} {f : Field}
      (ha : d.DeclaresAggregate key a) (hf : f ∈ a.fields) (h : f.type.NamesEnum name)
      (hname : ∀ e, ¬ d.DeclaresEnum name e) :
      Violates (.unknownEnum (key ++ "." ++ f.name) name)
  | aggregate_declared {key name : String} {fixed : Bool} {a : Aggregate} {f : Field}
      (ha : d.DeclaresAggregate key a) (hf : f ∈ a.fields)
      (h : f.type.NamesAggregate name fixed) (hname : ∀ b, ¬ d.DeclaresAggregate name b) :
      Violates (.unknownAggregate (key ++ "." ++ f.name) name)
  | layout {key name : String} {fixed : Bool} {a b : Aggregate} {f : Field}
      (ha : d.DeclaresAggregate key a) (hf : f ∈ a.fields)
      (h : f.type.NamesAggregate name fixed) (hb : d.DeclaresAggregate name b)
      (hfixed : b.fixed ≠ fixed) :
      Violates (.fixedMismatch (key ++ "." ++ f.name) name fixed b.fixed)
  | nestedRoot_declared {key name : String} {a : Aggregate} {f : Field}
      (ha : d.DeclaresAggregate key a) (hf : f ∈ a.fields) (h : f.nestedRoot = some name)
      (hname : ∀ b, ¬ d.DeclaresAggregate (d.activeScope.qualifiedName name) b) :
      Violates (.unknownAggregate (key ++ "." ++ f.name) (d.activeScope.qualifiedName name))

variable {d}

private theorem eq_of_pairwise_ne {α β : Type} {f : α → β} {l : List α} {a b : α}
    (h : l.Pairwise fun a b ↦ f a ≠ f b) (ha : a ∈ l) (hb : b ∈ l) (heq : f a = f b) : a = b :=
  List.inj_on_of_nodup_map (List.pairwise_map.mpr h) ha hb heq

theorem WellFormed.declaresAggregate_unique (h : d.WellFormed) {key : String} {a b : Aggregate}
    (ha : d.DeclaresAggregate key a) (hb : d.DeclaresAggregate key b) : a = b :=
  eq_of_pairwise_ne h.aggregate_names ha.1 hb.1 (ha.2.trans hb.2.symm)

/-- The violations are violations of these conditions. -/
theorem WellFormed.not_violates (h : d.WellFormed) (e : ResolveError) : ¬ d.Violates e := by
  intro hviolates
  cases hviolates with
  | enum_scope he hscope => exact absurd (h.enum_scope _ he) (Nat.not_lt.mpr hscope)
  | aggregate_scope ha hscope => exact absurd (h.aggregate_scope _ ha) (Nat.not_lt.mpr hscope)
  | enum_names hl he he' =>
    exact List.pairwise_iff_forall_sublist.mp h.enum_names hl (he.2.trans he'.2.symm)
  | aggregate_names hl ha ha' =>
    exact List.pairwise_iff_forall_sublist.mp h.aggregate_names hl (ha.2.trans ha'.2.symm)
  | root_declared hroot hname =>
    obtain ⟨a, ha⟩ := h.root_declared _ hroot
    exact hname a ha
  | payload_declared he hv htype hname =>
    obtain ⟨a, ha⟩ := h.payload_declared _ he.1 _ hv _ htype
    exact hname a ha
  | payload_present he hunion hv hnone => exact h.payload_present _ he.1 hunion _ hv hnone
  | enum_declared ha hf htype hname =>
    obtain ⟨e, he⟩ := h.enum_declared _ ha.1 _ hf _ htype
    exact hname e he
  | aggregate_declared ha hf htype hname =>
    obtain ⟨b, hb, -⟩ := h.aggregate_declared _ ha.1 _ hf _ _ htype
    exact hname b hb
  | layout ha hf htype hb hfixed =>
    obtain ⟨b', hb', hfixed'⟩ := h.aggregate_declared _ ha.1 _ hf _ _ htype
    -- the aggregate of the other layout is the one that is referred to
    exact hfixed (h.declaresAggregate_unique hb hb' ▸ hfixed')
  | nestedRoot_declared ha hf hroot hname =>
    obtain ⟨b, hb⟩ := h.nestedRoot_declared _ ha.1 _ hf _ hroot
    exact hname b hb

/-! ## Order of declarations -/

/-- The conditions speak of the declarations as collections: their order does not matter. -/
theorem WellFormed.perm {enums : List Enumeration} {aggregates : List Aggregate}
    (he : enums.Perm d.enums) (ha : aggregates.Perm d.aggregates) (h : d.WellFormed) :
    { d with enums, aggregates }.WellFormed := by
  have hdeclares : ∀ key a, { d with enums, aggregates }.DeclaresAggregate key a ↔
      d.DeclaresAggregate key a := fun key a ↦ and_congr_left' ha.mem_iff
  have hdeclares' : ∀ key e, { d with enums, aggregates }.DeclaresEnum key e ↔
      d.DeclaresEnum key e := fun key e ↦ and_congr_left' he.mem_iff
  refine
    { enum_scope := fun e hmem ↦ h.enum_scope e (he.mem_iff.mp hmem)
      aggregate_scope := fun a hmem ↦ h.aggregate_scope a (ha.mem_iff.mp hmem)
      enum_names := (he.pairwise_iff Ne.symm).mpr h.enum_names
      aggregate_names := (ha.pairwise_iff Ne.symm).mpr h.aggregate_names
      root_declared := ?_
      payload_declared := ?_
      payload_present := fun e hmem ↦ h.payload_present e (he.mem_iff.mp hmem)
      enum_declared := ?_
      aggregate_declared := ?_
      nestedRoot_declared := ?_ }
  · intro name hroot
    obtain ⟨a, hdecl⟩ := h.root_declared name hroot
    exact ⟨a, (hdeclares _ a).mpr hdecl⟩
  · intro e hmem v hv name hname
    obtain ⟨a, hdecl⟩ := h.payload_declared e (he.mem_iff.mp hmem) v hv name hname
    exact ⟨a, (hdeclares _ a).mpr hdecl⟩
  · intro a hmem f hf name hname
    obtain ⟨e, hdecl⟩ := h.enum_declared a (ha.mem_iff.mp hmem) f hf name hname
    exact ⟨e, (hdeclares' _ e).mpr hdecl⟩
  · intro a hmem f hf name fixed hname
    obtain ⟨b, hdecl, hfixed⟩ :=
      h.aggregate_declared a (ha.mem_iff.mp hmem) f hf name fixed hname
    exact ⟨b, (hdeclares _ b).mpr hdecl, hfixed⟩
  · intro a hmem f hf name hname
    obtain ⟨b, hdecl⟩ := h.nestedRoot_declared a (ha.mem_iff.mp hmem) f hf name hname
    exact ⟨b, (hdeclares _ b).mpr hdecl⟩

/-- Two documents that differ in the order of their declarations are well-formed together. -/
theorem wellFormed_perm_iff {enums : List Enumeration} {aggregates : List Aggregate}
    (he : enums.Perm d.enums) (ha : aggregates.Perm d.aggregates) :
    { d with enums, aggregates }.WellFormed ↔ d.WellFormed :=
  ⟨fun h ↦ WellFormed.perm (d := { d with enums, aggregates }) he.symm ha.symm h,
    fun h ↦ h.perm he ha⟩

end Document

end BufferSchema
