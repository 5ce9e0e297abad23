import BufferSchema.Proofs.Schema.References

/-!
# Accepted documents

`Schema.ofDocument` accepts exactly the well-formed documents, and an error it reports is a condition
that the document violates.

## The construction

Resolving goes through three phases: the declarations are put into tables under their qualified
names, the root type is looked up, and then all references are. A document that passes the first
phase has its tables determined by `Document.Tabulates`: they hold the declarations in their order,
under the names that their namespaces give them. Being declared in the document and being found in
the tables are then the same, so that the lookups of the later phases are conditions on the document
itself. `Schema.ofDocument_eq_ok` sums up what holds of a schema that came out of all phases, and is
what later files start from when they speak of a loaded schema.

## Errors

An error ends the phase that it occurs in, and the phases before it went through. So it is enough to
know of each phase which condition its errors break.
-/

namespace BufferSchema

namespace Document

variable {d : Document} {s : Schema} {e : ResolveError}

/-! ## Names of declarations -/

theorem qualifiedName?_eq_none {scope : NamespaceId} {name : String} :
    d.qualifiedName? scope name = none ↔ d.scopes.length ≤ scope.toNat := by
  rw [qualifiedName?, Option.map_eq_none_iff, List.getElem?_eq_none_iff]

theorem scope_lt_of_qualifiedName? {scope : NamespaceId} {name key : String}
    (h : d.qualifiedName? scope name = some key) : scope.toNat < d.scopes.length := by
  by_contra hscope
  rw [qualifiedName?_eq_none.mpr (Nat.not_lt.mp hscope)] at h
  exact nomatch h

private theorem resolvedName_scopes (scope : NamespaceId) (name : String) :
    resolvedName d.scopes scope name =
      match d.qualifiedName? scope name with
      | some key => .ok key
      | none => .error (.namespaceOutOfRange name scope.toNat d.scopes.length) := by
  rw [resolvedName, qualifiedName?]
  cases d.scopes[scope.toNat]? <;> rfl

theorem resolvedName_eq_ok {scope : NamespaceId} {name key : String} :
    resolvedName d.scopes scope name = .ok key ↔ d.qualifiedName? scope name = some key := by
  rw [resolvedName_scopes]
  cases d.qualifiedName? scope name <;> simp

theorem resolvedName_eq_error {scope : NamespaceId} {name : String}
    (h : resolvedName d.scopes scope name = .error e) :
    d.scopes.length ≤ scope.toNat ∧
      e = .namespaceOutOfRange name scope.toNat d.scopes.length := by
  rw [resolvedName_scopes] at h
  cases hkey : d.qualifiedName? scope name with
  | none =>
    rw [hkey] at h
    exact ⟨qualifiedName?_eq_none.mp hkey, (Except.error.inj h).symm⟩
  | some key =>
    rw [hkey] at h
    exact nomatch h

/-! ### Tables of declarations

Enumerations and aggregates are put into their tables in the same way. -/

section tables

variable {α : Type} {scopeOf : α → NamespaceId} {nameOf : α → String} {l : List α}
  {decls : Declarations α}

theorem addAll_scopes_eq_ok :
    Declarations.empty.addAll (fun a ↦ resolvedName d.scopes (scopeOf a) (nameOf a)) l =
        .ok decls ↔
      decls.values = l ∧ ∀ entry ∈ decls.entries,
        d.qualifiedName? (scopeOf entry.2) (nameOf entry.2) = some entry.1 := by
  rw [Declarations.addAll_empty_eq_ok]
  exact and_congr_right' (forall₂_congr fun _ _ ↦ resolvedName_eq_ok)

theorem succeeds_addAll_scopes :
    Succeeds (Declarations.empty.addAll
        (fun a ↦ resolvedName d.scopes (scopeOf a) (nameOf a)) l) ↔
      (∀ a ∈ l, (scopeOf a).toNat < d.scopes.length) ∧ l.Pairwise fun a b ↦
        d.qualifiedName? (scopeOf a) (nameOf a) ≠ d.qualifiedName? (scopeOf b) (nameOf b) := by
  have hnamed (a : α) : Succeeds (resolvedName d.scopes (scopeOf a) (nameOf a)) ↔
      (scopeOf a).toNat < d.scopes.length := by
    have hnone : d.qualifiedName? (scopeOf a) (nameOf a) = none ↔
        d.scopes.length ≤ (scopeOf a).toNat := qualifiedName?_eq_none
    rw [← Nat.not_le, ← hnone, ← ne_eq, Option.ne_none_iff_exists']
    exact exists_congr fun _ ↦ resolvedName_eq_ok
  -- as each declaration has a name, names differ where the attempts to give them do
  rw [Declarations.succeeds_addAll_empty]
  simp only [hnamed]
  refine and_congr_right fun hscope ↦ ?_
  have hne (a b : α) (ha : a ∈ l) :
      resolvedName d.scopes (scopeOf a) (nameOf a) ≠ resolvedName d.scopes (scopeOf b) (nameOf b) ↔
        d.qualifiedName? (scopeOf a) (nameOf a) ≠ d.qualifiedName? (scopeOf b) (nameOf b) := by
    obtain ⟨key, hkey⟩ := (hnamed a).mpr (hscope a ha)
    rw [hkey, resolvedName_eq_ok.mp hkey, ne_comm, ne_comm (a := some key)]
    exact not_congr resolvedName_eq_ok
  exact ⟨fun h ↦ h.imp_of_mem fun ha _ ↦ (hne _ _ ha).mp,
    fun h ↦ h.imp_of_mem fun ha _ ↦ (hne _ _ ha).mpr⟩

private theorem addAll_scopes_eq_error
    (h : Declarations.empty.addAll (fun a ↦ resolvedName d.scopes (scopeOf a) (nameOf a)) l =
      .error e) :
    (∃ a ∈ l, d.scopes.length ≤ (scopeOf a).toNat ∧
        e = .namespaceOutOfRange (nameOf a) (scopeOf a).toNat d.scopes.length) ∨
      ∃ b a key, [b, a].Sublist l ∧ d.qualifiedName? (scopeOf b) (nameOf b) = some key ∧
        d.qualifiedName? (scopeOf a) (nameOf a) = some key ∧ e = .duplicateDeclaration key := by
  rcases Declarations.addAll_empty_eq_error h with ⟨a, ha, h⟩ | ⟨b, a, key, hl, hb, ha, he⟩
  · exact Or.inl ⟨a, ha, resolvedName_eq_error h⟩
  · exact Or.inr ⟨b, a, key, hl, resolvedName_eq_ok.mp hb, resolvedName_eq_ok.mp ha, he⟩

variable (scopeOf nameOf) in
/-- A table that holds the declarations of a list under their names has no other entries. -/
private theorem mem_entries_scopes_iff {key : String} {a : α}
    (hvalues : decls.values = l) (hnames : ∀ entry ∈ decls.entries,
      d.qualifiedName? (scopeOf entry.2) (nameOf entry.2) = some entry.1) :
    (key, a) ∈ decls.entries ↔ a ∈ l ∧ d.qualifiedName? (scopeOf a) (nameOf a) = some key := by
  constructor
  · intro h
    exact ⟨hvalues ▸ Declarations.mem_values_iff.mpr ⟨key, h⟩, hnames _ h⟩
  · rintro ⟨ha, hname⟩
    obtain ⟨key', h⟩ := Declarations.mem_values_iff.mp (hvalues ▸ ha : a ∈ decls.values)
    obtain rfl : key' = key := Option.some.inj ((hnames _ h).symm.trans hname)
    exact h

end tables

/-! ## The schema of a document -/

/-- The schema that a document becomes once its declarations are in tables. -/
def schemaWith (d : Document) (enums : Declarations Enumeration)
    (aggregates : Declarations Aggregate) : Schema where
  fileName := d.fileName
  sourceFile := d.sourceFile
  namespaces := d.scopes
  namespaces_ne_nil := d.scopes_ne_nil
  enums := enums
  aggregates := aggregates
  rootType := d.rootType.map d.activeScope.qualifiedName
  fileIdentifier := presentText d.fileIdentifier
  fileExtension := presentText d.fileExtension
  includedFiles := d.includedFiles

/-- The tables hold the declarations of the document under their qualified names. -/
structure Tabulates (d : Document) (enums : Declarations Enumeration)
    (aggregates : Declarations Aggregate) : Prop where
  enum_values : enums.values = d.enums
  enum_names : ∀ entry ∈ enums.entries,
    d.qualifiedName? entry.2.scope entry.2.name = some entry.1
  aggregate_values : aggregates.values = d.aggregates
  aggregate_names : ∀ entry ∈ aggregates.entries,
    d.qualifiedName? entry.2.scope entry.2.name = some entry.1

namespace Tabulates

variable {enums : Declarations Enumeration} {aggregates : Declarations Aggregate} {key : String}
  (t : d.Tabulates enums aggregates)

include t

theorem mem_enums_iff {e : Enumeration} : (key, e) ∈ enums.entries ↔ d.DeclaresEnum key e :=
  mem_entries_scopes_iff Enumeration.scope Enumeration.name t.enum_values t.enum_names

theorem mem_aggregates_iff {a : Aggregate} :
    (key, a) ∈ aggregates.entries ↔ d.DeclaresAggregate key a :=
  mem_entries_scopes_iff Aggregate.scope Aggregate.name t.aggregate_values t.aggregate_names

theorem get?_aggregates_iff {a : Aggregate} :
    aggregates.get? key = some a ↔ d.DeclaresAggregate key a :=
  Declarations.get?_eq_some_iff.trans t.mem_aggregates_iff

theorem mem_enum_keys_iff : key ∈ enums.keys ↔ ∃ e, d.DeclaresEnum key e :=
  Declarations.mem_keys_iff.trans (exists_congr fun _ ↦ t.mem_enums_iff)

theorem mem_aggregate_keys_iff : key ∈ aggregates.keys ↔ ∃ a, d.DeclaresAggregate key a :=
  Declarations.mem_keys_iff.trans (exists_congr fun _ ↦ t.mem_aggregates_iff)

theorem not_declaresEnum (h : key ∉ enums.keys) : ∀ e, ¬ d.DeclaresEnum key e :=
  not_exists.mp (mt t.mem_enum_keys_iff.mpr h)

theorem not_declaresAggregate (h : key ∉ aggregates.keys) : ∀ a, ¬ d.DeclaresAggregate key a :=
  not_exists.mp (mt t.mem_aggregate_keys_iff.mpr h)

end Tabulates

/-! ## The phases of resolving -/

/-- The qualified root type, which has to be declared. -/
def resolvedRoot (d : Document) (aggregates : Declarations Aggregate) :
    Resolved (Option String) :=
  match d.rootType with
  | none => pure none
  | some root =>
    if aggregates.contains (d.activeScope.qualifiedName root) then
      pure (some (d.activeScope.qualifiedName root))
    else throw (.unknownRootType root)

private theorem resolvedRoot_eq_ok {aggregates : Declarations Aggregate} {root : Option String} :
    d.resolvedRoot aggregates = .ok root ↔
      root = d.rootType.map d.activeScope.qualifiedName ∧
        ∀ name, d.rootType = some name → d.activeScope.qualifiedName name ∈ aggregates.keys := by
  rw [resolvedRoot]
  cases hroot : d.rootType with
  | none =>
    rw [Attempt.pure_eq_ok]
    exact ⟨fun h ↦ ⟨h.symm, nofun⟩, fun h ↦ h.1.symm⟩
  | some name =>
    dsimp only
    by_cases hname : d.activeScope.qualifiedName name ∈ aggregates.keys
    · rw [if_pos (Declarations.contains_iff.mpr hname), Attempt.pure_eq_ok]
      exact ⟨fun h ↦ ⟨h.symm, fun _ h' ↦ Option.some.inj h' ▸ hname⟩, fun h ↦ h.1.symm⟩
    · rw [if_neg (mt Declarations.contains_iff.mp hname)]
      exact iff_of_false Attempt.throw_ne_ok fun h ↦ hname (h.2 name rfl)

theorem resolvedRoot_eq_error {aggregates : Declarations Aggregate}
    (h : d.resolvedRoot aggregates = .error e) :
    ∃ name, d.rootType = some name ∧ d.activeScope.qualifiedName name ∉ aggregates.keys ∧
      e = .unknownRootType name := by
  rw [resolvedRoot] at h
  cases hroot : d.rootType with
  | none =>
    rw [hroot] at h
    exact absurd h Attempt.pure_ne_error
  | some name =>
    rw [hroot] at h
    dsimp only at h
    split at h
    · exact absurd h Attempt.pure_ne_error
    · next hname =>
      exact ⟨name, rfl, mt Declarations.contains_iff.mpr hname,
        (Attempt.throw_eq_error.mp h).symm⟩

/-! ### The phases together -/

theorem ofDocument_eq : Schema.ofDocument d =
    (Declarations.empty.addAll (fun e ↦ resolvedName d.scopes e.scope e.name) d.enums >>=
      fun enums ↦ Declarations.empty.addAll (fun a ↦ resolvedName d.scopes a.scope a.name)
        d.aggregates >>= fun aggregates ↦ d.resolvedRoot aggregates >>= fun root ↦
          let s := { d.schemaWith enums aggregates with rootType := root }
          s.checkReferences >>= fun _ ↦ pure s) := by
  -- the branches for the root type each have the rest behind them; here the rest stands once
  rw [Schema.ofDocument]
  refine bind_congr fun enums ↦ bind_congr fun aggregates ↦ ?_
  rw [resolvedRoot]
  cases d.rootType with
  | none => rfl
  | some root =>
    dsimp only
    by_cases hroot : aggregates.contains (d.activeScope.qualifiedName root) = true
    · rw [if_pos hroot]
      exact if_pos hroot
    · rw [if_neg hroot]
      exact if_neg hroot

end Document

open Document

variable {d : Document} {s : Schema} {e : ResolveError}

/-- **The loaded schema.** A document becomes a schema if its declarations fit into tables and every
name that is looked up later is declared there. -/
theorem Schema.ofDocument_eq_ok : Schema.ofDocument d = .ok s ↔
    ∃ enums aggregates, d.Tabulates enums aggregates ∧ s = d.schemaWith enums aggregates ∧
      (∀ name, s.rootType = some name → name ∈ s.aggregates.keys) ∧
      s.PayloadsDeclared ∧ s.TypesDeclared ∧ s.NestedRootsDeclared := by
  have hroots (aggregates : Declarations Aggregate) :
      (∀ name, d.rootType.map d.activeScope.qualifiedName = some name → name ∈ aggregates.keys) ↔
        ∀ name, d.rootType = some name → d.activeScope.qualifiedName name ∈ aggregates.keys := by
    simp [Option.map_eq_some_iff]
  rw [ofDocument_eq, Attempt.bind_eq_ok]
  constructor
  · rintro ⟨enums, henums, h⟩
    obtain ⟨aggregates, haggregates, h⟩ := Attempt.bind_eq_ok.mp h
    obtain ⟨root, hroot, h⟩ := Attempt.bind_eq_ok.mp h
    obtain ⟨rfl, hdeclared⟩ := resolvedRoot_eq_ok.mp hroot
    obtain ⟨_, hrefs, h⟩ := Attempt.bind_eq_ok.mp h
    obtain rfl := Attempt.pure_eq_ok.mp h
    obtain ⟨hvalues, hnames⟩ := addAll_scopes_eq_ok.mp henums
    obtain ⟨hvalues', hnames'⟩ := addAll_scopes_eq_ok.mp haggregates
    exact ⟨enums, aggregates, ⟨hvalues, hnames, hvalues', hnames'⟩, rfl,
      (hroots aggregates).mpr hdeclared, Schema.checkReferences_eq_ok.mp hrefs⟩
  · rintro ⟨enums, aggregates, t, rfl, hroot, hrefs⟩
    refine ⟨enums, addAll_scopes_eq_ok.mpr ⟨t.enum_values, t.enum_names⟩, ?_⟩
    refine Attempt.bind_eq_ok.mpr
      ⟨aggregates, addAll_scopes_eq_ok.mpr ⟨t.aggregate_values, t.aggregate_names⟩, ?_⟩
    refine Attempt.bind_eq_ok.mpr
      ⟨_, resolvedRoot_eq_ok.mpr ⟨rfl, (hroots aggregates).mp hroot⟩, ?_⟩
    exact Attempt.bind_eq_ok.mpr ⟨(), Schema.checkReferences_eq_ok.mpr hrefs, rfl⟩

/-! ## Acceptance

Each condition of a well-formed document is one that some phase asks for, and the tables carry it
over from names in the document to keys and back. -/

private theorem wellFormed_of_ofDocument (h : Schema.ofDocument d = .ok s) : d.WellFormed := by
  obtain ⟨enums, aggregates, t, rfl, hroot, hpayloads, htypes, hnested⟩ :=
    Schema.ofDocument_eq_ok.mp h
  obtain ⟨hescope, henames⟩ := succeeds_addAll_scopes.mp
    ⟨enums, addAll_scopes_eq_ok.mpr ⟨t.enum_values, t.enum_names⟩⟩
  obtain ⟨hascope, hanames⟩ := succeeds_addAll_scopes.mp
    ⟨aggregates, addAll_scopes_eq_ok.mpr ⟨t.aggregate_values, t.aggregate_names⟩⟩
  have henum : ∀ e ∈ d.enums, e ∈ enums.values := fun e he ↦ t.enum_values.symm ▸ he
  have haggregate : ∀ a ∈ d.aggregates, a ∈ aggregates.values :=
    fun a ha ↦ t.aggregate_values.symm ▸ ha
  refine ⟨hescope, hascope, henames, hanames, ?_, ?_, ?_, ?_, ?_, ?_⟩
  · intro name hname
    exact t.mem_aggregate_keys_iff.mp (hroot _ (Option.map_eq_some_iff.mpr ⟨name, hname, rfl⟩))
  · intro e he v hv name hname
    exact t.mem_aggregate_keys_iff.mp ((hpayloads e (henum e he)).1 v hv name hname)
  · intro e he
    exact (hpayloads e (henum e he)).2
  · intro a ha f hf name hname
    exact t.mem_enum_keys_iff.mp ((htypes a (haggregate a ha) f hf).1 name hname)
  · intro a ha f hf name fixed hname
    obtain ⟨b, hb, hfixed⟩ := (htypes a (haggregate a ha) f hf).2 name fixed hname
    exact ⟨b, t.get?_aggregates_iff.mp hb, hfixed⟩
  · intro a ha f hf name hname
    exact t.mem_aggregate_keys_iff.mp (hnested a (haggregate a ha) f hf name hname)

private theorem succeeds_ofDocument_of_wellFormed (h : d.WellFormed) :
    Succeeds (Schema.ofDocument d) := by
  obtain ⟨enums, henums⟩ := succeeds_addAll_scopes.mpr ⟨h.enum_scope, h.enum_names⟩
  obtain ⟨aggregates, haggregates⟩ :=
    succeeds_addAll_scopes.mpr ⟨h.aggregate_scope, h.aggregate_names⟩
  obtain ⟨hvalues, hnames⟩ := addAll_scopes_eq_ok.mp henums
  obtain ⟨hvalues', hnames'⟩ := addAll_scopes_eq_ok.mp haggregates
  have t : d.Tabulates enums aggregates := ⟨hvalues, hnames, hvalues', hnames'⟩
  have henum : ∀ e ∈ enums.values, e ∈ d.enums := fun e he ↦ t.enum_values ▸ he
  have haggregate : ∀ a ∈ aggregates.values, a ∈ d.aggregates :=
    fun a ha ↦ t.aggregate_values ▸ ha
  refine ⟨_, Schema.ofDocument_eq_ok.mpr ⟨enums, aggregates, t, rfl, ?_, ?_, ?_, ?_⟩⟩
  · intro name hname
    obtain ⟨root, hroot, rfl⟩ := Option.map_eq_some_iff.mp hname
    exact t.mem_aggregate_keys_iff.mpr (h.root_declared root hroot)
  · intro e he
    refine ⟨fun v hv name hname ↦ ?_, h.payload_present e (henum e he)⟩
    exact t.mem_aggregate_keys_iff.mpr (h.payload_declared e (henum e he) v hv name hname)
  · intro a ha f hf
    refine ⟨fun name hname ↦ ?_, fun name fixed hname ↦ ?_⟩
    · exact t.mem_enum_keys_iff.mpr (h.enum_declared a (haggregate a ha) f hf name hname)
    · obtain ⟨b, hb, hfixed⟩ :=
        h.aggregate_declared a (haggregate a ha) f hf name fixed hname
      exact ⟨b, t.get?_aggregates_iff.mpr hb, hfixed⟩
  · intro a ha f hf name hname
    exact t.mem_aggregate_keys_iff.mpr
      (h.nestedRoot_declared a (haggregate a ha) f hf name hname)

/-- A document becomes a schema if it is well-formed. -/
theorem succeeds_ofDocument_iff : Succeeds (Schema.ofDocument d) ↔ d.WellFormed :=
  ⟨fun ⟨_, h⟩ ↦ wellFormed_of_ofDocument h, succeeds_ofDocument_of_wellFormed⟩

/-! ## Errors -/

/-- A failed reference check tells of a member of the document that breaks a condition. -/
private theorem violates_of_checkReferences {enums : Declarations Enumeration}
    {aggregates : Declarations Aggregate} {s : Schema} (t : d.Tabulates enums aggregates)
    (henums : s.enums = enums) (haggregates : s.aggregates = aggregates)
    (hactive : s.activeNamespace = d.activeScope) (h : s.checkReferences = .error e) :
    d.Violates e := by
  subst henums haggregates
  rcases Schema.checkReferences_eq_error h with ⟨key, decl, hdecl, h⟩ | ⟨key, decl, hdecl, h⟩
  · have hdecl := t.mem_enums_iff.mp hdecl
    rcases h with ⟨v, hv, name, hname, hundeclared, rfl⟩ | ⟨hunion, v, hv, hnone, rfl⟩
    · exact .payload_declared hdecl hv hname (t.not_declaresAggregate hundeclared)
    · exact .payload_present hdecl hunion hv hnone
  · have hdecl := t.mem_aggregates_iff.mp hdecl
    obtain ⟨f, hf, h | h⟩ := h
    · rcases Schema.checkType_eq_error h with
        ⟨name, hname, hundeclared, rfl⟩ | ⟨name, fixed, hname, h⟩
      · exact .enum_declared hdecl hf hname (t.not_declaresEnum hundeclared)
      · rcases h with ⟨hundeclared, rfl⟩ | ⟨b, hb, hfixed, rfl⟩
        · exact .aggregate_declared hdecl hf hname (t.not_declaresAggregate hundeclared)
        · exact .layout hdecl hf hname (t.get?_aggregates_iff.mp hb) hfixed
    · obtain ⟨name, hname, hundeclared, rfl⟩ := Schema.checkNestedRoot_eq_error h
      -- the root of a nested buffer is looked for in the active namespace, the last of `d`
      rw [hactive] at hundeclared ⊢
      exact .nestedRoot_declared hdecl hf hname (t.not_declaresAggregate hundeclared)

/-- A reported error is something that is wrong with the document. -/
theorem violates_of_ofDocument (h : Schema.ofDocument d = .error e) : d.Violates e := by
  -- a phase that fails has the tables of the phases before it, which hold what `d` declares
  rw [ofDocument_eq] at h
  rcases Attempt.bind_eq_error.mp h with h | ⟨enums, henums, h⟩
  · rcases addAll_scopes_eq_error h with ⟨decl, hmem, hscope, rfl⟩ | ⟨b, a, key, hl, hb, ha, rfl⟩
    · exact .enum_scope hmem hscope
    · exact .enum_names hl ⟨hl.subset List.mem_cons_self, hb⟩
        ⟨hl.subset (List.mem_cons_of_mem b List.mem_cons_self), ha⟩
  obtain ⟨hvalues, hnames⟩ := addAll_scopes_eq_ok.mp henums
  rcases Attempt.bind_eq_error.mp h with h | ⟨aggregates, haggregates, h⟩
  · rcases addAll_scopes_eq_error h with ⟨decl, hmem, hscope, rfl⟩ | ⟨b, a, key, hl, hb, ha, rfl⟩
    · exact .aggregate_scope hmem hscope
    · exact .aggregate_names hl ⟨hl.subset List.mem_cons_self, hb⟩
        ⟨hl.subset (List.mem_cons_of_mem b List.mem_cons_self), ha⟩
  obtain ⟨hvalues', hnames'⟩ := addAll_scopes_eq_ok.mp haggregates
  have t : d.Tabulates enums aggregates := ⟨hvalues, hnames, hvalues', hnames'⟩
  rcases Attempt.bind_eq_error.mp h with h | ⟨root, -, h⟩
  · obtain ⟨name, hname, hundeclared, rfl⟩ := resolvedRoot_eq_error h
    exact .root_declared hname (t.not_declaresAggregate hundeclared)
  rcases Attempt.bind_eq_error.mp h with h | ⟨_, -, h⟩
  · exact violates_of_checkReferences t rfl rfl rfl h
  · exact absurd h Attempt.pure_ne_error

/-- **Acceptance.** The accepted documents are the well-formed ones, whatever the order of their
declarations, and an error tells what is wrong with a document that is not. -/
theorem accepts_iff_wellFormed (d : Document) :
    (Succeeds (Schema.ofDocument d) ↔ d.WellFormed) ∧
      (∀ enums aggregates, enums.Perm d.enums → aggregates.Perm d.aggregates →
        (Succeeds (Schema.ofDocument { d with enums, aggregates }) ↔
          Succeeds (Schema.ofDocument d))) ∧
      (∀ e, Schema.ofDocument d = .error e → d.Violates e) ∧
      (d.WellFormed → ∀ e, ¬ d.Violates e) := by
  refine ⟨succeeds_ofDocument_iff, fun enums aggregates henums haggregates ↦ ?_,
    fun e h ↦ violates_of_ofDocument h, fun h e ↦ h.not_violates e⟩
  rw [succeeds_ofDocument_iff, succeeds_ofDocument_iff]
  exact wellFormed_perm_iff henums haggregates

/-- A document whose declarations refer to each other across namespaces, before and after they are
declared. -/
def mutualDocument : Document where
  fileName := "mutual"
  sourceFile := none
  namespaces := [["Base"], ["Game"]]
  enums :=
    [⟨"Any", 1, .utype, [⟨"NONE", 0, [], none⟩, ⟨"Node", 1, [], some "Base.Node"⟩], true, [], false⟩]
  aggregates :=
    [⟨"Node", 0, false,
        [⟨"next", .vector (.vector (.aggregate "Game.Leaf" true)), 4, "0", false, false, false, 0,
          some "Leaf", []⟩], 0, 1, false, [], false⟩,
      ⟨"Leaf", 1, true,
        [⟨"kind", .scalar .utype (some "Game.Any"), 0, "0", true, false, false, 0, none, []⟩],
        1, 1, false, [], false⟩]
  rootType := some "Base.Node"
  fileIdentifier := none
  fileExtension := none
  includedFiles := []

theorem accepts_iff_wellFormed_mutual :
    mutualDocument.WellFormed ∧
      Succeeds (Schema.ofDocument
        { mutualDocument with aggregates := mutualDocument.aggregates.reverse }) ∧
      { mutualDocument with enums := [] }.Violates (.unknownEnum "Game.Leaf.kind" "Game.Any") := by
  obtain ⟨hwell, hperm, -, -⟩ := accepts_iff_wellFormed mutualDocument
  have hok : Succeeds (Schema.ofDocument mutualDocument) := ⟨_, rfl⟩
  refine ⟨hwell.mp hok, (hperm _ _ (.refl _) (List.reverse_perm _)).mpr hok, ?_⟩
  exact (accepts_iff_wellFormed { mutualDocument with enums := [] }).2.2.1 _ rfl

end BufferSchema
