import BufferSchema.Proofs.Schema.Acceptance
import BufferSchema.Schema.Edit

/-!
# Sound schemas

A schema is *sound* if every name and every namespace position in it leads somewhere. A loaded
schema is sound, and so is one that was edited by changes that touch no reference: those that decide
what is emitted and how, name files, or append a namespace.

The root types of nested buffers are left out on purpose. They are looked for in the active
namespace, so that a namespace that is appended can leave them undeclared; emission only spells
them.
-/

namespace BufferSchema

/-- Whether an edit touches no reference of a schema. -/
def Edit.keepsReferences : Edit → Bool
  | .enumGenerated _ _ | .aggregateGenerated _ _ | .sortBySize _ _ | .pushNamespace _
  | .fileIdentifier _ | .fileExtension _ | .sourceFile _ | .fileName _ | .includeFile _ => true
  | .isUnion _ _ | .removeEnum _ | .removeAggregate _ | .popNamespace | .rootType _ => false

namespace Schema

variable {s : Schema}

/-- The schema after edits, the first one first. -/
def editAll (s : Schema) (edits : List Edit) : Schema := edits.foldl Schema.edit s

/-- Every name and every namespace position that emission looks up is there. -/
structure Sound (s : Schema) : Prop where
  enum_scope : ∀ e ∈ s.enums.values, e.scope.toNat < s.namespaces.length
  aggregate_scope : ∀ a ∈ s.aggregates.values, a.scope.toNat < s.namespaces.length
  root_declared : ∀ name, s.rootType = some name → name ∈ s.aggregates.keys
  payloads_declared : s.PayloadsDeclared
  types_declared : s.TypesDeclared

theorem sound_of_ofDocument {d : Document} (h : Schema.ofDocument d = .ok s) : s.Sound := by
  obtain ⟨enums, aggregates, t, rfl, hroot, hpayloads, htypes, -⟩ := Schema.ofDocument_eq_ok.mp h
  refine ⟨fun e he ↦ ?_, fun a ha ↦ ?_, hroot, hpayloads, htypes⟩
  · obtain ⟨key, hentry⟩ := Declarations.mem_values_iff.mp he
    exact Document.scope_lt_of_qualifiedName? (t.enum_names _ hentry)
  · obtain ⟨key, hentry⟩ := Declarations.mem_values_iff.mp ha
    exact Document.scope_lt_of_qualifiedName? (t.aggregate_names _ hentry)

namespace Sound

/-! ## Single edits -/

/-- An enumeration may change in everything but its scope, its values and whether it is a union. -/
theorem modify_enums (h : s.Sound) (key : String) {f : Enumeration → Enumeration}
    (hscope : ∀ e, (f e).scope = e.scope) (hvalues : ∀ e, (f e).values = e.values)
    (hunion : ∀ e, (f e).isUnion = e.isUnion) :
    { s with enums := s.enums.modify key f }.Sound := by
  refine ⟨fun e he ↦ ?_, h.aggregate_scope, h.root_declared, fun e he ↦ ?_, fun a ha g hg ↦ ?_⟩
  · obtain ⟨b, hb, rfl | rfl⟩ := Declarations.exists_of_mem_values_modify he
    · exact h.enum_scope e hb
    · rw [hscope]
      exact h.enum_scope b hb
  · obtain ⟨b, hb, rfl | rfl⟩ := Declarations.exists_of_mem_values_modify he
    · exact h.payloads_declared e hb
    · rw [hvalues, hunion]
      exact h.payloads_declared b hb
  · obtain ⟨henums, haggregates⟩ := h.types_declared a ha g hg
    refine ⟨fun name hname ↦ ?_, haggregates⟩
    rw [Declarations.keys_modify]
    exact henums name hname

/-- An aggregate may change in everything but its scope, its fields and its layout. -/
theorem modify_aggregates (h : s.Sound) (key : String) {f : Aggregate → Aggregate}
    (hscope : ∀ a, (f a).scope = a.scope) (hfields : ∀ a, (f a).fields = a.fields)
    (hfixed : ∀ a, (f a).fixed = a.fixed) :
    { s with aggregates := s.aggregates.modify key f }.Sound := by
  -- references name the layout, which is why it may not change
  have hdeclares {type : TypeRef} (htype : s.Declares type) :
      { s with aggregates := s.aggregates.modify key f }.Declares type := by
    refine ⟨htype.1, fun name fixed hname ↦ ?_⟩
    obtain ⟨a, ha, rfl⟩ := htype.2 name fixed hname
    refine ⟨_, (Declarations.get?_modify f name).trans (congrArg _ ha), ?_⟩
    dsimp only
    by_cases hkey : name = key
    · rw [if_pos hkey, hfixed]
    · rw [if_neg hkey]
  refine ⟨h.enum_scope, fun a ha ↦ ?_, fun name hname ↦ ?_, fun e he ↦ ?_, fun a ha g hg ↦ ?_⟩
  · obtain ⟨b, hb, rfl | rfl⟩ := Declarations.exists_of_mem_values_modify ha
    · exact h.aggregate_scope a hb
    · rw [hscope]
      exact h.aggregate_scope b hb
  · rw [Declarations.keys_modify]
    exact h.root_declared name hname
  · rw [Declarations.keys_modify]
    exact h.payloads_declared e he
  · obtain ⟨b, hb, rfl | rfl⟩ := Declarations.exists_of_mem_values_modify ha
    · exact hdeclares (h.types_declared a hb g hg)
    · rw [hfields] at hg
      exact hdeclares (h.types_declared b hb g hg)

/-- A namespace behind the others leaves every position what it was. -/
theorem pushNamespace (h : s.Sound) (ns : Namespace) : (s.pushNamespace ns).Sound := by
  have hlength : s.namespaces.length ≤ (s.pushNamespace ns).namespaces.length := by
    rw [Schema.pushNamespace, List.length_append]
    exact Nat.le_add_right _ _
  exact
    { enum_scope := fun e he ↦ Nat.lt_of_lt_of_le (h.enum_scope e he) hlength
      aggregate_scope := fun a ha ↦ Nat.lt_of_lt_of_le (h.aggregate_scope a ha) hlength
      root_declared := h.root_declared
      payloads_declared := h.payloads_declared
      types_declared := h.types_declared }

theorem edit (h : s.Sound) {edit : Edit} (hedit : edit.keepsReferences = true) :
    (s.edit edit).Sound := by
  cases edit with
  | enumGenerated key on => exact h.modify_enums key (fun _ ↦ rfl) (fun _ ↦ rfl) (fun _ ↦ rfl)
  | aggregateGenerated key on =>
    exact h.modify_aggregates key (fun _ ↦ rfl) (fun _ ↦ rfl) (fun _ ↦ rfl)
  | sortBySize key on => exact h.modify_aggregates key (fun _ ↦ rfl) (fun _ ↦ rfl) (fun _ ↦ rfl)
  | pushNamespace components => exact h.pushNamespace ⟨components⟩
  | fileIdentifier value | fileExtension value | sourceFile value | fileName value
  | includeFile value =>
    exact ⟨h.enum_scope, h.aggregate_scope, h.root_declared, h.payloads_declared, h.types_declared⟩
  | isUnion _ _ | removeEnum _ | removeAggregate _ | popNamespace | rootType _ => exact nomatch hedit

/-! ## Runs of edits -/

theorem editAll (h : s.Sound) {edits : List Edit}
    (hedits : ∀ edit ∈ edits, edit.keepsReferences = true) : (s.editAll edits).Sound := by
  induction edits generalizing s with
  | nil => exact h
  | cons edit edits ih =>
    obtain ⟨hedit, hedits⟩ := List.forall_mem_cons.mp hedits
    exact ih (h.edit hedit) hedits

end Sound

end Schema

end BufferSchema
