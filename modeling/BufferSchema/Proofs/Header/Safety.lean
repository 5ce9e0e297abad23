import BufferSchema.Proofs.Header.Emission
import BufferSchema.Proofs.Schema.Soundness
import BufferSchema.Report

/-!
# Emission of sound schemas

Loading checks references so that emission need not. Here the two sides are put together: every name
that a spelling, a dispatcher, a forward declaration or a root helper looks up in a sound schema was
checked when the schema was loaded. Masks of padding are the one thing that no check looks at, so
that they are all that can stop the emission of a loaded schema.
-/

namespace BufferSchema

namespace Schema

variable {s : Schema} {options : Options}

theorem succeeds_report :
    Succeeds (s.report options) ↔ Succeeds s.forwardDeclarations ∧ Succeeds s.rootAggregate := by
  rw [report, Attempt.succeeds_map, reportLines]
  exact Attempt.succeeds_bind_iff_and fun forward _ ↦ Attempt.succeeds_bind_pure

/-- The active namespace is the one at the last position. -/
theorem getElem?_activeIndex : s.namespaces[s.activeIndex]? = some s.activeNamespace := by
  rw [activeIndex, activeNamespace, ← List.getLast?_eq_getElem?]
  exact List.getLast?_eq_some_getLast s.namespaces_ne_nil

namespace Sound

variable (h : s.Sound)

include h

/-! ## Names -/

theorem reachesEnum {name : String} (hname : name ∈ s.enums.keys) : s.ReachesEnum name := by
  obtain ⟨e, he⟩ := Declarations.exists_get?_of_mem_keys hname
  exact ⟨e, he, h.enum_scope e (Declarations.mem_values_of_get? he)⟩

theorem reachesAggregate {name : String} (hname : name ∈ s.aggregates.keys) :
    s.ReachesAggregate name := by
  obtain ⟨a, ha⟩ := Declarations.exists_get?_of_mem_keys hname
  exact ⟨a, ha, h.aggregate_scope a (Declarations.mem_values_of_get? ha)⟩

theorem spells_of_declares {type : TypeRef} (htype : s.Declares type) :
    s.Spells type ∧ s.ReachesUnion type := by
  refine ⟨⟨fun name hname ↦ ?_, fun name fixed hname ↦ ?_⟩, fun name hname ↦ ?_⟩
  · exact h.reachesEnum (htype.1 name (TypeRef.namesEnum_of_scalarEnum? hname))
  · obtain ⟨a, ha, -⟩ := htype.2 name fixed hname
    exact h.reachesAggregate (Declarations.mem_keys_of_get? ha)
  · exact h.reachesEnum (htype.1 name (hname ▸ .union))

theorem spells {a : Aggregate} (ha : a ∈ s.aggregates.values) {f : Field} (hf : f ∈ a.fields) :
    s.Spells f.type ∧ s.ReachesUnion f.type :=
  h.spells_of_declares (h.types_declared a ha f hf)

theorem reachesPayloads {e : Enumeration} (he : e ∈ s.enums.values) (hunion : e.isUnion = true) :
    s.ReachesPayloads e := by
  intro v hv
  obtain ⟨hdeclared, hpresent⟩ := h.payloads_declared e he
  obtain ⟨name, hname⟩ := Option.ne_none_iff_exists'.mp (hpresent hunion v hv)
  exact ⟨name, hname, h.reachesAggregate (hdeclared v (List.mem_of_mem_tail hv) name hname)⟩

/-! ## Parts of a header -/

theorem succeeds_forwardDeclarations : Succeeds s.forwardDeclarations :=
  Schema.succeeds_forwardDeclarations.mpr h.aggregate_scope

theorem succeeds_rootAggregate : Succeeds s.rootAggregate :=
  Schema.succeeds_rootAggregate.mpr h.root_declared

theorem succeeds_report : Succeeds (s.report options) :=
  Schema.succeeds_report.mpr ⟨h.succeeds_forwardDeclarations, h.succeeds_rootAggregate⟩

theorem succeeds_rootHelpers : Succeeds (s.rootHelpers options) :=
  Schema.succeeds_rootHelpers.mpr h.succeeds_rootAggregate

theorem succeeds_ofEnum {e : Enumeration} (he : e ∈ s.enums.values) :
    Succeeds (EnumFragment.ofEnum s options e) :=
  EnumFragment.succeeds_ofEnum.mpr (h.reachesPayloads he)

theorem succeeds_ofTable {a : Aggregate} (ha : a ∈ s.aggregates.values) :
    Succeeds (TableFragment.ofAggregate s options a) :=
  TableFragment.succeeds_ofAggregate.mpr fun _ hf ↦ h.spells ha (List.mem_of_mem_filter hf)

/-! ## Headers -/

/-- A sound schema is emitted unless a mask of a struct is too wide. -/
theorem succeeds_generate_iff : Succeeds (s.generate options) ↔
    ∀ a ∈ s.pendingStructs, ∀ f ∈ a.fields, f.padding ≤ 15 := by
  rw [succeeds_generate]
  constructor
  · intro ⟨hdeclarations, _⟩ a ha f hf
    exact (hdeclarations.structs a ha f hf).2
  · intro hpadding
    refine ⟨?_, Or.inr ⟨h.aggregate_scope, h.root_declared⟩⟩
    exact
      { enums := fun e he ↦ h.reachesPayloads (List.mem_of_mem_filter he)
        structs := fun a ha f hf ↦
          ⟨(h.spells (List.mem_of_mem_filter ha) hf).1, hpadding a ha f hf⟩
        tables := fun a ha f hf ↦ h.spells (List.mem_of_mem_filter ha) (List.mem_of_mem_filter hf) }

/-- What stops the emission of a sound schema is a mask, and the fault shows it. -/
theorem exists_of_generate_eq_error {fault : Fault} (hfault : s.generate options = .error fault) :
    ∃ a ∈ s.pendingStructs, ∃ f ∈ a.fields, 15 < f.padding ∧ fault = .widePadding f.padding := by
  rw [generate] at hfault
  have hheader : s.header? options = .error fault := by
    rcases Attempt.bind_eq_error.mp hfault with hfault | ⟨header, -, hfault⟩
    · exact hfault
    · cases header <;> exact absurd hfault Attempt.pure_ne_error
  -- the steps in their order: of all that can fail on any schema, only structs are left
  rw [header?] at hheader
  rcases Attempt.bind_eq_error.mp hheader with hfault | ⟨enums, -, hheader⟩
  · obtain ⟨e, he, hfault⟩ := Attempt.exists_mem_of_mapM_eq_error hfault
    have hok : Succeeds (EnumFragment.ofEnum s options e) :=
      h.succeeds_ofEnum (List.mem_of_mem_filter he)
    exact absurd hfault (Attempt.ne_error_of_succeeds hok fault)
  rcases Attempt.bind_eq_error.mp hheader with hfault | ⟨structs, -, hheader⟩
  · obtain ⟨a, ha, hfault⟩ := Attempt.exists_mem_of_mapM_eq_error hfault
    have hspells : ∀ f ∈ a.fields, s.Spells f.type :=
      fun f hf ↦ (h.spells (List.mem_of_mem_filter ha) hf).1
    exact ⟨a, ha, StructFragment.exists_of_ofAggregate_eq_error hspells hfault⟩
  rcases Attempt.bind_eq_error.mp hheader with hfault | ⟨tables, -, hheader⟩
  · obtain ⟨a, ha, hfault⟩ := Attempt.exists_mem_of_mapM_eq_error hfault
    have hok : Succeeds (TableFragment.ofAggregate s options a) :=
      h.succeeds_ofTable (List.mem_of_mem_filter ha)
    exact absurd hfault (Attempt.ne_error_of_succeeds hok fault)
  split at hheader
  · exact absurd hheader Attempt.pure_ne_error
  rcases Attempt.bind_eq_error.mp hheader with hfault | ⟨forward, -, hheader⟩
  · exact absurd hfault (Attempt.ne_error_of_succeeds h.succeeds_forwardDeclarations fault)
  rcases Attempt.bind_eq_error.mp hheader with hfault | ⟨helpers, -, hheader⟩
  · exact absurd hfault (Attempt.ne_error_of_succeeds h.succeeds_rootHelpers fault)
  · exact absurd hheader Attempt.pure_ne_error

end Sound

/-- The structs that are still to be emitted, told among all aggregates. -/
theorem mem_pendingStructs_iff {a : Aggregate} :
    a ∈ s.pendingStructs ↔ a ∈ s.aggregates.values ∧ a.fixed = true ∧ a.generated = false := by
  rw [pendingStructs, List.mem_filter, Bool.and_eq_true, Bool.not_eq_true', and_comm (b := _ = true)]

end Schema

/-- **Safety of loaded schemas.** A loaded schema, edited by whatever touches no reference, can be
reported on and has its forward declarations. The include guard spells the active namespace, which
is there; a rule for a build looks nothing up. The header is emitted unless a struct that is still
to be emitted has a field whose mask of padding has more than four bits, and no other fault can stop
it. -/
theorem emission_safe_of_loaded {d : Document} {s : Schema} (h : Schema.ofDocument d = .ok s)
    (edits : List Edit) (hedits : ∀ edit ∈ edits, edit.keepsReferences = true)
    (options : Options) :
    let t := s.editAll edits
    Succeeds (t.report options) ∧ Succeeds t.forwardDeclarations ∧
      (0 < t.namespaces.length ∧ t.namespaces[t.namespaces.length - 1]? = some t.activeNamespace ∧
        t.includeGuard = uppercase ("FLATBUFFERS_GENERATED_" ++
          String.ofList (t.fileName.toList.filter isAsciiAlphanum) ++ "_" ++
          t.activeNamespace.path "_" "H_")) ∧
      (¬ Succeeds (t.generate options) ↔
        ∃ a ∈ t.aggregates.values, a.fixed = true ∧ a.generated = false ∧
          ∃ f ∈ a.fields, 15 < f.padding) ∧
      ∀ fault, t.generate options = .error fault →
        ∃ a ∈ t.aggregates.values, a.fixed = true ∧ a.generated = false ∧
          ∃ f ∈ a.fields, 15 < f.padding ∧ fault = .widePadding f.padding := by
  intro t
  have ht : t.Sound := (Schema.sound_of_ofDocument h).editAll hedits
  have hlength : 0 < t.namespaces.length := List.length_pos_iff.mpr t.namespaces_ne_nil
  have hfault {fault : Fault} (hfault : t.generate options = .error fault) :
      ∃ a ∈ t.aggregates.values, a.fixed = true ∧ a.generated = false ∧
        ∃ f ∈ a.fields, 15 < f.padding ∧ fault = .widePadding f.padding := by
    obtain ⟨a, ha, hpadding⟩ := ht.exists_of_generate_eq_error hfault
    obtain ⟨hmem, hfixed, hgenerated⟩ := Schema.mem_pendingStructs_iff.mp ha
    exact ⟨a, hmem, hfixed, hgenerated, hpadding⟩
  refine ⟨ht.succeeds_report, ht.succeeds_forwardDeclarations,
    ⟨hlength, t.getElem?_activeIndex, rfl⟩, ⟨fun hfails ↦ ?_, ?_⟩, fun fault ↦ hfault⟩
  · obtain ⟨fault, hgenerate⟩ := Attempt.not_succeeds_iff.mp hfails
    obtain ⟨a, ha, hfixed, hgenerated, f, hf, hwide, -⟩ := hfault hgenerate
    exact ⟨a, ha, hfixed, hgenerated, f, hf, hwide⟩
  · rintro ⟨a, ha, hfixed, hgenerated, f, hf, hwide⟩ hok
    have hpending := Schema.mem_pendingStructs_iff.mpr ⟨ha, hfixed, hgenerated⟩
    exact UInt8.not_le.mpr hwide (ht.succeeds_generate_iff.mp hok a hpending f hf)

/-- A document whose fields all have a mask of padding that is too wide. -/
def paddedDocument : Document :=
  { mutualDocument with
    aggregates := mutualDocument.aggregates.map fun a ↦
      { a with fields := a.fields.map fun f ↦ { f with padding := 16 } } }

/-- A wide mask stops the struct of the document but not its table: with the struct marked as
generated, in whatever namespace is active by then, the header is emitted. -/
theorem emission_safe_of_loaded_padded : ∃ s, Schema.ofDocument paddedDocument = .ok s ∧
    ¬ Succeeds (s.generate {}) ∧
    Succeeds ((s.editAll [.pushNamespace ["Late"], .aggregateGenerated "Game.Leaf" true]).generate
      { mutableBuffer := true }) := by
  refine ⟨_, rfl, ?_, ?_⟩
  · have hsafe := emission_safe_of_loaded (d := paddedDocument) rfl [] nofun {}
    refine hsafe.2.2.2.1.mpr ⟨_, List.mem_cons_of_mem _ List.mem_cons_self, rfl, rfl, _,
      List.mem_cons_self, by decide⟩
  · have hsafe := emission_safe_of_loaded (d := paddedDocument) rfl
      [.pushNamespace ["Late"], .aggregateGenerated "Game.Leaf" true] (by decide)
      { mutableBuffer := true }
    by_contra hfails
    -- the only struct is marked by now
    obtain ⟨a, ha, hfixed, hgenerated, -⟩ := hsafe.2.2.2.1.mp hfails
    revert a
    decide

end BufferSchema
