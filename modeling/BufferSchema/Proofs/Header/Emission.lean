import BufferSchema.Header.Basic
import BufferSchema.Proofs.Header.ForwardPlan
import BufferSchema.Proofs.Header.Spelling

/-!
# When a header is emitted

For each part of a header the exact condition under which it is emitted, on any schema, one that was
edited into disorder too. The conditions speak of the names and the padding masks that the part
looks at and of nothing else. `Schema.succeeds_generate` puts them together.

## The construction

A fragment is made in a few steps that each can fail, so that its condition is the conjunction of
theirs. Most of the steps spell the type of a field in one style or another, and `Schema.Spells`
covers all styles: the aggregates and the enumeration in a type are found, and their namespaces too.
A field of a struct has its mask of padding besides, and a live field of a table the tag of its
union. So the condition of a declaration is one line about each of its fields.

## Faults

Where all names are found, a struct can still fail for a mask of padding. This is the one fault that
a loaded schema runs into, and it is traced back to the field with the mask.
-/

namespace BufferSchema

variable {s : Schema} {options : Options} {fault : Fault}

/-! ## Enumerations -/

/-- Every value but the first selects an aggregate that can be spelled. -/
def Schema.ReachesPayloads (s : Schema) (e : Enumeration) : Prop :=
  ∀ v ∈ e.values.tail, ∃ name, v.unionType = some name ∧ s.ReachesAggregate name

theorem Dispatcher.succeeds_payloadCases {e : Enumeration} {values : List EnumValue} :
    Succeeds (payloadCases s options e values) ↔
      ∀ v ∈ values, ∃ name, v.unionType = some name ∧ s.ReachesAggregate name := by
  rw [payloadCases, Attempt.succeeds_mapM]
  refine forall₂_congr fun v _ ↦ ?_
  cases v.unionType with
  | none => exact iff_of_false (Attempt.not_succeeds_throw _) nofun
  | some name =>
    dsimp only
    rw [← bind_assoc, Attempt.succeeds_bind_pure, Schema.succeeds_qualify_aggregate]
    exact ⟨fun h ↦ ⟨name, rfl, h⟩, fun ⟨_, hname, h⟩ ↦ Option.some.inj hname ▸ h⟩

theorem Dispatcher.succeeds_ofEnum {e : Enumeration} :
    Succeeds (Dispatcher.ofEnum s options e) ↔ s.ReachesPayloads e := by
  rw [Dispatcher.ofEnum, Schema.ReachesPayloads]
  -- the first value stands for no payload, whatever it is called
  cases e.values with
  | nil => exact iff_of_true (Attempt.succeeds_pure _) nofun
  | cons first rest => exact Attempt.succeeds_bind_pure.trans succeeds_payloadCases

theorem EnumFragment.succeeds_ofEnum {e : Enumeration} :
    Succeeds (EnumFragment.ofEnum s options e) ↔ (e.isUnion = true → s.ReachesPayloads e) := by
  rw [EnumFragment.ofEnum]
  by_cases h : e.isUnion = true
  · rw [if_pos h, forall_prop_of_true h]
    exact Attempt.succeeds_bind_pure.trans (Attempt.succeeds_map.trans Dispatcher.succeeds_ofEnum)
  · rw [if_neg h]
    exact iff_of_true (Attempt.succeeds_bind_pure.mpr (Attempt.succeeds_pure _)) (absurd · h)

/-! ## Structs -/

/-! ### Masks of padding -/

private theorem and_eq_zero_iff (mask : UInt8) : mask &&& 0xF0 = 0 ↔ mask ≤ 15 := by
  obtain ⟨⟨mask⟩⟩ := mask
  revert mask
  decide +kernel

theorem paddingWidths_eq_error {mask : UInt8} :
    paddingWidths mask = .error fault ↔ 15 < mask ∧ fault = .widePadding mask := by
  rw [paddingWidths, ← UInt8.not_le, ← and_eq_zero_iff]
  by_cases h : mask &&& 0xF0 = 0
  · rw [if_pos h]
    exact iff_of_false Attempt.pure_ne_error fun h' ↦ h'.1 h
  · rw [if_neg h, Attempt.throw_eq_error]
    exact ⟨fun h' ↦ ⟨h, h'.symm⟩, fun h' ↦ h'.2.symm⟩

theorem succeeds_paddingWidths {mask : UInt8} : Succeeds (paddingWidths mask) ↔ mask ≤ 15 := by
  rw [← not_iff_not, Attempt.not_succeeds_iff, UInt8.not_le]
  exact ⟨fun ⟨_, h⟩ ↦ (paddingWidths_eq_error.mp h).1,
    fun h ↦ ⟨_, paddingWidths_eq_error.mpr ⟨h, rfl⟩⟩⟩

/-! ### Parts of a struct -/

theorem StructMember.succeeds_ofFields {number : Nat} {fields : List Field} :
    Succeeds (StructMember.ofFields s number fields) ↔
      ∀ f ∈ fields, s.ReachesAggregates f.type ∧ f.padding ≤ 15 := by
  induction fields generalizing number with
  | nil => exact iff_of_true (Attempt.succeeds_pure _) nofun
  | cons f fields ih =>
    have htype : Succeeds (s.viewSpelling " " "" " " false f.type) ↔
        s.ReachesAggregates f.type := by
      rw [Schema.succeeds_viewSpelling]
      exact and_iff_right nofun
    rw [StructMember.ofFields, List.forall_mem_cons, and_assoc, ← htype, ← succeeds_paddingWidths]
    refine Attempt.succeeds_bind_iff_and fun type _ ↦ ?_
    exact Attempt.succeeds_bind_iff_and fun widths _ ↦ Attempt.succeeds_bind_pure.trans ih

theorem StructParameter.succeeds_ofField {f : Field} :
    Succeeds (StructParameter.ofField s f) ↔ s.Spells f.type := by
  rw [StructParameter.ofField, Attempt.succeeds_bind_pure, Schema.succeeds_viewSpelling_true]

/-- The value of an initializer is always there: on its way to storage, no enumeration is
spelled. -/
private theorem StructInitializer.ofFields_cons (number : Nat) (f : Field) (fields : List Field) :
    ∃ value, StructInitializer.ofFields s number (f :: fields) =
      paddingWidths f.padding >>= fun widths ↦
        StructInitializer.ofFields s (number + widths.length) fields >>= fun initializers ↦
          pure (.field f.name value :: (List.range' number widths.length).map .padding ++
            initializers) := by
  rw [StructInitializer.ofFields]
  by_cases h : f.type.isScalar = true
  · rw [if_pos h]
    obtain ⟨stored, hstored⟩ : Succeeds (s.conversion false f.type) :=
      Schema.succeeds_conversion.mpr nofun
    rw [hstored]
    exact ⟨_, rfl⟩
  · rw [if_neg h]
    exact ⟨_, rfl⟩

theorem StructInitializer.succeeds_ofFields {number : Nat} {fields : List Field} :
    Succeeds (StructInitializer.ofFields s number fields) ↔ ∀ f ∈ fields, f.padding ≤ 15 := by
  induction fields generalizing number with
  | nil => exact iff_of_true (Attempt.succeeds_pure _) nofun
  | cons f fields ih =>
    obtain ⟨value, hcons⟩ := StructInitializer.ofFields_cons (s := s) number f fields
    rw [hcons, List.forall_mem_cons, ← succeeds_paddingWidths]
    exact Attempt.succeeds_bind_iff_and fun widths _ ↦ Attempt.succeeds_bind_pure.trans ih

theorem StructAccessor.succeeds_ofField {f : Field} :
    Succeeds (StructAccessor.ofField s options f) ↔ s.Spells f.type := by
  rw [StructAccessor.ofField]
  -- the result is spelled first, and no later step meets a name that it did not meet
  refine ⟨fun h ↦ Schema.succeeds_viewSpelling_true.mp (Attempt.succeeds_of_bind h), fun h ↦ ?_⟩
  refine Attempt.succeeds_bind_of_forall (Schema.succeeds_viewSpelling_true.mpr h) fun result ↦ ?_
  refine Attempt.succeeds_bind_of_forall (Schema.succeeds_conversion.mpr fun _ ↦ h.1) fun value ↦ ?_
  dsimp only
  by_cases hmutable : options.mutableBuffer = true
  · rw [if_pos hmutable]
    by_cases hscalar : f.type.isScalar = true
    · rw [if_pos hscalar]
      refine Attempt.succeeds_bind_of_forall (Schema.succeeds_basicSpelling.mpr fun _ ↦ h.1)
        fun type ↦ ?_
      exact Attempt.succeeds_bind_of_forall (Schema.succeeds_conversion.mpr nofun) fun _ ↦ ⟨_, rfl⟩
    · rw [if_neg hscalar]
      exact Attempt.succeeds_bind_of_forall (Schema.succeeds_viewSpelling_true.mpr h)
        fun _ ↦ ⟨_, rfl⟩
  · rw [if_neg hmutable]
    exact ⟨_, rfl⟩

/-- A struct is emitted if its types can be spelled and its masks have four bits. -/
theorem StructFragment.succeeds_ofAggregate {a : Aggregate} :
    Succeeds (StructFragment.ofAggregate s options a) ↔
      ∀ f ∈ a.fields, s.Spells f.type ∧ f.padding ≤ 15 := by
  have hparameters : Succeeds (a.fields.mapM (StructParameter.ofField s)) ↔
      ∀ f ∈ a.fields, s.Spells f.type :=
    Attempt.succeeds_mapM.trans (forall₂_congr fun _ _ ↦ StructParameter.succeeds_ofField)
  have haccessors : Succeeds (a.fields.mapM (StructAccessor.ofField s options)) ↔
      ∀ f ∈ a.fields, s.Spells f.type :=
    Attempt.succeeds_mapM.trans (forall₂_congr fun _ _ ↦ StructAccessor.succeeds_ofField)
  have hparts : Succeeds (StructFragment.ofAggregate s options a) ↔
      (∀ f ∈ a.fields, s.ReachesAggregates f.type ∧ f.padding ≤ 15) ∧
        (∀ f ∈ a.fields, s.Spells f.type) ∧ (∀ f ∈ a.fields, f.padding ≤ 15) ∧
        ∀ f ∈ a.fields, s.Spells f.type := by
    -- one loop for each part, each with its own condition
    rw [StructFragment.ofAggregate, ← StructMember.succeeds_ofFields (s := s),
      ← StructInitializer.succeeds_ofFields (s := s)]
    refine Attempt.succeeds_bind_iff_and fun members _ ↦ ?_
    refine (Attempt.succeeds_bind_iff_and fun parameters _ ↦ ?_).trans
      (and_congr_left' hparameters)
    refine Attempt.succeeds_bind_iff_and fun initializers _ ↦ ?_
    exact Attempt.succeeds_bind_pure.trans haccessors
  rw [hparts]
  constructor
  · rintro ⟨hmembers, hspells, -, -⟩ f hf
    exact ⟨hspells f hf, (hmembers f hf).2⟩
  · intro h
    exact ⟨fun f hf ↦ ⟨(h f hf).1.2, (h f hf).2⟩, fun f hf ↦ (h f hf).1, fun f hf ↦ (h f hf).2,
      fun f hf ↦ (h f hf).1⟩

/-! ### Faults of padding -/

section padding

variable {fields : List Field}

private theorem StructMember.exists_of_ofFields_eq_error {number : Nat}
    (hspells : ∀ f ∈ fields, s.Spells f.type)
    (h : StructMember.ofFields s number fields = .error fault) :
    ∃ f ∈ fields, paddingWidths f.padding = .error fault := by
  induction fields generalizing number with
  | nil => exact absurd h Attempt.pure_ne_error
  | cons f fields ih =>
    obtain ⟨hf, hfields⟩ := List.forall_mem_cons.mp hspells
    have htype : Succeeds (s.viewSpelling " " "" " " false f.type) :=
      Schema.succeeds_viewSpelling.mpr ⟨nofun, hf.2⟩
    -- of the steps for a field only the one that splits its mask can fail
    rw [StructMember.ofFields] at h
    rcases Attempt.bind_eq_error.mp h with h | ⟨type, -, h⟩
    · exact absurd h (Attempt.ne_error_of_succeeds htype fault)
    rcases Attempt.bind_eq_error.mp h with h | ⟨widths, -, h⟩
    · exact ⟨f, List.mem_cons_self, h⟩
    rcases Attempt.bind_eq_error.mp h with h | ⟨members, -, h⟩
    · obtain ⟨g, hg, h⟩ := ih hfields h
      exact ⟨g, List.mem_cons_of_mem f hg, h⟩
    · exact absurd h Attempt.pure_ne_error

private theorem StructInitializer.exists_of_ofFields_eq_error {number : Nat}
    (h : StructInitializer.ofFields s number fields = .error fault) :
    ∃ f ∈ fields, paddingWidths f.padding = .error fault := by
  induction fields generalizing number with
  | nil => exact absurd h Attempt.pure_ne_error
  | cons f fields ih =>
    obtain ⟨value, hcons⟩ := StructInitializer.ofFields_cons (s := s) number f fields
    rw [hcons] at h
    rcases Attempt.bind_eq_error.mp h with h | ⟨widths, -, h⟩
    · exact ⟨f, List.mem_cons_self, h⟩
    rcases Attempt.bind_eq_error.mp h with h | ⟨initializers, -, h⟩
    · obtain ⟨g, hg, h⟩ := ih h
      exact ⟨g, List.mem_cons_of_mem f hg, h⟩
    · exact absurd h Attempt.pure_ne_error

/-- A struct whose types can be spelled fails for a mask that is too wide. -/
theorem StructFragment.exists_of_ofAggregate_eq_error {a : Aggregate}
    (hspells : ∀ f ∈ a.fields, s.Spells f.type)
    (h : StructFragment.ofAggregate s options a = .error fault) :
    ∃ f ∈ a.fields, 15 < f.padding ∧ fault = .widePadding f.padding := by
  have hpadding : ∃ f ∈ a.fields, paddingWidths f.padding = .error fault := by
    rw [StructFragment.ofAggregate] at h
    rcases Attempt.bind_eq_error.mp h with h | ⟨members, -, h⟩
    · exact StructMember.exists_of_ofFields_eq_error hspells h
    rcases Attempt.bind_eq_error.mp h with h | ⟨parameters, -, h⟩
    · obtain ⟨f, hf, h⟩ := Attempt.exists_mem_of_mapM_eq_error h
      exact absurd h
        (Attempt.ne_error_of_succeeds (StructParameter.succeeds_ofField.mpr (hspells f hf)) fault)
    rcases Attempt.bind_eq_error.mp h with h | ⟨initializers, -, h⟩
    · exact StructInitializer.exists_of_ofFields_eq_error h
    rcases Attempt.bind_eq_error.mp h with h | ⟨accessors, -, h⟩
    · obtain ⟨f, hf, h⟩ := Attempt.exists_mem_of_mapM_eq_error h
      exact absurd h
        (Attempt.ne_error_of_succeeds (StructAccessor.succeeds_ofField.mpr (hspells f hf)) fault)
    · exact absurd h Attempt.pure_ne_error
  obtain ⟨f, hf, h⟩ := hpadding
  exact ⟨f, hf, paddingWidths_eq_error.mp h⟩

end padding

/-! ## Tables -/

/-- The enumeration of a union can be spelled. -/
def Schema.ReachesUnion (s : Schema) (type : TypeRef) : Prop :=
  ∀ name, type = .union name → s.ReachesEnum name

section table

variable {a : Aggregate} {f : Field}

/-! ### Accessors -/

theorem TableAccessor.succeeds_keyOf (h : s.Spells f.type) :
    Succeeds (TableAccessor.keyOf s options a f) := by
  unfold TableAccessor.keyOf
  split
  · exact Attempt.succeeds_pure _
  · by_cases hscoped : (options.scopedEnums && f.type.scalarEnum?.isSome) = true
    · rw [if_pos hscoped]
      exact Attempt.succeeds_bind_of_forall (Schema.succeeds_viewSpelling_true.mpr h)
        fun _ ↦ ⟨_, rfl⟩
    · rw [if_neg hscoped]
      exact Attempt.succeeds_bind_of_forall (Schema.succeeds_basicSpelling.mpr nofun)
        fun _ ↦ ⟨_, rfl⟩

theorem TableAccessor.succeeds_mutatorOf (h : s.Spells f.type) :
    Succeeds (TableAccessor.mutatorOf s f) := by
  rw [TableAccessor.mutatorOf]
  by_cases hscalar : f.type.isScalar = true
  · rw [if_pos hscalar]
    refine Attempt.succeeds_bind_of_forall (Schema.succeeds_basicSpelling.mpr fun _ ↦ h.1)
      fun type ↦ ?_
    exact Attempt.succeeds_bind_pure.mpr (Schema.succeeds_conversion.mpr nofun)
  · rw [if_neg hscalar]
    exact Attempt.succeeds_bind_pure.mpr (Schema.succeeds_viewSpelling_true.mpr h)

theorem TableAccessor.succeeds_ofField :
    Succeeds (TableAccessor.ofField s options a f) ↔ s.Spells f.type := by
  rw [TableAccessor.ofField]
  constructor
  · intro h
    obtain ⟨stored, -, h⟩ := Attempt.succeeds_bind.mp h
    exact Schema.succeeds_viewSpelling_true.mp (Attempt.succeeds_of_bind h)
  · intro h
    refine Attempt.succeeds_bind_of_forall (Schema.succeeds_viewSpelling.mpr ⟨nofun, h.2⟩)
      fun stored ↦ ?_
    refine Attempt.succeeds_bind_of_forall (Schema.succeeds_viewSpelling_true.mpr h) fun type ↦ ?_
    refine Attempt.succeeds_bind_of_forall (Schema.succeeds_conversion.mpr fun _ ↦ h.1)
      fun conversion ↦ ?_
    dsimp only
    refine Attempt.succeeds_ite_bind (fun _ ↦ ?_) (fun _ ↦ Attempt.succeeds_pure _) fun mutator ↦ ?_
    · exact Attempt.succeeds_map.mpr (succeeds_mutatorOf h)
    refine Attempt.succeeds_ite_bind (fun _ ↦ ?_) (fun _ ↦ Attempt.succeeds_pure _) fun key ↦ ?_
    · exact Attempt.succeeds_map.mpr (succeeds_keyOf h)
    · exact Attempt.succeeds_pure _

/-! ### Checks, setters and parameters -/

theorem Check.succeeds_ofContent {field : String} {type : TypeRef} :
    Succeeds (Check.ofContent s field type) ↔ s.ReachesUnion type := by
  cases type with
  | union tagEnum =>
    rw [Check.ofContent, ← bind_assoc, Attempt.succeeds_bind_pure,
      Schema.succeeds_qualify_enumeration]
    exact ⟨fun h _ hname ↦ TypeRef.union.inj hname ▸ h, fun h ↦ h tagEnum rfl⟩
  | aggregate target fixed =>
    cases fixed <;> exact iff_of_true (Attempt.succeeds_pure _) nofun
  | vector element =>
    refine iff_of_true ?_ nofun
    cases element with
    | aggregate target fixed => cases fixed <;> exact Attempt.succeeds_pure _
    | scalar kind enumName | bool | string | vector element | union tagEnum =>
      exact Attempt.succeeds_pure _
  | scalar kind enumName | bool | string => exact iff_of_true (Attempt.succeeds_pure _) nofun

theorem Check.succeeds_ofField (h : s.ReachesAggregates f.type) :
    Succeeds (Check.ofField s f) ↔ s.ReachesUnion f.type := by
  rw [Check.ofField]
  refine (Attempt.succeeds_bind_iff_and fun type _ ↦ ?_).trans
    (and_iff_right (Schema.succeeds_sizeSpelling h))
  exact Attempt.succeeds_bind_pure.trans succeeds_ofContent

theorem Setter.succeeds_ofField : Succeeds (Setter.ofField s f) ↔ s.Spells f.type := by
  rw [Setter.ofField]
  dsimp only
  constructor
  · intro h
    obtain ⟨stored, h⟩ := Attempt.exists_succeeds_of_ite_bind h
    obtain ⟨conversion, -, h⟩ := Attempt.succeeds_bind.mp h
    exact Schema.succeeds_wireSpelling_true.mp (Attempt.succeeds_of_bind h)
  · intro h
    refine Attempt.succeeds_ite_bind (fun _ ↦ ?_) (fun _ ↦ Attempt.succeeds_pure _) fun stored ↦ ?_
    · exact Attempt.succeeds_map.mpr (Schema.succeeds_wireSpelling.mpr ⟨nofun, h.2⟩)
    refine Attempt.succeeds_bind_of_forall (Schema.succeeds_conversion.mpr nofun)
      fun conversion ↦ ?_
    exact Attempt.succeeds_bind_pure.mpr (Schema.succeeds_wireSpelling_true.mpr h)

theorem CreateParameter.succeeds_defaultOf (h : s.Spells f.type) :
    Succeeds (CreateParameter.defaultOf s options f) := by
  unfold CreateParameter.defaultOf
  split
  · next kind name htype =>
    obtain ⟨e, he, hscope⟩ := h.1 name (by rw [htype]; rfl)
    refine Attempt.succeeds_bind.mpr ⟨e, Schema.enumeration_eq_ok.mpr he, ?_⟩
    split
    · exact Schema.succeeds_qualify.mpr hscope
    · exact Attempt.succeeds_bind_pure.mpr (Schema.succeeds_conversion.mpr fun _ ↦ h.1)
  · exact Attempt.succeeds_pure _
  · exact Attempt.succeeds_pure _

theorem CreateParameter.succeeds_ofField :
    Succeeds (CreateParameter.ofField s options f) ↔ s.Spells f.type := by
  rw [CreateParameter.ofField]
  refine ⟨fun h ↦ Schema.succeeds_wireSpelling_true.mp (Attempt.succeeds_of_bind h), fun h ↦ ?_⟩
  exact Attempt.succeeds_bind_of_forall (Schema.succeeds_wireSpelling_true.mpr h)
    fun type ↦ Attempt.succeeds_bind_pure.mpr (succeeds_defaultOf h)

/-- A table is emitted if the types and unions of its live fields can be spelled. -/
theorem TableFragment.succeeds_ofAggregate :
    Succeeds (TableFragment.ofAggregate s options a) ↔
      ∀ f ∈ a.liveFields, s.Spells f.type ∧ s.ReachesUnion f.type := by
  have hparts : Succeeds (TableFragment.ofAggregate s options a) ↔
      (∀ f ∈ a.liveFields, Succeeds (TableAccessor.ofField s options a f)) ∧
        (∀ f ∈ a.liveFields, Succeeds (Check.ofField s f)) ∧
        (∀ f ∈ a.liveFields, Succeeds (Setter.ofField s f)) ∧
        ∀ f ∈ a.liveFields, Succeeds (CreateParameter.ofField s options f) := by
    simp only [← Attempt.succeeds_mapM]
    rw [TableFragment.ofAggregate]
    refine Attempt.succeeds_bind_iff_and fun accessors _ ↦ ?_
    refine Attempt.succeeds_bind_iff_and fun checks _ ↦ ?_
    refine Attempt.succeeds_bind_iff_and fun setters _ ↦ ?_
    exact Attempt.succeeds_bind_pure
  rw [hparts]
  constructor
  · -- what a check spells, the accessor of the field has spelled already, but for unions
    rintro ⟨haccessors, hchecks, -, -⟩ f hf
    have hspells := TableAccessor.succeeds_ofField.mp (haccessors f hf)
    exact ⟨hspells, (Check.succeeds_ofField hspells.2).mp (hchecks f hf)⟩
  · intro h
    exact ⟨fun f hf ↦ TableAccessor.succeeds_ofField.mpr (h f hf).1,
      fun f hf ↦ (Check.succeeds_ofField (h f hf).1.2).mpr (h f hf).2,
      fun f hf ↦ Setter.succeeds_ofField.mpr (h f hf).1,
      fun f hf ↦ CreateParameter.succeeds_ofField.mpr (h f hf).1⟩

end table

/-! ## Forward declarations and root helpers -/

theorem Schema.succeeds_blockOf {a : Aggregate} {run : List Aggregate} :
    Succeeds (s.blockOf (a :: run)) ↔ a.scope.toNat < s.namespaces.length := by
  rw [blockOf, Attempt.succeeds_bind_pure, succeeds_namespaceAt]

theorem Schema.succeeds_forwardDeclarations : Succeeds s.forwardDeclarations ↔
    ∀ a ∈ s.aggregates.values, a.scope.toNat < s.namespaces.length := by
  rw [forwardDeclarations_eq, Attempt.succeeds_map, Attempt.succeeds_mapM]
  constructor
  · -- an aggregate is in the active namespace, which is there, or in one of the runs
    intro h a ha
    by_cases hactive : s.isActive a.scope = true
    · exact lt_length_of_isActive hactive
    · have hother : a ∈ s.otherAggregates := List.mem_filter.mpr ⟨ha, by simpa using hactive⟩
      rw [← List.flatten_splitBy _ s.otherAggregates] at hother
      obtain ⟨run, hrun, ha⟩ := List.mem_flatten.mp hother
      cases run with
      | nil => exact absurd ha List.not_mem_nil
      | cons b run =>
        rw [scope_eq_of_mem_scopeRuns hrun a ha]
        exact succeeds_blockOf.mp (h _ hrun)
  · intro h run hrun
    cases run with
    | nil => exact absurd rfl (List.ne_nil_of_mem_splitBy hrun)
    | cons a run =>
      have hother : a ∈ s.otherAggregates := by
        rw [← List.flatten_splitBy _ s.otherAggregates]
        exact List.mem_flatten_of_mem hrun List.mem_cons_self
      exact succeeds_blockOf.mpr (h a (List.mem_of_mem_filter hother))

theorem Schema.succeeds_rootAggregate : Succeeds s.rootAggregate ↔
    ∀ name, s.rootType = some name → name ∈ s.aggregates.keys := by
  rw [rootAggregate]
  cases s.rootType with
  | none => exact iff_of_true (Attempt.succeeds_pure _) nofun
  | some root =>
    dsimp only
    rw [Attempt.succeeds_bind_pure, succeeds_aggregate]
    exact ⟨fun h _ hname ↦ Option.some.inj hname ▸ h, fun h ↦ h root rfl⟩

theorem Schema.succeeds_rootHelpers :
    Succeeds (s.rootHelpers options) ↔ Succeeds s.rootAggregate := by
  rw [rootHelpers]
  refine ⟨Attempt.succeeds_of_bind, fun h ↦ Attempt.succeeds_bind_of_forall h fun root ↦ ?_⟩
  split <;> exact Attempt.succeeds_pure _

/-! ## Headers that are not blank

Whether there is anything to emit is decided by the texts of the fragments, before the rest of the
header is looked at. No fragment has an empty text, so that a header is blank exactly if it has no
fragment. -/

theorem EnumFragment.declarationLines_ne_nil (f : EnumFragment) : f.declarationLines ≠ [] := by
  simp [declarationLines]

theorem StructFragment.lines_ne_nil (f : StructFragment) : f.lines ≠ [] := by simp [lines]

theorem TableFragment.lines_ne_nil (f : TableFragment) : f.lines ≠ [] := by simp [lines, viewLines]

/-- No emitter gives an empty text, so that a header is blank for want of declarations alone. -/
theorem Header.isBlank_iff {enums : List EnumFragment} {structs : List StructFragment}
    {tables : List TableFragment} :
    isBlank enums structs tables = true ↔ enums = [] ∧ structs = [] ∧ tables = [] := by
  rw [isBlank, Bool.and_eq_true, String.isEmpty_iff, String.isEmpty_iff,
    String.append_eq_empty_iff, unlines_flatMap_eq_empty_iff EnumFragment.declarationLines_ne_nil,
    unlines_flatMap_eq_empty_iff StructFragment.lines_ne_nil,
    unlines_flatMap_eq_empty_iff TableFragment.lines_ne_nil]

namespace Schema

theorem isEmpty_eq : s.isEmpty =
    (s.pendingEnums.isEmpty && s.pendingStructs.isEmpty && s.pendingTables.isEmpty) := by
  rw [Bool.eq_iff_iff, isEmpty, pendingEnums, pendingStructs, pendingTables]
  simp only [Bool.and_eq_true, List.all_eq_true, List.isEmpty_iff, List.filter_eq_nil_iff,
    Bool.not_eq_true, and_assoc]
  refine and_congr (forall₂_congr fun e _ ↦ by simp) ?_
  rw [← forall₂_and]
  refine forall₂_congr fun a _ ↦ ?_
  cases a.generated <;> cases a.fixed <;> simp

/-- Whether a header is blank is told by the declarations that its fragments came from. -/
theorem isBlank_eq_isEmpty {enums : List EnumFragment} {structs : List StructFragment}
    {tables : List TableFragment}
    (henums : s.pendingEnums.mapM (EnumFragment.ofEnum s options) = .ok enums)
    (hstructs : s.pendingStructs.mapM (StructFragment.ofAggregate s options) = .ok structs)
    (htables : s.pendingTables.mapM (TableFragment.ofAggregate s options) = .ok tables) :
    Header.isBlank enums structs tables = s.isEmpty := by
  rw [Bool.eq_iff_iff, Header.isBlank_iff, isEmpty_eq, Bool.and_eq_true, Bool.and_eq_true,
    ← Attempt.isEmpty_eq_of_mapM_eq_ok henums, ← Attempt.isEmpty_eq_of_mapM_eq_ok hstructs,
    ← Attempt.isEmpty_eq_of_mapM_eq_ok htables, List.isEmpty_iff, List.isEmpty_iff,
    List.isEmpty_iff, and_assoc]

/-! ## Whole headers -/

/-- Every declaration that is still to be emitted can be. -/
structure EmitsDeclarations (s : Schema) : Prop where
  enums : ∀ e ∈ s.pendingEnums, e.isUnion = true → s.ReachesPayloads e
  structs : ∀ a ∈ s.pendingStructs, ∀ f ∈ a.fields, s.Spells f.type ∧ f.padding ≤ 15
  tables : ∀ a ∈ s.pendingTables, ∀ f ∈ a.liveFields, s.Spells f.type ∧ s.ReachesUnion f.type

theorem succeeds_header? : Succeeds (s.header? options) ↔
    s.EmitsDeclarations ∧ (s.isEmpty = true ∨ Succeeds s.forwardDeclarations ∧
      Succeeds s.rootAggregate) := by
  have hdeclarations : s.EmitsDeclarations ↔
      Succeeds (s.pendingEnums.mapM (EnumFragment.ofEnum s options)) ∧
        Succeeds (s.pendingStructs.mapM (StructFragment.ofAggregate s options)) ∧
        Succeeds (s.pendingTables.mapM (TableFragment.ofAggregate s options)) := by
    simp only [Attempt.succeeds_mapM, EnumFragment.succeeds_ofEnum,
      StructFragment.succeeds_ofAggregate, TableFragment.succeeds_ofAggregate]
    constructor
    · intro h
      exact ⟨h.enums, h.structs, h.tables⟩
    · rintro ⟨henums, hstructs, htables⟩
      exact ⟨henums, hstructs, htables⟩
  rw [hdeclarations, and_assoc, and_assoc, header?]
  refine Attempt.succeeds_bind_iff_and fun enums henums ↦ ?_
  refine Attempt.succeeds_bind_iff_and fun structs hstructs ↦ ?_
  refine Attempt.succeeds_bind_iff_and fun tables htables ↦ ?_
  rw [isBlank_eq_isEmpty henums hstructs htables]
  by_cases hempty : s.isEmpty = true
  · rw [if_pos hempty]
    exact iff_of_true (Attempt.succeeds_pure _) (Or.inl hempty)
  · rw [if_neg hempty, or_iff_right hempty]
    exact Attempt.succeeds_bind_iff_and fun forward _ ↦
      Attempt.succeeds_bind_pure.trans succeeds_rootHelpers

theorem succeeds_generate_iff_header? :
    Succeeds (s.generate options) ↔ Succeeds (s.header? options) := by
  rw [generate]
  refine ⟨Attempt.succeeds_of_bind, fun h ↦ Attempt.succeeds_bind_of_forall h fun header ↦ ?_⟩
  cases header <;> exact Attempt.succeeds_pure _

/-- **Emission.** A header is emitted, be it empty, if what is still to be emitted can be spelled
and, unless that is nothing, every aggregate is in a namespace that is there and the root type is
declared. -/
theorem succeeds_generate : Succeeds (s.generate options) ↔
    s.EmitsDeclarations ∧ (s.isEmpty = true ∨
      (∀ a ∈ s.aggregates.values, a.scope.toNat < s.namespaces.length) ∧
        ∀ name, s.rootType = some name → name ∈ s.aggregates.keys) := by
  rw [succeeds_generate_iff_header?, succeeds_header?, succeeds_forwardDeclarations,
    succeeds_rootAggregate]

end Schema

end BufferSchema
