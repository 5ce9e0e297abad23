import BufferSchema.Header.Basic
import BufferSchema.Proofs.Schema.Declarations

/-!
# What the text of a declaration depends on

Emitters look declarations up in the schema, but they read little of what they find: of an aggregate
where it is declared and its name, of an enumeration its entries too. Schemas that agree on this
much are said to *spell alike*, and give the same text. In particular, the fields that the schema
lists for an aggregate, the marks that say what was generated and all documentation are never read
through a lookup.

What stands around the declarations reads a little more. Schemas that agree on that too *emit
alike*.
-/

namespace BufferSchema

/-- Two values that are one under a function are there or missing together. -/
private theorem map_eq_map_cases {α β : Type} {f : α → β} {x y : Option α}
    (h : x.map f = y.map f) :
    (x = none ∧ y = none) ∨ ∃ a b, x = some a ∧ y = some b ∧ f a = f b := by
  cases x with
  | none => exact Or.inl ⟨rfl, Option.map_eq_none_iff.mp h.symm⟩
  | some a =>
    obtain ⟨b, hb, hab⟩ := Option.map_eq_some_iff.mp h.symm
    exact Or.inr ⟨a, b, rfl, hb, hab.symm⟩

/-- What a reference reads of an enumeration: where it is declared, its name, and its entries with
their numbers. -/
def Enumeration.outline (e : Enumeration) : NamespaceId × String × List (String × Int64) :=
  (e.scope, e.name, e.values.map fun v ↦ (v.name, v.value))

/-- What a reference reads of an aggregate. -/
def Aggregate.outline (a : Aggregate) : NamespaceId × String := (a.scope, a.name)

/-- Which entry a literal denotes is read off the outline. -/
theorem CreateParameter.map_matchingValue?_name {e e' : Enumeration} (h : e.outline = e'.outline)
    (literal : String) :
    (matchingValue? e literal).map EnumValue.name =
      (matchingValue? e' literal).map EnumValue.name := by
  have hfind (e : Enumeration) (number : Int) :
      (e.values.find? fun v ↦ v.value.toInt = number).map EnumValue.name =
        (e.outline.2.2.find? fun entry ↦ entry.2.toInt = number).map Prod.fst := by
    rw [Enumeration.outline, List.find?_map, Option.map_map]
    rfl
  rw [matchingValue?, matchingValue?]
  cases integer64? literal with
  | none => rfl
  | some number => exact (hfind e number).trans (h ▸ (hfind e' number).symm)

namespace Schema

/-- References give the same text in both schemas. -/
structure SpellsAlike (s s' : Schema) : Prop where
  namespaces : s.namespaces = s'.namespaces
  enums : ∀ name, (s.enums.get? name).map Enumeration.outline =
    (s'.enums.get? name).map Enumeration.outline
  aggregates : ∀ name, (s.aggregates.get? name).map Aggregate.outline =
    (s'.aggregates.get? name).map Aggregate.outline

namespace SpellsAlike

variable {s s' : Schema}

/-- A change of an aggregate that leaves its outline alone cannot be told by references. -/
theorem modify_aggregates (s : Schema) (key : String) {f : Aggregate → Aggregate}
    (hf : ∀ a, (f a).outline = a.outline) :
    s.SpellsAlike { s with aggregates := s.aggregates.modify key f } where
  namespaces := rfl
  enums _ := rfl
  aggregates name := by
    rw [Declarations.get?_modify, Option.map_map]
    congr 1
    funext a
    rw [Function.comp_apply]
    by_cases h : name = key
    · rw [if_pos h, hf]
    · rw [if_neg h]

/-- So it is with a change of an enumeration. -/
theorem modify_enums (s : Schema) (key : String) {f : Enumeration → Enumeration}
    (hf : ∀ e, (f e).outline = e.outline) :
    s.SpellsAlike { s with enums := s.enums.modify key f } where
  namespaces := rfl
  enums name := by
    rw [Declarations.get?_modify, Option.map_map]
    congr 1
    funext e
    rw [Function.comp_apply]
    by_cases h : name = key
    · rw [if_pos h, hf]
    · rw [if_neg h]
  aggregates _ := rfl

variable (h : s.SpellsAlike s')

include h

/-! ## Lookups -/

theorem activeNamespace_eq : s.activeNamespace = s'.activeNamespace := by
  have hlast : some s.activeNamespace = some s'.activeNamespace := by
    rw [activeNamespace, activeNamespace, ← List.getLast?_eq_some_getLast,
      ← List.getLast?_eq_some_getLast, h.namespaces]
  exact Option.some.inj hlast

theorem qualify_eq : s.qualify = s'.qualify := by
  funext scope name
  rw [qualify, qualify, isActive, isActive, activeIndex, activeIndex, namespaceAt, namespaceAt,
    h.namespaces]

theorem enumeration_bind {α : Type} {name : String} {f g : Enumeration → Emitted α}
    (hf : ∀ e e', e.outline = e'.outline → f e = g e') :
    s.enumeration name >>= f = s'.enumeration name >>= g := by
  rw [enumeration, enumeration]
  rcases map_eq_map_cases (h.enums name) with ⟨hnone, hnone'⟩ | ⟨e, e', he, he', houtline⟩
  · rw [hnone, hnone']
    rfl
  · rw [he, he']
    exact hf e e' houtline

theorem aggregate_bind {α : Type} {name : String} {f g : Aggregate → Emitted α}
    (hf : ∀ a a', a.outline = a'.outline → f a = g a') :
    s.aggregate name >>= f = s'.aggregate name >>= g := by
  rw [aggregate, aggregate]
  rcases map_eq_map_cases (h.aggregates name) with ⟨hnone, hnone'⟩ | ⟨a, a', ha, ha', houtline⟩
  · rw [hnone, hnone']
    rfl
  · rw [ha, ha']
    exact hf a a' houtline

/-! ## Spellings -/

theorem basicSpelling_eq : s.basicSpelling = s'.basicSpelling := by
  funext userFacing type
  unfold basicSpelling
  cases userFacing with
  | false => rfl
  | true =>
    cases type with
    | scalar kind enumName =>
      cases enumName with
      | none => rfl
      | some enumName =>
        refine h.enumeration_bind fun e e' houtline ↦ ?_
        obtain ⟨hscope, hname, -⟩ := Prod.mk.inj houtline |>.imp_right Prod.mk.inj
        rw [hscope, hname, h.qualify_eq]
    | bool | string | vector element | aggregate target fixed | union tagEnum => rfl

theorem pointee_eq : s.pointee = s'.pointee := by
  funext type
  induction type with
  | vector element ih => rw [pointee, pointee, ih]
  | aggregate target fixed =>
    refine h.aggregate_bind fun a a' houtline ↦ ?_
    obtain ⟨hscope, hname⟩ := Prod.mk.inj houtline
    rw [hscope, hname, h.qualify_eq]
  | scalar kind enumName | bool | string | union tagEnum => rfl

theorem wireSpelling_eq : s.wireSpelling = s'.wireSpelling := by
  funext behind userFacing type
  rw [wireSpelling, wireSpelling, h.basicSpelling_eq, h.pointee_eq]

theorem viewSpelling_eq : s.viewSpelling = s'.viewSpelling := by
  funext afterValue before after userFacing type
  rw [viewSpelling, viewSpelling, h.basicSpelling_eq, h.pointee_eq]

theorem sizeSpelling_eq : s.sizeSpelling = s'.sizeSpelling := by
  funext type
  unfold sizeSpelling
  rw [h.pointee_eq]

theorem conversion_eq : s.conversion = s'.conversion := by
  funext toUser type
  unfold conversion
  rw [h.basicSpelling_eq]

/-! ## Parts of a table -/

theorem keyOf_eq : TableAccessor.keyOf s = TableAccessor.keyOf s' := by
  funext options a f
  unfold TableAccessor.keyOf
  rw [h.viewSpelling_eq, h.basicSpelling_eq]

theorem mutatorOf_eq : TableAccessor.mutatorOf s = TableAccessor.mutatorOf s' := by
  funext f
  rw [TableAccessor.mutatorOf, TableAccessor.mutatorOf, h.viewSpelling_eq, h.basicSpelling_eq,
    h.conversion_eq]

theorem accessor_eq : TableAccessor.ofField s = TableAccessor.ofField s' := by
  funext options a f
  rw [TableAccessor.ofField, TableAccessor.ofField, h.viewSpelling_eq, h.conversion_eq,
    h.mutatorOf_eq, h.keyOf_eq, h.activeNamespace_eq]

theorem check_eq : Check.ofField s = Check.ofField s' := by
  funext f
  have hcontent : Check.ofContent s f.name f.type = Check.ofContent s' f.name f.type := by
    unfold Check.ofContent
    split
    · refine h.enumeration_bind fun e e' houtline ↦ ?_
      obtain ⟨hscope, hname, -⟩ := Prod.mk.inj houtline |>.imp_right Prod.mk.inj
      rw [hscope, hname, h.qualify_eq]
    all_goals rfl
  rw [Check.ofField, Check.ofField, h.sizeSpelling_eq, hcontent]

theorem setter_eq : Setter.ofField s = Setter.ofField s' := by
  funext f
  rw [Setter.ofField, Setter.ofField, h.wireSpelling_eq, h.conversion_eq]

theorem parameter_eq : CreateParameter.ofField s = CreateParameter.ofField s' := by
  funext options f
  have hdefault :
      CreateParameter.defaultOf s options f = CreateParameter.defaultOf s' options f := by
    unfold CreateParameter.defaultOf
    split
    · next enumName _ =>
      refine h.enumeration_bind fun e e' houtline ↦ ?_
      have hvalue := CreateParameter.map_matchingValue?_name houtline f.defaultValue
      obtain ⟨hscope, hname, -⟩ := Prod.mk.inj houtline |>.imp_right Prod.mk.inj
      rw [h.conversion_eq, h.qualify_eq, hscope]
      rcases map_eq_map_cases hvalue with ⟨hnone, hnone'⟩ | ⟨v, v', hv, hv', hvname⟩
      · rw [hnone, hnone']
      · rw [hv, hv']
        dsimp only
        rw [Enumeration.entryReference, Enumeration.entryReference, Enumeration.entryName,
          Enumeration.entryName, hname, hvname]
    · rfl
    · rfl
  rw [CreateParameter.ofField, CreateParameter.ofField, h.wireSpelling_eq, hdefault]

theorem table_eq : TableFragment.ofAggregate s = TableFragment.ofAggregate s' := by
  funext options a
  rw [TableFragment.ofAggregate, TableFragment.ofAggregate, h.accessor_eq, h.check_eq, h.setter_eq,
    h.parameter_eq]

/-! ## Parts of a struct -/

theorem members_eq : StructMember.ofFields s = StructMember.ofFields s' := by
  funext number fields
  induction fields generalizing number with
  | nil => rfl
  | cons f fields ih =>
    simp only [StructMember.ofFields, h.viewSpelling_eq, ih]

theorem initializers_eq : StructInitializer.ofFields s = StructInitializer.ofFields s' := by
  funext number fields
  induction fields generalizing number with
  | nil => rfl
  | cons f fields ih =>
    simp only [StructInitializer.ofFields, h.conversion_eq, ih]

theorem structParameter_eq : StructParameter.ofField s = StructParameter.ofField s' := by
  funext f
  rw [StructParameter.ofField, StructParameter.ofField, h.viewSpelling_eq]

theorem structAccessor_eq : StructAccessor.ofField s = StructAccessor.ofField s' := by
  funext options f
  rw [StructAccessor.ofField, StructAccessor.ofField, h.viewSpelling_eq, h.conversion_eq,
    h.basicSpelling_eq]

theorem struct_eq : StructFragment.ofAggregate s = StructFragment.ofAggregate s' := by
  funext options a
  rw [StructFragment.ofAggregate, StructFragment.ofAggregate, h.members_eq, h.initializers_eq,
    h.structParameter_eq, h.structAccessor_eq]

/-! ## Parts of an enumeration -/

theorem payloadCases_eq : Dispatcher.payloadCases s = Dispatcher.payloadCases s' := by
  funext options e values
  rw [Dispatcher.payloadCases, Dispatcher.payloadCases]
  congr 1
  funext value
  cases value.unionType with
  | none => rfl
  | some name =>
    refine h.aggregate_bind fun a a' houtline ↦ ?_
    obtain ⟨hscope, hname⟩ := Prod.mk.inj houtline
    rw [hscope, hname, h.qualify_eq]

theorem enum_eq : EnumFragment.ofEnum s = EnumFragment.ofEnum s' := by
  have hdispatcher : Dispatcher.ofEnum s = Dispatcher.ofEnum s' := by
    funext options e
    unfold Dispatcher.ofEnum
    rw [h.payloadCases_eq]
  funext options e
  rw [EnumFragment.ofEnum, EnumFragment.ofEnum, hdispatcher]

end SpellsAlike

end Schema

/-! ## What stands around declarations -/

/-- A step of the plan looks at the outline of its aggregate alone. -/
theorem ForwardPlan.foldlM_congr {s : Schema} {l l' : List Aggregate}
    (h : l.map Aggregate.outline = l'.map Aggregate.outline) (plan : ForwardPlan) :
    l.foldlM (step s) plan = l'.foldlM (step s) plan := by
  induction l generalizing l' plan with
  | nil => rw [List.map_eq_nil_iff.mp h.symm]
  | cons a l ih =>
    obtain ⟨b, l', rfl, hb, hl'⟩ := List.map_eq_cons_iff.mp h.symm
    obtain ⟨hscope, hname⟩ := Prod.mk.inj hb
    have hstep : step s plan a = step s plan b := by rw [step, step, hscope, hname]
    rw [List.foldlM_cons, List.foldlM_cons, hstep]
    exact bind_congr fun plan ↦ ih hl'.symm plan

namespace Schema

/-- Everything but the declarations themselves gives the same text in both schemas. -/
structure EmitsAlike (s s' : Schema) : Prop extends s.SpellsAlike s' where
  outlines : s.aggregates.values.map Aggregate.outline =
    s'.aggregates.values.map Aggregate.outline
  fileName : s.fileName = s'.fileName
  rootType : s.rootType = s'.rootType
  fileIdentifier : s.fileIdentifier = s'.fileIdentifier
  fileExtension : s.fileExtension = s'.fileExtension
  includedFiles : s.includedFiles = s'.includedFiles

namespace EmitsAlike

variable {s s' : Schema}

/-- Marks of an enumeration are not read by what stands around it. -/
theorem modify_enums (s : Schema) (key : String) {f : Enumeration → Enumeration}
    (hf : ∀ e, (f e).outline = e.outline) :
    s.EmitsAlike { s with enums := s.enums.modify key f } where
  toSpellsAlike := .modify_enums s key hf
  outlines := rfl
  fileName := rfl
  rootType := rfl
  fileIdentifier := rfl
  fileExtension := rfl
  includedFiles := rfl

theorem modify_aggregates (s : Schema) (key : String) {f : Aggregate → Aggregate}
    (hf : ∀ a, (f a).outline = a.outline) :
    s.EmitsAlike { s with aggregates := s.aggregates.modify key f } where
  toSpellsAlike := .modify_aggregates s key hf
  outlines := (Declarations.map_values_modify hf).symm
  fileName := rfl
  rootType := rfl
  fileIdentifier := rfl
  fileExtension := rfl
  includedFiles := rfl

variable (h : s.EmitsAlike s')

include h

theorem forwardDeclarations_eq : s.forwardDeclarations = s'.forwardDeclarations := by
  have hactive : s.isActive = s'.isActive := by
    funext scope
    rw [isActive, isActive, activeIndex, activeIndex, h.namespaces]
  have hat : s.namespaceAt = s'.namespaceAt := by
    funext scope
    rw [namespaceAt, namespaceAt, h.namespaces]
  have hstep : ForwardPlan.step s = ForwardPlan.step s' := by
    funext plan a
    simp only [ForwardPlan.step, ForwardPlan.openBlock, hactive, hat]
  rw [forwardDeclarations, forwardDeclarations, hstep, ForwardPlan.foldlM_congr h.outlines]

theorem rootHelpers_eq : s.rootHelpers = s'.rootHelpers := by
  funext options
  rw [rootHelpers, rootHelpers, rootAggregate, rootAggregate, h.rootType, h.fileIdentifier,
    h.fileExtension]
  cases s'.rootType with
  | none => rfl
  | some name =>
    dsimp only
    rw [bind_assoc, bind_assoc]
    refine h.aggregate_bind fun a a' houtline ↦ ?_
    obtain ⟨-, hname⟩ := Prod.mk.inj houtline
    rw [pure_bind, pure_bind]
    dsimp only
    rw [hname]

theorem includeGuard_eq : s.includeGuard = s'.includeGuard := by
  rw [includeGuard, includeGuard, h.fileName, h.activeNamespace_eq]

theorem includeLines_eq : s.includeLines = s'.includeLines := by
  rw [includeLines, includeLines, includedStems, includedStems, h.includedFiles, h.fileName]

end EmitsAlike

end Schema

end BufferSchema
