import BufferSchema.Header.Spelling
import BufferSchema.Proofs.Schema.Declarations
import BufferSchema.Proofs.Schema.WellFormed

/-!
# Types that can be spelled

A spelling fails for one reason only: it meets a name that is declared nowhere, or in a namespace
that is not there. This file says for each spelling exactly which names it meets. An enumeration
counts only where callers see it, that is as the values of a scalar that is no element of a vector;
an aggregate counts at any depth.
-/

namespace BufferSchema

namespace TypeRef

variable {type : TypeRef}

theorem scalarEnum?_eq_none (h : type.isScalar = false) : type.scalarEnum? = none := by
  cases type with
  | scalar kind enumName => exact nomatch h
  | bool | string | vector element | aggregate target fixed | union tagEnum => rfl

theorem namesEnum_of_scalarEnum? {name : String} (h : type.scalarEnum? = some name) :
    type.NamesEnum name := by
  cases type with
  | scalar kind enumName => exact namesEnum_scalar.mpr h
  | bool | string | vector element | aggregate target fixed | union tagEnum => exact nomatch h

theorem not_namesAggregate_of_isScalar {name : String} {fixed : Bool}
    (h : type.isScalar = true) : ¬ type.NamesAggregate name fixed := by
  cases type with
  | scalar kind enumName => exact not_namesAggregate_scalar
  | bool => exact not_namesAggregate_bool
  | string | vector element | aggregate target fixed | union tagEnum => exact nomatch h

end TypeRef

namespace Schema

variable {s : Schema} {scope : NamespaceId} {name : String} {type : TypeRef}

/-! ## Lookups -/

theorem enumeration_eq_ok {e : Enumeration} :
    s.enumeration name = .ok e ↔ s.enums.get? name = some e := by
  rw [enumeration]
  cases s.enums.get? name <;> simp

theorem aggregate_eq_ok {a : Aggregate} :
    s.aggregate name = .ok a ↔ s.aggregates.get? name = some a := by
  rw [aggregate]
  cases s.aggregates.get? name <;> simp

theorem succeeds_aggregate : Succeeds (s.aggregate name) ↔ name ∈ s.aggregates.keys := by
  rw [Declarations.mem_keys_iff]
  exact exists_congr fun _ ↦ aggregate_eq_ok.trans Declarations.get?_eq_some_iff

theorem succeeds_namespaceAt :
    Succeeds (s.namespaceAt scope) ↔ scope.toNat < s.namespaces.length := by
  rw [namespaceAt]
  cases h : s.namespaces[scope.toNat]? with
  | none =>
    exact iff_of_false (Attempt.not_succeeds_throw _)
      (Nat.not_lt.mpr (List.getElem?_eq_none_iff.mp h))
  | some ns => exact iff_of_true (Attempt.succeeds_pure _) (List.getElem?_eq_some_iff.mp h).1

theorem mem_of_namespaceAt_eq_ok {ns : Namespace} (h : s.namespaceAt scope = .ok ns) :
    ns ∈ s.namespaces := by
  rw [namespaceAt] at h
  split at h
  · next ns' hns =>
    obtain rfl := Attempt.pure_eq_ok.mp h
    exact List.mem_of_getElem? hns
  · exact absurd h Attempt.throw_ne_ok

/-- The active namespace is always there. -/
theorem lt_length_of_isActive (h : s.isActive scope = true) :
    scope.toNat < s.namespaces.length := by
  have hscope : scope.toNat = s.activeIndex := decide_eq_true_iff.mp h
  rw [hscope, activeIndex]
  exact Nat.sub_lt (List.length_pos_iff.mpr s.namespaces_ne_nil) Nat.one_pos

/-- A name can be spelled if its namespace is there. -/
theorem succeeds_qualify : Succeeds (s.qualify scope name) ↔ scope.toNat < s.namespaces.length := by
  rw [qualify]
  by_cases h : s.isActive scope = true
  · rw [if_pos h]
    exact iff_of_true (Attempt.succeeds_pure _) (lt_length_of_isActive h)
  · rw [if_neg h, Attempt.succeeds_bind_pure, succeeds_namespaceAt]

/-- An enumeration is declared, in a namespace that is there. -/
def ReachesEnum (s : Schema) (name : String) : Prop :=
  ∃ e, s.enums.get? name = some e ∧ e.scope.toNat < s.namespaces.length

/-- An aggregate is declared, in a namespace that is there. -/
def ReachesAggregate (s : Schema) (name : String) : Prop :=
  ∃ a, s.aggregates.get? name = some a ∧ a.scope.toNat < s.namespaces.length

theorem succeeds_qualify_enumeration {nameOf : Enumeration → String} :
    Succeeds (s.enumeration name >>= fun e ↦ s.qualify e.scope (nameOf e)) ↔
      s.ReachesEnum name := by
  rw [Attempt.succeeds_bind]
  exact exists_congr fun e ↦ and_congr enumeration_eq_ok succeeds_qualify

theorem succeeds_qualify_aggregate {nameOf : Aggregate → String} :
    Succeeds (s.aggregate name >>= fun a ↦ s.qualify a.scope (nameOf a)) ↔
      s.ReachesAggregate name := by
  rw [Attempt.succeeds_bind]
  exact exists_congr fun a ↦ and_congr aggregate_eq_ok succeeds_qualify

/-! ## Spellings -/

/-- The enumeration whose values a scalar holds can be spelled. -/
def ReachesScalarEnum (s : Schema) (type : TypeRef) : Prop :=
  ∀ name, type.scalarEnum? = some name → s.ReachesEnum name

/-- Every aggregate in a type can be spelled. -/
def ReachesAggregates (s : Schema) (type : TypeRef) : Prop :=
  ∀ name fixed, type.NamesAggregate name fixed → s.ReachesAggregate name

/-- A type can be spelled for callers. -/
def Spells (s : Schema) (type : TypeRef) : Prop :=
  s.ReachesScalarEnum type ∧ s.ReachesAggregates type

theorem reachesScalarEnum_of_not_isScalar (h : type.isScalar = false) :
    s.ReachesScalarEnum type := by
  intro name hname
  rw [TypeRef.scalarEnum?_eq_none h] at hname
  exact nomatch hname

theorem reachesAggregates_of_isScalar (h : type.isScalar = true) : s.ReachesAggregates type :=
  fun _ _ hname ↦ absurd hname (TypeRef.not_namesAggregate_of_isScalar h)

theorem succeeds_basicSpelling {userFacing : Bool} :
    Succeeds (s.basicSpelling userFacing type) ↔
      (userFacing = true → s.ReachesScalarEnum type) := by
  unfold basicSpelling
  cases userFacing with
  | false => exact iff_of_true (Attempt.succeeds_pure _) nofun
  | true =>
    rw [if_pos rfl, forall_prop_of_true rfl, ReachesScalarEnum]
    cases type with
    | scalar kind enumName =>
      cases enumName with
      | none => exact iff_of_true (Attempt.succeeds_pure _) nofun
      | some enumName =>
        rw [succeeds_qualify_enumeration]
        exact ⟨fun h _ hname ↦ Option.some.inj hname ▸ h, fun h ↦ h enumName rfl⟩
    | bool | string | vector element | aggregate target fixed | union tagEnum =>
      exact iff_of_true (Attempt.succeeds_pure _) nofun

theorem succeeds_pointee : Succeeds (s.pointee type) ↔ s.ReachesAggregates type := by
  induction type with
  | vector element ih =>
    rw [pointee, Attempt.succeeds_bind_pure, ih, ReachesAggregates, ReachesAggregates]
    simp only [TypeRef.namesAggregate_vector]
  | aggregate target fixed =>
    rw [pointee, succeeds_qualify_aggregate, ReachesAggregates]
    simp
  | scalar kind enumName | bool | string | union tagEnum => simp [pointee, ReachesAggregates]

/-- A spelling that is by value for scalars and by what is pointed to for all else. -/
private theorem succeeds_byShape {userFacing : Bool} {f g : String → String} :
    Succeeds (if type.isScalar then do return f (← s.basicSpelling userFacing type)
      else do return g (← s.pointee type)) ↔
      (userFacing = true → s.ReachesScalarEnum type) ∧ s.ReachesAggregates type := by
  by_cases h : type.isScalar = true
  · rw [if_pos h, Attempt.succeeds_bind_pure, succeeds_basicSpelling]
    exact (and_iff_left (reachesAggregates_of_isScalar h)).symm
  · rw [if_neg h, Attempt.succeeds_bind_pure, succeeds_pointee]
    exact (and_iff_right fun _ ↦
      reachesScalarEnum_of_not_isScalar (Bool.eq_false_iff.mpr h)).symm

theorem succeeds_wireSpelling {behind : String} {userFacing : Bool} :
    Succeeds (s.wireSpelling behind userFacing type) ↔
      (userFacing = true → s.ReachesScalarEnum type) ∧ s.ReachesAggregates type :=
  succeeds_byShape (f := fun spelling ↦ spelling ++ behind)
    (g := fun pointee ↦ type.storedAs pointee behind)

theorem succeeds_viewSpelling {afterValue before after : String} {userFacing : Bool} :
    Succeeds (s.viewSpelling afterValue before after userFacing type) ↔
      (userFacing = true → s.ReachesScalarEnum type) ∧ s.ReachesAggregates type :=
  succeeds_byShape (f := fun spelling ↦ spelling ++ afterValue)
    (g := fun pointee ↦ before ++ pointee ++ after)

theorem succeeds_wireSpelling_true {behind : String} :
    Succeeds (s.wireSpelling behind true type) ↔ s.Spells type := by
  rw [succeeds_wireSpelling, Spells, forall_prop_of_true rfl]

theorem succeeds_viewSpelling_true {afterValue before after : String} :
    Succeeds (s.viewSpelling afterValue before after true type) ↔ s.Spells type := by
  rw [succeeds_viewSpelling, Spells, forall_prop_of_true rfl]

theorem succeeds_conversion {toUser : Bool} :
    Succeeds (s.conversion toUser type) ↔ (toUser = true → s.ReachesScalarEnum type) := by
  cases type with
  | scalar kind enumName =>
    cases enumName with
    | none => exact iff_of_true (Attempt.succeeds_pure _) nofun
    | some enumName => rw [conversion, Attempt.succeeds_map, succeeds_basicSpelling]
  | bool => rw [conversion, Attempt.succeeds_map, succeeds_basicSpelling]
  | string | vector element | aggregate target fixed | union tagEnum =>
    exact iff_of_true (Attempt.succeeds_pure _) nofun

theorem succeeds_sizeSpelling (h : s.ReachesAggregates type) : Succeeds (s.sizeSpelling type) := by
  cases type with
  | aggregate target fixed =>
    cases fixed with
    | false => exact Attempt.succeeds_pure _
    | true => exact succeeds_pointee.mpr h
  | scalar kind enumName | bool | string | vector element | union tagEnum =>
    exact Attempt.succeeds_pure _

end Schema

end BufferSchema
