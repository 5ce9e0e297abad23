import BufferSchema.Proofs.Header.Spelling
import BufferSchema.Proofs.Schema.Acceptance
import BufferSchema.Proofs.Schema.Names

/-!
# Declarations of one spelling

A name is spelled bare if it is declared in the active namespace and also if it is declared in a
namespace without components. These two bare spellings are the only ones that can meet: all others
have a path in front of them, and a path of identifiers can be read back. So two declarations of a
loaded schema are spelled alike if they have one name, one of them is in the active namespace, and
the other one is in a root namespace that is not active.
-/

namespace BufferSchema

namespace Schema

variable {s : Schema} {scope scope' : NamespaceId} {name name' key : String} {ns ns' : Namespace}

/-! ## Names in a namespace -/

theorem qualify_of_namespaceAt (h : s.namespaceAt scope = .ok ns) :
    s.qualify scope name =
      .ok (if s.isActive scope = true then name else ns.path "::" name) := by
  rw [qualify]
  by_cases hactive : s.isActive scope = true
  · rw [if_pos hactive, if_pos hactive]
    rfl
  · rw [if_neg hactive, if_neg hactive, h]
    rfl

theorem namespaceAt_eq_of_isActive (h : s.isActive scope = true) (h' : s.isActive scope' = true) :
    s.namespaceAt scope = s.namespaceAt scope' := by
  have hscope : scope.toNat = s.activeIndex := decide_eq_true_iff.mp h
  have hscope' : scope'.toNat = s.activeIndex := decide_eq_true_iff.mp h'
  rw [namespaceAt, namespaceAt, hscope, hscope']

theorem pointee_of_get? {a : Aggregate} (ha : s.aggregates.get? key = some a) {fixed : Bool} :
    s.pointee (.aggregate key fixed) = s.qualify a.scope a.name := by
  rw [pointee, aggregate_eq_ok.mpr ha]
  rfl

theorem basicSpelling_of_get? {e : Enumeration} (he : s.enums.get? key = some e)
    {kind : ScalarKind} :
    s.basicSpelling true (.scalar kind (some key)) = s.qualify e.scope e.name := by
  rw [basicSpelling, if_pos rfl, enumeration_eq_ok.mpr he]
  rfl

section loaded

variable {d : Document} (h : Schema.ofDocument d = .ok s)

include h

private theorem exists_namespaceAt_of_qualifiedName?
    (hkey : d.qualifiedName? scope name = some key) :
    ∃ ns, s.namespaceAt scope = .ok ns ∧ key = ns.qualifiedName name := by
  obtain ⟨enums, aggregates, t, rfl, -⟩ := Schema.ofDocument_eq_ok.mp h
  obtain ⟨ns, hns, rfl⟩ := Option.map_eq_some_iff.mp hkey
  refine ⟨ns, ?_, rfl⟩
  rw [namespaceAt]
  dsimp only [Document.schemaWith]
  rw [hns]
  rfl

theorem exists_namespaceAt_of_aggregate {a : Aggregate} (ha : s.aggregates.get? key = some a) :
    ∃ ns, s.namespaceAt a.scope = .ok ns ∧ key = ns.qualifiedName a.name := by
  obtain ⟨enums, aggregates, t, rfl, -⟩ := Schema.ofDocument_eq_ok.mp h
  exact exists_namespaceAt_of_qualifiedName? h
    (t.aggregate_names _ (Declarations.get?_eq_some_iff.mp ha))

theorem exists_namespaceAt_of_enum {e : Enumeration} (he : s.enums.get? key = some e) :
    ∃ ns, s.namespaceAt e.scope = .ok ns ∧ key = ns.qualifiedName e.name := by
  obtain ⟨enums, aggregates, t, rfl, -⟩ := Schema.ofDocument_eq_ok.mp h
  exact exists_namespaceAt_of_qualifiedName? h
    (t.enum_names _ (Declarations.get?_eq_some_iff.mp he))

end loaded

/-! ## Spellings that meet -/

/-- The active namespace spells what is declared in it like what is declared in `scope'`, a root
namespace that is not active. -/
def Shadows (s : Schema) (scope scope' : NamespaceId) : Prop :=
  s.isActive scope = true ∧ s.isActive scope' = false ∧ s.namespaceAt scope' = .ok .root

/-- Two declarations have one name, which only one of the active and a root namespace can have to
itself. -/
def Clash (s : Schema) (scope : NamespaceId) (name : String) (scope' : NamespaceId)
    (name' : String) : Prop :=
  name = name' ∧ (s.Shadows scope scope' ∨ s.Shadows scope' scope)

theorem Clash.qualify (h : s.Clash scope name scope' name') :
    s.qualify scope name = .ok name := by
  obtain ⟨-, ⟨hactive, -⟩ | ⟨-, hactive, hroot⟩⟩ := h
  · rw [Schema.qualify, if_pos hactive]
    rfl
  · rw [qualify_of_namespaceAt hroot, if_neg (Bool.eq_false_iff.mp hactive)]
    rfl

theorem clash_comm : s.Clash scope name scope' name' ↔ s.Clash scope' name' scope name :=
  and_congr eq_comm or_comm

/-- Every component is an identifier. -/
def IdentifierPaths (s : Schema) : Prop :=
  ∀ ns ∈ s.namespaces, ∀ component ∈ ns.components, isIdentifier component = true

instance (s : Schema) : Decidable s.IdentifierPaths :=
  inferInstanceAs (Decidable (∀ ns ∈ s.namespaces, ∀ component ∈ ns.components,
    isIdentifier component = true))

section identifiers

variable (hpaths : s.IdentifierPaths)

include hpaths

private theorem eq_path_iff_of_isActive (hns' : s.namespaceAt scope' = .ok ns')
    (hname : isIdentifier name = true) (hname' : isIdentifier name' = true)
    (hactive : s.isActive scope = true) (hactive' : s.isActive scope' = false) :
    name = ns'.path "::" name' ↔ s.Clash scope name scope' name' := by
  have hclash : s.Clash scope name scope' name' ↔ name = name' ∧ ns' = .root := by
    rw [Clash, Shadows, Shadows, hactive, hactive', hns', Except.ok.injEq]
    simp
  have hcomponents : ∀ component ∈ ns'.components, ':' ∉ component.toList :=
    fun component hcomponent ↦ not_mem_of_isIdentifier
      (hpaths ns' (mem_of_namespaceAt_eq_ok hns') component hcomponent) rfl
  rw [hclash, Namespace.eq_path_iff rfl hcomponents (not_mem_of_isIdentifier hname' rfl)
    (not_mem_of_isIdentifier hname rfl), and_comm, eq_comm (a := name')]

/-- Two declarations of different qualified names are spelled alike only if they clash. -/
private theorem qualify_eq_qualify_iff (hns : s.namespaceAt scope = .ok ns)
    (hns' : s.namespaceAt scope' = .ok ns') (hname : isIdentifier name = true)
    (hname' : isIdentifier name' = true)
    (hne : ns.qualifiedName name ≠ ns'.qualifiedName name') :
    ∃ spelling spelling', s.qualify scope name = .ok spelling ∧
      s.qualify scope' name' = .ok spelling' ∧
      (spelling = spelling' ↔ s.Clash scope name scope' name') ∧
      (s.Clash scope name scope' name' → spelling = name) := by
  refine ⟨_, _, qualify_of_namespaceAt hns, qualify_of_namespaceAt hns', ?_, fun hclash ↦
    Except.ok.inj ((qualify_of_namespaceAt hns).symm.trans hclash.qualify)⟩
  cases hactive : s.isActive scope with
  | true =>
    cases hactive' : s.isActive scope' with
    | true =>
      -- one namespace does not declare a name twice
      have hsame : ns = ns' :=
        Except.ok.inj (hns.symm.trans ((namespaceAt_eq_of_isActive hactive hactive').trans hns'))
      subst hsame
      rw [if_pos rfl, if_pos rfl]
      exact iff_of_false (fun h ↦ hne (congrArg _ h)) fun h ↦ hne (congrArg _ h.1)
    | false =>
      rw [if_pos rfl, if_neg Bool.false_ne_true]
      exact eq_path_iff_of_isActive hpaths hns' hname hname' hactive hactive'
  | false =>
    cases hactive' : s.isActive scope' with
    | true =>
      rw [if_pos rfl, if_neg Bool.false_ne_true, eq_comm, clash_comm]
      exact eq_path_iff_of_isActive hpaths hns hname' hname hactive' hactive
    | false =>
      -- the paths are read back, so that the qualified names are the same
      have hcolon {ns : Namespace} (hns : ns ∈ s.namespaces) :
          ∀ component ∈ ns.components, ':' ∉ component.toList :=
        fun component hcomponent ↦ not_mem_of_isIdentifier (hpaths ns hns component hcomponent) rfl
      rw [if_neg Bool.false_ne_true, if_neg Bool.false_ne_true]
      refine iff_of_false (fun h ↦ ?_) fun h ↦ ?_
      · obtain ⟨rfl, rfl⟩ := Namespace.eq_of_path_eq rfl (hcolon (mem_of_namespaceAt_eq_ok hns))
          (not_mem_of_isIdentifier hname rfl) (hcolon (mem_of_namespaceAt_eq_ok hns'))
          (not_mem_of_isIdentifier hname' rfl) h
        exact hne rfl
      · rcases h.2 with h | h
        · rw [h.1] at hactive
          exact nomatch hactive
        · rw [h.1] at hactive'
          exact nomatch hactive'

end identifiers

end Schema

/-- **Collisions of spellings.** In a loaded schema whose names and components are identifiers,
every aggregate can be spelled, and two aggregates of different qualified names are spelled alike if
and only if they have one name, one of them is declared in the active namespace and the other one in
a namespace without components that is not active; both are then spelled as the bare name. The same
holds of enumerations. -/
theorem spellings_collide_iff {d : Document} {s : Schema} (h : Schema.ofDocument d = .ok s)
    (hpaths : s.IdentifierPaths)
    (haggregates : ∀ a ∈ s.aggregates.values, isIdentifier a.name = true) :
    (∀ key key' a a', s.aggregates.get? key = some a → s.aggregates.get? key' = some a' →
      key ≠ key' → ∀ fixed fixed', ∃ spelling spelling',
        s.pointee (.aggregate key fixed) = .ok spelling ∧
        s.pointee (.aggregate key' fixed') = .ok spelling' ∧
        (spelling = spelling' ↔ s.Clash a.scope a.name a'.scope a'.name) ∧
        (s.Clash a.scope a.name a'.scope a'.name → spelling = a.name)) ∧
    ((∀ e ∈ s.enums.values, isIdentifier e.name = true) →
      ∀ key key' e e', s.enums.get? key = some e → s.enums.get? key' = some e' →
        key ≠ key' → ∀ kind kind', ∃ spelling spelling',
          s.basicSpelling true (.scalar kind (some key)) = .ok spelling ∧
          s.basicSpelling true (.scalar kind' (some key')) = .ok spelling' ∧
          (spelling = spelling' ↔ s.Clash e.scope e.name e'.scope e'.name) ∧
          (s.Clash e.scope e.name e'.scope e'.name → spelling = e.name)) := by
  refine ⟨fun key key' a a' ha ha' hne fixed fixed' ↦ ?_,
    fun henums key key' e e' he he' hne kind kind' ↦ ?_⟩
  · obtain ⟨ns, hns, rfl⟩ := Schema.exists_namespaceAt_of_aggregate h ha
    obtain ⟨ns', hns', rfl⟩ := Schema.exists_namespaceAt_of_aggregate h ha'
    have hname : isIdentifier a.name = true := haggregates a (Declarations.mem_values_of_get? ha)
    have hname' : isIdentifier a'.name = true :=
      haggregates a' (Declarations.mem_values_of_get? ha')
    rw [Schema.pointee_of_get? ha, Schema.pointee_of_get? ha']
    exact Schema.qualify_eq_qualify_iff hpaths hns hns' hname hname' hne
  · obtain ⟨ns, hns, rfl⟩ := Schema.exists_namespaceAt_of_enum h he
    obtain ⟨ns', hns', rfl⟩ := Schema.exists_namespaceAt_of_enum h he'
    have hname : isIdentifier e.name = true := henums e (Declarations.mem_values_of_get? he)
    have hname' : isIdentifier e'.name = true := henums e' (Declarations.mem_values_of_get? he')
    rw [Schema.basicSpelling_of_get? he, Schema.basicSpelling_of_get? he']
    exact Schema.qualify_eq_qualify_iff hpaths hns hns' hname hname' hne

/-- A document with declarations of one name in the root namespace, in another one and in the active
one. -/
def namesakeDocument : Document :=
  { mutualDocument with
    namespaces := [[], ["Base"], ["Game"]]
    enums := [⟨"Color", 0, .byte, [], false, [], false⟩, ⟨"Color", 1, .byte, [], false, [], false⟩,
      ⟨"Color", 2, .byte, [], false, [], false⟩]
    aggregates := [⟨"Monster", 0, false, [], 0, 1, false, [], false⟩,
      ⟨"Monster", 1, false, [], 0, 1, false, [], false⟩,
      ⟨"Monster", 2, false, [], 0, 1, false, [], false⟩]
    rootType := none }

theorem spellings_collide_iff_namesakes : ∃ s, Schema.ofDocument namesakeDocument = .ok s ∧
    s.IdentifierPaths ∧ (∀ a ∈ s.aggregates.values, isIdentifier a.name = true) ∧
    (∀ e ∈ s.enums.values, isIdentifier e.name = true) ∧
    s.pointee (.aggregate "Base.Monster" false) ≠ s.pointee (.aggregate "Game.Monster" false) ∧
    s.basicSpelling true (.scalar .byte (some "Color")) = .ok "Color" ∧
    s.basicSpelling true (.scalar .byte (some "Game.Color")) = .ok "Color" := by
  obtain ⟨s, hs, hpaths, haggregates, henums, hbase, hgame, hroot, hactive, hother, hclash⟩ :
      ∃ s, Schema.ofDocument namesakeDocument = .ok s ∧ s.IdentifierPaths ∧
        (∀ a ∈ s.aggregates.values, isIdentifier a.name = true) ∧
        (∀ e ∈ s.enums.values, isIdentifier e.name = true) ∧
        s.aggregates.get? "Base.Monster" = some ⟨"Monster", 1, false, [], 0, 1, false, [], false⟩ ∧
        s.aggregates.get? "Game.Monster" = some ⟨"Monster", 2, false, [], 0, 1, false, [], false⟩ ∧
        s.enums.get? "Color" = some ⟨"Color", 0, .byte, [], false, [], false⟩ ∧
        s.enums.get? "Game.Color" = some ⟨"Color", 2, .byte, [], false, [], false⟩ ∧
        ¬ s.Clash 1 "Monster" 2 "Monster" ∧ s.Clash 0 "Color" 2 "Color" := by
    refine ⟨_, rfl, by decide, by decide, by decide, rfl, rfl, rfl, rfl, ?_, rfl,
      .inr ⟨rfl, rfl, rfl⟩⟩
    rintro ⟨-, ⟨hactive, -⟩ | ⟨-, -, hroot⟩⟩
    · exact nomatch hactive
    · exact nomatch hroot
  obtain ⟨hpointees, hbasics⟩ := spellings_collide_iff hs hpaths haggregates
  obtain ⟨spelling, spelling', hspelling, hspelling', hiff, -⟩ :=
    hpointees _ _ _ _ hbase hgame (by decide) false false
  obtain ⟨enum, enum', henum, henum', hiff', hbare⟩ :=
    hbasics henums _ _ _ _ hroot hactive (by decide) .byte .byte
  refine ⟨s, hs, hpaths, haggregates, henums, fun heq ↦ hother (hiff.mp ?_), ?_, ?_⟩
  · rw [hspelling, hspelling'] at heq
    exact Except.ok.inj heq
  · rw [henum, hbare hclash]
  · rw [henum', ← hiff'.mpr hclash, hbare hclash]

/-- Declarations of different qualified names with one spelling: aggregates and enumerations in the
root and in the active namespace, and an enumeration whose name looks like a path. -/
theorem spellings_collide : ∃ s,
    Schema.ofDocument { namesakeDocument with
      enums := ⟨"Base::Color", 2, .byte, [], false, [], false⟩ :: namesakeDocument.enums } = .ok s ∧
    s.IdentifierPaths ∧ (∀ a ∈ s.aggregates.values, isIdentifier a.name = true) ∧
    (s.aggregates.keys = ["Monster", "Base.Monster", "Game.Monster"] ∧
      s.pointee (.aggregate "Monster" false) = .ok "Monster" ∧
      s.pointee (.aggregate "Game.Monster" false) = .ok "Monster") ∧
    s.enums.keys = ["Game.Base::Color", "Color", "Base.Color", "Game.Color"] ∧
      s.basicSpelling true (.scalar .byte (some "Color")) = .ok "Color" ∧
      s.basicSpelling true (.scalar .byte (some "Game.Color")) = .ok "Color" ∧
      s.basicSpelling true (.scalar .byte (some "Base.Color")) = .ok "Base::Color" ∧
      s.basicSpelling true (.scalar .byte (some "Game.Base::Color")) = .ok "Base::Color" :=
  ⟨_, rfl, by decide, by decide, ⟨rfl, rfl, rfl⟩, rfl, rfl, rfl, rfl, rfl⟩

end BufferSchema
