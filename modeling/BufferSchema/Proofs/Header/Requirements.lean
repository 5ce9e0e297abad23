import BufferSchema.Proofs.Header.Safety

/-!
# What emission requires

A loaded schema leaves nothing to look for, but an edited one may: a declaration may be gone, or a
namespace, or the root type may be one that was never declared. Here the exact conditions are listed
under which such a schema is emitted. They are those of `Schema.succeeds_generate`, told without
spellings: by the positions of namespaces, the names that are declared, and the fields that are
emitted.

An enumeration is looked up only where callers see it. In a vector, in a deprecated field of a table
and as a union in a struct it may be missing.
-/

namespace BufferSchema

/-! ## The conditions -/

namespace Aggregate

/-- The fields that are emitted: all of a struct, and those of a table that are not deprecated. -/
def emittedFields (a : Aggregate) : List Field := if a.fixed then a.fields else a.liveFields

/-- An enumeration is looked up for the values of a scalar, and for a union in a table. -/
def RequiresEnum (a : Aggregate) (name : String) : Prop :=
  ∃ f ∈ a.emittedFields, f.type.scalarEnum? = some name ∨ (a.fixed = false ∧ f.type = .union name)

/-- An aggregate is looked up wherever a type names it, in vectors of any depth too. -/
def RequiresAggregate (a : Aggregate) (name : String) : Prop :=
  ∃ f ∈ a.emittedFields, ∃ fixed, f.type.NamesAggregate name fixed

end Aggregate

namespace Schema

/-- All that emission requires of a schema in which there is something to emit. -/
structure Emittable (s : Schema) : Prop where
  /-- Every aggregate is in a namespace that is there, also one that was generated already. -/
  scopes : ∀ a ∈ s.aggregates.values, a.scope.toNat < s.namespaces.length
  root : ∀ name, s.rootType = some name → name ∈ s.aggregates.keys
  payloads : ∀ e ∈ s.enums.values, e.generated = false → e.isUnion = true →
    ∀ v ∈ e.values.tail, ∃ name, v.unionType = some name ∧ name ∈ s.aggregates.keys
  padding : ∀ a ∈ s.aggregates.values, a.generated = false → a.fixed = true →
    ∀ f ∈ a.fields, f.padding ≤ 15
  enums : ∀ a ∈ s.aggregates.values, a.generated = false → ∀ name, a.RequiresEnum name →
    ∃ e, s.enums.get? name = some e ∧ e.scope.toNat < s.namespaces.length
  aggregates : ∀ a ∈ s.aggregates.values, a.generated = false →
    ∀ name, a.RequiresAggregate name → name ∈ s.aggregates.keys

/-- What is still to be emitted names an enumeration only in vectors, in deprecated fields of tables
and as a union in structs. -/
def Overlooks (s : Schema) (name : String) : Prop :=
  ∀ a ∈ s.aggregates.values, a.generated = false → ∀ f ∈ a.fields, f.type.NamesEnum name →
    (∃ element, f.type = .vector element) ∨ (a.fixed = false ∧ f.deprecated = true) ∨
      (a.fixed = true ∧ f.type = .union name)

variable {s : Schema} {a : Aggregate} {f : Field} {name : String}

/-! ## Emission of a part -/

theorem spells_emittedFields_iff
    (hscopes : ∀ a ∈ s.aggregates.values, a.scope.toNat < s.namespaces.length) :
    (∀ f ∈ a.emittedFields, s.Spells f.type ∧ (a.fixed = false → s.ReachesUnion f.type)) ↔
      (∀ name, a.RequiresEnum name → s.ReachesEnum name) ∧
        ∀ name, a.RequiresAggregate name → name ∈ s.aggregates.keys := by
  constructor
  · intro h
    refine ⟨?_, ?_⟩
    · rintro name ⟨f, hf, hname | ⟨htable, hname⟩⟩
      · exact (h f hf).1.1 name hname
      · exact (h f hf).2 htable name hname
    · rintro name ⟨f, hf, fixed, hname⟩
      obtain ⟨b, hb, -⟩ := (h f hf).1.2 name fixed hname
      exact Declarations.mem_keys_of_get? hb
  · rintro ⟨henums, haggregates⟩ f hf
    refine ⟨⟨fun name hname ↦ henums name ⟨f, hf, .inl hname⟩, fun name fixed hname ↦ ?_⟩,
      fun htable name hname ↦ henums name ⟨f, hf, .inr ⟨htable, hname⟩⟩⟩
    obtain ⟨b, hb⟩ := Declarations.exists_get?_of_mem_keys (haggregates name ⟨f, hf, fixed, hname⟩)
    exact ⟨b, hb, hscopes b (Declarations.mem_values_of_get? hb)⟩

theorem emitsDeclarations_iff : s.EmitsDeclarations ↔
    (∀ e ∈ s.pendingEnums, e.isUnion = true → s.ReachesPayloads e) ∧
      ∀ a ∈ s.aggregates.values, a.generated = false →
        (∀ f ∈ a.emittedFields, s.Spells f.type ∧ (a.fixed = false → s.ReachesUnion f.type)) ∧
          (a.fixed = true → ∀ f ∈ a.fields, f.padding ≤ 15) := by
  constructor
  · intro h
    refine ⟨h.enums, fun a ha hpending ↦ ?_⟩
    cases hfixed : a.fixed with
    | true =>
      have hstruct : a ∈ s.pendingStructs := List.mem_filter.mpr ⟨ha, by simp [hpending, hfixed]⟩
      have hfields := h.structs a hstruct
      rw [Aggregate.emittedFields, if_pos hfixed]
      exact ⟨fun f hf ↦ ⟨(hfields f hf).1, nofun⟩, fun _ f hf ↦ (hfields f hf).2⟩
    | false =>
      have htable : a ∈ s.pendingTables := List.mem_filter.mpr ⟨ha, by simp [hpending, hfixed]⟩
      have hfields := h.tables a htable
      rw [Aggregate.emittedFields, if_neg (Bool.eq_false_iff.mp hfixed)]
      exact ⟨fun f hf ↦ ⟨(hfields f hf).1, fun _ ↦ (hfields f hf).2⟩, nofun⟩
  · rintro ⟨henums, haggregates⟩
    refine ⟨henums, fun a ha ↦ ?_, fun a ha ↦ ?_⟩
    · obtain ⟨ha, hstruct⟩ := List.mem_filter.mp ha
      obtain ⟨hpending, hfixed⟩ : a.generated = false ∧ a.fixed = true := by simpa using hstruct
      obtain ⟨hfields, hpadding⟩ := haggregates a ha hpending
      rw [Aggregate.emittedFields, if_pos hfixed] at hfields
      exact fun f hf ↦ ⟨(hfields f hf).1, hpadding hfixed f hf⟩
    · obtain ⟨ha, htable⟩ := List.mem_filter.mp ha
      obtain ⟨hpending, hfixed⟩ : a.generated = false ∧ a.fixed = false := by simpa using htable
      obtain ⟨hfields, -⟩ := haggregates a ha hpending
      rw [Aggregate.emittedFields, if_neg (Bool.eq_false_iff.mp hfixed)] at hfields
      exact fun f hf ↦ ⟨(hfields f hf).1, (hfields f hf).2 hfixed⟩

theorem reachesPayloads_iff {e : Enumeration}
    (hscopes : ∀ a ∈ s.aggregates.values, a.scope.toNat < s.namespaces.length) :
    s.ReachesPayloads e ↔
      ∀ v ∈ e.values.tail, ∃ name, v.unionType = some name ∧ name ∈ s.aggregates.keys := by
  refine forall₂_congr fun v _ ↦ exists_congr fun name ↦ and_congr_right fun _ ↦ ?_
  constructor
  · rintro ⟨b, hb, -⟩
    exact Declarations.mem_keys_of_get? hb
  · intro hname
    obtain ⟨b, hb⟩ := Declarations.exists_get?_of_mem_keys hname
    exact ⟨b, hb, hscopes b (Declarations.mem_values_of_get? hb)⟩

theorem emittable_iff : s.Emittable ↔ s.EmitsDeclarations ∧
    (∀ a ∈ s.aggregates.values, a.scope.toNat < s.namespaces.length) ∧
      ∀ name, s.rootType = some name → name ∈ s.aggregates.keys := by
  rw [emitsDeclarations_iff]
  constructor
  · intro h
    refine ⟨⟨fun e he hunion ↦ ?_, fun a ha hpending ↦ ⟨?_, h.padding a ha hpending⟩⟩, h.scopes,
      h.root⟩
    · obtain ⟨he, hpending⟩ := List.mem_filter.mp he
      exact (reachesPayloads_iff h.scopes).mpr (h.payloads e he (by simpa using hpending) hunion)
    · exact (spells_emittedFields_iff h.scopes).mpr
        ⟨h.enums a ha hpending, h.aggregates a ha hpending⟩
  · rintro ⟨⟨henums, haggregates⟩, hscopes, hroot⟩
    have hrequired {a : Aggregate} (ha : a ∈ s.aggregates.values)
        (hpending : a.generated = false) : (∀ name, a.RequiresEnum name → s.ReachesEnum name) ∧
          ∀ name, a.RequiresAggregate name → name ∈ s.aggregates.keys :=
      (spells_emittedFields_iff hscopes).mp (haggregates a ha hpending).1
    refine ⟨hscopes, hroot, fun e he hpending hunion ↦ ?_, fun a ha hpending ↦ ?_,
      fun a ha hpending ↦ ?_, fun a ha hpending ↦ ?_⟩
    · have hmem : e ∈ s.pendingEnums := List.mem_filter.mpr ⟨he, by simp [hpending]⟩
      exact (reachesPayloads_iff hscopes).mp (henums e hmem hunion)
    · exact (haggregates a ha hpending).2
    · exact (hrequired ha hpending).1
    · exact (hrequired ha hpending).2

theorem emitsDeclarations_of_isEmpty (h : s.isEmpty = true) : s.EmitsDeclarations := by
  obtain ⟨henums, haggregates⟩ : (∀ e ∈ s.enums.values, e.generated = true) ∧
      ∀ a ∈ s.aggregates.values, a.generated = true := by
    simpa [isEmpty] using h
  refine emitsDeclarations_iff.mpr ⟨fun e he ↦ ?_, fun a ha hpending ↦ ?_⟩
  · obtain ⟨he, hpending⟩ := List.mem_filter.mp he
    simp [henums e he] at hpending
  · exact absurd (haggregates a ha) (Bool.eq_false_iff.mp hpending)

/-! ## Removing an enumeration -/

theorem Overlooks.not_requiresEnum (h : s.Overlooks name) (ha : a ∈ s.aggregates.values)
    (hpending : a.generated = false) : ¬ a.RequiresEnum name := by
  rintro ⟨f, hf, hname⟩
  have hlive : f ∈ a.fields ∧ (a.fixed = false → f.deprecated = false) := by
    rw [Aggregate.emittedFields] at hf
    split at hf
    · next hfixed => exact ⟨hf, fun htable ↦ absurd hfixed (Bool.eq_false_iff.mp htable)⟩
    · obtain ⟨hf, hdeprecated⟩ := List.mem_filter.mp hf
      exact ⟨hf, fun _ ↦ by simpa using hdeprecated⟩
  have hnames : f.type.NamesEnum name := by
    obtain hname | ⟨-, hname⟩ := hname
    · exact TypeRef.namesEnum_of_scalarEnum? hname
    · exact hname ▸ .union
  obtain ⟨element, hvector⟩ | ⟨htable, hdeprecated⟩ | ⟨hstruct, hunion⟩ :=
    h a ha hpending f hlive.1 hnames
  · rw [hvector] at hname
    obtain hname | ⟨-, hname⟩ := hname <;> exact nomatch hname
  · exact Bool.false_ne_true ((hlive.2 htable).symm.trans hdeprecated)
  · obtain hname | ⟨htable, -⟩ := hname
    · rw [hunion] at hname
      exact nomatch hname
    · exact Bool.false_ne_true (htable.symm.trans hstruct)

theorem isEmpty_removeEnum (h : s.isEmpty = true) : (s.edit (.removeEnum name)).isEmpty = true := by
  rw [isEmpty, Bool.and_eq_true, List.all_eq_true] at h ⊢
  exact ⟨fun e he ↦ h.1 e (Declarations.mem_values_of_mem_values_erase he), h.2⟩

theorem Emittable.removeEnum (h : s.Emittable) (hname : s.Overlooks name) :
    (s.edit (.removeEnum name)).Emittable where
  scopes := h.scopes
  root := h.root
  payloads := fun e he ↦ h.payloads e (Declarations.mem_values_of_mem_values_erase he)
  padding := h.padding
  enums := by
    intro a ha hpending other hother
    obtain ⟨e, he, hscope⟩ := h.enums a ha hpending other hother
    have hne : other ≠ name := by
      rintro rfl
      exact hname.not_requiresEnum ha hpending hother
    exact ⟨e, (Declarations.get?_erase_of_ne hne).trans he, hscope⟩
  aggregates := h.aggregates

end Schema

/-- **What emission requires.** Any schema, edited in whatever way, is emitted if and only if there
is nothing to emit or it has all that `Schema.Emittable` lists. An enumeration that is named in
vectors, in deprecated fields of tables and as a union in structs, and nowhere else, is none of
this: it can be removed from a schema that is emitted. -/
theorem emitted_iff_emittable (s : Schema) (options : Options) :
    (Succeeds (s.generate options) ↔ s.isEmpty = true ∨ s.Emittable) ∧
      ∀ name, s.Overlooks name → Succeeds (s.generate options) →
        Succeeds ((s.edit (.removeEnum name)).generate options) := by
  have hiff (s : Schema) : Succeeds (s.generate options) ↔ s.isEmpty = true ∨ s.Emittable := by
    rw [Schema.succeeds_generate, Schema.emittable_iff]
    constructor
    · rintro ⟨hdeclarations, hempty | hrest⟩
      · exact .inl hempty
      · exact .inr ⟨hdeclarations, hrest⟩
    · rintro (hempty | ⟨hdeclarations, hrest⟩)
      · exact ⟨Schema.emitsDeclarations_of_isEmpty hempty, .inl hempty⟩
      · exact ⟨hdeclarations, .inr hrest⟩
  refine ⟨hiff s, fun name hname h ↦ (hiff _).mpr ?_⟩
  exact ((hiff s).mp h).imp Schema.isEmpty_removeEnum fun h ↦ h.removeEnum hname

/-- A document in which an enumeration is named in all the ways that emission does not look at. -/
def overlookedDocument : Document :=
  { mutualDocument with
    aggregates :=
      [⟨"Node", 0, false,
          [⟨"tags", .vector (.scalar .utype (some "Game.Any")), 4, "0", false, false, false, 0,
              none, []⟩,
            ⟨"old", .union "Game.Any", 8, "0", true, false, false, 0, none, []⟩],
          0, 1, false, [], false⟩,
        ⟨"Leaf", 1, true,
          [⟨"pick", .union "Game.Any", 0, "0", false, false, false, 1, none, []⟩],
          1, 1, false, [], false⟩] }

/-- Without the enumeration that document is emitted, but not without its last namespace, which a
struct is in. -/
theorem emitted_iff_emittable_overlooked : ∃ s, Schema.ofDocument overlookedDocument = .ok s ∧
    s.Overlooks "Game.Any" ∧ Succeeds ((s.edit (.removeEnum "Game.Any")).generate {}) ∧
    ¬ (s.edit .popNamespace).Emittable ∧ ¬ Succeeds ((s.edit .popNamespace).generate {}) := by
  obtain ⟨s, hs, hvalues, hpadding, hscopes, haggregates, hpending⟩ : ∃ s,
      Schema.ofDocument overlookedDocument = .ok s ∧
      s.aggregates.values = overlookedDocument.aggregates ∧
      (∀ a ∈ s.pendingStructs, ∀ f ∈ a.fields, f.padding ≤ 15) ∧
      (s.edit .popNamespace).namespaces.length = 1 ∧
      (s.edit .popNamespace).aggregates.values = overlookedDocument.aggregates ∧
      (s.edit .popNamespace).isEmpty = false :=
    ⟨_, rfl, rfl, by decide, rfl, rfl, rfl⟩
  have hgenerated : Succeeds (s.generate {}) :=
    (Schema.sound_of_ofDocument hs).succeeds_generate_iff.mpr hpadding
  have hoverlooks : s.Overlooks "Game.Any" := by
    intro a ha _ f hf _
    rw [hvalues] at ha
    obtain rfl | rfl : a = overlookedDocument.aggregates[0] ∨
        a = overlookedDocument.aggregates[1] := by simpa [overlookedDocument] using ha
    · obtain rfl | rfl : f = overlookedDocument.aggregates[0].fields[0] ∨
          f = overlookedDocument.aggregates[0].fields[1] := by
        simpa [overlookedDocument] using hf
      · exact .inl ⟨_, rfl⟩
      · exact .inr (.inl ⟨rfl, rfl⟩)
    · obtain rfl : f = overlookedDocument.aggregates[1].fields[0] := by
        simpa [overlookedDocument] using hf
      exact .inr (.inr ⟨rfl, rfl⟩)
  have hstops : ¬ (s.edit .popNamespace).Emittable := by
    intro h
    have hscope := h.scopes overlookedDocument.aggregates[1] (by rw [haggregates]; simp)
    rw [hscopes] at hscope
    exact absurd hscope (by decide)
  refine ⟨s, hs, hoverlooks, (emitted_iff_emittable s {}).2 _ hoverlooks hgenerated, hstops, ?_⟩
  rw [(emitted_iff_emittable _ {}).1, hpending]
  exact not_or.mpr ⟨Bool.false_ne_true, hstops⟩

end BufferSchema
