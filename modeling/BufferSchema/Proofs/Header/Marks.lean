import BufferSchema.Proofs.Header.Congruence
import BufferSchema.Proofs.Header.Parts

/-!
# Marks of generated declarations

The header of a schema leaves out what an included schema has generated already, and the mark that
says so is all that decides it. A mark more takes the pieces of its declaration out of the header.
The other pieces stay as they are, because no emitter reads the mark of a declaration that it finds
by name, and the plan of forward declarations takes in aggregates with and without one.
-/

namespace BufferSchema

namespace Schema

variable {s s' : Schema} {options : Options} {key : String}

/-! ## The same lines for every part -/

theorem EmitsAlike.partLines_eq (h : s.EmitsAlike s') : s.partLines = s'.partLines := by
  funext options part
  cases part with
  | opening | closing =>
    simp only [partLines, openingLines, h.includeGuard_eq]
  | includes => rw [partLines, partLines, h.includeLines_eq]
  | otherForwards | activeForwards => rw [partLines, partLines, h.forwardDeclarations_eq]
  | scopeOpening | scopeClosing => rw [partLines, partLines, h.activeNamespace_eq]
  | enum e | dispatcher e => rw [partLines, partLines, h.enum_eq]
  | struct a => rw [partLines, partLines, h.struct_eq]
  | table a => rw [partLines, partLines, h.table_eq]
  | helpers => rw [partLines, partLines, h.rootHelpers_eq]

/-! ## The parts that are left -/

section parts

variable {e : Enumeration} {a : Aggregate}

theorem partGroups_enumGenerated (hnodup : s.enums.values.Nodup)
    (hget : s.enums.get? key = some e) :
    (s.edit (.enumGenerated key true)).partGroups.flatten =
      s.partGroups.flatten.filter (· ∉ [.enum e, .dispatcher e]) := by
  have henums : (s.edit (.enumGenerated key true)).pendingEnums =
      s.pendingEnums.filter (· ≠ e) :=
    Declarations.filter_values_modify hget hnodup rfl
  have hstructs : (s.edit (.enumGenerated key true)).pendingStructs = s.pendingStructs := rfl
  have htables : (s.edit (.enumGenerated key true)).pendingTables = s.pendingTables := rfl
  rw [partGroups, partGroups, henums, hstructs, htables]
  simp [List.filter_map, Function.comp_def]

theorem partGroups_aggregateGenerated (hnodup : s.aggregates.values.Nodup)
    (hget : s.aggregates.get? key = some a) :
    (s.edit (.aggregateGenerated key true)).partGroups.flatten =
      s.partGroups.flatten.filter (· ∉ [if a.fixed then .struct a else .table a]) := by
  have henums : (s.edit (.aggregateGenerated key true)).pendingEnums = s.pendingEnums := rfl
  have hstructs : (s.edit (.aggregateGenerated key true)).pendingStructs =
      s.pendingStructs.filter (· ≠ a) :=
    Declarations.filter_values_modify hget hnodup rfl
  have htables : (s.edit (.aggregateGenerated key true)).pendingTables =
      s.pendingTables.filter (· ≠ a) :=
    Declarations.filter_values_modify hget hnodup rfl
  rw [partGroups, partGroups, henums, hstructs, htables]
  -- one of the two lists does not hold the aggregate anyway
  cases hfixed : a.fixed with
  | false =>
    have hself : s.pendingStructs.filter (· ≠ a) = s.pendingStructs := by
      refine List.filter_eq_self.mpr fun b hb ↦ decide_eq_true ?_
      rintro rfl
      have hstruct : b.fixed = true := (mem_pendingStructs_iff.mp hb).2.1
      exact Bool.false_ne_true (hfixed.symm.trans hstruct)
    rw [hself]
    simp [List.filter_map, Function.comp_def]
  | true =>
    have hself : s.pendingTables.filter (· ≠ a) = s.pendingTables := by
      refine List.filter_eq_self.mpr fun b hb ↦ decide_eq_true ?_
      rintro rfl
      simp [pendingTables, hfixed] at hb
    rw [hself]
    simp [List.filter_map, Function.comp_def]

end parts

/-! ## The header without a declaration -/

/-- A header and what is left of it without some of its parts, each of which it had once. -/
structure LosesParts (s s' : Schema) (options : Options) (lost : List Part) (layout : List Piece) :
    Prop where
  laidOut : s.LaidOut options layout
  text : s.generate options = .ok (unlines (layout.flatMap Piece.lines))
  once : (layout.map Piece.part).Nodup
  had : ∀ part ∈ lost, part ∈ layout.map Piece.part
  rest_laidOut : s'.LaidOut options (layout.filter (·.part ∉ lost))
  rest_text : s'.generate options =
    .ok (unlines ((layout.filter (·.part ∉ lost)).flatMap Piece.lines))

/-- Of schemas that emit alike, one with fewer parts has the same pieces for them. -/
theorem LaidOut.losesParts {layout : List Piece} {lost : List Part} (h : s.LaidOut options layout)
    (halike : s.EmitsAlike s')
    (hparts : s'.partGroups.flatten = s.partGroups.flatten.filter (· ∉ lost))
    (hnodup : s.partGroups.flatten.Nodup) (hhad : ∀ part ∈ lost, s.HasPart part)
    (hpending : s.isEmpty = false) (hpending' : s'.isEmpty = false) :
    s.LosesParts s' options lost layout := by
  have hrest : s'.LaidOut options (layout.filter (·.part ∉ lost)) := by
    constructor
    · rw [hparts, ← h.parts, List.filter_map]
      rfl
    · intro piece hpiece
      rw [← halike.partLines_eq]
      exact h.lines piece (List.mem_of_mem_filter hpiece)
  exact
    { laidOut := h
      text := h.generate_eq hpending
      once := h.parts ▸ hnodup
      had := fun part hpart ↦ h.parts ▸ mem_partGroups_iff.mpr (hhad part hpart)
      rest_laidOut := hrest
      rest_text := hrest.generate_eq hpending' }

theorem isEmpty_eq_false_iff : s.isEmpty = false ↔
    (∃ key e, s.enums.get? key = some e ∧ e.generated = false) ∨
      ∃ key a, s.aggregates.get? key = some a ∧ a.generated = false := by
  have hmarked {α : Type} (decls : Declarations α) (mark : α → Bool) :
      decls.values.all mark = false ↔ ∃ key a, decls.get? key = some a ∧ mark a = false := by
    simp only [← Bool.not_eq_true, List.all_eq_true, not_forall, Declarations.mem_values_iff,
      Declarations.get?_eq_some_iff]
    constructor
    · rintro ⟨a, ⟨key, ha⟩, hmark⟩
      exact ⟨key, a, ha, hmark⟩
    · rintro ⟨key, a, ha, hmark⟩
      exact ⟨a, ⟨key, ha⟩, hmark⟩
  rw [isEmpty, Bool.and_eq_false_iff, hmarked, hmarked]

end Schema

/-- **Marking a declaration.** Let a loaded schema have no wide mask of padding. If a declaration
gets a mark while another one is still to be emitted, the header is what it was without the pieces
of that declaration: its own part and, of an enumeration, the body of the dispatcher. The header is
the empty text exactly where there is nothing to emit. -/
theorem header_without_marked {d : Document} {s : Schema} (h : Schema.ofDocument d = .ok s)
    (hpadding : ∀ a ∈ s.pendingStructs, ∀ f ∈ a.fields, f.padding ≤ 15) (options : Options) :
    (∀ key e, s.enums.get? key = some e → e.generated = false →
      (∃ other e', other ≠ key ∧ s.enums.get? other = some e' ∧ e'.generated = false) ∨
        (∃ other a, s.aggregates.get? other = some a ∧ a.generated = false) →
      ∃ layout, s.LosesParts (s.edit (.enumGenerated key true)) options
        [.enum e, .dispatcher e] layout) ∧
    (∀ key a, s.aggregates.get? key = some a → a.generated = false →
      (∃ other e, s.enums.get? other = some e ∧ e.generated = false) ∨
        (∃ other a', other ≠ key ∧ s.aggregates.get? other = some a' ∧ a'.generated = false) →
      ∃ layout, s.LosesParts (s.edit (.aggregateGenerated key true)) options
        [if a.fixed then .struct a else .table a] layout) ∧
    (s.generate options = .ok "" ↔ s.isEmpty = true) := by
  obtain ⟨henums, haggregates⟩ := Schema.nodup_of_ofDocument h
  have hnodup : s.partGroups.flatten.Nodup := Schema.nodup_partGroups henums haggregates
  have hlayout (hpending : s.isEmpty = false) : ∃ layout, s.LaidOut options layout :=
    (Schema.sound_of_ofDocument h).exists_laidOut hpending hpadding options
  refine ⟨fun key e hget hunmarked hother ↦ ?_, fun key a hget hunmarked hother ↦ ?_,
    Schema.generate_eq_empty_iff⟩
  · have hpending : s.isEmpty = false :=
      Schema.isEmpty_eq_false_iff.mpr (.inl ⟨key, e, hget, hunmarked⟩)
    have hpending' : (s.edit (.enumGenerated key true)).isEmpty = false := by
      refine Schema.isEmpty_eq_false_iff.mpr (hother.imp_left ?_)
      rintro ⟨other, e', hne, hget', hunmarked'⟩
      exact ⟨other, e', Declarations.get?_modify_of_ne hne hget', hunmarked'⟩
    have hmem : e ∈ s.enums.values ∧ e.generated = false :=
      ⟨Declarations.mem_values_of_get? hget, hunmarked⟩
    obtain ⟨layout, hlayout⟩ := hlayout hpending
    refine ⟨layout, hlayout.losesParts ?_ ?_ hnodup ?_ hpending hpending'⟩
    · exact .modify_enums s key fun _ ↦ rfl
    · exact Schema.partGroups_enumGenerated henums hget
    · simp only [List.forall_mem_cons]
      exact ⟨hmem, hmem, nofun⟩
  · have hpending : s.isEmpty = false :=
      Schema.isEmpty_eq_false_iff.mpr (.inr ⟨key, a, hget, hunmarked⟩)
    have hpending' : (s.edit (.aggregateGenerated key true)).isEmpty = false := by
      refine Schema.isEmpty_eq_false_iff.mpr (hother.imp_right ?_)
      rintro ⟨other, a', hne, hget', hunmarked'⟩
      exact ⟨other, a', Declarations.get?_modify_of_ne hne hget', hunmarked'⟩
    have hmem : a ∈ s.aggregates.values := Declarations.mem_values_of_get? hget
    obtain ⟨layout, hlayout⟩ := hlayout hpending
    refine ⟨layout, hlayout.losesParts ?_ ?_ hnodup ?_ hpending hpending'⟩
    · exact .modify_aggregates s key fun _ ↦ rfl
    · exact Schema.partGroups_aggregateGenerated haggregates hget
    · rw [List.forall_mem_singleton]
      cases hfixed : a.fixed with
      | false => exact ⟨hmem, hunmarked, hfixed⟩
      | true => exact ⟨hmem, hunmarked, hfixed⟩

theorem header_without_marked_scene : ∃ s e a layout layout',
    Schema.ofDocument sceneDocument = .ok s ∧
    (∀ a ∈ s.pendingStructs, ∀ f ∈ a.fields, f.padding ≤ 15) ∧
    s.enums.get? "Game.Any" = some e ∧ e.generated = false ∧ e.isUnion = true ∧
    s.aggregates.get? "Game.Corner" = some a ∧ a.generated = false ∧
    s.LosesParts (s.edit (.enumGenerated "Game.Any" true)) {} [.enum e, .dispatcher e] layout ∧
    s.LosesParts (s.edit (.aggregateGenerated "Game.Corner" true)) {} [.struct a] layout' := by
  obtain ⟨s, hs, hpadding, e, he, hunmarked, hunion, a, ha, hunmarked', b, hb, hunmarked'',
      hfixed⟩ :
      ∃ s, Schema.ofDocument sceneDocument = .ok s ∧
        (∀ a ∈ s.pendingStructs, ∀ f ∈ a.fields, f.padding ≤ 15) ∧
        ∃ e, s.enums.get? "Game.Any" = some e ∧ e.generated = false ∧ e.isUnion = true ∧
        ∃ a, s.aggregates.get? "Game.Corner" = some a ∧ a.generated = false ∧
        ∃ b, s.aggregates.get? "Game.Scene" = some b ∧ b.generated = false ∧ a.fixed = true :=
    ⟨_, rfl, by decide, _, rfl, rfl, rfl, _, rfl, rfl, _, rfl, rfl, rfl⟩
  obtain ⟨hmarkEnum, hmarkAggregate, -⟩ := header_without_marked hs hpadding {}
  obtain ⟨layout, hlayout⟩ :=
    hmarkEnum "Game.Any" e he hunmarked (.inr ⟨"Game.Scene", b, hb, hunmarked''⟩)
  obtain ⟨layout', hlayout'⟩ :=
    hmarkAggregate "Game.Corner" a ha hunmarked' (.inl ⟨"Game.Any", e, he, hunmarked⟩)
  rw [hfixed] at hlayout'
  exact ⟨s, e, a, layout, layout', hs, hpadding, he, hunmarked, hunion, ha, hunmarked', hlayout,
    hlayout'⟩

end BufferSchema
