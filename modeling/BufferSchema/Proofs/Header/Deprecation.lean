import BufferSchema.Proofs.Attempt
import BufferSchema.Proofs.Header.Congruence
import BufferSchema.Proofs.Schema.Acceptance
import BufferSchema.Text.Lines
import Mathlib.Data.List.Forall2

/-!
# Deprecated fields

A deprecated field keeps its slot and has no other part in the text of a table. Two versions of a
table that differ in deprecated fields alone give one text, whatever these fields are; one deprecated
field more shows in the number of slots and nowhere else.

Every loop of the emitter walks through the live fields, and only the number of slots counts all of
them. `TableFragment.ofAggregate_withFields` says this once, and the text is then split around the
number.
-/

namespace BufferSchema

/-- The text of a table. -/
def Schema.tableText (s : Schema) (options : Options) (a : Aggregate) : Emitted String :=
  (fun t ↦ unlines t.lines) <$> TableFragment.ofAggregate s options a

/-- The schema with other fields for an aggregate. -/
def Schema.withFields (s : Schema) (key : String) (fields : List Field) : Schema :=
  { s with aggregates := s.aggregates.modify key fun a ↦ { a with fields } }

/-- Two fields at one position of two versions of a table: the same field, or both deprecated. -/
def Field.SameIfLive (f g : Field) : Prop := f = g ∨ f.deprecated = true ∧ g.deprecated = true

variable {s : Schema} {options : Options} {a : Aggregate} {fields fields' : List Field}

/-! ## Live fields -/

theorem liveFields_eq_of_sameIfLive (h : List.Forall₂ Field.SameIfLive fields fields') :
    { a with fields }.liveFields = { a with fields := fields' }.liveFields := by
  rw [Aggregate.liveFields, Aggregate.liveFields]
  induction h with
  | nil => rfl
  | cons hfg _ ih =>
    rcases hfg with rfl | ⟨hf, hg⟩
    · rw [List.filter_cons, List.filter_cons, ih]
    · rw [List.filter_cons, List.filter_cons, hf, hg]
      exact ih

theorem liveFields_insert {before after : List Field} {g : Field} (hg : g.deprecated = true) :
    { a with fields := before ++ g :: after }.liveFields =
      { a with fields := before ++ after }.liveFields := by
  rw [Aggregate.liveFields, Aggregate.liveFields, List.filter_append, List.filter_append,
    List.filter_cons, hg]
  rfl

/-! ## Fragments -/

/-- Of the fields of a table only the live ones count, but for the number of slots. -/
theorem TableFragment.ofAggregate_withFields
    (h : { a with fields }.liveFields = a.liveFields) :
    TableFragment.ofAggregate s options { a with fields } =
      (fun t ↦ { t with slotCount := fields.length }) <$> TableFragment.ofAggregate s options a := by
  have horder : { a with fields }.createOrder = a.createOrder := by
    rw [Aggregate.createOrder, Aggregate.createOrder, h]
  rw [TableFragment.ofAggregate, TableFragment.ofAggregate, h, horder]
  simp only [map_bind, map_pure]
  rfl

/-! ## Texts -/

/-- The text that closes a table with a number of slots. -/
def endTable (count : Nat) : String := "fbb_.EndTable(start_, " ++ toString count ++ ")"

private theorem endTable_in_line (lead : String) (count : Nat) :
    lead ++ "(fbb_.EndTable(start_, " ++ toString count ++ "));" =
      lead ++ "(" ++ endTable count ++ ");" := by
  have hopen : "(fbb_.EndTable(start_, " = "(" ++ "fbb_.EndTable(start_, " := by decide
  have hclose : "));" = ")" ++ ");" := by decide
  unfold endTable
  -- literals are compared by evaluation, which must not get at the digits
  generalize toString count = digits
  rw [hopen, hclose]
  simp only [String.append_assoc]

private theorem TableFragment.exists_builderLines (t : TableFragment) :
    ∃ before after, ∀ count, { t with slotCount := count }.builderLines =
      before ++ ("    auto o = " ++ offsetTo t.name ++ "(" ++ endTable count ++ ");") :: after := by
  refine ⟨["struct " ++ (t.name ++ "Builder") ++ " \x7b",
      "  flatbuffers::FlatBufferBuilder &fbb_;",
      "  flatbuffers::uoffset_t start_;"] ++
    t.setters.map (Setter.line t.name) ++
    ["  " ++ oneLine (t.name ++ "Builder" ++ "(flatbuffers::FlatBufferBuilder &_fbb) : fbb_(_fbb)")
        "start_ = fbb_.StartTable();",
      "  " ++ (t.name ++ "Builder") ++ " &operator=(const " ++ (t.name ++ "Builder") ++ " &);",
      "  " ++ offsetTo t.name ++ " Finish() \x7b"],
    (t.required.map fun field ↦
      "    fbb_.Required(o, " ++ t.name ++ "::" ++ slotConstant field ++ ");  // " ++ field) ++
      ["    return o;", "  \x7d", "\x7d;", ""], fun count ↦ ?_⟩
  rw [builderLines]
  dsimp only
  rw [← endTable_in_line]
  simp only [List.append_assoc, List.cons_append, List.nil_append]

theorem TableFragment.exists_unlines_lines (t : TableFragment) :
    ∃ head tail, ∀ count,
      unlines { t with slotCount := count }.lines = head ++ endTable count ++ tail := by
  obtain ⟨before, after, hbuilder⟩ := t.exists_builderLines
  refine ⟨unlines (t.viewLines ++ before) ++ ("    auto o = " ++ offsetTo t.name ++ "("),
    ");" ++ "\n" ++ unlines (after ++ t.createLines), fun count ↦ ?_⟩
  have hlines : { t with slotCount := count }.lines =
      (t.viewLines ++ before) ++
        ("    auto o = " ++ offsetTo t.name ++ "(" ++ endTable count ++ ");") ::
          (after ++ t.createLines) := by
    rw [lines, hbuilder count]
    simp only [List.append_assoc, List.cons_append]
    rfl
  rw [hlines, unlines_append, unlines]
  simp only [String.append_assoc]

theorem tableText_eq_of_liveFields (h : { a with fields := fields' }.liveFields = a.liveFields) :
    s.tableText options { a with fields := fields' } =
      (fun t ↦ unlines { t with slotCount := fields'.length }.lines) <$>
        TableFragment.ofAggregate s options a := by
  rw [Schema.tableText, TableFragment.ofAggregate_withFields h, ← comp_map]
  rfl

/-- The text of a table around its number of slots, which is all that the number of its fields
decides. -/
theorem exists_tableText_around (s : Schema) (options : Options) (a : Aggregate) :
    ∃ around : Emitted (String × String), ∀ fields,
      { a with fields }.liveFields = a.liveFields → s.tableText options { a with fields } =
        (fun (head, tail) ↦ head ++ endTable fields.length ++ tail) <$> around := by
  rcases Attempt.succeeds_or_fails (TableFragment.ofAggregate s options a) with ⟨t, ht⟩ | ⟨e, he⟩
  · -- the fragment is that of `a`, in which only the number of slots is changed
    obtain ⟨head, tail, htext⟩ := t.exists_unlines_lines
    refine ⟨.ok (head, tail), fun fields h ↦ ?_⟩
    rw [tableText_eq_of_liveFields h, ht]
    exact congrArg Except.ok (htext fields.length)
  · refine ⟨.error e, fun fields h ↦ ?_⟩
    rw [tableText_eq_of_liveFields h, he]
    rfl

/-- **Deprecated fields do not interfere.** Two versions of a table that agree in their live fields,
position by position, give one text or fail with one fault. A deprecated field more changes the text
in the number of slots alone. Nor does the text depend on which version the schema itself holds. -/
theorem tableText_deprecated (s : Schema) (options : Options) (a : Aggregate) :
    (∀ fields fields', List.Forall₂ Field.SameIfLive fields fields' →
      s.tableText options { a with fields } = s.tableText options { a with fields := fields' }) ∧
    (∀ before g after, g.deprecated = true → ∃ around : Emitted (String × String),
      s.tableText options { a with fields := before ++ after } =
        (fun (head, tail) ↦ head ++ endTable (before ++ after).length ++ tail) <$> around ∧
      s.tableText options { a with fields := before ++ g :: after } =
        (fun (head, tail) ↦ head ++ endTable ((before ++ after).length + 1) ++ tail) <$> around) ∧
    ∀ key fields, (s.withFields key fields).tableText options a = s.tableText options a := by
  refine ⟨fun fields fields' h ↦ ?_, fun before g after hg ↦ ?_, fun key fields ↦ ?_⟩
  · obtain ⟨around, haround⟩ := exists_tableText_around s options { a with fields }
    rw [haround fields' (liveFields_eq_of_sameIfLive h).symm, ← h.length_eq]
    exact haround fields rfl
  · obtain ⟨around, haround⟩ :=
      exists_tableText_around s options { a with fields := before ++ after }
    refine ⟨around, haround (before ++ after) rfl, ?_⟩
    have hlength : (before ++ g :: after).length = (before ++ after).length + 1 := by
      rw [List.length_append, List.length_append, List.length_cons, Nat.add_assoc]
    rw [← hlength]
    exact haround (before ++ g :: after) (liveFields_insert hg)
  · have halike : s.SpellsAlike (s.withFields key fields) :=
      Schema.SpellsAlike.modify_aggregates s key fun _ ↦ rfl
    rw [Schema.tableText, Schema.tableText, halike.table_eq]

/-- A table with a live field of one type and a deprecated field of another. -/
def halfDeprecated (live deprecated : TypeRef) : Aggregate where
  name := "Log"
  scope := 1
  fixed := false
  fields :=
    [⟨"size", live, 4, "0", false, true, false, 0, none, []⟩,
      ⟨"old", deprecated, 6, "0", true, true, true, 0, some "Nowhere", []⟩]
  byteSize := 0
  minAlign := 1
  sortBySize := true
  doc := []
  generated := false

/-- A deprecated field may be of an undeclared type; a live one may not. -/
theorem tableText_deprecated_undeclared : ∃ s, Schema.ofDocument mutualDocument = .ok s ∧
    Succeeds (s.tableText {} (halfDeprecated .bool .string)) ∧
    s.tableText {} (halfDeprecated .bool .string) =
      s.tableText {} (halfDeprecated .bool (.aggregate "Nowhere" true)) ∧
    ¬ Succeeds (s.tableText {} (halfDeprecated (.aggregate "Nowhere" true) .string)) := by
  refine ⟨_, rfl, ⟨_, rfl⟩, ?_, Attempt.not_succeeds_iff.mpr ⟨_, rfl⟩⟩
  exact (tableText_deprecated _ {} (halfDeprecated .bool .string)).1 _ _
    (.cons (.inl rfl) (.cons (.inr ⟨rfl, rfl⟩) .nil))

end BufferSchema
