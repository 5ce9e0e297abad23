import BufferSchema.Proofs.Header.Deprecation
import BufferSchema.Proofs.Header.Table
import BufferSchema.Schema.Edit
import Mathlib.Data.List.FinRange

/-!
# The order of creation

The function that creates a table at once adds the live fields last first, or, if the table is
sorted by size, in one pass for each width. A pass for a width that no type has would do no harm,
but a type whose width has no pass would lose its field. So the passes are compared with an order
that does not mention them: `IsSizeOrder` puts the *positions* of the fields into order, from wide
to narrow and among fields of one width from last to first. Positions differ where fields may be
equal, and therefore no list of fields has two such orders.

The order is all that the setting decides: a text is written around the lines that add the fields.
-/

namespace BufferSchema

/-! ## Widths -/

/-- A number and its halves, down to one. -/
def halvings (n : Nat) : List Nat :=
  if n = 0 then [] else n :: halvings (n / 2)
decreasing_by omega

theorem sortedWidths_eq_halvings : sortedWidths = halvings 8 := by
  simp [sortedWidths, halvings]

/-! ## Positions in order -/

/-- The width of the field at a position. -/
def widthAt (fields : List Field) (i : Fin fields.length) : Nat := (fields.get i).type.slotWidth

/-- All positions of a list of fields, those of wide fields before those of narrow ones and those of
equally wide fields from last to first. -/
structure IsSizeOrder (fields : List Field) (positions : List (Fin fields.length)) : Prop where
  all : positions.Perm (List.finRange fields.length)
  wide_first : positions.Pairwise fun i j ↦ widthAt fields j ≤ widthAt fields i
  last_first : positions.Pairwise fun i j ↦ widthAt fields i = widthAt fields j → j < i

variable {fields : List Field} {positions positions' : List (Fin fields.length)} {a : Aggregate}

/-- No two orders put the positions differently. -/
theorem IsSizeOrder.unique (h : IsSizeOrder fields positions)
    (h' : IsSizeOrder fields positions') : positions = positions' := by
  have hpairs := h.wide_first.and h.last_first
  have hpairs' := h'.wide_first.and h'.last_first
  refine List.Perm.eq_of_pairwise ?_ hpairs hpairs' (h.all.trans h'.all.symm)
  rintro i j - - ⟨hle, hlt⟩ ⟨hle', hlt'⟩
  have hwidth : widthAt fields i = widthAt fields j := Nat.le_antisymm hle' hle
  -- two positions of one width would each come before the other
  exact absurd (hlt hwidth) (Fin.lt_asymm (hlt' hwidth.symm))

/-- The positions that are visited: in each pass those of one width, last first. -/
def visitedPositions (fields : List Field) : List (Fin fields.length) :=
  sortedWidths.flatMap fun width ↦
    (List.finRange fields.length).reverse.filter fun i ↦ widthAt fields i = width

theorem isSizeOrder_visitedPositions (fields : List Field) :
    IsSizeOrder fields (visitedPositions fields) := by
  have hdescending : (List.finRange fields.length).reverse.Pairwise fun i j ↦ j < i :=
    List.pairwise_reverse.mpr (List.pairwise_lt_finRange fields.length)
  have hwidths : sortedWidths.Pairwise fun w w' ↦ w' < w := by decide
  have hwidth {width : Nat} {i : Fin fields.length}
      (hi : i ∈ (List.finRange fields.length).reverse.filter fun i ↦ widthAt fields i = width) :
      widthAt fields i = width := of_decide_eq_true (List.mem_filter.mp hi).2
  refine ⟨?_, ?_, ?_⟩
  · have hvisited : ∀ i ∈ (List.finRange fields.length).reverse,
        widthAt fields i ∈ sortedWidths :=
      fun i _ ↦ (fields.get i).type.slotWidth_mem_sortedWidths
    have hnodup : sortedWidths.Nodup := by decide
    exact (flatMap_filter_perm hnodup hvisited).trans (List.reverse_perm _)
  · rw [visitedPositions, List.pairwise_flatMap]
    refine ⟨fun width _ ↦ ?_, hwidths.imp fun {w w'} hlt i hi j hj ↦ ?_⟩
    · refine List.Pairwise.imp_of_mem (fun {i j} hi hj _ ↦ ?_) (hdescending.filter _)
      rw [hwidth hi, hwidth hj]
    · rw [hwidth hi, hwidth hj]
      exact Nat.le_of_lt hlt
  · rw [visitedPositions, List.pairwise_flatMap]
    refine ⟨fun width _ ↦ ?_, hwidths.imp fun {w w'} hlt i hi j hj heq ↦ ?_⟩
    · refine List.Pairwise.imp ?_ (hdescending.filter _)
      exact fun hlt _ ↦ hlt
    · rw [hwidth hi, hwidth hj] at heq
      exact absurd heq (Nat.ne_of_gt hlt)

theorem Aggregate.createOrder_of_sortBySize (h : a.sortBySize = true) :
    a.createOrder = (visitedPositions a.liveFields).map a.liveFields.get := by
  have hfields : a.liveFields.reverse =
      (List.finRange a.liveFields.length).reverse.map a.liveFields.get := by
    rw [List.map_reverse, List.map_get_finRange]
  rw [Aggregate.createOrder, if_pos h, hfields, visitedPositions, List.map_flatMap]
  refine List.flatMap_congr fun width _ ↦ ?_
  rw [List.filter_map]
  rfl

theorem Aggregate.createOrder_of_not_sortBySize (h : a.sortBySize = false) :
    a.createOrder = a.liveFields.reverse := by
  rw [Aggregate.createOrder, if_neg (Bool.eq_false_iff.mp h)]

/-! ## Texts -/

/-- The lines that add fields in an order. -/
def addLines (order : List Field) : List String :=
  order.map fun f ↦ "  builder_.add_" ++ f.name ++ "(" ++ f.name ++ ");"

/-- The aggregate with a setting of whether it is sorted by size. -/
def Aggregate.withSortBySize (a : Aggregate) (on : Bool) : Aggregate := { a with sortBySize := on }

/-- A fragment is made in one way, whatever the setting, up to its order. -/
theorem TableFragment.ofAggregate_withSortBySize (s : Schema) (options : Options) (a : Aggregate)
    (on : Bool) : TableFragment.ofAggregate s options (a.withSortBySize on) =
      (fun t ↦ { t with order := (a.withSortBySize on).createOrder.map Field.name }) <$>
        TableFragment.ofAggregate s options a := by
  rw [TableFragment.ofAggregate, TableFragment.ofAggregate]
  simp only [map_bind, map_pure]
  rfl

theorem TableFragment.exists_lines_around_order (t : TableFragment) :
    ∃ before, ∀ order : List Field, { t with order := order.map Field.name }.lines =
      before ++ ["  " ++ t.name ++ "Builder builder_(_fbb);"] ++ addLines order ++
        ["  return builder_.Finish();", "\x7d", ""] := by
  refine ⟨t.viewLines ++ t.builderLines ++ punctuated "," ") \x7b"
    (("inline " ++ offsetTo t.name ++ " Create" ++ t.name ++
      "(flatbuffers::FlatBufferBuilder &_fbb") ::
        t.parameters.map fun p ↦ "   " ++ p.type ++ p.field ++ " = " ++ p.default),
    fun order ↦ ?_⟩
  have hadd : (order.map Field.name).map
      (fun field ↦ "  builder_.add_" ++ field ++ "(" ++ field ++ ");") = addLines order := by
    rw [List.map_map]
    rfl
  rw [lines, createLines, ← hadd]
  simp only [List.append_assoc]
  rfl

/-- **The order of creation.** Every live field is added once and no deprecated one is: last first,
or in the one order from wide to narrow in which equally wide fields come last first. The passes of
that order visit every width that a type has. Whether a table is sorted by size decides in which
order its text adds the fields and nothing else, and the lines that add them are the same up to that
order; nor does the text depend on the setting that the schema itself holds. -/
theorem createOrder_stable (a : Aggregate) :
    a.createOrder.Perm (a.fields.filter fun f ↦ !f.deprecated) ∧
    (a.sortBySize = false → a.createOrder = a.liveFields.reverse) ∧
    (a.sortBySize = true → ∃ positions, IsSizeOrder a.liveFields positions ∧
      (∀ positions', IsSizeOrder a.liveFields positions' → positions' = positions) ∧
      a.createOrder = positions.map a.liveFields.get) ∧
    (sortedWidths = halvings 8 ∧ ∀ type : TypeRef, type.slotWidth ∈ sortedWidths) ∧
    (addLines (a.withSortBySize true).createOrder).Perm
      (addLines (a.withSortBySize false).createOrder) ∧
    ∀ (s : Schema) (options : Options),
      (∃ around : Emitted (List String), ∀ on, s.tableText options (a.withSortBySize on) =
        (fun before ↦ unlines (before ++ ["  " ++ a.name ++ "Builder builder_(_fbb);"] ++
          addLines (a.withSortBySize on).createOrder ++
          ["  return builder_.Finish();", "\x7d", ""])) <$> around) ∧
      ∀ key on, (s.edit (.sortBySize key on)).tableText options a = s.tableText options a := by
  refine ⟨a.createOrder_perm, Aggregate.createOrder_of_not_sortBySize, fun h ↦ ?_,
    ⟨sortedWidths_eq_halvings, TypeRef.slotWidth_mem_sortedWidths⟩, ?_,
    fun s options ↦ ⟨?_, fun key on ↦ ?_⟩⟩
  · exact ⟨visitedPositions a.liveFields, isSizeOrder_visitedPositions a.liveFields,
      fun positions' h' ↦ h'.unique (isSizeOrder_visitedPositions a.liveFields),
      Aggregate.createOrder_of_sortBySize h⟩
  · have hsame : (a.withSortBySize true).createOrder.Perm (a.withSortBySize false).createOrder :=
      (a.withSortBySize true).createOrder_perm.trans (a.withSortBySize false).createOrder_perm.symm
    exact hsame.map _
  · rcases Attempt.succeeds_or_fails (TableFragment.ofAggregate s options a) with ⟨t, ht⟩ | ⟨e, he⟩
    · obtain ⟨before, hlines⟩ := t.exists_lines_around_order
      refine ⟨.ok before, fun on ↦ ?_⟩
      rw [Schema.tableText, TableFragment.ofAggregate_withSortBySize, ht,
        ← TableFragment.name_of_ofAggregate ht]
      exact congrArg (fun lines ↦ Except.ok (unlines lines)) (hlines _)
    · refine ⟨.error e, fun on ↦ ?_⟩
      rw [Schema.tableText, TableFragment.ofAggregate_withSortBySize, he]
      rfl
  · have halike : s.SpellsAlike (s.edit (.sortBySize key on)) :=
      Schema.SpellsAlike.modify_aggregates s key fun _ ↦ rfl
    rw [Schema.tableText, Schema.tableText, halike.table_eq]

/-- A table that is sorted by size: two wide fields, two narrow ones and one between, and a
deprecated field. -/
def mixedTable : Aggregate where
  name := "Mixed"
  scope := 1
  fixed := false
  fields :=
    [⟨"a", .scalar .byte none, 4, "0", false, false, false, 0, none, []⟩,
      ⟨"b", .scalar .long none, 6, "0", false, false, false, 0, none, []⟩,
      ⟨"old", .scalar .long none, 8, "0", true, true, false, 0, none, []⟩,
      ⟨"c", .string, 10, "0", false, false, false, 0, none, []⟩,
      ⟨"d", .scalar .double none, 12, "0", false, false, false, 0, none, []⟩,
      ⟨"e", .bool, 14, "0", false, false, false, 0, none, []⟩]
  byteSize := 0
  minAlign := 1
  sortBySize := true
  doc := []
  generated := false

theorem createOrder_stable_mixed : mixedTable.sortBySize = true ∧
    (∃ positions, IsSizeOrder mixedTable.liveFields positions ∧
      (∀ positions', IsSizeOrder mixedTable.liveFields positions' → positions' = positions) ∧
      mixedTable.createOrder = positions.map mixedTable.liveFields.get) ∧
    mixedTable.createOrder.map (·.name) = ["d", "b", "c", "e", "a"] ∧
    (mixedTable.withSortBySize false).sortBySize = false ∧
    (mixedTable.withSortBySize false).createOrder = mixedTable.liveFields.reverse ∧
    ∃ s, Schema.ofDocument mutualDocument = .ok s ∧ Succeeds (s.tableText {} mixedTable) := by
  obtain ⟨-, -, hsorted, -⟩ := createOrder_stable mixedTable
  obtain ⟨-, hreversed, -⟩ := createOrder_stable (mixedTable.withSortBySize false)
  exact ⟨rfl, hsorted rfl, by decide, rfl, hreversed rfl, _, rfl, _, rfl⟩

end BufferSchema
