import BufferSchema.Proofs.Header.Verifier

/-!
# Elements that a verifier visits

A field of a vector may have offsets at many depths: the slot has one, each element may have one,
and where the elements are vectors themselves, so may theirs. A verifier follows the offset of the
slot. Of the offsets below it follows those of strings and of tables that are elements of the
vector, and no others: vectors in vectors and unions in vectors have no check, however deep they
are.
-/

namespace BufferSchema

/-! ## Offsets of a type -/

namespace TypeRef

/-- Whether values of a type are stored behind an offset. -/
def isOffset (type : TypeRef) : Bool := !type.isScalar && !type.isStruct

/-- Where values of a type have an offset in them that leads to a value of `target`: at the depth
of the vectors that stand around it. -/
inductive OffsetAt : TypeRef → Nat → TypeRef → Prop where
  | here {type : TypeRef} : type.isOffset = true → OffsetAt type 0 type
  | inner {element target : TypeRef} {depth : Nat} :
    OffsetAt element depth target → OffsetAt (.vector element) (depth + 1) target

/-- Whether a verifier has a check of vectors with elements of a type. -/
def hasElementCheck : TypeRef → Bool
  | .string | .aggregate _ false => true
  | .aggregate _ true | .scalar _ _ | .bool | .vector _ | .union _ => false

end TypeRef

/-! ## Conjuncts of a field

A conjunct of a verifier calls a function on what the accessor of a field returns. The functions
below are all that occur, and each says how far below the slot it follows offsets. -/

/-- A conjunct follows the offsets at a depth of a field. -/
inductive Visits (field : String) : Nat → String → Prop where
  | content : Visits field 0 ("verifier.Verify(" ++ field ++ "())")
  | table : Visits field 0 ("verifier.VerifyTable(" ++ field ++ "())")
  | union (dispatcher : String) :
    Visits field 0 (dispatcher ++ "(verifier, " ++ field ++ "(), " ++ field ++ "_type())")
  | strings : Visits field 1 ("verifier.VerifyVectorOfStrings(" ++ field ++ "())")
  | tables : Visits field 1 ("verifier.VerifyVectorOfTables(" ++ field ++ "())")

/-- The conjuncts that follow the offsets of the elements of a vector. -/
def elementTexts (field : String) : TypeRef → List String
  | .string => ["verifier.VerifyVectorOfStrings(" ++ field ++ "())"]
  | .aggregate _ false => ["verifier.VerifyVectorOfTables(" ++ field ++ "())"]
  | .aggregate _ true | .scalar _ _ | .bool | .vector _ | .union _ => []

/-- The conjunct that checks the slot of a field. -/
def slotText (f : Field) (type : String) : String :=
  "VerifyField" ++ (if f.required then "Required" else "") ++ "<" ++ type ++ ">(verifier, " ++
    ("VT_" ++ uppercase f.name) ++ ")"

/-- What the conjuncts of a field visit. -/
structure VisitsOf (f : Field) (block : List String) : Prop where
  /-- The slot is checked first, and nothing but the field is looked into behind that. -/
  slot : ∃ type content, block = slotText f type :: content ∧
    ∀ text ∈ content, ∃ depth, Visits f.name depth text
  /-- The offset of the slot is followed, and so are those of elements that are strings or
  tables. -/
  visits : ∀ depth target, f.type.OffsetAt depth target →
    ((∃ text ∈ block, Visits f.name depth text) ↔
      depth = 0 ∨ depth = 1 ∧ target.hasElementCheck = true)
  /-- The conjuncts of a vector, one by one. -/
  vector : ∀ element, f.type = .vector element → block = slotText f "flatbuffers::uoffset_t" ::
    ("verifier.Verify(" ++ f.name ++ "())") :: elementTexts f.name element

section conjuncts

variable {s : Schema} {f : Field} {field text : String} {depth : Nat}

theorem visits_one_iff : Visits field 1 text ↔
    text = "verifier.VerifyVectorOfStrings(" ++ field ++ "())" ∨
      text = "verifier.VerifyVectorOfTables(" ++ field ++ "())" := by
  constructor
  · rintro (_ | _)
    · exact .inl rfl
    · exact .inr rfl
  · rintro (rfl | rfl)
    · exact .strings
    · exact .tables

theorem visits_one_of_mem_elementTexts {element : TypeRef} (h : text ∈ elementTexts field element) :
    Visits field 1 text := by
  cases element with
  | string =>
    obtain rfl := List.mem_singleton.mp h
    exact .strings
  | aggregate target fixed =>
    cases fixed with
    | true => exact absurd h List.not_mem_nil
    | false =>
      obtain rfl := List.mem_singleton.mp h
      exact .tables
  | scalar _ _ | bool | vector _ | union _ => exact absurd h List.not_mem_nil

theorem exists_mem_elementTexts_iff {element : TypeRef} :
    (∃ text, text ∈ elementTexts field element) ↔ element.hasElementCheck = true := by
  cases element with
  | aggregate target fixed => cases fixed <;> simp [elementTexts, TypeRef.hasElementCheck]
  | string | scalar _ _ | bool | vector _ | union _ =>
    simp [elementTexts, TypeRef.hasElementCheck]

theorem exists_toList_eq_of_visits_one (h : Visits field 1 text) :
    ∃ rest, text.toList = "verifier.VerifyVectorOf".toList ++ rest := by
  rcases visits_one_iff.mp h with rfl | rfl
  · exact ⟨("Strings(" ++ field ++ "())").toList, by simp⟩
  · exact ⟨("Tables(" ++ field ++ "())").toList, by simp⟩

theorem not_visits_one_slot (field required type constant : String) : ¬Visits field 1
    ("VerifyField" ++ required ++ "<" ++ type ++ ">(verifier, " ++ constant ++ ")") := by
  intro h
  obtain ⟨rest, htext⟩ := exists_toList_eq_of_visits_one h
  revert htext
  simp

theorem not_visits_one_content (field field' : String) :
    ¬Visits field 1 ("verifier.Verify(" ++ field' ++ "())") := by
  intro h
  obtain ⟨rest, htext⟩ := exists_toList_eq_of_visits_one h
  revert htext
  simp

theorem visits_one_block_iff {type : String} {element : TypeRef} :
    (∃ text ∈ slotText f type :: ("verifier.Verify(" ++ f.name ++ "())") ::
        elementTexts f.name element, Visits f.name 1 text) ↔ element.hasElementCheck = true := by
  rw [← exists_mem_elementTexts_iff]
  constructor
  · rintro ⟨text, htext, hvisits⟩
    rcases List.mem_cons.mp htext with rfl | htext
    · exact absurd hvisits (not_visits_one_slot _ _ _ _)
    rcases List.mem_cons.mp htext with rfl | htext
    · exact absurd hvisits (not_visits_one_content _ _)
    · exact ⟨text, htext⟩
  · rintro ⟨text, htext⟩
    exact ⟨text, List.mem_cons_of_mem _ (List.mem_cons_of_mem _ htext),
      visits_one_of_mem_elementTexts htext⟩

/-- A conjunct that looks into a vector looks into one field only. -/
theorem Visits.eq_of_visits_one {field' : String} (hfield : ' ' ∉ field.toList)
    (h : Visits field 1 text) (h' : Visits field' depth text) : field' = field := by
  cases h' with
  | content => exact absurd h (not_visits_one_content _ _)
  | table =>
    obtain ⟨rest, htext⟩ := exists_toList_eq_of_visits_one h
    revert htext
    simp
  | union dispatcher =>
    -- the conjunct of a union separates its arguments by blanks
    have hblank : ' ' ∉ (dispatcher ++ "(verifier, " ++ field' ++ "(), " ++ field' ++
        "_type())").toList := by
      rcases visits_one_iff.mp h with heq | heq <;>
      · rw [heq]
        simpa using hfield
    exact absurd hblank (by simp)
  | strings | tables =>
    rcases visits_one_iff.mp h with h | h <;>
    · have htext := congrArg String.toList h
      revert htext
      simp [String.toList_inj]

theorem Check.map_text_of_ofContent_vector {element : TypeRef} {content : List Check}
    (h : Check.ofContent s field (.vector element) = .ok content) :
    content.map Check.text =
      ("verifier.Verify(" ++ field ++ "())") :: elementTexts field element := by
  cases element with
  | aggregate target fixed => cases fixed <;> obtain rfl := Attempt.pure_eq_ok.mp h <;> rfl
  | string | scalar _ _ | bool | vector _ | union _ =>
    obtain rfl := Attempt.pure_eq_ok.mp h
    rfl

/-- Behind the check of a slot each check looks into the field, and one follows the offset of the
slot if there is one. -/
theorem Check.visits_of_ofContent_eq_ok {type : TypeRef} {content : List Check}
    (h : Check.ofContent s field type = .ok content) :
    (∀ c ∈ content, ∃ depth, Visits field depth c.text) ∧
      (type.isOffset = true → ∃ c ∈ content, Visits field 0 c.text) := by
  cases type with
  | union tag =>
    obtain ⟨e, -, h⟩ := Attempt.bind_eq_ok.mp h
    obtain ⟨dispatcher, -, h⟩ := Attempt.bind_eq_ok.mp h
    obtain rfl := Attempt.pure_eq_ok.mp h
    rw [List.forall_mem_singleton]
    exact ⟨⟨0, .union dispatcher⟩, fun _ ↦ ⟨_, List.mem_cons_self, .union dispatcher⟩⟩
  | vector element =>
    have htexts := Check.map_text_of_ofContent_vector h
    constructor
    · intro c hc
      have htext : c.text ∈ content.map Check.text := List.mem_map_of_mem hc
      rw [htexts] at htext
      rcases List.mem_cons.mp htext with heq | htext
      · exact ⟨0, heq ▸ .content⟩
      · exact ⟨1, visits_one_of_mem_elementTexts htext⟩
    · intro _
      have hmem : "verifier.Verify(" ++ field ++ "())" ∈ content.map Check.text := by
        rw [htexts]
        exact List.mem_cons_self
      obtain ⟨c, hc, heq⟩ := List.mem_map.mp hmem
      exact ⟨c, hc, heq ▸ .content⟩
  | aggregate target fixed =>
    cases fixed with
    | true =>
      obtain rfl := Attempt.pure_eq_ok.mp h
      exact ⟨List.forall_mem_nil _, fun hoffset ↦ nomatch hoffset⟩
    | false =>
      obtain rfl := Attempt.pure_eq_ok.mp h
      rw [List.forall_mem_singleton]
      exact ⟨⟨0, .table⟩, fun _ ↦ ⟨_, List.mem_cons_self, .table⟩⟩
  | string =>
    obtain rfl := Attempt.pure_eq_ok.mp h
    rw [List.forall_mem_singleton]
    exact ⟨⟨0, .content⟩, fun _ ↦ ⟨_, List.mem_cons_self, .content⟩⟩
  | scalar _ _ | bool =>
    obtain rfl := Attempt.pure_eq_ok.mp h
    exact ⟨List.forall_mem_nil _, fun hoffset ↦ nomatch hoffset⟩

theorem visitsOf_of_ofField_eq_ok {block : List Check} (h : Check.ofField s f = .ok block) :
    VisitsOf f (block.map Check.text) := by
  obtain ⟨type, content, htype, hcontent, rfl⟩ := Check.of_ofField_eq_ok h
  obtain ⟨hown, hslot⟩ := Check.visits_of_ofContent_eq_ok hcontent
  have hvector (element : TypeRef) (hf : f.type = .vector element) :
      (Check.slot f.required type (slotConstant f.name) :: content).map Check.text =
        slotText f "flatbuffers::uoffset_t" :: ("verifier.Verify(" ++ f.name ++ "())") ::
          elementTexts f.name element := by
    rw [hf] at htype hcontent
    obtain rfl := Attempt.pure_eq_ok.mp htype
    rw [List.map_cons, Check.map_text_of_ofContent_vector hcontent]
    rfl
  refine ⟨⟨type, content.map Check.text, rfl, List.forall_mem_map.mpr hown⟩,
    fun depth target hoffset ↦ ?_, hvector⟩
  cases hf : f.type with
  | vector element =>
    rw [hf] at hoffset
    rw [hvector element hf]
    cases hoffset with
    | here _ =>
      exact iff_of_true ⟨_, List.mem_cons_of_mem _ List.mem_cons_self, .content⟩ (.inl rfl)
    | @inner _ _ depth hoffset =>
      cases hoffset with
      | here _ =>
        rw [visits_one_block_iff]
        simp
      | inner _ =>
        -- a vector in a vector: two is deeper than any conjunct looks
        refine iff_of_false ?_ (by omega)
        rintro ⟨text, -, hvisits⟩
        exact nomatch hvisits
  | aggregate _ _ | string | scalar _ _ | bool | union _ =>
    rw [hf] at hoffset hslot
    cases hoffset with
    | here hoffset =>
      obtain ⟨c, hc, hvisits⟩ := hslot hoffset
      exact iff_of_true ⟨c.text, List.mem_cons_of_mem _ (List.mem_map_of_mem hc), hvisits⟩
        (.inl rfl)

end conjuncts

/-! ## Verifiers -/

variable {s : Schema} {options : Options} {a : Aggregate}

/-- The lines of a verifier with blocks of conjuncts, behind the one that opens the table and in
front of the one that closes it. -/
def verifierLines (blocks : List (List String)) : List String :=
  [verifierHead, "    return VerifyTableStart(verifier) &&"] ++
    blocks.flatten.map (fun text ↦ "           " ++ text ++ " &&") ++
    ["           verifier.EndTable();", "  \x7d", "\x7d;", ""]

theorem exists_tableText_verifier {t : TableFragment}
    (h : TableFragment.ofAggregate s options a = .ok t) {blocks : List (List Check)}
    (hblocks : t.checks = .tableStart :: blocks.flatten ++ [.tableEnd]) :
    ∃ before after, s.tableText options a = .ok (unlines (before ++
        verifierLines (blocks.map (List.map Check.text)) ++ after)) ∧ verifierHead ∉ before ∧
      ∀ accessor ∈ t.accessors, accessor.lines ⊆ before := by
  obtain ⟨before, hlines, hbefore, haccessors⟩ := t.exists_viewLines_eq
  have hverifier : [verifierHead] ++ conjunctionLines "    return " t.checks ++
      ["  \x7d", "\x7d;", ""] = verifierLines (blocks.map (List.map Check.text)) := by
    rw [hblocks, conjunctionLines_concat, List.map_flatten, verifierLines]
    simp only [List.cons_append, List.append_assoc, List.nil_append]
    rfl
  refine ⟨before, t.builderLines ++ t.createLines, ?_, hbefore, haccessors⟩
  have hview : before ++ verifierLines (blocks.map (List.map Check.text)) = t.viewLines := by
    rw [hlines, ← hverifier]
    simp only [List.append_assoc]
  rw [hview, Schema.tableText, h, ← List.append_assoc]
  rfl

/-- Where no two fields have one name, the conjuncts that look into a vector are those of its own
block. -/
theorem VisitsOf.mem_flatten_iff {fields : List Field} {blocks : List (List String)}
    (h : List.Forall₂ VisitsOf fields blocks) (hnodup : (fields.map Field.name).Nodup) {f : Field}
    (hf : f ∈ fields) (hblank : ' ' ∉ f.name.toList) {depth : Nat} {target : TypeRef}
    (hoffset : f.type.OffsetAt depth target) :
    (∃ text ∈ blocks.flatten, Visits f.name depth text) ↔
      depth = 0 ∨ depth = 1 ∧ target.hasElementCheck = true := by
  obtain ⟨block, hblock, hvisits⟩ := Attempt.exists_mem_right_of_forall₂ h hf
  rw [← hvisits.visits depth target hoffset]
  constructor
  · rintro ⟨text, htext, hdepth⟩
    match depth with
    | 0 => exact (hvisits.visits 0 target hoffset).mpr (.inl rfl)
    | 1 =>
      obtain ⟨block', hblock', htext⟩ := List.mem_flatten.mp htext
      obtain ⟨g, hg, hvisits'⟩ := Attempt.exists_mem_left_of_forall₂ h hblock'
      obtain ⟨type, content, rfl, hown⟩ := hvisits'.slot
      -- the conjunct tells the name of its field, and the name tells the field
      rcases List.mem_cons.mp htext with rfl | hcontent
      · exact absurd hdepth (not_visits_one_slot _ _ _ _)
      obtain ⟨depth', hdepth'⟩ := hown text hcontent
      obtain rfl := List.inj_on_of_nodup_map hnodup hg hf (hdepth.eq_of_visits_one hblank hdepth')
      rw [hvisits.visits 1 target hoffset, ← hvisits'.visits 1 target hoffset]
      exact ⟨text, htext, hdepth⟩
    | depth + 2 => exact nomatch hdepth
  · rintro ⟨text, htext, hdepth⟩
    exact ⟨text, List.mem_flatten_of_mem hblock htext, hdepth⟩

/-- **What a verifier visits.** The verifier of a table of a loaded schema is one conjunction: a
block of conjuncts for each live field in their order, between the one that opens the table and the
one that closes it. A block begins with the slot. Of the offsets that are in a value of the field it
follows that of the slot, and those of the elements of a vector if these are strings or tables; no
offset that is in a vector of vectors or of unions, at whatever depth, is followed below the
outermost vector, neither in the block of the field nor anywhere else in the conjunction. -/
theorem verifier_visits_elements {d : Document} {s : Schema} (h : Schema.ofDocument d = .ok s)
    (options : Options) {a : Aggregate} (ha : a ∈ s.aggregates.values) :
    ∃ before blocks after,
      s.tableText options a = .ok (unlines (before ++ verifierLines blocks ++ after)) ∧
      verifierHead ∉ before ∧ List.Forall₂ VisitsOf a.liveFields blocks ∧
      ((a.liveFields.map Field.name).Nodup → ∀ f ∈ a.liveFields, ' ' ∉ f.name.toList →
        ∀ depth target, f.type.OffsetAt depth target →
          ((∃ text ∈ blocks.flatten, Visits f.name depth text) ↔
            depth = 0 ∨ depth = 1 ∧ target.hasElementCheck = true)) := by
  obtain ⟨t, ht⟩ : Succeeds (TableFragment.ofAggregate s options a) :=
    (Schema.sound_of_ofDocument h).succeeds_ofTable ha
  obtain ⟨blocks, -, hblocks, -, -, -, -, -, hchain, -⟩ := TableFragment.of_ofAggregate_eq_ok ht
  obtain ⟨before, after, htext, hbefore, -⟩ := exists_tableText_verifier ht hchain
  have hvisits : List.Forall₂ VisitsOf a.liveFields (blocks.map (List.map Check.text)) := by
    rw [List.forall₂_map_right_iff]
    exact hblocks.imp fun _ _ ↦ visitsOf_of_ofField_eq_ok
  refine ⟨before, blocks.map (List.map Check.text), after, htext, hbefore, hvisits, ?_⟩
  intro hnodup f hf hblank depth target hoffset
  exact VisitsOf.mem_flatten_iff hvisits hnodup hf hblank hoffset

/-- A table with vectors of strings, of vectors and of unions. -/
def shelfTable : Aggregate where
  name := "Shelf"
  scope := 1
  fixed := false
  fields :=
    [⟨"names", .vector .string, 4, "0", false, false, false, 0, none, []⟩,
      ⟨"grid", .vector (.vector .string), 6, "0", false, false, false, 0, none, []⟩,
      ⟨"things", .vector (.union "Game.Any"), 8, "0", false, false, false, 0, none, []⟩]
  byteSize := 0
  minAlign := 1
  sortBySize := false
  doc := []
  generated := false

/-- A document with that table. -/
def shelfDocument : Document :=
  { mutualDocument with aggregates := shelfTable :: mutualDocument.aggregates }

/-- The names are visited, one by one, and the rows of the grid are not. -/
theorem verifier_visits_elements_shelf : ∃ s, Schema.ofDocument shelfDocument = .ok s ∧
    shelfTable ∈ s.aggregates.values ∧ (shelfTable.liveFields.map Field.name).Nodup ∧
    ∃ before blocks after,
      s.tableText {} shelfTable = .ok (unlines (before ++ verifierLines blocks ++ after)) ∧
      "verifier.VerifyVectorOfStrings(names())" ∈ blocks.flatten ∧
      "verifier.Verify(grid())" ∈ blocks.flatten ∧
      "verifier.VerifyVectorOfStrings(grid())" ∉ blocks.flatten ∧
      "verifier.VerifyVectorOfTables(grid())" ∉ blocks.flatten := by
  have hnodup : (shelfTable.liveFields.map Field.name).Nodup := by decide
  refine ⟨_, rfl, List.mem_cons_self, hnodup, ?_⟩
  obtain ⟨before, blocks, after, htext, -, hblocks, hvisits⟩ :=
    verifier_visits_elements (d := shelfDocument) rfl {} (a := shelfTable) List.mem_cons_self
  have hnames : shelfTable.fields[0] ∈ shelfTable.liveFields := by decide
  have hgrid : shelfTable.fields[1] ∈ shelfTable.liveFields := by decide
  have hunvisited (text : String) (htext : Visits "grid" 1 text) : text ∉ blocks.flatten := by
    intro hmem
    have hdepth := (hvisits hnodup _ hgrid (by decide) 1 (.vector .string) (.inner (.here rfl))).mp
      ⟨text, hmem, htext⟩
    exact absurd hdepth (by decide)
  obtain ⟨block, hblock, hvector⟩ := Attempt.exists_mem_right_of_forall₂ hblocks hnames
  obtain ⟨block', hblock', hvector'⟩ := Attempt.exists_mem_right_of_forall₂ hblocks hgrid
  refine ⟨before, blocks, after, htext, ?_, ?_, hunvisited _ .strings, hunvisited _ .tables⟩
  · refine List.mem_flatten_of_mem hblock ?_
    rw [hvector.vector .string rfl]
    exact List.mem_cons_of_mem _ (List.mem_cons_of_mem _ List.mem_cons_self)
  · refine List.mem_flatten_of_mem hblock' ?_
    rw [hvector'.vector (.vector .string) rfl]
    exact List.mem_cons_of_mem _ List.mem_cons_self

/-- The conjuncts of that table, as they are emitted. -/
def shelfConjuncts : List (List String) :=
  [["VerifyField<flatbuffers::uoffset_t>(verifier, VT_NAMES)", "verifier.Verify(names())",
      "verifier.VerifyVectorOfStrings(names())"],
    ["VerifyField<flatbuffers::uoffset_t>(verifier, VT_GRID)", "verifier.Verify(grid())"],
    ["VerifyField<flatbuffers::uoffset_t>(verifier, VT_THINGS)", "verifier.Verify(things())"]]

/-- The grid and the things are handed out as vectors of offsets, and none of these offsets is
followed. -/
theorem nested_elements_unvisited : ∃ s before after, Schema.ofDocument shelfDocument = .ok s ∧
    shelfTable ∈ s.aggregates.values ∧
    TypeRef.OffsetAt (.vector (.vector .string)) 1 (.vector .string) ∧
    TypeRef.OffsetAt (.vector (.union "Game.Any")) 1 (.union "Game.Any") ∧
    s.tableText {} shelfTable =
      .ok (unlines (before ++ verifierLines shelfConjuncts ++ after)) ∧ verifierHead ∉ before ∧
    "  const flatbuffers::Vector<flatbuffers::Offset<" ++
        "flatbuffers::Vector<flatbuffers::Offset<flatbuffers::String>>>> *grid() const \x7b " ++
        "return GetPointer<const flatbuffers::Vector<flatbuffers::Offset<" ++
        "flatbuffers::Vector<flatbuffers::Offset<flatbuffers::String>>>> *>(VT_GRID); \x7d" ∈
      before ∧
    "  const flatbuffers::Vector<flatbuffers::Offset<void>> " ++
        "*things() const \x7b return GetPointer<const flatbuffers::Vector<" ++
        "flatbuffers::Offset<void>> *>(VT_THINGS); \x7d" ∈ before ∧
    ∀ text ∈ shelfConjuncts.flatten, ¬Visits "grid" 1 text ∧ ¬Visits "things" 1 text := by
  let blocks : List (List Check) :=
    [[.slot false "flatbuffers::uoffset_t" "VT_NAMES", .content "names", .textsOf "names"],
      [.slot false "flatbuffers::uoffset_t" "VT_GRID", .content "grid"],
      [.slot false "flatbuffers::uoffset_t" "VT_THINGS", .content "things"]]
  obtain ⟨s, t, names, grid, things, hs, hmem, ht, hchecks, haccessors, hgrid, hthings⟩ :
      ∃ s t names grid things, Schema.ofDocument shelfDocument = .ok s ∧
        shelfTable ∈ s.aggregates.values ∧ TableFragment.ofAggregate s {} shelfTable = .ok t ∧
        t.checks = .tableStart :: blocks.flatten ++ [.tableEnd] ∧
        t.accessors = [names, grid, things] ∧
        grid.lines.head? = some ("  const flatbuffers::Vector<flatbuffers::Offset<" ++
          "flatbuffers::Vector<flatbuffers::Offset<flatbuffers::String>>>> *grid() const \x7b " ++
          "return GetPointer<const flatbuffers::Vector<flatbuffers::Offset<" ++
          "flatbuffers::Vector<flatbuffers::Offset<flatbuffers::String>>>> *>(VT_GRID); \x7d") ∧
        things.lines.head? = some ("  const flatbuffers::Vector<flatbuffers::Offset<void>> " ++
          "*things() const \x7b return GetPointer<const flatbuffers::Vector<" ++
          "flatbuffers::Offset<void>> *>(VT_THINGS); \x7d") :=
    ⟨_, _, _, _, _, rfl, List.mem_cons_self, rfl, rfl, rfl, by decide +kernel, by decide +kernel⟩
  obtain ⟨before, after, htext, hbefore, hlines⟩ := exists_tableText_verifier ht hchecks
  rw [haccessors] at hlines
  simp only [List.forall_mem_cons] at hlines
  refine ⟨s, before, after, hs, hmem, .inner (.here rfl), .inner (.here rfl), htext, hbefore,
    hlines.2.1 (List.mem_of_mem_head? hgrid), hlines.2.2.1 (List.mem_of_mem_head? hthings), ?_⟩
  simp only [visits_one_iff]
  decide

end BufferSchema
