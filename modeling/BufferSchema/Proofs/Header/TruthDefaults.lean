import BufferSchema.Proofs.Header.Safety
import BufferSchema.Proofs.Header.Table

/-!
# Defaults of truth values

The literal of a field that holds a truth value is written at three places. The accessor passes it
to the read of the slot and the setter to the element that is added, both as it stands; the function
that creates a table at once has a default argument that is spelled anew. An absent field reads as
the number that the literal denotes, cut to the byte that stores it, and a field that is left out of
the creation is set to the default argument. This file says when the two agree.

The default argument is false for the literal `0` alone. Falsehood has more spellings, of which
`false` is the one that comes to mind first.
-/

namespace BufferSchema

/-! ## Literals -/

/-- The number that digits denote: zeros, or digits without a zero in front. -/
def plainDecimal? (digits : List Char) : Option Nat := do
  let n ← decimal? digits
  if digits.head? = some '0' ∧ n ≠ 0 then none else some n

/-- The number that a literal denotes: a truth value, or a decimal number with or without a minus
sign. Zero is falsehood and all else is truth. -/
def literalNumber? (literal : String) : Option Int :=
  if literal = "true" then some 1
  else if literal = "false" then some 0
  else
    match literal.toList with
    | '-' :: digits => (fun n : Nat ↦ -(n : Int)) <$> plainDecimal? digits
    | digits => Int.ofNat <$> plainDecimal? digits

/-- The truth value that is read from a byte to which a number is cut. -/
def byteTruth (n : Int) : Bool := n % 256 ≠ 0

/-- The default argument that creation has for a literal. -/
def createTruth (literal : String) : String := if literal = "0" then "false" else "true"

theorem createTruth_eq_or (literal : String) :
    createTruth literal = "false" ∨ createTruth literal = "true" := by
  rw [createTruth]
  split
  · exact .inl rfl
  · exact .inr rfl

theorem createTruth_eq_false_iff {literal : String} :
    createTruth literal = "false" ↔ literal = "0" := by
  rw [createTruth]
  split <;> simp_all

theorem createTruth_eq_true_iff {literal : String} :
    createTruth literal = "true" ↔ literal ≠ "0" := by
  rw [createTruth]
  split <;> simp_all

/-- The default argument denotes what the literal denotes, unless the literal is another spelling of
falsehood than `0`. It denotes what is read for an absent field, unless the number of the literal
leaves nothing in the byte and is spelled otherwise than `0`. -/
theorem createTruth_agrees_iff {literal : String} {n : Int} (h : literalNumber? literal = some n) :
    ((createTruth literal = "false" ↔ n = 0) ↔ n ≠ 0 ∨ literal = "0") ∧
      ((createTruth literal = "true" ↔ byteTruth n = true) ↔
        byteTruth n = true ∨ literal = "0") := by
  rw [createTruth_eq_false_iff, createTruth_eq_true_iff]
  by_cases hliteral : literal = "0"
  · have hzero : literalNumber? "0" = some 0 := by decide
    rw [hliteral, hzero] at h
    obtain rfl := Option.some.inj h
    have hbyte : byteTruth 0 = false := by decide
    simp [hliteral, hbyte]
  · simp [hliteral]

/-! ## The places of a literal -/

variable {s : Schema} {options : Options} {a : Aggregate} {f : Field}

theorem TableAccessor.readerLine_of_bool (htype : f.type = .bool) {accessor : TableAccessor}
    (h : TableAccessor.ofField s options a f = .ok accessor) :
    "  " ++ accessor.reader = "  bool " ++ f.name ++
      "() const \x7b return static_cast<bool>(GetField<uint8_t>(" ++ slotConstant f.name ++ ", " ++
        f.defaultValue ++ ")); \x7d" := by
  have huser : s.basicSpelling true f.type = .ok "bool" := by rw [htype]; rfl
  rw [readerLine_of_isConverted (htype ▸ rfl) huser h, htype, ← String.toList_inj]
  simp [TypeRef.storageSpelling]

theorem Setter.line_of_bool (htype : f.type = .bool) {setter : Setter}
    (h : Setter.ofField s f = .ok setter) (tableName : String) :
    setter.line tableName = "  void add_" ++ f.name ++ "(bool " ++ f.name ++
      ") \x7b fbb_.AddElement<uint8_t>(" ++ tableName ++ "::" ++ slotConstant f.name ++
        ", static_cast<uint8_t>(" ++ f.name ++ "), " ++ f.defaultValue ++ "); \x7d" := by
  have huser : s.basicSpelling true f.type = .ok "bool" := by rw [htype]; rfl
  rw [line_of_isConverted (htype ▸ rfl) huser h, htype, ← String.toList_inj]
  simp [TypeRef.storageSpelling]

theorem CreateParameter.of_bool (htype : f.type = .bool) {parameter : CreateParameter}
    (h : CreateParameter.ofField s options f = .ok parameter) :
    parameter = ⟨"bool ", f.name, createTruth f.defaultValue⟩ := by
  obtain ⟨type, default, htype', hdefault, rfl⟩ := of_ofField_eq_ok h
  rw [htype] at htype'
  rw [defaultOf, htype] at hdefault
  obtain rfl := Except.ok.inj htype'
  obtain rfl := Except.ok.inj hdefault
  rfl

/-! ## Agreement -/

/-- **Defaults of truth values.** The literal of a live field that holds a truth value stands in its
accessor and in its setter, and its default argument in the function that creates a table. That
argument is false only for the literal `0`; so it denotes what the literal denotes if and only if
the literal denotes truth or is `0`, and it is what an absent field reads as if and only if an
absent field reads as true or the literal is `0`. -/
theorem truthDefaults_agree_iff {d : Document} {s : Schema} (h : Schema.ofDocument d = .ok s)
    (options : Options) {a : Aggregate} (ha : a ∈ s.aggregates.values) {f : Field}
    (hf : f ∈ a.liveFields) (htype : f.type = .bool) {n : Int}
    (hliteral : literalNumber? f.defaultValue = some n) :
    ∃ t default, TableFragment.ofAggregate s options a = .ok t ∧
      "  bool " ++ f.name ++ "() const \x7b return static_cast<bool>(GetField<uint8_t>(" ++
        slotConstant f.name ++ ", " ++ f.defaultValue ++ ")); \x7d" ∈ t.viewLines ∧
      "  void add_" ++ f.name ++ "(bool " ++ f.name ++ ") \x7b fbb_.AddElement<uint8_t>(" ++
        a.name ++ "::" ++ slotConstant f.name ++ ", static_cast<uint8_t>(" ++ f.name ++ "), " ++
          f.defaultValue ++ "); \x7d" ∈ t.builderLines ∧
      ("   bool " ++ f.name ++ " = " ++ default ++ "," ∈ t.createLines ∨
        "   bool " ++ f.name ++ " = " ++ default ++ ") \x7b" ∈ t.createLines) ∧
      (default = "false" ∨ default = "true") ∧ (default = "false" ↔ f.defaultValue = "0") ∧
      ((default = "false" ↔ n = 0) ↔ n ≠ 0 ∨ f.defaultValue = "0") ∧
      ((default = "true" ↔ byteTruth n = true) ↔ byteTruth n = true ∨ f.defaultValue = "0") := by
  obtain ⟨t, ht⟩ : Succeeds (TableFragment.ofAggregate s options a) :=
    (Schema.sound_of_ofDocument h).succeeds_ofTable ha
  obtain ⟨⟨accessor, haccessor, hreader⟩, ⟨setter, hsetter, hline⟩, parameter, hparameter,
    hdefault⟩ := TableFragment.exists_parts ht hf
  obtain ⟨hdenotes, hreads⟩ := createTruth_agrees_iff hliteral
  refine ⟨t, createTruth f.defaultValue, ht, ?_, ?_, ?_, createTruth_eq_or f.defaultValue,
    createTruth_eq_false_iff, hdenotes, hreads⟩
  · rw [← TableAccessor.readerLine_of_bool htype hreader]
    exact TableFragment.readerLine_mem haccessor
  · rw [← TableFragment.name_of_ofAggregate ht, ← Setter.line_of_bool htype hline]
    exact TableFragment.setterLine_mem hsetter
  · obtain rfl := CreateParameter.of_bool htype hdefault
    -- the parameter is given, since the line alone does not tell where its type ends
    have hline := TableFragment.parameterLine_mem_or hparameter
    exact hline

/-- A table of truth values with several spellings of falsehood. -/
def lampTable : Aggregate where
  name := "Lamp"
  scope := 1
  fixed := false
  fields :=
    [⟨"lit", .bool, 4, "false", false, false, false, 0, none, []⟩,
      ⟨"dim", .bool, 6, "0", false, false, false, 0, none, []⟩,
      ⟨"off", .bool, 8, "-0", false, false, false, 0, none, []⟩,
      ⟨"hot", .bool, 10, "-12", false, false, false, 0, none, []⟩]
  byteSize := 0
  minAlign := 1
  sortBySize := false
  doc := []
  generated := false

/-- A document with that table. -/
def lampDocument : Document :=
  { mutualDocument with aggregates := lampTable :: mutualDocument.aggregates }

theorem truthDefaults_agree_iff_lamp : ∃ s t default, Schema.ofDocument lampDocument = .ok s ∧
    lampTable ∈ s.aggregates.values ∧
    ⟨"hot", .bool, 10, "-12", false, false, false, 0, none, []⟩ ∈ lampTable.liveFields ∧
    literalNumber? "-12" = some (-12) ∧
    TableFragment.ofAggregate s { mutableBuffer := true } lampTable = .ok t ∧
    ("   bool hot = " ++ default ++ "," ∈ t.createLines ∨
      "   bool hot = " ++ default ++ ") \x7b" ∈ t.createLines) ∧
    default ≠ "false" ∧ (default = "true" ↔ byteTruth (-12) = true) := by
  obtain ⟨s, hs, hlamp⟩ : ∃ s, Schema.ofDocument lampDocument = .ok s ∧
      lampTable ∈ s.aggregates.values := ⟨_, rfl, List.mem_cons_self⟩
  have hhot : ⟨"hot", .bool, 10, "-12", false, false, false, 0, none, []⟩ ∈ lampTable.liveFields :=
    List.mem_cons_of_mem _ (List.mem_cons_of_mem _ (List.mem_cons_of_mem _ List.mem_cons_self))
  have hliteral : literalNumber? "-12" = some (-12) := by decide
  obtain ⟨t, default, ht, -, -, hcreate, -, -, hdenotes, hreads⟩ :=
    truthDefaults_agree_iff hs { mutableBuffer := true } hlamp hhot rfl hliteral
  have hspelled : default ≠ "false" := fun heq ↦
    absurd ((hdenotes.mpr (.inl (by decide))).mp heq) (by decide)
  exact ⟨s, t, default, hs, hlamp, hhot, hliteral, ht, hcreate, hspelled,
    hreads.mpr (.inl (by decide))⟩

/-- The default argument for the literal `false` is `true`. -/
theorem truthDefaults_disagree : ∃ s t default, Schema.ofDocument lampDocument = .ok s ∧
    lampTable ∈ s.aggregates.values ∧ TableFragment.ofAggregate s {} lampTable = .ok t ∧
    ⟨"lit", .bool, 4, "false", false, false, false, 0, none, []⟩ ∈ lampTable.liveFields ∧
    "  bool lit() const \x7b return static_cast<bool>(GetField<uint8_t>(VT_LIT, false)); \x7d" ∈
      t.viewLines ∧
    "  void add_lit(bool lit) \x7b fbb_.AddElement<uint8_t>(Lamp::VT_LIT, " ++
      "static_cast<uint8_t>(lit), false); \x7d" ∈ t.builderLines ∧
    "   bool lit = " ++ default ++ "," ∈ t.createLines ∧ (default = "false" ∨ default = "true") ∧
    literalNumber? "false" = some 0 ∧ default ≠ "false" := by
  refine ⟨_, _, "true", rfl, List.mem_cons_self, rfl, List.mem_cons_self, ?_, ?_, ?_, .inr rfl, ?_,
    ?_⟩
  · decide
  · decide
  · decide
  · decide
  · decide

end BufferSchema
