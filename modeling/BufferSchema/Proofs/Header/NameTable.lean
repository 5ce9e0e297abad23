import BufferSchema.Header.Enum
import BufferSchema.Proofs.Attempt

/-!
# Tables of value names

Whether an enumeration gets a table of value names is decided by its range and a threshold, and the
lines of the header show the decision: the two functions of a table begin like no other line of a
declaration, whatever the names and the documentation of the enumeration are.
-/

namespace BufferSchema

/-! ## The threshold -/

theorem Enumeration.hasNameTable_mono {e : Enumeration} {m m' : Int64} (h : m ≤ m')
    (htable : e.hasNameTable m = true) : e.hasNameTable m' = true := by
  have hle : m.toInt ≤ m'.toInt := Int64.le_iff_toInt_le.mp h
  unfold hasNameTable at htable ⊢
  split at htable
  · rw [decide_eq_true_eq] at htable ⊢
    omega
  · exact nomatch htable

namespace NameTable

variable {e : Enumeration} {options : Options}

/-- A table is there if the values lie close enough; an enumeration without values has none. -/
theorem isSome_ofEnum? : (ofEnum? e options).isSome = e.hasNameTable options.maxSparseness := by
  rw [ofEnum?]
  cases hvalues : e.values with
  | nil => simp [Enumeration.hasNameTable, hvalues]
  | cons first rest =>
    by_cases htable : e.hasNameTable options.maxSparseness = true
    · simp [htable]
    · simp [htable]

theorem enumName_of_ofEnum? {table : NameTable} (h : ofEnum? e options = some table) :
    table.enumName = e.name := by
  rw [ofEnum?] at h
  split at h
  · exact nomatch h
  · split at h
    · exact Option.some.inj h ▸ rfl
    · exact nomatch h

theorem ofEnum?_maxSparseness {m m' : Int64} (h : e.hasNameTable m = e.hasNameTable m') :
    ofEnum? e { options with maxSparseness := m } =
      ofEnum? e { options with maxSparseness := m' } := by
  rw [ofEnum?, ofEnum?]
  cases e.values with
  | nil => rfl
  | cons first rest =>
    dsimp only
    rw [h]
    rfl

end NameTable

namespace EnumFragment

variable {s : Schema} {options : Options} {e : Enumeration} {x y : EnumFragment} {m m' : Int64}

theorem eq_of_maxSparseness (hx : ofEnum s { options with maxSparseness := m } e = .ok x)
    (hy : ofEnum s { options with maxSparseness := m' } e = .ok y) :
    x.nameTable = NameTable.ofEnum? e { options with maxSparseness := m } ∧
      y = { x with nameTable := NameTable.ofEnum? e { options with maxSparseness := m' } } := by
  rw [ofEnum] at hx hy
  obtain ⟨dispatcher, hdispatcher, hx⟩ := Attempt.ite_bind_eq_ok.mp hx
  obtain ⟨dispatcher', hdispatcher', hy⟩ := Attempt.ite_bind_eq_ok.mp hy
  obtain rfl : dispatcher = dispatcher' := Except.ok.inj (hdispatcher.symm.trans hdispatcher')
  obtain rfl := Attempt.pure_eq_ok.mp hx
  obtain rfl := Attempt.pure_eq_ok.mp hy
  exact ⟨rfl, rfl⟩

theorem exists_lines_around_nameTable (x : EnumFragment) : ∃ before after,
    { x with nameTable := none }.declarationLines = before ++ after ∧
      ∀ table, { x with nameTable := some table }.declarationLines =
        before ++ table.lines ++ after := by
  obtain ⟨doc, name, storage, entries, nameTable, dispatcher⟩ := x
  cases dispatcher with
  | none => exact ⟨_, _, congrArg (· ++ _) (List.append_nil _), fun _ ↦ rfl⟩
  | some d => exact ⟨_, _, congrArg (· ++ _) (List.append_nil _), fun _ ↦ rfl⟩

end EnumFragment

/-! ## The functions of a table -/

/-- The line that begins the function with the names of all values. -/
def NameTable.namesLine (enumName : String) : String :=
  "inline const char **EnumNames" ++ enumName ++ "() \x7b"

/-- The line of the function that finds the name of a value. -/
def NameTable.nameLine (enumName statement : String) : String :=
  "inline const char *EnumName" ++ enumName ++ "(" ++ enumName ++ " e)" ++ " \x7b " ++ statement ++
    " \x7d"

/-- The line that lists the slots, closed by a null pointer. -/
def NameTable.slotsLine (slots : List String) : String :=
  "  static const char *names[] = \x7b " ++
    String.join (slots.map fun slot ↦ "\"" ++ slot ++ "\", ") ++ "nullptr \x7d;"

/-- The lines of both functions. The first value is subtracted from others unless it is zero. -/
def NameTable.functionLines (enumName : String) (slots : List String) (first? : Option String) :
    List String :=
  let offset :=
    match first? with
    | none => ""
    | some first => " - static_cast<int>(" ++ first ++ ")"
  [namesLine enumName, slotsLine slots, "  return names;", "\x7d", "",
    nameLine enumName ("return EnumNames" ++ enumName ++ "()[static_cast<int>(e)" ++ offset ++ "];"),
    ""]

theorem NameTable.lines_eq (table : NameTable) :
    table.lines = functionLines table.enumName table.slots table.offset := rfl

theorem NameTable.functions_mem_lines (table : NameTable) :
    namesLine table.enumName ∈ table.lines ∧
      ∃ statement, nameLine table.enumName statement ∈ table.lines :=
  ⟨List.mem_of_getElem? (i := 0) rfl, _, List.mem_of_getElem? (i := 5) rfl⟩

/-- How the functions of a table begin. -/
def tableWords : List Char := "inline const".toList

/-- A line that begins like a function of a table. -/
def BeginsTable (line : String) : Prop := tableWords <+: line.toList

theorem beginsTable_append {front : String} (h : tableWords <+: front.toList) (rest : String) :
    BeginsTable (front ++ rest) := by
  rw [BeginsTable, String.toList_append]
  exact h.trans (List.prefix_append _ _)

theorem not_beginsTable_append {front : String} (h : ¬ tableWords <+: front.toList)
    (h' : ¬ front.toList <+: tableWords) (rest : String) : ¬ BeginsTable (front ++ rest) := by
  rw [BeginsTable, String.toList_append]
  intro hline
  rcases List.prefix_or_prefix_of_prefix hline (List.prefix_append _ _) with hfront | hfront
  · exact h hfront
  · exact h' hfront

theorem NameTable.beginsTable_namesLine (enumName : String) : BeginsTable (namesLine enumName) := by
  unfold namesLine
  rw [String.append_assoc]
  exact beginsTable_append (by decide) _

theorem NameTable.beginsTable_nameLine (enumName statement : String) :
    BeginsTable (nameLine enumName statement) := by
  unfold nameLine
  simp only [String.append_assoc]
  exact beginsTable_append (by decide) _

theorem not_beginsTable_docLines (doc : List String) :
    ∀ line ∈ docLines "" doc, ¬ BeginsTable line := by
  intro line hline
  obtain ⟨text, -, rfl⟩ := List.mem_map.mp hline
  exact not_beginsTable_append (by decide) (by decide) text

theorem EnumEntry.not_beginsTable_linesOf (entries : List EnumEntry) :
    ∀ line ∈ EnumEntry.linesOf entries, ¬ BeginsTable line := by
  induction entries with
  | nil => exact fun line hline ↦ absurd hline List.not_mem_nil
  | cons entry entries ih =>
    rw [EnumEntry.linesOf, List.forall_mem_append, List.forall_mem_cons]
    refine ⟨fun line hline ↦ ?_, ?_, ih⟩
    · obtain ⟨text, -, rfl⟩ := List.mem_map.mp hline
      exact not_beginsTable_append (by decide) (by decide) text
    · simp only [String.append_assoc]
      exact not_beginsTable_append (by decide) (by decide) _

namespace EnumFragment

variable {s : Schema} {options : Options} {e : Enumeration} {x : EnumFragment}

theorem not_beginsTable_headLine (x : EnumFragment) : ¬ BeginsTable x.headLine := by
  rw [headLine]
  cases x.storage with
  | none =>
    dsimp only
    rw [String.append_assoc]
    exact not_beginsTable_append (by decide) (by decide) _
  | some storage =>
    simp only [String.append_assoc]
    exact not_beginsTable_append (by decide) (by decide) _

/-- Without a table, no line of a declaration begins like one of its functions. -/
theorem not_beginsTable_declarationLines (h : x.nameTable = none) :
    ∀ line ∈ x.declarationLines, ¬ BeginsTable line := by
  have hblank : ¬ BeginsTable "" := by
    rw [BeginsTable]
    decide
  have hclose : ¬ BeginsTable "\x7d;" := by
    rw [BeginsTable]
    decide
  have hdispatcher (d : Dispatcher) : ¬ BeginsTable (Dispatcher.signature d.enumName ++ ";") := by
    unfold Dispatcher.signature
    simp only [String.append_assoc]
    exact not_beginsTable_append (by decide) (by decide) _
  rw [declarationLines, h]
  simp only [List.forall_mem_append, List.forall_mem_cons]
  refine ⟨⟨⟨⟨not_beginsTable_docLines x.doc, x.not_beginsTable_headLine,
    EnumEntry.not_beginsTable_linesOf x.entries⟩, hclose, hblank, nofun⟩, nofun⟩, ?_⟩
  cases x.dispatcher with
  | none => exact nofun
  | some d =>
    simp only [List.forall_mem_cons]
    exact ⟨hdispatcher d, hblank, nofun⟩

theorem nameTable_of_ofEnum (h : ofEnum s options e = .ok x) :
    x.nameTable = NameTable.ofEnum? e options := by
  rw [ofEnum] at h
  obtain ⟨dispatcher, -, h⟩ := Attempt.ite_bind_eq_ok.mp h
  obtain rfl := Attempt.pure_eq_ok.mp h
  rfl

/-- The functions of a table are in the declaration of an enumeration if its values lie close
enough, and neither of them is if they do not. -/
theorem tableLines_mem_iff (h : ofEnum s options e = .ok x) :
    (NameTable.namesLine e.name ∈ x.declarationLines ↔
      e.hasNameTable options.maxSparseness = true) ∧
    ((∃ statement, NameTable.nameLine e.name statement ∈ x.declarationLines) ↔
      e.hasNameTable options.maxSparseness = true) := by
  have htable := nameTable_of_ofEnum h
  cases hclose : e.hasNameTable options.maxSparseness with
  | false =>
    have hnone : x.nameTable = none := by
      rw [htable, ← Option.not_isSome_iff_eq_none, NameTable.isSome_ofEnum?, hclose]
      exact Bool.false_ne_true
    have hlines := not_beginsTable_declarationLines hnone
    refine ⟨iff_of_false (fun hline ↦ ?_) Bool.false_ne_true,
      iff_of_false (fun ⟨statement, hline⟩ ↦ ?_) Bool.false_ne_true⟩
    · exact hlines _ hline (NameTable.beginsTable_namesLine e.name)
    · exact hlines _ hline (NameTable.beginsTable_nameLine e.name statement)
  | true =>
    obtain ⟨table, hsome⟩ : ∃ table, NameTable.ofEnum? e options = some table := by
      rw [← Option.isSome_iff_exists, NameTable.isSome_ofEnum?, hclose]
    have hname := NameTable.enumName_of_ofEnum? hsome
    have hlines : ∀ line ∈ table.lines, line ∈ x.declarationLines := by
      intro line hline
      rw [declarationLines, htable, hsome]
      exact List.mem_append_left _ (List.mem_append_right _ hline)
    obtain ⟨hnames, statement, hstatement⟩ := NameTable.functions_mem_lines table
    rw [hname] at hnames hstatement
    exact ⟨iff_of_true (hlines _ hnames) rfl, iff_of_true ⟨statement, hlines _ hstatement⟩ rfl⟩

end EnumFragment

end BufferSchema
