import BufferSchema.Proofs.Header.NameTable
import BufferSchema.Proofs.Header.Parts
import BufferSchema.Report

/-!
# Reports and headers

The report on a schema is put together without a look at the header: it asks the threshold about
each enumeration, counts the lines of a text and has a list of root helpers of its own. Here its
answers are compared with the pieces of the header that they are about.

The list of root helpers knows no mutable buffers, so that the two agree where the option is off.
-/

namespace BufferSchema

/-! ## Counting lines -/

theorem lineCount_unlines {lines : List String} (h : ∀ line ∈ lines, '\n' ∉ line.toList) :
    lineCount (unlines lines) = lines.length := by
  rw [lineCount]
  induction lines with
  | nil => rfl
  | cons line lines ih =>
    obtain ⟨hline, hlines⟩ := List.forall_mem_cons.mp h
    have hcount : line.toList.count '\n' = 0 := List.count_eq_zero.mpr hline
    have hnewline : "\n".toList.count '\n' = 1 := rfl
    rw [unlines, String.toList_append, String.toList_append, List.count_append, List.count_append,
      hcount, hnewline, ih hlines, List.length_cons]
    omega

theorem ForwardDeclarations.lineCount_activeLines {forward : ForwardDeclarations}
    (h : ∀ name ∈ forward.active, '\n' ∉ name.toList) :
    lineCount (unlines forward.activeLines) = forward.active.length := by
  rw [lineCount_unlines, activeLines, List.length_map]
  intro line hline
  obtain ⟨name, hname, rfl⟩ := List.mem_map.mp hline
  simp [forwardLine, h name hname]

/-! ## Root helpers -/

namespace Report

variable {s : Schema} {options : Options}

/-- Without mutable buffers, the list of the report names the helpers that are emitted. -/
theorem helperNames_eq {key : String} {root : Aggregate} {helpers : List InlineFunction}
    (hmutable : options.mutableBuffer = false) (hroot : s.rootAggregate = .ok (some (key, root)))
    (h : s.rootHelpers options = .ok helpers) :
    helperNames s root.name = helpers.map InlineFunction.name := by
  rw [Schema.rootHelpers, hroot] at h
  obtain rfl := Except.ok.inj h
  rw [helperNames, hmutable]
  cases s.fileIdentifier <;> cases s.fileExtension <;> rfl

/-- The line on the root type lists the functions of a list by their names. -/
def ListsHelpers (helpers : List InlineFunction) (line : String) : Prop :=
  (helpers = [] ∧ line = "  Root type: none") ∨
    (helpers ≠ [] ∧ line ≠ "  Root type: none" ∧ ∃ name, line = "  Root type: " ++ name ++ " (" ++
      ", ".intercalate (helpers.map InlineFunction.name) ++ ")")

theorem listsHelpers_rootLine {root : Option (String × Aggregate)} {helpers : List InlineFunction}
    (hmutable : options.mutableBuffer = false) (hroot : s.rootAggregate = .ok root)
    (h : s.rootHelpers options = .ok helpers) : ListsHelpers helpers (rootLine s root) := by
  cases root with
  | none =>
    rw [Schema.rootHelpers, hroot] at h
    obtain rfl := Except.ok.inj h
    exact .inl ⟨rfl, rfl⟩
  | some entry =>
    obtain ⟨key, root⟩ := entry
    have hnames := helperNames_eq hmutable hroot h
    have hne : helpers ≠ [] := by
      rintro rfl
      rw [helperNames] at hnames
      simp at hnames
    refine .inr ⟨hne, fun hline ↦ ?_, root.name, ?_⟩
    · -- a list ends in a parenthesis
      have hlast (front : String) : (front ++ ")").toList.getLast? = some ')' := by simp
      have hend : (rootLine s (some (key, root))).toList.getLast? = some ')' := hlast _
      rw [hline] at hend
      exact absurd hend (by decide)
    · rw [← hnames]
      rfl

/-! ## Name tables -/

/-- The line on an enumeration that is still to be emitted tells whether its part of the header
holds the two functions of a name table. -/
def TellsNameTable (layout : List Piece) (entry : String × Enumeration) (line : String) : Prop :=
  ∃ answer, (answer = "yes" ∨ answer = "no") ∧
    line = "    - " ++ entry.1 ++ ": " ++ toString entry.2.values.length ++
      " values, name table: " ++ answer ++ note entry.2.isUnion "union" ++
      note entry.2.generated "already generated" ∧
    (entry.2.generated = false → ∃ lines, ⟨.enum entry.2, lines⟩ ∈ layout ∧
      (answer = "yes" ↔ NameTable.namesLine entry.2.name ∈ lines) ∧
      (answer = "yes" ↔ ∃ statement, NameTable.nameLine entry.2.name statement ∈ lines))

theorem tellsNameTable_enumLine {layout : List Piece} (h : s.LaidOut options layout)
    {entry : String × Enumeration} (hentry : entry ∈ s.enums.entries) :
    TellsNameTable layout entry (enumLine options entry.1 entry.2) := by
  obtain ⟨key, e⟩ := entry
  refine ⟨if e.hasNameTable options.maxSparseness then "yes" else "no", ?_, rfl, fun hpending ↦ ?_⟩
  · cases e.hasNameTable options.maxSparseness
    · exact .inr rfl
    · exact .inl rfl
  · have hanswer : ((if e.hasNameTable options.maxSparseness then "yes" else "no") = "yes") ↔
        e.hasNameTable options.maxSparseness = true := by
      cases e.hasNameTable options.maxSparseness <;> decide
    have hpart : s.HasPart (.enum e) := ⟨Declarations.mem_values_iff.mpr ⟨key, hentry⟩, hpending⟩
    obtain ⟨lines, hpiece⟩ := h.exists_piece hpart
    obtain ⟨fragment, hfragment, rfl⟩ := Attempt.map_eq_ok.mp (h.lines _ hpiece)
    obtain ⟨hnames, hname⟩ := EnumFragment.tableLines_mem_iff hfragment
    exact ⟨_, hpiece, hanswer.trans hnames.symm, hanswer.trans hname.symm⟩

/-! ## The lines of a report -/

/-- Where the lines on enumerations and the last two lines stand. -/
theorem exists_report (options : Options) {forward : ForwardDeclarations}
    {root : Option (String × Aggregate)} (hforward : s.forwardDeclarations = .ok forward)
    (hroot : s.rootAggregate = .ok root) :
    ∃ before between, s.report options = .ok (unlines (before ++
      ["  Enums: " ++ toString s.enums.entries.length] ++
      s.enums.entries.map (fun entry ↦ enumLine options entry.1 entry.2) ++ between ++
      ["  Forward declarations: " ++ toString (lineCount (unlines forward.activeLines)) ++
        " in active scope, " ++ toString forward.blocks.length ++ " other-scope block(s)",
        rootLine s root])) := by
  refine ⟨["[~] Schema '" ++ s.fileName ++ "'", "  Namespaces: " ++ toString s.namespaces.length] ++
      s.namespaces.zipIdx.map fun entry ↦ namespaceLine s entry.2 entry.1,
    ["  Aggregates: " ++ toString s.aggregates.entries.length] ++
      s.aggregates.entries.map fun entry ↦ aggregateLine entry.1 entry.2, ?_⟩
  rw [Schema.report, Schema.reportLines, hforward, hroot]
  refine Attempt.map_eq_ok.mpr ⟨_, rfl, ?_⟩
  simp only [List.append_assoc]

end Report

/-- **Reports agree with headers.** Let a loaded schema have no wide mask of padding, no newline in
the name of an aggregate and something to emit, and let mutable buffers be off. Then each line of
the report on an enumeration still to be emitted tells whether the header holds its name table; the
line on the root type lists the root helpers of the header in their order; and the two numbers are
those of the forward declarations inside the active namespace and of the blocks before it. -/
theorem report_agrees_with_header {d : Document} {s : Schema} (h : Schema.ofDocument d = .ok s)
    (hnames : ∀ a ∈ s.aggregates.values, '\n' ∉ a.name.toList)
    (hpadding : ∀ a ∈ s.pendingStructs, ∀ f ∈ a.fields, f.padding ≤ 15)
    (hpending : s.isEmpty = false) {options : Options} (hmutable : options.mutableBuffer = false) :
    ∃ layout before enumLines between rootLine helpers blocks,
      s.LaidOut options layout ∧
      s.generate options = .ok (unlines (layout.flatMap Piece.lines)) ∧
      s.report options = .ok (unlines (before ++
        ["  Enums: " ++ toString s.enums.entries.length] ++ enumLines ++ between ++
        ["  Forward declarations: " ++ toString s.activeAggregates.length ++ " in active scope, " ++
          toString blocks.length ++ " other-scope block(s)", rootLine])) ∧
      List.Forall₂ (Report.TellsNameTable layout) s.enums.entries enumLines ∧
      ⟨.helpers, helperLines helpers⟩ ∈ layout ∧
      Report.ListsHelpers helpers rootLine ∧
      ⟨.activeForwards, s.activeAggregates.map (fun a ↦ "struct " ++ a.name ++ ";") ++ [""]⟩ ∈
        layout ∧
      ⟨.otherForwards, blocks.flatMap (fun block ↦
          block.path.components.map (fun component ↦ "namespace " ++ component ++ " \x7b") ++
            block.names.map (fun name ↦ "struct " ++ name ++ ";") ++
            block.path.components.reverse.map (fun component ↦ "\x7d  // namespace " ++ component)) ++
        [""]⟩ ∈ layout ∧
      List.Forall₂ s.IsBlockOf (scopeRuns s.otherAggregates) blocks ∧
      blocks.length = (scopeRuns s.otherAggregates).length := by
  have hsound : s.Sound := Schema.sound_of_ofDocument h
  obtain ⟨layout, hlayout⟩ := hsound.exists_laidOut hpending hpadding options
  obtain ⟨forward, hforward⟩ := hsound.succeeds_forwardDeclarations
  obtain ⟨root, hroot⟩ := hsound.succeeds_rootAggregate
  obtain ⟨helpers, hhelpers⟩ : Succeeds (s.rootHelpers options) := hsound.succeeds_rootHelpers
  obtain ⟨hactive, hblocks⟩ := Schema.of_forwardDeclarations_eq_ok hforward
  have hactiveLines :
      forward.activeLines = s.activeAggregates.map fun a ↦ "struct " ++ a.name ++ ";" := by
    rw [ForwardDeclarations.activeLines, hactive, List.map_map]
    rfl
  have hcount : lineCount (unlines forward.activeLines) = s.activeAggregates.length := by
    rw [ForwardDeclarations.lineCount_activeLines, hactive, List.length_map]
    intro name hname
    rw [hactive] at hname
    obtain ⟨a, ha, rfl⟩ := List.mem_map.mp hname
    exact hnames a (List.mem_of_mem_filter ha)
  have hpiece {part : Part} {lines : List String} (hpart : s.HasPart part)
      (hlines : s.partLines options part = .ok lines) : ⟨part, lines⟩ ∈ layout := by
    obtain ⟨lines', hmem⟩ := hlayout.exists_piece hpart
    rwa [Except.ok.inj (hlines.symm.trans (hlayout.lines _ hmem))]
  obtain ⟨before, between, hreport⟩ := Report.exists_report options hforward hroot
  rw [hcount] at hreport
  refine ⟨layout, before, _, between, _, helpers, forward.blocks, hlayout,
    hlayout.generate_eq hpending, hreport, ?_, ?_,
    Report.listsHelpers_rootLine hmutable hroot hhelpers, ?_, ?_, hblocks, hblocks.length_eq.symm⟩
  · rw [List.forall₂_map_right_iff, List.forall₂_same]
    exact fun entry hentry ↦ Report.tellsNameTable_enumLine hlayout hentry
  · exact hpiece trivial (by rw [Schema.partLines, hhelpers]; rfl)
  · exact hpiece trivial (by rw [Schema.partLines, hforward, ← hactiveLines]; rfl)
  · exact hpiece trivial (by rw [Schema.partLines, hforward]; rfl)

/-- A document whose namespaces take turns, with an enumeration and a root type. -/
def reportedDocument : Document :=
  { interleavedDocument with
    enums := [⟨"Mood", 1, .byte, [⟨"CALM", 0, [], none⟩, ⟨"WILD", 90, [], none⟩], false, [], false⟩]
    rootType := some "Node"
    fileIdentifier := some "MOOD" }

/-- The report on the document counts one active aggregate and four blocks. -/
theorem report_agrees_with_header_turns : ∃ (s : Schema) (layout : List Piece)
      (lines enumLines : List String) (rootLine : String) (helpers : List InlineFunction),
    Schema.ofDocument reportedDocument = .ok s ∧
    (∀ a ∈ s.aggregates.values, '\n' ∉ a.name.toList) ∧
    (∀ a ∈ s.pendingStructs, ∀ f ∈ a.fields, f.padding ≤ 15) ∧ s.isEmpty = false ∧
    s.generate {} = .ok (unlines (layout.flatMap Piece.lines)) ∧
    s.report {} = .ok (unlines (lines ++
      ["  Forward declarations: 1 in active scope, 4 other-scope block(s)", rootLine])) ∧
    List.Forall₂ (Report.TellsNameTable layout) s.enums.entries enumLines ∧
    enumLines ⊆ lines ∧ Report.ListsHelpers helpers rootLine ∧
    ⟨.helpers, helperLines helpers⟩ ∈ layout := by
  obtain ⟨s, hs, hnames, hpadding, hpending, hactive, hruns⟩ :
      ∃ s, Schema.ofDocument reportedDocument = .ok s ∧
        (∀ a ∈ s.aggregates.values, '\n' ∉ a.name.toList) ∧
        (∀ a ∈ s.pendingStructs, ∀ f ∈ a.fields, f.padding ≤ 15) ∧ s.isEmpty = false ∧
        s.activeAggregates.length = 1 ∧ (scopeRuns s.otherAggregates).length = 4 :=
    ⟨_, rfl, by decide, by decide, rfl, rfl, rfl⟩
  have hmutable : ({} : Options).mutableBuffer = false := rfl
  obtain ⟨layout, before, enumLines, between, rootLine, helpers, blocks, -, htext, hreport, htell,
    hhelpers, hlists, -, -, -, hblocks⟩ :=
    report_agrees_with_header hs hnames hpadding hpending hmutable
  rw [hactive, hblocks, hruns] at hreport
  refine ⟨s, layout, _, enumLines, rootLine, helpers, hs, hnames, hpadding, hpending, htext,
    hreport, htell, fun line hline ↦ ?_, hlists, hhelpers⟩
  exact List.mem_append_left _ (List.mem_append_right _ hline)

end BufferSchema
