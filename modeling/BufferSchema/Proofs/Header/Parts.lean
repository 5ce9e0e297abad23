import BufferSchema.Proofs.Header.Layout

/-!
# Headers as lists of pieces

The text of a header is read off its parts: `partLines` gives the lines of each part alone, by the
emitter of that part, and a header is what comes of the parts of the schema in their order.
Statements about two runs of the generator compare the lines of parts, and are carried over to texts
by `generate_eq_ok_iff` alone.
-/

namespace BufferSchema

namespace Schema

variable {s : Schema} {options : Options}

/-! ## The lines of a part -/

/-- The lines up to the include of the runtime. -/
def openingLines (s : Schema) : List String :=
  ["// automatically generated by the FlatBuffers compiler, do not modify", "",
    "#ifndef " ++ s.includeGuard, "#define " ++ s.includeGuard, "",
    "#include \"flatbuffers/flatbuffers.h\"", ""]

/-- The lines that a part puts into the header. -/
def partLines (s : Schema) (options : Options) : Part → Emitted (List String)
  | .opening => pure s.openingLines
  | .includes => pure (if options.includeDependenceHeaders then s.includeLines else [])
  | .otherForwards => (fun forward ↦ forward.otherLines ++ [""]) <$> s.forwardDeclarations
  | .scopeOpening => pure (s.activeNamespace.openLines ++ [""])
  | .activeForwards => (fun forward ↦ forward.activeLines ++ [""]) <$> s.forwardDeclarations
  | .enum e => EnumFragment.declarationLines <$> EnumFragment.ofEnum s options e
  | .struct a => StructFragment.lines <$> StructFragment.ofAggregate s options a
  | .table a => TableFragment.lines <$> TableFragment.ofAggregate s options a
  | .dispatcher e => EnumFragment.dispatcherLines <$> EnumFragment.ofEnum s options e
  | .helpers => (fun helpers ↦ helpers.flatMap fun helper ↦ [helper.line, ""]) <$>
      s.rootHelpers options
  | .scopeClosing => pure s.activeNamespace.closeLines
  | .closing => pure ["", "#endif  // " ++ s.includeGuard]

theorem partLines_of_contributes {part : Part} {lines : List String}
    (h : s.Contributes options part lines) : s.partLines options part = .ok lines := by
  cases part with
  | opening | includes | scopeOpening | scopeClosing | closing => exact congrArg _ h.symm
  | otherForwards | activeForwards =>
    obtain ⟨forward, hforward, hlines, -⟩ := h
    exact Attempt.map_eq_ok.mpr ⟨forward, hforward, hlines.symm⟩
  | enum e | dispatcher e | struct a | table a =>
    obtain ⟨fragment, hfragment, hlines, -⟩ := h
    exact Attempt.map_eq_ok.mpr ⟨fragment, hfragment, hlines.symm⟩
  | helpers =>
    obtain ⟨helpers, hhelpers, hlines⟩ := h
    exact Attempt.map_eq_ok.mpr ⟨helpers, hhelpers, hlines.symm⟩

/-! ## Headers -/

/-- The pieces of the header of a schema: all of its parts in their order, with their lines. -/
structure LaidOut (s : Schema) (options : Options) (layout : List Piece) : Prop where
  parts : layout.map Piece.part = s.partGroups.flatten
  lines : ∀ piece ∈ layout, s.partLines options piece.part = .ok piece.lines

namespace LaidOut

variable {layout layout' : List Piece}

theorem exists_piece (h : s.LaidOut options layout) {part : Part} (hpart : s.HasPart part) :
    ∃ lines, ⟨part, lines⟩ ∈ layout := by
  have hmem : part ∈ layout.map Piece.part := h.parts ▸ mem_partGroups_iff.mpr hpart
  obtain ⟨⟨_, lines⟩, hpiece, rfl⟩ := List.mem_map.mp hmem
  exact ⟨lines, hpiece⟩

theorem succeeds_partLines (h : s.LaidOut options layout) {part : Part} (hpart : s.HasPart part) :
    Succeeds (s.partLines options part) := by
  obtain ⟨lines, hpiece⟩ := h.exists_piece hpart
  exact ⟨lines, h.lines _ hpiece⟩

/-- Pieces side by side, given that the parts are the same and what relates their lines. -/
theorem forall₂ {s' : Schema} {options' : Options} (h : s.LaidOut options layout)
    (h' : s'.LaidOut options' layout') (hparts : s.partGroups = s'.partGroups)
    {R : Part → List String → List String → Prop}
    (hlines : ∀ part lines lines', s.HasPart part → s.partLines options part = .ok lines →
      s'.partLines options' part = .ok lines' → R part lines lines') :
    List.Forall₂ (fun p p' ↦ p.part = p'.part ∧ R p.part p.lines p'.lines) layout layout' := by
  have hmap : List.Forall₂ Eq (layout.map Piece.part) (layout'.map Piece.part) := by
    rw [List.forall₂_eq_eq_eq, h.parts, h'.parts, hparts]
  have hsame : List.Forall₂ (fun p p' ↦ p.part = p'.part) layout layout' :=
    List.forall₂_map_left_iff.mp (List.forall₂_map_right_iff.mp hmap)
  rw [List.forall₂_iff_zip] at hsame ⊢
  refine ⟨hsame.1, fun {p p'} hmem ↦ ?_⟩
  have hpart : p.part = p'.part := hsame.2 hmem
  have hp : p ∈ layout := (List.of_mem_zip hmem).1
  have hp' : p' ∈ layout' := (List.of_mem_zip hmem).2
  have hhas : s.HasPart p.part := by
    rw [← mem_partGroups_iff, ← h.parts]
    exact List.mem_map_of_mem hp
  exact ⟨hpart, hlines _ _ _ hhas (h.lines p hp) (hpart ▸ h'.lines p' hp')⟩

theorem unique (h : s.LaidOut options layout) (h' : s.LaidOut options layout') :
    layout = layout' := by
  have hpieces := h.forall₂ h' rfl (R := fun _ lines lines' ↦ lines = lines')
    fun part lines lines' _ hlines hlines' ↦ Except.ok.inj (hlines.symm.trans hlines')
  rw [← List.forall₂_eq_eq_eq]
  refine hpieces.imp ?_
  rintro ⟨part, lines⟩ ⟨part', lines'⟩ ⟨rfl, rfl⟩
  rfl

theorem succeeds_generate (h : s.LaidOut options layout) : Succeeds (s.generate options) := by
  rw [succeeds_generate_iff_header?, succeeds_header?]
  have hforwards : Succeeds (s.partLines options .activeForwards) := h.succeeds_partLines trivial
  have hhelpers : Succeeds (s.partLines options .helpers) := h.succeeds_partLines trivial
  have hforward : Succeeds s.forwardDeclarations := Attempt.succeeds_map.mp hforwards
  have hroot : Succeeds s.rootAggregate :=
    succeeds_rootHelpers.mp (Attempt.succeeds_map.mp hhelpers)
  refine ⟨⟨fun e he ↦ ?_, fun a ha ↦ ?_, fun a ha ↦ ?_⟩, .inr ⟨hforward, hroot⟩⟩
  · have hpart : .enum e ∈ s.partGroups.flatten := by simp [partGroups, he]
    exact EnumFragment.succeeds_ofEnum.mp
      (Attempt.succeeds_map.mp (h.succeeds_partLines (mem_partGroups_iff.mp hpart)))
  · have hpart : .struct a ∈ s.partGroups.flatten := by simp [partGroups, ha]
    exact StructFragment.succeeds_ofAggregate.mp
      (Attempt.succeeds_map.mp (h.succeeds_partLines (mem_partGroups_iff.mp hpart)))
  · have hpart : .table a ∈ s.partGroups.flatten := by simp [partGroups, ha]
    exact TableFragment.succeeds_ofAggregate.mp
      (Attempt.succeeds_map.mp (h.succeeds_partLines (mem_partGroups_iff.mp hpart)))

end LaidOut

/-- Where there is something to emit, the text is that of the pieces. -/
theorem generate_eq_ok_iff (hpending : s.isEmpty = false) {text : String} :
    s.generate options = .ok text ↔
      ∃ layout, s.LaidOut options layout ∧ text = unlines (layout.flatMap Piece.lines) := by
  have hlayout {text : String} (h : s.generate options = .ok text) :
      ∃ layout, s.LaidOut options layout ∧ text = unlines (layout.flatMap Piece.lines) := by
    rcases of_generate_eq_ok h with ⟨-, hempty⟩ | ⟨header, hheader, rfl⟩
    · rw [hpending] at hempty
      exact nomatch hempty
    · obtain ⟨layout, hparts, hlines, hpieces⟩ := hheader.exists_layout
      exact ⟨layout, ⟨hparts, fun p hp ↦ partLines_of_contributes (hpieces p hp)⟩, by rw [hlines]⟩
  refine ⟨hlayout, ?_⟩
  rintro ⟨layout, h, rfl⟩
  obtain ⟨text, htext⟩ := h.succeeds_generate
  obtain ⟨layout', h', rfl⟩ := hlayout htext
  rw [htext, h.unique h']

theorem generate_eq_empty_iff : s.generate options = .ok "" ↔ s.isEmpty = true := by
  constructor
  · intro h
    by_contra hpending
    exact ne_empty_of_generate h (Bool.not_eq_true _ ▸ hpending) rfl
  · intro hempty
    have hparts : s.pendingEnums = [] ∧ s.pendingStructs = [] ∧ s.pendingTables = [] := by
      rw [isEmpty_eq, Bool.and_eq_true, Bool.and_eq_true] at hempty
      simpa only [List.isEmpty_iff, and_assoc] using hempty
    rw [generate, header?, hparts.1, hparts.2.1, hparts.2.2]
    rfl

theorem Sound.exists_laidOut (h : s.Sound) (hpending : s.isEmpty = false)
    (hpadding : ∀ a ∈ s.pendingStructs, ∀ f ∈ a.fields, f.padding ≤ 15) (options : Options) :
    ∃ layout, s.LaidOut options layout := by
  obtain ⟨text, htext⟩ : Succeeds (s.generate options) := h.succeeds_generate_iff.mpr hpadding
  obtain ⟨layout, hlayout, -⟩ := (generate_eq_ok_iff hpending).mp htext
  exact ⟨layout, hlayout⟩

theorem LaidOut.generate_eq {layout : List Piece} (h : s.LaidOut options layout)
    (hpending : s.isEmpty = false) :
    s.generate options = .ok (unlines (layout.flatMap Piece.lines)) :=
  (generate_eq_ok_iff hpending).mpr ⟨layout, h, rfl⟩

end Schema

end BufferSchema
