import BufferSchema.Proofs.Header.Layout
import BufferSchema.Proofs.Schema.Names

/-!
# Shared include guards

A guard is the upper case of what a file name and a namespace leave of themselves. The letters and
digits of the file name have no underscore among them, so that the first one behind them ends them,
whatever components there are. Two guards are therefore the same exactly if both halves are.

A header stands between the lines that test its guard, so that of two headers with one guard the
second is empty wherever the first is read before it.
-/

namespace BufferSchema

/-! ## Upper case -/

theorem uppercase_append (s t : String) : uppercase (s ++ t) = uppercase s ++ uppercase t := by
  apply String.toList_injective
  rw [String.toList_append, uppercase, uppercase, uppercase, String.toList_ofList,
    String.toList_ofList, String.toList_ofList, String.toList_append, List.flatMap_append]

section letters

variable {c d : Char} {cs cs' ds : List Char}

/-- What holds of all ASCII characters holds of letters and digits. -/
theorem of_isAsciiAlphanum {p : Char → Prop} (hascii : ∀ n < 128, p (Char.ofNat n))
    (h : isAsciiAlphanum c = true) : p c := by
  have hlt : c.toNat < 128 := lt_of_isIdentifierChar (Bool.or_eq_true_iff.mpr (.inl h))
  rw [← Char.ofNat_toNat c]
  exact hascii c.toNat hlt

theorem upperChar_of_isAsciiAlphanum (h : isAsciiAlphanum c = true) : upperChar c = [c.toUpper] :=
  of_isAsciiAlphanum (p := fun c ↦ upperChar c = [c.toUpper]) (by decide) h

theorem toUpper_ne_underscore (h : isAsciiAlphanum c = true) : c.toUpper ≠ '_' :=
  of_isAsciiAlphanum (p := fun c ↦ isAsciiAlphanum c = true → c.toUpper ≠ '_') (by decide) h h

theorem map_toUpper_eq_iff (hcs : ∀ c ∈ cs, isAsciiAlphanum c = true)
    (hcs' : ∀ c ∈ cs', isAsciiAlphanum c = true) :
    cs.map Char.toUpper = cs'.map Char.toUpper ↔ cs.map Char.toLower = cs'.map Char.toLower := by
  have hlower {cs : List Char} (hcs : ∀ c ∈ cs, isAsciiAlphanum c = true) :
      (cs.map Char.toUpper).map Char.toLower = cs.map Char.toLower := by
    rw [List.map_map]
    refine List.map_congr_left fun c hc ↦ ?_
    exact of_isAsciiAlphanum (p := fun c ↦ c.toUpper.toLower = c.toLower) (by decide) (hcs c hc)
  have hupper {cs : List Char} (hcs : ∀ c ∈ cs, isAsciiAlphanum c = true) :
      (cs.map Char.toLower).map Char.toUpper = cs.map Char.toUpper := by
    rw [List.map_map]
    refine List.map_congr_left fun c hc ↦ ?_
    exact of_isAsciiAlphanum (p := fun c ↦ c.toLower.toUpper = c.toUpper) (by decide) (hcs c hc)
  constructor
  · intro h
    rw [← hlower hcs, h, hlower hcs']
  · intro h
    rw [← hupper hcs, h, hupper hcs']

/-! ## Letters of file names -/

/-- Texts that are one apart from the case of ASCII letters and from characters that are neither
ASCII letters nor digits. -/
inductive SameLetters : List Char → List Char → Prop
  | nil : SameLetters [] []
  | letter {c d : Char} {cs ds : List Char} (hc : isAsciiAlphanum c = true)
    (hd : isAsciiAlphanum d = true) (hcase : c.toLower = d.toLower) (hrest : SameLetters cs ds) :
    SameLetters (c :: cs) (d :: ds)
  | skipLeft {c : Char} {cs ds : List Char} (hc : isAsciiAlphanum c = false)
    (hrest : SameLetters cs ds) : SameLetters (c :: cs) ds
  | skipRight {d : Char} {cs ds : List Char} (hd : isAsciiAlphanum d = false)
    (hrest : SameLetters cs ds) : SameLetters cs (d :: ds)

/-- The ASCII letters and digits of a text, in lower case. -/
def lowerLetters (text : List Char) : List Char := (text.filter isAsciiAlphanum).map Char.toLower

theorem lowerLetters_cons_of_letter (h : isAsciiAlphanum c = true) :
    lowerLetters (c :: cs) = c.toLower :: lowerLetters cs := by
  rw [lowerLetters, List.filter_cons_of_pos h, List.map_cons]
  rfl

theorem lowerLetters_cons_of_other (h : isAsciiAlphanum c = false) :
    lowerLetters (c :: cs) = lowerLetters cs := by
  rw [lowerLetters, List.filter_cons_of_neg (Bool.eq_false_iff.mp h)]
  rfl

theorem SameLetters.lowerLetters_eq (h : SameLetters cs ds) : lowerLetters cs = lowerLetters ds := by
  induction h with
  | nil => rfl
  | letter hc hd hcase _ ih =>
    rw [lowerLetters_cons_of_letter hc, lowerLetters_cons_of_letter hd, hcase, ih]
  | skipLeft hc _ ih => rw [lowerLetters_cons_of_other hc, ih]
  | skipRight hd _ ih => rw [lowerLetters_cons_of_other hd, ih]

theorem sameLetters_nil (h : lowerLetters ds = []) : SameLetters [] ds := by
  induction ds with
  | nil => exact .nil
  | cons d ds ih =>
    cases hd : isAsciiAlphanum d with
    | false => exact .skipRight hd (ih (by rwa [lowerLetters_cons_of_other hd] at h))
    | true =>
      rw [lowerLetters_cons_of_letter hd] at h
      exact nomatch h

theorem sameLetters_letter (hc : isAsciiAlphanum c = true)
    (ih : ∀ ds, lowerLetters cs = lowerLetters ds → SameLetters cs ds)
    (h : c.toLower :: lowerLetters cs = lowerLetters ds) : SameLetters (c :: cs) ds := by
  induction ds with
  | nil => exact nomatch h
  | cons d ds ihds =>
    cases hd : isAsciiAlphanum d with
    | false => exact .skipRight hd (ihds (by rwa [lowerLetters_cons_of_other hd] at h))
    | true =>
      rw [lowerLetters_cons_of_letter hd] at h
      obtain ⟨hcase, hrest⟩ := List.cons.inj h
      exact .letter hc hd hcase (ih ds hrest)

theorem sameLetters_iff : SameLetters cs ds ↔ lowerLetters cs = lowerLetters ds := by
  refine ⟨SameLetters.lowerLetters_eq, fun h ↦ ?_⟩
  induction cs generalizing ds with
  | nil => exact sameLetters_nil h.symm
  | cons c cs ih =>
    cases hc : isAsciiAlphanum c with
    | false => exact .skipLeft hc (ih (by rwa [lowerLetters_cons_of_other hc] at h))
    | true =>
      rw [lowerLetters_cons_of_letter hc] at h
      exact sameLetters_letter hc (fun ds ↦ ih) h

end letters

/-! ## Guards -/

/-- The lines that test the guard are the outermost ones but for a comment. -/
theorem Header.exists_lines_in_guard (h : Header) : ∃ body,
    h.lines = ["// automatically generated by the FlatBuffers compiler, do not modify", "",
      "#ifndef " ++ h.guard, "#define " ++ h.guard] ++ body ++ ["#endif  // " ++ h.guard] := by
  refine ⟨["", "#include \"flatbuffers/flatbuffers.h\"", ""] ++ h.includes ++
    h.forward.otherLines ++ [""] ++ h.scope.openLines ++ [""] ++ h.forward.activeLines ++ [""] ++
    h.enums.flatMap EnumFragment.declarationLines ++ h.structs.flatMap StructFragment.lines ++
    h.tables.flatMap TableFragment.lines ++ h.enums.flatMap EnumFragment.dispatcherLines ++
    h.helpers.flatMap (fun helper ↦ [helper.line, ""]) ++ h.scope.closeLines ++ [""], ?_⟩
  simp only [lines, List.append_assoc, List.cons_append, List.nil_append]

namespace Schema

variable {s s' : Schema}

/-- The components of the active namespace, an underscore behind each. -/
def scopeTail (s : Schema) : String := String.join (s.activeNamespace.components.map (· ++ "_"))

theorem path_activeNamespace (s : Schema) (name : String) :
    s.activeNamespace.path "_" name = s.scopeTail ++ name :=
  s.activeNamespace.path_eq_join "_" name

/-- A guard in its parts: the letters of the file name, an underscore, and the namespace. -/
theorem toList_includeGuard (s : Schema) : s.includeGuard.toList =
    "FLATBUFFERS_GENERATED_".toList ++
      ((s.fileName.toList.filter isAsciiAlphanum).map Char.toUpper ++
        '_' :: ((uppercase s.scopeTail).toList ++ "H_".toList)) := by
  have hletters : (uppercase (String.ofList (s.fileName.toList.filter isAsciiAlphanum))).toList =
      (s.fileName.toList.filter isAsciiAlphanum).map Char.toUpper := by
    rw [uppercase, String.toList_ofList, String.toList_ofList, List.map_eq_flatMap]
    refine List.flatMap_congr fun c hc ↦ ?_
    exact upperChar_of_isAsciiAlphanum (List.mem_filter.mp hc).2
  have hfront : uppercase "FLATBUFFERS_GENERATED_" = "FLATBUFFERS_GENERATED_" := by decide
  have hunderscore : uppercase "_" = "_" := by decide
  have hbehind : uppercase "H_" = "H_" := by decide
  rw [includeGuard, path_activeNamespace, uppercase_append, uppercase_append, uppercase_append,
    uppercase_append, hfront, hunderscore, hbehind]
  simp only [String.toList_append, hletters, List.append_assoc]
  exact congrArg _ (congrArg _ List.singleton_append)

theorem includeGuard_eq_iff : s.includeGuard = s'.includeGuard ↔
    lowerLetters s.fileName.toList = lowerLetters s'.fileName.toList ∧
      uppercase s.scopeTail = uppercase s'.scopeTail := by
  have hletter (s : Schema) : ∀ c ∈ s.fileName.toList.filter isAsciiAlphanum,
      isAsciiAlphanum c = true := fun c hc ↦ (List.mem_filter.mp hc).2
  have hunderscore (s : Schema) :
      '_' ∉ (s.fileName.toList.filter isAsciiAlphanum).map Char.toUpper := by
    intro hmem
    obtain ⟨c, hc, heq⟩ := List.mem_map.mp hmem
    exact toUpper_ne_underscore (hletter s c hc) heq
  rw [lowerLetters, lowerLetters, ← map_toUpper_eq_iff (hletter s) (hletter s'),
    ← String.toList_inj, toList_includeGuard, toList_includeGuard]
  constructor
  · intro h
    obtain ⟨hname, hscope⟩ := Namespace.append_cons_inj (hunderscore s) (hunderscore s')
      (List.append_cancel_left h)
    exact ⟨hname, String.toList_inj.mp (List.append_cancel_right hscope)⟩
  · rintro ⟨hname, hscope⟩
    rw [hname, hscope]

theorem exists_lines_in_guard {options : Options} {text : String}
    (h : s.generate options = .ok text) (hne : text ≠ "") : ∃ body,
      text = unlines (["// automatically generated by the FlatBuffers compiler, do not modify", "",
        "#ifndef " ++ s.includeGuard, "#define " ++ s.includeGuard] ++ body ++
        ["#endif  // " ++ s.includeGuard]) := by
  rcases of_generate_eq_ok h with ⟨hempty, -⟩ | ⟨header, hheader, rfl⟩
  · exact absurd hempty hne
  · obtain ⟨body, hbody⟩ := header.exists_lines_in_guard
    exact ⟨body, by rw [hbody, hheader.guard]⟩

end Schema

/-- **Shared guards.** Two schemas have one include guard exactly if their file names agree in their
ASCII letters and digits, whatever the case, and the components of their active namespaces, with an
underscore behind each, come to the same text in upper case. Within one namespace it takes file
names that differ in nothing but the case of ASCII letters and characters that are neither ASCII
letters nor digits. All of a header but a comment is inside its guard. -/
theorem includeGuard_shared_iff (s s' : Schema) :
    (s.includeGuard = s'.includeGuard ↔
      lowerLetters s.fileName.toList = lowerLetters s'.fileName.toList ∧
        uppercase (String.join (s.activeNamespace.components.map (· ++ "_"))) =
          uppercase (String.join (s'.activeNamespace.components.map (· ++ "_")))) ∧
    (s.activeNamespace = s'.activeNamespace →
      (s.includeGuard = s'.includeGuard ↔
        SameLetters s.fileName.toList s'.fileName.toList)) ∧
    ∀ options text, s.generate options = .ok text → text ≠ "" → ∃ body,
      text = unlines (["// automatically generated by the FlatBuffers compiler, do not modify", "",
        "#ifndef " ++ s.includeGuard, "#define " ++ s.includeGuard] ++ body ++
        ["#endif  // " ++ s.includeGuard]) := by
  refine ⟨Schema.includeGuard_eq_iff, fun hscope ↦ ?_, fun _ _ ↦ Schema.exists_lines_in_guard⟩
  have htail : s.scopeTail = s'.scopeTail := by rw [Schema.scopeTail, Schema.scopeTail, hscope]
  rw [Schema.includeGuard_eq_iff, sameLetters_iff, htail]
  exact and_iff_left rfl

/-- An enumeration in a file and a namespace. -/
def paintDocument (fileName : String) (components : List String) : Document where
  fileName
  sourceFile := none
  namespaces := [components]
  enums := [⟨"Paint", 0, .byte, [], false, [], false⟩]
  aggregates := []
  rootType := none
  fileIdentifier := none
  fileExtension := none
  includedFiles := []

/-- Files of one namespace whose names differ in case and in punctuation, the second of which holds
no line outside the guard of the first. -/
theorem includeGuard_shared_iff_paint : ∃ s s' text,
    Schema.ofDocument (paintDocument "wall_paint" ["straße"]) = .ok s ∧
    Schema.ofDocument (paintDocument "Wall-Paint" ["straße"]) = .ok s' ∧
    s.activeNamespace = s'.activeNamespace ∧
    SameLetters s'.fileName.toList s.fileName.toList ∧ s'.includeGuard = s.includeGuard ∧
    s'.generate {} = .ok text ∧ ∃ body,
      text = unlines (["// automatically generated by the FlatBuffers compiler, do not modify", "",
        "#ifndef " ++ s.includeGuard, "#define " ++ s.includeGuard] ++ body ++
        ["#endif  // " ++ s.includeGuard]) := by
  obtain ⟨s, s', hs, hs', hscope, hletters, hpending, hpadding⟩ : ∃ s s',
      Schema.ofDocument (paintDocument "wall_paint" ["straße"]) = .ok s ∧
      Schema.ofDocument (paintDocument "Wall-Paint" ["straße"]) = .ok s' ∧
      s'.activeNamespace = s.activeNamespace ∧
      lowerLetters s'.fileName.toList = lowerLetters s.fileName.toList ∧ s'.isEmpty = false ∧
      ∀ a ∈ s'.pendingStructs, ∀ f ∈ a.fields, f.padding ≤ 15 :=
    ⟨_, _, rfl, rfl, rfl, by decide, rfl, by decide⟩
  obtain ⟨text, htext⟩ : Succeeds (s'.generate {}) :=
    (Schema.sound_of_ofDocument hs').succeeds_generate_iff.mpr hpadding
  obtain ⟨-, hsame, hlines⟩ := includeGuard_shared_iff s' s
  have hguard := (hsame hscope).mpr (sameLetters_iff.mpr hletters)
  have hbody := hlines {} text htext (Schema.ne_empty_of_generate htext hpending)
  rw [hguard] at hbody
  exact ⟨s, s', text, hs, hs', hscope.symm, sameLetters_iff.mpr hletters, hguard, htext, hbody⟩

/-- Parts of namespaces run together in a guard. -/
example : ∃ s s', Schema.ofDocument (paintDocument "wall" ["oil", "paint"]) = .ok s ∧
    Schema.ofDocument (paintDocument "Wall!" ["Oil_Paint"]) = .ok s' ∧
    s.includeGuard = "FLATBUFFERS_GENERATED_WALL_OIL_PAINT_H_" ∧
    s'.includeGuard = "FLATBUFFERS_GENERATED_WALL_OIL_PAINT_H_" :=
  ⟨_, _, rfl, rfl, by decide, by decide⟩

end BufferSchema
