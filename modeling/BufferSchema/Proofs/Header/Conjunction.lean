import BufferSchema.Header.Table
import BufferSchema.Proofs.Header.Forward
import BufferSchema.Proofs.Schema.Names
import Mathlib.Data.List.DropRight

/-!
# Conjunctions as texts

What a reader of generated code finds in the conjunction of a verifier. `conjuncts?` takes a return
statement apart at its operators, `accessorCalls` lists the accessors that a conjunct calls, and
`slotCheck?` tells the conjuncts that check a slot. None of them knows how conjunctions are written;
laws say what they find on texts of the shapes that occur.
-/

namespace BufferSchema

/-! ## Taking a conjunction apart -/

/-- Whether a character only separates words. -/
def isBlank (c : Char) : Bool := c == ' ' || c == '\n'

/-- A text without the blanks at its ends. -/
def trimmed (cs : List Char) : List Char := (cs.dropWhile isBlank).rdropWhile isBlank

/-- The pieces of a text between its operators. -/
def splitAnd : List Char → List (List Char)
  | [] => [[]]
  | '&' :: '&' :: rest => [] :: splitAnd rest
  | c :: rest =>
    match splitAnd rest with
    | [] => [[c]]
    | piece :: pieces => (c :: piece) :: pieces

/-- The conjuncts of a statement that returns a conjunction. -/
def conjuncts? (statement : String) : Option (List String) := do
  let expression ← between? "return " ";" (String.ofList (trimmed statement.toList))
  return (splitAnd expression.toList).map fun piece ↦ String.ofList (trimmed piece)

theorem trimmed_append (lead cs tail : List Char) (hlead : lead.all isBlank = true)
    (htail : tail.all isBlank = true) (hhead : ∃ c rest, cs = c :: rest ∧ isBlank c = false)
    (hlast : ∃ rest c, cs = rest ++ [c] ∧ isBlank c = false) :
    trimmed (lead ++ cs ++ tail) = cs := by
  obtain ⟨first, rest, hcs, hfirst⟩ := hhead
  obtain ⟨front, last, hcs', hlast⟩ := hlast
  have hdrop : (lead ++ cs ++ tail).dropWhile isBlank = cs ++ tail := by
    rw [List.append_assoc, List.dropWhile_append_of_pos (List.all_eq_true.mp hlead), hcs,
      List.cons_append, List.dropWhile_cons_of_neg (Bool.eq_false_iff.mp hfirst)]
  have htail' : ∀ c ∈ tail.reverse, isBlank c = true :=
    fun c hc ↦ List.all_eq_true.mp htail c (List.mem_reverse.mp hc)
  rw [trimmed, hdrop, List.rdropWhile, List.reverse_append, List.dropWhile_append_of_pos htail',
    hcs', List.reverse_append, List.reverse_singleton, List.singleton_append,
    List.dropWhile_cons_of_neg (Bool.eq_false_iff.mp hlast), List.reverse_cons,
    List.reverse_reverse]

theorem splitAnd_of_notMem {cs : List Char} (h : '&' ∉ cs) : splitAnd cs = [cs] := by
  induction cs with
  | nil => rfl
  | cons c cs ih =>
    rw [List.mem_cons, not_or] at h
    obtain ⟨hc, hcs⟩ := h
    rw [splitAnd, ih hcs]
    exact fun _ hop _ ↦ hc hop.symm

theorem splitAnd_append {cs : List Char} (h : '&' ∉ cs) (rest : List Char) :
    splitAnd (cs ++ '&' :: '&' :: rest) = cs :: splitAnd rest := by
  induction cs with
  | nil => rfl
  | cons c cs ih =>
    rw [List.mem_cons, not_or] at h
    obtain ⟨hc, hcs⟩ := h
    rw [List.cons_append, splitAnd, ih hcs]
    exact fun _ hop _ ↦ hc hop.symm

/-- A text that is found again where a conjunction is taken apart: there is no operator in it, and
no blank at its ends. -/
structure IsConjunct (text : String) : Prop where
  operator : '&' ∉ text.toList
  head : ∃ c rest, text.toList = c :: rest ∧ isBlank c = false
  last : ∃ rest c, text.toList = rest ++ [c] ∧ isBlank c = false

/-- Texts with the operator between them, each but the first on a line of its own. -/
def joinedAnd : List String → List Char
  | [] => []
  | [text] => text.toList
  | text :: texts => text.toList ++ (" &&\n           ".toList ++ joinedAnd texts)

theorem joinedAnd_cons_cons (text text' : String) (texts : List String) :
    joinedAnd (text :: text' :: texts) =
      text.toList ++ (" &&\n           ".toList ++ joinedAnd (text' :: texts)) := rfl

theorem map_trimmed_splitAnd {text : String} {texts : List String}
    (h : ∀ t ∈ text :: texts, IsConjunct t) {lead : List Char}
    (hlead : lead.all isBlank = true) :
    (splitAnd (lead ++ joinedAnd (text :: texts))).map (fun piece ↦ String.ofList (trimmed piece)) =
      text :: texts := by
  have hfree {lead : List Char} (hlead : lead.all isBlank = true) : '&' ∉ lead :=
    fun hmem ↦ absurd (List.all_eq_true.mp hlead _ hmem) (by decide)
  induction texts generalizing text lead with
  | nil =>
    have htext := h text List.mem_cons_self
    have hno : '&' ∉ lead ++ text.toList := by
      rw [List.mem_append, not_or]
      exact ⟨hfree hlead, htext.operator⟩
    have htrim := trimmed_append lead text.toList [] hlead rfl htext.head htext.last
    rw [List.append_nil] at htrim
    rw [joinedAnd, splitAnd_of_notMem hno, List.map_singleton, htrim, String.ofList_toList]
  | cons text' texts ih =>
    have htext := h text List.mem_cons_self
    have hno : '&' ∉ lead ++ text.toList ++ [' '] := by
      rw [List.mem_append, List.mem_append, not_or, not_or]
      exact ⟨⟨hfree hlead, htext.operator⟩, by decide⟩
    have hsplit : lead ++ joinedAnd (text :: text' :: texts) = (lead ++ text.toList ++ [' ']) ++
        '&' :: '&' :: ("\n           ".toList ++ joinedAnd (text' :: texts)) := by
      rw [joinedAnd_cons_cons]
      simp only [List.append_assoc]
      rfl
    have htrim := trimmed_append lead text.toList [' '] hlead rfl htext.head htext.last
    rw [hsplit, splitAnd_append hno, List.map_cons, htrim, String.ofList_toList,
      ih (fun t ht ↦ h t (List.mem_cons_of_mem _ ht)) rfl]

/-- Every conjunct has a line, and all but the last are followed by the operator. -/
theorem conjunctionLines_concat (lead : String) (check : Check) (checks : List Check)
    (last : Check) : conjunctionLines lead (check :: checks ++ [last]) =
      (lead ++ check.text ++ " &&") ::
        (checks.map Check.text).map (fun text ↦ "           " ++ text ++ " &&") ++
        ["           " ++ last.text ++ ";"] := by
  induction checks generalizing lead check with
  | nil => rfl
  | cons check' checks ih =>
    have hlines : conjunctionLines lead (check :: (check' :: checks) ++ [last]) =
        (lead ++ check.text ++ " &&") ::
          conjunctionLines "           " (check' :: checks ++ [last]) := rfl
    rw [hlines, ih]
    rfl

theorem toList_unlines_conjunctionLines (lead : String) (check : Check) (checks : List Check) :
    (unlines (conjunctionLines lead (check :: checks))).toList =
      lead.toList ++ joinedAnd ((check :: checks).map Check.text) ++ [';', '\n'] := by
  induction checks generalizing lead check with
  | nil =>
    simp [conjunctionLines, unlines, joinedAnd]
  | cons check' checks ih =>
    have hlines : conjunctionLines lead (check :: check' :: checks) =
        (lead ++ check.text ++ " &&") :: conjunctionLines "           " (check' :: checks) := rfl
    have hjoined : joinedAnd ((check :: check' :: checks).map Check.text) = check.text.toList ++
        (" &&\n           ".toList ++ joinedAnd ((check' :: checks).map Check.text)) := rfl
    rw [hlines, unlines, String.toList_append, String.toList_append, ih, hjoined]
    simp only [String.toList_append, List.append_assoc]
    rfl

/-- A conjunction is taken apart into the checks that it was written for. -/
theorem conjuncts?_conjunctionLines {check : Check} {checks : List Check}
    (h : ∀ c ∈ check :: checks, IsConjunct c.text) :
    conjuncts? (unlines (conjunctionLines "    return " (check :: checks))) =
      some ((check :: checks).map Check.text) := by
  have htexts : ∀ t ∈ check.text :: checks.map Check.text, IsConjunct t := by
    rw [← List.map_cons, List.forall_mem_map]
    exact h
  have hstatement : (unlines (conjunctionLines "    return " (check :: checks))).toList =
      "    ".toList ++
        ("return ".toList ++ joinedAnd ((check :: checks).map Check.text) ++ [';']) ++ ['\n'] := by
    rw [toList_unlines_conjunctionLines]
    simp only [List.append_assoc]
    rfl
  have hhead : ∃ c rest, "return ".toList ++ joinedAnd ((check :: checks).map Check.text) ++ [';'] =
      c :: rest ∧ isBlank c = false := ⟨'r', _, rfl, rfl⟩
  have htrim := trimmed_append "    ".toList _ ['\n'] rfl rfl hhead
    ⟨_, _, rfl, rfl⟩
  have hexpression : String.ofList
      ("return ".toList ++ joinedAnd ((check :: checks).map Check.text) ++ [';']) =
        "return " ++ String.ofList (joinedAnd ((check :: checks).map Check.text)) ++ ";" := by
    rw [String.ofList_append, String.ofList_append, String.ofList_toList]
  rw [conjuncts?, hstatement, htrim, hexpression, between?_append]
  have hsplit := map_trimmed_splitAnd htexts List.all_nil
  rw [List.nil_append] at hsplit
  simp only [Option.bind_eq_bind, Option.bind_some, String.toList_ofList, List.map_cons]
  exact congrArg some hsplit

/-! ## What a conjunct calls -/

/-- The function whose name ends a text that is given backwards, unless it is a member of something
else. -/
def callee? (seen : List Char) : Option String :=
  let name := (seen.takeWhile isIdentifierChar).reverse
  if name = [] ∨ (seen.dropWhile isIdentifierChar).head? = some '.' then none
  else some (String.ofList name)

/-- The functions that a text calls without arguments, where the text `seen` backwards is in front
of it. -/
def callsBehind (seen : List Char) : List Char → List String
  | '(' :: ')' :: rest => (callee? seen).toList ++ callsBehind (')' :: '(' :: seen) rest
  | c :: rest => callsBehind (c :: seen) rest
  | [] => []

/-- The accessors that a conjunct calls, first to last. -/
def accessorCalls (conjunct : String) : List String := callsBehind [] conjunct.toList

variable {seen xs rest : List Char} {name : String}

/-- Whether a name may begin behind the text `seen`, given backwards, so that it is a word of its
own and no member. -/
def beginsName (seen : List Char) : Bool :=
  seen.head?.all fun c ↦ !isIdentifierChar c && c != '.'

theorem callee?_append (hname : isIdentifier name = true) (hseen : beginsName seen = true) :
    callee? (name.toList.reverse ++ seen) = some name := by
  have hchars : ∀ d ∈ name.toList.reverse, isIdentifierChar d = true :=
    fun d hd ↦ isIdentifierChar_of_mem hname (List.mem_reverse.mp hd)
  have hne : name.toList ≠ [] := by
    obtain ⟨c, cs, hcs, -⟩ := exists_cons_of_isIdentifier hname
    rw [hcs]
    exact List.cons_ne_nil c cs
  have hparts : seen.takeWhile isIdentifierChar = [] ∧
      seen.dropWhile isIdentifierChar = seen ∧ seen.head? ≠ some '.' := by
    cases seen with
    | nil => exact ⟨rfl, rfl, (Option.some_ne_none _).symm⟩
    | cons c seen =>
      obtain ⟨hc, hdot⟩ := Bool.and_eq_true_iff.mp hseen
      rw [Bool.not_eq_true'] at hc
      refine ⟨List.takeWhile_cons_of_neg (Bool.eq_false_iff.mp hc),
        List.dropWhile_cons_of_neg (Bool.eq_false_iff.mp hc), fun hhead ↦ ?_⟩
      exact bne_iff_ne.mp hdot (Option.some.inj hhead)
  obtain ⟨htake, hdrop, hdot⟩ := hparts
  rw [callee?, List.takeWhile_append_of_pos hchars, List.dropWhile_append_of_pos hchars, htake,
    hdrop, List.append_nil, List.reverse_reverse, String.ofList_toList, if_neg]
  rintro (hempty | hhead)
  · exact hne hempty
  · exact hdot hhead

theorem callsBehind_append (h : '(' ∉ xs) :
    callsBehind seen (xs ++ rest) = callsBehind (xs.reverse ++ seen) rest := by
  induction xs generalizing seen with
  | nil => rfl
  | cons x xs ih =>
    rw [List.mem_cons, not_or] at h
    obtain ⟨hx, hxs⟩ := h
    rw [List.cons_append, callsBehind, ih hxs, List.reverse_cons, List.append_assoc]
    · rfl
    · exact fun _ hopen _ ↦ hx hopen.symm

theorem callsBehind_of_notMem (h : '(' ∉ xs) : callsBehind seen xs = [] := by
  have happend : callsBehind seen (xs ++ []) = callsBehind (xs.reverse ++ seen) [] :=
    callsBehind_append h
  rwa [List.append_nil, callsBehind] at happend

/-- Arguments are no call without arguments. -/
theorem callsBehind_open (h : ∀ rest', rest ≠ ')' :: rest') :
    callsBehind seen ('(' :: rest) = callsBehind ('(' :: seen) rest := by
  rw [callsBehind]
  exact fun rest' _ hrest ↦ h rest' hrest

/-- A name and empty parentheses are a call of that name. -/
theorem callsBehind_call (hname : isIdentifier name = true) (hseen : beginsName seen = true) :
    callsBehind seen (name.toList ++ '(' :: ')' :: rest) =
      name :: callsBehind (')' :: '(' :: (name.toList.reverse ++ seen)) rest := by
  have hfree : '(' ∉ name.toList := not_mem_of_isIdentifier hname (by decide)
  rw [callsBehind_append hfree, callsBehind, callee?_append hname hseen]
  rfl

/-! ## Which slot a conjunct checks -/

/-- The constant that a call of `function` names for a slot. -/
def slotOf? (function conjunct : String) : Option String := do
  let rest ← conjunct.toList.dropPrefix? (function ++ "<").toList
  between? ">(verifier, " ")" (String.ofList (rest.dropWhile (· != '>')))

/-- Whether a conjunct checks a slot, and then whether the slot has to be there and which constant
is named for it. -/
def slotCheck? (conjunct : String) : Option (Bool × String) :=
  ((true, ·) <$> slotOf? "VerifyFieldRequired" conjunct) <|>
    (false, ·) <$> slotOf? "VerifyField" conjunct

theorem slotOf?_call {type : String} (h : '>' ∉ type.toList) (function constant : String) :
    slotOf? function (function ++ "<" ++ type ++ ">(verifier, " ++ constant ++ ")") =
      some constant := by
  have hparts : (function ++ "<" ++ type ++ ">(verifier, " ++ constant ++ ")").toList =
      (function ++ "<").toList ++
        (type.toList ++ (">(verifier, " ++ constant ++ ")").toList) := by
    simp only [String.toList_append, List.append_assoc]
  have hrest : (function ++ "<" ++ type ++ ">(verifier, " ++ constant ++ ")").toList.dropPrefix?
      (function ++ "<").toList =
        some (type.toList ++ (">(verifier, " ++ constant ++ ")").toList) := by
    rw [hparts]
    exact List.dropPrefix?_append_of_beq _ BEq.rfl
  have hdrop : (type.toList ++ (">(verifier, " ++ constant ++ ")").toList).dropWhile (· != '>') =
      (">(verifier, " ++ constant ++ ")").toList := by
    rw [List.dropWhile_append_of_pos (bne_of_notMem h), String.toList_append,
      String.toList_append]
    rfl
  rw [slotOf?, hrest, Option.bind_eq_bind, Option.bind_some, hdrop, String.ofList_toList,
    between?_append]

theorem slotOf?_of_notMem {function conjunct : String} (h : '<' ∉ conjunct.toList) :
    slotOf? function conjunct = none := by
  cases hprefix : conjunct.toList.dropPrefix? (function ++ "<").toList with
  | none => rw [slotOf?, hprefix]; rfl
  | some rest =>
    obtain ⟨front, heq, hfront⟩ := List.dropPrefix?_eq_some_iff.mp hprefix
    have hmem : '<' ∈ front := by
      rw [eq_of_beq hfront, String.toList_append]
      exact List.mem_append_right _ List.mem_cons_self
    rw [heq] at h
    exact absurd (List.mem_append_left _ hmem) h

theorem slotCheck?_of_notMem {conjunct : String} (h : '<' ∉ conjunct.toList) :
    slotCheck? conjunct = none := by
  rw [slotCheck?, slotOf?_of_notMem h, slotOf?_of_notMem h]
  rfl

theorem slotCheck?_call {type : String} (h : '>' ∉ type.toList) (required : Bool)
    (constant : String) :
    slotCheck? ("VerifyField" ++ (if required then "Required" else "") ++ "<" ++ type ++
      ">(verifier, " ++ constant ++ ")") = some (required, constant) := by
  cases required with
  | true =>
    have hcall := slotOf?_call h "VerifyFieldRequired" constant
    change slotCheck?
      ("VerifyFieldRequired" ++ "<" ++ type ++ ">(verifier, " ++ constant ++ ")") = _
    rw [slotCheck?, hcall]
    rfl
  | false =>
    have hcall := slotOf?_call h "VerifyField" constant
    have hother : slotOf? "VerifyFieldRequired"
        ("VerifyField" ++ "<" ++ type ++ ">(verifier, " ++ constant ++ ")") = none := by
      simp only [slotOf?, String.toList_append, List.append_assoc]
      rfl
    change slotCheck? ("VerifyField" ++ "<" ++ type ++ ">(verifier, " ++ constant ++ ")") = _
    rw [slotCheck?, hcall, hother]
    rfl

example : (conjuncts? "return VerifyField<S>(verifier, VT_A) &&\n F(verifier, a(), b());\n").map
    (List.map fun c ↦ (slotCheck? c, accessorCalls c)) =
      some [(some (false, "VT_A"), []), (none, ["a", "b"])] := by
  cbv

end BufferSchema
