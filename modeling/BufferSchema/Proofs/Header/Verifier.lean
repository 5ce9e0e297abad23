import BufferSchema.Proofs.Header.Agreement
import BufferSchema.Proofs.Header.Collisions
import BufferSchema.Proofs.Header.Conjunction
import BufferSchema.Proofs.Header.Deprecation

/-!
# The order of verification

The verifier of a table is one conjunction, which is evaluated from left to right and no further
than to the first conjunct that fails. An accessor follows an offset that nobody has looked at yet,
so that the check of its slot has to stand further left than the first call of it. This file reads
the conjunction off the emitted text and says where its conjuncts stand.

## The construction

The text is taken apart at its operators, and each conjunct is judged by its characters alone:
`slotCheck?` finds the constant that a check of a slot names, and `accessorCalls` the accessors that
a conjunct calls. Both find what was written as long as the names of the schema are identifiers,
because then no name has an operator, a bracket or a blank in it.

## The invariant

The checks of a field make a *block*, `IsBlockOf`: first the slot, then what the slot leads to. The
blocks of the live fields follow each other in the order of the fields, between two conjuncts that
call nothing. So a conjunct that calls an accessor is in one block, behind the check of the slot; the
blocks of earlier fields are before it, and those of later ones behind it. All that is known about
places in the conjunction comes from this, by `exists_field_of_accessorCalls`. A union is the one
field whose block calls two accessors, its own and that of its tag, so that it relies on the block
of the tag as well.
-/

namespace BufferSchema

/-! ## Characters of spellings -/

/-- Whether a character can stand in a spelling: in an identifier or in a separator. -/
def isSpellingChar (c : Char) : Bool := isIdentifierChar c || c == ':' || c == '.'

/-- A text is made of identifiers and separators. -/
structure IsSpelling (text : String) : Prop where
  ne_nil : text.toList ≠ []
  chars : text.toList.all isSpellingChar = true

theorem IsSpelling.notMem {text : String} (h : IsSpelling text) {c : Char}
    (hc : isSpellingChar c = false) : c ∉ text.toList := by
  intro hmem
  rw [List.all_eq_true.mp h.chars c hmem] at hc
  exact nomatch hc

theorem IsSpelling.append {text text' : String} (h : IsSpelling text)
    (h' : text'.toList.all isSpellingChar = true) : IsSpelling (text ++ text') := by
  constructor
  · rw [String.toList_append]
    exact List.append_ne_nil_of_left_ne_nil h.ne_nil _
  · rw [String.toList_append, List.all_append, h.chars, h']
    rfl

theorem isSpelling_of_isIdentifier {text : String} (h : isIdentifier text = true) :
    IsSpelling text := by
  obtain ⟨c, cs, hcs, -⟩ := exists_cons_of_isIdentifier h
  refine ⟨hcs ▸ List.cons_ne_nil c cs, List.all_eq_true.mpr fun c hc ↦ ?_⟩
  rw [isSpellingChar, isIdentifierChar_of_mem h hc, Bool.true_or, Bool.true_or]

theorem isSpelling_path {ns : Namespace} {name : String}
    (hns : ∀ component ∈ ns.components, isIdentifier component = true) (hname : IsSpelling name) :
    IsSpelling (ns.path "::" name) := by
  obtain ⟨components⟩ := ns
  induction components with
  | nil => exact hname
  | cons component components ih =>
    obtain ⟨hcomponent, hcomponents⟩ := List.forall_mem_cons.mp hns
    exact ((isSpelling_of_isIdentifier hcomponent).append rfl).append (ih hcomponents).chars

theorem isIdentifierChar_upperChar : ∀ n < 128, isIdentifierChar (Char.ofNat n) = true →
    (upperChar (Char.ofNat n)).all isIdentifierChar = true := by decide

theorem isIdentifierChar_of_mem_slotConstant {name : String} (h : isIdentifier name = true)
    {c : Char} (hc : c ∈ (slotConstant name).toList) : isIdentifierChar c = true := by
  rw [slotConstant, String.toList_append, List.mem_append] at hc
  rcases hc with hc | hc
  · have hfront : "VT_".toList.all isIdentifierChar = true := rfl
    exact List.all_eq_true.mp hfront c hc
  · rw [uppercase, String.toList_ofList] at hc
    obtain ⟨d, hd, hc⟩ := List.mem_flatMap.mp hc
    have hchar := isIdentifierChar_of_mem h hd
    rw [← Char.ofNat_toNat d] at hchar hc
    have hupper := isIdentifierChar_upperChar d.toNat
      (lt_of_isIdentifierChar (isIdentifierChar_of_mem h hd)) hchar
    exact List.all_eq_true.mp hupper c hc

theorem ScalarKind.isSpelling_spelling (kind : ScalarKind) : IsSpelling kind.spelling := by
  cases kind <;> exact ⟨by decide, rfl⟩

/-! ## Names of a schema -/

namespace Schema

/-- All names that spellings are made of are identifiers. -/
structure IdentifierNames (s : Schema) : Prop where
  paths : s.IdentifierPaths
  aggregates : ∀ a ∈ s.aggregates.values, isIdentifier a.name = true
  enums : ∀ e ∈ s.enums.values, isIdentifier e.name = true

variable {s : Schema} {scope : NamespaceId} {name spelling : String} {type : TypeRef}

theorem isSpelling_of_qualify_eq_ok (hpaths : s.IdentifierPaths) (hname : IsSpelling name)
    (h : s.qualify scope name = .ok spelling) : IsSpelling spelling := by
  rw [qualify] at h
  split at h
  · obtain rfl := Attempt.pure_eq_ok.mp h
    exact hname
  · obtain ⟨ns, hns, h⟩ := Attempt.bind_eq_ok.mp h
    obtain rfl := Attempt.pure_eq_ok.mp h
    exact isSpelling_path (hpaths ns (mem_of_namespaceAt_eq_ok hns)) hname

theorem IdentifierNames.isSpelling_of_sizeSpelling_eq_ok (hs : s.IdentifierNames)
    (h : s.sizeSpelling type = .ok spelling) : IsSpelling spelling := by
  rw [sizeSpelling.eq_def] at h
  split at h
  · next kind _ =>
    obtain rfl := Attempt.pure_eq_ok.mp h
    exact kind.isSpelling_spelling
  · obtain rfl := Attempt.pure_eq_ok.mp h
    exact ⟨by decide, rfl⟩
  · next target =>
    obtain ⟨a, ha, h⟩ := Attempt.bind_eq_ok.mp h
    have hname := hs.aggregates a (Declarations.mem_values_of_get? (aggregate_eq_ok.mp ha))
    exact isSpelling_of_qualify_eq_ok hs.paths (isSpelling_of_isIdentifier hname) h
  all_goals
    obtain rfl := Attempt.pure_eq_ok.mp h
    exact ⟨by decide, rfl⟩

end Schema

/-! ## The conjuncts of a field -/

/-- The accessors that the conjuncts behind the check of a slot call: that of the field and, for a
union, that of its tag. -/
def Field.verifiedAccessors (f : Field) : List String :=
  match f.type with
  | .union _ => [f.name, f.name ++ "_type"]
  | _ => [f.name]

theorem Field.head?_verifiedAccessors (f : Field) : f.verifiedAccessors.head? = some f.name := by
  rw [verifiedAccessors]
  split <;> rfl

theorem Field.eq_or_of_mem_verifiedAccessors {f : Field} {accessor : String}
    (h : accessor ∈ f.verifiedAccessors) :
    accessor = f.name ∨ (∃ tag, f.type = .union tag) ∧ accessor = f.name ++ "_type" := by
  rw [verifiedAccessors] at h
  split at h
  · next tag htype =>
    rcases List.mem_cons.mp h with h | h
    · exact .inl h
    · exact .inr ⟨⟨tag, htype⟩, List.mem_singleton.mp h⟩
  · exact .inl (List.mem_singleton.mp h)

/-- A conjunct checks the slot of a field. -/
def IsGuardOf (f : Field) (conjunct : String) : Prop :=
  slotCheck? conjunct = some (f.required, slotConstant f.name)

/-- The conjuncts of a field: the check of its slot, which calls nothing, and behind it conjuncts
that check no slot. -/
def IsBlockOf (f : Field) (block : List String) : Prop :=
  ∃ guard content, block = guard :: content ∧ IsGuardOf f guard ∧ accessorCalls guard = [] ∧
    ∀ c ∈ content, slotCheck? c = none ∧ accessorCalls c = f.verifiedAccessors

/-- A conjunct behind the check of a slot, which calls `accessors` and checks no slot itself. -/
structure IsContent (text : String) (accessors : List String) : Prop where
  conjunct : IsConjunct text
  slot : slotCheck? text = none
  calls : accessorCalls text = accessors

variable {s : Schema} {f : Field} {callee name type text : String}

theorem isBlank_of_isSpellingChar {c : Char} (h : isSpellingChar c = true) :
    isBlank c = false := by
  rw [isBlank, Bool.or_eq_false_iff, beq_eq_false_iff_ne, beq_eq_false_iff_ne]
  constructor <;>
  · rintro rfl
    exact nomatch h

/-! ### Calls -/

/-- A call is a conjunct whatever its arguments are. -/
theorem isConjunct_of_toList_eq (hcallee : IsSpelling callee) (arguments : List Char)
    (htext : text.toList = callee.toList ++ (arguments ++ [')'])) (harguments : '&' ∉ arguments) :
    IsConjunct text where
  operator := by
    have hfree : '&' ∉ callee.toList := hcallee.notMem rfl
    rw [htext, List.mem_append, List.mem_append, not_or, not_or]
    exact ⟨hfree, harguments, by decide⟩
  head := by
    obtain ⟨c, cs, hcs⟩ := List.exists_cons_of_ne_nil hcallee.ne_nil
    have hc : c ∈ callee.toList := by
      rw [hcs]
      exact List.mem_cons_self
    refine ⟨c, cs ++ (arguments ++ [')']), ?_,
      isBlank_of_isSpellingChar (List.all_eq_true.mp hcallee.chars c hc)⟩
    rw [htext, hcs]
    rfl
  last := ⟨callee.toList ++ arguments, ')', by rw [htext, List.append_assoc], by decide⟩

theorem callsBehind_open_name (hname : isIdentifier name = true) {seen rest : List Char} :
    callsBehind seen ('(' :: (name.toList ++ rest)) =
      callsBehind ('(' :: seen) (name.toList ++ rest) := by
  refine callsBehind_open fun rest' hclose ↦ ?_
  obtain ⟨c, cs, hcs, hc⟩ := exists_cons_of_isIdentifier hname
  rw [hcs] at hclose
  obtain rfl : c = ')' := (List.cons.inj hclose).1
  exact Bool.false_ne_true hc

/-- A call with one accessor as its argument. -/
theorem isContent_call (hcallee : IsSpelling callee) (hname : isIdentifier name = true) :
    IsContent (callee ++ "(" ++ name ++ "())") [name] := by
  have htext : (callee ++ "(" ++ name ++ "())").toList =
      callee.toList ++ '(' :: (name.toList ++ '(' :: ')' :: [')']) := by
    simp [String.toList_append]
  have hfree {c : Char} (hc : isSpellingChar c = false) (hc' : isIdentifierChar c = false) :
      c ∉ callee.toList ∧ c ∉ name.toList :=
    ⟨hcallee.notMem hc, not_mem_of_isIdentifier hname hc'⟩
  refine ⟨isConjunct_of_toList_eq hcallee ('(' :: (name.toList ++ ['(', ')'])) ?_ ?_,
    slotCheck?_of_notMem ?_, ?_⟩
  · rw [htext]
    simp
  · simp [hfree (c := '&') rfl rfl]
  · rw [htext]
    simp [hfree (c := '<') rfl rfl]
  · rw [accessorCalls, htext, callsBehind_append (hfree rfl rfl).1, callsBehind_open_name hname,
      callsBehind_call hname rfl]
    rfl

/-- A call with the accessors of a union and of its tag among the arguments. -/
theorem isContent_unionCall (hcallee : IsSpelling callee) (hname : isIdentifier name = true) :
    IsContent (callee ++ "(verifier, " ++ name ++ "(), " ++ name ++ "_type())")
      [name, name ++ "_type"] := by
  have htext : (callee ++ "(verifier, " ++ name ++ "(), " ++ name ++ "_type())").toList =
      callee.toList ++ '(' :: ("verifier".toList ++ (", ".toList ++ (name.toList ++ '(' :: ')' ::
        (", ".toList ++ ((name ++ "_type").toList ++ '(' :: ')' :: [')']))))) := by
    simp [String.toList_append]
  have htag : isIdentifier (name ++ "_type") = true := isIdentifier_append hname (by decide)
  have hverifier : isIdentifier "verifier" = true := rfl
  have hfree {c : Char} (hc : isSpellingChar c = false) (hc' : isIdentifierChar c = false) :
      c ∉ callee.toList ∧ c ∉ name.toList :=
    ⟨hcallee.notMem hc, not_mem_of_isIdentifier hname hc'⟩
  refine ⟨isConjunct_of_toList_eq hcallee ('(' :: ("verifier, ".toList ++ (name.toList ++
    "(), ".toList ++ name.toList ++ "_type()".toList))) ?_ ?_, slotCheck?_of_notMem ?_, ?_⟩
  · rw [htext]
    simp
  · simp [hfree (c := '&') rfl rfl]
  · rw [htext]
    simp [hfree (c := '<') rfl rfl]
  · rw [accessorCalls, htext, callsBehind_append (hfree rfl rfl).1,
      callsBehind_open_name hverifier, callsBehind_append (by decide),
      callsBehind_append (by decide), callsBehind_call hname rfl,
      callsBehind_append (by decide), callsBehind_call htag rfl]
    rfl

/-! ### Checks of slots -/

theorem Check.text_slot (required : Bool) (type constant : String) :
    (Check.slot required type constant).text =
      "VerifyField" ++ (if required then "Required" else "") ++ "<" ++ type ++ ">(verifier, " ++
        constant ++ ")" := rfl

/-- The check of a slot names its constant and calls no accessor. -/
theorem slot_conjunct (htype : IsSpelling type) {constant : String}
    (hconstant : ∀ c ∈ constant.toList, isIdentifierChar c = true) (required : Bool) :
    IsConjunct (Check.slot required type constant).text ∧
      slotCheck? (Check.slot required type constant).text =
        some (required, constant) ∧
      accessorCalls (Check.slot required type constant).text = [] := by
  have hcallee : IsSpelling "VerifyField" := ⟨by decide, rfl⟩
  have hverifier : isIdentifier "verifier" = true := rfl
  have hfree {c : Char} (hc : isSpellingChar c = false) (hc' : isIdentifierChar c = false) :
      c ∉ (if required then "Required" else "").toList ∧ c ∉ type.toList ∧
        c ∉ constant.toList := by
    refine ⟨?_, htype.notMem hc, fun hmem ↦ ?_⟩
    · have hrequired : isIdentifier "Required" = true := rfl
      cases required with
      | true => exact (isSpelling_of_isIdentifier hrequired).notMem hc
      | false => exact List.not_mem_nil
    · rw [hconstant _ hmem] at hc'
      exact nomatch hc'
  have htext : (Check.slot required type constant).text.toList =
      ("VerifyField".toList ++ ((if required then "Required" else "").toList ++
        ('<' :: (type.toList ++ ['>'])))) ++
          '(' :: ("verifier".toList ++ (", ".toList ++ (constant.toList ++ [')']))) := by
    rw [Check.text_slot]
    simp
  refine ⟨isConjunct_of_toList_eq hcallee ((if required then "Required" else "").toList ++
    ('<' :: (type.toList ++ '>' :: '(' :: ("verifier, ".toList ++ constant.toList))))
      ?_ ?_, slotCheck?_call (htype.notMem rfl) required _, ?_⟩
  · rw [htext]
    simp
  · simp [hfree (c := '&') rfl rfl]
  · have hfront : '(' ∉ "VerifyField".toList ++ ((if required then "Required" else "").toList ++
        ('<' :: (type.toList ++ ['>']))) := by
      simp [hfree (c := '(') rfl rfl]
    have hback : '(' ∉ "verifier".toList ++ (", ".toList ++ (constant.toList ++ [')'])) := by
      simp [hfree (c := '(') rfl rfl]
    rw [accessorCalls, htext, callsBehind_append hfront, callsBehind_open_name hverifier,
      callsBehind_of_notMem hback]

/-! ### Blocks -/

/-- Behind the check of a slot the accessor of the field is called, unless the field is a union. -/
theorem Check.exists_callee_of_ofContent {field : String} {type : TypeRef} {checks : List Check}
    (h : Check.ofContent s field type = .ok checks) (htype : ∀ tag, type ≠ .union tag) :
    ∀ c ∈ checks, ∃ callee, IsSpelling callee ∧ c.text = callee ++ "(" ++ field ++ "())" := by
  have hverify : ∃ callee, IsSpelling callee ∧
      (Check.content field).text = callee ++ "(" ++ field ++ "())" :=
    ⟨"verifier.Verify", ⟨by decide, rfl⟩, rfl⟩
  rw [Check.ofContent.eq_def] at h
  split at h
  · exact absurd rfl (htype _)
  all_goals obtain rfl := Attempt.pure_eq_ok.mp h
  · exact List.forall_mem_singleton.mpr ⟨"verifier.VerifyTable", ⟨by decide, rfl⟩, rfl⟩
  · exact List.forall_mem_singleton.mpr hverify
  · refine List.forall_mem_cons.mpr ⟨hverify, List.forall_mem_singleton.mpr ?_⟩
    exact ⟨"verifier.VerifyVectorOfStrings", ⟨by decide, rfl⟩, rfl⟩
  · refine List.forall_mem_cons.mpr ⟨hverify, List.forall_mem_singleton.mpr ?_⟩
    exact ⟨"verifier.VerifyVectorOfTables", ⟨by decide, rfl⟩, rfl⟩
  · exact List.forall_mem_singleton.mpr hverify
  all_goals exact List.forall_mem_nil _

theorem isContent_of_ofContent_union {tag : String} (hs : s.IdentifierNames)
    (hname : isIdentifier name = true) {checks : List Check}
    (h : Check.ofContent s name (.union tag) = .ok checks) :
    ∀ c ∈ checks, IsContent c.text [name, name ++ "_type"] := by
  obtain ⟨e, he, h⟩ := Attempt.bind_eq_ok.mp h
  obtain ⟨dispatcher, hdispatcher, h⟩ := Attempt.bind_eq_ok.mp h
  obtain rfl := Attempt.pure_eq_ok.mp h
  have hname' := hs.enums e (Declarations.mem_values_of_get? (Schema.enumeration_eq_ok.mp he))
  have hverify : IsSpelling ("Verify" ++ e.name) :=
    IsSpelling.append ⟨by decide, rfl⟩ (isSpelling_of_isIdentifier hname').chars
  rw [List.forall_mem_singleton]
  exact isContent_unionCall (Schema.isSpelling_of_qualify_eq_ok hs.paths hverify hdispatcher) hname

theorem isContent_of_ofContent_eq_ok (hs : s.IdentifierNames) (hf : isIdentifier f.name = true)
    {checks : List Check} (h : Check.ofContent s f.name f.type = .ok checks) :
    ∀ c ∈ checks, IsContent c.text f.verifiedAccessors := by
  rw [Field.verifiedAccessors]
  split
  · next tag htype =>
    rw [htype] at h
    exact isContent_of_ofContent_union hs hf h
  · next htype =>
    intro c hc
    obtain ⟨callee, hcallee, htext⟩ := Check.exists_callee_of_ofContent h htype c hc
    rw [htext]
    exact isContent_call hcallee hf

/-- The checks of a field are its block. -/
theorem isBlockOf_of_ofField_eq_ok (hs : s.IdentifierNames) (hf : isIdentifier f.name = true)
    {checks : List Check} (h : Check.ofField s f = .ok checks) :
    IsBlockOf f (checks.map Check.text) ∧ ∀ c ∈ checks, IsConjunct c.text := by
  obtain ⟨type, content, htype, hcontent, rfl⟩ := Check.of_ofField_eq_ok h
  obtain ⟨hslot, hguard, hcalls⟩ := slot_conjunct (hs.isSpelling_of_sizeSpelling_eq_ok htype)
    (fun _ hc ↦ isIdentifierChar_of_mem_slotConstant hf hc) f.required
  have hbehind := isContent_of_ofContent_eq_ok hs hf hcontent
  refine ⟨⟨_, _, List.map_cons, hguard, hcalls, ?_⟩, List.forall_mem_cons.mpr ⟨hslot, ?_⟩⟩
  · rw [List.forall_mem_map]
    exact fun c hc ↦ ⟨(hbehind c hc).slot, (hbehind c hc).calls⟩
  · exact fun c hc ↦ (hbehind c hc).conjunct

/-! ## The order of blocks

A fact about any list of blocks first: whoever stands at a place in the whole list stands in one
block, with the blocks of earlier entries before it. -/

/-- A place in a block is a place in the conjunction: the blocks of earlier fields are before it,
and those of later ones behind it. -/
theorem exists_of_flatten_eq_append_cons {α β : Type} {R : α → List β → Prop} {xs : List α}
    {blocks : List (List β)} (h : List.Forall₂ R xs blocks) {before after : List β} {c : β}
    (hsplit : blocks.flatten = before ++ c :: after) :
    ∃ earlier x later front back, xs = earlier ++ x :: later ∧ R x (front ++ c :: back) ∧
      front ⊆ before ∧ (∀ y ∈ earlier, ∃ block, R y block ∧ block ⊆ before) ∧
      ∀ y ∈ later, ∃ block, R y block ∧ block ⊆ after := by
  induction h generalizing before with
  | nil => exact absurd hsplit (by simp)
  | @cons x block xs blocks hblock hblocks ih =>
    have hbehind {rest : List β} (hbefore : before = block ++ rest)
        (hrest : blocks.flatten = rest ++ c :: after) :
        ∃ earlier y later front back, x :: xs = earlier ++ y :: later ∧ R y (front ++ c :: back) ∧
          front ⊆ before ∧ (∀ z ∈ earlier, ∃ block, R z block ∧ block ⊆ before) ∧
          ∀ z ∈ later, ∃ block, R z block ∧ block ⊆ after := by
      obtain ⟨earlier, y, later, front, back, rfl, hy, hfront, hearlier, hlater⟩ := ih hrest
      have hsub : rest ⊆ before := hbefore ▸ List.subset_append_right _ _
      refine ⟨x :: earlier, y, later, front, back, rfl, hy, List.Subset.trans hfront hsub, ?_,
        hlater⟩
      rw [List.forall_mem_cons]
      refine ⟨⟨block, hblock, hbefore ▸ List.subset_append_left _ _⟩, fun z hz ↦ ?_⟩
      obtain ⟨block', hblock', hbefore'⟩ := hearlier z hz
      exact ⟨block', hblock', List.Subset.trans hbefore' hsub⟩
    rw [List.flatten_cons, List.append_eq_append_iff] at hsplit
    rcases hsplit with ⟨rest, hbefore, hrest⟩ | ⟨rest, hinside, hrest⟩
    · exact hbehind hbefore hrest
    cases rest with
    | nil =>
      have hrest' : blocks.flatten = [] ++ c :: after := hrest.symm
      exact hbehind (by rw [hinside, List.append_nil, List.append_nil]) hrest'
    | cons c' back =>
      obtain ⟨rfl, rfl⟩ := List.cons.inj hrest
      refine ⟨[], x, xs, before, back, rfl, hinside ▸ hblock, List.Subset.refl _,
        List.forall_mem_nil _, fun z hz ↦ ?_⟩
      obtain ⟨block', hmem, hblock'⟩ := Attempt.exists_mem_right_of_forall₂ hblocks hz
      exact ⟨block', hblock', fun d hd ↦
        List.mem_append_right _ (List.mem_flatten_of_mem hmem hd)⟩

/-! ## The order of conjuncts -/

/-- The slot of a field is checked in a part of a conjunction. -/
def ChecksSlotOf (f : Field) (part : List String) : Prop := ∃ guard ∈ part, IsGuardOf f guard

/-- The conjuncts of a verifier for live fields stand in an order in which every accessor is called
behind the check of its slot. -/
structure GuardsAccessors (fields : List Field) (conjuncts : List String) : Prop where
  first : conjuncts.head? = some "VerifyTableStart(verifier)"
  last : conjuncts.getLast? = some "verifier.EndTable()"
  /-- The checks of slots are those of the fields, in their order. -/
  slots : conjuncts.filterMap slotCheck? = fields.map fun f ↦ (f.required, slotConstant f.name)
  /-- Each constant is named once. -/
  once : ∀ f ∈ fields,
    ((conjuncts.filterMap slotCheck?).map Prod.snd).count (slotConstant f.name) = 1
  /-- All other conjuncts but the first and the last call the accessor of a field first. -/
  others : ∀ c ∈ conjuncts, slotCheck? c = none → c ≠ "VerifyTableStart(verifier)" →
    c ≠ "verifier.EndTable()" → ∃ f ∈ fields, (accessorCalls c).head? = some f.name
  /-- What calls the accessor of a field first stands between the check of its slot and that of the
  next slot. -/
  between : ∀ earlier f later, fields = earlier ++ f :: later →
    ∀ before c after, conjuncts = before ++ c :: after → (accessorCalls c).head? = some f.name →
      ChecksSlotOf f before ∧ ∀ next ∈ later.head?, ChecksSlotOf next after
  /-- If a tag comes before its union, every call stands behind the check of what it calls. -/
  guarded : (∀ earlier f later, fields = earlier ++ f :: later → (∃ tag, f.type = .union tag) →
      ∃ g ∈ earlier, g.name = f.name ++ "_type") →
    ∀ before c after, conjuncts = before ++ c :: after → ∀ accessor ∈ accessorCalls c,
      ∃ f ∈ fields, f.name = accessor ∧ ChecksSlotOf f before

section order

variable {fields : List Field} {blocks : List (List String)} {block before after : List String}
  {c : String}

theorem IsBlockOf.checksSlotOf (h : IsBlockOf f block) (hsub : block ⊆ before) :
    ChecksSlotOf f before := by
  obtain ⟨guard, content, rfl, hguard, -⟩ := h
  exact ⟨guard, hsub List.mem_cons_self, hguard⟩

/-- A conjunct of a block that calls anything is not the first one. It calls what its field says. -/
theorem IsBlockOf.of_split {front back : List String} (h : IsBlockOf f (front ++ c :: back))
    (hcalls : accessorCalls c ≠ []) :
    accessorCalls c = f.verifiedAccessors ∧ ∃ guard ∈ front, IsGuardOf f guard := by
  obtain ⟨guard, content, hblock, hguard, hnone, hcontent⟩ := h
  cases front with
  | nil =>
    obtain ⟨rfl, -⟩ := List.cons.inj hblock
    exact absurd hnone hcalls
  | cons first front =>
    obtain ⟨rfl, rfl⟩ := List.cons.inj hblock
    have hc : c ∈ front ++ c :: back := List.mem_append_right _ List.mem_cons_self
    exact ⟨(hcontent c hc).2, first, List.mem_cons_self, hguard⟩

theorem filterMap_slotCheck?_flatten (h : List.Forall₂ IsBlockOf fields blocks) :
    blocks.flatten.filterMap slotCheck? =
      fields.map fun f ↦ (f.required, slotConstant f.name) := by
  induction h with
  | nil => rfl
  | @cons f block fields blocks hblock _ ih =>
    obtain ⟨guard, content, rfl, hguard, -, hcontent⟩ := hblock
    have hnone : content.filterMap slotCheck? = [] :=
      List.filterMap_eq_nil_iff.mpr fun c hc ↦ (hcontent c hc).1
    rw [List.flatten_cons, List.filterMap_append, ih, List.filterMap_cons_some hguard, hnone]
    rfl

/-- The first and the last conjunct call no accessor, so that what calls one is between them. -/
theorem eq_append_of_accessorCalls {conjuncts : List String}
    (h : "VerifyTableStart(verifier)" :: conjuncts ++ ["verifier.EndTable()"] =
      before ++ c :: after) (hcalls : accessorCalls c ≠ []) :
    ∃ before' after', conjuncts = before' ++ c :: after' ∧ before' ⊆ before ∧
      after' ⊆ after := by
  cases before with
  | nil =>
    obtain ⟨rfl, -⟩ := List.cons.inj h
    exact absurd (by decide) hcalls
  | cons first before =>
    have htail : conjuncts ++ ["verifier.EndTable()"] = before ++ c :: after := (List.cons.inj h).2
    rcases List.eq_nil_or_concat' after with rfl | ⟨after', last, rfl⟩
    · obtain ⟨-, hend⟩ := List.append_inj' htail rfl
      obtain rfl := (List.cons.inj hend).1
      exact absurd (by decide) hcalls
    · rw [← List.cons_append, ← List.append_assoc] at htail
      obtain ⟨rfl, -⟩ := List.append_inj' htail rfl
      exact ⟨before, after', rfl, List.subset_cons_self _ _, List.subset_append_left _ _⟩

/-- A list of fields is split at a name in one way. -/
theorem eq_of_append_cons_eq_append_cons {earlier later earlier' later' : List Field}
    {f f' : Field} (hnodup : ((earlier ++ f :: later).map Field.name).Nodup)
    (h : earlier ++ f :: later = earlier' ++ f' :: later') (hname : f.name = f'.name) :
    earlier = earlier' ∧ f = f' ∧ later = later' := by
  have hf : f ∈ earlier ++ f :: later := List.mem_append_right _ List.mem_cons_self
  have hf' : f' ∈ earlier ++ f :: later := by
    rw [h]
    exact List.mem_append_right _ List.mem_cons_self
  obtain rfl := List.inj_on_of_nodup_map hnodup hf hf' hname
  obtain ⟨-, htail, hdisjoint⟩ := List.nodup_append.mp hnodup.of_map
  have hearlier : f ∉ earlier := fun hmem ↦ hdisjoint f hmem f List.mem_cons_self rfl
  exact (List.append_cons_inj_of_notMem hearlier (List.nodup_cons.mp htail).1).mp h

/-! ### Whole conjunctions -/

/-- The conjuncts of a verifier with the blocks of its fields. -/
def conjunctsOf (blocks : List (List String)) : List String :=
  "VerifyTableStart(verifier)" :: blocks.flatten ++ ["verifier.EndTable()"]

theorem filterMap_slotCheck?_conjunctsOf (h : List.Forall₂ IsBlockOf fields blocks) :
    (conjunctsOf blocks).filterMap slotCheck? =
      fields.map fun f ↦ (f.required, slotConstant f.name) := by
  have hfirst : slotCheck? "VerifyTableStart(verifier)" = none := by decide
  have hlast : ["verifier.EndTable()"].filterMap slotCheck? = [] := by decide
  rw [conjunctsOf, List.filterMap_append, List.filterMap_cons_none hfirst, hlast,
    filterMap_slotCheck?_flatten h, List.append_nil]

theorem exists_head?_accessorCalls (h : List.Forall₂ IsBlockOf fields blocks)
    (hc : c ∈ conjunctsOf blocks) (hslot : slotCheck? c = none)
    (hfirst : c ≠ "VerifyTableStart(verifier)") (hlast : c ≠ "verifier.EndTable()") :
    ∃ f ∈ fields, (accessorCalls c).head? = some f.name := by
  rw [conjunctsOf, List.mem_append, List.mem_cons, List.mem_singleton] at hc
  have hflatten : c ∈ blocks.flatten := (hc.resolve_right hlast).resolve_left hfirst
  obtain ⟨block, hblock, hc⟩ := List.mem_flatten.mp hflatten
  obtain ⟨f, hf, guard, content, rfl, hguard, -, hcontent⟩ :=
    Attempt.exists_mem_left_of_forall₂ h hblock
  rcases List.mem_cons.mp hc with rfl | hc
  · exact absurd (hguard.symm.trans hslot) (Option.some_ne_none _)
  · exact ⟨f, hf, by rw [(hcontent c hc).2, f.head?_verifiedAccessors]⟩

/-- What calls an accessor is in the block of one field: the slots of that field and of earlier ones
are checked before it, and those of later ones behind it. -/
theorem exists_field_of_accessorCalls (h : List.Forall₂ IsBlockOf fields blocks)
    (hsplit : conjunctsOf blocks = before ++ c :: after) (hcalls : accessorCalls c ≠ []) :
    ∃ earlier f later, fields = earlier ++ f :: later ∧ accessorCalls c = f.verifiedAccessors ∧
      (∀ g ∈ earlier ++ [f], ChecksSlotOf g before) ∧ ∀ g ∈ later, ChecksSlotOf g after := by
  obtain ⟨before', after', hflatten, hbefore, hafter⟩ := eq_append_of_accessorCalls hsplit hcalls
  obtain ⟨earlier, f, later, front, back, hfields, hblock, hfront, hearlier, hlater⟩ :=
    exists_of_flatten_eq_append_cons h hflatten
  obtain ⟨hf, guard, hguard, hguards⟩ := hblock.of_split hcalls
  refine ⟨earlier, f, later, hfields, hf, ?_, fun g hg ↦ ?_⟩
  · rw [List.forall_mem_append, List.forall_mem_singleton]
    refine ⟨fun g hg ↦ ?_, guard, hbefore (hfront hguard), hguards⟩
    obtain ⟨block, hblock, hsub⟩ := hearlier g hg
    exact hblock.checksSlotOf (List.Subset.trans hsub hbefore)
  · obtain ⟨block, hblock, hsub⟩ := hlater g hg
    exact hblock.checksSlotOf (List.Subset.trans hsub hafter)

theorem checksSlotOf_between (h : List.Forall₂ IsBlockOf fields blocks)
    (hnames : (fields.map Field.name).Nodup) {earlier later : List Field}
    (hfields : fields = earlier ++ f :: later) (hsplit : conjunctsOf blocks = before ++ c :: after)
    (hhead : (accessorCalls c).head? = some f.name) :
    ChecksSlotOf f before ∧ ∀ next ∈ later.head?, ChecksSlotOf next after := by
  have hcalls : accessorCalls c ≠ [] := fun hempty ↦ by
    rw [hempty] at hhead
    exact nomatch hhead
  obtain ⟨earlier', f', later', hfields', hf', hchecked, hunchecked⟩ :=
    exists_field_of_accessorCalls h hsplit hcalls
  rw [hf', Field.head?_verifiedAccessors] at hhead
  rw [hfields] at hfields' hnames
  obtain ⟨rfl, rfl, rfl⟩ := eq_of_append_cons_eq_append_cons hnames hfields'
    (Option.some.inj hhead).symm
  refine ⟨hchecked f (List.mem_append_right _ List.mem_cons_self), fun next hnext ↦ ?_⟩
  exact hunchecked next (List.mem_of_mem_head? hnext)

theorem exists_checksSlotOf (h : List.Forall₂ IsBlockOf fields blocks)
    (htags : ∀ earlier f later, fields = earlier ++ f :: later → (∃ tag, f.type = .union tag) →
      ∃ g ∈ earlier, g.name = f.name ++ "_type")
    (hsplit : conjunctsOf blocks = before ++ c :: after) {accessor : String}
    (haccessor : accessor ∈ accessorCalls c) :
    ∃ f ∈ fields, f.name = accessor ∧ ChecksSlotOf f before := by
  obtain ⟨earlier, f, later, hfields, hf, hchecked, -⟩ :=
    exists_field_of_accessorCalls h hsplit (List.ne_nil_of_mem haccessor)
  rw [hf] at haccessor
  rcases Field.eq_or_of_mem_verifiedAccessors haccessor with rfl | ⟨hunion, rfl⟩
  · have hmem : f ∈ fields := hfields ▸ List.mem_append_right _ List.mem_cons_self
    exact ⟨f, hmem, rfl, hchecked f (List.mem_append_right _ List.mem_cons_self)⟩
  · -- the accessor of the tag is that of an earlier field
    obtain ⟨g, hg, hname⟩ := htags earlier f later hfields hunion
    have hmem : g ∈ fields := hfields ▸ List.mem_append_left _ hg
    exact ⟨g, hmem, hname, hchecked g (List.mem_append_left _ hg)⟩

theorem guardsAccessors_of_forall₂ (h : List.Forall₂ IsBlockOf fields blocks)
    (hnodup : (fields.map fun f ↦ uppercase f.name).Nodup) :
    GuardsAccessors fields (conjunctsOf blocks) := by
  have hnames : (fields.map Field.name).Nodup :=
    nodup_map_of_imp hnodup fun _ _ heq ↦ congrArg uppercase heq
  have hconstants : (fields.map fun f ↦ slotConstant f.name).Nodup :=
    nodup_map_of_imp hnodup fun _ _ heq ↦ slotConstant_injective heq
  have hslots := filterMap_slotCheck?_conjunctsOf h
  exact
    { first := rfl
      last := List.getLast?_concat
      slots := hslots
      once := fun f hf ↦ by
        rw [hslots, List.map_map]
        exact List.count_eq_one_of_mem hconstants (List.mem_map_of_mem hf)
      others := fun _ ↦ exists_head?_accessorCalls h
      between := fun _ _ _ hfields _ _ _ ↦ checksSlotOf_between h hnames hfields
      guarded := fun htags _ _ _ hsplit _ ↦ exists_checksSlotOf h htags hsplit }

end order

/-! ## The verifier in the text of a table

No line before the verifier is its first one: documentation begins with slashes, and an accessor is
closed on the line it begins on. -/

/-- The line that begins the verifier of a view. -/
def verifierHead : String := "  bool Verify(flatbuffers::Verifier &verifier) const \x7b"

theorem ne_verifierHead_of_docLines {indent : String} (hindent : indent.toList = "".toList ∨
    indent.toList = "  ".toList) {doc : List String} {line : String}
    (h : line ∈ docLines indent doc) : line ≠ verifierHead := by
  rw [docLines] at h
  obtain ⟨text, -, rfl⟩ := List.mem_map.mp h
  intro heq
  have htext := congrArg String.toList heq
  rw [String.toList_append, String.toList_append] at htext
  rcases hindent with hindent | hindent <;>
  · rw [hindent] at htext
    revert htext
    simp [verifierHead]

/-- What is written on one line is closed on it. -/
theorem ne_verifierHead_of_oneLine (signature statement : String) :
    "  " ++ oneLine signature statement ≠ verifierHead := by
  intro heq
  have htext : ("  " ++ oneLine signature statement).toList =
      ("  " ++ signature ++ " \x7b " ++ statement ++ " ").toList ++ ['\x7d'] := by
    simp [oneLine]
  have hlast : verifierHead.toList.getLast? = some '\x7b' := by decide
  rw [← heq, htext, List.getLast?_concat] at hlast
  exact absurd hlast (by decide)

theorem KeyComparison.exists_eq_oneLine (key : KeyComparison) {text : String}
    (h : text ∈ key.texts) : ∃ signature statement, text = oneLine signature statement := by
  cases key with
  | text | value =>
    rcases List.mem_cons.mp h with rfl | h
    · exact ⟨_, _, rfl⟩
    · exact ⟨_, _, List.mem_singleton.mp h⟩

theorem TableAccessor.verifierHead_notMem (accessor : TableAccessor) :
    verifierHead ∉ accessor.lines := by
  intro h
  rw [lines, List.mem_append] at h
  rcases h with h | h
  · exact ne_verifierHead_of_docLines (.inr rfl) h rfl
  obtain ⟨text, htext, heq⟩ := List.mem_map.mp h
  obtain ⟨signature, statement, rfl⟩ :
      ∃ signature statement, text = oneLine signature statement := by
    rw [List.mem_append, List.mem_append, List.mem_cons, Option.mem_toList, Option.mem_toList]
      at htext
    rcases htext with ((rfl | htext) | htext) | htext
    · exact ⟨_, _, rfl⟩
    · obtain ⟨mutator, -, rfl⟩ := Option.map_eq_some_iff.mp htext
      cases mutator <;> exact ⟨_, _, rfl⟩
    · obtain ⟨root, -, rfl⟩ := Option.map_eq_some_iff.mp htext
      exact ⟨_, _, rfl⟩
    · cases hkey : accessor.key with
      | none =>
        rw [hkey] at htext
        exact absurd htext List.not_mem_nil
      | some key =>
        rw [hkey] at htext
        exact key.exists_eq_oneLine htext
  exact ne_verifierHead_of_oneLine signature statement heq

theorem TableFragment.exists_viewLines_eq (t : TableFragment) :
    ∃ before, t.viewLines = before ++ [verifierHead] ++ conjunctionLines "    return " t.checks ++
        ["  \x7d", "\x7d;", ""] ∧ verifierHead ∉ before ∧
      ∀ accessor ∈ t.accessors, accessor.lines ⊆ before := by
  refine ⟨_, rfl, ?_, fun accessor haccessor line hline ↦
    List.mem_append_right _ (List.mem_flatMap.mpr ⟨accessor, haccessor, hline⟩)⟩
  simp only [List.mem_append, not_or]
  refine ⟨⟨⟨⟨fun h ↦ ?_, fun h ↦ ?_⟩, fun h ↦ ?_⟩, by decide⟩, fun h ↦ ?_⟩
  · exact ne_verifierHead_of_docLines (.inl rfl) h rfl
  · rcases List.mem_cons.mp h with h | h
    · have htext := congrArg String.toList h
      revert htext
      simp [verifierHead]
    · exact absurd (List.mem_singleton.mp h) (by decide)
  · obtain ⟨slot, -, heq⟩ := List.mem_map.mp h
    have hlast : verifierHead.toList.getLast? = some '\x7b' := by decide
    rw [← heq, String.toList_append] at hlast
    exact absurd (List.getLast?_concat.symm.trans hlast) (by decide)
  · obtain ⟨accessor, -, h⟩ := List.mem_flatMap.mp h
    exact accessor.verifierHead_notMem h

/-! ## Verifiers of loaded schemas -/

/-- **Order of verification.** The verifier of a table whose names are identifiers is one
conjunction, which begins with the table and ends with it. Between, each live field has one check of
its slot, in the order of the fields; whatever else calls the accessor of a field first stands
behind the check of that field and in front of the next one. If a live field of the name of its tag
comes before each union, then no accessor at all is called in front of the check of its slot. -/
theorem verifier_guards_accessors {d : Document} {s : Schema} (h : Schema.ofDocument d = .ok s)
    (hs : s.IdentifierNames) (options : Options) {a : Aggregate} (ha : a ∈ s.aggregates.values)
    (hfields : ∀ f ∈ a.liveFields, isIdentifier f.name = true)
    (hnodup : (a.liveFields.map fun f ↦ uppercase f.name).Nodup) :
    ∃ before body after conjuncts,
      s.tableText options a = .ok (unlines (before ++ [verifierHead] ++ body ++
        ["  \x7d", "\x7d;", ""] ++ after)) ∧ verifierHead ∉ before ∧
      conjuncts? (unlines body) = some conjuncts ∧ GuardsAccessors a.liveFields conjuncts := by
  obtain ⟨t, ht⟩ : Succeeds (TableFragment.ofAggregate s options a) :=
    (Schema.sound_of_ofDocument h).succeeds_ofTable ha
  obtain ⟨checks, -, hchecks, -, -, -, -, -, hall, -⟩ := TableFragment.of_ofAggregate_eq_ok ht
  obtain ⟨before, hlines, hbefore, -⟩ := t.exists_viewLines_eq
  have hparts : List.Forall₂ (fun f block ↦ IsBlockOf f (block.map Check.text) ∧
      ∀ c ∈ block, IsConjunct c.text) a.liveFields checks :=
    ((List.forall₂_and_left _ _).mpr ⟨hfields, hchecks⟩).imp fun f block ⟨hf, hblock⟩ ↦
      isBlockOf_of_ofField_eq_ok hs hf hblock
  have hblocks : List.Forall₂ IsBlockOf a.liveFields (checks.map (List.map Check.text)) := by
    rw [List.forall₂_map_right_iff]
    exact hparts.imp fun _ _ hpart ↦ hpart.1
  have htexts : t.checks.map Check.text = conjunctsOf (checks.map (List.map Check.text)) := by
    rw [hall, conjunctsOf, List.map_append, List.map_cons, List.map_flatten]
    rfl
  have hconjuncts : ∀ c ∈ .tableStart :: (checks.flatten ++ [.tableEnd]), IsConjunct c.text := by
    rw [List.forall_mem_cons, List.forall_mem_append, List.forall_mem_singleton]
    refine ⟨?_, fun c hc ↦ ?_, ?_⟩
    · exact ⟨by decide, ⟨_, _, rfl, rfl⟩, ⟨"VerifyTableStart(verifier".toList, ')', rfl, rfl⟩⟩
    · obtain ⟨block, hblock, hc⟩ := List.mem_flatten.mp hc
      obtain ⟨f, -, -, hpart⟩ := Attempt.exists_mem_left_of_forall₂ hparts hblock
      exact hpart c hc
    · exact ⟨by decide, ⟨_, _, rfl, rfl⟩, ⟨"verifier.EndTable(".toList, ')', rfl, rfl⟩⟩
  refine ⟨before, conjunctionLines "    return " t.checks, t.builderLines ++ t.createLines,
    t.checks.map Check.text, ?_, hbefore, ?_, ?_⟩
  · rw [Schema.tableText, ht, ← hlines, ← List.append_assoc]
    rfl
  · rw [hall]
    exact conjuncts?_conjunctionLines hconjuncts
  · rw [htexts]
    exact guardsAccessors_of_forall₂ hblocks hnodup

/-- A table with a union behind its tag, what a verifier looks into, and a deprecated field. -/
def crewTable : Aggregate where
  name := "Crew"
  scope := 1
  fixed := false
  fields :=
    [⟨"captain_type", .scalar .utype (some "Game.Any"), 4, "0", false, false, false, 0, none, []⟩,
      ⟨"captain", .union "Game.Any", 6, "0", false, true, false, 0, none, []⟩,
      ⟨"old", .string, 8, "0", true, false, false, 0, none, []⟩,
      ⟨"seat", .aggregate "Game.Leaf" true, 10, "0", false, false, false, 0, none, []⟩,
      ⟨"names", .vector .string, 12, "0", false, false, false, 0, none, []⟩,
      ⟨"ship", .aggregate "Base.Node" false, 14, "0", false, false, false, 0, none, []⟩]
  byteSize := 0
  minAlign := 1
  sortBySize := false
  doc := []
  generated := false

/-- A document with that table. -/
def crewDocument : Document :=
  { mutualDocument with aggregates := crewTable :: mutualDocument.aggregates }

theorem verifier_guards_accessors_crew : ∃ s, Schema.ofDocument crewDocument = .ok s ∧
    s.IdentifierNames ∧ crewTable ∈ s.aggregates.values ∧
    (∀ f ∈ crewTable.liveFields, isIdentifier f.name = true) ∧
    (crewTable.liveFields.map fun f ↦ uppercase f.name).Nodup ∧
    ∃ before body after conjuncts,
      s.tableText {} crewTable = .ok (unlines (before ++ [verifierHead] ++ body ++
        ["  \x7d", "\x7d;", ""] ++ after)) ∧
      conjuncts? (unlines body) = some conjuncts ∧ GuardsAccessors crewTable.liveFields conjuncts ∧
      ∀ before c after, conjuncts = before ++ c :: after → ∀ accessor ∈ accessorCalls c,
        ∃ f ∈ crewTable.liveFields, f.name = accessor ∧ ChecksSlotOf f before := by
  obtain ⟨s, hs, hnames, hmem⟩ : ∃ s, Schema.ofDocument crewDocument = .ok s ∧
      s.IdentifierNames ∧ crewTable ∈ s.aggregates.values :=
    ⟨_, rfl, ⟨by decide, by decide, by decide⟩, List.mem_cons_self⟩
  have hfields : ∀ f ∈ crewTable.liveFields, isIdentifier f.name = true := by decide
  have hnodup : (crewTable.liveFields.map fun f ↦ uppercase f.name).Nodup := by decide
  obtain ⟨before, body, after, conjuncts, htext, -, hconjuncts, hguards⟩ :=
    verifier_guards_accessors hs hnames {} hmem hfields hnodup
  refine ⟨s, hs, hnames, hmem, hfields, hnodup, before, body, after, conjuncts, htext, hconjuncts,
    hguards, hguards.guarded ?_⟩
  rintro earlier f later hsplit ⟨tag, htag⟩
  have hunion : ∀ g ∈ crewTable.liveFields, g.type = .union tag → g.name = "captain" := by
    simp [crewTable, Aggregate.liveFields]
  cases earlier with
  | nil =>
    obtain ⟨rfl, -⟩ := List.cons.inj hsplit
    exact TypeRef.noConfusion htag
  | cons g earlier =>
    have hname := hunion f (hsplit ▸ List.mem_append_right _ List.mem_cons_self) htag
    obtain ⟨rfl, -⟩ := List.cons.inj hsplit
    refine ⟨_, List.mem_cons_self, ?_⟩
    rw [hname]
    rfl

end BufferSchema
