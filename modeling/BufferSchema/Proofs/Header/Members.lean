import BufferSchema.Proofs.Header.Deprecation
import BufferSchema.Proofs.Header.Safety
import Mathlib.Data.Nat.BitIndices

/-!
# Members of a struct

A struct tells its members twice: its private section declares them, and its constructor initializes
them. The two lists are emitted by two loops, and each loop numbers the padding for itself. Here
both are read off one list of members, which also tells the parameters of the constructor and what
its body voids.

The loops carry the number of the next padding member along. The list of members is described
without such a number: by the fields in their order, by the places that padding takes between them,
and by the padding alone, whose numbers are its positions.
-/

namespace BufferSchema

/-! ## Members -/

/-- A member of a struct. A field comes with the spelling of its storage, with that of the parameter
it is constructed from, and with the value that it is given. -/
inductive ConstructedMember where
  | field (name storage parameter value : String)
  | padding (width number : Nat)
  deriving DecidableEq, Repr

namespace ConstructedMember

/-- The name of a member. -/
def name : ConstructedMember → String
  | .field name _ _ _ => name ++ "_"
  | .padding _ number => "__padding" ++ toString number

/-- The type that a member is declared with, and the blank behind it. -/
def type : ConstructedMember → String
  | .field _ storage _ _ => storage
  | .padding width _ => "int" ++ toString width ++ "_t "

/-- What a member is initialized with. -/
def value : ConstructedMember → String
  | .field _ _ _ value => value
  | .padding _ _ => "0"

/-- The line that declares a member. -/
def declaration (m : ConstructedMember) : String := "  " ++ m.type ++ m.name ++ ";"

/-- The text that initializes a member. -/
def initializer (m : ConstructedMember) : String := m.name ++ "(" ++ m.value ++ ")"

/-- The parameter of the constructor that belongs to a member, if it is a field. -/
def parameter? : ConstructedMember → Option String
  | .field name _ parameter _ => some (parameter ++ "_" ++ name)
  | .padding _ _ => none

/-- The width and the number of padding. -/
def padding? : ConstructedMember → Option (Nat × Nat)
  | .field _ _ _ _ => none
  | .padding width number => some (width, number)

/-- The statement that voids a member, if it is padding. -/
def voiding? (m : ConstructedMember) : Option String :=
  m.padding?.map fun (_, number) ↦ " (void)__padding" ++ toString number ++ ";"

/-- Whether a member is padding. -/
def isPadding (m : ConstructedMember) : Bool := m.padding?.isSome

end ConstructedMember

/-- The type that a value is converted to on its way to storage. -/
def TypeRef.storageCast? : TypeRef → Option String
  | .scalar kind (some _) => some kind.spelling
  | .bool => some "uint8_t"
  | .scalar _ none | .string | .vector _ | .aggregate _ _ | .union _ => none

/-- The value that the parameter of a field gives to its member: scalars are stored with their least
byte first, all else as it is. -/
def Field.constructedValue (f : Field) : String :=
  if f.type.isScalar then
    "flatbuffers::EndianScalar(" ++ converted f.type.storageCast? ("_" ++ f.name) ++ ")"
  else "_" ++ f.name

/-- The widths of the padding behind a field, one for each bit of its mask, least bit first. -/
def Field.paddingWidths (f : Field) : List Nat :=
  f.padding.toNat.bitIndices.map fun i ↦ 8 * 2 ^ i

/-- The number of bits that are set in the masks of fields. -/
def paddingTotal (fields : List Field) : Nat :=
  (fields.map fun f ↦ f.padding.toNat.bitIndices.length).sum

/-- A member belongs to a field: it has its name, and is given the value of its parameter. -/
def Field.IsConstructedAs (s : Schema) (f : Field) (m : ConstructedMember) : Prop :=
  ∃ storage parameter, s.viewSpelling " " "" " " false f.type = .ok storage ∧
    s.viewSpelling " " "const " " &" true f.type = .ok parameter ∧
    m = .field f.name storage parameter f.constructedValue

/-- Members of fields whose padding is numbered from `number` on. -/
structure HasMembersFrom (s : Schema) (number : Nat) (fields : List Field)
    (members : List ConstructedMember) : Prop where
  /-- Without padding, the members are the fields in their order. -/
  own : List.Forall₂ (Field.IsConstructedAs s) fields (members.filter fun m ↦ !m.isPadding)
  /-- The padding of a field stands directly behind it. -/
  places : members.map ConstructedMember.isPadding =
    fields.flatMap fun f ↦ false :: List.replicate f.padding.toNat.bitIndices.length true
  /-- The padding of a struct has the widths of the masks, and its positions for numbers. -/
  padding : members.filterMap ConstructedMember.padding? =
    (fields.flatMap Field.paddingWidths).zipIdx number

/-- The members of a struct. -/
abbrev HasMembers (s : Schema) (fields : List Field) (members : List ConstructedMember) : Prop :=
  HasMembersFrom s 0 fields members

/-! ## Masks -/

private theorem filter_testBit_eq_bitIndices :
    ∀ n < 16, (List.range 4).filter n.testBit = n.bitIndices := by decide

theorem paddingWidths_of_le {f : Field} (h : f.padding ≤ 15) :
    paddingWidths f.padding = .ok f.paddingWidths := by
  obtain ⟨widths, hwidths⟩ := succeeds_paddingWidths.mpr h
  have hmask : f.padding.toNat < 16 := Nat.lt_succ_of_le (UInt8.le_iff_toNat_le.mp h)
  rw [hwidths]
  rw [paddingWidths] at hwidths
  split at hwidths
  · obtain rfl := Attempt.pure_eq_ok.mp hwidths
    have hbits : ((List.range 4).filter fun i ↦ f.padding.toNat.testBit i) =
        f.padding.toNat.bitIndices := filter_testBit_eq_bitIndices _ hmask
    rw [hbits]
    rfl
  · exact absurd hwidths Attempt.throw_ne_ok

/-! ## One list for both loops -/

section members

variable {s : Schema} {number : Nat} {f : Field} {fields : List Field}
  {members : List ConstructedMember}

/-- The padding behind a field. -/
def paddingMembers (number : Nat) (widths : List Nat) : List ConstructedMember :=
  (widths.zipIdx number).map fun (width, n) ↦ .padding width n

theorem map_isPadding_paddingMembers (widths : List Nat) :
    (paddingMembers number widths).map ConstructedMember.isPadding =
      List.replicate widths.length true := by
  rw [paddingMembers, List.map_map, List.eq_replicate_iff]
  refine ⟨by simp, ?_⟩
  intro b hb
  obtain ⟨p, -, rfl⟩ := List.mem_map.mp hb
  rfl

theorem filter_paddingMembers (widths : List Nat) :
    (paddingMembers number widths).filter (fun m ↦ !m.isPadding) = [] := by
  rw [List.filter_eq_nil_iff]
  intro m hm
  obtain ⟨p, -, rfl⟩ := List.mem_map.mp hm
  exact Bool.false_ne_true

theorem filterMap_padding?_paddingMembers (widths : List Nat) :
    (paddingMembers number widths).filterMap ConstructedMember.padding? =
      widths.zipIdx number := by
  rw [paddingMembers, List.filterMap_map]
  exact List.filterMap_some

theorem hasMembersFrom_nil : HasMembersFrom s number [] [] := ⟨.nil, rfl, rfl⟩

/-- One field more in front: its member, its padding, and the members of the others, whose padding
is numbered behind that of the field. -/
theorem HasMembersFrom.cons {m : ConstructedMember} (hm : f.IsConstructedAs s m)
    (h : HasMembersFrom s (number + f.paddingWidths.length) fields members) :
    HasMembersFrom s number (f :: fields)
      (m :: (paddingMembers number f.paddingWidths ++ members)) := by
  have hlength : f.paddingWidths.length = f.padding.toNat.bitIndices.length := List.length_map _
  obtain ⟨storage, parameter, -, -, rfl⟩ := id hm
  refine ⟨?_, ?_, ?_⟩
  · rw [List.filter_cons_of_pos rfl, List.filter_append, filter_paddingMembers, List.nil_append]
    exact .cons hm h.own
  · rw [List.map_cons, List.map_append, map_isPadding_paddingMembers, h.places, hlength,
      List.flatMap_cons]
    rfl
  · rw [List.filterMap_cons_none rfl, List.filterMap_append, filterMap_padding?_paddingMembers,
      h.padding, List.flatMap_cons, List.zipIdx_append]

/-- The numbers of the padding: as many as the masks have bits, one behind the other. -/
theorem HasMembersFrom.numbers (h : HasMembersFrom s number fields members) :
    (members.filterMap ConstructedMember.padding?).map Prod.snd =
      List.range' number (paddingTotal fields) := by
  have hlength : (fun f : Field ↦ f.paddingWidths.length) =
      fun f : Field ↦ f.padding.toNat.bitIndices.length := funext fun f ↦ List.length_map _
  rw [h.padding, List.zipIdx_map_snd, List.length_flatMap, hlength, paddingTotal]

/-- The body of the constructor voids the padding by its numbers. -/
theorem HasMembersFrom.voided (h : HasMembersFrom s number fields members) :
    members.filterMap ConstructedMember.voiding? =
      (List.range' number (paddingTotal fields)).map fun n ↦
        " (void)__padding" ++ toString n ++ ";" := by
  rw [← h.numbers, List.map_map, List.map_filterMap]
  rfl

/-- The parameters are those of the fields, in their order. -/
theorem HasMembersFrom.parameters (h : HasMembersFrom s number fields members) :
    List.Forall₂ (fun f text ↦ ∃ type,
      s.viewSpelling " " "const " " &" true f.type = .ok type ∧ text = type ++ "_" ++ f.name)
      fields (members.filterMap ConstructedMember.parameter?) := by
  have hown : members.filterMap ConstructedMember.parameter? =
      (members.filter fun m ↦ !m.isPadding).filterMap ConstructedMember.parameter? := by
    rw [List.filterMap_filter]
    refine List.filterMap_congr fun m _ ↦ ?_
    cases m <;> rfl
  obtain ⟨hfields, -, -⟩ := h
  rw [hown]
  generalize members.filter (fun m ↦ !m.isPadding) = own at hfields
  induction hfields with
  | nil => exact .nil
  | cons hm _ ih =>
    obtain ⟨storage, parameter, -, hparameter, rfl⟩ := hm
    exact .cons ⟨parameter, hparameter, rfl⟩ ih

end members

/-! ### What the loops emit -/

section loops

variable {s : Schema} {f : Field}

theorem StructMember.of_ofFields_cons_eq_ok {number : Nat} {fields : List Field}
    {declared : List StructMember} (h : ofFields s number (f :: fields) = .ok declared) :
    ∃ storage rest, s.viewSpelling " " "" " " false f.type = .ok storage ∧
      ofFields s (number + f.paddingWidths.length) fields = .ok rest ∧
      declared = .field storage f.name ::
        (f.paddingWidths.zipIdx number).map (fun (width, n) ↦ .padding width n) ++ rest := by
  rw [ofFields] at h
  obtain ⟨storage, hstorage, h⟩ := Attempt.bind_eq_ok.mp h
  obtain ⟨widths, hwidths, h⟩ := Attempt.bind_eq_ok.mp h
  obtain ⟨rest, hrest, h⟩ := Attempt.bind_eq_ok.mp h
  rw [paddingWidths_of_le (succeeds_paddingWidths.mp ⟨widths, hwidths⟩)] at hwidths
  obtain rfl := Except.ok.inj hwidths
  exact ⟨storage, rest, hstorage, hrest, (Attempt.pure_eq_ok.mp h).symm⟩

theorem Schema.conversion_false (s : Schema) (type : TypeRef) :
    s.conversion false type = .ok type.storageCast? := by
  cases type with
  | scalar kind enumName => cases enumName <;> rfl
  | bool | string | vector element | aggregate target fixed | union tagEnum => rfl

theorem StructInitializer.of_ofFields_cons_eq_ok {number : Nat} {fields : List Field}
    {initializers : List StructInitializer}
    (h : ofFields s number (f :: fields) = .ok initializers) :
    ∃ rest, ofFields s (number + f.paddingWidths.length) fields = .ok rest ∧
      initializers = .field f.name f.constructedValue ::
        (List.range' number f.paddingWidths.length).map .padding ++ rest := by
  have hvalue : ofFields s number (f :: fields) =
      paddingWidths f.padding >>= fun widths ↦
        ofFields s (number + widths.length) fields >>= fun rest ↦
          pure (.field f.name f.constructedValue ::
            (List.range' number widths.length).map .padding ++ rest) := by
    rw [ofFields, Field.constructedValue, s.conversion_false]
    split <;> rfl
  rw [hvalue] at h
  obtain ⟨widths, hwidths, h⟩ := Attempt.bind_eq_ok.mp h
  obtain ⟨rest, hrest, h⟩ := Attempt.bind_eq_ok.mp h
  rw [paddingWidths_of_le (succeeds_paddingWidths.mp ⟨widths, hwidths⟩)] at hwidths
  obtain rfl := Except.ok.inj hwidths
  exact ⟨rest, hrest, (Attempt.pure_eq_ok.mp h).symm⟩

/-- A member, as the private section declares it. -/
def ConstructedMember.stored : ConstructedMember → StructMember
  | .field name storage _ _ => .field storage name
  | .padding width number => .padding width number

/-- A member, as the constructor initializes it. -/
def ConstructedMember.initialized : ConstructedMember → StructInitializer
  | .field name _ _ value => .field name value
  | .padding _ number => .padding number

theorem line_stored (m : ConstructedMember) : m.stored.line = m.declaration := by
  rw [← String.toList_inj]
  cases m <;>
    simp [ConstructedMember.stored, ConstructedMember.declaration, ConstructedMember.type,
      ConstructedMember.name, StructMember.line, paddingName]

theorem text_initialized (m : ConstructedMember) : m.initialized.text = m.initializer := by
  rw [← String.toList_inj]
  cases m <;>
    simp [ConstructedMember.initialized, ConstructedMember.initializer, ConstructedMember.value,
      ConstructedMember.name, StructInitializer.text, paddingName]

theorem voidStatement?_initialized (m : ConstructedMember) :
    m.initialized.voidStatement? = m.voiding? := by
  cases m with
  | field name storage parameter value => rfl
  | padding width number =>
    rw [ConstructedMember.voiding?, ConstructedMember.padding?, Option.map_some,
      ConstructedMember.initialized, StructInitializer.voidStatement?, Option.some_inj,
      ← String.toList_inj]
    simp [paddingName]

/-- Both loops go through one list of members. -/
theorem exists_members {fields : List Field} : ∀ {number : Nat} {declared : List StructMember}
    {initializers : List StructInitializer} {parameters : List StructParameter},
    StructMember.ofFields s number fields = .ok declared →
    StructInitializer.ofFields s number fields = .ok initializers →
    List.Forall₂ (fun f p ↦ StructParameter.ofField s f = .ok p) fields parameters →
    ∃ members, HasMembersFrom s number fields members ∧
      declared = members.map ConstructedMember.stored ∧
      initializers = members.map ConstructedMember.initialized ∧
      parameters.map (fun p ↦ p.type ++ p.name) =
        members.filterMap ConstructedMember.parameter? := by
  induction fields with
  | nil =>
    intro number declared initializers parameters hdeclared hinitializers hparameters
    obtain rfl := Attempt.pure_eq_ok.mp hdeclared
    obtain rfl := Attempt.pure_eq_ok.mp hinitializers
    cases hparameters
    exact ⟨[], hasMembersFrom_nil, rfl, rfl, rfl⟩
  | cons f fields ih =>
    intro number declared initializers parameters hdeclared hinitializers hparameters
    obtain ⟨storage, declared, hstorage, hdeclared', rfl⟩ :=
      StructMember.of_ofFields_cons_eq_ok hdeclared
    obtain ⟨initializers, hinitializers', rfl⟩ :=
      StructInitializer.of_ofFields_cons_eq_ok hinitializers
    obtain ⟨p, parameters, hp, hparameters', rfl⟩ := List.forall₂_cons_left_iff.mp hparameters
    rw [StructParameter.ofField] at hp
    obtain ⟨parameter, hparameter, hp⟩ := Attempt.bind_eq_ok.mp hp
    obtain rfl := Attempt.pure_eq_ok.mp hp
    obtain ⟨members, hmembers, rfl, rfl, htexts⟩ := ih hdeclared' hinitializers' hparameters'
    refine ⟨_, .cons ⟨storage, parameter, hstorage, hparameter, rfl⟩ hmembers, ?_, ?_, ?_⟩
    · rw [List.map_cons, List.map_append, paddingMembers, List.map_map]
      rfl
    · rw [List.map_cons, List.map_append, paddingMembers, List.map_map, ← List.zipIdx_map_snd,
        List.map_map]
      rfl
    · have hpadding : (paddingMembers number f.paddingWidths).filterMap
          ConstructedMember.parameter? = [] := by
        rw [paddingMembers, List.filterMap_map]
        exact List.filterMap_none _
      rw [List.map_cons, htexts, ← String.append_assoc]
      change _ = _ :: (paddingMembers number f.paddingWidths ++ members).filterMap
        ConstructedMember.parameter?
      rw [List.filterMap_append, hpadding]
      rfl

end loops

/-! ## Texts -/

/-- The text of a struct. -/
def Schema.structText (s : Schema) (options : Options) (a : Aggregate) : Emitted String :=
  (fun f ↦ unlines f.lines) <$> StructFragment.ofAggregate s options a

/-- The lines of a struct, told from its members and its accessors. -/
def structLines (a : Aggregate) (members : List ConstructedMember)
    (accessors : List StructAccessor) : List String :=
  docLines "" a.doc ++
    ["MANUALLY_ALIGNED_STRUCT(" ++ toString a.minAlign.toNat ++ ") " ++ a.name ++
        " FLATBUFFERS_FINAL_CLASS \x7b",
      " private:"] ++
    members.map ConstructedMember.declaration ++
    ["",
      " public:",
      "  " ++ a.name ++ "(" ++
        ", ".intercalate (members.filterMap ConstructedMember.parameter?) ++ ")",
      "    : " ++ ", ".intercalate (members.map ConstructedMember.initializer) ++ " \x7b" ++
        String.join (members.filterMap ConstructedMember.voiding?) ++ " \x7d",
      ""] ++
    accessors.flatMap StructAccessor.lines ++
    ["\x7d;", "STRUCT_END(" ++ a.name ++ ", " ++ toString a.byteSize.toNat ++ ");", ""]

variable {s : Schema} {options : Options} {a : Aggregate}

theorem exists_structText {fragment : StructFragment}
    (h : StructFragment.ofAggregate s options a = .ok fragment) :
    ∃ members accessors, HasMembers s a.fields members ∧
      a.fields.mapM (StructAccessor.ofField s options) = .ok accessors ∧
      s.structText options a = .ok (unlines (structLines a members accessors)) := by
  rw [Schema.structText, h]
  rw [StructFragment.ofAggregate] at h
  obtain ⟨declared, hdeclared, h⟩ := Attempt.bind_eq_ok.mp h
  obtain ⟨parameters, hparameters, h⟩ := Attempt.bind_eq_ok.mp h
  obtain ⟨initializers, hinitializers, h⟩ := Attempt.bind_eq_ok.mp h
  obtain ⟨accessors, haccessors, h⟩ := Attempt.bind_eq_ok.mp h
  obtain rfl := Attempt.pure_eq_ok.mp h
  obtain ⟨members, hmembers, rfl, rfl, htexts⟩ :=
    exists_members hdeclared hinitializers (Attempt.mapM_eq_ok.mp hparameters)
  refine ⟨members, accessors, hmembers, haccessors, congrArg (Except.ok ∘ unlines) ?_⟩
  have hlines : (members.map ConstructedMember.stored).map StructMember.line =
      members.map ConstructedMember.declaration := by
    rw [List.map_map]
    exact List.map_congr_left fun m _ ↦ line_stored m
  have hinitialized : (members.map ConstructedMember.initialized).map StructInitializer.text =
      members.map ConstructedMember.initializer := by
    rw [List.map_map]
    exact List.map_congr_left fun m _ ↦ text_initialized m
  have hvoided : (members.map ConstructedMember.initialized).filterMap
      StructInitializer.voidStatement? = members.filterMap ConstructedMember.voiding? := by
    rw [List.filterMap_map]
    exact List.filterMap_congr fun m _ ↦ voidStatement?_initialized m
  rw [StructFragment.lines, StructFragment.constructorLines, structLines]
  dsimp only
  rw [hlines, hinitialized, hvoided, htexts]
  simp only [List.append_assoc, List.cons_append, List.nil_append]

/-! ## What a struct does not read -/

/-- Two fields that agree in all that a struct reads of them. They may differ in their slots and
defaults, and in whether they are deprecated, required or a key. -/
structure Field.SameInStruct (f g : Field) : Prop where
  name : f.name = g.name
  type : f.type = g.type
  padding : f.padding = g.padding
  doc : f.doc = g.doc

section congruence

variable {f g : Field} {fields fields' : List Field}

theorem StructParameter.ofField_congr (h : f.SameInStruct g) : ofField s f = ofField s g := by
  rw [ofField, ofField, h.name, h.type]

theorem StructAccessor.ofField_congr (h : f.SameInStruct g) :
    ofField s options f = ofField s options g := by
  rw [ofField, ofField, h.name, h.type, h.doc]

theorem StructMember.ofFields_congr (h : List.Forall₂ Field.SameInStruct fields fields')
    (number : Nat) : ofFields s number fields = ofFields s number fields' := by
  induction h generalizing number with
  | nil => rfl
  | cons hfg _ ih =>
    rw [ofFields, ofFields, hfg.name, hfg.type, hfg.padding]
    simp only [ih]

theorem StructInitializer.ofFields_congr (h : List.Forall₂ Field.SameInStruct fields fields')
    (number : Nat) : ofFields s number fields = ofFields s number fields' := by
  induction h generalizing number with
  | nil => rfl
  | cons hfg _ ih =>
    rw [ofFields, ofFields, hfg.name, hfg.type, hfg.padding]
    simp only [ih]

theorem mapM_congr_of_sameInStruct {α : Type} {emit : Field → Emitted α}
    (hemit : ∀ f g, f.SameInStruct g → emit f = emit g)
    (h : List.Forall₂ Field.SameInStruct fields fields') :
    fields.mapM emit = fields'.mapM emit := by
  induction h with
  | nil => rfl
  | cons hfg _ ih => rw [List.mapM_cons, List.mapM_cons, hemit _ _ hfg, ih]

/-- The text of a struct is decided by what it reads of its fields. -/
theorem structText_congr (h : List.Forall₂ Field.SameInStruct a.fields fields') :
    s.structText options { a with fields := fields' } = s.structText options a := by
  rw [Schema.structText, Schema.structText, StructFragment.ofAggregate, StructFragment.ofAggregate,
    StructMember.ofFields_congr h, StructInitializer.ofFields_congr h,
    mapM_congr_of_sameInStruct (fun _ _ ↦ StructParameter.ofField_congr) h,
    mapM_congr_of_sameInStruct (fun _ _ ↦ StructAccessor.ofField_congr) h]

end congruence

/-- **Storage and constructor of a struct.** The masks of an aggregate of a loaded schema may have
four bits; then its struct is made from one list of members. The private section declares the list
in its order, and the constructor initializes it in its order. Without padding it is the list of the
fields, each with its own parameter; the padding of a field stands behind it, one member for each
bit of the mask, from the least on. Through the whole struct padding is numbered from zero without
gaps, and the constructor sets it to zero and voids it once.

Nothing else of a field is read: neither its slot and default, nor whether it is deprecated,
required or a key. -/
theorem structText_lists_members {d : Document} {s : Schema} (hs : Schema.ofDocument d = .ok s)
    (options : Options) {a : Aggregate} (ha : a ∈ s.aggregates.values)
    (hpadding : ∀ f ∈ a.fields, f.padding ≤ 15) :
    (∃ members accessors, HasMembers s a.fields members ∧
      a.fields.mapM (StructAccessor.ofField s options) = .ok accessors ∧
      s.structText options a = .ok (unlines (structLines a members accessors)) ∧
      (members.filterMap ConstructedMember.padding?).map Prod.snd =
        List.range (paddingTotal a.fields) ∧
      members.filterMap ConstructedMember.voiding? =
        ((List.range (paddingTotal a.fields)).map fun n ↦
          " (void)__padding" ++ toString n ++ ";") ∧
      List.Forall₂ (fun f text ↦ ∃ type,
        s.viewSpelling " " "const " " &" true f.type = .ok type ∧ text = type ++ "_" ++ f.name)
        a.fields (members.filterMap ConstructedMember.parameter?)) ∧
    ∀ fields, List.Forall₂ Field.SameInStruct a.fields fields →
      s.structText options { a with fields } = s.structText options a ∧
      ∀ key, (s.withFields key fields).structText options { a with fields } =
        s.structText options a := by
  refine ⟨?_, fun fields hfields ↦ ⟨structText_congr hfields, fun key ↦ ?_⟩⟩
  · have hsound := Schema.sound_of_ofDocument hs
    have hspells : ∀ f ∈ a.fields, s.Spells f.type ∧ f.padding ≤ 15 :=
      fun f hf ↦ ⟨(hsound.spells ha hf).1, hpadding f hf⟩
    obtain ⟨fragment, hfragment⟩ : Succeeds (StructFragment.ofAggregate s options a) :=
      StructFragment.succeeds_ofAggregate.mpr hspells
    obtain ⟨members, accessors, hmembers, haccessors, htext⟩ := exists_structText hfragment
    have hnumbers := hmembers.numbers
    have hvoided := hmembers.voided
    rw [← List.range_eq_range'] at hnumbers hvoided
    exact ⟨members, accessors, hmembers, haccessors, htext, hnumbers, hvoided,
      hmembers.parameters⟩
  · have halike : s.SpellsAlike (s.withFields key fields) :=
      Schema.SpellsAlike.modify_aggregates s key fun _ ↦ rfl
    rw [← structText_congr hfields, Schema.structText, Schema.structText, halike.struct_eq]

/-- A struct with two members of padding behind its first field and one behind its second. -/
def maskedStruct : Aggregate where
  name := "Cell"
  scope := 1
  fixed := true
  fields :=
    [⟨"tag", .scalar .byte none, 0, "0", false, false, false, 3, none, []⟩,
      ⟨"open", .bool, 0, "0", false, false, false, 2, none, []⟩]
  byteSize := 8
  minAlign := 2
  sortBySize := false
  doc := []
  generated := false

/-- A document with that struct. -/
def maskedDocument : Document :=
  { mutualDocument with aggregates := maskedStruct :: mutualDocument.aggregates }

/-- The padding of that struct has the numbers from zero to two, also with all of its fields
deprecated. -/
theorem structText_lists_members_masked : ∃ s, Schema.ofDocument maskedDocument = .ok s ∧
    maskedStruct ∈ s.aggregates.values ∧ (∀ f ∈ maskedStruct.fields, f.padding ≤ 15) ∧
    (∃ members, HasMembers s maskedStruct.fields members ∧
      (members.filterMap ConstructedMember.padding?).map Prod.snd = [0, 1, 2]) ∧
    s.structText {} { maskedStruct with
      fields := maskedStruct.fields.map fun f ↦ { f with deprecated := true } } =
        s.structText {} maskedStruct := by
  refine ⟨_, rfl, List.mem_cons_self, by decide, ?_⟩
  have h := structText_lists_members (d := maskedDocument) rfl {} List.mem_cons_self
    (a := maskedStruct) (by decide)
  obtain ⟨⟨members, -, hmembers, -, -, hnumbers, -⟩, hsame⟩ := h
  refine ⟨⟨members, hmembers, hnumbers⟩, ?_⟩
  exact (hsame _ (.cons ⟨rfl, rfl, rfl, rfl⟩ (.cons ⟨rfl, rfl, rfl, rfl⟩ .nil))).1

end BufferSchema
