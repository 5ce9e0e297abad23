import BufferSchema.Proofs.Header.Deprecation
import BufferSchema.Proofs.Header.Safety
import BufferSchema.Proofs.Header.Table

/-!
# Agreement on fields

The view that reads a table, the verifier that checks it and the builder that writes it are put
together by loops of their own, each with its own look at the type of a field. This file shows that
they agree on every live field: on the constant that holds its slot, on the shape in which it is
stored, and on the spelling and the default of its type.

The shapes are written out in `Field.readText` and its neighbours, one line for each shape, in the
terms of one spelling for all of them. `TableFragment.AgreesOn` says that the parts of a table have
these texts, that the texts are in the text of the table, and that no other part names the constant
of the field.
-/

namespace BufferSchema

/-! ## Shapes -/

/-- `text` is `value` itself or its conversion to some type. -/
def IsConverted (value text : String) : Prop :=
  text = value ∨ ∃ type, text = "static_cast<" ++ type ++ ">(" ++ value ++ ")"

theorem isConverted_converted (conversion : Option String) (value : String) :
    IsConverted value (converted conversion value) := by
  cases conversion with
  | none => exact .inl rfl
  | some type => exact .inr ⟨type, rfl⟩

namespace Field

variable (f : Field) (spelling : String)

/-- How the view reads the field. -/
def readText : String :=
  match f.type.storage with
  | .value => "GetField<" ++ spelling ++ ">(" ++ slotConstant f.name ++ ", " ++ f.defaultValue ++ ")"
  | .inlineStruct => "GetStruct<" ++ ("const " ++ spelling ++ " *") ++ ">(" ++ slotConstant f.name ++ ")"
  | .offset => "GetPointer<" ++ ("const " ++ spelling ++ " *") ++ ">(" ++ slotConstant f.name ++ ")"

/-- How a mutator of the field is declared. -/
def changeHead (type : String) : String :=
  match f.type.storage with
  | .value => "bool mutate_" ++ f.name ++ "(" ++ type ++ " _" ++ f.name ++ ")"
  | .inlineStruct | .offset => type ++ "mutable_" ++ f.name ++ "()"

/-- What a mutator of the field does: it sets a value, or hands out what is stored. -/
def changeText (value : String) : String :=
  match f.type.storage with
  | .value => "return SetField(" ++ slotConstant f.name ++ ", " ++ value ++ ");"
  | .inlineStruct =>
    "return " ++ ("GetStruct<" ++ (spelling ++ " *") ++ ">(" ++ slotConstant f.name ++ ")") ++ ";"
  | .offset =>
    "return " ++ ("GetPointer<" ++ (spelling ++ " *") ++ ">(" ++ slotConstant f.name ++ ")") ++ ";"

/-- The type that has the size of what the slot of the field holds. -/
def checkedType : String :=
  match f.type.storage with
  | .value | .inlineStruct => spelling
  | .offset => "flatbuffers::uoffset_t"

/-- How the verifier checks the slot of the field. -/
def checkText : String :=
  "VerifyField" ++ (if f.required then "Required" else "") ++ "<" ++ f.checkedType spelling ++
    ">(verifier, " ++ slotConstant f.name ++ ")"

/-- How the builder of a table adds the field. -/
def addText (table value : String) : String :=
  match f.type.storage with
  | .value =>
    "fbb_.AddElement" ++ ("<" ++ spelling ++ ">") ++ "(" ++ table ++ "::" ++ slotConstant f.name ++
      ", " ++ value ++ ", " ++ f.defaultValue ++ ");"
  | .inlineStruct =>
    "fbb_.AddStruct(" ++ table ++ "::" ++ slotConstant f.name ++ ", " ++ value ++ ");"
  | .offset => "fbb_.AddOffset(" ++ table ++ "::" ++ slotConstant f.name ++ ", " ++ value ++ ");"

end Field

/-- The type by which a field is stored: its own spelling in storage if it is stored by value, and
the spelling of what is pointed to if not. -/
def Schema.storedSpelling (s : Schema) (type : TypeRef) : Emitted String :=
  match type.storage with
  | .value => pure type.storageSpelling
  | .inlineStruct | .offset => s.pointee type

variable {s : Schema} {options : Options} {a : Aggregate} {f : Field} {spelling : String}

theorem Schema.storedSpelling_of_isScalar {type : TypeRef} (hscalar : type.isScalar = true)
    (h : s.storedSpelling type = .ok spelling) : type.storageSpelling = spelling := by
  rw [storedSpelling, TypeRef.storage_eq_value_iff.mpr hscalar] at h
  exact Attempt.pure_eq_ok.mp h

theorem Schema.storedSpelling_of_not_isScalar {type : TypeRef} (hscalar : type.isScalar = false) :
    s.storedSpelling type = s.pointee type := by
  rw [storedSpelling]
  cases h : type.storage with
  | value => exact absurd h (TypeRef.storage_ne_value hscalar)
  | inlineStruct | offset => rfl

/-! ## Parts of a table -/

section parts

variable (h : s.storedSpelling f.type = .ok spelling)

include h

private theorem read_text_eq {stored : String}
    (hstored : s.viewSpelling "" "const " " *" false f.type = .ok stored) :
    SlotRead.text ⟨f.type.storage, stored, slotConstant f.name, f.absentLiteral⟩ =
      f.readText spelling := by
  cases hscalar : f.type.isScalar with
  | true =>
    obtain rfl := Schema.storedSpelling_of_isScalar hscalar h
    rw [Schema.viewSpelling_of_isScalar hscalar, String.append_empty] at hstored
    obtain rfl := Except.ok.inj hstored
    rw [Field.readText, Field.absentLiteral, if_pos hscalar, SlotRead.text,
      TypeRef.storage_eq_value_iff.mpr hscalar]
    simp only [← String.append_assoc, String.reduceAppend]
  | false =>
    rw [Schema.storedSpelling_of_not_isScalar hscalar] at h
    rw [Schema.viewSpelling_of_not_isScalar hscalar, h] at hstored
    obtain rfl := Except.ok.inj hstored
    rw [Field.readText, Field.absentLiteral, if_neg (Bool.eq_false_iff.mp hscalar), SlotRead.text]
    cases hshape : f.type.storage with
    | value => exact absurd hshape (TypeRef.storage_ne_value hscalar)
    | inlineStruct | offset => simp only [String.reduceAppend, String.append_empty]

private theorem mutator_text_eq {mutator : TableMutator}
    (hmutator : TableAccessor.mutatorOf s f = .ok mutator) :
    ∃ type value, IsConverted ("_" ++ f.name) value ∧
      mutator.text = f.changeHead type ++ " \x7b " ++ f.changeText spelling value ++ " \x7d" := by
  rw [TableAccessor.mutatorOf] at hmutator
  cases hscalar : f.type.isScalar with
  | true =>
    rw [if_pos hscalar] at hmutator
    obtain ⟨type, -, hmutator⟩ := Attempt.bind_eq_ok.mp hmutator
    obtain ⟨conversion, -, hmutator⟩ := Attempt.bind_eq_ok.mp hmutator
    obtain rfl := Attempt.pure_eq_ok.mp hmutator
    refine ⟨type, converted conversion ("_" ++ f.name), isConverted_converted _ _, ?_⟩
    rw [Field.changeHead, Field.changeText, TypeRef.storage_eq_value_iff.mpr hscalar,
      TableMutator.text, oneLine]
  | false =>
    rw [Schema.storedSpelling_of_not_isScalar hscalar] at h
    rw [if_neg (Bool.eq_false_iff.mp hscalar)] at hmutator
    obtain ⟨type, htype, hmutator⟩ := Attempt.bind_eq_ok.mp hmutator
    obtain rfl := Attempt.pure_eq_ok.mp hmutator
    rw [Schema.viewSpelling_of_not_isScalar hscalar, h] at htype
    obtain rfl := Except.ok.inj htype
    refine ⟨spelling ++ " *", "_" ++ f.name, .inl rfl, ?_⟩
    rw [Field.changeHead, Field.changeText, TableMutator.text, oneLine, SlotRead.text]
    cases hshape : f.type.storage with
    | value => exact absurd hshape (TypeRef.storage_ne_value hscalar)
    | inlineStruct | offset =>
      simp only [String.reduceAppend, String.append_empty, String.empty_append]

private theorem map_mutator_text_eq {mutator : Option TableMutator}
    (hmutator : (if options.mutableBuffer then some <$> TableAccessor.mutatorOf s f
      else pure none) = .ok mutator) :
    ∃ type value, IsConverted ("_" ++ f.name) value ∧ mutator.map TableMutator.text =
      if options.mutableBuffer then
        some (f.changeHead type ++ " \x7b " ++ f.changeText spelling value ++ " \x7d")
      else none := by
  by_cases hmutable : options.mutableBuffer = true
  · rw [if_pos hmutable] at hmutator
    obtain ⟨m, hm, rfl⟩ := Attempt.map_eq_ok.mp hmutator
    obtain ⟨type, value, hvalue, htext⟩ := mutator_text_eq h hm
    refine ⟨type, value, hvalue, ?_⟩
    rw [if_pos hmutable, ← htext]
    rfl
  · rw [if_neg hmutable] at hmutator
    obtain rfl := Attempt.pure_eq_ok.mp hmutator
    exact ⟨"", "_" ++ f.name, .inl rfl, (if_neg hmutable).symm⟩

private theorem sizeSpelling_eq : s.sizeSpelling f.type = .ok (f.checkedType spelling) := by
  rw [Field.checkedType]
  cases htype : f.type with
  | scalar kind enumName =>
    rw [htype] at h
    exact h
  | bool =>
    rw [htype] at h
    exact h
  | aggregate target fixed =>
    cases fixed with
    | true =>
      rw [htype] at h
      exact h
    | false => rfl
  | string | vector element | union tagEnum => rfl

private theorem setter_line_eq {setter : Setter} (hsetter : Setter.ofField s f = .ok setter)
    (table : String) : ∃ type value, IsConverted f.name value ∧ setter.line table =
      "  void add_" ++ f.name ++ "(" ++ type ++ f.name ++ ") \x7b " ++
        f.addText spelling table value ++ " \x7d" := by
  obtain ⟨stored, conversion, type, hstored, -, -, rfl⟩ := Setter.of_ofField_eq_ok hsetter
  refine ⟨type, converted conversion f.name, isConverted_converted _ _, ?_⟩
  cases hscalar : f.type.isScalar with
  | true =>
    obtain rfl := Schema.storedSpelling_of_isScalar hscalar h
    rw [if_pos hscalar, Schema.wireSpelling_of_isScalar hscalar, String.append_empty] at hstored
    obtain rfl := Except.ok.inj hstored
    rw [Setter.line, oneLine, Field.addText, Field.absentLiteral, if_pos hscalar,
      TypeRef.storage_eq_value_iff.mpr hscalar, ← String.toList_inj]
    simp
  | false =>
    rw [if_neg (Bool.eq_false_iff.mp hscalar)] at hstored
    obtain rfl := Except.ok.inj hstored
    rw [Setter.line, oneLine, Field.addText, Field.absentLiteral,
      if_neg (Bool.eq_false_iff.mp hscalar), ← String.toList_inj]
    cases hshape : f.type.storage with
    | value => exact absurd hshape (TypeRef.storage_ne_value hscalar)
    | inlineStruct | offset => simp

end parts

/-! ## One part for each field -/

section keys

variable {α β κ : Type} {R : α → β → Prop} {key : α → κ} {key' : β → κ} {xs : List α} {ys : List β}

private theorem map_eq_map_of_forall₂ (h : List.Forall₂ R xs ys)
    (hkey : ∀ x y, R x y → key' y = key x) : xs.map key = ys.map key' := by
  induction h with
  | nil => rfl
  | cons hxy _ ih => rw [List.map_cons, List.map_cons, hkey _ _ hxy, ih]

/-- Where parts are made one by one, and no two of their sources have the same key, there is one
part for the key of a source. -/
private theorem exists_filter_eq_singleton [DecidableEq κ] (h : List.Forall₂ R xs ys)
    (hkey : ∀ x y, R x y → key' y = key x) (hnodup : (xs.map key).Nodup) {x : α} (hx : x ∈ xs) :
    ∃ y, R x y ∧ ys.filter (fun y ↦ key' y = key x) = [y] := by
  induction h with
  | nil => exact absurd hx List.not_mem_nil
  | @cons x' y' xs ys hxy hrest ih =>
    obtain ⟨hfresh, hnodup⟩ := List.nodup_cons.mp hnodup
    rcases List.mem_cons.mp hx with rfl | hx
    · -- a later part with this key would be that of a later source with this key
      have hnone : ys.filter (fun y ↦ key' y = key x) = [] := by
        rw [List.filter_eq_nil_iff]
        intro y hy hyx
        rw [map_eq_map_of_forall₂ hrest hkey, ← of_decide_eq_true hyx] at hfresh
        exact hfresh (List.mem_map_of_mem hy)
      refine ⟨y', hxy, ?_⟩
      rw [List.filter_cons, if_pos (decide_eq_true (hkey x y' hxy)), hnone]
    · obtain ⟨y, hxy', hfilter⟩ := ih hnodup hx
      have hne : key' y' ≠ key x := by
        rw [hkey x' y' hxy]
        exact fun heq ↦ hfresh (heq ▸ List.mem_map_of_mem hx)
      refine ⟨y, hxy', ?_⟩
      rw [List.filter_cons, if_neg (mt of_decide_eq_true hne), hfilter]

private theorem filter_map_eq_singleton [DecidableEq κ] (part : α → β)
    (hkey : ∀ x, key' (part x) = key x) (hnodup : (xs.map key).Nodup) {x : α} (hx : x ∈ xs) :
    (xs.map part).filter (fun y ↦ key' y = key x) = [part x] := by
  have hparts : List.Forall₂ (fun x y ↦ y = part x) xs (xs.map part) :=
    List.forall₂_map_right_iff.mpr (List.forall₂_same.mpr fun _ _ ↦ rfl)
  obtain ⟨y, rfl, hfilter⟩ := exists_filter_eq_singleton hparts
    (fun x _ hy ↦ hy ▸ hkey x) hnodup hx
  exact hfilter

private theorem mem_of_filter_eq_singleton {p : β → Bool} {y : β} (h : ys.filter p = [y]) :
    y ∈ ys :=
  List.mem_of_mem_filter (h ▸ List.mem_singleton_self y)

end keys

namespace TableFragment

/-- One accessor of the view names the constant of the field. The view has the function that reads
the field by its shape and, where buffers may be changed, the one that changes it. -/
def Reads (t : TableFragment) (options : Options) (f : Field) (spelling : String) : Prop :=
  ∃ accessor,
    t.accessors.filter (fun accessor ↦ accessor.read.slot = slotConstant f.name) = [accessor] ∧
    accessor.lines ⊆ t.viewLines ∧
    (∃ type value, IsConverted (f.readText spelling) value ∧
      accessor.reader = type ++ f.name ++ "() const \x7b return " ++ value ++ "; \x7d" ∧
      "  " ++ accessor.reader ∈ t.viewLines) ∧
    ∃ type value, IsConverted ("_" ++ f.name) value ∧
      (accessor.mutator.map TableMutator.text =
        if options.mutableBuffer then
          some (f.changeHead type ++ " \x7b " ++ f.changeText spelling value ++ " \x7d")
        else none) ∧
      (options.mutableBuffer = true →
        "  " ++ (f.changeHead type ++ " \x7b " ++ f.changeText spelling value ++ " \x7d") ∈
          t.viewLines)

/-- One check of the view's verifier names the constant of the field. -/
def Verifies (t : TableFragment) (f : Field) (spelling : String) : Prop :=
  ∃ check before after,
    t.checks.filter (fun check ↦ check.constant? = some (slotConstant f.name)) = [check] ∧
    check.text = f.checkText spelling ∧ before ++ check.text ++ after ∈ t.viewLines

/-- One setter of the builder names the constant of the field. -/
def Adds (t : TableFragment) (f : Field) (spelling : String) : Prop :=
  ∃ setter type value,
    t.setters.filter (fun setter ↦ setter.slot = slotConstant f.name) = [setter] ∧
    IsConverted f.name value ∧
    setter.line t.name = "  void add_" ++ f.name ++ "(" ++ type ++ f.name ++ ") \x7b " ++
      f.addText spelling t.name value ++ " \x7d" ∧
    setter.line t.name ∈ t.builderLines

/-- One parameter of the function that creates a table at once has the name of the field. -/
def Takes (t : TableFragment) (f : Field) : Prop :=
  ∃ parameter after,
    t.parameters.filter (fun parameter ↦ parameter.field = f.name) = [parameter] ∧
    "   " ++ parameter.type ++ f.name ++ " = " ++ parameter.default ++ after ∈ t.createLines

/-- Reader, writer and verifier of a table agree on a field that is stored as `spelling`. -/
structure AgreesOn (t : TableFragment) (options : Options) (f : Field) (spelling : String) :
    Prop where
  constant : slotConstant f.name = "VT_" ++ uppercase f.name
  /-- The view binds the constant once, to the slot. -/
  slot : t.slots.filter (fun slot ↦ slot.1 = slotConstant f.name) =
      [(slotConstant f.name, f.slot)] ∧
    "    " ++ slotConstant f.name ++ " = " ++ toString f.slot.toNat ++ "," ∈ t.viewLines
  reads : t.Reads options f spelling
  verifies : t.Verifies f spelling
  adds : t.Adds f spelling
  /-- The constant is required once if the field is, and not at all if it is not. -/
  required : t.required.filter (fun name ↦ slotConstant name = slotConstant f.name) =
      (if f.required then [f.name] else []) ∧
    (f.required = true → "    fbb_.Required(o, " ++ t.name ++ "::" ++ slotConstant f.name ++
      ");  // " ++ f.name ∈ t.builderLines)
  takes : t.Takes f
  /-- Creation adds the field once, from the parameter of its name. -/
  order : t.order.filter (fun name ↦ name = f.name) = [f.name] ∧
    "  builder_.add_" ++ f.name ++ "(" ++ f.name ++ ");" ∈ t.createLines

/-- The lists of lines that a table has for its fields: the constants of all of them, those that
are required, and those that creation adds. -/
structure ListsFields (t : TableFragment) (a : Aggregate) : Prop where
  slots : ∃ before after, t.viewLines = before ++ ["  enum \x7b"] ++
    a.liveFields.map (fun f ↦ "    " ++ ("VT_" ++ uppercase f.name) ++ " = " ++
      toString f.slot.toNat ++ ",") ++ ["  \x7d;"] ++ after
  required : ∃ before after, t.builderLines = before ++
    ["    auto o = " ++ ("flatbuffers::Offset<" ++ a.name ++ ">") ++ "(fbb_.EndTable(start_, " ++
      toString a.fields.length ++ "));"] ++
    (a.liveFields.filter (·.required)).map (fun f ↦ "    fbb_.Required(o, " ++ a.name ++ "::" ++
      ("VT_" ++ uppercase f.name) ++ ");  // " ++ f.name) ++ ["    return o;"] ++ after
  adds : ∃ before after, t.createLines = before ++
    ["  " ++ a.name ++ "Builder builder_(_fbb);"] ++
    a.createOrder.map (fun f ↦ "  builder_.add_" ++ f.name ++ "(" ++ f.name ++ ");") ++
    ["  return builder_.Finish();"] ++ after

end TableFragment

/-! ## Every field of a table -/

section table

variable {t : TableFragment}

theorem slotConstant_injective {name name' : String} (h : slotConstant name = slotConstant name') :
    uppercase name = uppercase name' :=
  (String.append_right_inj "VT_").mp h

private theorem filter_required_eq {fields : List Field}
    (hnodup : (fields.map fun f ↦ slotConstant f.name).Nodup) (hf : f ∈ fields) :
    ((fields.filter (·.required)).map (·.name)).filter
        (fun name ↦ slotConstant name = slotConstant f.name) =
      if f.required then [f.name] else [] := by
  by_cases hrequired : f.required = true
  · have hsub := (List.filter_sublist (p := Field.required) (l := fields)).map
      fun f ↦ slotConstant f.name
    rw [if_pos hrequired]
    exact filter_map_eq_singleton Field.name (fun _ ↦ rfl) (hnodup.sublist hsub)
      (List.mem_filter.mpr ⟨hf, hrequired⟩)
  · -- the constant of a required field is that of no other field
    rw [if_neg hrequired, List.filter_eq_nil_iff]
    intro name hname heq
    obtain ⟨g, hg, rfl⟩ := List.mem_map.mp hname
    obtain ⟨hg, hgrequired⟩ := List.mem_filter.mp hg
    have hgf : g = f := List.inj_on_of_nodup_map hnodup hg hf (of_decide_eq_true heq)
    exact hrequired (hgf ▸ hgrequired)

/-- Of the checks of fields, those that name a constant are one for each field. -/
private theorem exists_slotChecks {fields : List Field} {checks : List (List Check)}
    (h : List.Forall₂ (fun f x ↦ Check.ofField s f = .ok x) fields checks) :
    ∃ slotChecks, List.Forall₂ (fun f c ↦ ∃ type, s.sizeSpelling f.type = .ok type ∧
        c = .slot f.required type (slotConstant f.name)) fields slotChecks ∧
      ∀ constant : String, checks.flatten.filter (fun c ↦ c.constant? = some constant) =
        slotChecks.filter fun c ↦ c.constant? = some constant := by
  induction h with
  | nil => exact ⟨[], .nil, fun _ ↦ rfl⟩
  | @cons f x fields checks hx _ ih =>
    obtain ⟨type, content, htype, hcontent, rfl⟩ := Check.of_ofField_eq_ok hx
    obtain ⟨slotChecks, hslots, hfilter⟩ := ih
    refine ⟨.slot f.required type (slotConstant f.name) :: slotChecks,
      .cons ⟨type, htype, rfl⟩ hslots, fun constant ↦ ?_⟩
    -- what a slot leads to is checked through the accessor of the field
    have hnone : content.filter (fun c ↦ c.constant? = some constant) = [] := by
      rw [List.filter_eq_nil_iff]
      intro c hc
      rw [Check.constant?_of_ofContent hcontent c hc]
      exact of_decide_eq_false rfl
    rw [List.flatten_cons, List.cons_append, List.filter_cons, List.filter_cons,
      List.filter_append, hnone, List.nil_append, hfilter]

private theorem TableFragment.reads
    (hparts : List.Forall₂ (fun f x ↦ TableAccessor.ofField s options a f = .ok x)
      a.liveFields t.accessors)
    (hnodup : (a.liveFields.map fun f ↦ slotConstant f.name).Nodup) (hf : f ∈ a.liveFields)
    (h : s.storedSpelling f.type = .ok spelling) : t.Reads options f spelling := by
  have hkey (f : Field) (accessor : TableAccessor)
      (haccessor : TableAccessor.ofField s options a f = .ok accessor) :
      accessor.read.slot = slotConstant f.name := by
    obtain ⟨_, _, _, _, _, -, -, -, -, -, rfl⟩ := TableAccessor.of_ofField_eq_ok haccessor
    rfl
  obtain ⟨accessor, haccessor, hfilter⟩ := exists_filter_eq_singleton hparts hkey hnodup hf
  have hmem := mem_of_filter_eq_singleton hfilter
  obtain ⟨stored, type, conversion, mutator, key, hstored, -, -, hmutator, -, rfl⟩ :=
    TableAccessor.of_ofField_eq_ok haccessor
  obtain ⟨type', value, hvalue, htext⟩ := map_mutator_text_eq h hmutator
  refine ⟨_, hfilter, TableFragment.accessorLines_subset hmem,
    ⟨type, _, isConverted_converted conversion _, ?_, TableFragment.readerLine_mem hmem⟩,
    type', value, hvalue, htext, fun hmutable ↦ ?_⟩
  · rw [TableAccessor.reader, oneLine, read_text_eq h hstored, ← String.toList_inj]
    simp
  · rw [if_pos hmutable] at htext
    exact TableFragment.mutatorLine_mem hmem htext

private theorem TableFragment.verifies {checks : List (List Check)}
    (hparts : List.Forall₂ (fun f x ↦ Check.ofField s f = .ok x) a.liveFields checks)
    (hchecks : t.checks = .tableStart :: checks.flatten ++ [.tableEnd])
    (hnodup : (a.liveFields.map fun f ↦ slotConstant f.name).Nodup) (hf : f ∈ a.liveFields)
    (h : s.storedSpelling f.type = .ok spelling) : t.Verifies f spelling := by
  obtain ⟨slotChecks, hparts, hslotChecks⟩ := exists_slotChecks hparts
  have hkey (f : Field) (c : Check) (hc : ∃ type, s.sizeSpelling f.type = .ok type ∧
      c = .slot f.required type (slotConstant f.name)) :
      c.constant? = some (slotConstant f.name) := by
    obtain ⟨type, -, rfl⟩ := hc
    rfl
  have hnodup : (a.liveFields.map fun f ↦ some (slotConstant f.name)).Nodup :=
    nodup_map_of_imp hnodup fun _ _ heq ↦ Option.some.inj heq
  obtain ⟨check, ⟨type, htype, rfl⟩, hfilter⟩ := exists_filter_eq_singleton hparts hkey hnodup hf
  rw [sizeSpelling_eq h] at htype
  obtain rfl := Except.ok.inj htype
  -- the first and the last check of a verifier are about the table as a whole
  have hall : t.checks.filter (fun check ↦ check.constant? = some (slotConstant f.name)) =
      [.slot f.required (f.checkedType spelling) (slotConstant f.name)] := by
    rw [hchecks, List.filter_append, List.filter_cons, hslotChecks, hfilter]
    rfl
  obtain ⟨before, after, hline⟩ := TableFragment.checkLine_mem (mem_of_filter_eq_singleton hall)
  exact ⟨_, before, after, hall, rfl, hline⟩

private theorem TableFragment.adds
    (hparts : List.Forall₂ (fun f x ↦ Setter.ofField s f = .ok x) a.liveFields t.setters)
    (hnodup : (a.liveFields.map fun f ↦ slotConstant f.name).Nodup) (hf : f ∈ a.liveFields)
    (h : s.storedSpelling f.type = .ok spelling) : t.Adds f spelling := by
  have hkey (f : Field) (setter : Setter) (hsetter : Setter.ofField s f = .ok setter) :
      setter.slot = slotConstant f.name := by
    obtain ⟨_, _, _, -, -, -, rfl⟩ := Setter.of_ofField_eq_ok hsetter
    rfl
  obtain ⟨setter, hsetter, hfilter⟩ := exists_filter_eq_singleton hparts hkey hnodup hf
  obtain ⟨type, value, hvalue, hline⟩ := setter_line_eq h hsetter t.name
  exact ⟨setter, type, value, hfilter, hvalue, hline,
    TableFragment.setterLine_mem (mem_of_filter_eq_singleton hfilter)⟩

private theorem TableFragment.takes
    (hparts : List.Forall₂ (fun f x ↦ CreateParameter.ofField s options f = .ok x)
      a.liveFields t.parameters)
    (hnodup : (a.liveFields.map Field.name).Nodup) (hf : f ∈ a.liveFields) : t.Takes f := by
  have hkey (f : Field) (parameter : CreateParameter)
      (hparameter : CreateParameter.ofField s options f = .ok parameter) :
      parameter.field = f.name := by
    obtain ⟨_, _, -, -, rfl⟩ := CreateParameter.of_ofField_eq_ok hparameter
    rfl
  obtain ⟨parameter, hparameter, hfilter⟩ := exists_filter_eq_singleton hparts hkey hnodup hf
  obtain ⟨after, hline⟩ :=
    TableFragment.parameterLine_mem (mem_of_filter_eq_singleton hfilter)
  rw [hkey f parameter hparameter] at hline
  exact ⟨parameter, after, hfilter, hline⟩

/-- The order of creation is that of the fields up to a permutation, and a permutation leaves one
element where there was one. -/
private theorem filter_order_eq (hnodup : (a.liveFields.map Field.name).Nodup)
    (hf : f ∈ a.liveFields) :
    (a.createOrder.map Field.name).filter (fun name ↦ name = f.name) = [f.name] := by
  have hfilter : (a.liveFields.map Field.name).filter (fun name ↦ name = f.name) = [f.name] :=
    filter_map_eq_singleton Field.name (fun _ ↦ rfl) hnodup hf
  have hperm := (a.createOrder_perm.map Field.name).filter fun name ↦ name = f.name
  rw [hfilter] at hperm
  exact List.perm_singleton.mp hperm

theorem TableFragment.listsFields (ht : TableFragment.ofAggregate s options a = .ok t) :
    t.ListsFields a := by
  obtain ⟨-, -, -, -, -, -, hname, hslots, -, hcount, hrequired, horder⟩ :=
    TableFragment.of_ofAggregate_eq_ok ht
  have hview := t.exists_viewLines
  have hbuilder := t.exists_builderLines_required
  have hcreate := t.exists_createLines_order
  rw [hslots, List.map_map] at hview
  rw [hrequired, List.map_map, hname, hcount] at hbuilder
  rw [horder, List.map_map, hname] at hcreate
  exact ⟨hview, hbuilder, hcreate⟩

theorem TableFragment.agreesOn (ht : TableFragment.ofAggregate s options a = .ok t)
    (hnames : (a.liveFields.map fun f ↦ uppercase f.name).Nodup) (hf : f ∈ a.liveFields)
    (h : s.storedSpelling f.type = .ok spelling) : t.AgreesOn options f spelling := by
  obtain ⟨checks, haccessors, hchecks, hsetters, hparameters, -, -, hslots, hcheck, -, hrequired,
    horder⟩ := TableFragment.of_ofAggregate_eq_ok ht
  have hconstants : (a.liveFields.map fun f ↦ slotConstant f.name).Nodup :=
    nodup_map_of_imp hnames fun _ _ heq ↦ slotConstant_injective heq
  have hfields : (a.liveFields.map Field.name).Nodup :=
    nodup_map_of_imp hnames fun _ _ heq ↦ congrArg uppercase heq
  have hslot : (a.liveFields.map fun f ↦ (slotConstant f.name, f.slot)).filter
      (fun slot ↦ slot.1 = slotConstant f.name) = [(slotConstant f.name, f.slot)] :=
    filter_map_eq_singleton (fun f : Field ↦ (slotConstant f.name, f.slot)) (fun _ ↦ rfl)
      hconstants hf
  have hrequireds := filter_required_eq hconstants hf
  have horders := filter_order_eq hfields hf
  rw [← hslots] at hslot
  rw [← hrequired] at hrequireds
  rw [← horder] at horders
  refine
    { constant := rfl
      slot := ⟨hslot, slotLine_mem (mem_of_filter_eq_singleton hslot)⟩
      reads := reads haccessors hconstants hf h
      verifies := verifies hchecks hcheck hconstants hf h
      adds := adds hsetters hconstants hf h
      required := ⟨hrequireds, fun hrequired ↦ requiredLine_mem ?_⟩
      takes := takes hparameters hfields hf
      order := ⟨horders, addLine_mem (mem_of_filter_eq_singleton horders)⟩ }
  rw [if_pos hrequired] at hrequireds
  exact mem_of_filter_eq_singleton hrequireds

end table

/-- **Agreement on fields.** In a table of a loaded schema whose live fields have different
constants, the view, the verifier and the builder agree on every live field: they name its one
constant, store it in one shape and by one spelling, and with one default. -/
theorem tables_agree_on_fields {d : Document} (h : Schema.ofDocument d = .ok s)
    (ha : a ∈ s.aggregates.values) (hnames : (a.liveFields.map fun f ↦ uppercase f.name).Nodup)
    (options : Options) :
    ∃ t, TableFragment.ofAggregate s options a = .ok t ∧
      s.tableText options a = .ok (unlines (t.viewLines ++ t.builderLines ++ t.createLines)) ∧
      t.ListsFields a ∧ ∀ f ∈ a.liveFields, ∃ spelling, s.storedSpelling f.type = .ok spelling ∧
        t.AgreesOn options f spelling := by
  have hsound := Schema.sound_of_ofDocument h
  obtain ⟨t, ht⟩ : Succeeds (TableFragment.ofAggregate s options a) := hsound.succeeds_ofTable ha
  refine ⟨t, ht, by rw [Schema.tableText, ht]; rfl, TableFragment.listsFields ht, fun f hf ↦ ?_⟩
  -- a value is spelled without a look at the schema, and what is pointed to was checked on loading
  obtain ⟨spelling, hspelling⟩ : Succeeds (s.storedSpelling f.type) := by
    cases hscalar : f.type.isScalar with
    | true =>
      rw [Schema.storedSpelling, TypeRef.storage_eq_value_iff.mpr hscalar]
      exact Attempt.succeeds_pure _
    | false =>
      rw [Schema.storedSpelling_of_not_isScalar hscalar, Schema.succeeds_pointee]
      exact (hsound.spells ha (List.mem_of_mem_filter hf)).1.2
  exact ⟨spelling, hspelling, TableFragment.agreesOn ht hnames hf hspelling⟩

/-- A table with a field of each shape and a deprecated one. -/
def shapesTable : Aggregate where
  name := "Shot"
  scope := 1
  fixed := false
  fields :=
    [⟨"kind", .scalar .utype (some "Game.Any"), 4, "1", false, false, false, 0, none, []⟩,
      ⟨"leaf", .aggregate "Game.Leaf" true, 6, "0", false, false, false, 0, none, []⟩,
      ⟨"nodes", .vector (.aggregate "Base.Node" false), 8, "0", false, true, false, 0, none, []⟩,
      ⟨"kind", .bool, 10, "0", true, true, false, 0, none, []⟩]
  byteSize := 0
  minAlign := 1
  sortBySize := true
  doc := []
  generated := false

theorem tables_agree_on_fields_shapes : ∃ s t,
    Schema.ofDocument
      { mutualDocument with aggregates := shapesTable :: mutualDocument.aggregates } = .ok s ∧
    TableFragment.ofAggregate s { mutableBuffer := true } shapesTable = .ok t ∧
    (t.setters.map (·.stored)) = [some "uint8_t", none, none] ∧
    ∀ f ∈ shapesTable.liveFields, ∃ spelling, t.AgreesOn { mutableBuffer := true } f spelling := by
  have hnames : (shapesTable.liveFields.map fun f ↦ uppercase f.name).Nodup := by decide
  obtain ⟨t, ht, -, -, hagrees⟩ := tables_agree_on_fields
    (d := { mutualDocument with aggregates := shapesTable :: mutualDocument.aggregates }) rfl
    List.mem_cons_self hnames { mutableBuffer := true }
  refine ⟨_, t, rfl, ht, ?_, fun f hf ↦ ?_⟩
  · obtain rfl := Except.ok.inj ht
    rfl
  · obtain ⟨spelling, -, h⟩ := hagrees f hf
    exact ⟨spelling, h⟩

end BufferSchema
