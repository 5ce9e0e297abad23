import BufferSchema.Header.Table
import BufferSchema.Proofs.Attempt
import BufferSchema.Proofs.Header.Spelling

/-!
# The parts of a table

What an emitted table is made of: for each part of the fragment, the values it was put together
from. Later files read the parts through these statements and do not open the emitters.

The spellings that storage depends on are given in closed form: what callers do not see is spelled
without a look at enumerations.
-/

namespace BufferSchema

variable {s : Schema} {options : Options} {a : Aggregate} {f : Field}

/-! ## Spellings of storage -/

theorem TypeRef.storage_eq_value_iff {type : TypeRef} :
    type.storage = .value ↔ type.isScalar = true := by
  cases type with
  | aggregate target fixed => cases fixed <;> exact iff_of_false nofun nofun
  | scalar kind enumName | bool => exact iff_of_true rfl rfl
  | string | vector element | union tagEnum => exact iff_of_false nofun nofun

theorem TypeRef.storage_ne_value {type : TypeRef} (h : type.isScalar = false) :
    type.storage ≠ .value :=
  mt storage_eq_value_iff.mp (Bool.eq_false_iff.mp h)

namespace Schema

variable {type : TypeRef}

theorem viewSpelling_of_isScalar {afterValue before after : String} (h : type.isScalar = true) :
    s.viewSpelling afterValue before after false type =
      .ok (type.storageSpelling ++ afterValue) := by
  rw [viewSpelling, if_pos h]
  rfl

theorem viewSpelling_of_not_isScalar {afterValue before after : String} {userFacing : Bool}
    (h : type.isScalar = false) : s.viewSpelling afterValue before after userFacing type =
      (fun pointee ↦ before ++ pointee ++ after) <$> s.pointee type := by
  rw [viewSpelling, if_neg (Bool.eq_false_iff.mp h), bind_pure_comp]

theorem wireSpelling_of_isScalar {behind : String} (h : type.isScalar = true) :
    s.wireSpelling behind false type = .ok (type.storageSpelling ++ behind) := by
  rw [wireSpelling, if_pos h]
  rfl

theorem wireSpelling_of_not_isScalar {behind : String} {userFacing : Bool}
    (h : type.isScalar = false) : s.wireSpelling behind userFacing type =
      (fun pointee ↦ type.storedAs pointee behind) <$> s.pointee type := by
  rw [wireSpelling, if_neg (Bool.eq_false_iff.mp h), bind_pure_comp]

end Schema

/-! ## Accessors -/

theorem TableAccessor.of_ofField_eq_ok {accessor : TableAccessor}
    (h : TableAccessor.ofField s options a f = .ok accessor) :
    ∃ stored type conversion mutator key,
      s.viewSpelling "" "const " " *" false f.type = .ok stored ∧
      s.viewSpelling " " "const " " *" true f.type = .ok type ∧
      s.conversion true f.type = .ok conversion ∧
      (if options.mutableBuffer then some <$> mutatorOf s f else pure none) = .ok mutator ∧
      (if f.key then some <$> keyOf s options a f else pure none) = .ok key ∧
      accessor =
        { doc := f.doc, field := f.name, type, conversion
          read := ⟨f.type.storage, stored, slotConstant f.name, f.absentLiteral⟩
          mutator
          nestedRoot := f.nestedRoot.map fun name ↦
            scopedName (s.activeNamespace.qualifiedName name)
          key } := by
  rw [TableAccessor.ofField] at h
  obtain ⟨stored, hstored, h⟩ := Attempt.bind_eq_ok.mp h
  obtain ⟨type, htype, h⟩ := Attempt.bind_eq_ok.mp h
  obtain ⟨conversion, hconversion, h⟩ := Attempt.bind_eq_ok.mp h
  obtain ⟨mutator, hmutator, h⟩ := Attempt.ite_bind_eq_ok.mp h
  obtain ⟨key, hkey, h⟩ := Attempt.ite_bind_eq_ok.mp h
  exact ⟨stored, type, conversion, mutator, key, hstored, htype, hconversion, hmutator, hkey,
    (Attempt.pure_eq_ok.mp h).symm⟩

/-! ## Checks -/

/-- The constant that a check of a slot names. -/
def Check.constant? : Check → Option String
  | .slot _ _ constant => some constant
  | .tableStart | .content _ | .textsOf _ | .tablesOf _ | .table _ | .union _ _ | .tableEnd => none

theorem Check.constant?_of_ofContent {field : String} {type : TypeRef} {checks : List Check}
    (h : Check.ofContent s field type = .ok checks) : ∀ c ∈ checks, c.constant? = none := by
  unfold Check.ofContent at h
  split at h
  · obtain ⟨decl, -, h⟩ := Attempt.bind_eq_ok.mp h
    obtain ⟨dispatcher, -, h⟩ := Attempt.bind_eq_ok.mp h
    obtain rfl := Attempt.pure_eq_ok.mp h
    simp [constant?]
  all_goals
    obtain rfl := Attempt.pure_eq_ok.mp h
    simp [constant?]

theorem Check.of_ofField_eq_ok {checks : List Check} (h : Check.ofField s f = .ok checks) :
    ∃ type content, s.sizeSpelling f.type = .ok type ∧
      Check.ofContent s f.name f.type = .ok content ∧
      checks = .slot f.required type (slotConstant f.name) :: content := by
  rw [Check.ofField] at h
  obtain ⟨type, htype, h⟩ := Attempt.bind_eq_ok.mp h
  obtain ⟨content, hcontent, h⟩ := Attempt.bind_eq_ok.mp h
  exact ⟨type, content, htype, hcontent, (Attempt.pure_eq_ok.mp h).symm⟩

/-! ## Setters and parameters -/

theorem Setter.of_ofField_eq_ok {setter : Setter} (h : Setter.ofField s f = .ok setter) :
    ∃ stored conversion type,
      (if f.type.isScalar then some <$> s.wireSpelling "" false f.type else pure none) =
        .ok stored ∧
      s.conversion false f.type = .ok conversion ∧
      s.wireSpelling " " true f.type = .ok type ∧
      setter =
        { field := f.name, type, storage := f.type.storage, stored
          slot := slotConstant f.name, conversion
          default := f.absentLiteral } := by
  rw [Setter.ofField] at h
  obtain ⟨stored, hstored, h⟩ := Attempt.ite_bind_eq_ok.mp h
  obtain ⟨conversion, hconversion, h⟩ := Attempt.bind_eq_ok.mp h
  obtain ⟨type, htype, h⟩ := Attempt.bind_eq_ok.mp h
  exact ⟨stored, conversion, type, hstored, hconversion, htype, (Attempt.pure_eq_ok.mp h).symm⟩

theorem CreateParameter.of_ofField_eq_ok {parameter : CreateParameter}
    (h : CreateParameter.ofField s options f = .ok parameter) :
    ∃ type default, s.wireSpelling " " true f.type = .ok type ∧
      CreateParameter.defaultOf s options f = .ok default ∧
      parameter = ⟨type, f.name, default⟩ := by
  rw [CreateParameter.ofField] at h
  obtain ⟨type, htype, h⟩ := Attempt.bind_eq_ok.mp h
  obtain ⟨default, hdefault, h⟩ := Attempt.bind_eq_ok.mp h
  exact ⟨type, default, htype, hdefault, (Attempt.pure_eq_ok.mp h).symm⟩

/-! ## Values that callers see converted -/

/-- Whether values of a type look different to callers and in storage. -/
def TypeRef.isConverted : TypeRef → Bool
  | .scalar _ (some _) | .bool => true
  | .scalar _ none | .string | .vector _ | .aggregate _ _ | .union _ => false

section converted

variable {type : TypeRef} {user : String}

theorem TypeRef.isScalar_of_isConverted (h : type.isConverted = true) : type.isScalar = true := by
  cases type with
  | scalar kind enumName => rfl
  | bool => rfl
  | string | vector element | aggregate target fixed | union tagEnum => exact nomatch h

theorem Schema.conversion_of_isConverted {toUser : Bool} (h : type.isConverted = true) :
    s.conversion toUser type = some <$> s.basicSpelling toUser type := by
  cases type with
  | scalar kind enumName =>
    cases enumName with
    | none => exact nomatch h
    | some name => rfl
  | bool => rfl
  | string | vector element | aggregate target fixed | union tagEnum => exact nomatch h

/-- The accessor reads what is stored and converts it to what callers see. -/
theorem TableAccessor.readerLine_of_isConverted (hconverted : f.type.isConverted = true)
    (huser : s.basicSpelling true f.type = .ok user) {accessor : TableAccessor}
    (h : TableAccessor.ofField s options a f = .ok accessor) :
    "  " ++ accessor.reader = "  " ++ user ++ " " ++ f.name ++
      "() const \x7b return static_cast<" ++ user ++ ">(GetField<" ++ f.type.storageSpelling ++
        ">(" ++ slotConstant f.name ++ ", " ++ f.defaultValue ++ ")); \x7d" := by
  obtain ⟨stored, type, conversion, mutator, key, hstored, htype, hconversion, -, -, rfl⟩ :=
    of_ofField_eq_ok h
  have hscalar := TypeRef.isScalar_of_isConverted hconverted
  rw [Schema.viewSpelling_of_isScalar hscalar] at hstored
  rw [Schema.viewSpelling, if_pos hscalar, huser] at htype
  rw [Schema.conversion_of_isConverted hconverted, huser] at hconversion
  obtain rfl := Except.ok.inj hstored
  obtain rfl := Except.ok.inj htype
  obtain rfl := Except.ok.inj hconversion
  rw [← String.toList_inj]
  simp [reader, oneLine, converted, SlotRead.text, Field.absentLiteral, hscalar,
    TypeRef.storage_eq_value_iff.mpr hscalar]

/-- The setter converts what callers give to what is stored. -/
theorem Setter.line_of_isConverted (hconverted : f.type.isConverted = true)
    (huser : s.basicSpelling true f.type = .ok user) {setter : Setter}
    (h : Setter.ofField s f = .ok setter) (tableName : String) :
    setter.line tableName = "  void add_" ++ f.name ++ "(" ++ user ++ " " ++ f.name ++
      ") \x7b fbb_.AddElement<" ++ f.type.storageSpelling ++ ">(" ++ tableName ++ "::" ++
        slotConstant f.name ++ ", static_cast<" ++ f.type.storageSpelling ++ ">(" ++ f.name ++
          "), " ++ f.defaultValue ++ "); \x7d" := by
  obtain ⟨stored, conversion, type, hstored, hconversion, htype, rfl⟩ := of_ofField_eq_ok h
  have hscalar := TypeRef.isScalar_of_isConverted hconverted
  rw [if_pos hscalar, Schema.wireSpelling_of_isScalar hscalar] at hstored
  rw [Schema.conversion_of_isConverted hconverted] at hconversion
  rw [Schema.wireSpelling, if_pos hscalar, huser] at htype
  obtain rfl := Except.ok.inj hstored
  obtain rfl := Except.ok.inj hconversion
  obtain rfl := Except.ok.inj htype
  rw [← String.toList_inj]
  simp [line, oneLine, converted, Field.absentLiteral, hscalar,
    TypeRef.storage_eq_value_iff.mpr hscalar]

end converted

/-! ## The order of creation -/

theorem TypeRef.slotWidth_mem_sortedWidths (type : TypeRef) : type.slotWidth ∈ sortedWidths := by
  cases type with
  | scalar kind enumName =>
    have hsize : kind.size ∈ sortedWidths := by cases kind <;> decide
    exact hsize
  | bool | string | vector element | aggregate target fixed | union tagEnum =>
    simp [slotWidth, sortedWidths]

/-- Sorting into classes keeps every element whose class is one of the list. -/
theorem flatMap_filter_perm {α β : Type} [DecidableEq β] {classOf : α → β}
    {classes : List β} {l : List α} (hnodup : classes.Nodup) (h : ∀ x ∈ l, classOf x ∈ classes) :
    (classes.flatMap fun c ↦ l.filter fun x ↦ classOf x = c).Perm l := by
  induction classes generalizing l with
  | nil =>
    obtain rfl : l = [] := List.eq_nil_iff_forall_not_mem.mpr fun x hx ↦ List.not_mem_nil (h x hx)
    exact .refl _
  | cons c classes ih =>
    obtain ⟨hc, hnodup⟩ := List.nodup_cons.mp hnodup
    -- the classes behind `c` find their elements among those that are not of the class `c`
    let others := l.filter fun x ↦ !decide (classOf x = c)
    have hothers : ∀ x ∈ others, classOf x ∈ classes := by
      intro x hx
      obtain ⟨hx, hne⟩ := List.mem_filter.mp hx
      exact (List.mem_cons.mp (h x hx)).resolve_left (by simpa using hne)
    have hsame : (classes.flatMap fun c' ↦ l.filter fun x ↦ classOf x = c') =
        classes.flatMap fun c' ↦ others.filter fun x ↦ classOf x = c' := by
      refine List.flatMap_congr fun c' hc' ↦ ?_
      rw [List.filter_filter]
      refine List.filter_congr fun x _ ↦ ?_
      by_cases hx : classOf x = c'
      · have hne : classOf x ≠ c := fun hxc ↦ hc (hxc ▸ hx ▸ hc')
        simp [hx, hx ▸ hne]
      · simp [hx]
    rw [List.flatMap_cons, hsame]
    exact ((ih hnodup hothers).append_left _).trans (List.filter_append_perm _ l)

/-- Creation adds every live field once. -/
theorem Aggregate.createOrder_perm (a : Aggregate) : a.createOrder.Perm a.liveFields := by
  rw [Aggregate.createOrder]
  by_cases h : a.sortBySize = true
  · rw [if_pos h]
    refine (flatMap_filter_perm (by decide) fun f _ ↦ ?_).trans a.liveFields.reverse_perm
    exact f.type.slotWidth_mem_sortedWidths
  · rw [if_neg h]
    exact a.liveFields.reverse_perm

/-! ## Tables -/

/-- An emitted table has one part of each kind for every live field, in their order. -/
theorem TableFragment.of_ofAggregate_eq_ok {t : TableFragment}
    (h : TableFragment.ofAggregate s options a = .ok t) :
    ∃ checks,
      List.Forall₂ (fun f x ↦ TableAccessor.ofField s options a f = .ok x)
        a.liveFields t.accessors ∧
      List.Forall₂ (fun f x ↦ Check.ofField s f = .ok x) a.liveFields checks ∧
      List.Forall₂ (fun f x ↦ Setter.ofField s f = .ok x) a.liveFields t.setters ∧
      List.Forall₂ (fun f x ↦ CreateParameter.ofField s options f = .ok x)
        a.liveFields t.parameters ∧
      t.doc = a.doc ∧ t.name = a.name ∧
      t.slots = (a.liveFields.map fun f ↦ (slotConstant f.name, f.slot)) ∧
      t.checks = .tableStart :: checks.flatten ++ [.tableEnd] ∧
      t.slotCount = a.fields.length ∧
      t.required = ((a.liveFields.filter (·.required)).map (·.name)) ∧
      t.order = a.createOrder.map (·.name) := by
  rw [TableFragment.ofAggregate] at h
  obtain ⟨accessors, haccessors, h⟩ := Attempt.bind_eq_ok.mp h
  obtain ⟨checks, hchecks, h⟩ := Attempt.bind_eq_ok.mp h
  obtain ⟨setters, hsetters, h⟩ := Attempt.bind_eq_ok.mp h
  obtain ⟨parameters, hparameters, h⟩ := Attempt.bind_eq_ok.mp h
  obtain rfl := Attempt.pure_eq_ok.mp h
  exact ⟨checks, Attempt.mapM_eq_ok.mp haccessors, Attempt.mapM_eq_ok.mp hchecks,
    Attempt.mapM_eq_ok.mp hsetters, Attempt.mapM_eq_ok.mp hparameters, rfl, rfl, rfl, rfl, rfl, rfl,
    rfl⟩

theorem TableFragment.name_of_ofAggregate {t : TableFragment}
    (h : TableFragment.ofAggregate s options a = .ok t) : t.name = a.name := by
  obtain ⟨-, -, -, -, -, -, hname, -⟩ := of_ofAggregate_eq_ok h
  exact hname

theorem TableFragment.exists_parts {t : TableFragment}
    (h : TableFragment.ofAggregate s options a = .ok t) (hf : f ∈ a.liveFields) :
    (∃ accessor ∈ t.accessors, TableAccessor.ofField s options a f = .ok accessor) ∧
      (∃ setter ∈ t.setters, Setter.ofField s f = .ok setter) ∧
      ∃ parameter ∈ t.parameters, CreateParameter.ofField s options f = .ok parameter := by
  obtain ⟨-, haccessors, -, hsetters, hparameters, -⟩ := of_ofAggregate_eq_ok h
  exact ⟨Attempt.exists_mem_right_of_forall₂ haccessors hf,
    Attempt.exists_mem_right_of_forall₂ hsetters hf,
    Attempt.exists_mem_right_of_forall₂ hparameters hf⟩

/-- The checks of a live field are among those of its table. -/
theorem TableFragment.exists_fieldChecks {t : TableFragment}
    (h : TableFragment.ofAggregate s options a = .ok t) (hf : f ∈ a.liveFields) :
    ∃ checks, Check.ofField s f = .ok checks ∧ checks ⊆ t.checks := by
  obtain ⟨checks, -, hparts, -, -, -, -, -, hchecks, -⟩ := of_ofAggregate_eq_ok h
  obtain ⟨fieldChecks, hmem, hfield⟩ := Attempt.exists_mem_right_of_forall₂ hparts hf
  refine ⟨fieldChecks, hfield, fun check hcheck ↦ ?_⟩
  rw [hchecks]
  exact List.mem_append_left _ (List.mem_cons_of_mem _ (List.mem_flatten_of_mem hmem hcheck))

/-! ## Lines

Every part of a fragment is written out in one of the three declarations of its table. -/

theorem mem_conjunctionLines {lead : String} {checks : List Check} {check : Check}
    (h : check ∈ checks) :
    ∃ before after, before ++ check.text ++ after ∈ conjunctionLines lead checks := by
  induction checks generalizing lead with
  | nil => exact absurd h List.not_mem_nil
  | cons c rest ih =>
    cases rest with
    | nil =>
      obtain rfl := List.mem_singleton.mp h
      exact ⟨lead, ";", List.mem_cons_self⟩
    | cons c' rest =>
      rw [conjunctionLines]
      · rcases List.mem_cons.mp h with rfl | h
        · exact ⟨lead, " &&", List.mem_cons_self⟩
        · obtain ⟨before, after, hline⟩ := ih h
          exact ⟨before, after, List.mem_cons_of_mem _ hline⟩
      · exact fun hnil ↦ nomatch hnil

theorem mem_punctuated_or {separator final text : String} {texts : List String}
    (h : text ∈ texts) : text ++ separator ∈ punctuated separator final texts ∨
      text ++ final ∈ punctuated separator final texts := by
  induction texts with
  | nil => exact absurd h List.not_mem_nil
  | cons text' rest ih =>
    cases rest with
    | nil =>
      obtain rfl := List.mem_singleton.mp h
      exact .inr List.mem_cons_self
    | cons text'' rest =>
      rw [punctuated]
      · rcases List.mem_cons.mp h with rfl | h
        · exact .inl List.mem_cons_self
        · exact (ih h).imp (List.mem_cons_of_mem _) (List.mem_cons_of_mem _)
      · exact List.cons_ne_nil _ _

namespace TableFragment

variable {t : TableFragment}

theorem exists_viewLines (t : TableFragment) : ∃ before after, t.viewLines =
    before ++ ["  enum \x7b"] ++
      (t.slots.map fun slot ↦ "    " ++ slot.1 ++ " = " ++ toString slot.2.toNat ++ ",") ++
      ["  \x7d;"] ++ after :=
  ⟨docLines "" t.doc ++
      ["struct " ++ t.name ++ " FLATBUFFERS_FINAL_CLASS : private flatbuffers::Table \x7b"],
    t.accessors.flatMap TableAccessor.lines ++
      ["  bool Verify(flatbuffers::Verifier &verifier) const \x7b"] ++
      conjunctionLines "    return " t.checks ++ ["  \x7d", "\x7d;", ""],
    by simp [viewLines]⟩

theorem exists_builderLines_required (t : TableFragment) : ∃ before after, t.builderLines =
    before ++
      ["    auto o = " ++ offsetTo t.name ++ "(fbb_.EndTable(start_, " ++ toString t.slotCount ++
        "));"] ++
      (t.required.map fun field ↦
        "    fbb_.Required(o, " ++ t.name ++ "::" ++ slotConstant field ++ ");  // " ++ field) ++
      ["    return o;"] ++ after := by
  let builder := t.name ++ "Builder"
  refine ⟨["struct " ++ builder ++ " \x7b", "  flatbuffers::FlatBufferBuilder &fbb_;",
      "  flatbuffers::uoffset_t start_;"] ++ t.setters.map (Setter.line t.name) ++
    ["  " ++ oneLine (builder ++ "(flatbuffers::FlatBufferBuilder &_fbb) : fbb_(_fbb)")
        "start_ = fbb_.StartTable();",
      "  " ++ builder ++ " &operator=(const " ++ builder ++ " &);",
      "  " ++ offsetTo t.name ++ " Finish() \x7b"], ["  \x7d", "\x7d;", ""], ?_⟩
  simp [builderLines, builder]

theorem exists_createLines_order (t : TableFragment) : ∃ before after, t.createLines =
    before ++ ["  " ++ t.name ++ "Builder builder_(_fbb);"] ++
      (t.order.map fun field ↦ "  builder_.add_" ++ field ++ "(" ++ field ++ ");") ++
      ["  return builder_.Finish();"] ++ after := by
  refine ⟨punctuated "," ") \x7b"
    (("inline " ++ offsetTo t.name ++ " Create" ++ t.name ++
        "(flatbuffers::FlatBufferBuilder &_fbb") ::
      t.parameters.map fun p ↦ "   " ++ p.type ++ p.field ++ " = " ++ p.default), ["\x7d", ""], ?_⟩
  simp [createLines]

theorem slotLine_mem {constant : String} {slot : UInt16} (h : (constant, slot) ∈ t.slots) :
    "    " ++ constant ++ " = " ++ toString slot.toNat ++ "," ∈ t.viewLines := by
  simp only [viewLines, List.mem_append]
  exact .inl (.inl (.inl (.inl (.inl (.inr (List.mem_map.mpr ⟨(constant, slot), h, rfl⟩))))))

theorem accessorLines_subset {accessor : TableAccessor} (h : accessor ∈ t.accessors) :
    accessor.lines ⊆ t.viewLines := by
  intro line hline
  simp only [viewLines, List.mem_append]
  exact .inl (.inl (.inl (.inr (List.mem_flatMap.mpr ⟨accessor, h, hline⟩))))

theorem readerLine_mem {accessor : TableAccessor} (h : accessor ∈ t.accessors) :
    "  " ++ accessor.reader ∈ t.viewLines :=
  accessorLines_subset h (List.mem_append_right _ List.mem_cons_self)

theorem mutatorLine_mem {accessor : TableAccessor} {text : String} (h : accessor ∈ t.accessors)
    (htext : accessor.mutator.map TableMutator.text = some text) : "  " ++ text ∈ t.viewLines := by
  refine accessorLines_subset h ?_
  rw [TableAccessor.lines, List.mem_append, htext]
  exact .inr (List.mem_map_of_mem (List.mem_cons_of_mem _ List.mem_cons_self))

theorem checkLine_mem {check : Check} (h : check ∈ t.checks) :
    ∃ before after, before ++ check.text ++ after ∈ t.viewLines := by
  obtain ⟨before, after, hline⟩ : ∃ before after,
      before ++ check.text ++ after ∈ conjunctionLines "    return " t.checks :=
    mem_conjunctionLines h
  refine ⟨before, after, ?_⟩
  simp only [viewLines, List.mem_append]
  exact .inl (.inr hline)

theorem setterLine_mem {setter : Setter} (h : setter ∈ t.setters) :
    setter.line t.name ∈ t.builderLines := by
  simp only [builderLines, List.mem_append]
  exact .inl (.inl (.inl (.inr (List.mem_map.mpr ⟨setter, h, rfl⟩))))

theorem requiredLine_mem {field : String} (h : field ∈ t.required) :
    "    fbb_.Required(o, " ++ t.name ++ "::" ++ slotConstant field ++ ");  // " ++ field ∈
      t.builderLines := by
  simp only [builderLines, List.mem_append]
  exact .inl (.inr (List.mem_map.mpr ⟨field, h, rfl⟩))

theorem addLine_mem {field : String} (h : field ∈ t.order) :
    "  builder_.add_" ++ field ++ "(" ++ field ++ ");" ∈ t.createLines := by
  simp only [createLines, List.mem_append]
  exact .inl (.inr (List.mem_map.mpr ⟨field, h, rfl⟩))

theorem parameterLine_mem_or {parameter : CreateParameter} (h : parameter ∈ t.parameters) :
    "   " ++ parameter.type ++ parameter.field ++ " = " ++ parameter.default ++ "," ∈
        t.createLines ∨
      "   " ++ parameter.type ++ parameter.field ++ " = " ++ parameter.default ++ ") \x7b" ∈
        t.createLines := by
  simp only [createLines, List.mem_append]
  exact (mem_punctuated_or (List.mem_cons_of_mem _ (List.mem_map.mpr ⟨parameter, h, rfl⟩))).imp
    (fun hline ↦ .inl (.inl (.inl hline))) (fun hline ↦ .inl (.inl (.inl hline)))

theorem parameterLine_mem {parameter : CreateParameter} (h : parameter ∈ t.parameters) :
    ∃ after, "   " ++ parameter.type ++ parameter.field ++ " = " ++ parameter.default ++ after ∈
      t.createLines := by
  rcases parameterLine_mem_or h with hline | hline
  · exact ⟨_, hline⟩
  · exact ⟨_, hline⟩

end TableFragment

end BufferSchema
