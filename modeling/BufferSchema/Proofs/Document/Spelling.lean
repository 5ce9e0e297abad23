import BufferSchema.Document.Encode
import BufferSchema.Proofs.Decoding.Record
import BufferSchema.Schema.Load

/-!
# Spellings of documents

Which JSON values spell a document: those that spell its records, and in them texts, numbers, lists
and types. The relation follows the data and has a clause for each member, with its key, its place
in the record and its default; it does not mention the decoder. Every spelling of a document is
decoded to that document, so that all of them load to one schema.

Types nest, and the text of a value that nests too deep is not read at all. `TypeRef.nesting` counts
the containers that the spellings of a type take.
-/

namespace BufferSchema

/-! ## Members -/

/-- A list whose items are spelled each by its own value. -/
def SpellsList {α : Type} (spelledBy : α → Json → Prop) (l : List α) (j : Json) : Prop :=
  ∃ items, List.Forall₂ spelledBy l items ∧ j = .ofList items

theorem SpellsList.of_map {α : Type} {spelledBy : α → Json → Prop} {encode : α → Json}
    (h : ∀ a, spelledBy a (encode a)) (l : List α) :
    SpellsList spelledBy l (.ofList (l.map encode)) := by
  refine ⟨l.map encode, ?_, rfl⟩
  rw [List.forall₂_map_right_iff, List.forall₂_same]
  exact fun a _ ↦ h a

theorem SpellsList.of_map_eq {α : Type} (encode : α → Json) (l : List α) :
    SpellsList (fun a j ↦ j = encode a) l (.ofList (l.map encode)) := by
  refine .of_map ?_ l
  exact fun _ ↦ rfl

namespace MemberSpelling

/-- A text that has to be there. -/
@[simp] def text (key s : String) : MemberSpelling := ⟨key, (· = .ofString s), False⟩

/-- A text that may be absent; then it is left out or `null`. -/
@[simp] def optionalText (key : String) (s : Option String) : MemberSpelling :=
  ⟨key, (· = .ofOption s), s = none⟩

/-- A truth value that has to be there. -/
@[simp] def flag (key : String) (b : Bool) : MemberSpelling := ⟨key, (· = .bool b), False⟩

/-- A truth value that may be left out if it is false. -/
@[simp] def defaultFlag (key : String) (b : Bool) : MemberSpelling :=
  ⟨key, (· = .bool b), b = false⟩

/-- A list of texts that may be left out if it is empty. -/
@[simp] def texts (key : String) (l : List String) : MemberSpelling :=
  ⟨key, (· = .ofTexts l), l = []⟩

/-- An integer. -/
@[simp] def integer (key : String) (i : Int) (omissible : Prop) : MemberSpelling :=
  ⟨key, (· = .integer i), omissible⟩

/-- A list. -/
@[simp] def list {α : Type} (key : String) (spelledBy : α → Json → Prop) (l : List α)
    (omissible : Prop) : MemberSpelling := ⟨key, SpellsList spelledBy l, omissible⟩

end MemberSpelling

/-! ## Types -/

/-- The values that spell a scalar kind which stands by itself: its name, also with `null` for
content. -/
def ScalarKind.SpelledBy (kind : ScalarKind) (j : Json) : Prop :=
  j = .ofString kind.name ∨ j = .ofMembers [(kind.name, .null)]

/-- A variant that is spelled by an object with its name for the only key. -/
def SpellsVariant (name : String) (members : List MemberSpelling) (j : Json) : Prop :=
  ∃ content, SpellsRecord members content ∧ j = .ofMembers [(name, content)]

namespace TypeRef

/-- The values that spell a type: a bare name, or an object with one key. -/
def SpelledBy : TypeRef → Json → Prop
  | .scalar kind enumName =>
    SpellsVariant "scalar"
      [⟨"kind", (· = .ofString kind.name), False⟩, .optionalText "enum" enumName]
  | .bool => (· = .ofString "bool")
  | .string => (· = .ofString "string")
  | .vector element => SpellsVariant "vector" [⟨"element", element.SpelledBy, False⟩]
  | .aggregate target fixed =>
    SpellsVariant "aggregate" [.text "target" target, .flag "fixed" fixed]
  | .union tagEnum => SpellsVariant "union" [.text "tag-enum" tagEnum]

/-- The number of containers that nest in the spellings of a type. -/
def nesting : TypeRef → Nat
  | .bool | .string => 0
  | .scalar _ _ | .aggregate _ _ | .union _ => 2
  | .vector element => element.nesting + 2

end TypeRef

/-! ## Declarations -/

/-- The members of a value of an enumeration. -/
def EnumValue.members (v : EnumValue) : List MemberSpelling :=
  [.text "name" v.name, .integer "value" v.value.toInt False, .texts "doc" v.doc,
    .optionalText "union-type" v.unionType]

/-- The values that spell a value of an enumeration. -/
def EnumValue.SpelledBy (v : EnumValue) : Json → Prop := SpellsRecord v.members

/-- The members of an enumeration. -/
def Enumeration.members (e : Enumeration) : List MemberSpelling :=
  [.text "name" e.name, .integer "namespace" e.scope.toNat (e.scope = 0),
    ⟨"underlying", e.underlying.SpelledBy, False⟩,
    .list "values" EnumValue.SpelledBy e.values False, .defaultFlag "is-union" e.isUnion,
    .texts "doc" e.doc, .defaultFlag "generated" e.generated]

/-- The values that spell an enumeration. -/
def Enumeration.SpelledBy (e : Enumeration) : Json → Prop := SpellsRecord e.members

/-- The members of a field. -/
def Field.members (f : Field) : List MemberSpelling :=
  [.text "name" f.name, ⟨"type", f.type.SpelledBy, False⟩,
    .integer "slot" f.slot.toNat (f.slot = 0),
    ⟨"default-value", (· = .ofString f.defaultValue), f.defaultValue = "0"⟩,
    .defaultFlag "deprecated" f.deprecated, .defaultFlag "required" f.required,
    .defaultFlag "key" f.key, .integer "padding" f.padding.toNat (f.padding = 0),
    .optionalText "nested-root" f.nestedRoot, .texts "doc" f.doc]

/-- The values that spell a field. -/
def Field.SpelledBy (f : Field) : Json → Prop := SpellsRecord f.members

/-- The members of an aggregate. -/
def Aggregate.members (a : Aggregate) : List MemberSpelling :=
  [.text "name" a.name, .integer "namespace" a.scope.toNat (a.scope = 0),
    .flag "fixed" a.fixed, .list "fields" Field.SpelledBy a.fields False,
    .integer "byte-size" a.byteSize.toNat (a.byteSize = 0),
    .integer "min-align" a.minAlign.toNat (a.minAlign = 1),
    .defaultFlag "sort-by-size" a.sortBySize, .texts "doc" a.doc,
    .defaultFlag "generated" a.generated]

/-- The values that spell an aggregate. -/
def Aggregate.SpelledBy (a : Aggregate) : Json → Prop := SpellsRecord a.members

/-- The members of a document. -/
def Document.members (d : Document) : List MemberSpelling :=
  [.text "file-name" d.fileName, .optionalText "source-file" d.sourceFile,
    .list "namespaces" (fun path j ↦ j = .ofTexts path) d.namespaces (d.namespaces = []),
    .list "enums" Enumeration.SpelledBy d.enums (d.enums = []),
    .list "aggregates" Aggregate.SpelledBy d.aggregates (d.aggregates = []),
    .optionalText "root-type" d.rootType, .optionalText "file-identifier" d.fileIdentifier,
    .optionalText "file-extension" d.fileExtension, .texts "included-files" d.includedFiles]

/-- The values that spell a document. -/
def Document.SpelledBy (d : Document) : Json → Prop := SpellsRecord d.members

/-! ## Keys

No record has two members of one name. -/

theorem EnumValue.nodup_keys (v : EnumValue) : (v.members.map MemberSpelling.key).Nodup := by
  simp [members]

theorem Enumeration.nodup_keys (e : Enumeration) : (e.members.map MemberSpelling.key).Nodup := by
  simp [members]

theorem Field.nodup_keys (f : Field) : (f.members.map MemberSpelling.key).Nodup := by
  simp [members]

theorem Aggregate.nodup_keys (a : Aggregate) : (a.members.map MemberSpelling.key).Nodup := by
  simp [members]

theorem Document.nodup_keys (d : Document) : (d.members.map MemberSpelling.key).Nodup := by
  simp [members]

/-! ## Reading members -/

theorem read_text (s : String) : Source.text (Json.ofString s) = .ok s := rfl

/-- Lists are read where their items are. -/
theorem read_list {α : Type} {read : Json → Except DecodeError α} {spelledBy : α → Json → Prop}
    {l : List α} (h : ∀ a ∈ l, ∀ j, spelledBy a j → read j = .ok a) {j : Json}
    (hj : SpellsList spelledBy l j) : Source.list read j = .ok l := by
  obtain ⟨items, hitems, rfl⟩ := hj
  have hread : items.mapM read = .ok l := by
    rw [Attempt.mapM_eq_ok]
    refine List.Forall₂.flip (List.forall₂_iff_zip.mpr ⟨hitems.length_eq, fun {a item} hzip ↦ ?_⟩)
    exact h a (List.of_mem_zip hzip).1 item ((List.forall₂_iff_zip.mp hitems).2 hzip)
  refine Attempt.bind_eq_ok.mpr ⟨_, rfl, Attempt.bind_eq_ok.mpr ⟨l, hread, rfl⟩⟩

theorem read_texts (l : List String) : Source.list Source.text (Json.ofTexts l) = .ok l := by
  have hl : SpellsList (fun s j ↦ j = .ofString s) l (.ofTexts l) :=
    .of_map_eq Json.ofString l
  exact read_list (fun s _ j hj ↦ hj ▸ read_text s) hl

theorem read_integer {range : IntegerRange} {i : Int} (h : range.least ≤ i ∧ i ≤ range.greatest) :
    Source.integer range (Json.integer i) = .ok i := if_pos h

theorem read_int64 (n : Int64) : Source.int64 (Json.integer n.toInt) = .ok n := by
  rw [Source.int64, read_integer ⟨n.minValue_le_toInt, n.toInt_le⟩]
  exact congrArg Except.ok (Int64.ofInt_toInt n)

/-- The unsigned integers below a size are in their range. -/
theorem read_natural {range : IntegerRange} {size n : Nat} (hleast : range.least = 0)
    (hgreatest : range.greatest = Int.ofNat (size - 1)) (h : n < size) :
    Source.integer range (Json.integer n) = .ok (n : Int) := by
  refine read_integer ⟨?_, ?_⟩
  · rw [hleast]
    exact Int.natCast_nonneg n
  · rw [hgreatest]
    exact Int.ofNat_le.mpr (Nat.le_sub_one_of_lt h)

theorem read_uint64 (n : UInt64) : Source.uint64 (Json.integer n.toNat) = .ok n := by
  rw [Source.uint64, read_natural rfl rfl n.toNat_lt]
  exact congrArg Except.ok UInt64.ofNat_toNat

theorem read_index (n : UInt64) : Source.index (Json.integer n.toNat) = .ok n := by
  rw [Source.index, read_natural rfl rfl n.toNat_lt]
  exact congrArg Except.ok UInt64.ofNat_toNat

theorem read_uint16 (n : UInt16) : Source.uint16 (Json.integer n.toNat) = .ok n := by
  rw [Source.uint16, read_natural rfl rfl n.toNat_lt]
  exact congrArg Except.ok UInt16.ofNat_toNat

theorem read_uint8 (n : UInt8) : Source.uint8 (Json.integer n.toNat) = .ok n := by
  rw [Source.uint8, read_natural rfl rfl n.toNat_lt]
  exact congrArg Except.ok UInt8.ofNat_toNat

namespace Member

/-- A member whose value has one spelling. -/
theorem reads_of_eq {member : JsonMember} {value : member.Value} {j : Json} {omissible : Prop}
    (hread : member.read j = .ok value) (habsent : omissible → member.absent = some value) :
    member.Reads value ⟨member.key, (· = j), omissible⟩ where
  key := rfl
  read _ hv := hv ▸ hread
  absent := habsent

theorem reads_text (key s : String) : (text key : JsonMember).Reads s (.text key s) :=
  reads_of_eq rfl False.elim

theorem reads_optionalText (key : String) (s : Option String) :
    (optionalText key : JsonMember).Reads s (.optionalText key s) := by
  refine reads_of_eq ?_ fun h ↦ h ▸ rfl
  cases s <;> rfl

theorem reads_flag (key : String) (b : Bool) : (flag key : JsonMember).Reads b (.flag key b) :=
  reads_of_eq rfl False.elim

theorem reads_defaultFlag (key : String) (b : Bool) :
    (defaultFlag key : JsonMember).Reads b (.defaultFlag key b) :=
  reads_of_eq rfl fun h ↦ h ▸ rfl

theorem reads_texts (key : String) (l : List String) :
    (texts key : JsonMember).Reads l (.texts key l) :=
  reads_of_eq (read_texts l) fun h ↦ h ▸ rfl

theorem reads_scope (n : NamespaceId) :
    (scope : JsonMember).Reads n (.integer "namespace" n.toNat (n = 0)) :=
  reads_of_eq (read_index n) fun h ↦ h ▸ rfl

end Member

/-! ## Reading types -/

theorem ScalarKind.ofName_name (kind : ScalarKind) : ofName kind.name = .ok kind := by
  cases kind <;> rfl

theorem ScalarKind.decode_name (depth : Nat) (kind : ScalarKind) :
    decode depth (Json.ofString kind.name) = .ok kind := by
  cases kind <;> rfl

theorem ScalarKind.unitVariant_of_spelledBy {kind : ScalarKind} {j : Json} (h : kind.SpelledBy j) :
    Source.unitVariant ofName j = .ok kind := by
  rcases h with rfl | rfl
  · exact kind.ofName_name
  · cases kind <;> rfl

namespace TypeRef

theorem decodeWith_of_decodeContent {depth : Nat} {element : Json → Except DecodeError TypeRef}
    {name : String} {content : Json} {type : TypeRef}
    (h : decodeContent (depth + 1) element name content = .ok type) :
    decodeWith (depth + 2) element (Json.ofMembers [(name, content)]) = .ok type :=
  Attempt.bind_eq_ok.mpr ⟨_, rfl, Attempt.bind_eq_ok.mpr ⟨type, h, rfl⟩⟩

/-- Where there is depth for two containers, the spellings of a variant are read. -/
theorem decodeWith_of_spellsVariant {depth : Nat} {element : Json → Except DecodeError TypeRef}
    {name : String} {record : Record Json (Except DecodeError) TypeRef}
    (hcontent : ∀ content, decodeContent (depth + 1) element name content =
      (do let form ← Source.record record.title content; record.decode form))
    {filled : Filled record.members} {spellings : List MemberSpelling}
    (hreads : ReadsAll record.members filled spellings)
    (hnodup : (spellings.map MemberSpelling.key).Nodup) {j : Json}
    (hj : SpellsVariant name spellings j) :
    decodeWith (depth + 2) element j = .ok (record.build filled) := by
  obtain ⟨content, hspells, rfl⟩ := hj
  have hdecode := record.decode_of_spellsRecord hreads hnodup hspells record.title
  exact decodeWith_of_decodeContent ((hcontent content).trans hdecode)

/-- Bare names need no depth. -/
theorem decode_ofString {name : String} {type : TypeRef} (h : ofName name = .ok type)
    (depth : Nat) : decode depth (Json.ofString name) = .ok type := by
  have hwith (depth : Nat) (element : Json → Except DecodeError TypeRef) :
      decodeWith depth element (Json.ofString name) = .ok type := by
    refine Attempt.bind_eq_ok.mpr ⟨.bare name, rfl, ?_⟩
    dsimp only
    rw [h]
    rfl
  match depth with
  | 0 => exact hwith 0 _
  | 1 => exact hwith 1 _
  | depth + 2 => exact hwith (depth + 2) (decode depth)

theorem decode_of_spelledBy {type : TypeRef} {depth : Nat} {j : Json}
    (hdepth : type.nesting ≤ depth) (hj : type.SpelledBy j) : decode depth j = .ok type := by
  induction type generalizing depth j with
  | bool =>
    rw [show j = .ofString "bool" from hj]
    exact decode_ofString rfl depth
  | string =>
    rw [show j = .ofString "string" from hj]
    exact decode_ofString rfl depth
  | scalar kind enumName =>
    obtain ⟨depth, rfl⟩ : ∃ rest, depth = rest + 2 := Nat.exists_eq_add_of_le' hdepth
    have hreads : ReadsAll (scalarRecord depth).members (kind, enumName, ()) _ :=
      .cons (Member.reads_of_eq (kind.decode_name depth) False.elim)
        (.cons (Member.reads_optionalText "enum" enumName) .nil)
    have hnodup : ["kind", "enum"].Nodup := by decide
    exact decodeWith_of_spellsVariant (fun _ ↦ rfl) hreads hnodup hj
  | vector element ih =>
    obtain ⟨depth, rfl⟩ : ∃ rest, depth = rest + 2 :=
      Nat.exists_eq_add_of_le' (Nat.le_trans (Nat.le_add_left 2 element.nesting) hdepth)
    have helement : element.nesting ≤ depth := Nat.le_of_add_le_add_right hdepth
    have hreads : ReadsAll (vectorRecord (decode depth)).members (element, ())
        [⟨"element", element.SpelledBy, False⟩] :=
      .cons ⟨rfl, fun v hv ↦ ih helement hv, False.elim⟩ .nil
    have hnodup : ["element"].Nodup := by decide
    exact decodeWith_of_spellsVariant (fun _ ↦ rfl) hreads hnodup hj
  | aggregate target fixed =>
    obtain ⟨depth, rfl⟩ : ∃ rest, depth = rest + 2 := Nat.exists_eq_add_of_le' hdepth
    have hreads : ReadsAll aggregateRecord.members (target, fixed, ()) _ :=
      .cons (Member.reads_text "target" target) (.cons (Member.reads_flag "fixed" fixed) .nil)
    have hnodup : ["target", "fixed"].Nodup := by decide
    exact decodeWith_of_spellsVariant (fun _ ↦ rfl) hreads hnodup hj
  | union tagEnum =>
    obtain ⟨depth, rfl⟩ : ∃ rest, depth = rest + 2 := Nat.exists_eq_add_of_le' hdepth
    have hreads : ReadsAll unionRecord.members (tagEnum, ()) _ :=
      .cons (Member.reads_text "tag-enum" tagEnum) .nil
    have hnodup : ["tag-enum"].Nodup := by decide
    exact decodeWith_of_spellsVariant (fun _ ↦ rfl) hreads hnodup hj

end TypeRef

/-! ## Reading declarations -/

theorem EnumValue.decode_of_spelledBy (v : EnumValue) {j : Json} (hj : v.SpelledBy j) :
    decode j = .ok v := by
  have hreads : ReadsAll record.members (v.name, v.value, v.doc, v.unionType, ()) v.members :=
    .cons (Member.reads_text "name" v.name) <|
      .cons (Member.reads_of_eq (read_int64 v.value) False.elim) <|
      .cons (Member.reads_texts "doc" v.doc) <|
      .cons (Member.reads_optionalText "union-type" v.unionType) .nil
  exact record.decode_of_spellsRecord hreads v.nodup_keys hj "struct EnumVal"

theorem Enumeration.decode_of_spelledBy (e : Enumeration) {j : Json} (hj : e.SpelledBy j) :
    decode j = .ok e := by
  have hvalues (v : Json) (hv : SpellsList EnumValue.SpelledBy e.values v) :
      Source.list EnumValue.decode v = .ok e.values :=
    read_list (fun v _ _ ↦ v.decode_of_spelledBy) hv
  have hreads : ReadsAll record.members
      (e.name, e.scope, e.underlying, e.values, e.isUnion, e.doc, e.generated, ()) e.members :=
    .cons (Member.reads_text "name" e.name) <|
      .cons (Member.reads_scope e.scope) <|
      .cons ⟨rfl, fun _ ↦ ScalarKind.unitVariant_of_spelledBy, False.elim⟩ <|
      .cons ⟨rfl, hvalues, False.elim⟩ <|
      .cons (Member.reads_defaultFlag "is-union" e.isUnion) <|
      .cons (Member.reads_texts "doc" e.doc) <|
      .cons (Member.reads_defaultFlag "generated" e.generated) .nil
  exact record.decode_of_spellsRecord hreads e.nodup_keys hj "struct EnumDecl"

theorem Field.decode_of_spelledBy (f : Field) {depth : Nat} (hdepth : f.type.nesting ≤ depth)
    {j : Json} (hj : f.SpelledBy j) : decode depth j = .ok f := by
  have hreads : ReadsAll (record depth).members (f.name, f.type, f.slot, f.defaultValue,
      f.deprecated, f.required, f.key, f.padding, f.nestedRoot, f.doc, ()) f.members :=
    .cons (Member.reads_text "name" f.name) <|
      .cons ⟨rfl, fun _ ↦ TypeRef.decode_of_spelledBy hdepth, False.elim⟩ <|
      .cons (Member.reads_of_eq (read_uint16 f.slot) fun h ↦ h ▸ rfl) <|
      .cons (Member.reads_of_eq (read_text f.defaultValue) fun h ↦ h ▸ rfl) <|
      .cons (Member.reads_defaultFlag "deprecated" f.deprecated) <|
      .cons (Member.reads_defaultFlag "required" f.required) <|
      .cons (Member.reads_defaultFlag "key" f.key) <|
      .cons (Member.reads_of_eq (read_uint8 f.padding) fun h ↦ h ▸ rfl) <|
      .cons (Member.reads_optionalText "nested-root" f.nestedRoot) <|
      .cons (Member.reads_texts "doc" f.doc) .nil
  exact (record depth).decode_of_spellsRecord hreads f.nodup_keys hj "struct FieldDecl"

theorem Aggregate.decode_of_spelledBy (a : Aggregate) {depth : Nat}
    (hdepth : ∀ f ∈ a.fields, f.type.nesting ≤ depth) {j : Json} (hj : a.SpelledBy j) :
    decode depth j = .ok a := by
  have hfields (v : Json) (hv : SpellsList Field.SpelledBy a.fields v) :
      Source.list (Field.decode depth) v = .ok a.fields :=
    read_list (fun f hf _ ↦ f.decode_of_spelledBy (hdepth f hf)) hv
  have hreads : ReadsAll (record depth).members (a.name, a.scope, a.fixed, a.fields, a.byteSize,
      a.minAlign, a.sortBySize, a.doc, a.generated, ()) a.members :=
    .cons (Member.reads_text "name" a.name) <|
      .cons (Member.reads_scope a.scope) <|
      .cons (Member.reads_flag "fixed" a.fixed) <|
      .cons ⟨rfl, hfields, False.elim⟩ <|
      .cons (Member.reads_of_eq (read_uint64 a.byteSize) fun h ↦ h ▸ rfl) <|
      .cons (Member.reads_of_eq (read_uint64 a.minAlign) fun h ↦ h ▸ rfl) <|
      .cons (Member.reads_defaultFlag "sort-by-size" a.sortBySize) <|
      .cons (Member.reads_texts "doc" a.doc) <|
      .cons (Member.reads_defaultFlag "generated" a.generated) .nil
  exact (record depth).decode_of_spellsRecord hreads a.nodup_keys hj "struct AggregateDecl"

theorem Document.decode_of_spelledBy (d : Document) {depth : Nat}
    (hdepth : ∀ a ∈ d.aggregates, ∀ f ∈ a.fields, typeLevel + f.type.nesting ≤ depth) {j : Json}
    (hj : d.SpelledBy j) : decode depth j = .ok d := by
  have hnamespaces (v : Json) (hv : SpellsList (fun path j ↦ j = .ofTexts path) d.namespaces v) :
      Source.list (Source.list Source.text) v = .ok d.namespaces :=
    read_list (fun path _ _ hpath ↦ hpath ▸ read_texts path) hv
  have henums (v : Json) (hv : SpellsList Enumeration.SpelledBy d.enums v) :
      Source.list Enumeration.decode v = .ok d.enums :=
    read_list (fun e _ _ ↦ e.decode_of_spelledBy) hv
  have haggregates (v : Json) (hv : SpellsList Aggregate.SpelledBy d.aggregates v) :
      Source.list (Aggregate.decode (depth - typeLevel)) v = .ok d.aggregates := by
    refine read_list (fun a ha _ ↦ a.decode_of_spelledBy fun f hf ↦ ?_) hv
    exact Nat.le_sub_of_add_le' (hdepth a ha f hf)
  have hreads : ReadsAll (record (depth - typeLevel)).members (d.fileName, d.sourceFile,
      d.namespaces, d.enums, d.aggregates, d.rootType, d.fileIdentifier, d.fileExtension,
      d.includedFiles, ()) d.members :=
    .cons (Member.reads_text "file-name" d.fileName) <|
      .cons (Member.reads_optionalText "source-file" d.sourceFile) <|
      .cons ⟨rfl, hnamespaces, fun h ↦ h ▸ rfl⟩ <|
      .cons ⟨rfl, henums, fun h ↦ h ▸ rfl⟩ <|
      .cons ⟨rfl, haggregates, fun h ↦ h ▸ rfl⟩ <|
      .cons (Member.reads_optionalText "root-type" d.rootType) <|
      .cons (Member.reads_optionalText "file-identifier" d.fileIdentifier) <|
      .cons (Member.reads_optionalText "file-extension" d.fileExtension) <|
      .cons (Member.reads_texts "included-files" d.includedFiles) .nil
  exact (record (depth - typeLevel)).decode_of_spellsRecord hreads d.nodup_keys hj
    "struct SchemaFile"

/-! ## Writing -/

theorem TypeRef.spelledBy_encode (type : TypeRef) : type.SpelledBy type.encode := by
  induction type with
  | bool | string => rfl
  | scalar kind enumName =>
    refine ⟨_, ?_, rfl⟩
    have hnodup : ["kind", "enum"].Nodup := by decide
    exact .of_forall₂ hnodup (.cons ⟨rfl, rfl⟩ (.cons ⟨rfl, rfl⟩ .nil))
  | vector element ih =>
    refine ⟨_, ?_, rfl⟩
    have hnodup : ["element"].Nodup := by decide
    exact .of_forall₂ hnodup (.cons ⟨rfl, ih⟩ .nil)
  | aggregate target fixed =>
    refine ⟨_, ?_, rfl⟩
    have hnodup : ["target", "fixed"].Nodup := by decide
    exact .of_forall₂ hnodup (.cons ⟨rfl, rfl⟩ (.cons ⟨rfl, rfl⟩ .nil))
  | union tagEnum =>
    refine ⟨_, ?_, rfl⟩
    have hnodup : ["tag-enum"].Nodup := by decide
    exact .of_forall₂ hnodup (.cons ⟨rfl, rfl⟩ .nil)

theorem EnumValue.spelledBy_encode (v : EnumValue) : v.SpelledBy v.encode :=
  .of_forall₂ v.nodup_keys <|
    .cons ⟨rfl, rfl⟩ <| .cons ⟨rfl, rfl⟩ <| .cons ⟨rfl, rfl⟩ <| .cons ⟨rfl, rfl⟩ .nil

theorem Enumeration.spelledBy_encode (e : Enumeration) : e.SpelledBy e.encode := by
  have hvalues := SpellsList.of_map EnumValue.spelledBy_encode e.values
  exact .of_forall₂ e.nodup_keys <|
    .cons ⟨rfl, rfl⟩ <| .cons ⟨rfl, rfl⟩ <| .cons ⟨rfl, .inl rfl⟩ <| .cons ⟨rfl, hvalues⟩ <|
    .cons ⟨rfl, rfl⟩ <| .cons ⟨rfl, rfl⟩ <| .cons ⟨rfl, rfl⟩ .nil

theorem Field.spelledBy_encode (f : Field) : f.SpelledBy f.encode :=
  .of_forall₂ f.nodup_keys <|
    .cons ⟨rfl, rfl⟩ <| .cons ⟨rfl, f.type.spelledBy_encode⟩ <| .cons ⟨rfl, rfl⟩ <|
    .cons ⟨rfl, rfl⟩ <| .cons ⟨rfl, rfl⟩ <| .cons ⟨rfl, rfl⟩ <| .cons ⟨rfl, rfl⟩ <|
    .cons ⟨rfl, rfl⟩ <| .cons ⟨rfl, rfl⟩ <| .cons ⟨rfl, rfl⟩ .nil

theorem Aggregate.spelledBy_encode (a : Aggregate) : a.SpelledBy a.encode := by
  have hfields := SpellsList.of_map Field.spelledBy_encode a.fields
  exact .of_forall₂ a.nodup_keys <|
    .cons ⟨rfl, rfl⟩ <| .cons ⟨rfl, rfl⟩ <| .cons ⟨rfl, rfl⟩ <| .cons ⟨rfl, hfields⟩ <|
    .cons ⟨rfl, rfl⟩ <| .cons ⟨rfl, rfl⟩ <| .cons ⟨rfl, rfl⟩ <| .cons ⟨rfl, rfl⟩ <|
    .cons ⟨rfl, rfl⟩ .nil

theorem Document.spelledBy_encode (d : Document) : d.SpelledBy d.encode := by
  have hnamespaces : SpellsList (fun path j ↦ j = .ofTexts path) d.namespaces
      (.ofList (d.namespaces.map .ofTexts)) :=
    .of_map_eq Json.ofTexts d.namespaces
  have henums := SpellsList.of_map Enumeration.spelledBy_encode d.enums
  have haggregates := SpellsList.of_map Aggregate.spelledBy_encode d.aggregates
  exact .of_forall₂ d.nodup_keys <|
    .cons ⟨rfl, rfl⟩ <| .cons ⟨rfl, rfl⟩ <| .cons ⟨rfl, hnamespaces⟩ <| .cons ⟨rfl, henums⟩ <|
    .cons ⟨rfl, haggregates⟩ <| .cons ⟨rfl, rfl⟩ <| .cons ⟨rfl, rfl⟩ <| .cons ⟨rfl, rfl⟩ <|
    .cons ⟨rfl, rfl⟩ .nil

/-- **Every spelling of a document loads to it.** Let the types of a document nest no deeper than
the parser of JSON goes. The document is spelled by what it is written as, and by much else: members
in any order and among others, those with a default left out, records by position. All of that is
decoded to the document, so that every text which spells it loads to one schema or fails by one
reference that does not resolve. -/
theorem every_spelling_decodes (d : Document)
    (hdepth : ∀ a ∈ d.aggregates, ∀ f ∈ a.fields,
      Document.typeLevel + f.type.nesting ≤ Json.depthLimit) :
    d.SpelledBy d.encode ∧
    (∀ j, d.SpelledBy j → Document.decode Json.depthLimit j = .ok d) ∧
    ∀ text j, Json.read text = ⟨j, true⟩ → d.SpelledBy j →
      Document.ofJson text = .ok d ∧
        Schema.parse .json text = (Schema.ofDocument d).mapError .unresolved := by
  refine ⟨d.spelledBy_encode, fun j hj ↦ d.decode_of_spelledBy hdepth hj, fun text j hread hj ↦ ?_⟩
  have hdocument : Document.ofJson text = .ok d := by
    rw [Document.ofJson, hread]
    exact Attempt.bind_eq_ok.mpr ⟨d, d.decode_of_spelledBy hdepth hj, rfl⟩
  refine ⟨hdocument, ?_⟩
  rw [Schema.parse, Document.parse, hdocument]
  rfl

/-- A field that holds a list of truth values. -/
def pointField : Field := ⟨"x", .vector .bool, 0, "0", false, false, false, 0, none, []⟩

/-- A struct with one field. -/
def pointStruct : Aggregate := ⟨"P", 0, true, [pointField], 0, 1, false, [], false⟩

/-- A document with one struct. -/
def pointDocument : Document := ⟨"p", none, [], [], [pointStruct], none, none, none, []⟩

/-- The document as a text in which the struct is written by position, the members of the field come
in another order, one of them is foreign, and all defaults but an absent text are left out. -/
def pointText : String :=
  "\x7b\"root-type\":null,\"aggregates\":[[\"P\",0,true,[" ++
    "\x7b\"type\":\x7b\"vector\":\x7b\"element\":\"bool\"\x7d\x7d," ++
    "\"a\":[1],\"name\":\"x\"\x7d" ++
    "]]],\"file-name\":\"p\"\x7d"

/-- The value of the text. -/
def pointJson : Json :=
  .ofMembers [("root-type", .null),
    ("aggregates", .ofList [.ofList [.ofString "P", .integer 0, .bool true, .ofList [
      .ofMembers [
        ("type", .ofMembers [("vector", .ofMembers [("element", .ofString "bool")])]),
        ("a", .ofList [.integer 1]), ("name", .ofString "x")]]]]),
    ("file-name", .ofString "p")]

theorem spelledBy_pointJson : pointDocument.SpelledBy pointJson := by
  have htype : pointField.type.SpelledBy
      (.ofMembers [("vector", .ofMembers [("element", .ofString "bool")])]) :=
    pointField.type.spelledBy_encode
  have hfield : pointField.SpelledBy (.ofMembers
      [("type", .ofMembers [("vector", .ofMembers [("element", .ofString "bool")])]),
        ("a", .ofList [.integer 1]), ("name", .ofString "x")]) := by
    refine .named ⟨?_, ?_, ?_⟩
    · simp [Field.members]
    · simpa [Field.members] using ⟨rfl, htype⟩
    · simp [Field.members, pointField]
  have hwritten : List.Forall₂ (fun member v ↦ member.spelledBy v) (pointStruct.members.take 4) _ :=
    .cons rfl <| .cons rfl <| .cons rfl <| .cons ⟨_, .cons hfield .nil, rfl⟩ .nil
  have hrest : ∀ member ∈ pointStruct.members.drop 4, member.omissible := by
    simp [Aggregate.members, pointStruct]
  have haggregates : SpellsList Aggregate.SpelledBy pointDocument.aggregates _ :=
    ⟨_, .cons (.positional hwritten hrest) .nil, rfl⟩
  refine .named ⟨?_, ?_, ?_⟩
  · simp [Document.members]
  · simpa [Document.members, pointJson] using ⟨rfl, haggregates, rfl⟩
  · simp [Document.members, pointDocument]

/-- The text has the value, spells the document and loads to what the document loads to. -/
theorem every_spelling_decodes_point :
    (∀ a ∈ pointDocument.aggregates, ∀ f ∈ a.fields,
      Document.typeLevel + f.type.nesting ≤ Json.depthLimit) ∧
    Json.read pointText = ⟨pointJson, true⟩ ∧ pointDocument.SpelledBy pointJson ∧
    Document.ofJson pointText = .ok pointDocument ∧
    Schema.parse .json pointText = (Schema.ofDocument pointDocument).mapError .unresolved := by
  have hdepth : ∀ a ∈ pointDocument.aggregates, ∀ f ∈ a.fields,
      Document.typeLevel + f.type.nesting ≤ Json.depthLimit := by decide
  have hread : Json.read pointText = ⟨pointJson, true⟩ := by
    -- the characters of the text have to be there before the reader can run over them
    unfold Json.read pointText pointJson
    simp only [String.reduceAppend, String.reduceToList, List.length_cons, List.length_nil,
      Nat.reduceAdd, Nat.reduceMul]
    rfl
  have hspelled := spelledBy_pointJson
  exact ⟨hdepth, hread, hspelled,
    (every_spelling_decodes pointDocument hdepth).2.2 pointText pointJson hread hspelled⟩

end BufferSchema
