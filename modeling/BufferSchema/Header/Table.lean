import BufferSchema.Header.Enum
import BufferSchema.Text.Lines
import BufferSchema.Text.Numeral
import BufferSchema.Text.Uppercase

/-!
# Variable aggregates in a header

A variable aggregate becomes three things: a *view* that reads and verifies a table in a buffer, a
*builder* with a setter for each field, and a function that creates a table at once. Deprecated
fields have no part in any of them; they only keep their slot.
-/

namespace BufferSchema

/-- The constant that holds the slot of a field. -/
def slotConstant (fieldName : String) : String := "VT_" ++ uppercase fieldName

/-- How a table stores a field: by value, inline as a struct, or behind an offset. -/
inductive Storage where
  | value
  | inlineStruct
  | offset
  deriving DecidableEq, Repr

/-- How a table stores a field of a type. -/
def TypeRef.storage : TypeRef → Storage
  | .scalar _ _ | .bool => .value
  | .aggregate _ true => .inlineStruct
  | .aggregate _ false | .string | .vector _ | .union _ => .offset

/-! ## Accessors -/

/-- The expression that reads a slot. -/
structure SlotRead where
  storage : Storage
  /-- The type that is read. -/
  type : String
  slot : String
  /-- The literal for an absent value, of a field stored by value. -/
  default : Option String

/-- The text of a slot read. -/
def SlotRead.text (r : SlotRead) : String :=
  let function :=
    match r.storage with
    | .value => "GetField"
    | .inlineStruct => "GetStruct"
    | .offset => "GetPointer"
  let default :=
    match r.default with
    | none => ""
    | some literal => ", " ++ literal
  function ++ "<" ++ r.type ++ ">(" ++ r.slot ++ default ++ ")"

/-- The literal for an absent value, which only fields stored by value have. -/
def Field.absentLiteral (f : Field) : Option String :=
  if f.type.isScalar then some f.defaultValue else none

/-- A function that changes a field: one that sets a value, or one that hands out what the slot
points to. -/
inductive TableMutator where
  | set (type field slot : String) (conversion : Option String)
  | borrow (type field : String) (read : SlotRead)

/-- The text of a mutator. -/
def TableMutator.text : TableMutator → String
  | .set type field slot conversion =>
    oneLine ("bool mutate_" ++ field ++ "(" ++ type ++ " _" ++ field ++ ")")
      ("return SetField(" ++ slot ++ ", " ++ converted conversion ("_" ++ field) ++ ");")
  | .borrow type field read =>
    oneLine (type ++ "mutable_" ++ field ++ "()") ("return " ++ read.text ++ ";")

/-- The functions that order tables by a key field, for searches in sorted vectors: texts compare
with a plain text, all else with a value of the given type. -/
inductive KeyComparison where
  | text (tableName field : String)
  | value (tableName field valueType : String)

/-- The texts of the comparisons. -/
def KeyComparison.texts : KeyComparison → List String
  | .text table f =>
    [oneLine ("bool KeyCompareLessThan(const " ++ table ++ " *o) const")
        ("return *" ++ f ++ "() < *o->" ++ f ++ "();"),
      oneLine "int KeyCompareWithValue(const char *val) const"
        ("return strcmp(" ++ f ++ "()->c_str(), val);")]
  | .value table f type =>
    [oneLine ("bool KeyCompareLessThan(const " ++ table ++ " *o) const")
        ("return " ++ f ++ "() < o->" ++ f ++ "();"),
      oneLine ("int KeyCompareWithValue(" ++ type ++ "val) const")
        ("return " ++ f ++ "() < val ? -1 : " ++ f ++ "() > val;")]

/-- The accessors of a field in a view. -/
structure TableAccessor where
  doc : List String
  field : String
  /-- The type that callers get. -/
  type : String
  conversion : Option String
  read : SlotRead
  mutator : Option TableMutator
  /-- The root type of the buffer that the field holds. -/
  nestedRoot : Option String
  key : Option KeyComparison

namespace TableAccessor

/-- The comparisons of a key field. -/
def keyOf (s : Schema) (options : Options) (a : Aggregate) (f : Field) : Emitted KeyComparison :=
  match f.type with
  | .string => pure (.text a.name f.name)
  | type => do
    let valueType ←
      if options.scopedEnums && type.scalarEnum?.isSome then
        s.viewSpelling " " "const " " *" true type
      else do pure ((← s.basicSpelling false type) ++ " ")
    return .value a.name f.name valueType

/-- The mutator of a field. -/
def mutatorOf (s : Schema) (f : Field) : Emitted TableMutator :=
  if f.type.isScalar then do
    let type ← s.basicSpelling true f.type
    return .set type f.name (slotConstant f.name) (← s.conversion false f.type)
  else do
    let type ← s.viewSpelling " " "" " *" true f.type
    return .borrow type f.name ⟨f.type.storage, type, slotConstant f.name, none⟩

/-- The accessors of a field. -/
def ofField (s : Schema) (options : Options) (a : Aggregate) (f : Field) :
    Emitted TableAccessor := do
  let stored ← s.viewSpelling "" "const " " *" false f.type
  let type ← s.viewSpelling " " "const " " *" true f.type
  let conversion ← s.conversion true f.type
  let mutator ← if options.mutableBuffer then some <$> mutatorOf s f else pure none
  let key ← if f.key then some <$> keyOf s options a f else pure none
  return {
    doc := f.doc, field := f.name, type, conversion
    read := ⟨f.type.storage, stored, slotConstant f.name, f.absentLiteral⟩
    mutator
    nestedRoot := f.nestedRoot.map fun name ↦
      scopedName (s.activeNamespace.qualifiedName name)
    key }

/-- The text of the function that reads the field. -/
def reader (a : TableAccessor) : String :=
  oneLine (a.type ++ a.field ++ "() const") ("return " ++ converted a.conversion a.read.text ++ ";")

/-- The text of the function that reads the buffer inside the field. -/
def nestedReader (field root : String) : String :=
  oneLine ("const " ++ root ++ " *" ++ field ++ "_nested_root() const")
    ("return flatbuffers::GetRoot<" ++ root ++ ">(" ++ field ++ "()->Data());")

/-- The lines of the accessors of a field. -/
def lines (a : TableAccessor) : List String :=
  docLines "  " a.doc ++
    (a.reader ::
      (a.mutator.map TableMutator.text).toList ++
      (a.nestedRoot.map (nestedReader a.field)).toList ++
      ((a.key.map KeyComparison.texts).getD [])).map ("  " ++ ·)

end TableAccessor

/-! ## Verification -/

/-- A check of a view's verifier. -/
inductive Check where
  | tableStart
  /-- The slot is within the table and what is stored there within the buffer. -/
  | slot (required : Bool) (type constant : String)
  /-- A text or a vector is within the buffer. -/
  | content (field : String)
  | textsOf (field : String)
  | tablesOf (field : String)
  | table (field : String)
  /-- The payload of a union fits its discriminant. -/
  | union (dispatcher field : String)
  | tableEnd
  deriving DecidableEq, Repr

/-- The text of a check. -/
def Check.text : Check → String
  | .tableStart => "VerifyTableStart(verifier)"
  | .slot required type constant =>
    "VerifyField" ++ (if required then "Required" else "") ++ "<" ++ type ++ ">(verifier, " ++
      constant ++ ")"
  | .content field => "verifier.Verify(" ++ field ++ "())"
  | .textsOf field => "verifier.VerifyVectorOfStrings(" ++ field ++ "())"
  | .tablesOf field => "verifier.VerifyVectorOfTables(" ++ field ++ "())"
  | .table field => "verifier.VerifyTable(" ++ field ++ "())"
  | .union dispatcher field =>
    dispatcher ++ "(verifier, " ++ field ++ "(), " ++ field ++ "_type())"
  | .tableEnd => "verifier.EndTable()"

/-- The checks of what the slot of a field leads to. -/
def Check.ofContent (s : Schema) (field : String) : TypeRef → Emitted (List Check)
  | .union tagEnum => do
    let decl ← s.enumeration tagEnum
    return [.union (← s.qualify decl.scope ("Verify" ++ decl.name)) field]
  | .aggregate _ false => pure [.table field]
  | .string => pure [.content field]
  | .vector .string => pure [.content field, .textsOf field]
  | .vector (.aggregate _ false) => pure [.content field, .tablesOf field]
  | .vector _ => pure [.content field]
  | .aggregate _ true | .scalar _ _ | .bool => pure []

/-- The checks of a field. -/
def Check.ofField (s : Schema) (f : Field) : Emitted (List Check) := do
  let type ← s.sizeSpelling f.type
  return .slot f.required type (slotConstant f.name) :: (← ofContent s f.name f.type)

/-- The lines of a conjunction, the first one behind `lead`. -/
def conjunctionLines (lead : String) : List Check → List String
  | [] => []
  | [c] => [lead ++ c.text ++ ";"]
  | c :: rest => (lead ++ c.text ++ " &&") :: conjunctionLines "           " rest

/-! ## The builder -/

/-- A function of a builder that adds a field. -/
structure Setter where
  field : String
  /-- The type of its parameter. -/
  type : String
  storage : Storage
  /-- The type that is stored, of a field stored by value. -/
  stored : Option String
  slot : String
  conversion : Option String
  default : Option String

namespace Setter

/-- The setter of a field. -/
def ofField (s : Schema) (f : Field) : Emitted Setter := do
  let stored ← if f.type.isScalar then some <$> s.wireSpelling "" false f.type else pure none
  let conversion ← s.conversion false f.type
  let type ← s.wireSpelling " " true f.type
  return {
    field := f.name, type, storage := f.type.storage, stored
    slot := slotConstant f.name, conversion
    default := f.absentLiteral }

/-- The line of a setter in the builder of a table. -/
def line (tableName : String) (a : Setter) : String :=
  let function :=
    match a.storage with
    | .value => "AddElement"
    | .inlineStruct => "AddStruct"
    | .offset => "AddOffset"
  let stored :=
    match a.stored with
    | none => ""
    | some type => "<" ++ type ++ ">"
  let default :=
    match a.default with
    | none => ""
    | some literal => ", " ++ literal
  "  " ++ oneLine ("void add_" ++ a.field ++ "(" ++ a.type ++ a.field ++ ")")
    ("fbb_." ++ function ++ stored ++ "(" ++ tableName ++ "::" ++ a.slot ++ ", " ++
      converted a.conversion a.field ++ default ++ ");")

end Setter

/-! ## Creation at once -/

/-- A parameter of the function that creates a table. -/
structure CreateParameter where
  type : String
  field : String
  default : String

namespace CreateParameter

/-- The value of an enumeration whose number a literal denotes. -/
def matchingValue? (e : Enumeration) (literal : String) : Option EnumValue := do
  let number ← integer64? literal
  e.values.find? fun value ↦ value.value.toInt = number

/-- The default argument of a field: an enumeration's first value of that number where there is one,
a truth value, or the literal itself. -/
def defaultOf (s : Schema) (options : Options) (f : Field) : Emitted String :=
  match f.type with
  | .scalar _ (some enumName) => do
    let decl ← s.enumeration enumName
    match matchingValue? decl f.defaultValue with
    | some value => s.qualify decl.scope (decl.entryReference options value)
    | none => do return converted (← s.conversion true f.type) f.defaultValue
  | .bool => pure (if f.defaultValue = "0" then "false" else "true")
  | _ => pure f.defaultValue

/-- The parameter of a field. -/
def ofField (s : Schema) (options : Options) (f : Field) : Emitted CreateParameter := do
  let type ← s.wireSpelling " " true f.type
  return ⟨type, f.name, ← defaultOf s options f⟩

end CreateParameter

/-- The widths that fields are sorted by, widest first. -/
def sortedWidths : List Nat := [8, 4, 2, 1]

/-- The order in which fields are added to a table that is created at once: last field first, and
if the table is sorted by size, wider ones before narrower ones. -/
def Aggregate.createOrder (a : Aggregate) : List Field :=
  let lastFirst := a.liveFields.reverse
  if a.sortBySize then
    sortedWidths.flatMap fun width ↦ lastFirst.filter fun f ↦ f.type.slotWidth = width
  else lastFirst

/-! ## Tables -/

/-- What a header holds of a variable aggregate. -/
structure TableFragment where
  doc : List String
  name : String
  /-- The constants of the slots with their offsets. -/
  slots : List (String × UInt16)
  accessors : List TableAccessor
  checks : List Check
  setters : List Setter
  /-- The number of slots of the table, those of deprecated fields included. -/
  slotCount : Nat
  /-- The names of the fields that have to be there. -/
  required : List String
  parameters : List CreateParameter
  /-- The names of the fields in the order in which they are added. -/
  order : List String

namespace TableFragment

/-- The fragment of an aggregate. -/
def ofAggregate (s : Schema) (options : Options) (a : Aggregate) : Emitted TableFragment := do
  let fields := a.liveFields
  let accessors ← fields.mapM (TableAccessor.ofField s options a)
  let checks ← fields.mapM (Check.ofField s)
  let setters ← fields.mapM (Setter.ofField s)
  let parameters ← fields.mapM (CreateParameter.ofField s options)
  return {
    doc := a.doc
    name := a.name
    slots := fields.map fun f ↦ (slotConstant f.name, f.slot)
    accessors
    checks := .tableStart :: checks.flatten ++ [.tableEnd]
    setters
    slotCount := a.fields.length
    required := (fields.filter (·.required)).map (·.name)
    parameters
    order := a.createOrder.map (·.name) }

/-- The lines of the view. -/
def viewLines (f : TableFragment) : List String :=
  docLines "" f.doc ++
    ["struct " ++ f.name ++ " FLATBUFFERS_FINAL_CLASS : private flatbuffers::Table \x7b",
      "  enum \x7b"] ++
    (f.slots.map fun slot ↦ "    " ++ slot.1 ++ " = " ++ toString slot.2.toNat ++ ",") ++
    ["  \x7d;"] ++
    f.accessors.flatMap TableAccessor.lines ++
    ["  bool Verify(flatbuffers::Verifier &verifier) const \x7b"] ++
    conjunctionLines "    return " f.checks ++
    ["  \x7d", "\x7d;", ""]

/-- The lines of the builder. -/
def builderLines (f : TableFragment) : List String :=
  let name := f.name
  let builder := name ++ "Builder"
  ["struct " ++ builder ++ " \x7b",
      "  flatbuffers::FlatBufferBuilder &fbb_;",
      "  flatbuffers::uoffset_t start_;"] ++
    f.setters.map (Setter.line name) ++
    ["  " ++ oneLine (builder ++ "(flatbuffers::FlatBufferBuilder &_fbb) : fbb_(_fbb)")
        "start_ = fbb_.StartTable();",
      "  " ++ builder ++ " &operator=(const " ++ builder ++ " &);",
      "  " ++ offsetTo name ++ " Finish() \x7b",
      "    auto o = " ++ offsetTo name ++ "(fbb_.EndTable(start_, " ++ toString f.slotCount ++
        "));"] ++
    (f.required.map fun field ↦
      "    fbb_.Required(o, " ++ name ++ "::" ++ slotConstant field ++ ");  // " ++ field) ++
    ["    return o;", "  \x7d", "\x7d;", ""]

/-- The lines of the function that creates a table at once. -/
def createLines (f : TableFragment) : List String :=
  let name := f.name
  let signature := "inline " ++ offsetTo name ++ " Create" ++ name
  punctuated "," ") \x7b"
      ((signature ++ "(flatbuffers::FlatBufferBuilder &_fbb") ::
        f.parameters.map fun p ↦ "   " ++ p.type ++ p.field ++ " = " ++ p.default) ++
    ["  " ++ name ++ "Builder builder_(_fbb);"] ++
    (f.order.map fun field ↦ "  builder_.add_" ++ field ++ "(" ++ field ++ ");") ++
    ["  return builder_.Finish();", "\x7d", ""]

/-- The lines of a table. -/
def lines (f : TableFragment) : List String := f.viewLines ++ f.builderLines ++ f.createLines

end TableFragment

end BufferSchema
