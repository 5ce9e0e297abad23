import BufferSchema.Header.Options
import BufferSchema.Header.Phrase
import BufferSchema.Header.Spelling

/-!
# Enumerations in a header

An enumeration becomes a declaration, a table of value names where the values lie close enough, and
for a union a *dispatcher*: the function that verifies a payload by its discriminant. The body of
the dispatcher is kept apart, because it needs aggregates that come later.
-/

namespace BufferSchema

namespace Enumeration

/-- The name of a value inside the enumeration. -/
def entryName (e : Enumeration) (options : Options) (value : EnumValue) : String :=
  if options.prefixedEnums then e.name ++ "_" ++ value.name else value.name

/-- The name of a value as the namespace of the enumeration refers to it. -/
def entryReference (e : Enumeration) (options : Options) (value : EnumValue) : String :=
  if options.scopedEnums then e.name ++ "::" ++ e.entryName options value
  else e.entryName options value

/-- Whether the values lie close enough for a table: the range from first to last holds fewer than
`maxSparseness` numbers for each value. -/
def hasNameTable (e : Enumeration) (maxSparseness : Int64) : Bool :=
  match e.values.head?, e.values.getLast? with
  | some first, some last =>
    (last.value.toInt - first.value.toInt + 1).tdiv e.values.length < maxSparseness.toInt
  | _, _ => false

end Enumeration

/-! ## Name tables -/

/-- The number behind another one. There is none behind the greatest, which stays: no value can lie
beyond it, so that no gap is missed. -/
def nextNumber (number : Int64) : Int64 :=
  if number = Int64.maxValue then number else number + 1

/-- The slots of a name table: the name of each value, in front of it an empty one for every number
from `next` on that is no value. A value below `next` leaves no gap. -/
def nameSlots (next : Int64) : List EnumValue → List String
  | [] => []
  | value :: rest =>
    List.replicate (value.value.toInt - next.toInt).toNat "" ++
      value.name :: nameSlots (nextNumber value.value) rest

/-- A table of value names with the function that reads it. -/
structure NameTable where
  enumName : String
  /-- The names from the first value on; numbers between two values have empty names. -/
  slots : List String
  /-- What is subtracted from a value to find its slot, unless the first value is zero. -/
  offset : Option String

namespace NameTable

/-- The table of an enumeration that has the value `first` and then `rest`. -/
def ofValues (e : Enumeration) (options : Options) (first : EnumValue) (rest : List EnumValue) :
    NameTable where
  enumName := e.name
  slots := nameSlots first.value (first :: rest)
  offset := if first.value = 0 then none else some (e.entryReference options first)

/-- The table of an enumeration. -/
def ofEnum? (e : Enumeration) (options : Options) : Option NameTable :=
  match e.values with
  | [] => none
  | first :: rest =>
    if e.hasNameTable options.maxSparseness then some (ofValues e options first rest) else none

/-- The lines of a table. -/
def lines (table : NameTable) : List String :=
  let name := table.enumName
  let slots := String.join (table.slots.map fun slot ↦ "\"" ++ slot ++ "\", ")
  let offset :=
    match table.offset with
    | none => ""
    | some entry => " - static_cast<int>(" ++ entry ++ ")"
  ["inline const char **EnumNames" ++ name ++ "() \x7b",
    "  static const char *names[] = \x7b " ++ slots ++ "nullptr \x7d;",
    "  return names;",
    "\x7d",
    "",
    oneLine ("inline const char *EnumName" ++ name ++ "(" ++ name ++ " e)")
      ("return EnumNames" ++ name ++ "()[static_cast<int>(e)" ++ offset ++ "];"),
    ""]

end NameTable

/-! ## Dispatchers -/

/-- A case of a dispatcher: a discriminant and the table it selects. The first value of a union
selects none and is always valid. -/
structure DispatchCase where
  label : String
  target : Option String

/-- The line of a case. -/
def DispatchCase.line (c : DispatchCase) : String :=
  "    case " ++ c.label ++ ": " ++
    match c.target with
    | none => "return true;"
    | some target =>
      "return verifier.VerifyTable(reinterpret_cast<const " ++ target ++ " *>(union_obj));"

/-- The function that verifies the payload of a union. -/
structure Dispatcher where
  enumName : String
  cases : List DispatchCase

namespace Dispatcher

/-- How the function is declared. -/
def signature (enumName : String) : String :=
  "inline bool Verify" ++ enumName ++
    "(flatbuffers::Verifier &verifier, const void *union_obj, " ++ enumName ++ " type)"

/-- The cases from the second value on. -/
def payloadCases (s : Schema) (options : Options) (e : Enumeration) :
    List EnumValue → Emitted (List DispatchCase) :=
  List.mapM fun value ↦ do
    match value.unionType with
    | none => throw (.noPayload e.name value.name)
    | some name =>
      let decl ← s.aggregate name
      return ⟨e.entryReference options value, some (← s.qualify decl.scope decl.name)⟩

/-- The dispatcher of a union. -/
def ofEnum (s : Schema) (options : Options) (e : Enumeration) : Emitted Dispatcher :=
  match e.values with
  | [] => pure ⟨e.name, []⟩
  | first :: rest => do
    return ⟨e.name, ⟨e.entryReference options first, none⟩ :: (← payloadCases s options e rest)⟩

/-- The lines of the body. Discriminants without a case fail. -/
def lines (d : Dispatcher) : List String :=
  [signature d.enumName ++ " \x7b", "  switch (type) \x7b"] ++ d.cases.map DispatchCase.line ++
    ["    default: return false;", "  \x7d", "\x7d", ""]

end Dispatcher

/-! ## Enumerations -/

/-- An entry of an enumeration: a name with its number. -/
structure EnumEntry where
  doc : List String
  name : String
  value : Int64

/-- The lines of entries, separated by commas. -/
def EnumEntry.linesOf : List EnumEntry → List String
  | [] => []
  | entry :: rest =>
    docLines "  " entry.doc ++
      ("  " ++ entry.name ++ " = " ++ toString entry.value.toInt ++
        (if rest.isEmpty then "" else ",")) ::
      linesOf rest

/-- What a header holds of an enumeration. -/
structure EnumFragment where
  doc : List String
  name : String
  /-- The storage type of an enumeration that is a scope of its own. -/
  storage : Option String
  entries : List EnumEntry
  nameTable : Option NameTable
  dispatcher : Option Dispatcher

namespace EnumFragment

/-- The fragment of an enumeration. -/
def ofEnum (s : Schema) (options : Options) (e : Enumeration) : Emitted EnumFragment := do
  let dispatcher ← if e.isUnion then some <$> Dispatcher.ofEnum s options e else pure none
  return {
    doc := e.doc
    name := e.name
    storage := if options.scopedEnums then some e.underlying.spelling else none
    entries := e.values.map fun value ↦ ⟨value.doc, e.entryName options value, value.value⟩
    nameTable := NameTable.ofEnum? e options
    dispatcher }

/-- The line that begins the declaration. -/
def headLine (f : EnumFragment) : String :=
  match f.storage with
  | none => "enum " ++ f.name ++ " \x7b"
  | some storage => "enum class " ++ f.name ++ " : " ++ storage ++ " \x7b"

/-- The lines of the declaration, the name table and the signature of the dispatcher. -/
def declarationLines (f : EnumFragment) : List String :=
  docLines "" f.doc ++ f.headLine :: EnumEntry.linesOf f.entries ++ ["\x7d;", ""] ++
    (match f.nameTable with
    | none => []
    | some table => table.lines) ++
    (match f.dispatcher with
    | none => []
    | some d => [Dispatcher.signature d.enumName ++ ";", ""])

/-- The lines of the body of the dispatcher. -/
def dispatcherLines (f : EnumFragment) : List String :=
  match f.dispatcher with
  | none => []
  | some d => d.lines

end EnumFragment

end BufferSchema
