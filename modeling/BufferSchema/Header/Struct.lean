import BufferSchema.Header.Options
import BufferSchema.Header.Phrase
import BufferSchema.Header.Spelling

/-!
# Fixed aggregates in a header

A fixed aggregate becomes a struct whose members are private, because they hold little-endian data
on every machine, with a constructor and accessors that convert. Padding is explicit: a field's
padding mask puts members behind it, numbered through the whole struct.
-/

namespace BufferSchema

/-! ## Padding -/

/-- The widths in bits of the members that a padding mask stands for, least bit first. A mask has
four bits. -/
def paddingWidths (mask : UInt8) : Emitted (List Nat) :=
  if mask &&& 0xF0 = 0 then
    pure (((List.range 4).filter fun i ↦ mask.toNat.testBit i).map fun i ↦ 8 * Nat.pow 2 i)
  else throw (.widePadding mask)

/-! ## Members -/

/-- A member of a struct. -/
inductive StructMember where
  | field (type name : String)
  | padding (width number : Nat)
  deriving DecidableEq, Repr

/-- The name of a padding member. -/
def paddingName (number : Nat) : String := "__padding" ++ toString number

/-- The line that declares a member. -/
def StructMember.line : StructMember → String
  | .field type name => "  " ++ type ++ name ++ "_;"
  | .padding width number => "  int" ++ toString width ++ "_t " ++ paddingName number ++ ";"

/-- The members of fields, padding being numbered from `number` on. -/
def StructMember.ofFields (s : Schema) (number : Nat) : List Field → Emitted (List StructMember)
  | [] => pure []
  | f :: rest => do
    let type ← s.viewSpelling " " "" " " false f.type
    let widths ← paddingWidths f.padding
    let members ← ofFields s (number + widths.length) rest
    return .field type f.name ::
      (widths.zipIdx number).map (fun (width, n) ↦ .padding width n) ++ members

/-! ## The constructor -/

/-- A parameter of a constructor. -/
structure StructParameter where
  type : String
  name : String

/-- The parameter of a field. -/
def StructParameter.ofField (s : Schema) (f : Field) : Emitted StructParameter := do
  return ⟨← s.viewSpelling " " "const " " &" true f.type, "_" ++ f.name⟩

/-- What a constructor initializes a member with. -/
inductive StructInitializer where
  | field (name value : String)
  | padding (number : Nat)
  deriving DecidableEq, Repr

/-- The text of an initializer. -/
def StructInitializer.text : StructInitializer → String
  | .field name value => name ++ "_(" ++ value ++ ")"
  | .padding number => paddingName number ++ "(0)"

/-- The initializers of fields, padding being numbered from `number` on. -/
def StructInitializer.ofFields (s : Schema) (number : Nat) :
    List Field → Emitted (List StructInitializer)
  | [] => pure []
  | f :: rest => do
    let argument := "_" ++ f.name
    let value ←
      if f.type.isScalar then do
        let stored := converted (← s.conversion false f.type) argument
        pure ("flatbuffers::EndianScalar(" ++ stored ++ ")")
      else pure argument
    let count := (← paddingWidths f.padding).length
    let initializers ← ofFields s (number + count) rest
    return .field f.name value :: (List.range' number count).map .padding ++ initializers

/-- The statement that keeps an unused padding member quiet. -/
def StructInitializer.voidStatement? : StructInitializer → Option String
  | .field _ _ => none
  | .padding number => some (" (void)" ++ paddingName number ++ ";")

/-! ## Accessors -/

/-- The accessors of a field. -/
structure StructAccessor where
  doc : List String
  reader : String
  /-- The function that writes the field, in a buffer that can be changed. -/
  mutator : Option String

/-- The accessors of a field. -/
def StructAccessor.ofField (s : Schema) (options : Options) (f : Field) :
    Emitted StructAccessor := do
  let stored :=
    if f.type.isScalar then "flatbuffers::EndianScalar(" ++ f.name ++ "_)" else f.name ++ "_"
  let result ← s.viewSpelling " " "const " " &" true f.type
  let value := converted (← s.conversion true f.type) stored
  let mutator ←
    if options.mutableBuffer then
      if f.type.isScalar then do
        let type ← s.basicSpelling true f.type
        let value := converted (← s.conversion false f.type) ("_" ++ f.name)
        pure (some (oneLine ("void mutate_" ++ f.name ++ "(" ++ type ++ " _" ++ f.name ++ ")")
          ("flatbuffers::WriteScalar(&" ++ f.name ++ "_, " ++ value ++ ");")))
      else do
        let type ← s.viewSpelling "" "" " &" true f.type
        pure (some (oneLine (type ++ "mutable_" ++ f.name ++ "()") ("return " ++ f.name ++ "_;")))
    else pure none
  return {
    doc := f.doc
    reader := oneLine (result ++ f.name ++ "() const") ("return " ++ value ++ ";")
    mutator }

/-- The lines of the accessors of a field. -/
def StructAccessor.lines (a : StructAccessor) : List String :=
  docLines "  " a.doc ++ ("  " ++ a.reader) :: (a.mutator.map ("  " ++ ·)).toList

/-! ## Structs -/

/-- What a header holds of a fixed aggregate. -/
structure StructFragment where
  doc : List String
  name : String
  minAlign : UInt64
  byteSize : UInt64
  members : List StructMember
  parameters : List StructParameter
  initializers : List StructInitializer
  accessors : List StructAccessor

namespace StructFragment

/-- The fragment of an aggregate. -/
def ofAggregate (s : Schema) (options : Options) (a : Aggregate) : Emitted StructFragment := do
  let members ← StructMember.ofFields s 0 a.fields
  let parameters ← a.fields.mapM (StructParameter.ofField s)
  let initializers ← StructInitializer.ofFields s 0 a.fields
  let accessors ← a.fields.mapM (StructAccessor.ofField s options)
  return {
    doc := a.doc, name := a.name, minAlign := a.minAlign, byteSize := a.byteSize
    members, parameters, initializers, accessors }

/-- The lines of the constructor. -/
def constructorLines (f : StructFragment) : List String :=
  let parameters := ", ".intercalate (f.parameters.map fun p ↦ p.type ++ p.name)
  let initializers := ", ".intercalate (f.initializers.map StructInitializer.text)
  let voided := String.join (f.initializers.filterMap StructInitializer.voidStatement?)
  ["  " ++ f.name ++ "(" ++ parameters ++ ")",
    "    : " ++ initializers ++ " \x7b" ++ voided ++ " \x7d",
    ""]

/-- The lines of a struct. -/
def lines (f : StructFragment) : List String :=
  docLines "" f.doc ++
    ["MANUALLY_ALIGNED_STRUCT(" ++ toString f.minAlign.toNat ++ ") " ++ f.name ++
        " FLATBUFFERS_FINAL_CLASS \x7b",
      " private:"] ++
    f.members.map StructMember.line ++
    ["", " public:"] ++
    f.constructorLines ++
    f.accessors.flatMap StructAccessor.lines ++
    ["\x7d;", "STRUCT_END(" ++ f.name ++ ", " ++ toString f.byteSize.toNat ++ ");", ""]

end StructFragment

end BufferSchema
