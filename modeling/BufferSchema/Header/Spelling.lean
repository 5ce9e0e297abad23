import BufferSchema.Header.Scope

/-!
# Spellings of types

A type of the schema has several spellings in generated code. The *storage* spelling is what a
buffer holds; the *user-facing* one is what callers see, in which an enumeration goes by its name
and a truth value is a `bool`. The two differ for scalars alone: the elements of a vector are always
spelled as they are stored.
-/

namespace BufferSchema

/-- The spelling of a scalar in storage. -/
def ScalarKind.spelling : ScalarKind → String
  | .utype => "uint8_t"
  | .byte => "int8_t"
  | .ubyte => "uint8_t"
  | .short => "int16_t"
  | .ushort => "uint16_t"
  | .int => "int32_t"
  | .uint => "uint32_t"
  | .long => "int64_t"
  | .ulong => "uint64_t"
  | .float => "float"
  | .double => "double"

/-- The type of an offset. -/
def offsetType : String := "flatbuffers::uoffset_t"

/-- The offset of something of the type `pointee`. -/
def offsetTo (pointee : String) : String := "flatbuffers::Offset<" ++ pointee ++ ">"

namespace TypeRef

/-- Width of a table slot of the type in bytes. An offset takes four. -/
def slotWidth : TypeRef → Nat
  | .scalar kind _ => kind.size
  | .bool => 1
  | .string | .vector _ | .aggregate _ _ | .union _ => 4

/-- The spelling by value in storage. -/
def storageSpelling : TypeRef → String
  | .scalar kind _ => kind.spelling
  | .bool => "uint8_t"
  | .string | .vector _ | .aggregate _ _ | .union _ => offsetTo "void"

/-- The spelling of a stored element or argument, given the spelling `pointee` of what it points
to: scalars by value, structs by pointer, all else by offset. `behind` follows every spelling but
that of a pointer. -/
def storedAs (pointee behind : String) : TypeRef → String
  | .aggregate _ true => "const " ++ pointee ++ " *"
  | .aggregate _ false | .string | .vector _ | .union _ => offsetTo pointee ++ behind
  | .scalar kind _ => kind.spelling ++ behind
  | .bool => "uint8_t" ++ behind

end TypeRef

namespace Schema

/-- The spelling by value. -/
def basicSpelling (s : Schema) (userFacing : Bool) (type : TypeRef) : Emitted String :=
  if userFacing then
    match type with
    | .scalar _ (some name) => do
      let decl ← s.enumeration name
      s.qualify decl.scope decl.name
    | .bool => pure "bool"
    | _ => pure type.storageSpelling
  else pure type.storageSpelling

/-- The spelling of what a string, a vector or an aggregate is pointed to as. -/
def pointee (s : Schema) : TypeRef → Emitted String
  | .string => pure "flatbuffers::String"
  | .vector element => do
    return "flatbuffers::Vector<" ++ element.storedAs (← s.pointee element) "" ++ ">"
  | .aggregate target _ => do
    let decl ← s.aggregate target
    s.qualify decl.scope decl.name
  | .union _ | .scalar _ _ | .bool => pure "void"

/-- The spelling for building: scalars by value, structs by pointer, all else by offset. `behind`
follows every spelling but that of a pointer. -/
def wireSpelling (s : Schema) (behind : String) (userFacing : Bool) (type : TypeRef) :
    Emitted String :=
  if type.isScalar then do return (← s.basicSpelling userFacing type) ++ behind
  else do return type.storedAs (← s.pointee type) behind

/-- The spelling that has the serialized size of a field, for bounds checks. -/
def sizeSpelling (s : Schema) (type : TypeRef) : Emitted String :=
  match type with
  | .scalar _ _ | .bool => pure type.storageSpelling
  | .aggregate _ true => s.pointee type
  | .aggregate _ false | .string | .vector _ | .union _ => pure offsetType

/-- The spelling for reading: scalars by value with `afterValue` behind them, all else as what is
pointed to, between `before` and `after`. -/
def viewSpelling (s : Schema) (afterValue before after : String) (userFacing : Bool)
    (type : TypeRef) : Emitted String :=
  if type.isScalar then do return (← s.basicSpelling userFacing type) ++ afterValue
  else do return before ++ (← s.pointee type) ++ after

/-- The type that a value is converted to when it passes from storage to callers, or back unless
`toUser`. Only enumerations and truth values look different on the two sides. -/
def conversion (s : Schema) (toUser : Bool) (type : TypeRef) : Emitted (Option String) :=
  match type with
  | .scalar _ (some _) | .bool => some <$> s.basicSpelling toUser type
  | _ => pure none

end Schema

end BufferSchema
