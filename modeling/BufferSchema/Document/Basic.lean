/-!
# Schema documents

A schema document is what a front end hands over: enumerations, fixed and variable aggregates and
their fields, with every layout fact already computed. Nothing here is checked; names are plain
text until `BufferSchema.Schema.ofDocument` resolves them.

Numbers have the width of the serialized format, so a document can hold no value that its encoding
cannot.
-/

namespace BufferSchema

/-- The kinds of scalar storage. `utype` stores the discriminant of a union. -/
inductive ScalarKind where
  | utype
  | byte
  | ubyte
  | short
  | ushort
  | int
  | uint
  | long
  | ulong
  | float
  | double
  deriving DecidableEq, Repr

/-- Serialized width in bytes. -/
def ScalarKind.size : ScalarKind → Nat
  | .utype | .byte | .ubyte => 1
  | .short | .ushort => 2
  | .int | .uint | .float => 4
  | .long | .ulong | .double => 8

/-- The type of a field. Declarations are referred to by qualified name. -/
inductive TypeRef where
  /-- A scalar, possibly one that holds the values of an enumeration. -/
  | scalar (kind : ScalarKind) (enumName : Option String)
  | bool
  | string
  | vector (element : TypeRef)
  /-- An aggregate: stored inline when `fixed`, behind an offset otherwise. -/
  | aggregate (target : String) (fixed : Bool)
  /-- A union, whose alternatives are the values of the enumeration `tagEnum`. -/
  | union (tagEnum : String)
  deriving DecidableEq, Repr

namespace TypeRef

/-- Scalars and booleans are stored by value. -/
def isScalar : TypeRef → Bool
  | .scalar _ _ | .bool => true
  | _ => false

/-- Fixed aggregates are stored inline rather than behind an offset. -/
def isStruct : TypeRef → Bool
  | .aggregate _ true => true
  | _ => false

/-- The enumeration whose values a scalar holds. -/
def scalarEnum? : TypeRef → Option String
  | .scalar _ enumName => enumName
  | _ => none

end TypeRef

/-- Position of a namespace in the namespace list of its schema. Two namespaces with one path stay
different as long as their positions differ. -/
abbrev NamespaceId := UInt64

/-- One value of an enumeration. -/
structure EnumValue where
  name : String
  value : Int64
  doc : List String
  /-- The aggregate that this discriminant selects, in the enumeration of a union. -/
  unionType : Option String
  deriving DecidableEq, Repr

/-- An enumeration. -/
structure Enumeration where
  name : String
  scope : NamespaceId
  underlying : ScalarKind
  values : List EnumValue
  isUnion : Bool
  doc : List String
  /-- Whether the header of an included schema already holds it. -/
  generated : Bool
  deriving DecidableEq, Repr

/-- A field of an aggregate. -/
structure Field where
  name : String
  type : TypeRef
  /-- Offset in the table's slot list; without meaning for fixed aggregates. -/
  slot : UInt16
  /-- The literal that stands for an absent value. -/
  defaultValue : String
  deprecated : Bool
  required : Bool
  key : Bool
  /-- A set bit `i` puts a padding member of `8 * 2 ^ i` bits behind the field. -/
  padding : UInt8
  /-- Root type of the schema whose buffer this byte vector holds. -/
  nestedRoot : Option String
  doc : List String
  deriving DecidableEq, Repr

/-- An aggregate: a struct of fixed layout when `fixed`, a table otherwise. -/
structure Aggregate where
  name : String
  scope : NamespaceId
  fixed : Bool
  fields : List Field
  byteSize : UInt64
  minAlign : UInt64
  sortBySize : Bool
  doc : List String
  /-- Whether the header of an included schema already holds it. -/
  generated : Bool
  deriving DecidableEq, Repr

/-- The fields that take part in generated code. -/
def Aggregate.liveFields (aggregate : Aggregate) : List Field :=
  aggregate.fields.filter fun field ↦ !field.deprecated

/-- A schema document. -/
structure Document where
  /-- Name of the schema, without directory or extension. -/
  fileName : String
  sourceFile : Option String
  /-- Scope paths in declaration order; the last one is the scope generated code is put into. -/
  namespaces : List (List String)
  enums : List Enumeration
  aggregates : List Aggregate
  rootType : Option String
  fileIdentifier : Option String
  fileExtension : Option String
  /-- Every file the schema includes, directly or through others. -/
  includedFiles : List String
  deriving DecidableEq, Repr

end BufferSchema
