import BufferSchema.Decoding.Record
import BufferSchema.Document.Basic

/-!
# Decoding schema documents

How a schema document is written: the members of each record with their keys and defaults, and the
variants of types and scalar kinds. The definitions hold for every `Source`.
-/

namespace BufferSchema

variable {ν : Type} {m : Type → Type} [Monad m] [MonadExcept DecodeError m] [Source ν m]

/-! ## Members -/

namespace Member

/-- A text that has to be there. -/
def text (key : String) : Member ν m := ⟨key, String, Source.text, none⟩

/-- A text that may be absent. -/
def optionalText (key : String) : Member ν m := ⟨key, Option String, Source.optionalText, some none⟩

/-- A truth value that has to be there. -/
def flag (key : String) : Member ν m := ⟨key, Bool, Source.flag, none⟩

/-- A truth value that is false where it is missing. -/
def defaultFlag (key : String) : Member ν m := ⟨key, Bool, Source.flag, some false⟩

/-- A list of texts that is empty where it is missing. -/
def texts (key : String) : Member ν m := ⟨key, List String, Source.list Source.text, some []⟩

/-- A namespace, the first one where it is missing. -/
def scope : Member ν m := ⟨"namespace", NamespaceId, Source.index, some 0⟩

end Member

/-! ## Types -/

/-- Every kind of scalar with its name. -/
def ScalarKind.named : List (String × ScalarKind) :=
  [("utype", .utype), ("byte", .byte), ("ubyte", .ubyte), ("short", .short), ("ushort", .ushort),
    ("int", .int), ("uint", .uint), ("long", .long), ("ulong", .ulong), ("float", .float),
    ("double", .double)]

/-- The scalar kind of a name. -/
def ScalarKind.ofName (name : String) : Decoded ScalarKind :=
  match named.lookup name with
  | some kind => pure kind
  | none => throw (.unknownVariant name (named.map (·.1)))

/-- A scalar kind inside a type, where a map in the place of the name counts as content. Within it
`depth` more containers may nest. -/
def ScalarKind.decode (depth : Nat) (v : ν) : m ScalarKind := do
  match ← Source.variant "enum ScalarKind" depth v with
  | .bare name => decided (ofName name)
  | .keyed members =>
    Source.singleMember members fun name _ ↦ do
      let _ ← decided (ofName name)
      throw (DecodeError.invalidType .map "unit variant")

namespace TypeRef

/-- The names of the variants of a type. -/
def variantNames : List String := ["scalar", "bool", "string", "vector", "aggregate", "union"]

/-- A type that is written as a bare name. -/
def ofName (name : String) : Decoded TypeRef :=
  if name = "bool" then pure .bool
  else if name = "string" then pure .string
  else if name ∈ variantNames then throw (.invalidType .unitVariant "struct variant")
  else throw (.unknownVariant name variantNames)

/-- A scalar within whose kind `depth` more containers may nest. -/
def scalarRecord (depth : Nat) : Record ν m TypeRef where
  title := "struct variant TypeRef::Scalar"
  members := [⟨"kind", ScalarKind, ScalarKind.decode depth, none⟩, .optionalText "enum"]
  build := fun (kind, enumName, ()) ↦ .scalar kind enumName

def vectorRecord (element : ν → m TypeRef) : Record ν m TypeRef where
  title := "struct variant TypeRef::Vector"
  members := [⟨"element", TypeRef, element, none⟩]
  build := fun (element, ()) ↦ .vector element

def aggregateRecord : Record ν m TypeRef where
  title := "struct variant TypeRef::Aggregate"
  members := [.text "target", .flag "fixed"]
  build := fun (target, fixed, ()) ↦ .aggregate target fixed

def unionRecord : Record ν m TypeRef where
  title := "struct variant TypeRef::Union"
  members := [.text "tag-enum"]
  build := fun (tagEnum, ()) ↦ .union tagEnum

/-- Reads the content of the variant with members that has the given name, within which `depth` more
containers may nest, and elements by `element`. -/
def decodeContent (depth : Nat) (element : ν → m TypeRef) (name : String) (content : ν) :
    m TypeRef :=
  let read (record : Record ν m TypeRef) : m TypeRef := do
    let form ← Source.record record.title content
    if depth = 0 then throw DecodeError.malformed else record.decode form
  match name with
  | "scalar" => read (scalarRecord (depth - 1))
  | "vector" => read (vectorRecord element)
  | "aggregate" => read aggregateRecord
  | "union" => read unionRecord
  | _ =>
    if name ∈ variantNames then throw (DecodeError.invalidType .map "unit variant")
    else throw (DecodeError.unknownVariant name variantNames)

/-- Reads a type within which `depth` more containers may nest, and elements by `element`. -/
def decodeWith (depth : Nat) (element : ν → m TypeRef) (v : ν) : m TypeRef := do
  match ← Source.variant "enum TypeRef" depth v with
  | .bare name => decided (ofName name)
  | .keyed members => Source.singleMember members (decodeContent (depth - 1) element)

/-- Reads a type within which `depth` more containers may nest: each vector takes two. -/
def decode : Nat → ν → m TypeRef
  | 0 => decodeWith 0 fun _ ↦ throw DecodeError.malformed
  | 1 => decodeWith 1 fun _ ↦ throw DecodeError.malformed
  | depth + 2 => decodeWith (depth + 2) (decode depth)

end TypeRef

/-! ## Declarations -/

namespace EnumValue

def record : Record ν m EnumValue where
  title := "struct EnumVal"
  members := [.text "name", ⟨"value", Int64, Source.int64, none⟩, .texts "doc",
    .optionalText "union-type"]
  build := fun (name, value, doc, unionType, ()) ↦ { name, value, doc, unionType }

def decode (v : ν) : m EnumValue := do record.decode (← Source.record "struct EnumVal" v)

end EnumValue

namespace Enumeration

def record : Record ν m Enumeration where
  title := "struct EnumDecl"
  members := [.text "name", .scope,
    ⟨"underlying", ScalarKind, Source.unitVariant ScalarKind.ofName, none⟩,
    ⟨"values", List EnumValue, Source.list EnumValue.decode, none⟩,
    .defaultFlag "is-union", .texts "doc", .defaultFlag "generated"]
  build := fun (name, scope, underlying, values, isUnion, doc, generated, ()) ↦
    { name, scope, underlying, values, isUnion, doc, generated }

def decode (v : ν) : m Enumeration := do record.decode (← Source.record "struct EnumDecl" v)

end Enumeration

namespace Field

/-- A field inside whose type `depth` more containers may nest. -/
def record (depth : Nat) : Record ν m Field where
  title := "struct FieldDecl"
  members := [.text "name", ⟨"type", TypeRef, TypeRef.decode depth, none⟩,
    ⟨"slot", UInt16, Source.uint16, some 0⟩, ⟨"default-value", String, Source.text, some "0"⟩,
    .defaultFlag "deprecated", .defaultFlag "required", .defaultFlag "key",
    ⟨"padding", UInt8, Source.uint8, some 0⟩, .optionalText "nested-root", .texts "doc"]
  build := fun (name, type, slot, defaultValue, deprecated, required, key, padding, nestedRoot, doc,
      ()) ↦
    { name, type, slot, defaultValue, deprecated, required, key, padding, nestedRoot, doc }

def decode (depth : Nat) (v : ν) : m Field := do
  (record depth).decode (← Source.record "struct FieldDecl" v)

end Field

namespace Aggregate

/-- An aggregate inside whose field types `depth` more containers may nest. -/
def record (depth : Nat) : Record ν m Aggregate where
  title := "struct AggregateDecl"
  members := [.text "name", .scope, .flag "fixed",
    ⟨"fields", List Field, Source.list (Field.decode depth), none⟩,
    ⟨"byte-size", UInt64, Source.uint64, some 0⟩, ⟨"min-align", UInt64, Source.uint64, some 1⟩,
    .defaultFlag "sort-by-size", .texts "doc", .defaultFlag "generated"]
  build := fun (name, scope, fixed, fields, byteSize, minAlign, sortBySize, doc, generated, ()) ↦
    { name, scope, fixed, fields, byteSize, minAlign, sortBySize, doc, generated }

def decode (depth : Nat) (v : ν) : m Aggregate := do
  (record depth).decode (← Source.record "struct AggregateDecl" v)

end Aggregate

namespace Document

/-- The number of containers around a type: the document, its aggregates, one of them, its fields
and one of those. -/
def typeLevel : Nat := 5

/-- A document inside whose field types `depth` more containers may nest. -/
def record (depth : Nat) : Record ν m Document where
  title := "struct SchemaFile"
  members := [.text "file-name", .optionalText "source-file",
    ⟨"namespaces", List (List String), Source.list (Source.list Source.text), some []⟩,
    ⟨"enums", List Enumeration, Source.list Enumeration.decode, some []⟩,
    ⟨"aggregates", List Aggregate, Source.list (Aggregate.decode depth), some []⟩,
    .optionalText "root-type", .optionalText "file-identifier", .optionalText "file-extension",
    .texts "included-files"]
  build := fun (fileName, sourceFile, namespaces, enums, aggregates, rootType, fileIdentifier,
      fileExtension, includedFiles, ()) ↦
    { fileName, sourceFile, namespaces, enums, aggregates, rootType, fileIdentifier, fileExtension,
      includedFiles }

/-- Reads a document in which `depth` containers may nest. -/
def decode (depth : Nat) (v : ν) : m Document := do
  (record (depth - typeLevel)).decode (← Source.record "struct SchemaFile" v)

end Document

end BufferSchema
