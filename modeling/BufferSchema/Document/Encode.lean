import BufferSchema.Document.Basic
import BufferSchema.Document.Decode
import BufferSchema.Json.Basic

/-!
# Encoding schema documents

A document as a JSON value in which every member is present, in declaration order.
-/

namespace BufferSchema

/-- The name of a scalar kind. -/
def ScalarKind.name (kind : ScalarKind) : String :=
  ((ScalarKind.named.find? fun entry ↦ entry.2 = kind).map Prod.fst).getD ""

/-- A list of texts. -/
def Json.ofTexts (texts : List String) : Json := .ofList (texts.map .ofString)

/-- A type. -/
def TypeRef.encode : TypeRef → Json
  | .scalar kind enumName =>
    .ofMembers
      [("scalar", .ofMembers [("kind", .ofString kind.name), ("enum", .ofOption enumName)])]
  | .bool => .ofString "bool"
  | .string => .ofString "string"
  | .vector element => .ofMembers [("vector", .ofMembers [("element", element.encode)])]
  | .aggregate target fixed =>
    .ofMembers [("aggregate", .ofMembers [("target", .ofString target), ("fixed", .bool fixed)])]
  | .union tagEnum => .ofMembers [("union", .ofMembers [("tag-enum", .ofString tagEnum)])]

/-- A value of an enumeration. -/
def EnumValue.encode (v : EnumValue) : Json :=
  .ofMembers [("name", .ofString v.name), ("value", .integer v.value.toInt),
    ("doc", .ofTexts v.doc), ("union-type", .ofOption v.unionType)]

/-- An enumeration. -/
def Enumeration.encode (e : Enumeration) : Json :=
  .ofMembers [("name", .ofString e.name), ("namespace", .integer e.scope.toNat),
    ("underlying", .ofString e.underlying.name),
    ("values", .ofList (e.values.map EnumValue.encode)),
    ("is-union", .bool e.isUnion), ("doc", .ofTexts e.doc), ("generated", .bool e.generated)]

/-- A field. -/
def Field.encode (f : Field) : Json :=
  .ofMembers [("name", .ofString f.name), ("type", f.type.encode), ("slot", .integer f.slot.toNat),
    ("default-value", .ofString f.defaultValue), ("deprecated", .bool f.deprecated),
    ("required", .bool f.required), ("key", .bool f.key), ("padding", .integer f.padding.toNat),
    ("nested-root", .ofOption f.nestedRoot), ("doc", .ofTexts f.doc)]

/-- An aggregate. -/
def Aggregate.encode (a : Aggregate) : Json :=
  .ofMembers [("name", .ofString a.name), ("namespace", .integer a.scope.toNat),
    ("fixed", .bool a.fixed), ("fields", .ofList (a.fields.map Field.encode)),
    ("byte-size", .integer a.byteSize.toNat), ("min-align", .integer a.minAlign.toNat),
    ("sort-by-size", .bool a.sortBySize), ("doc", .ofTexts a.doc), ("generated", .bool a.generated)]

/-- A document. -/
def Document.encode (d : Document) : Json :=
  .ofMembers [("file-name", .ofString d.fileName), ("source-file", .ofOption d.sourceFile),
    ("namespaces", .ofList (d.namespaces.map .ofTexts)),
    ("enums", .ofList (d.enums.map Enumeration.encode)),
    ("aggregates", .ofList (d.aggregates.map Aggregate.encode)),
    ("root-type", .ofOption d.rootType),
    ("file-identifier", .ofOption d.fileIdentifier), ("file-extension", .ofOption d.fileExtension),
    ("included-files", .ofTexts d.includedFiles)]

end BufferSchema
