import BufferSchema.Document.Decode
import BufferSchema.Files.Error
import BufferSchema.Json.Source
import BufferSchema.Path
import BufferSchema.Schema.Resolve
import BufferSchema.Yaml.Source

/-!
# Loading schemas

From a text in one of the two encodings to a schema. The encoding of a file is told by the extension
of its name.
-/

namespace BufferSchema

/-- The encodings of a schema document. -/
inductive Format where
  | yaml
  | json
  deriving DecidableEq, Repr

/-- Why a schema does not load. -/
inductive LoadError where
  | unsupportedFormat (path : String)
  | unreadable (path : String) (reason : FileError)
  | yaml
  /-- A scalar of a YAML text has a gap that does not fit into the buffer of the scalar. -/
  | overfullScalar
  | json (reason : DecodeError)
  | unresolved (reason : ResolveError)
  deriving DecidableEq, Repr

/-- The wording of a failure. What is wrong with a text that does not parse is the decoder's to
say. -/
def LoadError.message : LoadError → String
  | .unsupportedFormat path =>
    "unsupported schema format '" ++ path ++ "' (expected .yaml, .yml or .json)"
  | .unreadable path reason => "failed to read schema " ++ path ++ ": " ++ reason.message
  | .yaml => "failed to parse YAML schema"
  | .overfullScalar => "String join would overflow memory bounds"
  | .json _ => "failed to parse JSON schema"
  | .unresolved reason => reason.message

/-- A result of loading. -/
abbrev Loaded (α : Type) := Except LoadError α

/-- The encoding of the file at a path. Letter case does not count. -/
def Format.ofPath (path : String) : Loaded Format :=
  match ((Path.extension? path).getD "").toLower with
  | "yaml" | "yml" => pure .yaml
  | "json" => pure .json
  | _ => throw (.unsupportedFormat path)

/-- Reads the document of a JSON text. Blanks alone may follow it. -/
def Document.ofJson (text : String) : Decoded Document := do
  let reading := Json.read text
  let document ← decode Json.depthLimit reading.value
  if reading.ended then pure document else throw .malformed

/-- Reads the document of a YAML text. What is behind it is looked at last. -/
def Document.ofYaml (text : String) : Yaml.Scanned Document := do
  let (composition, rest) ← Yaml.compose text
  match (decode Yaml.depthLimit composition.view).run' 0 with
  | .error _ => throw .malformed
  | .ok document =>
    rest.checkEnd
    return document

/-- Why the document of a YAML text does not load. -/
def LoadError.ofDefect : Yaml.Defect → LoadError
  | .malformed => .yaml
  | .overfull => .overfullScalar

/-- Reads the document of a text. -/
def Document.parse (format : Format) (text : String) : Loaded Document :=
  match format with
  | .json => (ofJson text).mapError .json
  | .yaml => (ofYaml text).mapError .ofDefect

/-- Reads and resolves the document of a text. -/
def Schema.parse (format : Format) (text : String) : Loaded Schema := do
  let document ← Document.parse format text
  (ofDocument document).mapError .unresolved

end BufferSchema
