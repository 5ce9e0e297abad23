import BufferSchema.Header.Options
import BufferSchema.Header.Phrase
import BufferSchema.Header.Spelling

/-!
# Root helpers

The functions through which a whole buffer is read, verified and finished. They exist where the
schema has a root type, and carry its name.
-/

namespace BufferSchema

/-- An inline function of a header. -/
structure InlineFunction where
  /-- What stands before the name, a blank included where one is needed. -/
  result : String
  name : String
  parameters : String
  statement : String
  deriving DecidableEq, Repr

/-- The line of a function. -/
def InlineFunction.line (f : InlineFunction) : String :=
  oneLine ("inline " ++ f.result ++ f.name ++ "(" ++ f.parameters ++ ")") f.statement

namespace RootHelper

/-- Reads the root of a buffer. -/
def get (type name : String) : InlineFunction where
  result := "const " ++ type ++ " *"
  name := "Get" ++ name
  parameters := "const void *buf"
  statement := "return flatbuffers::GetRoot<" ++ type ++ ">(buf);"

/-- Hands out the root of a buffer that can be changed. -/
def getMutable (name : String) : InlineFunction where
  result := name ++ " *"
  name := "GetMutable" ++ name
  parameters := "void *buf"
  statement := "return flatbuffers::GetMutableRoot<" ++ name ++ ">(buf);"

/-- Verifies a buffer. -/
def verify (type name : String) : InlineFunction where
  result := "bool "
  name := "Verify" ++ name ++ "Buffer"
  parameters := "flatbuffers::Verifier &verifier"
  statement := "return verifier.VerifyBuffer<" ++ type ++ ">();"

/-- The identifier of files of this schema. -/
def identifier (name value : String) : InlineFunction where
  result := "const char *"
  name := name ++ "Identifier"
  parameters := ""
  statement := "return \"" ++ value ++ "\";"

/-- Tells whether a buffer has the identifier. -/
def hasIdentifier (name : String) : InlineFunction where
  result := "bool "
  name := name ++ "BufferHasIdentifier"
  parameters := "const void *buf"
  statement := "return flatbuffers::BufferHasIdentifier(buf, " ++ name ++ "Identifier());"

/-- The extension of files of this schema. -/
def extension (name value : String) : InlineFunction where
  result := "const char *"
  name := name ++ "Extension"
  parameters := ""
  statement := "return \"" ++ value ++ "\";"

/-- Finishes a buffer, with the identifier if there is one. -/
def finish (type name : String) (identified : Bool) : InlineFunction where
  result := "void "
  name := "Finish" ++ name ++ "Buffer"
  parameters :=
    "flatbuffers::FlatBufferBuilder &fbb, " ++ offsetTo type ++ " root"
  statement :=
    "fbb.Finish(root" ++ (if identified then ", " ++ name ++ "Identifier()" else "") ++ ");"

end RootHelper

/-- The root helpers of a schema. -/
def Schema.rootHelpers (s : Schema) (options : Options) : Emitted (List InlineFunction) := do
  match ← s.rootAggregate with
  | none => return []
  | some (key, root) =>
    let name := root.name
    let type := scopedName key
    return [RootHelper.get type name] ++
      (if options.mutableBuffer then [RootHelper.getMutable name] else []) ++
      [RootHelper.verify type name] ++
      (match s.fileIdentifier with
      | none => []
      | some value => [RootHelper.identifier name value, RootHelper.hasIdentifier name]) ++
      (match s.fileExtension with
      | none => []
      | some value => [RootHelper.extension name value]) ++
      [RootHelper.finish type name s.fileIdentifier.isSome]

end BufferSchema
