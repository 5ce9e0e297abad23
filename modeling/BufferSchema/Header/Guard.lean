import BufferSchema.Schema.Basic
import BufferSchema.Text.Uppercase

/-!
# Include guards
-/

namespace BufferSchema

/-- Whether a character is an ASCII letter or digit. -/
def isAsciiAlphanum (c : Char) : Bool := c.isAlphanum

/-- The name that keeps a header from being read twice: the letters and digits of the file name and
the active namespace, in upper case. -/
def Schema.includeGuard (s : Schema) : String :=
  uppercase ("FLATBUFFERS_GENERATED_" ++ String.ofList (s.fileName.toList.filter isAsciiAlphanum) ++
    "_" ++ s.activeNamespace.path "_" "H_")

end BufferSchema
