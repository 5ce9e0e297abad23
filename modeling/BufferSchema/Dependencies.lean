import BufferSchema.Path
import BufferSchema.Schema.Basic
import BufferSchema.Text.Ascending

/-!
# Dependencies of a header

The files a generated header depends on, as includes of the header and as a rule for a build. Both
treat the included files of a schema as a set.
-/

namespace BufferSchema

/-- The name of the header of a schema, behind the directory it is written to. -/
def headerName (directory fileName : String) : String := directory ++ fileName ++ "_generated.h"

namespace Schema

/-- The stems of the headers of included schemas, the schema's own left out. -/
def includedStems (s : Schema) : List String :=
  ((ascending s.includedFiles).map fun file ↦ (Path.fileStem? file).getD file).filter
    (· ≠ s.fileName)

/-- The lines that include the headers of included schemas, and a blank one behind them. -/
def includeLines (s : Schema) : List String :=
  match s.includedStems with
  | [] => []
  | stems => stems.map (fun stem ↦ "#include \"" ++ headerName "" stem ++ "\"") ++ [""]

/-- The files that a header is made from. -/
def dependencies (s : Schema) : List String := ascending (s.includedFiles ++ s.sourceFile.toList)

/-- The rule that names a header, in a directory, and the files it is made from. -/
def makeRule (s : Schema) (directory : String) : String :=
  headerName directory s.fileName ++ ":" ++ String.join (s.dependencies.map (" " ++ ·))

end Schema

end BufferSchema
