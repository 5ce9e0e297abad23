import BufferSchema.Command.Basic
import BufferSchema.Command.Failure
import BufferSchema.Dependencies
import BufferSchema.Header.Basic
import BufferSchema.Report

/-!
# Plans

A command is carried out in two parts. First it makes a *plan*: the steps it will take, which depend
on nothing but the contents of the schema files. Then the steps are taken, one by one, until one of
them fails. Loading every schema is part of making the plan, so a schema that does not load stops a
command before its first change.
-/

namespace BufferSchema

/-- A step of a plan. -/
inductive Step where
  /-- Prints a line. -/
  | say (line : String)
  /-- Creates a directory and those above it. -/
  | createDirectories (path : String)
  /-- Writes a text into a file. -/
  | write (path text : String)
  /-- Ends the command, which cannot be done. -/
  | fail (failure : CommandFailure)
  /-- Ends the command at once. -/
  | stop (halt : Halt)
  deriving Repr

namespace Plan

/-- Prints lines, if they are wanted. -/
def sayWhen (wanted : Bool) (lines : List String) : List Step :=
  if wanted then lines.map .say else []

/-! ## Loading -/

/-- Loads the schema file at a path; `read` gives the texts of files. -/
def load (read : String → Except FileError String) (path : String) : Loaded Schema := do
  let format ← Format.ofPath path
  let text ← (read path).mapError (.unreadable path)
  Schema.parse format text

/-- The line that tells of a loaded schema. -/
def loadedLine (path : String) (s : Schema) : String :=
  "    - " ++ path ++ " (" ++ toString s.enums.entries.length ++ " enums, " ++
    toString s.aggregates.entries.length ++ " aggregates)"

/-- Ends the command at the schema file at a path, which does not load. -/
def notLoaded (path : String) : LoadError → Step
  | .overfullScalar => .stop .overfullScalar
  | e => .fail ⟨"failed to load schema model " ++ path, e.causes⟩

/-- Loads schema files in order and goes on with all of them, or ends at the first one that does
not load. -/
def loadAll (read : String → Except FileError String) (verbose : Bool)
    (next : List Schema → List Step) : List String → List Step
  | [] => next []
  | path :: paths =>
    match load read path with
    | .error e => [notLoaded path e]
    | .ok s =>
      sayWhen verbose [loadedLine path s] ++
        loadAll read verbose (fun schemas ↦ next (s :: schemas)) paths

/-- Announces the loading of schema files and loads them. -/
def announceAndLoad (read : String → Except FileError String) (verbose : Bool)
    (paths : List String) (next : List Schema → List Step) : List Step :=
  sayWhen verbose ["[~] Loading " ++ toString paths.length ++ " schema file(s)..."] ++
    loadAll read verbose next paths

/-! ## Commands -/

/-- Writes the header of a schema, if there is anything to emit. -/
def writeHeader (directory : String) (options : Options) (verbose : Bool) (s : Schema) :
    List Step :=
  sayWhen verbose ["[~] Generating code for '" ++ s.fileName ++ "'"] ++
    match s.generate options with
    | .error fault => [.stop (.emission fault)]
    | .ok code =>
      if code = "" then sayWhen verbose ["[~] Nothing to generate for '" ++ s.fileName ++ "'"]
      else
        let path := Path.join directory (headerName "" s.fileName)
        [.createDirectories directory, .write path code] ++
          sayWhen verbose ["[✓] Generated " ++ path]

/-- The lines that tell what a command was asked for. -/
def configurationLines (files : List String) (directory : String) (options : Options) :
    List String :=
  ["Schema Compiler - C++ Code Generation",
      "=====================================",
      "",
      "[~] Configuration:",
      "  Output directory: " ++ directory,
      "  Mutable buffer: " ++ truthText options.mutableBuffer,
      "  Scoped enums: " ++ truthText options.scopedEnums,
      "  Prefixed enums: " ++ truthText options.prefixedEnums,
      "  Dependence headers: " ++ truthText options.includeDependenceHeaders,
      "  Input files: " ++ toString files.length] ++
    files.map ("    - " ++ ·) ++
    [""]

/-- Writes the headers of schemas. -/
def codegen (read : String → Except FileError String) (files : List String) (directory : String)
    (options : Options) (verbose : Bool) : List Step :=
  sayWhen verbose (configurationLines files directory options) ++
    announceAndLoad read verbose files fun schemas ↦
      .createDirectories directory ::
        schemas.flatMap (writeHeader directory options verbose) ++
        [.say "[✓] Code generation complete!"]

/-- Prints the rules for the headers of schemas. -/
def depends (read : String → Except FileError String) (files : List String) (directory : String) :
    List Step :=
  announceAndLoad read false files fun schemas ↦
    schemas.map fun s ↦ .say (s.makeRule (Path.asDirectory directory))

/-- Reports on a schema. -/
def reportOn (options : Options) (s : Schema) : List Step :=
  .say "" ::
    match s.reportLines options with
    | .error fault => [.stop (.emission fault)]
    | .ok lines => lines.map .say

/-- Reports on schemas. -/
def analyze (read : String → Except FileError String) (files : List String)
    (maxSparseness : Int64) : List Step :=
  ["Schema Compiler - Model Analysis Tool", "====================================", ""].map .say ++
    announceAndLoad read true files fun schemas ↦
      schemas.flatMap (reportOn { maxSparseness })

/-- The plan of a command. -/
def ofCommand (read : String → Except FileError String) : Command → List Step
  | .codegen files directory options verbose => codegen read files directory options verbose
  | .depends files directory => depends read files directory
  | .analyze files maxSparseness => analyze read files maxSparseness

end Plan

/-- The failure to create a directory. -/
def directoryFailure (path : String) (reason : FileError) : CommandFailure :=
  ⟨"failed to create output directory " ++ path, [reason.message]⟩

/-- The failure to write a file. -/
def writeFailure (path : String) (reason : FileError) : CommandFailure :=
  ⟨"failed to write " ++ path, [reason.message]⟩

end BufferSchema
