import BufferSchema.Command.Arguments
import BufferSchema.Header.Options
import BufferSchema.Text.Numeral

/-!
# Commands

What can be asked for on the command line: writing headers, listing their dependencies, and
reporting on schemas. Every command takes at least one schema file.
-/

namespace BufferSchema

/-- A command. -/
inductive Command where
  /-- Writes the headers of schemas into a directory. -/
  | codegen (files : List String) (directory : String) (options : Options) (verbose : Bool)
  /-- Prints a rule for the header of each schema. -/
  | depends (files : List String) (directory : String)
  /-- Reports on schemas. -/
  | analyze (files : List String) (maxSparseness : Int64)
  deriving Repr

namespace Command

def filesOption : OptionSpec := ⟨"files", some 'f', .repeated⟩
def outputOption : OptionSpec := ⟨"output", some 'o', .single⟩
def maxSparsenessOption : OptionSpec := ⟨"max-sparseness", none, .single⟩

/-- The options that choose the form of a header, and the one for progress messages. -/
def flagOptions : List OptionSpec :=
  [⟨"mutable-buffer", none, .flag⟩, ⟨"scoped-enums", none, .flag⟩, ⟨"prefixed-enums", none, .flag⟩,
    ⟨"include-dependence-headers", none, .flag⟩, ⟨"verbose", some 'v', .flag⟩]

/-- The schema files: at least one, none of them nameless. -/
def filesOf? (uses : List OptionUse) : Option (List String) :=
  let files := OptionUse.valuesOf uses "files"
  if files.isEmpty || files.contains "" then none else some files

/-- The output directory, which cannot be nameless. -/
def directoryOf? (uses : List OptionUse) : Option String :=
  match OptionUse.valuesOf uses "output" with
  | [] => some "generated"
  | directory :: _ => if directory = "" then none else some directory

/-- The distance of values from which on an enumeration has no name table. -/
def maxSparsenessOf? (uses : List OptionUse) : Option Int64 :=
  match OptionUse.valuesOf uses "max-sparseness" with
  | [] => some 5
  | value :: _ => Int64.ofInt <$> integer64? value

/-- The command of a list of arguments, if it is one. -/
def ofArguments? : List String → Option Command
  | "codegen" :: arguments => do
    let uses ← OptionSpec.read
      (filesOption :: outputOption :: maxSparsenessOption :: flagOptions) arguments
    let options : Options :=
      { mutableBuffer := OptionUse.given uses "mutable-buffer"
        scopedEnums := OptionUse.given uses "scoped-enums"
        prefixedEnums := OptionUse.given uses "prefixed-enums"
        includeDependenceHeaders := OptionUse.given uses "include-dependence-headers"
        maxSparseness := ← maxSparsenessOf? uses }
    return codegen (← filesOf? uses) (← directoryOf? uses) options (OptionUse.given uses "verbose")
  | "depends" :: arguments => do
    let uses ← OptionSpec.read [filesOption, outputOption] arguments
    return depends (← filesOf? uses) (← directoryOf? uses)
  | "analyze" :: arguments => do
    let uses ← OptionSpec.read [filesOption, maxSparsenessOption] arguments
    return analyze (← filesOf? uses) (← maxSparsenessOf? uses)
  | _ => none

/-- The schema files of a command. -/
def files : Command → List String
  | codegen files _ _ _ => files
  | depends files _ => files
  | analyze files _ => files

end Command

end BufferSchema
