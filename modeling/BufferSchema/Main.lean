import BufferSchema.Command.Run

/-!
# The program

The command line on the files of the machine. The schema files are read up to the first one that
cannot be, the plan of the command is made from their texts, and its steps are taken.

## What is left out

Nothing is logged. Arguments that are no command are refused with one line, whatever is wrong with
them, and a text that is not YAML is told to be malformed, wherever the mistake is. A mask of
padding above 15 stops the program, as an assertion does. Texts and lists have no bound but memory.
-/

namespace BufferSchema

/-- A failure of the machine's files. -/
def fileErrorOf : IO.Error → FileError
  | .noFileOrDirectory _ _ _ => .notFound
  | .alreadyExists _ _ _ => .alreadyExists
  | .inappropriateType _ 20 _ => .notADirectory
  | .inappropriateType _ 21 _ => .isADirectory
  | e => .other (toString e)

/-- The result of an operation on the machine's files. -/
def attempted {α : Type} (act : IO α) : IO (Except FileError α) := do
  match ← act.toBaseIO with
  | .ok a => return .ok a
  | .error e => return .error (fileErrorOf e)

/-- The texts of files, up to the first one that cannot be read. -/
def readTexts : List String → IO (List (String × Except FileError String))
  | [] => return []
  | path :: paths => do
    match ← attempted (IO.FS.readFile path) with
    | .ok text => return (path, .ok text) :: (← readTexts paths)
    | .error reason => return [(path, .error reason)]

/-- Tells how a command ended. -/
def finish (ending : Ending) : IO UInt32 := do
  match ending with
  | .done => pure ()
  | .failed failure => IO.eprintln failure.text
  | .stopped halt => IO.eprintln halt.message
  return UInt32.ofNat ending.exitCode

/-- Creates a directory and those above it. What the directory itself gives as the reason to fail
counts, unless it is that one above is missing. -/
def createDirectories (path : String) : IO (Except FileError Unit) := do
  match ← attempted (IO.FS.createDir path) with
  | .ok () => return .ok ()
  | .error reason =>
    match ← attempted (IO.FS.createDirAll path) with
    | .ok () => return .ok ()
    | .error later => return .error (if reason = .notFound then later else reason)

/-- Takes the steps of a plan. -/
def takeSteps : List Step → IO UInt32
  | [] => finish .done
  | .say line :: steps => do
    IO.println line
    takeSteps steps
  | .createDirectories path :: steps => do
    match ← createDirectories path with
    | .ok () => takeSteps steps
    | .error reason => finish (.failed (directoryFailure path reason))
  | .write path text :: steps => do
    match ← attempted (IO.FS.writeFile path text) with
    | .ok () => takeSteps steps
    | .error reason => finish (.failed (writeFailure path reason))
  | .fail failure :: _ => finish (.failed failure)
  | .stop halt :: _ => finish (.stopped halt)

end BufferSchema

open BufferSchema in
/-- The entry point of the program. -/
def main (arguments : List String) : IO UInt32 := do
  match Command.ofArguments? arguments with
  | none =>
    IO.eprintln "usage: codegen|depends|analyze -f FILE... [-o DIR] [OPTIONS]"
    return UInt32.ofNat usageExitCode
  | some command =>
    let texts ← readTexts command.files
    let read (path : String) : Except FileError String :=
      (texts.lookup path).getD (.error .notFound)
    takeSteps (Plan.ofCommand read command)
