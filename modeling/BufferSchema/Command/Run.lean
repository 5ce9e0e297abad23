import BufferSchema.Command.Plan
import BufferSchema.Files.Tree
import BufferSchema.Text.Lines

/-!
# Running commands on a file tree

The outcome of a command on a file tree: how it ended, what it printed, and the tree behind it.
-/

namespace BufferSchema

/-- How a command ended. -/
inductive Ending where
  | done
  | failed (failure : CommandFailure)
  | stopped (halt : Halt)
  deriving DecidableEq, Repr

/-- The number that tells other programs how a command ended. -/
def Ending.exitCode : Ending → Nat
  | .done => 0
  | .failed _ => 1
  | .stopped _ => 101

/-- The number that stands for arguments that are no command. -/
def usageExitCode : Nat := 2

/-- What a command printed and left behind. -/
structure Outcome where
  ending : Ending
  output : List String
  tree : FileTree

namespace Outcome

/-- The outcome with a line printed before. -/
def saying (line : String) (outcome : Outcome) : Outcome :=
  { outcome with output := line :: outcome.output }

/-- What was printed, as one text. -/
def outputText (outcome : Outcome) : String := unlines outcome.output

end Outcome

/-- Takes the steps of a plan until one of them fails. -/
def FileTree.run (t : FileTree) : List Step → Outcome
  | [] => ⟨.done, [], t⟩
  | .say line :: steps => (t.run steps).saying line
  | .createDirectories path :: steps =>
    match t.createDirectories path with
    | (t, .ok ()) => t.run steps
    | (t, .error reason) => ⟨.failed (directoryFailure path reason), [], t⟩
  | .write path text :: steps =>
    match t.write path text with
    | .ok t => t.run steps
    | .error reason => ⟨.failed (writeFailure path reason), [], t⟩
  | .fail failure :: _ => ⟨.failed failure, [], t⟩
  | .stop halt :: _ => ⟨.stopped halt, [], t⟩

/-- Carries out a command. -/
def FileTree.carryOut (t : FileTree) (command : Command) : Outcome :=
  t.run (Plan.ofCommand t.read command)

end BufferSchema
