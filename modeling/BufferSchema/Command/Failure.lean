import BufferSchema.Schema.Load

/-!
# Failures of commands

A failure says what could not be done and, outermost first, why. A halt ends a command without
saying what it was about to do.
-/

namespace BufferSchema

/-- Why a schema does not load, outermost reason first. -/
def LoadError.causes : LoadError → List String
  | e@(.unreadable _ reason) => [e.message, reason.message]
  | .json reason =>
    let cause := reason.message?.getD "malformed text"
    [(LoadError.json reason).message ++ ": " ++ cause, cause]
  | .yaml => [LoadError.yaml.message ++ ": malformed text", "malformed text"]
  | e@(.unsupportedFormat _) | e@(.unresolved _) | e@.overfullScalar => [e.message]

/-- The failure of a command. -/
structure CommandFailure where
  task : String
  causes : List String
  deriving DecidableEq, Repr

namespace CommandFailure

/-- A number right-aligned in five columns. -/
def numberLabel (n : Nat) : String :=
  let digits := toString n
  String.ofList (List.replicate (5 - digits.length) ' ') ++ digits ++ ": "

/-- A cause behind its label; further lines of it are indented. -/
def causeText (label indent cause : String) : String :=
  label ++ String.ofList (cause.toList.flatMap fun c ↦
    if c = '\n' then '\n' :: indent.toList else [c])

/-- The text of a failure. Several causes are numbered. -/
def text (failure : CommandFailure) : String :=
  let causes :=
    match failure.causes with
    | [] => []
    | [cause] => ["", "Caused by:", causeText "    " "    " cause]
    | causes => "" :: "Caused by:" :: causes.zipIdx.map fun (cause, n) ↦
        causeText (numberLabel n) "       " cause
  "\n".intercalate (("Error: " ++ failure.task) :: causes)

end CommandFailure

/-- Why a command ends at once. -/
inductive Halt where
  /-- A schema cannot be emitted. -/
  | emission (fault : Fault)
  /-- A schema file has a scalar that cannot be kept. -/
  | overfullScalar
  deriving DecidableEq, Repr

/-- The wording of a halt. -/
def Halt.message : Halt → String
  | .emission fault => fault.message
  | .overfullScalar => LoadError.overfullScalar.message

end BufferSchema
