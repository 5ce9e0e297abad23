/-!
# Command-line arguments

Options are written in a long form, `--name` or `--name=value`, and some in a short one, in which
several may share a dash: `-ab` is `-a -b`, and what follows an option that takes a value is its
value, `-avalue` or `-a=value`. A value may also be the next argument, unless that looks like an
option; a lone dash does not. Nothing else may stand among the arguments.
-/

namespace BufferSchema

/-- What an option takes. -/
inductive OptionKind where
  /-- No value; at most once. -/
  | flag
  /-- A value; at most once. -/
  | single
  /-- A value; any number of times. -/
  | repeated
  deriving DecidableEq, Repr

/-- An option. -/
structure OptionSpec where
  long : String
  short : Option Char
  kind : OptionKind
  deriving DecidableEq, Repr

/-- An option as it was given. -/
structure OptionUse where
  long : String
  value : Option String
  deriving DecidableEq, Repr

namespace OptionSpec

/-- Whether the option takes a value. -/
def takesValue (spec : OptionSpec) : Bool := spec.kind ≠ .flag

/-- Whether an argument looks like an option. -/
def looksLikeOption (argument : String) : Bool :=
  match argument.toList with
  | '-' :: _ :: _ => true
  | _ => false

/-- The use of an option whose value, if it takes one, is the next argument. -/
def useWithNext (spec : OptionSpec) (rest : List String) : Option (OptionUse × List String) :=
  if spec.takesValue then
    match rest with
    | value :: rest =>
      if looksLikeOption value then none else some (⟨spec.long, some value⟩, rest)
    | [] => none
  else some (⟨spec.long, none⟩, rest)

/-- The options of a long form, behind its dashes. -/
def readLong (specs : List OptionSpec) (body : List Char) (rest : List String) :
    Option (OptionUse × List String) := do
  let name := body.takeWhile (· ≠ '=')
  let spec ← specs.find? (·.long.toList = name)
  match body.drop name.length with
  | [] => spec.useWithNext rest
  | _ :: value =>
    if spec.takesValue then some (⟨spec.long, some (String.ofList value)⟩, rest) else none

/-- The options of a short form, behind its dash. -/
def readShort (specs : List OptionSpec) (rest : List String) :
    List Char → Option (List OptionUse × List String)
  | [] => some ([], rest)
  | c :: cs => do
    let spec ← specs.find? (·.short = some c)
    if spec.takesValue then
      match cs with
      | [] => do
        let (use, rest) ← spec.useWithNext rest
        return ([use], rest)
      | '=' :: value => some ([⟨spec.long, some (String.ofList value)⟩], rest)
      | value => some ([⟨spec.long, some (String.ofList value)⟩], rest)
    else do
      let (uses, rest) ← readShort specs rest cs
      return (⟨spec.long, none⟩ :: uses, rest)

/-- The options of a list of arguments, an argument or two per step. Two dashes end them. -/
def readFrom (specs : List OptionSpec) : Nat → List String → Option (List OptionUse)
  | _, [] => some []
  | 0, _ :: _ => none
  | fuel + 1, argument :: rest =>
    match argument.toList with
    | ['-', '-'] => if rest.isEmpty then some [] else none
    | '-' :: '-' :: body => do
      let (use, rest) ← readLong specs body rest
      return use :: (← readFrom specs fuel rest)
    | '-' :: c :: cs => do
      let (uses, rest) ← readShort specs rest (c :: cs)
      return uses ++ (← readFrom specs fuel rest)
    | _ => none

/-- The options of a list of arguments, each as often as it may be given. -/
def read (specs : List OptionSpec) (arguments : List String) : Option (List OptionUse) := do
  let uses ← readFrom specs arguments.length arguments
  let admitted (spec : OptionSpec) : Bool :=
    spec.kind = .repeated || uses.countP (·.long = spec.long) ≤ 1
  if specs.all admitted then some uses else none

end OptionSpec

/-- The values that an option was given. -/
def OptionUse.valuesOf (uses : List OptionUse) (long : String) : List String :=
  (uses.filter (·.long = long)).filterMap (·.value)

/-- Whether an option was given. -/
def OptionUse.given (uses : List OptionUse) (long : String) : Bool := uses.any (·.long = long)

end BufferSchema
