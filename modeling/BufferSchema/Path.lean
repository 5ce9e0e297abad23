/-!
# Paths

Paths are texts whose components are separated by slashes. Empty components and `.` mean nothing,
so that a file name is the last other component, unless that is `..`. The extension of a name begins
behind its last dot; a dot at the start of a name begins none.
-/

namespace BufferSchema.Path

/-- The texts between the slashes of a path. -/
def segments : List Char → List (List Char)
  | [] => [[]]
  | c :: cs =>
    if c = '/' then [] :: segments cs
    else
      match segments cs with
      | [] => [[c]]
      | segment :: rest => (c :: segment) :: rest

/-- The components of a path. -/
def components (path : String) : List String :=
  ((segments path.toList).filter fun s ↦ s ≠ [] ∧ s ≠ ['.']).map String.ofList

/-- Whether a path starts at the root directory. -/
def isAbsolute (path : String) : Bool := path.toList.head? = some '/'

/-- Whether a path ends with a slash. -/
def endsWithSlash (path : String) : Bool := path.toList.getLast? = some '/'

/-- The file name of a path. -/
def fileName? (path : String) : Option String :=
  (components path).getLast?.filter (· ≠ "..")

/-- The texts before and behind the last dot. -/
def splitLastDot? : List Char → Option (List Char × List Char)
  | [] => none
  | c :: cs =>
    match splitLastDot? cs with
    | some (before, behind) => some (c :: before, behind)
    | none => if c = '.' then some ([], cs) else none

/-- The stem and the extension of a file name. -/
def splitName (name : String) : String × Option String :=
  match splitLastDot? name.toList with
  | none | some ([], _) => (name, none)
  | some (stem, extension) => (String.ofList stem, some (String.ofList extension))

/-- The extension of the file name of a path. -/
def extension? (path : String) : Option String := do (splitName (← fileName? path)).2

/-- The file name of a path without its extension. -/
def fileStem? (path : String) : Option String := do return (splitName (← fileName? path)).1

/-- A directory in front of a name, closed by a slash unless it is empty. -/
def asDirectory (directory : String) : String :=
  if directory = "" ∨ endsWithSlash directory then directory else directory ++ "/"

/-- A path taken from a directory. -/
def join (directory path : String) : String :=
  if isAbsolute path then path else asDirectory directory ++ path

/-- The directories above a path, nearest first: the root directory is the last one of an absolute
path, the empty path of another. A path that is one of these has none. -/
def parents (path : String) : List String :=
  let components := components path
  let root := if isAbsolute path then "/" else ""
  (List.range components.length).reverse.map fun count ↦
    root ++ "/".intercalate (components.take count)

/-- A path without the slashes at its end. -/
def trimSlashes (path : String) : String :=
  String.ofList (path.toList.reverse.dropWhile (· = '/')).reverse

end BufferSchema.Path
