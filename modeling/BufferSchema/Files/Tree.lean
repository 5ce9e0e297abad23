import BufferSchema.Files.Error
import BufferSchema.Path

/-!
# File trees

Files and directories as a value, with the operations that commands need: reading a text, creating
directories and writing a text. A place in the tree is the list of names that leads to it from the
root. Paths are followed name by name, and every name but the last has to lead to a directory; a
relative path starts at the working directory.

A file need not hold a text that can be read; then it holds the reason instead, until something is
written into it. An operation that fails may have done part of its work, so all of them give the
tree back.
-/

namespace BufferSchema

/-- What a file holds. -/
inductive FileContent where
  | text (text : String)
  /-- No text that can be read: octets that are none, or a file that must not be read. -/
  | unreadable (reason : FileError)
  deriving DecidableEq, Repr

/-- As a text, a content shows what can be read of it. -/
instance : Coe FileContent String where
  coe
    | .text text => text
    | .unreadable _ => ""

/-- What is found in a file tree. -/
inductive FileEntry where
  | directory
  | file (content : FileContent)
  deriving DecidableEq, Repr

/-- A place in a file tree: the names that lead to it from the root. -/
abbrev Place := List String

/-- A file tree, with the place of the working directory. -/
structure FileTree where
  entries : List (Place × FileEntry)
  working : Place

namespace FileTree

/-- The entry at a place. The root is a directory. -/
def entry? (t : FileTree) (place : Place) : Option FileEntry :=
  if place = [] then some .directory else t.entries.lookup place

/-- The tree with an entry at a place, instead of the one that was there. -/
def set (t : FileTree) (place : Place) (entry : FileEntry) : FileTree :=
  { t with entries := (place, entry) :: t.entries.filter fun e ↦ !decide (e.1 = place) }

/-! ## Following paths -/

/-- The number of octets that a name may have. -/
def nameLimit : Nat := 255

/-- The number of octets that a path may have. -/
def pathLimit : Nat := 4095

/-- Goes from a place to the one of a name in it. -/
def step (t : FileTree) (place : Place) (name : String) : Except FileError Place :=
  match t.entry? place with
  | none => throw .notFound
  | some (.file _) => throw .notADirectory
  | some .directory =>
    if name = "" ∨ name = "." then pure place
    else if name = ".." then pure place.dropLast
    else if nameLimit < name.utf8ByteSize then throw .nameTooLong
    else pure (place ++ [name])

/-- The place that a path leads to, whether there is anything or not. -/
def follow (t : FileTree) (path : String) : Except FileError Place :=
  if '\x00' ∈ path.toList then throw .nulInPath
  else if path = "" then throw .notFound
  else if pathLimit < path.utf8ByteSize then throw .nameTooLong
  else
    ((Path.segments path.toList).map String.ofList).foldlM t.step
      (if Path.isAbsolute path then [] else t.working)

/-- Whether a path leads to a directory. -/
def isDirectory (t : FileTree) (path : String) : Bool :=
  match t.follow path with
  | .ok place => t.entry? place = some .directory
  | .error _ => false

/-! ## Operations -/

/-- The text of a file. -/
def read (t : FileTree) (path : String) : Except FileError String := do
  match t.entry? (← t.follow path) with
  | none => throw .notFound
  | some .directory => throw .isADirectory
  | some (.file (.text text)) => pure text
  | some (.file (.unreadable reason)) => throw reason

/-- Writes a text into a file, which need not be there yet. -/
def write (t : FileTree) (path text : String) : Except FileError FileTree := do
  let place ← t.follow path
  if t.entry? place = some .directory then throw .isADirectory
  return t.set place (.file (.text text))

/-- Creates a directory, which may not be there yet. -/
def createDirectory (t : FileTree) (path : String) : Except FileError FileTree := do
  let place ← t.follow (if Path.trimSlashes path = "" then path else Path.trimSlashes path)
  match t.entry? place with
  | none => return t.set place .directory
  | some _ => throw .alreadyExists

/-- Creates the first of some directories, of which each contains the one before it. Where its
directory is missing, that is created before. -/
def createChain (t : FileTree) : List String → FileTree × Except FileError Unit
  | [] => (t, pure ())
  | path :: above =>
    if path = "" then (t, pure ())
    else
      let orPresent (t : FileTree) (reason : FileError) : FileTree × Except FileError Unit :=
        (t, if t.isDirectory path then pure () else throw reason)
      match t.createDirectory path with
      | .ok t => (t, pure ())
      | .error .notFound =>
        match t.createChain above with
        | (t, .error reason) => (t, throw reason)
        | (t, .ok ()) =>
          match t.createDirectory path with
          | .ok t => (t, pure ())
          | .error reason => orPresent t reason
      | .error reason => orPresent t reason

/-- Creates a directory and those above it, as far as they are missing. -/
def createDirectories (t : FileTree) (path : String) : FileTree × Except FileError Unit :=
  t.createChain (path :: Path.parents path)

end FileTree

end BufferSchema
