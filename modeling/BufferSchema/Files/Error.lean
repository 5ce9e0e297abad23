/-!
# Failures of the file system
-/

namespace BufferSchema

/-- Why an operation on files fails. -/
inductive FileError where
  | notFound
  | alreadyExists
  | notADirectory
  | isADirectory
  | nameTooLong
  /-- A path with a NUL character, which no file system takes. -/
  | nulInPath
  /-- Any other failure, in the words of the system. -/
  | other (message : String)
  deriving DecidableEq, Repr

/-- The wording of a failure, with its number in the system's error list. -/
def FileError.message : FileError → String
  | .notFound => "No such file or directory (os error 2)"
  | .alreadyExists => "File exists (os error 17)"
  | .notADirectory => "Not a directory (os error 20)"
  | .isADirectory => "Is a directory (os error 21)"
  | .nameTooLong => "File name too long (os error 36)"
  | .nulInPath => "file name contained an unexpected NUL byte"
  | .other message => message

end BufferSchema
