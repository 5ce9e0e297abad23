/-!
# Phrases of generated code

The few turns that the declarations of a header share.
-/

namespace BufferSchema

/-- A function on one line. -/
def oneLine (signature statement : String) : String :=
  signature ++ " \x7b " ++ statement ++ " \x7d"

/-- `value`, converted to a type if one is given. -/
def converted (type : Option String) (value : String) : String :=
  match type with
  | none => value
  | some type => "static_cast<" ++ type ++ ">(" ++ value ++ ")"

/-- The lines of a documentation comment, each written behind `indent`. -/
def docLines (indent : String) (doc : List String) : List String :=
  doc.map fun line ↦ indent ++ "///" ++ line

end BufferSchema
