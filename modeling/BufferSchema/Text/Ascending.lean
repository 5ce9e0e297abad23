/-!
# Ascending lists of texts

A collection of texts without repetition, in the order of their characters' numbers.
-/

namespace BufferSchema

/-- Puts a text in its place among ascending ones, unless it is there already. -/
def insertAscending (text : String) : List String → List String
  | [] => [text]
  | t :: rest =>
    if text < t then text :: t :: rest
    else if text = t then t :: rest
    else t :: insertAscending text rest

/-- The distinct texts of a list in ascending order. -/
def ascending (texts : List String) : List String := texts.foldr insertAscending []

end BufferSchema
