/-!
# JSON values

A JSON text as a tree, read as far as it is JSON. What follows a defect cannot be told apart from
noise, so a tree ends at the first one: `Json.broken` stands where a value should be, and a
container that does not come to its end is not `closed`. A reader that walks the tree in order thus
meets the defect of the text and the first misfit of its content in the order of the text.

Objects keep their members in order and with repetitions.
-/

namespace BufferSchema

/-- A JSON value, up to the first defect of its text. -/
inductive Json where
  | null
  | bool (b : Bool)
  /-- An integer of at most 64 bits, signed or unsigned. -/
  | integer (i : Int)
  /-- Any other number. -/
  | number
  /-- A number too large for the double-precision range. -/
  | hugeNumber
  /-- A text, or `none` when its escapes name half of a surrogate pair, which is no text. -/
  | text (content : Option String)
  | array (items : List Json) (closed : Bool)
  /-- Members with their names. What stands in the place of a name and is no text has none. -/
  | object (members : List (Option String × Json)) (closed : Bool)
  /-- No value: the text is defective here. -/
  | broken

namespace Json

/-- A text without defect. -/
def ofString (s : String) : Json := .text (some s)

/-- An array without defect. -/
def ofList (items : List Json) : Json := .array items true

/-- An object without defect. -/
def ofMembers (members : List (String × Json)) : Json :=
  .object (members.map fun m ↦ (some m.1, m.2)) true

/-- A text, or `null` in its absence. -/
def ofOption : Option String → Json
  | none => .null
  | some s => ofString s

end Json

end BufferSchema
