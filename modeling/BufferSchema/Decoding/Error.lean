import BufferSchema.Text.Quoted

/-!
# Why a text does not decode

An encoded value can be malformed, or it can be well formed and not fit the type that is read from
it. Only the second kind of failure has a wording.
-/

namespace BufferSchema

/-- What a value was found to be where another one was expected. -/
inductive Found where
  | null
  | boolean (b : Bool)
  | integer (i : Int)
  /-- A number with a fraction or an exponent, or an integer of more than 64 bits. -/
  | number
  | text (s : String)
  | sequence
  | map
  | unitVariant
  deriving DecidableEq, Repr

/-- A list of choices as a message names them, each between backquotes. -/
def quotedChoices (choices : List String) : String :=
  String.intercalate ", " (choices.map fun choice ↦ "`" ++ choice ++ "`")

/-- The value as a message names it. -/
def Found.describe : Found → String
  | .null => "null"
  | .boolean b => "boolean `" ++ (if b then "true" else "false") ++ "`"
  | .integer i => "integer `" ++ toString i ++ "`"
  | .number => "floating point"
  | .text s => "string " ++ quoted s
  | .sequence => "sequence"
  | .map => "map"
  | .unitVariant => "unit variant"

/-- The reasons for which decoding fails. -/
inductive DecodeError where
  /-- The text is not in the encoding, or ends early. -/
  | malformed
  | missingField (name : String)
  | duplicateField (name : String)
  | unknownVariant (name : String) (choices : List String)
  | invalidType (found : Found) (expected : String)
  | invalidValue (found : Found) (expected : String)
  | invalidLength (length : Nat) (expected : String)
  deriving DecidableEq, Repr

/-- The wording of a failure; a malformed text has none. -/
def DecodeError.message? : DecodeError → Option String
  | .malformed => none
  | .missingField name => some ("missing field `" ++ name ++ "`")
  | .duplicateField name => some ("duplicate field `" ++ name ++ "`")
  | .unknownVariant name choices =>
    some ("unknown variant `" ++ name ++ "`, expected one of " ++ quotedChoices choices)
  | .invalidType .number _ => some "invalid type: floating point"
  | .invalidType found expected =>
    some ("invalid type: " ++ found.describe ++ ", expected " ++ expected)
  | .invalidValue found expected =>
    some ("invalid value: " ++ found.describe ++ ", expected " ++ expected)
  | .invalidLength length expected =>
    some ("invalid length " ++ toString length ++ ", expected " ++ expected)

end BufferSchema
