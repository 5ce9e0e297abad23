import BufferSchema.Decoding.Source
import BufferSchema.Json.Reader

/-!
# JSON as a source

What the decoder finds in a JSON value. A value of the wrong kind is named by its kind; where the
text is defective there is no value to name.
-/

namespace BufferSchema.Json

/-- The failure of a value where `expected` was wanted. -/
def misfit (expected : String) : Json → DecodeError
  | .null => .invalidType .null expected
  | .bool b => .invalidType (.boolean b) expected
  | .integer i => .invalidType (.integer i) expected
  | .number => .invalidType .number expected
  | .text (some s) => .invalidType (.text s) expected
  | .array _ _ => .invalidType .sequence expected
  | .object _ _ => .invalidType .map expected
  | .text none | .hugeNumber | .broken => .malformed

/-- A text. -/
def text? : Json → Decoded String
  | .text (some s) => pure s
  | j => throw (j.misfit "a string")

/-- A truth value. -/
def flag? : Json → Decoded Bool
  | .bool b => pure b
  | j => throw (j.misfit "a boolean")

/-- An integer of a range. -/
def integer? (range : IntegerRange) : Json → Decoded Int
  | .integer i =>
    if range.least ≤ i ∧ i ≤ range.greatest then pure i
    else throw (.invalidValue (.integer i) range.name)
  | j => throw (j.misfit range.name)

/-- Only `null` stands for absence. -/
def isNull : Json → Bool
  | .null => true
  | _ => false

/-- The value, unless it is `null`. -/
def optional? (j : Json) : Decoded (Option Json) := pure (if j.isNull then none else some j)

/-- The items of an array. -/
def items? : Json → Decoded (Items Json)
  | .array items closed => pure ⟨items, closed⟩
  | j => throw (j.misfit "a sequence")

/-- A record is an object of its members or an array of its values. -/
def record? (expected : String) : Json → Decoded (RecordForm Json)
  | .object members closed => pure (.named ⟨members, closed⟩)
  | .array items closed => pure (.positional ⟨items, closed⟩)
  | j => throw (j.misfit expected)

/-- A variant is its name or an object with its content, where there is depth for one. That depth is
exceeded shows before anything else about a container. -/
def variant? (expected : String) (depth : Nat) : Json → Decoded (VariantForm Json)
  | .text (some name) => pure (.bare name)
  | .object members closed =>
    if depth = 0 then throw .malformed else pure (.keyed ⟨members, closed⟩)
  | .array items closed =>
    throw (if depth = 0 then .malformed else (Json.array items closed).misfit expected)
  | j => throw (j.misfit expected)

/-- A variant without content is its name, or an object that maps its name to `null`; no other value
can begin one. What stands in the place of the name is looked at although it cannot be one. -/
def unitVariant? {α : Type} (resolve : String → Decoded α) : Json → Decoded α
  | .text (some name) => resolve name
  | .object ((some name, content) :: rest) closed => do
    let a ← resolve name
    if content.isNull then
      if closed && rest.isEmpty then pure a else throw .malformed
    else throw (content.misfit "unit")
  | .object ((none, notName) :: _) _ => throw (notName.misfit "variant identifier")
  | _ => throw .malformed

instance : Source Json (Except DecodeError) where
  text := text?
  flag := flag?
  integer := integer?
  optional := optional?
  items := items?
  record := record?
  variant := variant?
  unitVariant := unitVariant?

/-- The number of containers that may nest in a JSON text. Values that are passed over may nest
deeper. -/
def depthLimit : Nat := 127

end BufferSchema.Json
