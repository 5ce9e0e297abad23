import BufferSchema.Decoding.Error

/-!
# Sources of decoded values

The two encodings of a schema document differ in what a text, a number or an absent value looks
like, and agree in everything above that. `Source` lists what the decoder asks of an encoding, so
that the decoder itself is written once, for every encoding and the effects that reading it has.

Containers are handed over with a mark that tells whether they come to their end: a container of a
defective text does not, and fails after everything before the defect was read.
-/

namespace BufferSchema

/-- Failing with `DecodeError`. -/
abbrev Decoded (α : Type) := Except DecodeError α

/-- A range of integers, under the name that messages give it. -/
structure IntegerRange where
  name : String
  least : Int
  greatest : Int

namespace IntegerRange

def i64 : IntegerRange := ⟨"i64", Int64.minValue.toInt, Int64.maxValue.toInt⟩
def u64 : IntegerRange := ⟨"u64", 0, Int.ofNat (UInt64.size - 1)⟩
def usize : IntegerRange := ⟨"usize", 0, Int.ofNat (UInt64.size - 1)⟩
def u16 : IntegerRange := ⟨"u16", 0, Int.ofNat (UInt16.size - 1)⟩
def u8 : IntegerRange := ⟨"u8", 0, Int.ofNat (UInt8.size - 1)⟩

end IntegerRange

/-- The members of a map in order. A name is missing where it is no text. -/
structure Members (ν : Type) where
  entries : List (Option String × ν)
  closed : Bool

/-- The items of a sequence in order. -/
structure Items (ν : Type) where
  entries : List ν
  closed : Bool

/-- The two ways to write a record: its members by name, or its values in declaration order. -/
inductive RecordForm (ν : Type) where
  | named (members : Members ν)
  | positional (items : Items ν)

/-- The two ways to write a variant: its bare name, or a map from its name to its content. -/
inductive VariantForm (ν : Type) where
  | bare (name : String)
  | keyed (members : Members ν)

/-- What decoding asks of the values of an encoding, which are read in the monad `m`. The text
arguments say what is expected. -/
class Source (ν : Type) (m : outParam (Type → Type)) where
  text : ν → m String
  flag : ν → m Bool
  integer : IntegerRange → ν → m Int
  /-- The value itself, unless it stands for the absence of an optional one. -/
  optional : ν → m (Option ν)
  items : ν → m (Items ν)
  record : String → ν → m (RecordForm ν)
  /-- A variant within which as many more containers may nest as the number tells. -/
  variant : String → Nat → ν → m (VariantForm ν)
  /-- A variant without content, in the place of a plain enumeration. -/
  unitVariant {α : Type} : (String → Decoded α) → ν → m α

/-- A decision that needs no value to be read. -/
def decided {α : Type} {m : Type → Type} [Monad m] [MonadExcept DecodeError m] : Decoded α → m α
  | .ok a => return a
  | .error e => throw e

namespace Source

variable {ν α : Type} {m : Type → Type} [Monad m] [MonadExcept DecodeError m] [Source ν m]

/-- A text that may be absent. -/
def optionalText (v : ν) : m (Option String) := do
  match ← optional v with
  | none => return none
  | some v => return some (← text v)

/-- Every item of a sequence. -/
def list (read : ν → m α) (v : ν) : m (List α) := do
  let items ← items v
  let values ← items.entries.mapM read
  if items.closed then return values else throw DecodeError.malformed

def int64 (v : ν) : m Int64 := Int64.ofInt <$> integer .i64 v
def uint64 (v : ν) : m UInt64 := (UInt64.ofNat ·.toNat) <$> integer .u64 v
def index (v : ν) : m UInt64 := (UInt64.ofNat ·.toNat) <$> integer .usize v
def uint16 (v : ν) : m UInt16 := (UInt16.ofNat ·.toNat) <$> integer .u16 v
def uint8 (v : ν) : m UInt8 := (UInt8.ofNat ·.toNat) <$> integer .u8 v

/-- The failure of a map that should have exactly one member. -/
def notSingle : DecodeError := .invalidValue .map "map with a single key"

/-- Reads a map with a single member. That it is single shows only behind the member's value. -/
def singleMember (members : Members ν) (read : String → ν → m α) : m α :=
  match members.entries with
  | [] => throw (if members.closed then notSingle else .malformed)
  | (none, _) :: _ => throw DecodeError.malformed
  | (some name, v) :: rest => do
    let a ← read name v
    match rest with
    | [] => if members.closed then return a else throw DecodeError.malformed
    | (none, _) :: _ => throw DecodeError.malformed
    | (some _, _) :: _ => throw notSingle

end Source

end BufferSchema
