/-!
# Faults of emission

Loading checks every reference of a document, but a schema can be edited afterwards. Emission then
meets names that are declared no more, and stops at the first one.
-/

namespace BufferSchema

/-- Why a schema cannot be emitted. -/
inductive Fault where
  | undeclaredEnum (name : String)
  | undeclaredAggregate (name : String)
  /-- A value of a union other than the first that selects no aggregate. -/
  | noPayload (enumName valueName : String)
  /-- A padding mask with bits beyond the four that stand for members. -/
  | widePadding (mask : UInt8)
  /-- A namespace position beyond the end of the namespace list. -/
  | noNamespace (count position : Nat)
  deriving DecidableEq, Repr

/-- A result of emission. -/
abbrev Emitted (α : Type) := Except Fault α

/-- The wording of a fault. -/
def Fault.message : Fault → String
  | .undeclaredEnum name => "schema model references undeclared enum '" ++ name ++ "'"
  | .undeclaredAggregate name => "schema model references undeclared aggregate '" ++ name ++ "'"
  | .noPayload enumName valueName =>
    "union value " ++ enumName ++ "." ++ valueName ++ " has no payload type"
  | .widePadding mask =>
    "padding mask 0x" ++ String.ofList (Nat.toDigits 16 mask.toNat) ++ " wider than 4 bits"
  | .noNamespace count position =>
    "index out of bounds: the len is " ++ toString count ++ " but the index is " ++
      toString position

end BufferSchema
