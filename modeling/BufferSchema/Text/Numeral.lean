/-!
# Numerals

Integers in decimal notation, as literals and arguments write them.
-/

namespace BufferSchema

/-- The number that decimal digits denote; at least one digit is needed and nothing else allowed. -/
def decimal? : List Char → Option Nat
  | [] => none
  | digits =>
    if digits.all Char.isDigit then
      some (digits.foldl (fun n c ↦ 10 * n + (c.toNat - '0'.toNat)) 0)
    else none

/-- The integer that a text denotes: digits behind an optional sign, of at most 64 bits. -/
def integer64? (text : String) : Option Int := do
  let i ←
    match text.toList with
    | '-' :: digits => (fun n : Nat ↦ -(n : Int)) <$> decimal? digits
    | '+' :: digits => Int.ofNat <$> decimal? digits
    | digits => Int.ofNat <$> decimal? digits
  if Int64.minValue.toInt ≤ i ∧ i ≤ Int64.maxValue.toInt then some i else none

end BufferSchema
