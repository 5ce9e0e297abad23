import BufferSchema.Json.Basic

/-!
# JSON numbers

The grammar of numbers, and the only three things about a number that matter to a schema document:
whether it is an integer of 64 bits, whether it is another number, and whether it is too large to be
one.

A number keeps its leading digits as long as these are an integer of 64 bits. What is kept is scaled
by a power of ten in double precision, where both factors and their product are rounded; a product
beyond the range of double precision is too large. So a number close to the limit may be too large
although its exact value is not.
-/

namespace BufferSchema.Json

/-! ## Digits -/

/-- The digits at the start of a text, and the rest. -/
def spanDigits (cs : List Char) : List Char × List Char :=
  cs.span Char.isDigit

/-- The number that a list of decimal digits denotes. -/
def ofDigits (digits : List Char) : Nat :=
  digits.foldl (fun n c ↦ 10 * n + (c.toNat - '0'.toNat)) 0

/-- Puts digits behind those of a number as long as it stays one of 64 bits, and tells how many
were put there. -/
def keepDigits : Nat → List Char → Nat × Nat
  | n, [] => (n, 0)
  | n, c :: cs =>
    let longer := 10 * n + (c.toNat - '0'.toNat)
    if longer < UInt64.size then
      let (kept, count) := keepDigits longer cs
      (kept, count + 1)
    else (n, 0)

/-! ## Magnitude -/

/-- A positive number with its first 53 binary digits; of two equally near ones, the even one. -/
def roundDouble (n : Nat) : Nat :=
  let excess := n.log2 + 1 - 53
  let unit := Nat.pow 2 excess
  let quotient := n / unit
  let remainder := n % unit
  if unit < 2 * remainder ∨ (2 * remainder = unit ∧ quotient % 2 = 1) then (quotient + 1) * unit
  else quotient * unit

/-- The least number that rounds beyond the largest one of double precision. -/
def doubleLimit : Nat := Nat.pow 2 1024 - Nat.pow 2 970

/-- Whether `digits * 10 ^ exponent` is too large in double precision. -/
def isHuge (digits : Nat) (exponent : Int) : Bool :=
  if digits = 0 ∨ exponent < 0 then false
  else if 308 < exponent then true
  else doubleLimit ≤ roundDouble digits * roundDouble (Nat.pow 10 exponent.toNat)

/-! ## Reading -/

/-- The fraction of a number, if the text goes on with one; `none` if it is defective. -/
def readFraction? : List Char → Option (List Char × List Char)
  | '.' :: cs =>
    match spanDigits cs with
    | ([], _) => none
    | (digits, rest) => some (digits, rest)
  | cs => some ([], cs)

/-- The exponent of a number, if the text goes on with one; `none` if it is defective. -/
def readExponent? : List Char → Option (Option Int × List Char)
  | cs@(e :: rest) =>
    if e = 'e' ∨ e = 'E' then
      let (negative, rest) :=
        match rest with
        | '-' :: rest => (true, rest)
        | '+' :: rest => (false, rest)
        | _ => (false, rest)
      match spanDigits rest with
      | ([], _) => none
      | (digits, rest) =>
        let magnitude : Int := ofDigits digits
        some (some (if negative then -magnitude else magnitude), rest)
    else some (none, cs)
  | [] => some (none, [])

/-- The value of a number read in its parts. Zero with a sign is no integer. -/
def numberOf (negative : Bool) (whole fraction : List Char) (exponent : Option Int) : Json :=
  let (n, wholeCount) := keepDigits 0 whole
  let dropped : Int := whole.length - wholeCount
  if fraction.isEmpty ∧ exponent.isNone ∧ dropped = 0 ∧ (negative → 0 < n ∧ n ≤ Int64.minValue.toInt.natAbs) then
    .integer (if negative then -n else n)
  else
    let (n, fractionCount) := keepDigits n fraction
    if isHuge n (dropped - fractionCount + exponent.getD 0) then .hugeNumber else .number

/-- A number at the start of a text. No digit may follow a leading zero. -/
def readNumber? (cs : List Char) : Option (Json × List Char) :=
  let (negative, cs) :=
    match cs with
    | '-' :: cs => (true, cs)
    | _ => (false, cs)
  match spanDigits cs with
  | ([], _) => none
  | (whole@(first :: more), rest) =>
    if first = '0' ∧ !more.isEmpty then none
    else do
      let (fraction, rest) ← readFraction? rest
      let (exponent, rest) ← readExponent? rest
      return (numberOf negative whole fraction exponent, rest)

end BufferSchema.Json
