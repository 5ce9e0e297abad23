import BufferSchema.Json.Basic

/-!
# JSON texts

Strings are read into code units first, because an escape names a code unit and not a character.
The units are a text when every half of a surrogate pair stands beside its other half.
-/

namespace BufferSchema.Json

/-- A piece of a string: a character as it stands, or a code unit named by an escape. -/
inductive Unit where
  | char (c : Char)
  | code (n : Nat)

/-- The value of a hexadecimal digit. -/
def hexDigit? (c : Char) : Option Nat :=
  if c.isDigit then some (c.toNat - '0'.toNat)
  else if 'a' ≤ c ∧ c ≤ 'f' then some (c.toNat - 'a'.toNat + 10)
  else if 'A' ≤ c ∧ c ≤ 'F' then some (c.toNat - 'A'.toNat + 10)
  else none

/-- The code unit of four hexadecimal digits. -/
def codeUnit? (a b c d : Char) : Option Nat := do
  return 4096 * (← hexDigit? a) + 256 * (← hexDigit? b) + 16 * (← hexDigit? c) + (← hexDigit? d)

/-- The character that an escape of one letter stands for. -/
def escapedChar? : Char → Option Char
  | '"' => some '"'
  | '\\' => some '\\'
  | '/' => some '/'
  | 'b' => some '\x08'
  | 'f' => some '\x0c'
  | 'n' => some '\n'
  | 'r' => some '\r'
  | 't' => some '\t'
  | _ => none

/-- The pieces of a string behind its opening quote, and what follows the closing one. Controls
stand in a string by escape only. -/
def readUnits? : List Char → Option (List Unit × List Char)
  | [] => none
  | '"' :: rest => some ([], rest)
  | '\\' :: 'u' :: a :: b :: c :: d :: rest => do
    let n ← codeUnit? a b c d
    let (units, rest) ← readUnits? rest
    return (.code n :: units, rest)
  | '\\' :: e :: rest => do
    let c ← escapedChar? e
    let (units, rest) ← readUnits? rest
    return (.char c :: units, rest)
  | c :: rest =>
    if c.toNat < 32 ∨ c = '\\' then none
    else do
      let (units, rest) ← readUnits? rest
      return (.char c :: units, rest)

/-- Whether a code unit is the first half of a surrogate pair. -/
def isHighHalf (n : Nat) : Bool := 0xD800 ≤ n && n < 0xDC00

/-- Whether a code unit is the second half of a surrogate pair. -/
def isLowHalf (n : Nat) : Bool := 0xDC00 ≤ n && n < 0xE000

/-- The characters that pieces of a string denote, if they denote any. -/
def charsOfUnits? : List Unit → Option (List Char)
  | [] => some []
  | .char c :: rest => (c :: ·) <$> charsOfUnits? rest
  | .code n :: rest =>
    if isLowHalf n then none
    else if isHighHalf n then
      match rest with
      | .code m :: rest =>
        if isLowHalf m then
          (Char.ofNat (0x10000 + 1024 * (n - 0xD800) + (m - 0xDC00)) :: ·) <$> charsOfUnits? rest
        else none
      | _ => none
    else (Char.ofNat n :: ·) <$> charsOfUnits? rest

/-- A string behind its opening quote: its text, if it has one, and what follows. -/
def readText? (cs : List Char) : Option (Option String × List Char) := do
  let (units, rest) ← readUnits? cs
  return (String.ofList <$> charsOfUnits? units, rest)

end BufferSchema.Json
