import BufferSchema.Yaml.Scalar.Gap

/-!
# Quoted scalars

Between single quotes a quote is written twice and nothing else is special. Between double quotes a
backslash begins an escape, also in front of a line break.
-/

namespace BufferSchema.Yaml

/-- The character that an escape of one letter stands for. -/
def escapedChar? : Char → Option Char
  | '0' => some '\x00'
  | 'a' => some '\x07'
  | 'b' => some '\x08'
  | 't' | '\t' => some '\t'
  | 'n' => some '\n'
  | 'v' => some '\x0b'
  | 'f' => some '\x0c'
  | 'r' => some '\r'
  | 'e' => some '\x1b'
  | ' ' => some ' '
  | '"' => some '"'
  | '/' => some '/'
  | '\\' => some '\\'
  | 'N' => some '\x85'
  | '_' => some '\xa0'
  | 'L' => some '\u2028'
  | 'P' => some '\u2029'
  | _ => none

/-- The number of hexadecimal digits behind the letter of an escape. -/
def escapeDigits? : Char → Option Nat
  | 'x' => some 2
  | 'u' => some 4
  | 'U' => some 8
  | _ => none

/-- The character of an escape behind its backslash, and the length of the escape there. -/
def readEscape? : List Char → Option (Char × Nat)
  | [] => none
  | letter :: cs =>
    match escapeDigits? letter with
    | none => (escapedChar? letter).map (·, 1)
    | some digits => do
      let (value, _) ← hexNumber? digits 0 cs
      if (0xD800 ≤ value ∧ value ≤ 0xDFFF) ∨ 0x10FFFF < value then none
      else some (Char.ofNat value, digits + 1)

/-- Reads on in a quoted scalar, up to and including the closing quote. A document cannot begin or
end inside. -/
def readQuotedFrom (quote : Char) : Nat → Buffer → Cursor → Scanned (List Char × Cursor)
  | 0, _, _ => throw .malformed
  | fuel + 1, buffer, c =>
    if c.atDocumentBorder then throw .malformed
    else
      match c.rest with
      | [] => throw .malformed
      | b :: cs =>
        if isBlank b || isBreak b then do
          let (gap, next) ← Gap.none.read 0 c
          next.look 1
          readQuotedFrom quote fuel (← gap.addTo buffer) next
        else if b = quote then
          if quote = '\'' ∧ cs.head? = some '\'' then
            readQuotedFrom quote fuel (buffer.push '\'') (c.skip 2)
          else pure (buffer.chars, c.skip 1)
        else if b = '\\' ∧ quote = '"' then
          match (c.skip 1).lineBreak? with
          | some (_, next) => do
            let (gap, next) ← Gap.escaped.read 0 next
            next.look 1
            readQuotedFrom quote fuel (← gap.addTo buffer) next
          | none => do
            let (character, length) ← wellFormed (readEscape? cs)
            readQuotedFrom quote fuel (buffer.push character) (c.skip (length + 1))
        else readQuotedFrom quote fuel (buffer.push b) (c.skip 1)

/-- Reads a quoted scalar at its opening quote. -/
def readQuoted (quote : Char) (c : Cursor) : Scanned (List Char × Cursor) :=
  readQuotedFrom quote (c.ahead + 1) .empty (c.skip 1)

end BufferSchema.Yaml
