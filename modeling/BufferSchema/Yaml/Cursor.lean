import BufferSchema.Yaml.Scalar.Buffer

/-!
# Positions in a YAML text

YAML is read with the column of every character at hand, because indentation is structure. A
`Cursor` is the unread rest of a text with its position; the classes of characters and the forms of
a line break are here too.

Not every character may be in a text. The octets of a text are checked in portions, each before its
first character is looked at, so a character that may not be there shows at the latest where its
portion begins.
-/

namespace BufferSchema.Yaml

/-! ## Characters -/

/-- A character that separates on a line. -/
def isBlank (c : Char) : Bool := c = ' ' || c = '\t'

/-- A character that ends a line. -/
def isBreak (c : Char) : Bool :=
  c = '\n' || c = '\r' || c = '\x85' || c = '\u2028' || c = '\u2029'

/-- Whether nothing but a blank, a line break or the end of the text can follow. -/
def endsWord : List Char → Bool
  | [] => true
  | c :: _ => isBlank c || isBreak c

/-- Whether the line ends here. -/
def endsLine : List Char → Bool
  | [] => true
  | c :: _ => isBreak c

/-- A character of the name of an anchor, a tag handle or a directive. -/
def isNameChar (c : Char) : Bool := c.isAlphanum || c = '_' || c = '-'

/-- Whether a text may hold a character at all. -/
def isAdmitted (c : Char) : Bool :=
  let n := c.toNat
  n = 9 || n = 10 || n = 13 || (32 ≤ n && n ≤ 126) || n = 0x85 || (0xA0 ≤ n && n ≤ 0xFFFD) ||
    0x10000 ≤ n

/-- The number of octets that are checked together. -/
def portionSize : Nat := 16384

/-- The number of octets in front of the first portion with a character that is not admitted. The
portion at hand begins at the octet `start`, and the text goes on at `octet`. A portion has whole
characters only. -/
def soundOctets : (start octet : Nat) → List Char → Nat
  | _, octet, [] => octet
  | start, octet, c :: cs =>
    let next := octet + c.utf8Size
    let start := if start + portionSize < next then octet else start
    if isAdmitted c then soundOctets start next cs else start

/-- The value of a hexadecimal digit. -/
def hexValue? (c : Char) : Option Nat :=
  if c.isDigit then some (c.toNat - '0'.toNat)
  else if 'a' ≤ c ∧ c ≤ 'f' then some (c.toNat - 'a'.toNat + 10)
  else if 'A' ≤ c ∧ c ≤ 'F' then some (c.toNat - 'A'.toNat + 10)
  else none

/-- The number of `count` hexadecimal digits at the start of a text, and the rest. -/
def hexNumber? : Nat → Nat → List Char → Option (Nat × List Char)
  | 0, value, cs => some (value, cs)
  | _ + 1, _, [] => none
  | count + 1, value, c :: cs => do hexNumber? count (16 * value + (← hexValue? c)) cs

/-! ## Cursors -/

/-- The unread rest of a text and its position. Octets are counted from the start of the text,
columns in characters from the start of the line. -/
structure Cursor where
  rest : List Char
  /-- The number of octets of the text. -/
  size : Nat
  /-- The number of octets that can be looked at. -/
  sound : Nat
  octet : Nat
  line : Nat
  column : Nat

namespace Cursor

/-- The start of a text. -/
def start (cs : List Char) : Cursor := ⟨cs, octetCount cs, soundOctets 0 0 cs, 0, 0, 0⟩

/-- The number of octets ahead. There are no more characters than that. -/
def ahead (c : Cursor) : Nat := c.size - c.octet

/-- Looks at the next `count` characters. -/
def look (count : Nat) (c : Cursor) : Scanned Unit :=
  if c.octet + octetCount (c.rest.take count) ≤ c.sound then pure () else throw .malformed

/-- Passes over characters of one line. -/
def skip (c : Cursor) (count : Nat) : Cursor :=
  { c with
    rest := c.rest.drop count
    octet := c.octet + octetCount (c.rest.take count)
    column := c.column + count }

/-- The characters up to the first one outside a class, which holds no line break. -/
def span (c : Cursor) (p : Char → Bool) : List Char × Cursor :=
  let read := c.rest.takeWhile p
  (read, c.skip read.length)

/-- Passes over the characters of a class, which holds no line break. -/
def skipWhile (c : Cursor) (p : Char → Bool) : Cursor := (c.span p).2

/-- Passes over `count` characters that end a line. -/
def nextLine (c : Cursor) (count : Nat) : Cursor :=
  { c.skip count with line := c.line + 1, column := 0 }

/-- The line break at the cursor, as it counts in a scalar, and what follows. All breaks count as a
newline but the two that separate lines and paragraphs of a text. -/
def lineBreak? (c : Cursor) : Option (List Char × Cursor) :=
  match c.rest with
  | '\r' :: '\n' :: _ => some (['\n'], c.nextLine 2)
  | '\u2028' :: _ => some (['\u2028'], c.nextLine 1)
  | '\u2029' :: _ => some (['\u2029'], c.nextLine 1)
  | b :: _ => if isBreak b then some (['\n'], c.nextLine 1) else none
  | [] => none

/-- Passes over a line break if there is one. -/
def skipBreak (c : Cursor) : Cursor := (c.lineBreak?.map (·.2)).getD c

/-- Passes over a byte order mark at the start of a line. -/
def skipMark (c : Cursor) : Cursor :=
  if c.column = 0 ∧ c.rest.head? = some '\ufeff' then c.skip 1 else c

/-- Passes over a comment if there is one. -/
def skipComment (c : Cursor) : Cursor :=
  if c.rest.head? = some '#' then c.skipWhile (!isBreak ·) else c

/-- Whether the three marks of a document border stand at the start of the line. -/
def atMarks (c : Cursor) (mark : Char) : Bool :=
  c.column = 0 && [mark, mark, mark].isPrefixOf c.rest && endsWord (c.rest.drop 3)

/-- Whether a document begins or ends at the cursor. -/
def atDocumentBorder (c : Cursor) : Bool := c.atMarks '-' || c.atMarks '.'

end Cursor

end BufferSchema.Yaml
