import BufferSchema.Yaml.Scalar.Gap

/-!
# Plain scalars

A scalar without quotes: words that no indicator ends, over several lines as long as these are
indented.
-/

namespace BufferSchema.Yaml

/-- The characters that end a plain scalar inside a flow collection. -/
def flowIndicators : List Char := [',', '[', ']', '\x7b', '\x7d']

/-- Whether a colon in front of a text is refused: inside a flow collection, where an indicator
follows it. -/
def refusesColon (inFlow : Bool) : List Char → Bool
  | next :: _ => inFlow && (next = '?' || flowIndicators.contains next)
  | [] => false

/-- A word of a plain scalar. -/
structure PlainWord where
  chars : List Char
  /-- Whether the word ends at a colon that is refused. -/
  refused : Bool

/-- The word at the start of a text. -/
def PlainWord.read (inFlow : Bool) : List Char → PlainWord
  | [] => ⟨[], false⟩
  | c :: cs =>
    if isBlank c || isBreak c then ⟨[], false⟩
    else if c = ':' ∧ refusesColon inFlow cs then ⟨[], true⟩
    else if c = ':' ∧ endsWord cs then ⟨[], false⟩
    else if inFlow && flowIndicators.contains c then ⟨[], false⟩
    else
      let word := read inFlow cs
      { word with chars := c :: word.chars }

/-- A plain scalar, with the gap that follows it. -/
structure PlainScalar where
  buffer : Buffer
  gap : Gap

namespace PlainScalar

/-- Puts a word behind the gap. -/
def add (scalar : PlainScalar) (word : List Char) : Scanned PlainScalar :=
  if word.isEmpty then pure scalar
  else do return ⟨(← scalar.gap.addTo scalar.buffer).pushAll word, .none⟩

/-- Reads on in a plain scalar, a word per step. -/
def readFrom (inFlow : Bool) (indent : Nat) :
    Nat → PlainScalar → Cursor → Scanned (PlainScalar × Cursor)
  | 0, scalar, c => pure (scalar, c)
  | fuel + 1, scalar, c => do
    c.look 4
    if c.atDocumentBorder || c.rest.head? = some '#' then return (scalar, c)
    else
      let word := PlainWord.read inFlow c.rest
      let scalar ← scalar.add word.chars
      if word.refused then throw .malformed
      let c := c.skip word.chars.length
      if c.rest.isEmpty || !endsWord c.rest then return (scalar, c)
      let (gap, next) ← scalar.gap.read indent c
      let scalar := { scalar with gap }
      if !inFlow && next.column < indent then return (scalar, next)
      readFrom inFlow indent fuel scalar next

/-- Reads a plain scalar, whose lines have to reach the column `indent`. -/
def read (inFlow : Bool) (indent : Nat) (c : Cursor) : Scanned (PlainScalar × Cursor) :=
  readFrom inFlow indent (c.ahead + 1) ⟨.empty, .none⟩ c

end PlainScalar

end BufferSchema.Yaml
