import BufferSchema.Yaml.Cursor

/-!
# Block scalars

A literal scalar keeps its lines; a folded one joins lines that are neither blank nor indented
further. The header may fix the indentation, and says what becomes of the line breaks at the end.
-/

namespace BufferSchema.Yaml

/-- What becomes of the line breaks at the end of a block scalar. -/
inductive Chomping where
  | strip
  | clip
  | keep

/-- The header of a block scalar. -/
structure BlockHeader where
  chomping : Chomping
  /-- The indentation relative to the parent, if the header fixes it. -/
  increment : Option Nat

/-- The chomping that a sign stands for. -/
def chompingOf? : Char → Option Chomping
  | '+' => some .keep
  | '-' => some .strip
  | _ => none

/-- The indentation that a digit stands for; it cannot be zero. -/
def incrementOf? (c : Char) : Option Nat :=
  if c.isDigit ∧ c ≠ '0' then some (c.toNat - '0'.toNat) else none

/-- The header of a block scalar behind its indicator: a sign and a digit in either order. -/
def BlockHeader.read? (c : Cursor) : Option (BlockHeader × Cursor) :=
  match c.rest with
  | [] => some (⟨.clip, none⟩, c)
  | a :: cs =>
    match chompingOf? a with
    | some chomping =>
      match cs with
      | b :: _ =>
        if b.isDigit then do return (⟨chomping, some (← incrementOf? b)⟩, c.skip 2)
        else some (⟨chomping, none⟩, c.skip 1)
      | [] => some (⟨chomping, none⟩, c.skip 1)
    | none =>
      if a.isDigit then do
        let increment ← incrementOf? a
        match cs.head?.bind chompingOf? with
        | some chomping => return (⟨chomping, some increment⟩, c.skip 2)
        | none => return (⟨.clip, some increment⟩, c.skip 1)
      else some (⟨.clip, none⟩, c)

/-- Reads the blank lines in front of a line with content, and its indentation up to the column
`limit`, if there is one. Gives the line breaks and the widest column that was reached. A tab cannot
indent. -/
def readIndentation (limit : Option Nat) :
    Nat → List Char → Nat → Cursor → Scanned (List Char × Nat × Cursor)
  | 0, breaks, widest, c => pure (breaks, widest, c)
  | fuel + 1, breaks, widest, c =>
    let spaces := (c.rest.takeWhile (· = ' ')).length
    let c := c.skip (match limit with
      | none => spaces
      | some n => min spaces (n - c.column))
    let widest := max widest c.column
    let inIndentation :=
      match limit with
      | none => true
      | some n => decide (c.column < n)
    if inIndentation && c.rest.head? = some '\t' then throw .malformed
    else
      match c.lineBreak? with
      | some (lineBreak, next) => readIndentation limit fuel (breaks ++ lineBreak) widest next
      | none => pure (breaks, widest, c)

/-- A block scalar as far as it was read. -/
structure BlockScalar where
  buffer : Buffer
  /-- The break at the end of the last line. -/
  lastBreak : List Char
  /-- The breaks of the blank lines behind it. -/
  blankLines : List Char
  /-- Whether the last line begins with a blank. -/
  afterBlank : Bool

namespace BlockScalar

/-- Puts what stands between the last line and one that begins with the character `first` into the
buffer. -/
def addGap (folded : Bool) (first : Char) (scalar : BlockScalar) : Scanned Buffer := do
  let buffer ←
    if folded && scalar.lastBreak = ['\n'] && !scalar.afterBlank && !isBlank first then
      pure (if scalar.blankLines.isEmpty then scalar.buffer.push ' ' else scalar.buffer)
    else scalar.buffer.join scalar.lastBreak
  buffer.join scalar.blankLines

/-- Reads the lines of a block scalar, each indented to the column `indent`. -/
def readLines (folded : Bool) (indent : Nat) :
    Nat → BlockScalar → Cursor → Scanned (BlockScalar × Cursor)
  | 0, scalar, c => pure (scalar, c)
  | fuel + 1, scalar, c =>
    match c.rest with
    | [] => pure (scalar, c)
    | first :: _ =>
      if c.column ≠ indent then pure (scalar, c)
      else do
        c.look 1
        let buffer ← scalar.addGap folded first
        let (line, c) := c.span (!isBreak ·)
        let (lastBreak, c) := (c.lineBreak?).getD ([], c)
        let (blankLines, _, c) ← readIndentation (some indent) (c.ahead + 1) [] 0 c
        readLines folded indent fuel
          ⟨buffer.pushAll line, lastBreak, blankLines, isBlank first⟩ c

/-- The characters of a block scalar at its end. -/
def finish (chomping : Chomping) (scalar : BlockScalar) : Scanned (List Char) := do
  match chomping with
  | .strip => return scalar.buffer.chars
  | .clip => return (← scalar.buffer.join scalar.lastBreak).chars
  | .keep => return (← (← scalar.buffer.join scalar.lastBreak).join scalar.blankLines).chars

end BlockScalar

/-- Reads a block scalar at its indicator; `parent` is the indentation around it, if any. -/
def readBlock (folded : Bool) (parent : Option Nat) (c : Cursor) :
    Scanned (List Char × Cursor) := do
  let (header, c) ← wellFormed (BlockHeader.read? (c.skip 1))
  let c := (c.skipWhile isBlank).skipComment
  if !endsLine c.rest then throw .malformed
  let c := c.skipBreak
  let limit := header.increment.map (parent.getD 0 + ·)
  let (blankLines, widest, c) ← readIndentation limit (c.ahead + 1) [] 0 c
  let indent := limit.getD (max widest ((parent.map (· + 1)).getD 1))
  let (scalar, c) ←
    BlockScalar.readLines folded indent (c.ahead + 1) ⟨.empty, [], blankLines, false⟩ c
  c.look 1
  return (← scalar.finish header.chomping, c)

end BufferSchema.Yaml
