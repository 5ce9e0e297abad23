import BufferSchema.Yaml.Cursor

/-!
# Gaps inside scalars

Between two words of a scalar stand blanks and line breaks. On one line they are kept; across lines
they fold: a single newline becomes a space, and of several the first is dropped.
-/

namespace BufferSchema.Yaml

/-- What stands between two words of a scalar. -/
structure Gap where
  /-- The blanks before the first line break. -/
  blanks : List Char
  /-- The first line break; empty if it was escaped. -/
  firstBreak : Option (List Char)
  laterBreaks : List Char

namespace Gap

/-- No gap. -/
def none : Gap := ⟨[], Option.none, []⟩

/-- The gap behind an escaped line break. -/
def escaped : Gap := ⟨[], some [], []⟩

/-- Puts what the gap adds to a scalar into its buffer. -/
def addTo (gap : Gap) (buffer : Buffer) : Scanned Buffer :=
  match gap.firstBreak with
  | .none => buffer.join gap.blanks
  | some ['\n'] =>
    if gap.laterBreaks.isEmpty then pure (buffer.push ' ') else buffer.join gap.laterBreaks
  | some first => do (← buffer.join first).join gap.laterBreaks

/-- Whether the gap reaches another line. -/
def breaksLine (gap : Gap) : Bool := gap.firstBreak.isSome

/-- Reads on in a gap, one character per step. Behind a line break, a tab left of the column
`indent` is refused. -/
def readFrom (indent : Nat) : Nat → Gap → Cursor → Scanned (Gap × Cursor)
  | 0, gap, c => pure (gap, c)
  | fuel + 1, gap, c =>
    match c.lineBreak? with
    | some (lineBreak, next) =>
      if gap.breaksLine then
        readFrom indent fuel { gap with laterBreaks := gap.laterBreaks ++ lineBreak } next
      else readFrom indent fuel ⟨[], some lineBreak, []⟩ next
    | .none =>
      match c.rest with
      | b :: _ =>
        if isBlank b then
          if gap.breaksLine then
            if b = '\t' ∧ c.column < indent then throw .malformed
            else readFrom indent fuel gap (c.skip 1)
          else readFrom indent fuel { gap with blanks := gap.blanks ++ [b] } (c.skip 1)
        else pure (gap, c)
      | [] => pure (gap, c)

/-- Reads a gap that has begun as `gap`. -/
def read (indent : Nat) (gap : Gap) (c : Cursor) : Scanned (Gap × Cursor) :=
  readFrom indent (c.ahead + 1) gap c

end Gap

end BufferSchema.Yaml
