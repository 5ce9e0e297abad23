import BufferSchema.Yaml.Token

/-!
# Layout of a YAML text

Which tokens a text has depends on its layout. A block collection begins where the indentation
grows and ends where it shrinks, and a mapping key shows itself only by the colon behind it: its
token, and perhaps the one that opens its mapping, is put in front of tokens that are there already.
A key that needs no mark of its own is on one line and not longer than 1024 octets.

While something may still turn out to be a key, its token and those behind it are held back. So when
a text has a defect, there are tokens in front of it that nobody gets to see.
-/

namespace BufferSchema.Yaml

/-- A place where a mapping key may have begun. -/
structure KeyCandidate where
  /-- The number of flow collections around it. -/
  depth : Nat
  /-- Whether only a key can be there. -/
  required : Bool
  /-- The number of tokens before it. -/
  position : Nat
  octet : Nat
  line : Nat
  column : Nat

/-- The state of reading a text. -/
structure Layout where
  cursor : Cursor
  /-- The tokens so far, last one first. -/
  tokens : List Token
  /-- The number of these tokens. -/
  count : Nat
  /-- The columns of the open block collections, innermost first. -/
  indents : List Nat
  /-- The number of open flow collections. -/
  flowDepth : Nat
  /-- The key candidates, innermost first: at most one for every depth. -/
  candidates : List KeyCandidate
  /-- Whether a key may begin here. -/
  keyAllowed : Bool

namespace Layout

/-- The state before a text. -/
def start (cs : List Char) : Layout := ⟨.start cs, [], 0, [], 0, [], true⟩

/-- Whether a flow collection is open. -/
def inFlow (l : Layout) : Bool := 0 < l.flowDepth

/-- The candidate of the innermost collection. -/
def candidate (l : Layout) : Option KeyCandidate :=
  l.candidates.head?.filter (·.depth = l.flowDepth)

/-- The tokens in front of the first one that is held back. -/
def released (l : Layout) : List Token :=
  l.tokens.reverse.take ((l.candidates.map (·.position)).foldl min l.count)

/-- Puts a token behind the others. -/
def push (l : Layout) (token : Token) : Layout :=
  { l with tokens := token :: l.tokens, count := l.count + 1 }

/-- Puts a token behind the first `position` ones. -/
def insert (l : Layout) (position : Nat) (token : Token) : Layout :=
  let behind := l.count - position
  { l with
    tokens := l.tokens.take behind ++ token :: l.tokens.drop behind
    count := l.count + 1 }

/-- Forgets the candidate of the innermost collection; one that has to be a key cannot be
forgotten. -/
def dropCandidate (l : Layout) : Scanned Layout :=
  match l.candidate with
  | none => pure l
  | some k =>
    if k.required then throw .malformed else pure { l with candidates := l.candidates.drop 1 }

/-- Takes the cursor for a candidate, where a key may begin. It has to be one where the innermost
block collection has its column. -/
def saveCandidate (l : Layout) : Scanned Layout :=
  if l.keyAllowed then do
    let c := l.cursor
    let required := !l.inFlow && l.indents.head? = some c.column
    let l ← l.dropCandidate
    return { l with
      candidates := ⟨l.flowDepth, required, l.count, c.octet, c.line, c.column⟩ :: l.candidates }
  else pure l

/-- Forgets the candidates that are too far away. -/
def dropStale (l : Layout) : Scanned Layout :=
  let isStale (k : KeyCandidate) : Bool :=
    k.line < l.cursor.line || k.octet + 1024 < l.cursor.octet
  if l.candidates.any fun k ↦ k.required && isStale k then throw .malformed
  else pure { l with candidates := l.candidates.filter (!isStale ·) }

/-- Opens a block collection at a column that is further in, in front of the token at `position`. -/
def openBlock (l : Layout) (column position : Nat) (token : Token) : Layout :=
  if l.inFlow then l
  else if (l.indents.head?.map fun indent ↦ decide (indent < column)).getD true then
    { l.insert position token with indents := column :: l.indents }
  else l

/-- Closes the block collections that are further in than a column; `none` is left of every
column. -/
def closeBlocks (l : Layout) (column : Option Nat) : Layout :=
  if l.inFlow then l
  else
    let further := l.indents.takeWhile fun indent ↦
      match column with
      | none => true
      | some column => column < indent
    further.foldl (fun l _ ↦ l.push .blockEnd)
      { l with indents := l.indents.drop further.length }

/-- Passes over blanks, comments and line breaks in front of a token, one line per step. A tab can
stand where no key may begin. A byte order mark may begin a line, where it takes a column. -/
def skipSpace : Nat → Layout → Layout
  | 0, l => l
  | fuel + 1, l =>
    let tabs := l.inFlow || !l.keyAllowed
    let c := l.cursor.skipMark
    let c := (c.skipWhile fun b ↦ b = ' ' || (tabs && b = '\t')).skipComment
    match c.lineBreak? with
    | some (_, next) =>
      skipSpace fuel { l with cursor := next, keyAllowed := l.keyAllowed || !l.inFlow }
    | none => { l with cursor := c }

/-! ## One token -/

/-- The end of the text. -/
def readEnd (l : Layout) : Scanned Layout := do
  let l ← (l.closeBlocks none).dropCandidate
  return { l.push .streamEnd with keyAllowed := false }

/-- A directive or the border of a document. -/
def readBorder (l : Layout) (read : Cursor → Scanned (Token × Cursor)) : Scanned Layout := do
  let l ← (l.closeBlocks none).dropCandidate
  let (token, c) ← read l.cursor
  return { l.push token with cursor := c, keyAllowed := false }

/-- The bracket that opens a flow collection. -/
def readFlowStart (l : Layout) (token : Token) : Scanned Layout := do
  let l ← l.saveCandidate
  return { l.push token with
    cursor := l.cursor.skip 1, flowDepth := l.flowDepth + 1, keyAllowed := true }

/-- The bracket that closes a flow collection. -/
def readFlowEnd (l : Layout) (token : Token) : Scanned Layout := do
  let l ← l.dropCandidate
  return { l.push token with
    cursor := l.cursor.skip 1, flowDepth := l.flowDepth - 1, keyAllowed := false }

/-- The comma between entries of a flow collection. -/
def readFlowEntry (l : Layout) : Scanned Layout := do
  let l ← l.dropCandidate
  return { l.push .flowEntry with cursor := l.cursor.skip 1, keyAllowed := true }

/-- The dash in front of an entry of a block sequence. -/
def readBlockEntry (l : Layout) : Scanned Layout := do
  if !l.inFlow && !l.keyAllowed then throw .malformed
  let l ← (l.openBlock l.cursor.column l.count .blockSequenceStart).dropCandidate
  return { l.push .blockEntry with cursor := l.cursor.skip 1, keyAllowed := true }

/-- The mark in front of a key. -/
def readKey (l : Layout) : Scanned Layout := do
  if !l.inFlow && !l.keyAllowed then throw .malformed
  let l ← (l.openBlock l.cursor.column l.count .blockMappingStart).dropCandidate
  return { l.push .key with cursor := l.cursor.skip 1, keyAllowed := !l.inFlow }

/-- The colon in front of a value. If there is a candidate, it was a key. -/
def readValue (l : Layout) : Scanned Layout :=
  match l.candidate with
  | some k =>
    let l := (l.insert k.position .key).openBlock k.column k.position .blockMappingStart
    pure { l.push .value with
      cursor := l.cursor.skip 1, candidates := l.candidates.drop 1, keyAllowed := false }
  | none =>
    if !l.inFlow && !l.keyAllowed then throw .malformed
    else
      let l := l.openBlock l.cursor.column l.count .blockMappingStart
      pure { l.push .value with cursor := l.cursor.skip 1, keyAllowed := !l.inFlow }

/-- A token that may begin a key and lies on one line. -/
def readNode (l : Layout) (read : Cursor → Scanned (Token × Cursor)) : Scanned Layout := do
  let l ← l.saveCandidate
  let (token, c) ← read l.cursor
  return { l.push token with cursor := c, keyAllowed := false }

/-- A block scalar. -/
def readBlockScalar (l : Layout) (folded : Bool) : Scanned Layout := do
  let l ← l.dropCandidate
  let (text, c) ← readBlock folded l.indents.head? l.cursor
  let style := if folded then ScalarStyle.other else .literal
  return { l.push (.scalar (String.ofList text) style) with cursor := c, keyAllowed := true }

/-- A plain scalar. A key may begin behind one that reaches another line. -/
def readPlain (l : Layout) : Scanned Layout := do
  let l ← l.saveCandidate
  let indent := (l.indents.head?.map (· + 1)).getD 0
  let (scalar, c) ← PlainScalar.read l.inFlow indent l.cursor
  return { l.push (.scalar (String.ofList scalar.buffer.chars) .plain) with
    cursor := c, keyAllowed := scalar.gap.breaksLine }

/-- The characters that cannot begin a plain scalar, unless a word follows some of them. -/
def indicators : List Char :=
  ['-', '?', ':', ',', '[', ']', '\x7b', '\x7d', '#', '&', '*', '!', '|', '>', '\'', '"', '%', '@',
    '\x60']

/-- Whether a plain scalar begins with `b` in front of `cs`. -/
def beginsPlain (inFlow : Bool) (b : Char) (cs : List Char) : Bool :=
  !(isBlank b || isBreak b || indicators.contains b) ||
    (b = '-' && !((cs.head?.map isBlank).getD false)) ||
    (!inFlow && (b = '?' || b = ':') && !endsWord cs)

/-- Reads one token; `l` stands behind all space. -/
def readToken (l : Layout) : Scanned Layout :=
  let c := l.cursor
  match c.rest with
  | [] => l.readEnd
  | b :: cs =>
    let quotedScalar (quote : Char) (c : Cursor) : Scanned (Token × Cursor) := do
      let (text, c) ← readQuoted quote c
      return (.scalar (String.ofList text) .other, c)
    let named (token : String → Token) (c : Cursor) : Scanned (Token × Cursor) := do
      let (name, c) ← wellFormed (Token.readName? c)
      return (token name, c)
    if c.column = 0 ∧ b = '%' then l.readBorder fun c ↦ wellFormed (Token.readDirective? c)
    else if c.atMarks '-' then l.readBorder fun c ↦ pure (.documentStart, c.skip 3)
    else if c.atMarks '.' then l.readBorder fun c ↦ pure (.documentEnd, c.skip 3)
    else if b = '[' then l.readFlowStart .flowSequenceStart
    else if b = '\x7b' then l.readFlowStart .flowMappingStart
    else if b = ']' then l.readFlowEnd .flowSequenceEnd
    else if b = '\x7d' then l.readFlowEnd .flowMappingEnd
    else if b = ',' then l.readFlowEntry
    else if b = '-' ∧ endsWord cs then l.readBlockEntry
    else if b = '?' ∧ (l.inFlow ∨ endsWord cs) then l.readKey
    else if b = ':' ∧ (l.inFlow ∨ endsWord cs) then l.readValue
    else if b = '*' then l.readNode (named .alias)
    else if b = '&' then l.readNode (named .anchor)
    else if b = '!' then l.readNode fun c ↦ wellFormed (Token.readTag? l.inFlow c)
    else if b = '|' ∧ !l.inFlow then l.readBlockScalar false
    else if b = '>' ∧ !l.inFlow then l.readBlockScalar true
    else if b = '\'' then l.readNode (quotedScalar '\'')
    else if b = '"' then l.readNode (quotedScalar '"')
    else if beginsPlain l.inFlow b cs then l.readPlain
    else throw .malformed

/-- Passes over space and reads the token behind it. -/
def advance (l : Layout) : Scanned Layout := do
  let l ← (skipSpace (l.cursor.ahead + 1) l).dropStale
  l.cursor.look 4
  (l.closeBlocks (some l.cursor.column)).readToken

end Layout

/-- The tokens of a text that can be seen, and the defect behind them, if there is one. -/
structure TokenRun where
  tokens : List Token
  defect : Option Defect

/-- Reads tokens up to the end of the text, one per step. -/
def TokenRun.readFrom : Nat → Layout → TokenRun
  | 0, l => ⟨l.released, some .malformed⟩
  | fuel + 1, l =>
    match l.dropStale with
    | .error defect => ⟨l.released, some defect⟩
    | .ok l =>
      match l.advance with
      | .error defect => ⟨l.released, some defect⟩
      | .ok next =>
        if next.tokens.head? = some .streamEnd then ⟨next.tokens.reverse, none⟩
        else readFrom fuel next

/-- The tokens of a text. -/
def TokenRun.ofString (s : String) : TokenRun :=
  let cs := s.toList
  readFrom (cs.length + 1) (.start cs)

end BufferSchema.Yaml
