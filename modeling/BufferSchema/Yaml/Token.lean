import BufferSchema.Yaml.Scalar.Block
import BufferSchema.Yaml.Scalar.Plain
import BufferSchema.Yaml.Scalar.Quoted

/-!
# YAML tokens

The tokens of a YAML text, and those that are read on their own: anchors, tags and directives. The
tokens that depend on layout are in `BufferSchema.Yaml.Layout`.
-/

namespace BufferSchema.Yaml

/-- How a scalar is written. -/
inductive ScalarStyle where
  | plain
  | literal
  | other
  deriving DecidableEq, Repr

/-- The octets of a tag. They need not be the octets of a text. -/
abbrev TagText := List UInt8

/-- The octets of a text, all characters of which are ASCII. -/
def TagText.ofString (s : String) : TagText := s.toList.map fun c ↦ UInt8.ofNat c.toNat

/-- A token. -/
inductive Token where
  | streamEnd
  /-- A version directive. -/
  | version (major minor : Nat)
  /-- A directive that gives a tag handle its meaning. -/
  | tagHandle (handle meaning : TagText)
  | documentStart
  | documentEnd
  | blockSequenceStart
  | blockMappingStart
  | blockEnd
  | flowSequenceStart
  | flowSequenceEnd
  | flowMappingStart
  | flowMappingEnd
  | blockEntry
  | flowEntry
  | key
  | value
  | alias (name : String)
  | anchor (name : String)
  | tag (handle suffix : TagText)
  | scalar (text : String) (style : ScalarStyle)
  deriving DecidableEq, Repr

namespace Token

/-! ## Anchors -/

/-- The characters other than blanks that may follow a name. -/
def nameEnds : List Char := ['?', ':', ',', ']', '\x7d', '%', '@', '\x60']

/-- The name of an anchor or an alias at its indicator. -/
def readName? (c : Cursor) : Option (String × Cursor) :=
  let (name, c) := (c.skip 1).span isNameChar
  if name.isEmpty then none
  else if endsWord c.rest || (c.rest.head?.map nameEnds.contains).getD false then
    some (String.ofList name, c)
  else none

/-! ## Tags -/

/-- A tag handle: names between two marks, or a mark alone or followed by a name. -/
def readHandle? (c : Cursor) : Option (List Char × Cursor) :=
  match c.rest with
  | '!' :: _ =>
    let (name, next) := (c.skip 1).span isNameChar
    match next.rest with
    | '!' :: _ => some ('!' :: name ++ ['!'], next.skip 1)
    | _ => some ('!' :: name, next)
  | _ => none

/-- The characters of a tag beside those of a name. -/
def tagChars : List Char :=
  [';', '/', '?', ':', '@', '&', '=', '+', '$', '.', '!', '~', '*', '\'', '(', ')', '%']

/-- A character of a tag; brackets and commas only count where no flow collection could end. -/
def isTagChar (bracketed : Bool) (c : Char) : Bool :=
  isNameChar c || tagChars.contains c || (bracketed && [',', '[', ']'].contains c)

/-- The number of octets of the character that begins with an octet, by its leading bits. -/
def sequenceLength? (octet : UInt8) : Option Nat :=
  if octet &&& 0x80 = 0 then some 1
  else if octet &&& 0xE0 = 0xC0 then some 2
  else if octet &&& 0xF0 = 0xE0 then some 3
  else if octet &&& 0xF8 = 0xF0 then some 4
  else none

/-- Whether an octet continues a character, by its leading bits. -/
def continuesSequence (octet : UInt8) : Bool := octet &&& 0xC0 = 0x80

/-- The octets of a tag's text, in which a percent sign and two hexadecimal digits spell one. The
octets of a character follow each other; `missing` of them are still to come. -/
def tagOctets? : (missing : Nat) → List Char → Option TagText
  | 0, [] => some []
  | _ + 1, [] => none
  | missing, '%' :: a :: b :: cs => do
    let octet := UInt8.ofNat (16 * (← hexValue? a) + (← hexValue? b))
    match missing with
    | 0 => (octet :: ·) <$> tagOctets? ((← sequenceLength? octet) - 1) cs
    | missing + 1 =>
      if continuesSequence octet then (octet :: ·) <$> tagOctets? missing cs else none
  | 0, c :: cs => if c = '%' then none else (UInt8.ofNat c.toNat :: ·) <$> tagOctets? 0 cs
  | _ + 1, _ :: _ => none

/-- The text of a tag, of which `head` is the beginning. At least one character is needed in all;
the mark at the start of `head` does not belong to the text, and a NUL ends it. -/
def readTagText? (bracketed : Bool) (head : List Char) (c : Cursor) :
    Option (TagText × Cursor) := do
  let (chars, c) := c.span (isTagChar bracketed)
  if head.isEmpty && chars.isEmpty then none
  let octets := TagText.ofString (String.ofList (head.drop 1)) ++ (← tagOctets? 0 chars)
  return (octets.takeWhile (· ≠ 0), c)

/-- The mark of a tag, which is a handle and a tag of its own. -/
def tagMark : TagText := .ofString "!"

/-- A tag: in full between angle brackets, or a suffix behind a handle. -/
def readTag? (inFlow : Bool) (c : Cursor) : Option (Token × Cursor) := do
  let (token, c) ←
    if (c.rest.drop 1).head? = some '<' then do
      let (text, c) ← readTagText? true [] (c.skip 2)
      if c.rest.head? = some '>' then some (tag [] text, c.skip 1) else none
    else do
      let (handle, next) ← readHandle? c
      if 1 < handle.length && handle.getLast? = some '!' then
        let (text, c) ← readTagText? false [] next
        some (tag (.ofString (String.ofList handle)) text, c)
      else
        let (text, c) ← readTagText? false handle next
        some (if text = [] then tag [] tagMark else tag tagMark text, c)
  if endsWord c.rest || (inFlow && c.rest.head? = some ',') then some (token, c) else none

/-! ## Directives -/

/-- A number of at most nine digits in a version. -/
def readVersionNumber? (c : Cursor) : Option (Nat × Cursor) :=
  let (digits, c) := c.span Char.isDigit
  if digits.isEmpty || 9 < digits.length then none
  else some (digits.foldl (fun n d ↦ 10 * n + (d.toNat - '0'.toNat)) 0, c)

/-- A directive, with the rest of its line. -/
def readDirective? (c : Cursor) : Option (Token × Cursor) := do
  let (name, c) := (c.skip 1).span isNameChar
  if name.isEmpty || !endsWord c.rest then none
  let c := c.skipWhile isBlank
  let (token, c) ←
    match String.ofList name with
    | "YAML" => do
      let (major, c) ← readVersionNumber? c
      if c.rest.head? ≠ some '.' then none
      let (minor, c) ← readVersionNumber? (c.skip 1)
      some (version major minor, c)
    | "TAG" => do
      let (handle, c) ← readHandle? c
      if handle ≠ ['!'] ∧ (handle.length < 2 ∨ handle.getLast? ≠ some '!') then none
      if !((c.rest.head?.map isBlank).getD false) then none
      let (text, c) ← readTagText? true [] (c.skipWhile isBlank)
      if !endsWord c.rest then none
      some (tagHandle (.ofString (String.ofList handle)) text, c)
    | _ => none
  let c := (c.skipWhile isBlank).skipComment
  if endsLine c.rest then some (token, c.skipBreak) else none

end Token

end BufferSchema.Yaml
