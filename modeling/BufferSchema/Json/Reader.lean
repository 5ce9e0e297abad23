import BufferSchema.Json.Number
import BufferSchema.Json.Text

/-!
# Reading JSON

`Json.read` turns a text into a tree that ends at the first defect, and says whether only blanks
follow the value.
-/

namespace BufferSchema.Json

/-- The characters between tokens. -/
def isBlank (c : Char) : Bool := c = ' ' || c = '\n' || c = '\t' || c = '\r'

/-- A text without the blanks at its start. -/
def skipBlanks (cs : List Char) : List Char := cs.dropWhile isBlank

/-- The rest of a text behind a word that it starts with. -/
def afterWord? (word : String) (cs : List Char) : Option (List Char) :=
  if word.toList.isPrefixOf cs then some (cs.drop word.length) else none

/-- A value that is no container. -/
def readLeaf? : List Char → Option (Json × List Char)
  | '"' :: cs => (readText? cs).map fun (content, rest) ↦ (.text content, rest)
  | 'n' :: cs => (afterWord? "ull" cs).map fun rest ↦ (.null, rest)
  | 't' :: cs => (afterWord? "rue" cs).map fun rest ↦ (.bool true, rest)
  | 'f' :: cs => (afterWord? "alse" cs).map fun rest ↦ (.bool false, rest)
  | cs => readNumber? cs

/-- A member of an object. Where its name is no text, what stands there counts instead. -/
def member (name : Option String) (value : Json) : Option String × Json :=
  (name, if name.isSome then value else .text none)

mutual

/-- A value and what follows it; nothing follows a defect. -/
def readValue : Nat → List Char → Json × Option (List Char)
  | 0, _ => (.broken, none)
  | fuel + 1, cs =>
    match skipBlanks cs with
    | '[' :: cs =>
      match skipBlanks cs with
      | ']' :: rest => (.array [] true, some rest)
      | cs =>
        let (items, rest) := readItems fuel cs
        (.array items rest.isSome, rest)
    | '\x7b' :: cs =>
      match skipBlanks cs with
      | '\x7d' :: rest => (.object [] true, some rest)
      | cs =>
        let (members, rest) := readMembers fuel cs
        (.object members rest.isSome, rest)
    | cs =>
      match readLeaf? cs with
      | some (leaf, rest) => (leaf, some rest)
      | none => (.broken, none)

/-- The items of an array from a value on, and what follows the closing bracket. -/
def readItems : Nat → List Char → List Json × Option (List Char)
  | 0, _ => ([], none)
  | fuel + 1, cs =>
    match readValue fuel cs with
    | (item, none) => ([item], none)
    | (item, some rest) =>
      match skipBlanks rest with
      | ']' :: rest => ([item], some rest)
      | ',' :: rest =>
        match skipBlanks rest with
        | ']' :: _ => ([item], none)
        | rest =>
          let (items, rest) := readItems fuel rest
          (item :: items, rest)
      | _ => ([item], none)

/-- The members of an object from a name on, and what follows the closing brace. -/
def readMembers : Nat → List Char → List (Option String × Json) × Option (List Char)
  | 0, _ => ([], none)
  | fuel + 1, cs =>
    match skipBlanks cs with
    | '"' :: cs =>
      match readText? cs with
      | none => ([], none)
      | some (name, rest) =>
        match skipBlanks rest with
        | ':' :: rest =>
          match readValue fuel rest with
          | (value, none) => ([member name value], none)
          | (value, some rest) =>
            match skipBlanks rest with
            | '\x7d' :: rest => ([member name value], some rest)
            | ',' :: rest =>
              let (members, rest) := readMembers fuel rest
              (member name value :: members, rest)
            | _ => ([member name value], none)
        | _ => ([member name .broken], none)
    | cs => ([(none, (readValue fuel cs).1)], none)

end

/-- A JSON text: its value, and whether nothing but blanks follows it. -/
structure Reading where
  value : Json
  ended : Bool

/-- Reads a JSON text. Every second step of the recursion consumes a character, so twice the length
of the text is fuel enough. -/
def read (s : String) : Reading :=
  let cs := s.toList
  match readValue (2 * cs.length + 2) cs with
  | (value, none) => ⟨value, false⟩
  | (value, some rest) => ⟨value, (skipBlanks rest).isEmpty⟩

end BufferSchema.Json
