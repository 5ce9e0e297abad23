import BufferSchema.Yaml.Layout

/-!
# YAML nodes

A text is one document, and a document is one node: a scalar, a sequence or a mapping, in which an
alias stands for a node that carries an anchor. Aliases stay in the tree by number, because a node
may contain an alias of itself; `Anchors` tells which node a number stands for.
-/

namespace BufferSchema.Yaml

/-- A node. Tags are in full form. -/
inductive Node where
  | scalar (tag : Option TagText) (style : ScalarStyle) (text : String)
  | sequence (tag : Option TagText) (items : List Node)
  | mapping (tag : Option TagText) (entries : List (Node × Node))
  /-- The node that the anchor of this number was given to last. -/
  | alias (number : Nat)

mutual

/-- The number of marks that a node takes: one for a scalar or an alias, and two for a collection,
which begins and ends. -/
def Node.markCount : Node → Nat
  | .scalar _ _ _ | .alias _ => 1
  | .sequence _ items => 2 + markCountOfItems items
  | .mapping _ entries => 2 + markCountOfEntries entries

/-- The number of marks of the items of a sequence. -/
def Node.markCountOfItems : List Node → Nat
  | [] => 0
  | item :: rest => item.markCount + markCountOfItems rest

/-- The number of marks of the entries of a mapping. -/
def Node.markCountOfEntries : List (Node × Node) → Nat
  | [] => 0
  | (key, value) :: rest => key.markCount + value.markCount + markCountOfEntries rest

end

/-- The node of nothing. -/
def Node.empty : Node := .scalar none .plain ""

/-! ## Anchors -/

/-- The anchors of a document. A name gets a number each time it is given to a node: that of the
names so far, not counting repetitions. -/
structure Anchors where
  /-- The numbers of names, last given first. -/
  numbers : List (String × Nat)
  /-- The order in which numbers were given, last one first. -/
  given : List Nat
  /-- The nodes of complete anchors by their place in that order. -/
  nodes : List (Nat × Node)

namespace Anchors

/-- No anchors. -/
def empty : Anchors := ⟨[], [], []⟩

/-- Gives a name to a node that begins here. -/
def give (a : Anchors) (name : String) : Anchors :=
  let number := (a.numbers.map (·.1)).eraseDups.length
  { a with numbers := (name, number) :: a.numbers, given := number :: a.given }

/-- Completes the node whose anchor was the `place`-th to be given. -/
def complete (a : Anchors) (place : Nat) (node : Node) : Anchors :=
  { a with nodes := (place, node) :: a.nodes }

/-- The node that a number stands for. -/
def node? (a : Anchors) (number : Nat) : Option Node := do
  let since ← a.given.findIdx? (· = number)
  a.nodes.lookup (a.given.length - since)

end Anchors

/-! ## Reading nodes -/

/-- The state of reading a document: the tokens ahead with the defect behind them, the anchors so
far and the meanings of tag handles. -/
structure Composer where
  ahead : TokenRun
  anchors : Anchors
  handles : List (TagText × TagText)

/-- A step that reads from a document. -/
abbrev Composed (α : Type) := StateT Composer (Except Defect) α

namespace Composed

/-- The token ahead. Behind the last token that can be seen, the defect shows. -/
def peek : Composed Token := do
  let run := (← get).ahead
  match run.tokens.head?, run.defect with
  | some token, _ => return token
  | none, some defect => throw defect
  | none, none => return .streamEnd

/-- Passes over the token ahead. -/
def advance : Composed Unit :=
  modify fun s ↦ { s with ahead := { s.ahead with tokens := s.ahead.tokens.drop 1 } }

/-- Passes over a token that has to be ahead. -/
def expect (token : Token) : Composed Unit := do
  if (← peek) = token then advance else throw .malformed

/-- Whether one of some tokens is ahead. -/
def isAhead (tokens : List Token) : Composed Bool := do return tokens.contains (← peek)

/-- The full form of a tag. -/
def fullTag : Option (TagText × TagText) → Composed (Option TagText)
  | none => return none
  | some ([], suffix) => return some suffix
  | some (handle, suffix) => do
    match (← get).handles.lookup handle with
    | some meaning => return some (meaning ++ suffix)
    | none => throw .malformed

/-- An anchor ahead. -/
def anchor? : Composed (Option String) := do
  match ← peek with
  | .anchor name => do
    advance
    return some name
  | _ => return none

/-- A tag ahead. -/
def tag? : Composed (Option (TagText × TagText)) := do
  match ← peek with
  | .tag handle suffix => do
    advance
    return some (handle, suffix)
  | _ => return none

/-- What a node begins with: its anchor, if it has one, by the place in the order of anchors, and
its tag. They come in either order. That a handle has no meaning shows behind both. -/
def properties : Composed (Option Nat × Option TagText) := do
  let early ← anchor?
  let tag ← tag?
  let anchor ← if early.isNone && tag.isSome then anchor? else pure early
  let _ ← peek
  let tag ← fullTag tag
  match anchor with
  | none => return (none, tag)
  | some name => do
    modify fun s ↦ { s with anchors := s.anchors.give name }
    return (some (← get).anchors.given.length, tag)

mutual

/-- A node. In a block context it may be a block collection, and as a value of a block mapping a
sequence whose dashes are not indented. -/
def node : Nat → (inBlock indentless : Bool) → Composed Node
  | 0, _, _ => throw .malformed
  | fuel + 1, inBlock, indentless => do
    match ← peek with
    | .alias name => do
      advance
      match (← get).anchors.numbers.lookup name with
      | some number => return .alias number
      | none => throw .malformed
    | _ => do
      let (place, tag) ← properties
      let node ← content fuel inBlock indentless (place.isSome || tag.isSome) tag
      match place with
      | some place => modify fun s ↦ { s with anchors := s.anchors.complete place node }
      | none => pure ()
      return node

/-- A node behind its anchor and tag; with one of them, it may be empty. The mark of a tag alone
says nothing about a scalar. -/
def content : Nat → (inBlock indentless mayBeEmpty : Bool) → Option TagText → Composed Node
  | 0, _, _, _, _ => throw .malformed
  | fuel + 1, inBlock, indentless, mayBeEmpty, tag => do
    match ← peek with
    | .blockEntry =>
      if indentless then return .sequence tag (← indentlessEntries fuel)
      else if mayBeEmpty then return .scalar tag .plain "" else throw .malformed
    | .scalar text style => do
      advance
      return .scalar (if tag = some Token.tagMark then none else tag) style text
    | .flowSequenceStart => do
      advance
      return .sequence tag (← flowItems fuel true)
    | .flowMappingStart => do
      advance
      return .mapping tag (← flowEntries fuel true)
    | .blockSequenceStart =>
      if inBlock then do
        advance
        return .sequence tag (← blockItems fuel)
      else if mayBeEmpty then return .scalar tag .plain "" else throw .malformed
    | .blockMappingStart =>
      if inBlock then do
        advance
        return .mapping tag (← blockEntries fuel)
      else if mayBeEmpty then return .scalar tag .plain "" else throw .malformed
    | _ => if mayBeEmpty then return .scalar tag .plain "" else throw .malformed

/-- A node, unless one of some tokens is ahead. -/
def nodeUnless : Nat → List Token → (inBlock indentless : Bool) → Composed Node
  | 0, _, _, _ => throw .malformed
  | fuel + 1, ends, inBlock, indentless => do
    if ← isAhead ends then return .empty else node fuel inBlock indentless

/-- The items of a block sequence. -/
def blockItems : Nat → Composed (List Node)
  | 0 => throw .malformed
  | fuel + 1 => do
    match ← peek with
    | .blockEntry => do
      advance
      let item ← nodeUnless fuel [.blockEntry, .blockEnd] true false
      return item :: (← blockItems fuel)
    | _ => do
      expect .blockEnd
      return []

/-- The items of a block sequence that has no indentation of its own. -/
def indentlessEntries : Nat → Composed (List Node)
  | 0 => throw .malformed
  | fuel + 1 => do
    match ← peek with
    | .blockEntry => do
      advance
      let item ← nodeUnless fuel [.blockEntry, .key, .value, .blockEnd] true false
      return item :: (← indentlessEntries fuel)
    | _ => return []

/-- The entries of a block mapping. -/
def blockEntries : Nat → Composed (List (Node × Node))
  | 0 => throw .malformed
  | fuel + 1 => do
    match ← peek with
    | .key => do
      advance
      let key ← nodeUnless fuel [.key, .value, .blockEnd] true true
      let value ← valueUnless fuel [.key, .value, .blockEnd] true
      return (key, value) :: (← blockEntries fuel)
    | _ => do
      expect .blockEnd
      return []

/-- The value behind a key, which is empty without a colon or in front of some tokens. -/
def valueUnless : Nat → List Token → (inBlock : Bool) → Composed Node
  | 0, _, _ => throw .malformed
  | fuel + 1, ends, inBlock => do
    if ← isAhead [.value] then do
      advance
      nodeUnless fuel ends inBlock inBlock
    else return .empty

/-- The items of a flow sequence. A key makes an item a mapping of a single entry. -/
def flowItems : Nat → (first : Bool) → Composed (List Node)
  | 0, _ => throw .malformed
  | fuel + 1, first => do
    if ← isAhead [.flowSequenceEnd] then do
      advance
      return []
    if !first then expect .flowEntry
    match ← peek with
    | .flowSequenceEnd => do
      advance
      return []
    | .key => do
      advance
      let key ←
        if ← isAhead [.value, .flowEntry, .flowSequenceEnd] then do
          advance
          pure .empty
        else node fuel false false
      let value ← valueUnless fuel [.flowEntry, .flowSequenceEnd] false
      return .mapping none [(key, value)] :: (← flowItems fuel false)
    | _ => do
      let item ← node fuel false false
      return item :: (← flowItems fuel false)

/-- The entries of a flow mapping. A node without a key's mark is a key without a value. -/
def flowEntries : Nat → (first : Bool) → Composed (List (Node × Node))
  | 0, _ => throw .malformed
  | fuel + 1, first => do
    if ← isAhead [.flowMappingEnd] then do
      advance
      return []
    if !first then expect .flowEntry
    match ← peek with
    | .flowMappingEnd => do
      advance
      return []
    | .key => do
      advance
      let key ← nodeUnless fuel [.value, .flowEntry, .flowMappingEnd] false false
      let value ← valueUnless fuel [.flowEntry, .flowMappingEnd] false
      return (key, value) :: (← flowEntries fuel false)
    | _ => do
      let key ← node fuel false false
      return (key, .empty) :: (← flowEntries fuel false)

end

/-! ## Documents -/

/-- The directives in front of a document; a version has to be known and each thing be said
once. -/
def directives : Nat → (versioned : Bool) → List (TagText × TagText) →
    Composed (List (TagText × TagText))
  | 0, _, _ => throw .malformed
  | fuel + 1, versioned, handles => do
    match ← peek with
    | .version major minor => do
      if versioned || major ≠ 1 || (minor ≠ 1 && minor ≠ 2) then throw .malformed
      advance
      directives fuel true handles
    | .tagHandle handle meaning => do
      if (handles.lookup handle).isSome then throw .malformed
      advance
      directives fuel versioned ((handle, meaning) :: handles)
    | _ => return handles

/-- The tag handles that need no directive. -/
def defaultHandles : List (TagText × TagText) :=
  [(.ofString "!", .ofString "!"), (.ofString "!!", .ofString "tag:yaml.org,2002:")]

/-- Whether a document begins with directives or a border. -/
def explicitStart (token : Token) : Bool :=
  match token with
  | .version _ _ | .tagHandle _ _ | .documentStart => true
  | _ => false

/-- Whether a document with a border has no content. -/
def explicitEnd (token : Token) : Bool :=
  explicitStart token ||
    match token with
    | .documentEnd | .streamEnd => true
    | _ => false

/-- A document that begins with directives or a border. -/
def explicitDocument (fuel : Nat) : Composed Node := do
  let handles ← directives fuel false []
  modify fun s ↦ { s with handles := handles ++ defaultHandles }
  expect .documentStart
  if explicitEnd (← peek) then return .empty else node fuel true false

/-- The end of a document, which need not be marked. -/
def documentEnd : Composed Unit := do if ← isAhead [.documentEnd] then advance

/-- The first document of a text. -/
def firstDocument (fuel : Nat) : Composed Node := do
  let token ← peek
  if token = .streamEnd then throw .malformed
  let node ← if explicitStart token then explicitDocument fuel else node fuel true false
  documentEnd
  return node

/-- Passes over the ends of documents. -/
def documentEnds : Nat → Composed Unit
  | 0 => return ()
  | fuel + 1 => do
    if ← isAhead [.documentEnd] then do
      advance
      documentEnds fuel

/-- What follows the first document of a text: nothing. A second document is read, for the sake of
its defects, and refused. -/
def textEnd (fuel : Nat) : Composed Unit := do
  documentEnds fuel
  if !(← isAhead [.streamEnd]) then
    modify fun s ↦ { s with anchors := .empty }
    let _ ← explicitDocument fuel
    documentEnd
    throw .malformed

end Composed

/-- A document: its node, its anchors and the number of its marks. -/
structure Composition where
  root : Node
  anchors : Anchors
  markCount : Nat

/-- Enough steps for the tokens ahead, none of which is read by more than four in each other. -/
def Composer.fuel (s : Composer) : Nat := 4 * s.ahead.tokens.length + 8

/-- The first document of a text, and what is behind it. -/
def compose (s : String) : Scanned (Composition × Composer) := do
  let start : Composer := ⟨.ofString s, .empty, Composed.defaultHandles⟩
  let (root, rest) ← (Composed.firstDocument start.fuel).run start
  return (⟨root, rest.anchors, root.markCount⟩, rest)

/-- Whether nothing is behind the first document of a text. -/
def Composer.checkEnd (rest : Composer) : Scanned Unit :=
  (Composed.textEnd rest.fuel).run' rest

end BufferSchema.Yaml
