import BufferSchema.Decoding.Source
import BufferSchema.Yaml.Node

/-!
# YAML as a source

What the decoder finds in a YAML node. A text is any scalar as it is written; numbers and truth
values are plain scalars. The decoder's failures have no wording here.

Reading counts the aliases that are followed. There is a limit to their number, because a few
aliases of aliases can make a short document long.
-/

namespace BufferSchema.Yaml

/-- A node within its document, for the sake of the aliases in it. -/
structure View where
  anchors : Anchors
  /-- The number of times that aliases can be followed in the whole document. -/
  aliasLimit : Nat
  node : Node

/-- A step that reads from nodes and counts the aliases that were followed. -/
abbrev Followed (α : Type) := StateT Nat (Except DecodeError) α

/-- The view on the root of a document. Aliases can be followed a hundred times for each mark. -/
def Composition.view (composition : Composition) : View :=
  ⟨composition.anchors, 100 * composition.markCount, composition.root⟩

namespace View

/-- The view on a node of the same document. -/
def focus (v : View) (node : Node) : View := { v with node }

/-- The node itself, or the one an alias stands for. -/
def target (v : View) : Followed Node := do
  match v.node with
  | .alias number =>
    let count ← get
    if v.aliasLimit ≤ count then throw DecodeError.malformed
    set (count + 1)
    match v.anchors.node? number with
    | some node => return node
    | none => throw DecodeError.malformed
  | node => return node

/-- The name in a tag that has a meaning of the document's own, if it is a text. -/
def localName? : Option TagText → Option String
  | some (mark :: name) => if [mark] = Token.tagMark then String.fromUTF8? ⟨name.toArray⟩ else none
  | _ => none

/-- Whether a tag names something of the document's own. -/
def isLocal (tag : Option TagText) : Bool := (localName? tag).isSome

/-! ## Scalars -/

/-- A plain scalar without content. -/
def isBlankScalar : Node → Bool
  | .scalar _ .plain "" => true
  | _ => false

/-- The words for nothing. -/
def nullWords : List String := ["null", "Null", "NULL", "~"]

/-- The tag of a type of the language. -/
def coreTag (name : String) : TagText := .ofString ("tag:yaml.org,2002:" ++ name)

/-- The text of a scalar that may be read as another type: a plain one, or a literal one with the
tag of that type. -/
def typedText? (typeName : String) : Node → Option String
  | .scalar _ .plain text => some text
  | .scalar (some tag) .literal text => if tag = coreTag typeName then some text else none
  | _ => none

/-- A text. -/
def text (v : View) : Followed String := do
  match ← v.target with
  | .scalar _ _ text => return text
  | _ => throw DecodeError.malformed

/-- A truth value. -/
def flag (v : View) : Followed Bool := do
  match typedText? "bool" (← v.target) with
  | some "true" | some "True" | some "TRUE" => return true
  | some "false" | some "False" | some "FALSE" => return false
  | _ => throw DecodeError.malformed

/-- The number of digits in a base, of which there is at least one. -/
def digitsOf? (base : Nat) (digits : List Char) : Option Nat :=
  match digits with
  | [] => none
  | _ =>
    digits.foldlM (fun n c ↦ do
      let d ← hexValue? c
      if d < base then some (base * n + d) else none) 0

/-- A number without sign: in base 16, 8 or 2 behind a mark, in base 10 without superfluous zero. -/
def magnitude? : List Char → Option Nat
  | '0' :: 'x' :: digits => digitsOf? 16 digits
  | '0' :: 'o' :: digits => digitsOf? 8 digits
  | '0' :: 'b' :: digits => digitsOf? 2 digits
  | '0' :: _ :: _ => none
  | digits => digitsOf? 10 digits

/-- An integer with an optional sign; a minus only where the range has negative numbers. -/
def integerOf? (signed : Bool) : List Char → Option Int
  | '+' :: digits => Int.ofNat <$> magnitude? digits
  | '-' :: digits => if signed then (fun n : Nat ↦ -(n : Int)) <$> magnitude? digits else none
  | digits => Int.ofNat <$> magnitude? digits

/-- An integer of a range. -/
def integer (range : IntegerRange) (v : View) : Followed Int := do
  let text := typedText? "int" (← v.target)
  match text.bind fun text ↦ integerOf? (decide (range.least < 0)) text.toList with
  | some i =>
    if range.least ≤ i ∧ i ≤ range.greatest then return i else throw DecodeError.malformed
  | none => throw DecodeError.malformed

/-- The value, unless it stands for absence: a plain scalar without content or with a word for
nothing. One with a tag needs the tag of nothing and such a word, and the tag allows no other
text. -/
def optional (v : View) : Followed (Option View) := do
  let node ← v.target
  let present (p : Bool) : Option View := if p then some (v.focus node) else none
  match node with
  | .scalar none .plain text => return present (text ≠ "" && !nullWords.contains text)
  | .scalar (some tag) .plain text =>
    if tag = coreTag "null" && !nullWords.contains text then throw DecodeError.malformed
    else return present (tag ≠ coreTag "null")
  | _ => return present true

/-! ## Collections -/

/-- The items of a sequence. A plain scalar without content has none. -/
def items (v : View) : Followed (Items View) := do
  match ← v.target with
  | .sequence _ items => return ⟨items.map v.focus, true⟩
  | node => if isBlankScalar node then return ⟨[], true⟩ else throw DecodeError.malformed

/-- The text of a key, if it is one. -/
def name? (v : View) : Followed (Option String) := do
  match ← v.target with
  | .scalar _ _ text => return some text
  | _ => return none

/-- The members of a mapping, by the texts of its keys. -/
def members (v : View) (entries : List (Node × Node)) : Followed (Members View) := do
  return ⟨← entries.mapM fun (key, value) ↦ do return (← (v.focus key).name?, v.focus value), true⟩

/-- A record is a mapping. A plain scalar without content has no members. -/
def record (v : View) : Followed (RecordForm View) := do
  match ← v.target with
  | .mapping _ entries => return .named (← v.members entries)
  | node =>
    if isBlankScalar node then return .named ⟨[], true⟩ else throw DecodeError.malformed

/-- The tags of scalars that are something else than a text. -/
def typedTags : List TagText := ["bool", "int", "float", "null"].map coreTag

/-- A variant is its name, which has to be a text, or a mapping with its content, where there is
depth for one. -/
def variant (depth : Nat) (v : View) : Followed (VariantForm View) := do
  match ← v.target with
  | .scalar tag _ text =>
    if isLocal tag || (tag.map typedTags.contains).getD false then throw DecodeError.malformed
    else return .bare text
  | .mapping tag entries =>
    if isLocal tag || depth = 0 then throw DecodeError.malformed
    else return .keyed (← v.members entries)
  | _ => throw DecodeError.malformed

/-- A variant without content is a scalar, or nothing with its name as a local tag. -/
def unitVariant {α : Type} (resolve : String → Decoded α) (v : View) : Followed α := do
  match ← v.target with
  | .scalar tag style text =>
    match localName? tag with
    | some name =>
      if style = .plain ∧ (text = "" ∨ nullWords.contains text) then decided (resolve name)
      else throw DecodeError.malformed
    | none => decided (resolve text)
  | _ => throw DecodeError.malformed

instance : Source View Followed where
  text := text
  flag := flag
  integer := integer
  optional := optional
  items := items
  record := fun _ v ↦ v.record
  variant := fun _ depth v ↦ v.variant depth
  unitVariant := unitVariant

end View

/-- The number of containers that may nest in a YAML text. -/
def depthLimit : Nat := 128

end BufferSchema.Yaml
