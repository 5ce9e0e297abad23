import BufferSchema.Dependencies
import BufferSchema.Header.Enum
import BufferSchema.Header.Guard
import BufferSchema.Header.Root
import BufferSchema.Header.Struct
import BufferSchema.Header.Table
import BufferSchema.Text.Lines

/-!
# Headers

A header in its parts, in the order in which they depend on each other: forward declarations,
enumerations, structs, tables, the bodies of dispatchers and the root helpers. A schema has no header
if its declarations give no text.
-/

namespace BufferSchema

/-- A header in its parts. -/
structure Header where
  guard : String
  includes : List String
  forward : ForwardDeclarations
  scope : Namespace
  enums : List EnumFragment
  structs : List StructFragment
  tables : List TableFragment
  helpers : List InlineFunction

namespace Header

/-- The lines of a header. -/
def lines (h : Header) : List String :=
  ["// automatically generated by the FlatBuffers compiler, do not modify",
      "",
      "#ifndef " ++ h.guard,
      "#define " ++ h.guard,
      "",
      "#include \"flatbuffers/flatbuffers.h\"",
      ""] ++
    h.includes ++
    h.forward.otherLines ++ [""] ++
    h.scope.openLines ++ [""] ++
    h.forward.activeLines ++ [""] ++
    h.enums.flatMap EnumFragment.declarationLines ++
    h.structs.flatMap StructFragment.lines ++
    h.tables.flatMap TableFragment.lines ++
    h.enums.flatMap EnumFragment.dispatcherLines ++
    h.helpers.flatMap (fun helper ↦ [helper.line, ""]) ++
    h.scope.closeLines ++
    ["", "#endif  // " ++ h.guard]

/-- Whether declarations give no text. -/
def isBlank (enums : List EnumFragment) (structs : List StructFragment)
    (tables : List TableFragment) : Bool :=
  let enumText := unlines (enums.flatMap EnumFragment.declarationLines)
  let aggregateText := unlines (structs.flatMap StructFragment.lines) ++
    unlines (tables.flatMap TableFragment.lines)
  enumText.isEmpty && aggregateText.isEmpty

end Header

namespace Schema

/-- The enumerations that are still to be emitted. -/
def pendingEnums (s : Schema) : List Enumeration := s.enums.values.filter fun e ↦ !e.generated

/-- The structs that are still to be emitted. -/
def pendingStructs (s : Schema) : List Aggregate :=
  s.aggregates.values.filter fun a ↦ !a.generated && a.fixed

/-- The tables that are still to be emitted. -/
def pendingTables (s : Schema) : List Aggregate :=
  s.aggregates.values.filter fun a ↦ !a.generated && !a.fixed

/-- The header of a schema, if there is anything to emit. -/
def header? (s : Schema) (options : Options) : Emitted (Option Header) := do
  let enums ← s.pendingEnums.mapM (EnumFragment.ofEnum s options)
  let structs ← s.pendingStructs.mapM (StructFragment.ofAggregate s options)
  let tables ← s.pendingTables.mapM (TableFragment.ofAggregate s options)
  if Header.isBlank enums structs tables then return none
  let forward ← s.forwardDeclarations
  let helpers ← s.rootHelpers options
  return some {
    guard := s.includeGuard
    includes := if options.includeDependenceHeaders then s.includeLines else []
    forward
    scope := s.activeNamespace
    enums, structs, tables, helpers }

/-- The text of the header of a schema, which is empty if there is nothing to emit. -/
def generate (s : Schema) (options : Options) : Emitted String := do
  match ← s.header? options with
  | none => return ""
  | some header => return unlines header.lines

end Schema

end BufferSchema
