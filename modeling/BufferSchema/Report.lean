import BufferSchema.Header.Enum
import BufferSchema.Text.Lines

/-!
# Reports

A report tells what the header of a schema will hold, without writing it: the namespaces, the
declarations with the facts that decide their form, the forward declarations and the root helpers.
-/

namespace BufferSchema

namespace Report

/-- A note in a list of notes. -/
def note (applies : Bool) (text : String) : String := if applies then ", " ++ text else ""

/-- A namespace as the report names it. -/
def namespaceLabel (ns : Namespace) : String :=
  if ns.components.isEmpty then "<root>" else ".".intercalate ns.components

/-- The line of the namespace at a position. -/
def namespaceLine (s : Schema) (position : Nat) (ns : Namespace) : String :=
  "    #" ++ toString position ++ " " ++ namespaceLabel ns ++
    (if position = s.activeIndex then " (active)" else "")

/-- The line of an enumeration. -/
def enumLine (options : Options) (key : String) (e : Enumeration) : String :=
  "    - " ++ key ++ ": " ++ toString e.values.length ++ " values, name table: " ++
    (if e.hasNameTable options.maxSparseness then "yes" else "no") ++
    note e.isUnion "union" ++ note e.generated "already generated"

/-- The line of an aggregate. -/
def aggregateLine (key : String) (a : Aggregate) : String :=
  let count (p : Field → Bool) : String := toString (a.fields.countP p)
  let fields := toString a.fields.length ++ " fields"
  if a.fixed then
    "    - " ++ key ++ ": struct, size " ++ toString a.byteSize.toNat ++ ", align " ++
      toString a.minAlign.toNat ++ ", " ++ fields ++ note a.generated "already generated"
  else
    "    - " ++ key ++ ": table, " ++ fields ++ " (" ++ count (·.deprecated) ++ " deprecated, " ++
      count (·.required) ++ " required, " ++ count (·.key) ++ " key)" ++
      note a.sortBySize "sorted by size" ++ note a.generated "already generated"

/-- The names of the root helpers for a root type. -/
def helperNames (s : Schema) (rootName : String) : List String :=
  ["Get" ++ rootName, "Verify" ++ rootName ++ "Buffer"] ++
    (if s.fileIdentifier.isSome then
      [rootName ++ "Identifier", rootName ++ "BufferHasIdentifier"]
    else []) ++
    (if s.fileExtension.isSome then [rootName ++ "Extension"] else []) ++
    ["Finish" ++ rootName ++ "Buffer"]

/-- The line of the root type. -/
def rootLine (s : Schema) : Option (String × Aggregate) → String
  | none => "  Root type: none"
  | some (_, root) =>
    "  Root type: " ++ root.name ++ " (" ++ ", ".intercalate (helperNames s root.name) ++ ")"

end Report

/-- The lines of the report on a schema. -/
def Schema.reportLines (s : Schema) (options : Options) : Emitted (List String) := do
  let forward ← s.forwardDeclarations
  let root ← s.rootAggregate
  return ["[~] Schema '" ++ s.fileName ++ "'",
      "  Namespaces: " ++ toString s.namespaces.length] ++
    (s.namespaces.zipIdx.map fun (ns, position) ↦ Report.namespaceLine s position ns) ++
    ["  Enums: " ++ toString s.enums.entries.length] ++
    (s.enums.entries.map fun (key, e) ↦ Report.enumLine options key e) ++
    ["  Aggregates: " ++ toString s.aggregates.entries.length] ++
    (s.aggregates.entries.map fun (key, a) ↦ Report.aggregateLine key a) ++
    ["  Forward declarations: " ++ toString (lineCount (unlines forward.activeLines)) ++
        " in active scope, " ++ toString forward.blocks.length ++ " other-scope block(s)",
      Report.rootLine s root]

/-- The report on a schema. -/
def Schema.report (s : Schema) (options : Options) : Emitted String :=
  unlines <$> s.reportLines options

end BufferSchema
