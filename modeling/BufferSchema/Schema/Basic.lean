import BufferSchema.Document.Basic
import BufferSchema.Schema.Declarations
import BufferSchema.Schema.Fault
import BufferSchema.Schema.Namespace

/-!
# Schemas

A schema is a document whose declarations are found by qualified name. Its namespace list is never
empty: the last namespace is the active one, into which generated code is put.
-/

namespace BufferSchema

/-- A schema with its declarations under their qualified names. -/
structure Schema where
  fileName : String
  sourceFile : Option String
  namespaces : List Namespace
  namespaces_ne_nil : namespaces ≠ []
  enums : Declarations Enumeration
  aggregates : Declarations Aggregate
  rootType : Option String
  fileIdentifier : Option String
  fileExtension : Option String
  includedFiles : List String

namespace Schema

/-- The position of the active namespace. -/
def activeIndex (s : Schema) : Nat := s.namespaces.length - 1

/-- The active namespace. -/
def activeNamespace (s : Schema) : Namespace := s.namespaces.getLast s.namespaces_ne_nil

/-- Whether a namespace is the active one. Position counts, not path. -/
def isActive (s : Schema) (scope : NamespaceId) : Bool := scope.toNat = s.activeIndex

/-- The namespace at a position. -/
def namespaceAt (s : Schema) (scope : NamespaceId) : Emitted Namespace :=
  match s.namespaces[scope.toNat]? with
  | some ns => pure ns
  | none => throw (.noNamespace s.namespaces.length scope.toNat)

/-- The enumeration of a qualified name. -/
def enumeration (s : Schema) (name : String) : Emitted Enumeration :=
  match s.enums.get? name with
  | some e => pure e
  | none => throw (.undeclaredEnum name)

/-- The aggregate of a qualified name. -/
def aggregate (s : Schema) (name : String) : Emitted Aggregate :=
  match s.aggregates.get? name with
  | some a => pure a
  | none => throw (.undeclaredAggregate name)

/-- The root type with its qualified name. -/
def rootAggregate (s : Schema) : Emitted (Option (String × Aggregate)) :=
  match s.rootType with
  | none => pure none
  | some name => do return some (name, ← s.aggregate name)

/-- Whether every declaration was generated for an included schema already. -/
def isEmpty (s : Schema) : Bool :=
  s.enums.values.all (·.generated) && s.aggregates.values.all (·.generated)

end Schema

end BufferSchema
