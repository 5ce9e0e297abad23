import BufferSchema.Schema.Basic

/-!
# Edits of a schema

What may be changed about a schema after it was loaded. Nothing is checked again, so an edited
schema can refer to what is declared no more; only the namespace list stays nonempty.
-/

namespace BufferSchema

/-- A change of a schema. -/
inductive Edit where
  | enumGenerated (key : String) (on : Bool)
  | isUnion (key : String) (on : Bool)
  | aggregateGenerated (key : String) (on : Bool)
  | sortBySize (key : String) (on : Bool)
  | removeEnum (key : String)
  | removeAggregate (key : String)
  | pushNamespace (components : List String)
  | popNamespace
  | rootType (value : Option String)
  | fileIdentifier (value : Option String)
  | fileExtension (value : Option String)
  | sourceFile (value : Option String)
  | fileName (value : String)
  | includeFile (file : String)
  deriving Repr

namespace Schema

/-- Whether an edit finds what it changes. -/
def admits (s : Schema) : Edit → Bool
  | .enumGenerated key _ | .isUnion key _ | .removeEnum key => s.enums.contains key
  | .aggregateGenerated key _ | .sortBySize key _ | .removeAggregate key =>
    s.aggregates.contains key
  | .popNamespace => 1 < s.namespaces.length
  | .pushNamespace _ | .rootType _ | .fileIdentifier _ | .fileExtension _ | .sourceFile _
  | .fileName _ | .includeFile _ => true

/-- Appends a namespace, which becomes the active one. -/
def pushNamespace (s : Schema) (ns : Namespace) : Schema :=
  { s with
    namespaces := s.namespaces ++ [ns]
    namespaces_ne_nil := by simp }

/-- Drops the active namespace, unless it is the only one. -/
def popNamespace (s : Schema) : Schema :=
  if h : s.namespaces.dropLast ≠ [] then
    { s with namespaces := s.namespaces.dropLast, namespaces_ne_nil := h }
  else s

/-- The schema after an edit. An edit that does not find what it changes changes nothing. -/
def edit (s : Schema) : Edit → Schema
  | .enumGenerated key on =>
    { s with enums := s.enums.modify key fun e ↦ { e with generated := on } }
  | .isUnion key on => { s with enums := s.enums.modify key fun e ↦ { e with isUnion := on } }
  | .aggregateGenerated key on =>
    { s with aggregates := s.aggregates.modify key fun a ↦ { a with generated := on } }
  | .sortBySize key on =>
    { s with aggregates := s.aggregates.modify key fun a ↦ { a with sortBySize := on } }
  | .removeEnum key => { s with enums := s.enums.erase key }
  | .removeAggregate key => { s with aggregates := s.aggregates.erase key }
  | .pushNamespace components => s.pushNamespace ⟨components⟩
  | .popNamespace => s.popNamespace
  | .rootType value => { s with rootType := value }
  | .fileIdentifier value => { s with fileIdentifier := value }
  | .fileExtension value => { s with fileExtension := value }
  | .sourceFile value => { s with sourceFile := value }
  | .fileName value => { s with fileName := value }
  | .includeFile file => { s with includedFiles := s.includedFiles ++ [file] }

end Schema

end BufferSchema
