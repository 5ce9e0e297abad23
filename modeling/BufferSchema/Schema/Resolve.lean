import BufferSchema.Schema.Basic

/-!
# Resolving documents

`Schema.ofDocument` puts the declarations of a document under their qualified names and checks that
every name a declaration refers to is declared. Enumerations come before aggregates, both before
the root type, and the references are checked last: the first failure in this order is reported.
-/

namespace BufferSchema

/-- Why a document is not a schema. An owner is the declaration or member that is at fault. -/
inductive ResolveError where
  | unknownEnum (owner name : String)
  | unknownAggregate (owner name : String)
  | namespaceOutOfRange (owner : String) (position count : Nat)
  /-- A reference takes the layout of an aggregate for `expected`; its declaration says `actual`. -/
  | fixedMismatch (owner name : String) (expected actual : Bool)
  | unknownRootType (name : String)
  | duplicateDeclaration (name : String)
  | missingUnionType (owner : String)
  deriving DecidableEq, Repr

/-- A truth value in a message. -/
def truthText (b : Bool) : String := if b then "true" else "false"

/-- The wording of a failure. -/
def ResolveError.message : ResolveError → String
  | .unknownEnum owner name => "'" ++ owner ++ "' references unknown enum '" ++ name ++ "'"
  | .unknownAggregate owner name =>
    "'" ++ owner ++ "' references unknown aggregate '" ++ name ++ "'"
  | .namespaceOutOfRange owner position count =>
    "'" ++ owner ++ "' uses namespace #" ++ toString position ++ " but only " ++ toString count ++
      " namespaces are declared"
  | .fixedMismatch owner name expected actual =>
    "'" ++ owner ++ "' references '" ++ name ++ "' as fixed=" ++ truthText expected ++
      " but it is declared fixed=" ++ truthText actual
  | .unknownRootType name => "root type '" ++ name ++ "' is not a declared aggregate"
  | .duplicateDeclaration name => "'" ++ name ++ "' is declared more than once"
  | .missingUnionType owner =>
    "union value '" ++ owner ++ "' does not name the aggregate it selects"

/-- A result of resolving. -/
abbrev Resolved (α : Type) := Except ResolveError α

/-! ## Declarations -/

/-- The qualified name of a declaration, whose namespace has to be one of the list. -/
def resolvedName (namespaces : List Namespace) (scope : NamespaceId) (name : String) :
    Resolved String :=
  match namespaces[scope.toNat]? with
  | some ns => pure (ns.qualifiedName name)
  | none => throw (.namespaceOutOfRange name scope.toNat namespaces.length)

/-- Puts declarations behind those of a table, each under the name that `nameOf` gives it. -/
def Declarations.addAll {α : Type} (nameOf : α → Resolved String) (decls : Declarations α) :
    List α → Resolved (Declarations α)
  | [] => pure decls
  | a :: rest => do
    let key ← nameOf a
    match decls.insert? key a with
    | some decls => decls.addAll nameOf rest
    | none => throw (.duplicateDeclaration key)

/-! ## References -/

namespace Schema

/-- A reference to an enumeration. -/
def checkEnum (s : Schema) (owner name : String) : Resolved Unit :=
  if s.enums.contains name then pure () else throw (.unknownEnum owner name)

/-- A reference to an aggregate. -/
def checkAggregate (s : Schema) (owner name : String) : Resolved Unit :=
  if s.aggregates.contains name then pure () else throw (.unknownAggregate owner name)

/-- The names in a type. -/
def checkType (s : Schema) (owner : String) : TypeRef → Resolved Unit
  | .scalar _ (some name) => s.checkEnum owner name
  | .scalar _ none | .bool | .string => pure ()
  | .vector element => s.checkType owner element
  | .aggregate target fixed =>
    match s.aggregates.get? target with
    | none => throw (.unknownAggregate owner target)
    | some decl =>
      if decl.fixed = fixed then pure ()
      else throw (.fixedMismatch owner target fixed decl.fixed)
  | .union tagEnum => s.checkEnum owner tagEnum

/-- The root type of a nested buffer, which is looked for in the active namespace. -/
def checkNestedRoot (s : Schema) (owner : String) : Option String → Resolved Unit
  | none => pure ()
  | some name => s.checkAggregate owner (s.activeNamespace.qualifiedName name)

/-- The names in a field of the aggregate `key`. -/
def checkField (s : Schema) (key : String) (field : Field) : Resolved Unit := do
  let owner := key ++ "." ++ field.name
  s.checkType owner field.type
  s.checkNestedRoot owner field.nestedRoot

/-- The aggregate that a value of the enumeration `key` selects. Only the first value of a union may
select none. -/
def checkValue (s : Schema) (key : String) (isUnion : Bool) (position : Nat) (value : EnumValue) :
    Resolved Unit :=
  let owner := key ++ "." ++ value.name
  match value.unionType with
  | some target => s.checkAggregate owner target
  | none => if isUnion ∧ 0 < position then throw (.missingUnionType owner) else pure ()

/-- Every reference of a schema. -/
def checkReferences (s : Schema) : Resolved Unit := do
  s.enums.entries.forM fun (key, decl) ↦
    decl.values.zipIdx.forM fun (value, position) ↦ s.checkValue key decl.isUnion position value
  s.aggregates.entries.forM fun (key, decl) ↦ decl.fields.forM (s.checkField key)

end Schema

/-! ## Documents -/

/-- The namespaces of a document; without any, declarations are in the root namespace. -/
def Document.scopes (d : Document) : List Namespace :=
  if d.namespaces = [] then [.root] else d.namespaces.map Namespace.mk

theorem Document.scopes_ne_nil (d : Document) : d.scopes ≠ [] := by
  unfold scopes
  split
  · simp
  · simpa

/-- An empty text counts as absent. -/
def presentText (s : Option String) : Option String := s.filter (· ≠ "")

/-- The schema of a document. -/
def Schema.ofDocument (d : Document) : Resolved Schema := do
  let enums ← Declarations.empty.addAll (fun e ↦ resolvedName d.scopes e.scope e.name) d.enums
  let aggregates ←
    Declarations.empty.addAll (fun a ↦ resolvedName d.scopes a.scope a.name) d.aggregates
  let rootType ←
    match d.rootType with
    | none => pure none
    | some root =>
      let key := (d.scopes.getLast d.scopes_ne_nil).qualifiedName root
      if aggregates.contains key then pure (some key) else throw (.unknownRootType root)
  let s : Schema :=
    { fileName := d.fileName
      sourceFile := d.sourceFile
      namespaces := d.scopes
      namespaces_ne_nil := d.scopes_ne_nil
      enums, aggregates, rootType
      fileIdentifier := presentText d.fileIdentifier
      fileExtension := presentText d.fileExtension
      includedFiles := d.includedFiles }
  s.checkReferences
  return s

end BufferSchema
