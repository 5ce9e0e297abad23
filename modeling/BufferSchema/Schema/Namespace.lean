/-!
# Namespaces

A namespace is a path of components. A declaration is known under its qualified name, in which dots
join the path and the name; generated code joins them with its own separator.
-/

namespace BufferSchema

/-- A path of scopes; the root namespace has no components. -/
structure Namespace where
  components : List String
  deriving DecidableEq, Repr

namespace Namespace

/-- The root namespace. -/
def root : Namespace := ⟨[]⟩

/-- `name` behind the components, each of them followed by `separator`. -/
def path (ns : Namespace) (separator name : String) : String :=
  ns.components.foldr (fun component rest ↦ component ++ separator ++ rest) name

/-- The qualified name of a declaration of the namespace. A name with a dot is taken to be qualified
already. -/
def qualifiedName (ns : Namespace) (name : String) : String :=
  if '.' ∈ name.toList then name else ns.path "." name

/-- The lines that open the namespace in generated code. -/
def openLines (ns : Namespace) : List String :=
  ns.components.map fun component ↦ "namespace " ++ component ++ " \x7b"

/-- The lines that close the namespace in generated code, innermost component first. -/
def closeLines (ns : Namespace) : List String :=
  ns.components.reverse.map fun component ↦ "\x7d  // namespace " ++ component

end Namespace

/-- A qualified name as generated code spells it. -/
def scopedName (qualifiedName : String) : String :=
  String.ofList (qualifiedName.toList.flatMap fun c ↦ if c = '.' then [':', ':'] else [c])

end BufferSchema
