import BufferSchema.Schema.Basic

/-!
# Scopes

How generated code names what is declared outside the active namespace, and the forward declarations
that let aggregates refer to each other in any order.

Aggregates of other namespaces are declared in blocks that open and close their namespace. All
aggregates are gone through once, with the last block kept open: it takes as many aggregates in a
row as are in its namespace, and is closed by the first one that is in a third. Aggregates of the
active namespace do not close it, because they are declared elsewhere.
-/

namespace BufferSchema

/-- A name as the active namespace spells it: bare if it is declared there, behind its path if
not. -/
def Schema.qualify (s : Schema) (scope : NamespaceId) (name : String) : Emitted String :=
  if s.isActive scope then pure name
  else do return (← s.namespaceAt scope).path "::" name

/-! ## Forward declarations -/

/-- The line that declares an aggregate. -/
def forwardLine (name : String) : String := "struct " ++ name ++ ";"

/-- Forward declarations in a namespace that is opened for them. -/
structure ScopeBlock where
  path : Namespace
  names : List String

/-- The lines of a block. -/
def ScopeBlock.lines (block : ScopeBlock) : List String :=
  block.path.openLines ++ block.names.map forwardLine ++ block.path.closeLines

/-- The forward declarations of a schema. -/
structure ForwardDeclarations where
  /-- Those that come before the active namespace opens. -/
  blocks : List ScopeBlock
  /-- The names of those that come inside it. -/
  active : List String

namespace ForwardDeclarations

/-- The lines before the active namespace opens. -/
def otherLines (forward : ForwardDeclarations) : List String :=
  forward.blocks.flatMap ScopeBlock.lines

/-- The lines inside the active namespace. -/
def activeLines (forward : ForwardDeclarations) : List String := forward.active.map forwardLine

end ForwardDeclarations

/-- Forward declarations while aggregates are gone through. -/
structure ForwardPlan where
  /-- The names of the active namespace. -/
  active : List String := []
  /-- The blocks that are closed. -/
  closed : List ScopeBlock := []
  /-- The block that is still open, with its namespace. -/
  pending : Option (NamespaceId × ScopeBlock) := none

namespace ForwardPlan

/-- All blocks, the open one last. -/
def blocks (plan : ForwardPlan) : List ScopeBlock :=
  plan.closed ++ (plan.pending.map Prod.snd).toList

/-- Closes the block that is open and opens one with its first name. -/
def openBlock (s : Schema) (plan : ForwardPlan) (scope : NamespaceId) (name : String) :
    Emitted ForwardPlan := do
  let path ← s.namespaceAt scope
  return { plan with closed := plan.blocks, pending := some (scope, ⟨path, [name]⟩) }

/-- Takes an aggregate: into the active namespace, into the block that is open, or into a new one if
that is of another namespace. -/
def step (s : Schema) (plan : ForwardPlan) (a : Aggregate) : Emitted ForwardPlan :=
  if s.isActive a.scope then pure { plan with active := plan.active ++ [a.name] }
  else
    match plan.pending with
    | none => plan.openBlock s a.scope a.name
    | some (scope, block) =>
      if scope = a.scope then
        pure { plan with pending := some (scope, ⟨block.path, block.names ++ [a.name]⟩) }
      else plan.openBlock s a.scope a.name

/-- What is planned when no aggregate is left. -/
def finish (plan : ForwardPlan) : ForwardDeclarations := ⟨plan.blocks, plan.active⟩

end ForwardPlan

/-- Plans the forward declarations of all aggregates, those of included schemas too, in one pass. -/
def Schema.forwardDeclarations (s : Schema) : Emitted ForwardDeclarations :=
  ForwardPlan.finish <$> s.aggregates.values.foldlM (ForwardPlan.step s) {}

end BufferSchema
