/-!
# Defects of YAML texts

A text is not read for one of two reasons. Most texts that are not read are malformed. A few are
well formed, and hold a scalar with a gap between two of its words that is too wide to be kept.
-/

namespace BufferSchema.Yaml

/-- Why a text is not read. -/
inductive Defect where
  | malformed
  /-- A gap inside a scalar does not fit into the buffer of the scalar. -/
  | overfull
  deriving DecidableEq, Repr

/-- A result of reading. -/
abbrev Scanned (α : Type) := Except Defect α

/-- What has to be there for the text to be well formed. -/
def wellFormed {α : Type} : Option α → Scanned α
  | some a => pure a
  | none => throw .malformed

end BufferSchema.Yaml
