import BufferSchema.Yaml.Defect

/-!
# Buffers of scalars

A scalar is gathered in a buffer of octets. Ahead of every character the buffer is doubled if it is
nearly full, so characters always fit. The gap between two words comes in one piece, for which the
buffer is not enlarged: a gap that does not fit is a defect.
-/

namespace BufferSchema.Yaml

/-- The number of octets of some characters. -/
def octetCount (cs : List Char) : Nat := cs.foldr (fun c count ↦ c.utf8Size + count) 0

/-- A scalar as it is gathered. -/
structure Buffer where
  /-- The characters so far, last one first. -/
  reversed : List Char
  /-- The number of octets of these characters. -/
  used : Nat
  /-- The number of octets that there is room for. -/
  room : Nat

namespace Buffer

/-- A buffer without characters. -/
def empty : Buffer := ⟨[], 0, 16⟩

/-- The characters in a buffer. -/
def chars (b : Buffer) : List Char := b.reversed.reverse

/-- Puts a character behind the others. A buffer that has no more than five octets left is doubled
before. -/
def push (b : Buffer) (c : Char) : Buffer where
  reversed := c :: b.reversed
  used := b.used + c.utf8Size
  room := if b.room ≤ b.used + 5 then 2 * b.room else b.room

/-- Puts characters behind the others, each on its own. -/
def pushAll (b : Buffer) (cs : List Char) : Buffer := cs.foldl push b

/-- Puts characters behind the others in one piece. -/
def join (b : Buffer) (cs : List Char) : Scanned Buffer :=
  if b.used + octetCount cs ≤ b.room then
    pure { b with reversed := cs.reverse ++ b.reversed, used := b.used + octetCount cs }
  else throw .overfull

end Buffer

end BufferSchema.Yaml
