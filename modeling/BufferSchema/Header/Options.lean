/-!
# Options of header generation
-/

namespace BufferSchema

/-- What may be chosen about a header. -/
structure Options where
  /-- Whether views can change the values they read. -/
  mutableBuffer : Bool := false
  /-- Whether enumerations are scopes of their own, with an explicit storage type. -/
  scopedEnums : Bool := false
  /-- Whether the values of an enumeration carry its name. -/
  prefixedEnums : Bool := false
  /-- Whether the headers of included schemas are included. -/
  includeDependenceHeaders : Bool := false
  /-- The average distance of values from which on an enumeration has no name table. -/
  maxSparseness : Int64 := 5
  deriving DecidableEq, Repr

end BufferSchema
