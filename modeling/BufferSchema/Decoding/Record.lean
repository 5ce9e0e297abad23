import BufferSchema.Decoding.Source

/-!
# Records

A record is described by its members in declaration order: a key, how to read a value, and the
value that a missing member has, if it may be missing. One reader serves every record. Written by
name, members come in any order, members of other names are passed over, and none may come twice;
written by position, values belong to the members in declaration order, and trailing ones may be
left out.
-/

namespace BufferSchema

/-- A member of a record whose values are read in the monad `m`. -/
structure Member (ν : Type) (m : Type → Type) where
  key : String
  Value : Type
  read : ν → m Value
  /-- The value of the member where it is missing; `none` if it may not be. -/
  absent : Option Value

/-- A value for every member. -/
def Filled {ν : Type} {m : Type → Type} : List (Member ν m) → Type
  | [] => Unit
  | member :: members => member.Value × Filled members

/-- A value for every member that was met so far. -/
def Draft {ν : Type} {m : Type → Type} : List (Member ν m) → Type
  | [] => Unit
  | member :: members => Option member.Value × Draft members

namespace Draft

variable {ν : Type} {m : Type → Type} [Monad m] [MonadExcept DecodeError m]

/-- No member was met. -/
def empty : (members : List (Member ν m)) → Draft members
  | [] => ()
  | _ :: members => (none, empty members)

/-- Reads the value of the member named `key`; a record has no other members than its own, so one
of another name is passed over. -/
def put : (members : List (Member ν m)) → Draft members → (key : String) → ν → m (Draft members)
  | [], draft, _, _ => pure draft
  | member :: members, (slot, rest), key, v =>
    if member.key = key then
      match slot with
      | some _ => throw (DecodeError.duplicateField key)
      | none => do return (some (← member.read v), rest)
    else do return (slot, ← put members rest key v)

/-- The values of all members, or the failure `missing` for the first one that may not be missing,
given its key and its position counted from `position`. -/
def fill (missing : String → Nat → DecodeError) :
    (members : List (Member ν m)) → Nat → Draft members → Decoded (Filled members)
  | [], _, _ => pure ()
  | member :: members, position, (slot, rest) =>
    match slot.or member.absent with
    | some value => do return (value, ← fill missing members (position + 1) rest)
    | none => throw (missing member.key position)

end Draft

/-- How values of type `α` are written as records. -/
structure Record (ν : Type) (m : Type → Type) (α : Type) where
  /-- What messages call the record. -/
  title : String
  members : List (Member ν m)
  build : Filled members → α

namespace Record

variable {ν α : Type} {m : Type → Type} [Monad m] [MonadExcept DecodeError m]

/-- The record with the number of its members, as messages about its length call it. -/
def sizedTitle (record : Record ν m α) : String :=
  match record.members.length with
  | 1 => record.title ++ " with 1 element"
  | n => record.title ++ " with " ++ toString n ++ " elements"

/-- Reads named members into a draft. -/
def putNamed (record : Record ν m α) (draft : Draft record.members) :
    List (Option String × ν) → m (Draft record.members)
  | [] => pure draft
  | (none, _) :: _ => throw DecodeError.malformed
  | (some key, v) :: rest => do putNamed record (← draft.put record.members key v) rest

/-- Reads a record from either form. -/
def decode (record : Record ν m α) : RecordForm ν → m α
  | .named members => do
    let draft ← record.putNamed (.empty record.members) members.entries
    if members.closed then
      record.build <$> decided (draft.fill (fun key _ ↦ .missingField key) record.members 0)
    else throw DecodeError.malformed
  | .positional items => do
    let keys := record.members.map fun member ↦ some member.key
    let draft ← record.putNamed (.empty record.members) (keys.zip items.entries)
    if items.closed && items.entries.length ≤ record.members.length then
      let missing (_ : String) (position : Nat) : DecodeError :=
        .invalidLength position record.sizedTitle
      record.build <$> decided (draft.fill missing record.members 0)
    else throw DecodeError.malformed

end Record

end BufferSchema
