/-!
# Tables of declarations

Declarations under their qualified names, in declaration order and without repeated names. That no
name repeats is part of the type, so that looking a name up and walking through the table never
disagree.
-/

namespace BufferSchema

/-- Declarations by name, in declaration order. -/
structure Declarations (α : Type) where
  entries : List (String × α)
  nodup : (entries.map Prod.fst).Nodup

namespace Declarations

variable {α : Type}

/-- No declarations. -/
def empty : Declarations α := ⟨[], List.nodup_nil⟩

/-- The names in declaration order. -/
def keys (decls : Declarations α) : List String := decls.entries.map Prod.fst

/-- The declarations in declaration order. -/
def values (decls : Declarations α) : List α := decls.entries.map Prod.snd

/-- The declaration of a name. -/
def get? (decls : Declarations α) (key : String) : Option α := decls.entries.lookup key

/-- Whether a name is declared. -/
def contains (decls : Declarations α) (key : String) : Bool := key ∈ decls.keys

/-- Adds a declaration behind the others, unless its name is taken. -/
def insert? (decls : Declarations α) (key : String) (a : α) : Option (Declarations α) :=
  if h : key ∈ decls.keys then none
  else some
    { entries := decls.entries ++ [(key, a)]
      nodup := by
        rw [List.map_append, List.map_singleton, List.nodup_append]
        refine ⟨decls.nodup, by simp, ?_⟩
        intro x hx y hy hxy
        have hkey : x = key := hxy.trans (List.mem_singleton.mp hy)
        exact h (hkey ▸ hx) }

/-- Changes the declaration of a name in its place. -/
def modify (decls : Declarations α) (key : String) (f : α → α) : Declarations α where
  entries := decls.entries.map fun entry ↦ (entry.1, if entry.1 = key then f entry.2 else entry.2)
  nodup := by simpa [List.map_map, Function.comp_def] using decls.nodup

/-- Removes the declaration of a name; the others keep their order. -/
def erase (decls : Declarations α) (key : String) : Declarations α where
  entries := decls.entries.filter fun entry ↦ !decide (entry.1 = key)
  nodup := decls.nodup.sublist (List.Sublist.map _ List.filter_sublist)

end Declarations

end BufferSchema
