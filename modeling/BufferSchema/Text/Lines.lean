/-!
# Texts made of lines

Generated text is kept as a list of lines for as long as possible. A line is closed by a newline and
not only separated by one, so that texts are put together by appending their lists.
-/

namespace BufferSchema

/-- The text of a list of lines. -/
def unlines : List String → String
  | [] => ""
  | line :: lines => line ++ "\n" ++ unlines lines

/-- The number of lines of a text whose last line is closed. -/
def lineCount (text : String) : Nat := text.toList.count '\n'

theorem unlines_append (xs ys : List String) : unlines (xs ++ ys) = unlines xs ++ unlines ys := by
  induction xs with
  | nil => simp [unlines]
  | cons x xs ih => simp [unlines, ih, String.append_assoc]

theorem unlines_eq_empty_iff {lines : List String} : unlines lines = "" ↔ lines = [] := by
  cases lines with
  | nil => exact iff_of_true rfl rfl
  | cons line lines => exact iff_of_false (by simp [unlines]) (List.cons_ne_nil line lines)

/-- Where each element gives a line, only the empty list gives the empty text. -/
theorem unlines_flatMap_eq_empty_iff {α : Type} {f : α → List String} (hf : ∀ x, f x ≠ [])
    {l : List α} : unlines (l.flatMap f) = "" ↔ l = [] := by
  rw [unlines_eq_empty_iff, List.flatMap_eq_nil_iff]
  cases l with
  | nil => exact iff_of_true nofun rfl
  | cons x l =>
    exact iff_of_false (fun h ↦ hf x (h x List.mem_cons_self)) (List.cons_ne_nil x l)

/-- The last text of `texts` followed by `final`, every other one by `separator`. -/
def punctuated (separator final : String) : List String → List String
  | [] => []
  | [text] => [text ++ final]
  | text :: texts => (text ++ separator) :: punctuated separator final texts

end BufferSchema
