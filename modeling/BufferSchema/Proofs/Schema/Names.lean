import BufferSchema.Schema.Namespace

/-!
# Names and paths

A path can be read back: where a separator begins with a character that occurs in no component and
in no name, a text is the path of one name in one namespace. Identifiers have neither dots nor
colons, so that this holds of qualified names and of spellings alike.
-/

namespace BufferSchema

/-! ## Identifiers -/

/-- Whether a character can stand in an identifier. -/
def isIdentifierChar (c : Char) : Bool := c.isAlphanum || c == '_'

/-- Whether a text is an identifier: ASCII letters, digits and underscores, no digit first. -/
def isIdentifier (text : String) : Bool :=
  match text.toList with
  | [] => false
  | first :: rest => (first.isAlpha || first == '_') && rest.all isIdentifierChar

theorem lt_of_isIdentifierChar {c : Char} (h : isIdentifierChar c = true) : c.toNat < 128 := by
  have hbelow (high : Char) (hhigh : high.toNat < 128) (hle : c.val ≤ high.val) : c.toNat < 128 :=
    Nat.lt_of_le_of_lt (UInt32.le_iff_toNat_le.mp hle) hhigh
  rw [isIdentifierChar, Char.isAlphanum, Bool.or_eq_true, Bool.or_eq_true] at h
  rcases h with (hletter | hdigit) | hunderscore
  · rcases (Bool.or_eq_true _ _).mp hletter with hupper | hlower
    · exact hbelow 'Z' (by decide) (of_decide_eq_true hupper).2
    · exact hbelow 'z' (by decide) (of_decide_eq_true (Bool.and_eq_true_iff.mp hlower).2)
  · exact hbelow '9' (by decide) (of_decide_eq_true (Bool.and_eq_true_iff.mp hdigit).2)
  · rw [beq_iff_eq.mp hunderscore]
    decide

theorem isIdentifierChar_of_mem {text : String} (h : isIdentifier text = true) {c : Char}
    (hc : c ∈ text.toList) : isIdentifierChar c = true := by
  rw [isIdentifier] at h
  cases htext : text.toList with
  | nil =>
    rw [htext] at hc
    exact absurd hc List.not_mem_nil
  | cons first rest =>
    rw [htext] at h hc
    obtain ⟨hfirst, hrest⟩ := Bool.and_eq_true_iff.mp h
    rcases List.mem_cons.mp hc with rfl | hc
    · rw [isIdentifierChar, Char.isAlphanum, Bool.or_right_comm, hfirst, Bool.true_or]
    · exact List.all_eq_true.mp hrest c hc

theorem not_mem_of_isIdentifier {text : String} (h : isIdentifier text = true) {c : Char}
    (hc : isIdentifierChar c = false) : c ∉ text.toList := by
  intro hmem
  rw [isIdentifierChar_of_mem h hmem] at hc
  exact nomatch hc

theorem exists_cons_of_isIdentifier {text : String} (h : isIdentifier text = true) :
    ∃ c cs, text.toList = c :: cs ∧ isIdentifierChar c = true := by
  cases htext : text.toList with
  | nil =>
    rw [isIdentifier, htext] at h
    exact absurd h Bool.false_ne_true
  | cons c cs =>
    refine ⟨c, cs, rfl, isIdentifierChar_of_mem h ?_⟩
    rw [htext]
    exact List.mem_cons_self

theorem isIdentifier_append {text text' : String} (h : isIdentifier text = true)
    (h' : text'.toList.all isIdentifierChar = true) : isIdentifier (text ++ text') = true := by
  rw [isIdentifier] at h ⊢
  rw [String.toList_append]
  split at h
  · exact absurd h Bool.false_ne_true
  · next first rest htext =>
    obtain ⟨hfirst, hrest⟩ := Bool.and_eq_true_iff.mp h
    rw [htext, List.cons_append]
    dsimp only
    rw [hfirst, List.all_append, hrest, h']
    rfl

/-! ## Paths -/

namespace Namespace

variable {ns ns' : Namespace} {separator name name' : String} {c : Char} {cs : List Char}

/-- A path is the way to a name, and the name. -/
theorem path_eq_append (ns : Namespace) (separator name : String) :
    ns.path separator name = ns.path separator "" ++ name := by
  obtain ⟨components⟩ := ns
  induction components with
  | nil => exact String.empty_append.symm
  | cons component components ih =>
    have hcons (name : String) : path ⟨component :: components⟩ separator name =
        component ++ separator ++ path ⟨components⟩ separator name := rfl
    rw [hcons, hcons, ih]
    simp only [String.append_assoc]

theorem path_eq_join (ns : Namespace) (separator name : String) :
    ns.path separator name = String.join (ns.components.map (· ++ separator)) ++ name := by
  rw [path]
  induction ns.components with
  | nil => rw [List.foldr_nil, List.map_nil, String.join_nil, String.empty_append]
  | cons component components ih =>
    rw [List.foldr_cons, ih, List.map_cons, String.join_cons]
    simp only [String.append_assoc]

/-- A separator that occurs in neither part is found at one place. -/
theorem append_cons_inj {xs ys xs' ys' : List Char} (hxs : c ∉ xs) (hxs' : c ∉ xs')
    (h : xs ++ c :: ys = xs' ++ c :: ys') : xs = xs' ∧ ys = ys' := by
  induction xs generalizing xs' with
  | nil =>
    cases xs' with
    | nil => exact ⟨rfl, (List.cons.inj h).2⟩
    | cons x' xs' => exact absurd (List.mem_cons.mpr (.inl (List.cons.inj h).1)) hxs'
  | cons x xs ih =>
    cases xs' with
    | nil => exact absurd (List.mem_cons.mpr (.inl (List.cons.inj h).1.symm)) hxs
    | cons x' xs' =>
      rw [List.mem_cons, not_or] at hxs hxs'
      obtain ⟨rfl, htail⟩ := List.cons.inj h
      obtain ⟨rfl, rfl⟩ := ih hxs.2 hxs'.2 htail
      exact ⟨rfl, rfl⟩

/-- A component and what follows it, with the separator between them taken apart. -/
private theorem toList_path_cons (hseparator : separator.toList = c :: cs) (component : String)
    (components : List String) : (path ⟨component :: components⟩ separator name).toList =
      component.toList ++ c :: (cs ++ (path ⟨components⟩ separator name).toList) := by
  rw [path, List.foldr_cons, String.toList_append, String.toList_append, hseparator,
    List.append_assoc, List.cons_append]
  rfl

/-- A path is that of one name in one namespace. -/
theorem eq_of_path_eq (hseparator : separator.toList = c :: cs)
    (hns : ∀ component ∈ ns.components, c ∉ component.toList) (hname : c ∉ name.toList)
    (hns' : ∀ component ∈ ns'.components, c ∉ component.toList) (hname' : c ∉ name'.toList)
    (h : ns.path separator name = ns'.path separator name') : ns = ns' ∧ name = name' := by
  obtain ⟨components⟩ := ns
  obtain ⟨components'⟩ := ns'
  dsimp only at hns hns'
  have htext := congrArg String.toList h
  clear h
  induction components generalizing components' with
  | nil =>
    cases components' with
    | nil => exact ⟨rfl, String.toList_inj.mp htext⟩
    | cons component' components' =>
      -- the name on its own has no separator
      rw [toList_path_cons hseparator] at htext
      have hmem : c ∈ name.toList := htext ▸ List.mem_append_right _ List.mem_cons_self
      exact absurd hmem hname
  | cons component components ih =>
    rw [toList_path_cons hseparator] at htext
    cases components' with
    | nil =>
      have hmem : c ∈ name'.toList := htext ▸ List.mem_append_right _ List.mem_cons_self
      exact absurd hmem hname'
    | cons component' components' =>
      rw [toList_path_cons hseparator] at htext
      obtain ⟨hcomponent, hrest⟩ := List.forall_mem_cons.mp hns
      obtain ⟨hcomponent', hrest'⟩ := List.forall_mem_cons.mp hns'
      obtain ⟨hsame, hbehind⟩ := append_cons_inj hcomponent hcomponent' htext
      obtain rfl := String.toList_inj.mp hsame
      obtain ⟨hpath, rfl⟩ := ih hrest components' hrest' (List.append_cancel_left hbehind)
      exact ⟨by rw [Namespace.mk.inj hpath], rfl⟩

/-- A name that has no separator is a path in the root namespace alone. -/
theorem eq_path_iff (hseparator : separator.toList = c :: cs)
    (hns : ∀ component ∈ ns.components, c ∉ component.toList) (hname : c ∉ name.toList)
    (hname' : c ∉ name'.toList) : name' = ns.path separator name ↔ ns = root ∧ name = name' := by
  constructor
  · intro h
    have hpath : root.path separator name' = ns.path separator name := h
    have hempty : ∀ component ∈ root.components, c ∉ component.toList := by simp [root]
    obtain ⟨hroot, hsame⟩ := eq_of_path_eq hseparator hempty hname' hns hname hpath
    exact ⟨hroot.symm, hsame.symm⟩
  · rintro ⟨rfl, rfl⟩
    rfl

end Namespace

end BufferSchema
