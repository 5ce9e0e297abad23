import BufferSchema.Proofs.Schema.Declarations
import BufferSchema.Proofs.Schema.WellFormed

/-!
# Checked references

What the reference checks of a schema establish when they pass and what they tell when they fail.
Each check has two laws, one for each of its ends; `Schema.checkReferences_eq_ok` and
`Schema.checkReferences_eq_error` put them together.
-/

namespace BufferSchema

namespace Schema

variable {s : Schema} {owner key name : String} {e : ResolveError}

/-! ## The conditions -/

/-- Every name in a type is declared, and aggregates have the layout they are taken to have. -/
def Declares (s : Schema) (type : TypeRef) : Prop :=
  (∀ name, type.NamesEnum name → name ∈ s.enums.keys) ∧
    ∀ name fixed, type.NamesAggregate name fixed →
      ∃ a, s.aggregates.get? name = some a ∧ a.fixed = fixed

/-- Every union type is declared, and all values of a union but the first have one. -/
def PayloadsDeclared (s : Schema) : Prop :=
  ∀ e ∈ s.enums.values,
    (∀ v ∈ e.values, ∀ name, v.unionType = some name → name ∈ s.aggregates.keys) ∧
      (e.isUnion = true → ∀ v ∈ e.values.tail, v.unionType ≠ none)

/-- Every name in the type of a field is declared. -/
def TypesDeclared (s : Schema) : Prop :=
  ∀ a ∈ s.aggregates.values, ∀ f ∈ a.fields, s.Declares f.type

/-- Every root type of a nested buffer is declared. -/
def NestedRootsDeclared (s : Schema) : Prop :=
  ∀ a ∈ s.aggregates.values, ∀ f ∈ a.fields, ∀ name, f.nestedRoot = some name →
    s.activeNamespace.qualifiedName name ∈ s.aggregates.keys

/-! ## Single references -/

theorem checkEnum_eq_ok : s.checkEnum owner name = .ok () ↔ name ∈ s.enums.keys := by
  rw [checkEnum]
  by_cases h : name ∈ s.enums.keys
  · rw [if_pos (Declarations.contains_iff.mpr h)]
    exact iff_of_true rfl h
  · rw [if_neg (mt Declarations.contains_iff.mp h)]
    exact iff_of_false Attempt.throw_ne_ok h

theorem checkEnum_eq_error (h : s.checkEnum owner name = .error e) :
    name ∉ s.enums.keys ∧ e = .unknownEnum owner name := by
  rw [checkEnum] at h
  split at h
  · exact absurd h Attempt.pure_ne_error
  · next hname => exact ⟨mt Declarations.contains_iff.mpr hname, (Attempt.throw_eq_error.mp h).symm⟩

theorem checkAggregate_eq_ok :
    s.checkAggregate owner name = .ok () ↔ name ∈ s.aggregates.keys := by
  rw [checkAggregate]
  by_cases h : name ∈ s.aggregates.keys
  · rw [if_pos (Declarations.contains_iff.mpr h)]
    exact iff_of_true rfl h
  · rw [if_neg (mt Declarations.contains_iff.mp h)]
    exact iff_of_false Attempt.throw_ne_ok h

theorem checkAggregate_eq_error (h : s.checkAggregate owner name = .error e) :
    name ∉ s.aggregates.keys ∧ e = .unknownAggregate owner name := by
  rw [checkAggregate] at h
  split at h
  · exact absurd h Attempt.pure_ne_error
  · next hname => exact ⟨mt Declarations.contains_iff.mpr hname, (Attempt.throw_eq_error.mp h).symm⟩

theorem checkType_eq_ok {type : TypeRef} :
    s.checkType owner type = .ok () ↔ s.Declares type := by
  induction type with
  | scalar kind enumName =>
    cases enumName with
    | none => simp [checkType, Declares]
    | some name => simp [checkType, Declares, checkEnum_eq_ok]
  | bool => simp [checkType, Declares]
  | string => simp [checkType, Declares]
  | vector element ih =>
    rw [checkType, ih, Declares, Declares]
    simp only [TypeRef.namesEnum_vector, TypeRef.namesAggregate_vector]
  | aggregate target fixed =>
    rw [checkType, Declares]
    cases htarget : s.aggregates.get? target with
    | none => simp [htarget]
    | some a =>
      by_cases hfixed : a.fixed = fixed
      · simp [htarget, hfixed]
      · simp [htarget, hfixed]
  | union tagEnum => simp [checkType, Declares, checkEnum_eq_ok]

theorem checkType_eq_error {type : TypeRef} (h : s.checkType owner type = .error e) :
    (∃ name, type.NamesEnum name ∧ name ∉ s.enums.keys ∧ e = .unknownEnum owner name) ∨
      ∃ name fixed, type.NamesAggregate name fixed ∧
        (name ∉ s.aggregates.keys ∧ e = .unknownAggregate owner name ∨
          ∃ a, s.aggregates.get? name = some a ∧ a.fixed ≠ fixed ∧
            e = .fixedMismatch owner name fixed a.fixed) := by
  induction type with
  | scalar kind enumName =>
    cases enumName with
    | none => exact absurd h Attempt.pure_ne_error
    | some name => exact Or.inl ⟨name, .scalar, checkEnum_eq_error h⟩
  | bool => exact absurd h Attempt.pure_ne_error
  | string => exact absurd h Attempt.pure_ne_error
  | vector element ih =>
    rcases ih h with ⟨name, hname, hfault⟩ | ⟨name, fixed, hname, hfault⟩
    · exact Or.inl ⟨name, .vector hname, hfault⟩
    · exact Or.inr ⟨name, fixed, .vector hname, hfault⟩
  | aggregate target fixed =>
    refine Or.inr ⟨target, fixed, .aggregate, ?_⟩
    rw [checkType] at h
    cases htarget : s.aggregates.get? target with
    | none =>
      rw [htarget] at h
      exact Or.inl ⟨Declarations.get?_eq_none_iff.mp htarget, (Attempt.throw_eq_error.mp h).symm⟩
    | some a =>
      rw [htarget] at h
      dsimp only at h
      by_cases hfixed : a.fixed = fixed
      · rw [if_pos hfixed] at h
        exact absurd h Attempt.pure_ne_error
      · rw [if_neg hfixed] at h
        exact Or.inr ⟨a, rfl, hfixed, (Attempt.throw_eq_error.mp h).symm⟩
  | union tagEnum => exact Or.inl ⟨tagEnum, .union, checkEnum_eq_error h⟩

/-! ## Members -/

theorem checkNestedRoot_eq_ok {nestedRoot : Option String} :
    s.checkNestedRoot owner nestedRoot = .ok () ↔
      ∀ name, nestedRoot = some name →
        s.activeNamespace.qualifiedName name ∈ s.aggregates.keys := by
  cases nestedRoot with
  | none => simp [checkNestedRoot]
  | some name => simp [checkNestedRoot, checkAggregate_eq_ok]

theorem checkNestedRoot_eq_error {nestedRoot : Option String}
    (h : s.checkNestedRoot owner nestedRoot = .error e) :
    ∃ name, nestedRoot = some name ∧ s.activeNamespace.qualifiedName name ∉ s.aggregates.keys ∧
      e = .unknownAggregate owner (s.activeNamespace.qualifiedName name) := by
  cases nestedRoot with
  | none => exact absurd h Attempt.pure_ne_error
  | some name => exact ⟨name, rfl, checkAggregate_eq_error h⟩

theorem checkField_eq_ok {f : Field} :
    s.checkField key f = .ok () ↔ s.Declares f.type ∧ ∀ name, f.nestedRoot = some name →
      s.activeNamespace.qualifiedName name ∈ s.aggregates.keys := by
  rw [checkField, Attempt.bind_eq_ok, checkNestedRoot_eq_ok, ← checkType_eq_ok]
  exact ⟨fun ⟨_, h⟩ ↦ h, fun h ↦ ⟨(), h⟩⟩

theorem checkValue_eq_ok {isUnion : Bool} {position : Nat} {v : EnumValue} :
    s.checkValue key isUnion position v = .ok () ↔
      (∀ name, v.unionType = some name → name ∈ s.aggregates.keys) ∧
        (isUnion = true → 0 < position → v.unionType ≠ none) := by
  rw [checkValue]
  cases hname : v.unionType with
  | none =>
    by_cases h : isUnion = true ∧ 0 < position
    · simp [h]
    · simp only [if_neg h, Attempt.pure_eq_ok]
      simpa using h
  | some name => simp [checkAggregate_eq_ok]

theorem checkValue_eq_error {isUnion : Bool} {position : Nat} {v : EnumValue}
    (h : s.checkValue key isUnion position v = .error e) :
    (∃ name, v.unionType = some name ∧ name ∉ s.aggregates.keys ∧
        e = .unknownAggregate (key ++ "." ++ v.name) name) ∨
      isUnion = true ∧ 0 < position ∧ v.unionType = none ∧
        e = .missingUnionType (key ++ "." ++ v.name) := by
  rw [checkValue] at h
  cases hname : v.unionType with
  | none =>
    rw [hname] at h
    by_cases hunion : isUnion = true ∧ 0 < position
    · rw [if_pos hunion] at h
      exact Or.inr ⟨hunion.1, hunion.2, rfl, (Attempt.throw_eq_error.mp h).symm⟩
    · rw [if_neg hunion] at h
      exact absurd h Attempt.pure_ne_error
  | some name =>
    rw [hname] at h
    exact Or.inl ⟨name, rfl, checkAggregate_eq_error h⟩

/-! ## All references -/

/-- The elements behind the first are those at a position that is not zero. -/
private theorem mem_tail_iff_mem_zipIdx {α : Type} {l : List α} {a : α} :
    a ∈ l.tail ↔ ∃ position, 0 < position ∧ (a, position) ∈ l.zipIdx := by
  simp only [List.mem_zipIdx_iff_getElem?]
  rw [List.mem_iff_getElem?]
  constructor
  · rintro ⟨i, hi⟩
    exact ⟨i + 1, Nat.succ_pos i, by rwa [List.getElem?_tail] at hi⟩
  · rintro ⟨position, hpos, h⟩
    refine ⟨position - 1, ?_⟩
    rwa [List.getElem?_tail, Nat.sub_add_cancel hpos]

private theorem mem_of_mem_zipIdx {α : Type} {l : List α} {a : α} {position : Nat}
    (h : (a, position) ∈ l.zipIdx) : a ∈ l :=
  List.mem_of_getElem? (List.mem_zipIdx_iff_getElem?.mp h)

private theorem exists_mem_zipIdx {α : Type} {l : List α} {a : α} (h : a ∈ l) :
    ∃ position, (a, position) ∈ l.zipIdx := by
  obtain ⟨i, hi⟩ := List.mem_iff_getElem?.mp h
  exact ⟨i, List.mem_zipIdx_iff_getElem?.mpr hi⟩

private theorem forM_checkValue_eq_ok {decl : Enumeration} :
    (decl.values.zipIdx.forM fun (v, position) ↦ s.checkValue key decl.isUnion position v) =
        .ok () ↔
      (∀ v ∈ decl.values, ∀ name, v.unionType = some name → name ∈ s.aggregates.keys) ∧
        (decl.isUnion = true → ∀ v ∈ decl.values.tail, v.unionType ≠ none) := by
  rw [Attempt.forM_eq_ok]
  simp only [Prod.forall, checkValue_eq_ok]
  constructor
  · intro h
    refine ⟨fun v hv ↦ ?_, fun hunion v hv ↦ ?_⟩
    · obtain ⟨position, hposition⟩ := exists_mem_zipIdx hv
      exact (h v position hposition).1
    · obtain ⟨position, hpos, hposition⟩ := mem_tail_iff_mem_zipIdx.mp hv
      exact (h v position hposition).2 hunion hpos
  · rintro ⟨hnames, hpresent⟩ v position h
    refine ⟨hnames v (mem_of_mem_zipIdx h), fun hunion hpos ↦ ?_⟩
    exact hpresent hunion v (mem_tail_iff_mem_zipIdx.mpr ⟨position, hpos, h⟩)

/-- The checks pass if every name that a declaration refers to is declared. -/
theorem checkReferences_eq_ok :
    s.checkReferences = .ok () ↔ s.PayloadsDeclared ∧ s.TypesDeclared ∧ s.NestedRootsDeclared := by
  have hvalues {α : Type} (decls : Declarations α) (p : α → Prop) :
      (∀ entry ∈ decls.entries, p entry.2) ↔ ∀ a ∈ decls.values, p a := by
    rw [Declarations.values, List.forall_mem_map]
  rw [checkReferences, PayloadsDeclared, TypesDeclared, NestedRootsDeclared, ← hvalues, ← hvalues,
    ← hvalues]
  constructor
  · intro h
    obtain ⟨_, henums, haggregates⟩ := Attempt.bind_eq_ok.mp h
    have hfields : ∀ entry ∈ s.aggregates.entries, ∀ f ∈ entry.2.fields,
        s.checkField entry.1 f = .ok () :=
      fun entry hentry ↦ Attempt.forM_eq_ok.mp (Attempt.forM_eq_ok.mp haggregates entry hentry)
    refine ⟨fun entry hentry ↦ ?_, fun entry hentry f hf ↦ ?_, fun entry hentry f hf ↦ ?_⟩
    · exact forM_checkValue_eq_ok.mp (Attempt.forM_eq_ok.mp henums entry hentry)
    · exact (checkField_eq_ok.mp (hfields entry hentry f hf)).1
    · exact (checkField_eq_ok.mp (hfields entry hentry f hf)).2
  · rintro ⟨hpayloads, htypes, hnested⟩
    refine Attempt.bind_eq_ok.mpr ⟨(), Attempt.forM_eq_ok.mpr fun entry hentry ↦ ?_,
      Attempt.forM_eq_ok.mpr fun entry hentry ↦ Attempt.forM_eq_ok.mpr fun f hf ↦ ?_⟩
    · exact forM_checkValue_eq_ok.mpr (hpayloads entry hentry)
    · exact checkField_eq_ok.mpr ⟨htypes entry hentry f hf, hnested entry hentry f hf⟩

/-- Why a check fails: a value or a field refers to what is not declared. -/
theorem checkReferences_eq_error (h : s.checkReferences = .error e) :
    (∃ key decl, (key, decl) ∈ s.enums.entries ∧
        ((∃ v ∈ decl.values, ∃ name, v.unionType = some name ∧ name ∉ s.aggregates.keys ∧
            e = .unknownAggregate (key ++ "." ++ v.name) name) ∨
          decl.isUnion = true ∧ ∃ v ∈ decl.values.tail, v.unionType = none ∧
            e = .missingUnionType (key ++ "." ++ v.name))) ∨
      ∃ key decl, (key, decl) ∈ s.aggregates.entries ∧ ∃ f ∈ decl.fields,
        s.checkType (key ++ "." ++ f.name) f.type = .error e ∨
          s.checkNestedRoot (key ++ "." ++ f.name) f.nestedRoot = .error e := by
  -- the first reference that fails, found loop by loop
  rw [checkReferences, Attempt.bind_eq_error] at h
  rcases h with h | ⟨_, -, h⟩
  · obtain ⟨⟨key, decl⟩, hdecl, h⟩ := Attempt.exists_mem_of_forM_eq_error h
    obtain ⟨⟨v, position⟩, hv, h⟩ := Attempt.exists_mem_of_forM_eq_error h
    refine Or.inl ⟨key, decl, hdecl, ?_⟩
    rcases checkValue_eq_error h with ⟨name, hname⟩ | ⟨hunion, hpos, hnone, he⟩
    · exact Or.inl ⟨v, mem_of_mem_zipIdx hv, name, hname⟩
    · exact Or.inr ⟨hunion, v, mem_tail_iff_mem_zipIdx.mpr ⟨position, hpos, hv⟩, hnone, he⟩
  · obtain ⟨⟨key, decl⟩, hdecl, h⟩ := Attempt.exists_mem_of_forM_eq_error h
    obtain ⟨f, hf, h⟩ := Attempt.exists_mem_of_forM_eq_error h
    refine Or.inr ⟨key, decl, hdecl, f, hf, ?_⟩
    rw [checkField, Attempt.bind_eq_error] at h
    rcases h with h | ⟨_, -, h⟩
    · exact Or.inl h
    · exact Or.inr h

end Schema

end BufferSchema
