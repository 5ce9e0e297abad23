import BufferSchema.Proofs.Schema.Acceptance
import BufferSchema.Proofs.Schema.Names

/-!
# Duplicate declarations

Declarations are told apart by their qualified names. Where no name and no component has a dot, a
qualified name can be read back, so that it stands for one name in one namespace. Two declarations
are then duplicates exactly if they have one name and the paths of their namespaces are the same,
whatever the positions of these namespaces in the list.

The first enumeration whose name is taken is reported, or the first such aggregate, unless something
else is wrong before it.
-/

namespace BufferSchema

/-! ## Repetitions -/

section repetitions

variable {β : Type} {l : List (Option β)} {b : β}

/-- Nothing is missing, and nothing is there twice. -/
def Distinct (l : List (Option β)) : Prop := none ∉ l ∧ l.Nodup

/-- The list up to `b` is distinct, and `b` repeats something of it. -/
def FirstRepeat (l : List (Option β)) (b : β) : Prop :=
  ∃ before after, l = before ++ some b :: after ∧ Distinct before ∧ some b ∈ before

theorem distinct_nil : Distinct ([] : List (Option β)) := ⟨List.not_mem_nil, List.nodup_nil⟩

theorem Distinct.concat (h : Distinct l) (hb : some b ∉ l) : Distinct (l ++ [some b]) := by
  refine ⟨?_, ?_⟩
  · simpa using h.1
  · refine List.nodup_append.mpr ⟨h.2, List.nodup_singleton _, fun x hx y hy hxy ↦ ?_⟩
    obtain rfl := List.mem_singleton.mp hy
    exact hb (hxy ▸ hx)

/-- A list without anything missing is distinct or has a first repetition. -/
theorem exists_firstRepeat_iff (h : none ∉ l) : (∃ b, FirstRepeat l b) ↔ ¬ l.Nodup := by
  constructor
  · rintro ⟨b, before, after, rfl, -, hmem⟩ hnodup
    exact (List.nodup_append.mp hnodup).2.2 _ hmem _ List.mem_cons_self rfl
  · -- the list is gone through with the distinct part that was seen already in front
    have hscan (rest before : List (Option β)) (hbefore : Distinct before) (hrest : none ∉ rest)
        (hnodup : ¬ (before ++ rest).Nodup) : ∃ b, FirstRepeat (before ++ rest) b := by
      induction rest generalizing before with
      | nil =>
        rw [List.append_nil] at hnodup
        exact absurd hbefore.2 hnodup
      | cons x rest ih =>
        obtain ⟨hx, hrest'⟩ := not_or.mp (List.mem_cons.not.mp hrest)
        obtain ⟨b, rfl⟩ := Option.ne_none_iff_exists'.mp (Ne.symm hx)
        by_cases hmem : some b ∈ before
        · exact ⟨b, before, rest, rfl, hbefore, hmem⟩
        · rw [List.append_cons] at hnodup ⊢
          exact ih _ (hbefore.concat hmem) hrest' hnodup
    exact hscan l [] distinct_nil h

end repetitions

/-! ## Tables -/

theorem Declarations.addAll_eq_duplicate_iff {α : Type} {nameOf : α → Resolved String}
    (hnameOf : ∀ a key, nameOf a ≠ .error (.duplicateDeclaration key)) {decls : Declarations α}
    {l : List α} {key : String} :
    decls.addAll nameOf l = .error (.duplicateDeclaration key) ↔
      ∃ before a after filled, l = before ++ a :: after ∧ nameOf a = .ok key ∧
        decls.addAll nameOf before = .ok filled ∧ key ∈ filled.keys := by
  induction l generalizing decls with
  | nil =>
    refine iff_of_false Attempt.pure_ne_error ?_
    rintro ⟨before, a, after, filled, hl, -⟩
    exact absurd hl (List.append_ne_nil_of_right_ne_nil before (List.cons_ne_nil a after)).symm
  | cons x l ih =>
    rw [addAll_cons, Attempt.bind_eq_error, or_iff_right (hnameOf x key)]
    constructor
    · rintro ⟨name, hname, h⟩
      by_cases hmem : name ∈ decls.keys
      · rw [insert?_of_mem hmem, Attempt.throw_eq_error] at h
        obtain rfl := ResolveError.duplicateDeclaration.inj h
        exact ⟨[], x, l, decls, rfl, hname, rfl, hmem⟩
      · obtain ⟨decls', hinsert, -⟩ := insert?_of_notMem (a := x) hmem
        rw [hinsert] at h
        obtain ⟨before, a, after, filled, rfl, ha, hfilled, hkey⟩ := ih.mp h
        refine ⟨x :: before, a, after, filled, rfl, ha, ?_, hkey⟩
        rw [addAll_cons]
        exact Attempt.bind_eq_ok.mpr ⟨name, hname, by rw [hinsert]; exact hfilled⟩
    · rintro ⟨before, a, after, filled, hl, ha, hfilled, hkey⟩
      cases before with
      | nil =>
        obtain ⟨rfl, rfl⟩ := List.cons.inj hl
        obtain rfl := Attempt.pure_eq_ok.mp hfilled
        exact ⟨key, ha, by rw [insert?_of_mem hkey]; rfl⟩
      | cons y before =>
        obtain ⟨rfl, rfl⟩ := List.cons.inj hl
        rw [addAll_cons] at hfilled
        obtain ⟨name, hname, hfilled⟩ := Attempt.bind_eq_ok.mp hfilled
        refine ⟨name, hname, ?_⟩
        cases hinsert : decls.insert? name x with
        | none =>
          rw [hinsert] at hfilled
          exact absurd hfilled Attempt.throw_ne_ok
        | some decls' =>
          rw [hinsert] at hfilled
          exact ih.mpr ⟨before, a, after, filled, rfl, ha, hfilled, hkey⟩

/-! ## Names without dots -/

/-- No component of a path has a dot. -/
def Namespace.DotFree (ns : Namespace) : Prop :=
  ∀ component ∈ ns.components, '.' ∉ component.toList

instance (ns : Namespace) : Decidable ns.DotFree :=
  inferInstanceAs (Decidable (∀ component ∈ ns.components, '.' ∉ component.toList))

theorem Namespace.qualifiedName_eq_iff {ns ns' : Namespace} {name name' : String}
    (hns : ns.DotFree) (hns' : ns'.DotFree) (hname : '.' ∉ name.toList)
    (hname' : '.' ∉ name'.toList) :
    ns.qualifiedName name = ns'.qualifiedName name' ↔ ns = ns' ∧ name = name' := by
  constructor
  · intro h
    rw [qualifiedName, qualifiedName, if_neg hname, if_neg hname'] at h
    exact eq_of_path_eq (c := '.') rfl hns hname hns' hname' h
  · rintro ⟨rfl, rfl⟩
    rfl

namespace Document

variable {d : Document}

/-- What a declaration stands for: a name in a namespace, if the document has that namespace. -/
def entity? (d : Document) (scope : NamespaceId) (name : String) : Option (Namespace × String) :=
  d.scopes[scope.toNat]?.map fun ns ↦ (ns, name)

/-- What the enumerations of a document stand for. -/
def enumEntities (d : Document) : List (Option (Namespace × String)) :=
  d.enums.map fun e ↦ d.entity? e.scope e.name

/-- What the aggregates of a document stand for. -/
def aggregateEntities (d : Document) : List (Option (Namespace × String)) :=
  d.aggregates.map fun a ↦ d.entity? a.scope a.name

/-- No component and no name of a declaration has a dot. -/
structure DotFree (d : Document) : Prop where
  scopes : ∀ ns ∈ d.scopes, ns.DotFree
  enums : ∀ e ∈ d.enums, '.' ∉ e.name.toList
  aggregates : ∀ a ∈ d.aggregates, '.' ∉ a.name.toList

section entities

variable {scope scope' : NamespaceId} {name name' key : String}
  (hscopes : ∀ ns ∈ d.scopes, ns.DotFree) (hname : '.' ∉ name.toList)

theorem qualifiedName?_eq_some_iff (hname : '.' ∉ name.toList) :
    d.qualifiedName? scope name = some key ↔
      ∃ ns, d.entity? scope name = some (ns, name) ∧ key = ns.path "." name := by
  rw [qualifiedName?, entity?]
  cases d.scopes[scope.toNat]? with
  | none => simp
  | some ns => simp [Namespace.qualifiedName, hname, eq_comm]

include hscopes hname

theorem qualifiedName?_eq_iff (hname' : '.' ∉ name'.toList) :
    d.qualifiedName? scope name = d.qualifiedName? scope' name' ↔
      d.entity? scope name = d.entity? scope' name' := by
  rw [qualifiedName?, qualifiedName?, entity?, entity?]
  cases hns : d.scopes[scope.toNat]? with
  | none => cases d.scopes[scope'.toNat]? <;> simp
  | some ns =>
    cases hns' : d.scopes[scope'.toNat]? with
    | none => simp
    | some ns' =>
      rw [Option.map_some, Option.map_some, Option.map_some, Option.map_some, Option.some_inj,
        Option.some_inj, Prod.mk.injEq]
      exact Namespace.qualifiedName_eq_iff (hscopes ns (List.mem_of_getElem? hns))
        (hscopes ns' (List.mem_of_getElem? hns')) hname hname'

end entities

section tables

variable {α : Type} (scopeOf : α → NamespaceId) (nameOf : α → String) {l : List α}
  (hscopes : ∀ ns ∈ d.scopes, ns.DotFree) (hnames : ∀ a ∈ l, '.' ∉ (nameOf a).toList)

include hscopes hnames

theorem succeeds_addAll_iff_distinct :
    Succeeds (Declarations.empty.addAll (fun a ↦ resolvedName d.scopes (scopeOf a) (nameOf a)) l) ↔
      Distinct (l.map fun a ↦ d.entity? (scopeOf a) (nameOf a)) := by
  rw [succeeds_addAll_scopes, Distinct, List.Nodup, List.pairwise_map]
  refine and_congr ?_ ⟨fun h ↦ ?_, fun h ↦ ?_⟩
  · simp only [List.mem_map, entity?, Option.map_eq_none_iff, List.getElem?_eq_none_iff, not_exists,
      not_and, Nat.not_le]
  · refine h.imp_of_mem fun ha hb hne heq ↦ hne ?_
    exact (qualifiedName?_eq_iff hscopes (hnames _ ha) (hnames _ hb)).mpr heq
  · refine h.imp_of_mem fun ha hb hne heq ↦ hne ?_
    exact (qualifiedName?_eq_iff hscopes (hnames _ ha) (hnames _ hb)).mp heq

theorem mem_keys_iff_mem_entities {a : α} {decls : Declarations α} {key : String}
    {entity : Namespace × String}
    (hfilled : Declarations.empty.addAll
      (fun a ↦ resolvedName d.scopes (scopeOf a) (nameOf a)) l = .ok decls)
    (hname : '.' ∉ (nameOf a).toList)
    (hkey : d.qualifiedName? (scopeOf a) (nameOf a) = some key)
    (hentity : d.entity? (scopeOf a) (nameOf a) = some entity) :
    key ∈ decls.keys ↔ some entity ∈ l.map fun a ↦ d.entity? (scopeOf a) (nameOf a) := by
  obtain ⟨hvalues, hentries⟩ := addAll_scopes_eq_ok.mp hfilled
  rw [List.mem_map, ← hentity]
  constructor
  · intro hmem
    obtain ⟨b, hb⟩ := Declarations.mem_keys_iff.mp hmem
    have hbl : b ∈ l := hvalues ▸ Declarations.mem_values_iff.mpr ⟨key, hb⟩
    refine ⟨b, hbl, (qualifiedName?_eq_iff hscopes (hnames b hbl) hname).mp ?_⟩
    rw [hentries _ hb, hkey]
  · rintro ⟨b, hbl, hsame⟩
    obtain ⟨key', hb⟩ := Declarations.mem_values_iff.mp (hvalues ▸ hbl : b ∈ decls.values)
    have hkeys := (qualifiedName?_eq_iff hscopes (hnames b hbl) hname).mpr hsame
    rw [hentries _ hb, hkey, Option.some_inj] at hkeys
    exact Declarations.mem_keys_iff.mpr ⟨b, hkeys ▸ hb⟩

/-- A duplicate is reported at the first entity that stands for what one before it does. -/
theorem addAll_eq_duplicate_iff_firstRepeat (key : String) :
    Declarations.empty.addAll (fun a ↦ resolvedName d.scopes (scopeOf a) (nameOf a)) l =
        .error (.duplicateDeclaration key) ↔
      ∃ ns name, key = ns.path "." name ∧
        FirstRepeat (l.map fun a ↦ d.entity? (scopeOf a) (nameOf a)) (ns, name) := by
  have hnever (a : α) (key : String) :
      resolvedName d.scopes (scopeOf a) (nameOf a) ≠ .error (.duplicateDeclaration key) :=
    fun h ↦ nomatch (resolvedName_eq_error h).2
  rw [Declarations.addAll_eq_duplicate_iff hnever]
  constructor
  · rintro ⟨before, a, after, filled, rfl, ha, hfilled, hkey⟩
    rw [List.forall_mem_append, List.forall_mem_cons] at hnames
    obtain ⟨hbefore, hname, -⟩ := hnames
    have hqualified := resolvedName_eq_ok.mp ha
    obtain ⟨ns, hentity, rfl⟩ := (qualifiedName?_eq_some_iff hname).mp hqualified
    refine ⟨ns, nameOf a, rfl, before.map fun a ↦ d.entity? (scopeOf a) (nameOf a),
      after.map fun a ↦ d.entity? (scopeOf a) (nameOf a), ?_, ?_, ?_⟩
    · rw [List.map_append, List.map_cons, hentity]
    · exact (succeeds_addAll_iff_distinct scopeOf nameOf hscopes hbefore).mp ⟨filled, hfilled⟩
    · exact (mem_keys_iff_mem_entities scopeOf nameOf hscopes hbefore hfilled hname hqualified
        hentity).mp hkey
  · rintro ⟨ns, name, rfl, before, after, hl, hdistinct, hmem⟩
    obtain ⟨front, back, rfl, rfl, hback⟩ := List.map_eq_append_iff.mp hl
    obtain ⟨a, rest, rfl, hentity, rfl⟩ := List.map_eq_cons_iff.mp hback
    rw [List.forall_mem_append, List.forall_mem_cons] at hnames
    obtain ⟨hfront, hname, -⟩ := hnames
    obtain ⟨filled, hfilled⟩ :=
      (succeeds_addAll_iff_distinct scopeOf nameOf hscopes hfront).mpr hdistinct
    obtain rfl : nameOf a = name := by
      obtain ⟨_, -, heq⟩ := Option.map_eq_some_iff.mp hentity
      exact (Prod.mk.inj heq).2
    have hqualified := (qualifiedName?_eq_some_iff hname).mpr ⟨ns, hentity, rfl⟩
    refine ⟨front, a, rest, filled, rfl, resolvedName_eq_ok.mpr hqualified, hfilled, ?_⟩
    exact (mem_keys_iff_mem_entities scopeOf nameOf hscopes hfront hfilled hname hqualified
      hentity).mpr hmem

end tables

end Document

/-! ## Documents -/

theorem Schema.checkReferences_ne_duplicate {s : Schema} {key : String} :
    s.checkReferences ≠ .error (.duplicateDeclaration key) := by
  intro h
  rcases checkReferences_eq_error h with ⟨_, decl, -, h⟩ | ⟨_, decl, -, f, -, h⟩
  · rcases h with ⟨_, -, _, -, -, h⟩ | ⟨-, _, -, -, h⟩ <;> exact nomatch h
  · rcases h with h | h
    · rcases checkType_eq_error h with ⟨_, -, -, h⟩ | ⟨_, _, -, h⟩
      · exact nomatch h
      · rcases h with ⟨-, h⟩ | ⟨_, -, -, h⟩ <;> exact nomatch h
    · obtain ⟨_, -, -, h⟩ := checkNestedRoot_eq_error h
      exact nomatch h

namespace Document

variable {d : Document}

/-- A document is refused for a duplicate at the first enumeration that repeats one before it, or at
the first such aggregate behind enumerations that do not repeat. -/
theorem DotFree.ofDocument_eq_duplicate_iff (hd : d.DotFree) {key : String} :
    Schema.ofDocument d = .error (.duplicateDeclaration key) ↔
      ∃ ns name, key = ns.path "." name ∧
        (FirstRepeat d.enumEntities (ns, name) ∨
          Distinct d.enumEntities ∧ FirstRepeat d.aggregateEntities (ns, name)) := by
  have henums := addAll_eq_duplicate_iff_firstRepeat Enumeration.scope Enumeration.name hd.scopes
    hd.enums key
  have haggregates := addAll_eq_duplicate_iff_firstRepeat Aggregate.scope Aggregate.name hd.scopes
    hd.aggregates key
  have hdistinct := succeeds_addAll_iff_distinct Enumeration.scope Enumeration.name hd.scopes
    hd.enums
  rw [ofDocument_eq, Attempt.bind_eq_error, henums]
  constructor
  · rintro (⟨ns, name, hkey, hrepeat⟩ | ⟨enums, hok, h⟩)
    · exact ⟨ns, name, hkey, .inl hrepeat⟩
    · rcases Attempt.bind_eq_error.mp h with h | ⟨aggregates, -, h⟩
      · obtain ⟨ns, name, hkey, hrepeat⟩ := haggregates.mp h
        exact ⟨ns, name, hkey, .inr ⟨hdistinct.mp ⟨enums, hok⟩, hrepeat⟩⟩
      · -- what comes behind the tables fails in other ways
        rcases Attempt.bind_eq_error.mp h with h | ⟨root, -, h⟩
        · obtain ⟨_, -, -, h⟩ := resolvedRoot_eq_error h
          exact nomatch h
        · rcases Attempt.bind_eq_error.mp h with h | ⟨_, -, h⟩
          · exact absurd h Schema.checkReferences_ne_duplicate
          · exact absurd h Attempt.pure_ne_error
  · rintro ⟨ns, name, hkey, hrepeat | ⟨hok, hrepeat⟩⟩
    · exact .inl ⟨ns, name, hkey, hrepeat⟩
    · obtain ⟨enums, hok⟩ := hdistinct.mpr hok
      refine .inr ⟨enums, hok, Attempt.bind_eq_error.mpr (.inl ?_)⟩
      exact haggregates.mpr ⟨ns, name, hkey, hrepeat⟩

theorem DotFree.exists_duplicate_iff (hd : d.DotFree) (henums : none ∉ d.enumEntities)
    (haggregates : none ∉ d.aggregateEntities) :
    (∃ key, Schema.ofDocument d = .error (.duplicateDeclaration key)) ↔
      ¬ d.enumEntities.Nodup ∨ ¬ d.aggregateEntities.Nodup := by
  rw [← exists_firstRepeat_iff henums, ← exists_firstRepeat_iff haggregates]
  simp only [hd.ofDocument_eq_duplicate_iff]
  constructor
  · rintro ⟨key, ns, name, -, hrepeat | ⟨-, hrepeat⟩⟩
    · exact .inl ⟨_, hrepeat⟩
    · exact .inr ⟨_, hrepeat⟩
  · rintro (⟨⟨ns, name⟩, hrepeat⟩ | ⟨⟨ns, name⟩, hrepeat⟩)
    · exact ⟨_, ns, name, rfl, .inl hrepeat⟩
    · by_cases hnodup : d.enumEntities.Nodup
      · exact ⟨_, ns, name, rfl, .inr ⟨⟨henums, hnodup⟩, hrepeat⟩⟩
      · obtain ⟨⟨ns', name'⟩, hrepeat'⟩ := (exists_firstRepeat_iff henums).mpr hnodup
        exact ⟨_, ns', name', rfl, .inl hrepeat'⟩

end Document

end BufferSchema
