import BufferSchema.Proofs.Attempt
import BufferSchema.Schema.Resolve
import Mathlib.Data.List.Nodup

/-!
# Laws of tables of declarations

Looking a name up in a table and finding it among the entries are the same thing, because no name
repeats. The second half is about `Declarations.addAll`, the loop that fills a table: it gives the
one table that holds the declarations in their order under the names asked for, and it fails for a
name that cannot be given or that two declarations share.
-/

namespace BufferSchema

/-- Keys do not repeat if they tell keys that do not. -/
theorem nodup_map_of_imp {α κ κ' : Type} {key : α → κ} {key' : α → κ'} {xs : List α}
    (h : (xs.map key).Nodup) (himp : ∀ x y, key' x = key' y → key x = key y) :
    (xs.map key').Nodup := by
  rw [List.Nodup, List.pairwise_map] at h ⊢
  exact h.imp fun hne heq ↦ hne (himp _ _ heq)

namespace Declarations

variable {α : Type} {decls : Declarations α} {key : String} {a : α}

/-! ## Looking names up -/

theorem mem_keys_iff : key ∈ decls.keys ↔ ∃ a, (key, a) ∈ decls.entries := by
  rw [keys, List.mem_map]
  constructor
  · rintro ⟨⟨_, a⟩, h, rfl⟩
    exact ⟨a, h⟩
  · rintro ⟨a, h⟩
    exact ⟨(key, a), h, rfl⟩

theorem mem_values_iff : a ∈ decls.values ↔ ∃ key, (key, a) ∈ decls.entries := by
  rw [values, List.mem_map]
  constructor
  · rintro ⟨⟨key, _⟩, h, rfl⟩
    exact ⟨key, h⟩
  · rintro ⟨key, h⟩
    exact ⟨(key, a), h, rfl⟩

@[simp] theorem contains_iff : decls.contains key = true ↔ key ∈ decls.keys := decide_eq_true_iff

/-- The first entry of a name is its only one. -/
theorem get?_eq_some_iff : decls.get? key = some a ↔ (key, a) ∈ decls.entries := by
  rw [get?, List.lookup_eq_some_iff]
  constructor
  · rintro ⟨before, after, h, -⟩
    rw [h]
    exact List.mem_append_right before List.mem_cons_self
  · intro h
    obtain ⟨before, after, hsplit⟩ := List.append_of_mem h
    refine ⟨before, after, hsplit, fun entry hentry ↦ ?_⟩
    -- names do not repeat, so that the entries before are under other names
    have hnodup := decls.nodup
    rw [hsplit, List.map_append, List.nodup_append] at hnodup
    have hne : entry.1 ≠ key :=
      hnodup.2.2 _ (List.mem_map_of_mem hentry) _ (List.mem_map_of_mem List.mem_cons_self)
    simpa using hne.symm

theorem get?_eq_none_iff : decls.get? key = none ↔ key ∉ decls.keys := by
  rw [← not_iff_not, not_not, mem_keys_iff, ← ne_eq, Option.ne_none_iff_exists']
  exact exists_congr fun _ ↦ get?_eq_some_iff

theorem mem_keys_of_get? (h : decls.get? key = some a) : key ∈ decls.keys :=
  mem_keys_iff.mpr ⟨a, get?_eq_some_iff.mp h⟩

theorem exists_get?_of_mem_keys (h : key ∈ decls.keys) : ∃ a, decls.get? key = some a := by
  obtain ⟨a, ha⟩ := mem_keys_iff.mp h
  exact ⟨a, get?_eq_some_iff.mpr ha⟩

theorem mem_values_of_get? (h : decls.get? key = some a) : a ∈ decls.values :=
  mem_values_iff.mpr ⟨key, get?_eq_some_iff.mp h⟩

/-- Declarations that determine their names do not repeat. -/
theorem nodup_values (nameOf : α → Option String)
    (h : ∀ entry ∈ decls.entries, nameOf entry.2 = some entry.1) : decls.values.Nodup := by
  have hnodup := List.pairwise_map.mp decls.nodup
  rw [values, List.Nodup, List.pairwise_map]
  refine hnodup.imp_of_mem ?_
  intro x y hx hy hne heq
  have hname : some x.1 = some y.1 := by rw [← h x hx, ← h y hy, heq]
  exact hne (Option.some.inj hname)

/-! ## Changing a declaration -/

@[simp] theorem keys_modify (f : α → α) : (decls.modify key f).keys = decls.keys := by
  rw [keys, keys, modify, List.map_map]
  rfl

theorem get?_modify (f : α → α) (name : String) :
    (decls.modify key f).get? name =
      (decls.get? name).map fun a ↦ if name = key then f a else a := by
  rw [get?, get?, modify]
  dsimp only
  induction decls.entries with
  | nil => rfl
  | cons entry entries ih =>
    obtain ⟨name', a⟩ := entry
    rw [List.map_cons]
    by_cases h : name = name'
    · subst h
      rw [List.lookup_cons_self, List.lookup_cons_self, Option.map_some]
    · have hne : (name == name') = false := beq_eq_false_iff_ne.mpr h
      rw [List.lookup_cons, List.lookup_cons, hne]
      exact ih

theorem get?_modify_of_ne {f : α → α} {name : String} (hne : name ≠ key)
    (hget : decls.get? name = some a) : (decls.modify key f).get? name = some a := by
  rw [get?_modify, hget, Option.map_some, if_neg hne]

/-- What a change leaves alone in each declaration, it leaves alone in the table. -/
theorem map_values_modify {β : Type} {f : α → α} {g : α → β} (hf : ∀ a, g (f a) = g a) :
    (decls.modify key f).values.map g = decls.values.map g := by
  rw [values, values, modify, List.map_map, List.map_map, List.map_map]
  refine List.map_congr_left fun entry _ ↦ ?_
  dsimp only [Function.comp_apply]
  by_cases h : entry.1 = key
  · rw [if_pos h, hf]
  · rw [if_neg h]

/-- A declaration that is changed so that a filter drops it is missing, and nothing else is. -/
theorem filter_values_modify [DecidableEq α] (hget : decls.get? key = some a)
    (hnodup : decls.values.Nodup) {f : α → α} {p : α → Bool} (hf : p (f a) = false) :
    (decls.modify key f).values.filter p = (decls.values.filter p).filter (· ≠ a) := by
  have hkey : ∀ entry ∈ decls.entries, entry.1 = key ↔ entry.2 = a := by
    have hmem := get?_eq_some_iff.mp hget
    intro entry hentry
    constructor
    · rintro rfl
      exact Option.some.inj ((get?_eq_some_iff.mpr hentry).symm.trans hget)
    · rintro rfl
      exact congrArg Prod.fst (List.inj_on_of_nodup_map hnodup hentry hmem rfl)
  rw [values, values, modify]
  dsimp only
  generalize decls.entries = entries at hkey
  induction entries with
  | nil => rfl
  | cons entry entries ih =>
    obtain ⟨hentry, hentries⟩ := List.forall_mem_cons.mp hkey
    rw [List.map_cons, List.map_cons, List.map_cons, List.filter_cons, List.filter_cons,
      ih hentries]
    by_cases h : entry.2 = a
    · rw [if_pos (hentry.mpr h), h, hf]
      cases p a <;> simp
    · rw [if_neg (mt hentry.mp h)]
      cases p entry.2 <;> simp [h]

/-- A changed table holds old declarations and changed ones. -/
theorem exists_of_mem_values_modify {f : α → α} (h : a ∈ (decls.modify key f).values) :
    ∃ b ∈ decls.values, a = b ∨ a = f b := by
  obtain ⟨name, h⟩ := mem_values_iff.mp h
  obtain ⟨⟨name', b⟩, hb, heq⟩ := List.mem_map.mp h
  obtain ⟨rfl, rfl⟩ := Prod.mk.inj heq
  refine ⟨b, mem_values_iff.mpr ⟨name', hb⟩, ?_⟩
  by_cases hkey : name' = key
  · exact Or.inr (if_pos hkey)
  · exact Or.inl (if_neg hkey)

/-! ## Removing a declaration -/

theorem get?_erase_of_ne {name : String} (hne : name ≠ key) :
    (decls.erase key).get? name = decls.get? name := by
  refine Option.ext fun a ↦ ?_
  rw [get?_eq_some_iff, get?_eq_some_iff, erase, List.mem_filter]
  exact and_iff_left (by simpa using hne)

theorem mem_values_of_mem_values_erase (h : a ∈ (decls.erase key).values) : a ∈ decls.values := by
  obtain ⟨name, h⟩ := mem_values_iff.mp h
  exact mem_values_iff.mpr ⟨name, List.mem_of_mem_filter h⟩

/-! ## Filling a table -/

private theorem eq_of_entries_eq {decls' : Declarations α} (h : decls.entries = decls'.entries) :
    decls = decls' := by
  cases decls
  cases decls'
  congr

theorem insert?_of_mem (h : key ∈ decls.keys) : decls.insert? key a = none := dif_pos h

theorem insert?_of_notMem (h : key ∉ decls.keys) :
    ∃ decls', decls.insert? key a = some decls' ∧ decls'.entries = decls.entries ++ [(key, a)] :=
  ⟨_, dif_neg h, rfl⟩

section addAll

variable {nameOf : α → Resolved String} {result : Declarations α} {l : List α}

theorem addAll_cons (decls : Declarations α) (a : α) (l : List α) :
    decls.addAll nameOf (a :: l) = nameOf a >>= fun key ↦
      match decls.insert? key a with
      | some decls => decls.addAll nameOf l
      | none => throw (.duplicateDeclaration key) := rfl

/-- A filled table has the new declarations behind the old ones, each under the name it asked
for. -/
theorem addAll_eq_ok : decls.addAll nameOf l = .ok result ↔
    ∃ added, result.entries = decls.entries ++ added ∧ added.map Prod.snd = l ∧
      ∀ entry ∈ added, nameOf entry.2 = .ok entry.1 := by
  induction l generalizing decls with
  | nil =>
    rw [addAll, Attempt.pure_eq_ok]
    constructor
    · rintro rfl
      exact ⟨[], (List.append_nil _).symm, rfl, by simp⟩
    · rintro ⟨added, h, hadded, -⟩
      rw [List.map_eq_nil_iff.mp hadded, List.append_nil] at h
      exact eq_of_entries_eq h.symm
  | cons a l ih =>
    rw [addAll_cons, Attempt.bind_eq_ok]
    constructor
    · rintro ⟨key, hkey, h⟩
      by_cases hmem : key ∈ decls.keys
      · rw [insert?_of_mem hmem] at h
        exact absurd h Attempt.throw_ne_ok
      · obtain ⟨decls', hinsert, hentries⟩ := insert?_of_notMem (a := a) hmem
        rw [hinsert] at h
        obtain ⟨added, hresult, hvalues, hnames⟩ := ih.mp h
        refine ⟨(key, a) :: added, ?_, by rw [List.map_cons, hvalues], ?_⟩
        · rw [hresult, hentries, List.append_assoc, List.singleton_append]
        · exact List.forall_mem_cons.mpr ⟨hkey, hnames⟩
    · rintro ⟨added, hresult, hvalues, hnames⟩
      obtain ⟨⟨key, a'⟩, rest, rfl, ha, hrest⟩ := List.map_eq_cons_iff.mp hvalues
      obtain ⟨hkey, hnames⟩ := List.forall_mem_cons.mp hnames
      obtain rfl : a' = a := ha
      -- the result is a table, so that an added name was not there before
      have hmem : key ∉ decls.keys := by
        intro hmem
        have hnodup := result.nodup
        rw [hresult, List.map_append, List.nodup_append] at hnodup
        exact hnodup.2.2 key hmem key List.mem_cons_self rfl
      obtain ⟨decls', hinsert, hentries⟩ := insert?_of_notMem (a := a') hmem
      refine ⟨key, hkey, ?_⟩
      rw [hinsert]
      refine ih.mpr ⟨rest, ?_, hrest, hnames⟩
      rw [hresult, hentries, List.append_assoc, List.singleton_append]

/-- Filling an empty table gives the table of these declarations in their order. -/
theorem addAll_empty_eq_ok : Declarations.empty.addAll nameOf l = .ok result ↔
    result.values = l ∧ ∀ entry ∈ result.entries, nameOf entry.2 = .ok entry.1 := by
  rw [addAll_eq_ok]
  constructor
  · rintro ⟨added, h, hvalues, hnames⟩
    obtain rfl : result.entries = added := h
    exact ⟨hvalues, hnames⟩
  · rintro ⟨hvalues, hnames⟩
    exact ⟨result.entries, rfl, hvalues, hnames⟩

private theorem exists_entries (h : ∀ a ∈ l, Succeeds (nameOf a)) :
    ∃ entries : List (String × α), entries.map Prod.snd = l ∧
      ∀ entry ∈ entries, nameOf entry.2 = .ok entry.1 := by
  induction l with
  | nil => exact ⟨[], rfl, by simp⟩
  | cons a l ih =>
    obtain ⟨⟨key, hkey⟩, hrest⟩ := List.forall_mem_cons.mp h
    obtain ⟨entries, rfl, hentries⟩ := ih hrest
    exact ⟨(key, a) :: entries, rfl, List.forall_mem_cons.mpr ⟨hkey, hentries⟩⟩

/-- An empty table can be filled if every declaration has a name and no two have the same. -/
theorem succeeds_addAll_empty : Succeeds (Declarations.empty.addAll nameOf l) ↔
    (∀ a ∈ l, Succeeds (nameOf a)) ∧ l.Pairwise fun a b ↦ nameOf a ≠ nameOf b := by
  constructor
  · rintro ⟨result, h⟩
    obtain ⟨rfl, hnames⟩ := addAll_empty_eq_ok.mp h
    refine ⟨fun a ha ↦ ?_, ?_⟩
    · obtain ⟨key, hkey⟩ := mem_values_iff.mp ha
      exact ⟨key, hnames _ hkey⟩
    · rw [values, List.pairwise_map]
      refine List.Pairwise.imp_of_mem ?_ (List.pairwise_map.mp result.nodup)
      intro x y hx hy hne heq
      rw [hnames x hx, hnames y hy] at heq
      exact hne (Except.ok.inj heq)
  · rintro ⟨hnames, hdistinct⟩
    obtain ⟨entries, rfl, hentries⟩ := exists_entries hnames
    have hnodup : (entries.map Prod.fst).Nodup := by
      rw [List.Nodup, List.pairwise_map]
      rw [List.pairwise_map] at hdistinct
      refine hdistinct.imp_of_mem ?_
      intro x y hx hy hne heq
      rw [hentries x hx, hentries y hy, heq] at hne
      exact hne rfl
    exact ⟨⟨entries, hnodup⟩, addAll_empty_eq_ok.mpr ⟨rfl, hentries⟩⟩

/-- Why a table cannot be filled: a declaration has no name, or its name is taken, by an old
declaration or by one before it. -/
theorem addAll_eq_error {e : ResolveError} (h : decls.addAll nameOf l = .error e) :
    (∃ a ∈ l, nameOf a = .error e) ∨
      ∃ before a after key, l = before ++ a :: after ∧ nameOf a = .ok key ∧
        e = .duplicateDeclaration key ∧ (key ∈ decls.keys ∨ ∃ b ∈ before, nameOf b = .ok key) := by
  induction l generalizing decls with
  | nil => exact absurd h Attempt.pure_ne_error
  | cons a l ih =>
    rw [addAll_cons, Attempt.bind_eq_error] at h
    rcases h with h | ⟨key, hkey, h⟩
    · exact Or.inl ⟨a, List.mem_cons_self, h⟩
    · by_cases hmem : key ∈ decls.keys
      · rw [insert?_of_mem hmem, Attempt.throw_eq_error] at h
        exact Or.inr ⟨[], a, l, key, rfl, hkey, h.symm, Or.inl hmem⟩
      · obtain ⟨decls', hinsert, hentries⟩ := insert?_of_notMem (a := a) hmem
        rw [hinsert] at h
        rcases ih h with ⟨b, hb, he⟩ | ⟨before, b, after, key', rfl, hb, he, htaken⟩
        · exact Or.inl ⟨b, List.mem_cons_of_mem a hb, he⟩
        · refine Or.inr ⟨a :: before, b, after, key', rfl, hb, he, ?_⟩
          -- a taken name is an old one, that of `a`, or one from between
          rw [keys, hentries, List.map_append, List.mem_append] at htaken
          rcases htaken with (htaken | htaken) | ⟨c, hc, hname⟩
          · exact Or.inl htaken
          · obtain rfl : key' = key := List.mem_singleton.mp htaken
            exact Or.inr ⟨a, List.mem_cons_self, hkey⟩
          · exact Or.inr ⟨c, List.mem_cons_of_mem a hc, hname⟩

/-- Why an empty table cannot be filled. -/
theorem addAll_empty_eq_error {e : ResolveError}
    (h : Declarations.empty.addAll nameOf l = .error e) :
    (∃ a ∈ l, nameOf a = .error e) ∨
      ∃ b a key, [b, a].Sublist l ∧ nameOf b = .ok key ∧ nameOf a = .ok key ∧
        e = .duplicateDeclaration key := by
  rcases addAll_eq_error h with h | ⟨before, a, after, key, rfl, ha, he, htaken⟩
  · exact Or.inl h
  · rcases htaken with htaken | ⟨b, hb, hname⟩
    · exact absurd htaken List.not_mem_nil
    · refine Or.inr ⟨b, a, key, ?_, hname, ha, he⟩
      exact (List.singleton_sublist.mpr hb).append
        (List.singleton_sublist.mpr List.mem_cons_self)

end addAll

end Declarations

end BufferSchema
