import BufferSchema.Proofs.Header.RootSpelling
import BufferSchema.Proofs.Header.Table
import BufferSchema.Proofs.Schema.Duplicates

/-!
# Spellings of keys

Generated code spells a declaration of another namespace in two ways: from its namespace and its
name, and from the key that it is declared under, with its dots exchanged. Where no component and no
name has a dot, a key stands for one name in one namespace, and both ways come out alike.

That a declaration stands under the key of its namespace and name is settled when a document is
loaded. It stays so whatever is changed later, as long as no namespace is taken away.
-/

namespace BufferSchema

/-- Whether an edit leaves every namespace in its place. -/
def Edit.keepsPlaces : Edit → Bool
  | .popNamespace => false
  | .enumGenerated _ _ | .isUnion _ _ | .aggregateGenerated _ _ | .sortBySize _ _ | .removeEnum _
  | .removeAggregate _ | .pushNamespace _ | .rootType _ | .fileIdentifier _ | .fileExtension _
  | .sourceFile _ | .fileName _ | .includeFile _ => true

namespace Schema

variable {s : Schema}

/-- No component and no name of a declaration has a dot. -/
structure DotFree (s : Schema) : Prop where
  namespaces : ∀ ns ∈ s.namespaces, ns.DotFree
  enums : ∀ e ∈ s.enums.values, '.' ∉ e.name.toList
  aggregates : ∀ a ∈ s.aggregates.values, '.' ∉ a.name.toList

/-! ## Two ways of spelling -/

theorem qualify_eq_map_scopedName {scope : NamespaceId} {name : String}
    (hspaces : ∀ ns ∈ s.namespaces, ns.DotFree) (hname : '.' ∉ name.toList)
    (hactive : s.isActive scope = false) :
    s.qualify scope name =
      (fun ns ↦ scopedName (ns.qualifiedName name)) <$> s.namespaceAt scope := by
  rw [qualify, if_neg (Bool.eq_false_iff.mp hactive), bind_pure_comp]
  cases hns : s.namespaceAt scope with
  | error fault => rfl
  | ok ns =>
    have hpath : ns.qualifiedName name = ns.path "." name := if_neg hname
    have hscoped := scopedName_path (hspaces ns (mem_of_namespaceAt_eq_ok hns)) hname
    rw [← hpath] at hscoped
    exact congrArg Except.ok hscoped.symm

/-! ## Keys -/

/-- Every declaration stands under the qualified name that its namespace gives it. -/
structure Keyed (s : Schema) : Prop where
  enums : ∀ entry ∈ s.enums.entries, s.Enters Enumeration.scope Enumeration.name entry.2 entry
  aggregates : ∀ entry ∈ s.aggregates.entries, s.Enters Aggregate.scope Aggregate.name entry.2 entry

theorem keyed_of_ofDocument {d : Document} (h : Schema.ofDocument d = .ok s) : s.Keyed := by
  have hholds := holds_of_ofDocument h
  refine ⟨fun entry hentry ↦ ?_, fun entry hentry ↦ ?_⟩
  · obtain ⟨e, -, he⟩ := Attempt.exists_mem_left_of_forall₂ hholds.enums hentry
    obtain ⟨ns, hns, rfl⟩ := he
    exact ⟨ns, hns, rfl⟩
  · obtain ⟨a, -, ha⟩ := Attempt.exists_mem_left_of_forall₂ hholds.aggregates hentry
    obtain ⟨ns, hns, rfl⟩ := ha
    exact ⟨ns, hns, rfl⟩

section entries

variable {α : Type} {scopeOf : α → NamespaceId} {nameOf : α → String} {decls : Declarations α}

theorem enters_modify {key : String} {f : α → α} (hscope : ∀ a, scopeOf (f a) = scopeOf a)
    (hname : ∀ a, nameOf (f a) = nameOf a)
    (h : ∀ entry ∈ decls.entries, s.Enters scopeOf nameOf entry.2 entry) :
    ∀ entry ∈ (decls.modify key f).entries, s.Enters scopeOf nameOf entry.2 entry := by
  intro entry hentry
  obtain ⟨⟨key', a⟩, hmem, rfl⟩ := List.mem_map.mp hentry
  obtain ⟨ns, hns, hkey⟩ := h _ hmem
  have henters (b : α) (hscope : scopeOf b = scopeOf a) (hname : nameOf b = nameOf a) :
      s.Enters scopeOf nameOf b (key', b) :=
    ⟨ns, hscope ▸ hns, by rw [hname, (Prod.mk.inj hkey).1]⟩
  by_cases hchanged : key' = key
  · rw [if_pos hchanged]
    exact henters (f a) (hscope a) (hname a)
  · rw [if_neg hchanged]
    exact henters a rfl rfl

theorem enters_erase {key : String}
    (h : ∀ entry ∈ decls.entries, s.Enters scopeOf nameOf entry.2 entry) :
    ∀ entry ∈ (decls.erase key).entries, s.Enters scopeOf nameOf entry.2 entry :=
  fun entry hentry ↦ h entry (List.mem_of_mem_filter hentry)

theorem enters_pushNamespace {a : α} {entry : String × α} (ns : Namespace)
    (h : s.Enters scopeOf nameOf a entry) :
    (s.pushNamespace ns).Enters scopeOf nameOf a entry := by
  obtain ⟨ns', hns, hentry⟩ := h
  refine ⟨ns', ?_, hentry⟩
  rw [namespaceAt] at hns ⊢
  split at hns
  · next hget =>
    have hlt := (List.getElem?_eq_some_iff.mp hget).1
    rw [pushNamespace, List.getElem?_append_left hlt, hget]
    exact hns
  · exact absurd hns Attempt.throw_ne_ok

/-- What stands under its key is spelled by it outside the active namespace. -/
theorem qualify_of_enters {key : String} {a : α} (h : s.Enters scopeOf nameOf a (key, a))
    (hspaces : ∀ ns ∈ s.namespaces, ns.DotFree) (hname : '.' ∉ (nameOf a).toList)
    (hactive : s.isActive (scopeOf a) = false) :
    s.qualify (scopeOf a) (nameOf a) = .ok (scopedName key) := by
  obtain ⟨ns, hns, hkey⟩ := h
  rw [qualify_eq_map_scopedName hspaces hname hactive, hns, (Prod.mk.inj hkey).1]
  rfl

end entries

namespace Keyed

theorem edit (h : s.Keyed) {edit : Edit} (hedit : edit.keepsPlaces = true) :
    (s.edit edit).Keyed := by
  cases edit with
  | enumGenerated key on | isUnion key on =>
    exact ⟨enters_modify (fun _ ↦ rfl) (fun _ ↦ rfl) h.enums, h.aggregates⟩
  | aggregateGenerated key on | sortBySize key on =>
    exact ⟨h.enums, enters_modify (fun _ ↦ rfl) (fun _ ↦ rfl) h.aggregates⟩
  | removeEnum key => exact ⟨enters_erase h.enums, h.aggregates⟩
  | removeAggregate key => exact ⟨h.enums, enters_erase h.aggregates⟩
  | pushNamespace components =>
    exact ⟨fun entry hentry ↦ enters_pushNamespace _ (h.enums entry hentry),
      fun entry hentry ↦ enters_pushNamespace _ (h.aggregates entry hentry)⟩
  | rootType value | fileIdentifier value | fileExtension value | sourceFile value
  | fileName value | includeFile value => exact ⟨h.enums, h.aggregates⟩
  | popNamespace => exact nomatch hedit

theorem editAll (h : s.Keyed) {edits : List Edit}
    (hedits : ∀ edit ∈ edits, edit.keepsPlaces = true) : (s.editAll edits).Keyed := by
  induction edits generalizing s with
  | nil => exact h
  | cons edit edits ih =>
    obtain ⟨hedit, hedits⟩ := List.forall_mem_cons.mp hedits
    exact ih (h.edit hedit) hedits

variable {key : String}

theorem qualify_enum (h : s.Keyed) (hfree : s.DotFree) {e : Enumeration}
    (he : s.enums.get? key = some e) (hactive : s.isActive e.scope = false) :
    s.qualify e.scope e.name = .ok (scopedName key) := by
  have hname : '.' ∉ e.name.toList := hfree.enums e (Declarations.mem_values_of_get? he)
  have henters := h.enums _ (Declarations.get?_eq_some_iff.mp he)
  exact qualify_of_enters henters hfree.namespaces hname hactive

theorem qualify_aggregate (h : s.Keyed) (hfree : s.DotFree) {a : Aggregate}
    (ha : s.aggregates.get? key = some a) (hactive : s.isActive a.scope = false) :
    s.qualify a.scope a.name = .ok (scopedName key) := by
  have hname : '.' ∉ a.name.toList := hfree.aggregates a (Declarations.mem_values_of_get? ha)
  have henters := h.aggregates _ (Declarations.get?_eq_some_iff.mp ha)
  exact qualify_of_enters henters hfree.namespaces hname hactive

end Keyed

end Schema

theorem TableAccessor.nestedRoot_of_ofField {s : Schema} {options : Options} {a : Aggregate}
    {f : Field} {accessor : TableAccessor}
    (h : TableAccessor.ofField s options a f = .ok accessor) :
    accessor.nestedRoot = f.nestedRoot.map fun given ↦
      scopedName (s.activeNamespace.qualifiedName given) := by
  obtain ⟨_, _, _, _, _, -, -, -, -, -, rfl⟩ := of_ofField_eq_ok h
  rfl

/-! ## Where keys are spelled -/

namespace Schema

/-- What is declared outside the active namespace is spelled alike from its key and from where it is
declared. -/
structure SpellsByKey (s : Schema) : Prop where
  enums : ∀ key e, s.enums.get? key = some e → s.isActive e.scope = false →
    s.qualify e.scope e.name = .ok (scopedName key)
  aggregates : ∀ key a, s.aggregates.get? key = some a → s.isActive a.scope = false →
    s.qualify a.scope a.name = .ok (scopedName key)
  /-- The root of a nested buffer is looked for, and spelled, in the active namespace. -/
  nested_roots : ∀ options a f accessor given root,
    TableAccessor.ofField s options a f = .ok accessor → f.nestedRoot = some given →
    s.aggregates.get? (s.activeNamespace.qualifiedName given) = some root →
    s.isActive root.scope = false →
      ∃ spelling, s.qualify root.scope root.name = .ok spelling ∧
        accessor.nestedRoot = some spelling
  root_helpers : ∀ options key root, s.rootType = some key → s.aggregates.get? key = some root →
    s.isActive root.scope = false →
      ∃ spelling, s.qualify root.scope root.name = .ok spelling ∧
        s.rootHelpers options = .ok (spelledHelpers s options root.name
          (RootPlace.spelling spelling root.name) s.fileIdentifier.isSome)

theorem Keyed.spellsByKey {s : Schema} (h : s.Keyed) (hfree : s.DotFree) : s.SpellsByKey where
  enums _ _ := h.qualify_enum hfree
  aggregates _ _ := h.qualify_aggregate hfree
  nested_roots options a f accessor given root haccessor hgiven hroot hactive := by
    refine ⟨_, h.qualify_aggregate hfree hroot hactive, ?_⟩
    rw [TableAccessor.nestedRoot_of_ofField haccessor, hgiven, Option.map_some]
  root_helpers options key root hkey hroot hactive :=
    ⟨_, h.qualify_aggregate hfree hroot hactive, rootHelpers_eq_spelled hkey hroot⟩

end Schema

/-- **Keys stand for declarations.** Where no component and no name has a dot, two keys are the same
exactly if the paths and the names are. So a document is refused for a duplicate exactly if two
enumerations or two aggregates have one name and one path, whatever their namespaces are numbered,
and the first repetition is reported; a declaration whose namespace is missing has no path and ends
the search. What is not active is spelled from its namespace and its name as from its key, which is
what accessors of nested buffers and root helpers do. -/
theorem keys_stand_for_declarations :
    (∀ (ns ns' : Namespace) (name name' : String), ns.DotFree → ns'.DotFree →
      '.' ∉ name.toList → '.' ∉ name'.toList →
      (ns.qualifiedName name = ns'.qualifiedName name' ↔
        ns.components = ns'.components ∧ name = name')) ∧
    (∀ d : Document, d.DotFree →
      (∀ key, Schema.ofDocument d = .error (.duplicateDeclaration key) ↔
        ∃ ns name, key = ns.path "." name ∧
          (FirstRepeat d.enumEntities (ns, name) ∨
            Distinct d.enumEntities ∧ FirstRepeat d.aggregateEntities (ns, name))) ∧
      (none ∉ d.enumEntities → none ∉ d.aggregateEntities →
        ((∃ key, Schema.ofDocument d = .error (.duplicateDeclaration key)) ↔
          ¬ d.enumEntities.Nodup ∨ ¬ d.aggregateEntities.Nodup))) ∧
    (∀ (s : Schema) scope name, (∀ ns ∈ s.namespaces, ns.DotFree) → '.' ∉ name.toList →
      s.isActive scope = false →
      s.qualify scope name =
        (fun ns ↦ scopedName (ns.qualifiedName name)) <$> s.namespaceAt scope) ∧
    ∀ (d : Document) (s : Schema) edits, Schema.ofDocument d = .ok s →
      (∀ edit ∈ edits, edit.keepsPlaces = true) → (s.editAll edits).DotFree →
      (s.editAll edits).SpellsByKey := by
  refine ⟨fun ns ns' name name' hns hns' hname hname' ↦ ?_, fun d hd ↦ ⟨fun key ↦ ?_, ?_⟩,
    fun s scope name hspaces hname hactive ↦ ?_, fun d s edits hs hedits hfree ↦ ?_⟩
  · rw [Namespace.qualifiedName_eq_iff hns hns' hname hname', Namespace.mk.injEq]
  · exact hd.ofDocument_eq_duplicate_iff
  · exact hd.exists_duplicate_iff
  · exact Schema.qualify_eq_map_scopedName hspaces hname hactive
  · exact ((Schema.keyed_of_ofDocument hs).editAll hedits).spellsByKey hfree

/-- A document with two namespaces of one path. -/
def twinDocument : Document :=
  { namesakeDocument with namespaces := [["Base"], ["Base"], ["Game"]] }

/-- Declarations in twin namespaces are duplicates. What was declared in the active namespace is
spelled behind its path as soon as another one is active. -/
theorem keys_stand_for_declarations_twins :
    Schema.ofDocument twinDocument = .error (.duplicateDeclaration "Base.Color") ∧
    (¬ twinDocument.enumEntities.Nodup ∨ ¬ twinDocument.aggregateEntities.Nodup) ∧
    ∃ s, Schema.ofDocument namesakeDocument = .ok s ∧
      (s.editAll [.removeAggregate "Monster", .pushNamespace ["Late"]]).qualify 2 "Monster" =
        .ok (scopedName "Game.Monster") := by
  have hfree : twinDocument.DotFree := ⟨by decide, by decide, by decide⟩
  obtain ⟨-, hduplicates, -, hloaded⟩ := keys_stand_for_declarations
  have hfirst : FirstRepeat twinDocument.enumEntities (⟨["Base"]⟩, "Color") :=
    ⟨[some (⟨["Base"]⟩, "Color")], [some (⟨["Game"]⟩, "Color")], rfl,
      ⟨by decide, List.nodup_singleton _⟩, List.mem_cons_self⟩
  have herror := ((hduplicates _ hfree).1 "Base.Color").mpr ⟨_, _, rfl, .inl hfirst⟩
  refine ⟨herror, ?_, _, rfl, ?_⟩
  · exact ((hduplicates _ hfree).2 (by decide) (by decide)).mp ⟨_, herror⟩
  · exact (hloaded namesakeDocument _ [.removeAggregate "Monster", .pushNamespace ["Late"]] rfl
      (by decide) ⟨by decide, by decide, by decide⟩).aggregates "Game.Monster" _ rfl rfl

end BufferSchema
