import BufferSchema.Proofs.Header.Collisions
import BufferSchema.Proofs.Header.Erasure
import BufferSchema.Proofs.Header.Forward
import BufferSchema.Proofs.Header.Safety

/-!
# What a spelling says of storage

Two types may share their spelling only if they are stored alike: scalars by their C type, whatever
enumeration they hold the values of, and unions as untyped offsets. That much is a *stored type*. A
reader takes the spelling apart again, from the outside to the inside, and finds the stored type, so
that spellings keep different stored types apart at any depth of vectors.

The reader looks aggregates up by their spellings. It needs these to be different from each other
and from what the runtime library calls its own, and nothing else: the names of aggregates need not
be identifiers, and one that is called like a scalar is told from the scalar by the pointer or the
offset around it.
-/

namespace BufferSchema

/-! ## Stored types -/

/-- What is told apart about the types of values in a buffer. -/
inductive StoredType where
  /-- A scalar of a C type. -/
  | scalar (spelling : String)
  | string
  | vector (element : StoredType)
  | aggregate (target : String) (fixed : Bool)
  /-- The payload of a union, of which only the offset is known. -/
  | untyped
  deriving DecidableEq, Repr

/-- The stored type of a type. -/
def TypeRef.stored : TypeRef → StoredType
  | .scalar kind _ => .scalar kind.spelling
  | .bool => .scalar "uint8_t"
  | .string => .string
  | .vector element => .vector element.stored
  | .aggregate target fixed => .aggregate target fixed
  | .union _ => .untyped

namespace StoredType

/-- The spelling of a stored type, given those of aggregates. -/
def text (spellingOf : String → String) : StoredType → String
  | .scalar spelling => spelling
  | .string => offsetTo "flatbuffers::String"
  | .vector element => offsetTo (vectorOf (element.text spellingOf))
  | .aggregate target true => "const " ++ spellingOf target ++ " *"
  | .aggregate target false => offsetTo (spellingOf target)
  | .untyped => offsetTo "void"

/-! ## Reading a spelling -/

theorem between?_offsetTo (pointee : String) :
    between? "flatbuffers::Offset<" ">" (offsetTo pointee) = some pointee :=
  between?_append _ _ _

theorem between?_vectorOf (element : String) :
    between? "flatbuffers::Vector<" ">" (vectorOf element) = some element :=
  between?_append _ _ _

theorem between?_const_offsetTo (pointee : String) :
    between? "const " " *" (offsetTo pointee) = none := by
  change between? "const " " *" ("flatbuffers::Offset<" ++ pointee ++ ">") = none
  rw [between?, String.toList_append, String.toList_append]
  rfl

theorem vectorOf_ne {text : String} (htext : between? "flatbuffers::Vector<" ">" text = none)
    (element : String) : vectorOf element ≠ text := by
  rintro rfl
  rw [between?_vectorOf] at htext
  exact nomatch htext

theorem length_lt_of_between? {front back text inner : String} (hfront : 0 < front.length)
    (h : between? front back text = some inner) : inner.length < text.length := by
  rw [eq_append_of_between? h, String.length_append, String.length_append]
  omega

/-- The stored type that a text spells, where `targetOf` finds the aggregate of a spelling. -/
def read? (targetOf : String → Option String) (text : String) : Option StoredType :=
  match between? "const " " *" text with
  | some spelling => (targetOf spelling).map (.aggregate · true)
  | none =>
    match _hpointee : between? "flatbuffers::Offset<" ">" text with
    | none => some (.scalar text)
    | some pointee =>
      if pointee = "flatbuffers::String" then some .string
      else if pointee = "void" then some .untyped
      else
        match _helement : between? "flatbuffers::Vector<" ">" pointee with
        | none => (targetOf pointee).map (.aggregate · false)
        | some element => (read? targetOf element).map .vector
  termination_by text.length
  decreasing_by
    have hlt : element.length < pointee.length := length_lt_of_between? (by decide) _helement
    exact hlt.trans (length_lt_of_between? (by decide) _hpointee)

variable {spellingOf : String → String} {targetOf : String → Option String}

theorem read?_scalar (kind : ScalarKind) :
    read? targetOf kind.spelling = some (.scalar kind.spelling) := by
  have hstruct : between? "const " " *" kind.spelling = none := by cases kind <;> rfl
  have hoffset : between? "flatbuffers::Offset<" ">" kind.spelling = none := by
    cases kind <;> rfl
  rw [read?, hstruct]
  dsimp only
  split
  · rfl
  · next pointee hpointee =>
    rw [hoffset] at hpointee
    exact nomatch hpointee

theorem read?_struct (spelling : String) :
    read? targetOf ("const " ++ spelling ++ " *") =
      (targetOf spelling).map (.aggregate · true) := by
  rw [read?, between?_append]

theorem read?_offsetTo (pointee : String) : read? targetOf (offsetTo pointee) =
    if pointee = "flatbuffers::String" then some .string
    else if pointee = "void" then some .untyped
    else
      match between? "flatbuffers::Vector<" ">" pointee with
      | none => (targetOf pointee).map (.aggregate · false)
      | some element => (read? targetOf element).map .vector := by
  rw [read?, between?_const_offsetTo]
  dsimp only
  split
  · next hoffset =>
    rw [between?_offsetTo] at hoffset
    exact nomatch hoffset
  · next pointee' hoffset =>
    rw [between?_offsetTo] at hoffset
    obtain rfl := Option.some.inj hoffset
    split_ifs
    · rfl
    · rfl
    · split <;> next helement => rw [helement]

/-- The aggregate of a spelling is found, and the spelling is none of the runtime library. -/
structure IsNamed (spellingOf : String → String) (targetOf : String → Option String)
    (target : String) : Prop where
  found : targetOf (spellingOf target) = some target
  ne_void : spellingOf target ≠ "void"
  unreserved : ∀ rest, spellingOf target ≠ "flatbuffers::" ++ rest

theorem read?_table {target : String} (h : IsNamed spellingOf targetOf target) :
    read? targetOf (offsetTo (spellingOf target)) = some (.aggregate target false) := by
  have hstring : spellingOf target ≠ "flatbuffers::String" := h.unreserved "String"
  have hvector : between? "flatbuffers::Vector<" ">" (spellingOf target) = none := by
    rw [Option.eq_none_iff_forall_ne_some]
    intro element helement
    refine h.unreserved ("Vector<" ++ element ++ ">") ?_
    rw [eq_append_of_between? helement, ← String.append_assoc, ← String.append_assoc]
    rfl
  rw [read?_offsetTo, if_neg hstring, if_neg h.ne_void, hvector, h.found]
  rfl

/-- Reading the spelling of a type gives its stored type, if the aggregates in it are named. -/
theorem read?_text_stored {type : TypeRef}
    (h : ∀ name fixed, type.NamesAggregate name fixed → IsNamed spellingOf targetOf name) :
    read? targetOf (type.stored.text spellingOf) = some type.stored := by
  induction type with
  | scalar kind enumName => exact read?_scalar kind
  | bool => exact read?_scalar .ubyte
  | string => rw [TypeRef.stored, text, read?_offsetTo, if_pos rfl]
  | vector element ih =>
    rw [TypeRef.stored, text, read?_offsetTo, if_neg (vectorOf_ne rfl _),
      if_neg (vectorOf_ne rfl _), between?_vectorOf]
    dsimp only
    rw [ih fun name fixed hname ↦ h name fixed (.vector hname)]
    rfl
  | aggregate target fixed =>
    have hnamed : IsNamed spellingOf targetOf target := h target fixed .aggregate
    cases fixed with
    | true =>
      rw [TypeRef.stored, text, read?_struct, hnamed.found]
      rfl
    | false => exact read?_table hnamed
  | union tagEnum =>
    rw [TypeRef.stored, text, read?_offsetTo, if_neg (by decide), if_pos rfl]

end StoredType

/-! ## Spellings in a schema -/

namespace Schema

variable {s : Schema} {type : TypeRef} {key : String}

/-- The spelling of an aggregate that can be spelled. -/
def aggregateSpelling (s : Schema) (key : String) : String :=
  (s.pointee (.aggregate key true)).toOption.getD ""

/-- The first aggregate of a spelling. -/
def spelledAggregate? (s : Schema) (spelling : String) : Option String :=
  (s.aggregates.entries.find? fun (_, a) ↦ s.qualify a.scope a.name = .ok spelling).map Prod.fst

/-- Aggregates are spelled differently from each other and from what the runtime library calls its
own. -/
structure SpellsAggregatesApart (s : Schema) : Prop where
  distinct : (s.aggregates.values.map fun a ↦ s.qualify a.scope a.name).Nodup
  ne_void : ∀ a ∈ s.aggregates.values, s.qualify a.scope a.name ≠ .ok "void"
  unreserved : ∀ a ∈ s.aggregates.values, ∀ rest,
    s.qualify a.scope a.name ≠ .ok ("flatbuffers::" ++ rest)

/-- An aggregate that can be spelled is spelled so, whatever layout a reference takes it to have. -/
theorem pointee_aggregate (h : s.ReachesAggregate key) (fixed : Bool) :
    s.pointee (.aggregate key fixed) = .ok (s.aggregateSpelling key) := by
  obtain ⟨a, ha, hscope⟩ := h
  obtain ⟨spelling, hspelling⟩ : Succeeds (s.qualify a.scope a.name) :=
    succeeds_qualify.mpr hscope
  rw [aggregateSpelling, pointee_of_get? ha, pointee_of_get? ha, hspelling]
  rfl

theorem wireSpelling_eq_text (h : s.ReachesAggregates type) :
    s.wireSpelling "" false type = .ok (type.stored.text s.aggregateSpelling) := by
  induction type with
  | scalar kind enumName | bool =>
    rw [wireSpelling_of_isScalar rfl, String.append_empty]
    rfl
  | string | union tagEnum =>
    rw [wireSpelling_of_not_isScalar rfl]
    exact congrArg Except.ok String.append_empty
  | vector element ih =>
    rw [wireSpelling_of_not_isScalar rfl, pointee_vector,
      ih fun name fixed hname ↦ h name fixed (.vector hname)]
    exact congrArg Except.ok String.append_empty
  | aggregate target fixed =>
    rw [wireSpelling_of_not_isScalar rfl, pointee_aggregate (h target fixed .aggregate)]
    cases fixed with
    | true => rfl
    | false => exact congrArg Except.ok String.append_empty

namespace SpellsAggregatesApart

variable (hapart : s.SpellsAggregatesApart)

include hapart

theorem isNamed (h : s.ReachesAggregate key) :
    StoredType.IsNamed s.aggregateSpelling s.spelledAggregate? key := by
  obtain ⟨a, ha, hscope⟩ := id h
  have hentry : (key, a) ∈ s.aggregates.entries := Declarations.get?_eq_some_iff.mp ha
  have hmem : a ∈ s.aggregates.values := Declarations.mem_values_of_get? ha
  have hspelling : s.qualify a.scope a.name = .ok (s.aggregateSpelling key) := by
    rw [← pointee_of_get? ha, pointee_aggregate h true]
  refine ⟨?_, ?_, ?_⟩
  · obtain ⟨entry, hfind⟩ : ∃ entry, s.aggregates.entries.find? (fun (_, a) ↦
        s.qualify a.scope a.name = .ok (s.aggregateSpelling key)) = some entry := by
      rw [← Option.isSome_iff_exists, List.find?_isSome]
      exact ⟨_, hentry, decide_eq_true hspelling⟩
    -- no two declarations have this spelling, so that the first one is the only one
    have hspelled : s.qualify entry.2.scope entry.2.name = .ok (s.aggregateSpelling key) := by
      simpa using List.find?_some hfind
    have hdistinct := hapart.distinct
    rw [Declarations.values, List.map_map] at hdistinct
    have hfound : entry = (key, a) :=
      List.inj_on_of_nodup_map hdistinct (List.mem_of_find?_eq_some hfind) hentry
        (hspelled.trans hspelling.symm)
    rw [spelledAggregate?, hfind, hfound]
    rfl
  · intro hvoid
    rw [hvoid] at hspelling
    exact hapart.ne_void a hmem hspelling
  · intro rest hrest
    rw [hrest] at hspelling
    exact hapart.unreserved a hmem rest hspelling

end SpellsAggregatesApart

end Schema

/-- **Storage spellings.** In a loaded schema whose aggregates are spelled differently from each
other and from what the runtime library calls its own, every type that loading accepts has a storage
spelling. Two types, of whatever depth, have the same one if and only if they are stored alike. -/
theorem storageSpellings_separate {d : Document} {s : Schema} (h : Schema.ofDocument d = .ok s)
    (hapart : s.SpellsAggregatesApart) {owner owner' : String} {type type' : TypeRef}
    (htype : s.checkType owner type = .ok ()) (htype' : s.checkType owner' type' = .ok ()) :
    ∃ spelling spelling', s.wireSpelling "" false type = .ok spelling ∧
      s.wireSpelling "" false type' = .ok spelling' ∧
      (spelling = spelling' ↔ type.stored = type'.stored) := by
  have hsound : s.Sound := Schema.sound_of_ofDocument h
  have hreaches {owner : String} {type : TypeRef} (htype : s.checkType owner type = .ok ()) :
      s.ReachesAggregates type :=
    (hsound.spells_of_declares (Schema.checkType_eq_ok.mp htype)).1.2
  have hread {owner : String} {type : TypeRef} (htype : s.checkType owner type = .ok ()) :
      StoredType.read? s.spelledAggregate? (type.stored.text s.aggregateSpelling) =
        some type.stored :=
    StoredType.read?_text_stored fun name fixed hname ↦
      hapart.isNamed (hreaches htype name fixed hname)
  refine ⟨_, _, Schema.wireSpelling_eq_text (hreaches htype),
    Schema.wireSpelling_eq_text (hreaches htype'), ?_, ?_⟩
  · intro heq
    have hsame : some type.stored = some type'.stored := by
      rw [← hread htype, ← hread htype', heq]
    exact Option.some.inj hsame
  · intro heq
    rw [heq]

/-- Values of an enumeration and truth values are stored alike in vectors; structs in a vector are
told from a vector of them. -/
theorem storageSpellings_separate_mutual : ∃ s, Schema.ofDocument mutualDocument = .ok s ∧
    s.SpellsAggregatesApart ∧
    s.checkType "" (.vector (.scalar .utype (some "Game.Any"))) = .ok () ∧
    s.checkType "" (.vector (.aggregate "Game.Leaf" true)) = .ok () ∧
    s.wireSpelling "" false (.vector (.scalar .utype (some "Game.Any"))) =
      s.wireSpelling "" false (.vector .bool) ∧
    s.wireSpelling "" false (.vector (.aggregate "Game.Leaf" true)) ≠
      s.wireSpelling "" false (.vector (.vector (.aggregate "Game.Leaf" true))) := by
  obtain ⟨s, hs, hspelled, hany, hbool, hleaf, hleaves⟩ : ∃ s,
      Schema.ofDocument mutualDocument = .ok s ∧
      s.aggregates.values.map (fun a ↦ s.qualify a.scope a.name) =
        [.ok "Base::Node", .ok "Leaf"] ∧
      s.checkType "" (.vector (.scalar .utype (some "Game.Any"))) = .ok () ∧
      s.checkType "" (.vector .bool) = .ok () ∧
      s.checkType "" (.vector (.aggregate "Game.Leaf" true)) = .ok () ∧
      s.checkType "" (.vector (.vector (.aggregate "Game.Leaf" true))) = .ok () :=
    ⟨_, rfl, rfl, rfl, rfl, rfl, rfl⟩
  have hmem : ∀ a ∈ s.aggregates.values,
      s.qualify a.scope a.name ∈ [.ok "Base::Node", .ok "Leaf"] := by
    intro a ha
    rw [← hspelled]
    exact List.mem_map_of_mem ha
  have hapart : s.SpellsAggregatesApart := by
    refine ⟨by rw [hspelled]; decide, ?_, ?_⟩
    · intro a ha hvoid
      have hlisted := hmem a ha
      rw [hvoid] at hlisted
      revert hlisted
      decide
    · intro a ha rest hrest
      have hlisted := hmem a ha
      rw [hrest] at hlisted
      simp [← String.toList_inj] at hlisted
  obtain ⟨_, _, hspelling, hspelling', halike⟩ := storageSpellings_separate hs hapart hany hbool
  obtain ⟨_, _, hflat, hnested, hapart'⟩ := storageSpellings_separate hs hapart hleaf hleaves
  refine ⟨s, hs, hapart, hany, hleaf, ?_, ?_⟩
  · rw [hspelling, hspelling', halike.mpr rfl]
  · rw [hflat, hnested]
    intro heq
    exact absurd (hapart'.mp (Except.ok.inj heq)) (by decide)

end BufferSchema
