import BufferSchema.Header.Root
import BufferSchema.Proofs.Header.Collisions
import BufferSchema.Proofs.Schema.Idempotence
import BufferSchema.Proofs.Schema.Soundness

/-!
# Spellings of the root type

The root type of a schema may be declared in any of its namespaces: a name with a dot is taken to be
qualified, whatever namespace is active. The root helpers stand in the active namespace and spell
the type at six places, four of them behind its path. The helper for buffers that can be changed
takes the bare name for both of its places, and so is right only where the path does not matter.
-/

namespace BufferSchema

/-! ## Paths without dots -/

theorem scopedName_append (front back : String) :
    scopedName (front ++ back) = scopedName front ++ scopedName back := by
  rw [scopedName, scopedName, scopedName, String.toList_append, List.flatMap_append,
    String.ofList_append]

theorem scopedName_eq_self {name : String} (h : '.' ∉ name.toList) : scopedName name = name := by
  rw [← String.toList_inj, scopedName, String.toList_ofList]
  have hself : ∀ c ∈ name.toList, (if c = '.' then [':', ':'] else [c]) = [c] := by
    intro c hc
    refine if_neg ?_
    rintro rfl
    exact h hc
  rw [List.flatMap_congr hself, List.flatMap_singleton']

/-- Generated code joins the same path by its own separator. -/
theorem scopedName_path {ns : Namespace} {name : String}
    (hns : ∀ component ∈ ns.components, '.' ∉ component.toList) (hname : '.' ∉ name.toList) :
    scopedName (ns.path "." name) = ns.path "::" name := by
  obtain ⟨components⟩ := ns
  dsimp only at hns
  rw [Namespace.path, Namespace.path]
  induction components with
  | nil => exact scopedName_eq_self hname
  | cons component components ih =>
    obtain ⟨hcomponent, hcomponents⟩ := List.forall_mem_cons.mp hns
    have hseparator : scopedName "." = "::" := rfl
    rw [List.foldr_cons, List.foldr_cons, scopedName_append, scopedName_append, hseparator,
      scopedName_eq_self hcomponent, ih hcomponents]

theorem Namespace.length_le_length_path (ns : Namespace) (separator name : String) :
    name.length ≤ (ns.path separator name).length := by
  rw [path_eq_append, String.length_append]
  exact Nat.le_add_left _ _

theorem Namespace.path_eq_self_iff {ns : Namespace} {name : String} :
    ns.path "::" name = name ↔ ns = root := by
  constructor
  · intro h
    obtain ⟨components⟩ := ns
    cases components with
    | nil => rfl
    | cons component components =>
      have hrest := length_le_length_path ⟨components⟩ "::" name
      have hpath : path ⟨component :: components⟩ "::" name =
          component ++ "::" ++ path ⟨components⟩ "::" name := rfl
      have hlength := congrArg String.length h
      have hseparator : "::".length = 2 := rfl
      rw [hpath, String.length_append, String.length_append, hseparator] at hlength
      omega
  · rintro rfl
    rfl

/-! ## Places -/

/-- A place where the root helpers spell the type of the root. -/
inductive RootPlace where
  /-- What the reader returns. -/
  | readResult
  /-- What the reader takes the buffer for. -/
  | readArgument
  /-- What the reader of a buffer that can be changed returns. -/
  | changeResult
  /-- What that reader takes the buffer for. -/
  | changeArgument
  /-- What the verifier takes the buffer for. -/
  | verified
  /-- The offset that a buffer is finished with. -/
  | finished
  deriving DecidableEq, Repr

/-- Whether a place is in the reader of buffers that can be changed. -/
def RootPlace.changes : RootPlace → Bool
  | .changeResult | .changeArgument => true
  | .readResult | .readArgument | .verified | .finished => false

/-- Whether the helper with a place is emitted. -/
def RootPlace.Occurs (place : RootPlace) (options : Options) : Prop :=
  place.changes = true → options.mutableBuffer = true

/-- The root helpers of a type, in which `spell` tells how a place is spelled. Where `passed` is
set, the last of them passes the identifier. -/
def spelledHelpers (s : Schema) (options : Options) (name : String) (spell : RootPlace → String)
    (passed : Bool) : List InlineFunction :=
  [{  result := "const " ++ spell .readResult ++ " *"
      name := "Get" ++ name
      parameters := "const void *buf"
      statement := "return flatbuffers::GetRoot<" ++ spell .readArgument ++ ">(buf);" }] ++
  (if options.mutableBuffer then
    [{  result := spell .changeResult ++ " *"
        name := "GetMutable" ++ name
        parameters := "void *buf"
        statement :=
          "return flatbuffers::GetMutableRoot<" ++ spell .changeArgument ++ ">(buf);" }]
  else []) ++
  [{  result := "bool "
      name := "Verify" ++ name ++ "Buffer"
      parameters := "flatbuffers::Verifier &verifier"
      statement := "return verifier.VerifyBuffer<" ++ spell .verified ++ ">();" }] ++
  (match s.fileIdentifier with
  | none => []
  | some value => [RootHelper.identifier name value, RootHelper.hasIdentifier name]) ++
  (match s.fileExtension with
  | none => []
  | some value => [RootHelper.extension name value]) ++
  [{  result := "void "
      name := "Finish" ++ name ++ "Buffer"
      parameters := "flatbuffers::FlatBufferBuilder &fbb, " ++ offsetTo (spell .finished) ++ " root"
      statement :=
        "fbb.Finish(root" ++ (if passed then ", " ++ name ++ "Identifier()" else "") ++ ");" }]

/-- The spelling of a place: bare in the reader of buffers that can be changed, and the whole path
in all others. -/
def RootPlace.spelling (path name : String) (place : RootPlace) : String :=
  if place.changes then name else path

variable {s : Schema} {options : Options}

theorem Schema.rootHelpers_eq_spelled {key : String} {root : Aggregate}
    (hroot : s.rootType = some key) (hget : s.aggregates.get? key = some root) :
    s.rootHelpers options =
      .ok (spelledHelpers s options root.name (RootPlace.spelling (scopedName key) root.name)
        s.fileIdentifier.isSome) := by
  have hfound : s.rootAggregate = .ok (some (key, root)) := by
    rw [rootAggregate, hroot]
    dsimp only
    rw [aggregate_eq_ok.mpr hget]
    rfl
  rw [rootHelpers, hfound]
  rfl

/-! ## Identifiers -/

/-- Texts around a name do not amount to one behind it, if they have a character that it has not. -/
private theorem around_ne_behind {front name back behind : String} (c : Char)
    (hc : c ∈ front.toList ∨ c ∈ back.toList) (hbehind : c ∉ behind.toList) :
    front ++ name ++ back ≠ name ++ behind := by
  intro h
  have hcount := congrArg (fun text : String ↦ text.toList.count c) h
  have hzero : behind.toList.count c = 0 := List.count_eq_zero.mpr hbehind
  have hpositive : 0 < front.toList.count c ∨ 0 < back.toList.count c :=
    hc.imp List.count_pos_iff.mpr List.count_pos_iff.mpr
  simp only [String.toList_append, List.count_append] at hcount
  omega

theorem exists_identifier_iff (s : Schema) (options : Options) (name : String)
    (spell : RootPlace → String) (passed : Bool) :
    (∃ f ∈ spelledHelpers s options name spell passed, f.name = name ++ "Identifier") ↔
      s.fileIdentifier.isSome = true := by
  have hget : "Get" ++ name ≠ name ++ "Identifier" := by
    rw [← String.append_empty (s := "Get" ++ name)]
    exact around_ne_behind 'G' (by decide) (by decide)
  have hmutable : "GetMutable" ++ name ≠ name ++ "Identifier" := by
    rw [← String.append_empty (s := "GetMutable" ++ name)]
    exact around_ne_behind 'G' (by decide) (by decide)
  have hverify : "Verify" ++ name ++ "Buffer" ≠ name ++ "Identifier" :=
    around_ne_behind 'B' (by decide) (by decide)
  have hfinish : "Finish" ++ name ++ "Buffer" ≠ name ++ "Identifier" :=
    around_ne_behind 'B' (by decide) (by decide)
  have hextension : name ++ "Extension" ≠ name ++ "Identifier" := by
    rw [← String.empty_append (s := name ++ "Extension"), ← String.append_assoc]
    exact around_ne_behind 'E' (by decide) (by decide)
  constructor
  · rintro ⟨f, hf, hname⟩
    by_contra hnone
    rw [Option.not_isSome_iff_eq_none] at hnone
    rw [spelledHelpers, hnone] at hf
    simp only [List.append_assoc, List.mem_append, List.mem_singleton, List.not_mem_nil,
      false_or] at hf
    rcases hf with rfl | hf | rfl | hf | rfl
    · exact hget hname
    · split at hf
      · obtain rfl := List.mem_singleton.mp hf
        exact hmutable hname
      · exact absurd hf List.not_mem_nil
    · exact hverify hname
    · split at hf
      · exact absurd hf List.not_mem_nil
      · obtain rfl := List.mem_singleton.mp hf
        exact hextension hname
    · exact hfinish hname
  · intro h
    obtain ⟨value, hvalue⟩ := Option.isSome_iff_exists.mp h
    refine ⟨RootHelper.identifier name value, ?_, rfl⟩
    rw [spelledHelpers, hvalue]
    simp

/-! ## Where the spellings lead -/

/-- A spelling leads to a declaration of a namespace: it has the whole path, or it is bare and the
path is that of the active namespace. -/
def Schema.LeadsTo (s : Schema) (ns : Namespace) (name spelling : String) : Prop :=
  spelling = ns.path "::" name ∨ spelling = name ∧ ns = s.activeNamespace

theorem RootPlace.leadsTo_spelling_iff {ns : Namespace} {name : String} (place : RootPlace) :
    s.LeadsTo ns name (place.spelling (ns.path "::" name) name) ↔
      (place.changes = true → ns = .root ∨ ns = s.activeNamespace) := by
  rw [Schema.LeadsTo, spelling]
  by_cases hchanges : place.changes = true
  · rw [if_pos hchanges, forall_prop_of_true hchanges, eq_comm, Namespace.path_eq_self_iff,
      and_iff_right rfl]
  · rw [if_neg hchanges]
    exact iff_of_true (.inl rfl) fun h ↦ absurd h hchanges

/-- **Spellings of the root type.** The root helpers of a loaded schema spell the type of the root
with its whole path, but for the reader of buffers that can be changed, which spells it bare. So all
the spellings lead to the root unless there is such a reader and the root is declared behind a path
that is not the active one; a root type that was named without a dot is never there. The helper that
finishes a buffer passes an identifier exactly if there is a function that tells it. -/
theorem rootHelpers_lead_to_root_iff {d : Document} {s : Schema}
    (hs : Schema.ofDocument d = .ok s) (options : Options)
    (hpaths : ∀ ns ∈ s.namespaces, ∀ component ∈ ns.components, '.' ∉ component.toList)
    (hnames : ∀ a ∈ s.aggregates.values, '.' ∉ a.name.toList)
    {key : String} (hkey : s.rootType = some key) :
    ∃ root ns helpers passed, s.aggregates.get? key = some root ∧
      s.namespaceAt root.scope = .ok ns ∧ s.rootHelpers options = .ok helpers ∧
      helpers = spelledHelpers s options root.name
        (RootPlace.spelling (ns.path "::" root.name) root.name) passed ∧
      (∀ place : RootPlace,
        s.LeadsTo ns root.name (place.spelling (ns.path "::" root.name) root.name) ↔
          (place.changes = true → ns = .root ∨ ns = s.activeNamespace)) ∧
      ((∀ place : RootPlace, place.Occurs options →
          s.LeadsTo ns root.name (place.spelling (ns.path "::" root.name) root.name)) ↔
        (options.mutableBuffer = true → ns = .root ∨ ns = s.activeNamespace)) ∧
      (∀ given, d.rootType = some given → '.' ∉ given.toList → ns = s.activeNamespace) ∧
      (passed = true ↔ ∃ f ∈ helpers, f.name = root.name ++ "Identifier") := by
  have hsound := Schema.sound_of_ofDocument hs
  obtain ⟨root, hroot⟩ := Declarations.exists_get?_of_mem_keys (hsound.root_declared key hkey)
  obtain ⟨ns, hns, hqualified⟩ := Schema.exists_namespaceAt_of_aggregate hs hroot
  have hname : '.' ∉ root.name.toList := hnames root (Declarations.mem_values_of_get? hroot)
  have hcomponents : ∀ component ∈ ns.components, '.' ∉ component.toList :=
    hpaths ns (Schema.mem_of_namespaceAt_eq_ok hns)
  rw [Namespace.qualifiedName, if_neg hname] at hqualified
  have hscoped : scopedName key = ns.path "::" root.name := by
    rw [hqualified, scopedName_path hcomponents hname]
  refine ⟨root, ns, _, _, hroot, hns, Schema.rootHelpers_eq_spelled hkey hroot, by rw [hscoped],
    fun place ↦ place.leadsTo_spelling_iff, ?_, fun given hgiven hdot ↦ ?_, ?_⟩
  · simp only [RootPlace.leadsTo_spelling_iff]
    constructor
    · intro h hmutable
      exact h .changeResult (fun _ ↦ hmutable) rfl
    · intro h place hoccurs hchanges
      exact h (hoccurs hchanges)
  · have hholds := (Schema.holds_of_ofDocument hs).rootType
    rw [hkey, hgiven, Option.map_some, Option.some_inj, Namespace.qualifiedName, if_neg hdot,
      hqualified] at hholds
    have hactive : s.activeNamespace ∈ s.namespaces := List.getLast_mem _
    exact (Namespace.eq_of_path_eq (c := '.') rfl hcomponents hname (hpaths _ hactive) hdot
      hholds).1
  · exact (exists_identifier_iff _ _ _ _ _).symm

/-- A document whose root type comes from an included schema and another namespace than the active
one, which has a type of the same name. -/
def abroadDocument : Document :=
  { namesakeDocument with
    aggregates := [⟨"Monster", 1, false, [], 0, 1, false, [], true⟩,
      ⟨"Monster", 2, false, [], 0, 1, false, [], false⟩]
    rootType := some "Base.Monster"
    fileIdentifier := some "MONS" }

theorem rootHelpers_lead_to_root_iff_abroad : ∃ s, Schema.ofDocument abroadDocument = .ok s ∧
    (∀ ns ∈ s.namespaces, ∀ component ∈ ns.components, '.' ∉ component.toList) ∧
    (∀ a ∈ s.aggregates.values, '.' ∉ a.name.toList) ∧ s.rootType = some "Base.Monster" ∧
    ∃ root ns, s.aggregates.get? "Base.Monster" = some root ∧ ns ≠ s.activeNamespace ∧
      ∀ place : RootPlace, place.Occurs {} →
        s.LeadsTo ns root.name (place.spelling (ns.path "::" root.name) root.name) := by
  refine ⟨_, rfl, by decide, by decide, rfl, ?_⟩
  obtain ⟨root, ns, -, -, hroot, hns, -, -, -, hleads, -, -⟩ :=
    rootHelpers_lead_to_root_iff (d := abroadDocument) rfl {} (by decide) (by decide) rfl
  refine ⟨root, ns, hroot, ?_, hleads.mpr nofun⟩
  obtain rfl := Option.some.inj hroot
  obtain rfl := Except.ok.inj hns
  decide

/-- With such a reader, the root of that document is taken for its namesake in the active
namespace. -/
theorem rootHelpers_miss_root : ∃ s helpers, Schema.ofDocument abroadDocument = .ok s ∧
    (∀ ns ∈ s.namespaces, ∀ component ∈ ns.components, '.' ∉ component.toList) ∧
    (∀ a ∈ s.aggregates.values, '.' ∉ a.name.toList) ∧ s.rootType = some "Base.Monster" ∧
    (s.aggregates.get? "Base.Monster").map Aggregate.scope = some 1 ∧
    s.namespaceAt 1 = .ok ⟨["Base"]⟩ ∧ s.activeNamespace = ⟨["Game"]⟩ ∧
    s.rootHelpers { mutableBuffer := true } = .ok helpers ∧
    (helpers.map InlineFunction.line)[1]? =
      some ("inline Monster *GetMutableMonster(void *buf) \x7b " ++
        "return flatbuffers::GetMutableRoot<Monster>(buf); \x7d") ∧
    ¬ s.LeadsTo ⟨["Base"]⟩ "Monster" "Monster" := by
  refine ⟨_, _, rfl, by decide, by decide, rfl, rfl, rfl, rfl, rfl, by decide, ?_⟩
  rintro (hpath | ⟨-, hactive⟩)
  · exact absurd hpath (by decide)
  · exact absurd hactive (by decide)

end BufferSchema
