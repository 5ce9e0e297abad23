import BufferSchema.Proofs.Header.Deprecation
import BufferSchema.Proofs.Header.Safety
import BufferSchema.Proofs.Header.Table
import BufferSchema.Proofs.Schema.Names

/-!
# Calls of unions

The verifier of a table leaves a union to the dispatcher of its tag enumeration, and a dispatcher
leaves a payload to the verifier of a table. Each of the two calls is made for a name that loading
has looked up and in a form that loading has not: whether the enumeration is a union, so that it has
a dispatcher, and whether the payload is a table are up to the document. This file tells both calls
apart, what holds of them in every loaded schema and what the document has to see to.

Both are told of the emitted lines: the conjunct that calls a dispatcher, the line that declares it,
and its body case by case.
-/

namespace BufferSchema

variable {s : Schema} {options : Options} {e : Enumeration} {a : Aggregate} {f : Field}

/-! ## Names -/

/-- How a name is written in the active namespace: bare if it is declared there, and behind the
components of its own namespace if not. -/
def Schema.Writes (s : Schema) (scope : NamespaceId) (name text : String) : Prop :=
  if s.isActive scope = true then text = name
  else ∃ ns, s.namespaceAt scope = .ok ns ∧
    text = String.join (ns.components.map (· ++ "::")) ++ name

theorem Schema.writes_of_qualify_eq_ok {scope : NamespaceId} {name text : String}
    (h : s.qualify scope name = .ok text) : s.Writes scope name text := by
  rw [qualify] at h
  rw [Writes]
  by_cases hactive : s.isActive scope = true
  · rw [if_pos hactive] at h ⊢
    exact (Attempt.pure_eq_ok.mp h).symm
  · rw [if_neg hactive] at h ⊢
    obtain ⟨ns, hns, h⟩ := Attempt.bind_eq_ok.mp h
    exact ⟨ns, hns, (Attempt.pure_eq_ok.mp h).symm.trans (ns.path_eq_join "::" name)⟩

/-- The label of a value in a switch: the entry of the value, behind the name of the enumeration if
that is a scope of its own. -/
def Enumeration.label (e : Enumeration) (options : Options) (v : EnumValue) : String :=
  (if options.scopedEnums then e.name ++ "::" else "") ++
    ((if options.prefixedEnums then e.name ++ "_" else "") ++ v.name)

theorem Enumeration.entryReference_eq_label (v : EnumValue) :
    e.entryReference options v = e.label options v := by
  rw [entryReference, entryName, label]
  cases options.scopedEnums <;> cases options.prefixedEnums <;> simp [String.append_assoc]

/-- How the dispatcher of an enumeration is declared. -/
def dispatcherHead (name : String) : String :=
  "inline bool Verify" ++ name ++
    "(flatbuffers::Verifier &verifier, const void *union_obj, " ++ name ++ " type)"

/-! ## Dispatchers -/

/-- A case hands the payload of a value to the verifier of an aggregate, which is the one that the
value selects, as a pointer of that type. -/
structure Schema.HandsOn (s : Schema) (options : Options) (e : Enumeration) (v : EnumValue)
    (a : Aggregate) (line : String) : Prop where
  selects : ∃ name, v.unionType = some name ∧ s.aggregates.get? name = some a
  line_eq : ∃ target, s.Writes a.scope a.name target ∧
    line = "    case " ++ e.label options v ++ ": " ++
      ("return verifier.VerifyTable(reinterpret_cast<const " ++ target ++ " *>(union_obj));")

theorem Dispatcher.forall₂_handsOn {values : List EnumValue} {cases : List DispatchCase}
    (h : payloadCases s options e values = .ok cases) :
    List.Forall₂ (fun v line ↦ ∃ a, s.HandsOn options e v a line) values
      (cases.map DispatchCase.line) := by
  rw [List.forall₂_map_right_iff]
  refine (Attempt.mapM_eq_ok.mp h).imp fun v c hcase ↦ ?_
  cases htype : v.unionType with
  | none =>
    rw [htype] at hcase
    exact absurd hcase Attempt.throw_ne_ok
  | some name =>
    rw [htype] at hcase
    obtain ⟨a, ha, hcase⟩ := Attempt.bind_eq_ok.mp hcase
    obtain ⟨target, htarget, hcase⟩ := Attempt.bind_eq_ok.mp hcase
    obtain rfl := Attempt.pure_eq_ok.mp hcase
    refine ⟨a, ⟨name, htype, Schema.aggregate_eq_ok.mp ha⟩, target,
      Schema.writes_of_qualify_eq_ok htarget, ?_⟩
    rw [DispatchCase.line, Enumeration.entryReference_eq_label]

theorem Dispatcher.enumName_of_ofEnum_eq_ok {d : Dispatcher}
    (h : Dispatcher.ofEnum s options e = .ok d) : d.enumName = e.name := by
  rw [Dispatcher.ofEnum] at h
  split at h
  · obtain rfl := Attempt.pure_eq_ok.mp h
    rfl
  · obtain ⟨cases, -, h⟩ := Attempt.bind_eq_ok.mp h
    obtain rfl := Attempt.pure_eq_ok.mp h
    rfl

namespace EnumFragment

variable {fragment : EnumFragment}

/-- The dispatcher of the enumeration `name` is declared beside it, and its body is deferred. -/
def DefinesDispatcher (fragment : EnumFragment) (name : String) : Prop :=
  dispatcherHead name ++ ";" ∈ fragment.declarationLines ∧
    fragment.dispatcherLines.head? = some (dispatcherHead name ++ " \x7b")

/-- The body of the dispatcher is a switch: the first value is taken for valid, the lines behind it
stand for the values from the second one on, and any other number is refused. -/
def Dispatches (fragment : EnumFragment) (options : Options) (e : Enumeration)
    (payloadLines : List String) : Prop :=
  fragment.dispatcherLines =
    [dispatcherHead e.name ++ " \x7b", "  switch (type) \x7b"] ++
      ((e.values.head?.map fun first ↦
        "    case " ++ e.label options first ++ ": " ++ "return true;").toList ++ payloadLines) ++
      ["    default: return false;", "  \x7d", "\x7d", ""]

theorem dispatcher_of_ofEnum_eq_ok (h : EnumFragment.ofEnum s options e = .ok fragment) :
    (if e.isUnion then some <$> Dispatcher.ofEnum s options e else pure none) =
      .ok fragment.dispatcher := by
  rw [EnumFragment.ofEnum] at h
  obtain ⟨dispatcher, hdispatcher, h⟩ := Attempt.ite_bind_eq_ok.mp h
  obtain rfl := Attempt.pure_eq_ok.mp h
  exact hdispatcher

theorem exists_dispatcher (h : EnumFragment.ofEnum s options e = .ok fragment)
    (hunion : e.isUnion = true) :
    ∃ d, Dispatcher.ofEnum s options e = .ok d ∧ fragment.dispatcher = some d := by
  have hdispatcher := dispatcher_of_ofEnum_eq_ok h
  rw [if_pos hunion] at hdispatcher
  obtain ⟨d, hd, hsome⟩ := Attempt.map_eq_ok.mp hdispatcher
  exact ⟨d, hd, hsome.symm⟩

/-- Unions have a dispatcher, and nothing else has. -/
theorem definesDispatcher_iff (h : EnumFragment.ofEnum s options e = .ok fragment) :
    fragment.DefinesDispatcher e.name ↔ e.isUnion = true := by
  constructor
  · rintro ⟨-, hbody⟩
    by_contra hunion
    have hdispatcher := dispatcher_of_ofEnum_eq_ok h
    rw [if_neg hunion] at hdispatcher
    rw [dispatcherLines, ← Attempt.pure_eq_ok.mp hdispatcher] at hbody
    exact nomatch hbody
  · intro hunion
    obtain ⟨d, hd, hsome⟩ := exists_dispatcher h hunion
    rw [DefinesDispatcher, declarationLines, dispatcherLines, hsome,
      ← Dispatcher.enumName_of_ofEnum_eq_ok hd]
    exact ⟨List.mem_append_right _ List.mem_cons_self, rfl⟩

theorem dispatcherLines_eq_nil_iff (h : EnumFragment.ofEnum s options e = .ok fragment) :
    fragment.dispatcherLines = [] ↔ e.isUnion = false := by
  rw [← Bool.not_eq_true, ← definesDispatcher_iff h]
  constructor
  · rintro hnil ⟨-, hbody⟩
    rw [hnil] at hbody
    exact nomatch hbody
  · intro hnone
    rw [definesDispatcher_iff h] at hnone
    have hdispatcher := dispatcher_of_ofEnum_eq_ok h
    rw [if_neg hnone] at hdispatcher
    rw [dispatcherLines, ← Attempt.pure_eq_ok.mp hdispatcher]

theorem exists_dispatches (h : EnumFragment.ofEnum s options e = .ok fragment)
    (hunion : e.isUnion = true) : ∃ payloadLines, fragment.Dispatches options e payloadLines ∧
      List.Forall₂ (fun v line ↦ ∃ a, s.HandsOn options e v a line) e.values.tail payloadLines := by
  obtain ⟨d, hd, hsome⟩ := exists_dispatcher h hunion
  simp only [Dispatches]
  rw [dispatcherLines, hsome]
  dsimp only
  rw [Dispatcher.ofEnum] at hd
  split at hd
  · next hvalues =>
    obtain rfl := Attempt.pure_eq_ok.mp hd
    rw [hvalues]
    exact ⟨[], rfl, .nil⟩
  · next first rest hvalues =>
    obtain ⟨cases, hcases, hd⟩ := Attempt.bind_eq_ok.mp hd
    obtain rfl := Attempt.pure_eq_ok.mp hd
    rw [hvalues]
    refine ⟨cases.map DispatchCase.line, ?_, Dispatcher.forall₂_handsOn hcases⟩
    rw [Dispatcher.lines, Enumeration.entryReference_eq_label]
    rfl

end EnumFragment

/-! ## Union fields -/

theorem Check.ofContent_union {tag call field : String} (he : s.enums.get? tag = some e)
    (hcall : s.qualify e.scope ("Verify" ++ e.name) = .ok call) :
    Check.ofContent s field (.union tag) = .ok [.union call field] := by
  rw [Check.ofContent, Schema.enumeration_eq_ok.mpr he]
  change (s.qualify e.scope ("Verify" ++ e.name) >>= _) = _
  rw [hcall]
  rfl

/-- The verifier of the table `a` calls the dispatcher of the enumeration `e` for the union `f`,
under the path of the namespace of `e`. -/
structure Schema.CallsDispatcher (s : Schema) (options : Options) (a : Aggregate) (f : Field)
    (e : Enumeration) : Prop where
  tags : ∃ tag, f.type = .union tag ∧ s.enums.get? tag = some e
  calls : ∃ table call, TableFragment.ofAggregate s options a = .ok table ∧
    s.tableText options a =
      .ok (unlines (table.viewLines ++ table.builderLines ++ table.createLines)) ∧
    s.Writes e.scope ("Verify" ++ e.name) call ∧ ∃ before after,
      before ++ (call ++ "(verifier, " ++ f.name ++ "(), " ++ f.name ++ "_type())") ++ after ∈
        table.viewLines

namespace Schema.Sound

variable (h : s.Sound)

include h

theorem exists_callsDispatcher (options : Options) (ha : a ∈ s.aggregates.values)
    (hf : f ∈ a.liveFields) {tag : String} (htype : f.type = .union tag) :
    ∃ e, s.CallsDispatcher options a f e := by
  obtain ⟨table, htable⟩ : Succeeds (TableFragment.ofAggregate s options a) := h.succeeds_ofTable ha
  obtain ⟨e, he, hscope⟩ := (h.spells ha (List.mem_of_mem_filter hf)).2 tag htype
  obtain ⟨call, hcall⟩ : Succeeds (s.qualify e.scope ("Verify" ++ e.name)) :=
    Schema.succeeds_qualify.mpr hscope
  obtain ⟨checks, hchecks, hsubset⟩ := TableFragment.exists_fieldChecks htable hf
  obtain ⟨type, content, -, hcontent, rfl⟩ := Check.of_ofField_eq_ok hchecks
  rw [htype, Check.ofContent_union he hcall] at hcontent
  obtain rfl := Except.ok.inj hcontent
  have hcheck : Check.union call f.name ∈ table.checks :=
    hsubset (List.mem_cons_of_mem _ List.mem_cons_self)
  obtain ⟨before, after, hline⟩ := TableFragment.checkLine_mem hcheck
  have htext : (Check.union call f.name).text =
      call ++ "(verifier, " ++ f.name ++ "(), " ++ f.name ++ "_type())" := rfl
  rw [htext] at hline
  exact ⟨e, ⟨tag, htype, he⟩, table, call, htable, by rw [Schema.tableText, htable]; rfl,
    Schema.writes_of_qualify_eq_ok hcall, before, after, hline⟩

theorem exists_dispatcher (options : Options) (he : e ∈ s.enums.values)
    (hunion : e.isUnion = true) :
    ∃ fragment d, EnumFragment.ofEnum s options e = .ok fragment ∧
      Dispatcher.ofEnum s options e = .ok d ∧ fragment.dispatcher = some d := by
  obtain ⟨fragment, hfragment⟩ : Succeeds (EnumFragment.ofEnum s options e) := h.succeeds_ofEnum he
  obtain ⟨d, hd, hsome⟩ := EnumFragment.exists_dispatcher hfragment hunion
  exact ⟨fragment, d, hfragment, hd, hsome⟩

end Schema.Sound

/-! ## Closed calls -/

namespace Schema

/-- Every live union field of a table calls a dispatcher that the fragment of its tag enumeration
defines. -/
def FieldsClosed (s : Schema) (options : Options) : Prop :=
  ∀ a ∈ s.aggregates.values, a.fixed = false → ∀ f ∈ a.liveFields, ∀ tag, f.type = .union tag →
    ∃ e fragment, s.CallsDispatcher options a f e ∧
      EnumFragment.ofEnum s options e = .ok fragment ∧ fragment.DefinesDispatcher e.name

/-- Every case of a dispatcher, but for the first one, verifies its payload as a table. -/
def CasesClosed (s : Schema) (options : Options) : Prop :=
  ∀ e ∈ s.enums.values, e.isUnion = true → ∃ fragment payloadLines,
    EnumFragment.ofEnum s options e = .ok fragment ∧ fragment.Dispatches options e payloadLines ∧
      List.Forall₂ (fun v line ↦ ∃ a, s.HandsOn options e v a line ∧ a.fixed = false)
        e.values.tail payloadLines

/-- The tag enumerations of union fields are unions. -/
def TagsUnions (s : Schema) : Prop :=
  ∀ a ∈ s.aggregates.values, a.fixed = false → ∀ f ∈ a.liveFields, ∀ tag e,
    f.type = .union tag → s.enums.get? tag = some e → e.isUnion = true

/-- The payloads of unions are tables. -/
def PayloadsTables (s : Schema) : Prop :=
  ∀ e ∈ s.enums.values, e.isUnion = true → ∀ v ∈ e.values.tail, ∀ name a,
    v.unionType = some name → s.aggregates.get? name = some a → a.fixed = false

theorem CallsDispatcher.eq_of_get? {tag : String} {e' : Enumeration}
    (h : s.CallsDispatcher options a f e) (htype : f.type = .union tag)
    (he' : s.enums.get? tag = some e') : e = e' := by
  obtain ⟨tag', htype', he⟩ := h.tags
  obtain rfl := TypeRef.union.inj (htype.symm.trans htype')
  exact Option.some.inj (he.symm.trans he')

theorem Sound.fieldsClosed_iff (h : s.Sound) : s.FieldsClosed options ↔ s.TagsUnions := by
  constructor
  · intro hclosed a ha hfixed f hf tag e htype he
    obtain ⟨e', fragment, hcalls, hfragment, hdefines⟩ := hclosed a ha hfixed f hf tag htype
    obtain rfl := hcalls.eq_of_get? htype he
    exact (EnumFragment.definesDispatcher_iff hfragment).mp hdefines
  · intro htags a ha hfixed f hf tag htype
    obtain ⟨e, hcalls⟩ := h.exists_callsDispatcher options ha hf htype
    obtain ⟨tag', htype', he⟩ := hcalls.tags
    have hunion : e.isUnion = true := htags a ha hfixed f hf tag' e htype' he
    obtain ⟨fragment, _, hfragment, -⟩ :=
      h.exists_dispatcher options (Declarations.mem_values_of_get? he) hunion
    exact ⟨e, fragment, hcalls, hfragment,
      (EnumFragment.definesDispatcher_iff hfragment).mpr hunion⟩

theorem Sound.casesClosed_iff (h : s.Sound) : s.CasesClosed options ↔ s.PayloadsTables := by
  constructor
  · intro hclosed e he hunion v hv name a htype ha
    obtain ⟨fragment, payloadLines, -, -, hcases⟩ := hclosed e he hunion
    obtain ⟨line, -, a', ⟨⟨name', htype', ha'⟩, -⟩, hfixed⟩ :=
      Attempt.exists_mem_right_of_forall₂ hcases hv
    obtain rfl : name = name' := Option.some.inj (htype.symm.trans htype')
    obtain rfl : a = a' := Option.some.inj (ha.symm.trans ha')
    exact hfixed
  · intro hpayloads e he hunion
    obtain ⟨fragment, _, hfragment, -⟩ := h.exists_dispatcher options he hunion
    obtain ⟨payloadLines, hdispatches, hcases⟩ :=
      EnumFragment.exists_dispatches hfragment hunion
    refine ⟨fragment, payloadLines, hfragment, hdispatches, ?_⟩
    have hmem := (List.forall₂_and_left (p := (· ∈ e.values.tail)) _ _).mpr ⟨fun v hv ↦ hv, hcases⟩
    refine hmem.imp ?_
    rintro v line ⟨hv, a, hhands⟩
    obtain ⟨name, htype, ha⟩ := hhands.selects
    exact ⟨a, hhands, hpayloads e he hunion v hv name a htype ha⟩

end Schema

/-- **Calls of unions.** In a loaded schema, the verifier of a table calls for every live union
field the dispatcher of the tag enumeration, which is declared, and which has a dispatcher if and
only if it is a union. A dispatcher takes its first value for valid and hands each other payload on
as the aggregate that the value selects, which is declared. So the calls are closed if and only if
all tag enumerations are unions and all payloads are tables. -/
theorem unionCalls_of_loaded {d : Document} {s : Schema} (h : Schema.ofDocument d = .ok s)
    (options : Options) :
    (∀ a ∈ s.aggregates.values, a.fixed = false → ∀ f ∈ a.liveFields, ∀ tag, f.type = .union tag →
      ∃ e fragment, s.CallsDispatcher options a f e ∧
        EnumFragment.ofEnum s options e = .ok fragment ∧
        (fragment.DefinesDispatcher e.name ↔ e.isUnion = true) ∧
        (fragment.dispatcherLines = [] ↔ e.isUnion = false)) ∧
    (∀ e ∈ s.enums.values, e.isUnion = true → ∃ fragment payloadLines,
      EnumFragment.ofEnum s options e = .ok fragment ∧ fragment.DefinesDispatcher e.name ∧
        fragment.Dispatches options e payloadLines ∧
        List.Forall₂ (fun v line ↦ ∃ a, s.HandsOn options e v a line)
          e.values.tail payloadLines) ∧
    (s.FieldsClosed options ↔ s.TagsUnions) ∧ (s.CasesClosed options ↔ s.PayloadsTables) := by
  have hs : s.Sound := Schema.sound_of_ofDocument h
  refine ⟨fun a ha _ f hf tag htype ↦ ?_, fun e he hunion ↦ ?_, hs.fieldsClosed_iff,
    hs.casesClosed_iff⟩
  · obtain ⟨e, hcalls⟩ := hs.exists_callsDispatcher options ha hf htype
    obtain ⟨tag', -, he⟩ := hcalls.tags
    obtain ⟨fragment, hfragment⟩ : Succeeds (EnumFragment.ofEnum s options e) :=
      hs.succeeds_ofEnum (Declarations.mem_values_of_get? he)
    exact ⟨e, fragment, hcalls, hfragment, EnumFragment.definesDispatcher_iff hfragment,
      EnumFragment.dispatcherLines_eq_nil_iff hfragment⟩
  · obtain ⟨fragment, _, hfragment, -⟩ := hs.exists_dispatcher options he hunion
    obtain ⟨payloadLines, hdispatches, hcases⟩ := EnumFragment.exists_dispatches hfragment hunion
    exact ⟨fragment, payloadLines, hfragment,
      (EnumFragment.definesDispatcher_iff hfragment).mpr hunion, hdispatches, hcases⟩

/-- A document with two unions in a table: `Any`, which selects `Hero`, and `Mood`, which selects
nothing. -/
def moodDocument (moodIsUnion heroIsFixed : Bool) : Document :=
  { mutualDocument with
    namespaces := [["Game"]]
    enums :=
      [⟨"Any", 0, .utype,
          [⟨"NONE", 0, [], none⟩, ⟨"Hero", 1, [], some "Game.Hero"⟩], true, [], false⟩,
        ⟨"Mood", 0, .utype, [⟨"CALM", 0, [], none⟩], moodIsUnion, [], false⟩]
    aggregates :=
      [⟨"Hero", 0, heroIsFixed, [], 1, 1, false, [], false⟩,
        ⟨"Scene", 0, false,
          [⟨"who", .union "Game.Any", 6, "0", false, false, false, 0, none, []⟩,
            ⟨"how", .union "Game.Mood", 10, "0", false, false, false, 0, none, []⟩],
          0, 1, false, [], false⟩]
    rootType := none }

theorem unionCalls_of_loaded_mood : ∃ s, Schema.ofDocument (moodDocument true false) = .ok s ∧
    s.FieldsClosed { mutableBuffer := true } ∧ s.CasesClosed { mutableBuffer := true } := by
  obtain ⟨s, hs, hunions, htables⟩ : ∃ s, Schema.ofDocument (moodDocument true false) = .ok s ∧
      (∀ e ∈ s.enums.values, e.isUnion = true) ∧ ∀ a ∈ s.aggregates.values, a.fixed = false :=
    ⟨_, rfl, by decide, by decide⟩
  obtain ⟨-, -, hfields, hcases⟩ := unionCalls_of_loaded hs { mutableBuffer := true }
  refine ⟨s, hs, hfields.mpr ?_, hcases.mpr ?_⟩
  · intro a _ _ f _ tag e _ he
    exact hunions e (Declarations.mem_values_of_get? he)
  · intro e _ _ v _ name a _ ha
    exact htables a (Declarations.mem_values_of_get? ha)

/-- A document whose calls are open on both sides: a table calls the dispatcher of an enumeration
that is no union, and a union selects a struct. -/
theorem unionCalls_open : ∃ s, Schema.ofDocument (moodDocument false true) = .ok s ∧
    ¬ s.FieldsClosed {} ∧ ¬ s.CasesClosed {} := by
  refine ⟨_, rfl, fun hclosed ↦ ?_, fun hclosed ↦ ?_⟩
  · have hs := Schema.sound_of_ofDocument (d := moodDocument false true) rfl
    have hunion := hs.fieldsClosed_iff.mp hclosed _ (List.mem_cons_of_mem _ List.mem_cons_self) rfl
      _ (List.mem_cons_of_mem _ List.mem_cons_self) _ _ rfl rfl
    exact Bool.false_ne_true hunion
  · have hs := Schema.sound_of_ofDocument (d := moodDocument false true) rfl
    have htable := hs.casesClosed_iff.mp hclosed _ List.mem_cons_self rfl
      _ List.mem_cons_self _ _ rfl rfl
    exact Bool.false_ne_true htable.symm

end BufferSchema
