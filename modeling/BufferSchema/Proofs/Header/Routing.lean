import BufferSchema.Proofs.Header.Dispatch
import BufferSchema.Proofs.Header.Forward
import BufferSchema.Proofs.Schema.Names
import BufferSchema.Proofs.Text.Numeral

/-!
# Routing of discriminants

The declaration of an enumeration and the body of its dispatcher are emitted apart, and the spelling
of entries is all that ties one to the other. Here they are put together as a compiler does it: the
declaration gives every entry its number, the labels of the switch are looked up there, and the
switch is run on a number.

## The law

`RoutesAsDeclared` is stated about the two as data, so that it holds whatever the enumeration is
called. The cases of a dispatcher stand in the order of the values, and the label of each one stands
for the number of its value: `switch_of_ofEnum_eq_ok` says so, and is all that the law needs to know
about emitters. What remains is a run of a switch. It ends at the first case of its number, which
`exists_route_eq` finds by induction on the cases, since no two values have one number.

## The text

A second step reads the data off the emitted lines. The readers take a line apart at blanks and at
words of the language, and they skip documentation by the way its lines begin. So they find again
what was written as long as names are identifiers; a name with a blank in it would not be found.
-/

namespace BufferSchema

/-! ## Scopes and switches -/

/-- What a dispatcher answers for a discriminant. -/
inductive Route where
  /-- There is no payload to verify. -/
  | valid
  | verify (target : String)
  | invalid
  deriving DecidableEq, Repr

/-- An enumeration as its declaration tells it. -/
structure EnumScope where
  name : String
  /-- Entries are known behind the name of the enumeration only. -/
  qualified : Bool
  entries : List (String × Int)
  deriving DecidableEq, Repr

/-- A case of a switch. -/
structure SwitchCase where
  label : String
  route : Route
  deriving DecidableEq, Repr

namespace EnumScope

/-- The number that a label stands for. -/
def number? (scope : EnumScope) (label : String) : Option Int :=
  if scope.qualified then do
    let entry ← label.toList.dropPrefix? (scope.name ++ "::").toList
    scope.entries.lookup (String.ofList entry)
  else scope.entries.lookup label

/-- Where a switch goes on a number: to the case of that number, and to its default if there is
none. -/
def route (scope : EnumScope) (cases : List SwitchCase) (number : Int) : Route :=
  match cases.find? fun c ↦ scope.number? c.label = some number with
  | some c => c.route
  | none => .invalid

end EnumScope

/-- The scope that the declaration of a fragment makes. -/
def EnumFragment.scope (fragment : EnumFragment) : EnumScope where
  name := fragment.name
  qualified := fragment.storage.isSome
  entries := fragment.entries.map fun entry ↦ (entry.name, entry.value.toInt)

/-- A case as a switch has it. -/
def DispatchCase.switchCase (c : DispatchCase) : SwitchCase where
  label := c.label
  route :=
    match c.target with
    | none => .valid
    | some target => .verify target

/-- The switch in the body of a dispatcher. -/
def EnumFragment.switch? (fragment : EnumFragment) : Option (List SwitchCase) :=
  fragment.dispatcher.map fun d ↦ d.cases.map DispatchCase.switchCase

/-! ## The law of routing -/

/-- The payload of a value is verified as the aggregate that the value selects. -/
def VerifiesPayload (s : Schema) (v : EnumValue) (route : Route) : Prop :=
  ∃ name a target, v.unionType = some name ∧ s.aggregates.get? name = some a ∧
    s.qualify a.scope a.name = .ok target ∧ route = .verify target

/-- A switch routes numbers as an enumeration declares them: the first value needs no payload, every
later one has its payload verified as the aggregate that it selects, and all other numbers fail. -/
structure RoutesAsDeclared (s : Schema) (e : Enumeration) (scope : EnumScope)
    (cases : List SwitchCase) : Prop where
  /-- Every label stands for the number of a value; there is one for each value, in their order. -/
  labels : cases.map (fun c ↦ scope.number? c.label) = e.values.map fun v ↦ some v.value.toInt
  once : ∀ v ∈ e.values,
    (cases.map fun c ↦ scope.number? c.label).count (some v.value.toInt) = 1
  first : ∀ v ∈ e.values.head?, scope.route cases v.value.toInt = .valid
  later : ∀ v ∈ e.values.tail, VerifiesPayload s v (scope.route cases v.value.toInt)
  others : ∀ number : Int, (∀ v ∈ e.values, v.value.toInt ≠ number) →
    scope.route cases number = .invalid

variable {s : Schema} {options : Options} {e : Enumeration} {fragment : EnumFragment}
  {scope : EnumScope}

/-! ### Labels -/

theorem EnumFragment.scope_of_ofEnum_eq_ok (h : EnumFragment.ofEnum s options e = .ok fragment) :
    fragment.scope = ⟨e.name, options.scopedEnums,
      e.values.map fun v ↦ (e.entryName options v, v.value.toInt)⟩ := by
  rw [EnumFragment.ofEnum] at h
  obtain ⟨dispatcher, -, h⟩ := Attempt.ite_bind_eq_ok.mp h
  obtain rfl := Attempt.pure_eq_ok.mp h
  rw [scope, List.map_map]
  cases options.scopedEnums <;> rfl

theorem Enumeration.entryName_injective {v v' : EnumValue}
    (h : e.entryName options v = e.entryName options v') : v.name = v'.name := by
  rw [entryName, entryName] at h
  split at h
  · exact (String.append_right_inj _).mp h
  · exact h

theorem lookup_map_of_nodup {values : List EnumValue} (hnodup : (values.map EnumValue.name).Nodup)
    {v : EnumValue} (hv : v ∈ values) :
    (values.map fun v ↦ (e.entryName options v, v.value.toInt)).lookup (e.entryName options v) =
      some v.value.toInt := by
  obtain ⟨before, after, rfl⟩ := List.append_of_mem hv
  rw [List.lookup_eq_some_iff]
  refine ⟨before.map fun v ↦ (e.entryName options v, v.value.toInt),
    after.map fun v ↦ (e.entryName options v, v.value.toInt), by simp, ?_⟩
  rintro p hp
  obtain ⟨w, hw, rfl⟩ := List.mem_map.mp hp
  rw [bne_iff_ne]
  intro heq
  rw [List.map_append, List.nodup_append] at hnodup
  obtain ⟨-, -, hdisjoint⟩ := hnodup
  exact hdisjoint w.name (List.mem_map_of_mem hw) v.name
    (List.mem_map_of_mem List.mem_cons_self) (Enumeration.entryName_injective heq).symm

/-- A reference to a value stands for its number, under all ways to name entries. -/
theorem EnumFragment.number?_entryReference (h : EnumFragment.ofEnum s options e = .ok fragment)
    (hnodup : (e.values.map EnumValue.name).Nodup) {v : EnumValue} (hv : v ∈ e.values) :
    fragment.scope.number? (e.entryReference options v) = some v.value.toInt := by
  rw [scope_of_ofEnum_eq_ok h, EnumScope.number?, Enumeration.entryReference]
  cases options.scopedEnums with
  | false => exact lookup_map_of_nodup hnodup hv
  | true =>
    have hentry : (e.name ++ "::" ++ e.entryName options v).toList.dropPrefix?
        (e.name ++ "::").toList = some (e.entryName options v).toList := by
      rw [String.toList_append]
      exact List.dropPrefix?_append_of_beq _ BEq.rfl
    rw [if_pos rfl, if_pos rfl, hentry, Option.bind_eq_bind, Option.bind_some,
      String.ofList_toList]
    exact lookup_map_of_nodup hnodup hv

/-! ### Runs of a switch -/

namespace EnumScope

variable {c : SwitchCase} {cases : List SwitchCase} {values : List EnumValue} {number : Int}

theorem route_cons_of_eq (h : scope.number? c.label = some number) :
    scope.route (c :: cases) number = c.route := by
  have hpos : decide (scope.number? c.label = some number) = true := decide_eq_true h
  rw [route, List.find?_cons, hpos]

theorem route_cons_of_ne (h : scope.number? c.label ≠ some number) :
    scope.route (c :: cases) number = scope.route cases number := by
  have hneg : decide (scope.number? c.label = some number) = false := decide_eq_false h
  rw [route, List.find?_cons, hneg]
  rfl

theorem route_of_forall_ne (h : ∀ c ∈ cases, scope.number? c.label ≠ some number) :
    scope.route cases number = .invalid := by
  induction cases with
  | nil => rfl
  | cons c cases ih =>
    obtain ⟨hc, hcases⟩ := List.forall_mem_cons.mp h
    rw [route_cons_of_ne hc, ih hcases]

/-- Where each case has the number of its value and no two values have one number, a switch goes to
the case of the value. -/
theorem exists_route_eq {R : EnumValue → SwitchCase → Prop}
    (h : List.Forall₂ (fun v c ↦ scope.number? c.label = some v.value.toInt ∧ R v c) values cases)
    (hnodup : (values.map EnumValue.value).Nodup) {v : EnumValue} (hv : v ∈ values) :
    ∃ c, R v c ∧ scope.route cases v.value.toInt = c.route := by
  induction h with
  | nil => exact absurd hv List.not_mem_nil
  | @cons w c values cases hw _ ih =>
    obtain ⟨hnumber, hc⟩ := hw
    rw [List.map_cons, List.nodup_cons] at hnodup
    rcases List.mem_cons.mp hv with rfl | hv
    · exact ⟨c, hc, route_cons_of_eq hnumber⟩
    · obtain ⟨c', hc', hroute⟩ := ih hnodup.2 hv
      refine ⟨c', hc', (route_cons_of_ne ?_).trans hroute⟩
      rw [hnumber]
      intro heq
      have hvalue : w.value = v.value := Int64.toInt_inj.mp (Option.some.inj heq)
      exact hnodup.1 (hvalue ▸ List.mem_map_of_mem hv)

end EnumScope

/-! ### The cases of a dispatcher -/

theorem Dispatcher.forall₂_of_payloadCases_eq_ok {values : List EnumValue}
    {cases : List DispatchCase} (h : payloadCases s options e values = .ok cases) :
    List.Forall₂ (fun v c ↦ c.label = e.entryReference options v ∧
      VerifiesPayload s v c.switchCase.route) values cases := by
  refine (Attempt.mapM_eq_ok.mp h).imp fun v c hcase ↦ ?_
  cases htype : v.unionType with
  | none =>
    rw [htype] at hcase
    exact absurd hcase Attempt.throw_ne_ok
  | some name =>
    rw [htype] at hcase
    obtain ⟨a, ha, hcase⟩ := Attempt.bind_eq_ok.mp hcase
    obtain ⟨target, htarget, hcase⟩ := Attempt.bind_eq_ok.mp hcase
    obtain rfl := Attempt.pure_eq_ok.mp hcase
    exact ⟨rfl, name, a, target, htype, Schema.aggregate_eq_ok.mp ha, htarget, rfl⟩

/-- A union with its first value apart, and the cases of its dispatcher likewise. -/
theorem Dispatcher.cases_of_ofEnum_eq_ok {d : Dispatcher}
    (h : Dispatcher.ofEnum s options e = .ok d) :
    (e.values = [] ∧ d.cases = []) ∨ ∃ first rest cases, e.values = first :: rest ∧
      d.cases = ⟨e.entryReference options first, none⟩ :: cases ∧
      List.Forall₂ (fun v c ↦ c.label = e.entryReference options v ∧
        VerifiesPayload s v c.switchCase.route) rest cases := by
  rw [Dispatcher.ofEnum] at h
  split at h
  · next hvalues =>
    obtain rfl := Attempt.pure_eq_ok.mp h
    exact .inl ⟨hvalues, rfl⟩
  · next first rest hvalues =>
    obtain ⟨cases, hcases, h⟩ := Attempt.bind_eq_ok.mp h
    obtain rfl := Attempt.pure_eq_ok.mp h
    exact .inr ⟨first, rest, cases, hvalues, rfl, forall₂_of_payloadCases_eq_ok hcases⟩

theorem Dispatcher.exists_value_of_mem_cases {d : Dispatcher}
    (h : Dispatcher.ofEnum s options e = .ok d) {c : DispatchCase} (hc : c ∈ d.cases) :
    ∃ v ∈ e.values, c.label = e.entryReference options v := by
  rcases cases_of_ofEnum_eq_ok h with ⟨-, hcases⟩ | ⟨first, rest, cases, hvalues, hcases, hlater⟩
  · rw [hcases] at hc
    exact absurd hc List.not_mem_nil
  · rw [hcases] at hc
    rw [hvalues]
    rcases List.mem_cons.mp hc with rfl | hc
    · exact ⟨first, List.mem_cons_self, rfl⟩
    · obtain ⟨v, hv, hlabel, -⟩ := Attempt.exists_mem_left_of_forall₂ hlater hc
      exact ⟨v, List.mem_cons_of_mem _ hv, hlabel⟩

/-- The switch of a union with its first case apart: every label stands for its value, and every
case but the first one verifies the payload of its value. -/
theorem EnumFragment.switch_of_ofEnum_eq_ok (h : EnumFragment.ofEnum s options e = .ok fragment)
    {d : Dispatcher} (hd : Dispatcher.ofEnum s options e = .ok d)
    (hnames : (e.values.map EnumValue.name).Nodup) :
    (e.values = [] ∧ d.cases.map DispatchCase.switchCase = []) ∨
      ∃ first rest c cases, e.values = first :: rest ∧
        d.cases.map DispatchCase.switchCase = c :: cases ∧
        fragment.scope.number? c.label = some first.value.toInt ∧ c.route = .valid ∧
        List.Forall₂ (fun v c ↦ fragment.scope.number? c.label = some v.value.toInt ∧
          VerifiesPayload s v c.route) rest cases := by
  have hnumber {v : EnumValue} (hv : v ∈ e.values) :
      fragment.scope.number? (e.entryReference options v) = some v.value.toInt :=
    number?_entryReference h hnames hv
  rcases Dispatcher.cases_of_ofEnum_eq_ok hd with ⟨hvalues, hcases⟩ |
    ⟨first, rest, cases, hvalues, hcases, hlater⟩
  · exact .inl ⟨hvalues, by rw [hcases, List.map_nil]⟩
  · rw [hvalues] at hnumber
    refine .inr ⟨first, rest, ⟨e.entryReference options first, .valid⟩,
      cases.map DispatchCase.switchCase, hvalues, by rw [hcases]; rfl,
      hnumber List.mem_cons_self, rfl, ?_⟩
    rw [List.forall₂_map_right_iff]
    refine ((List.forall₂_and_left (p := (· ∈ rest)) _ _).mpr ⟨fun _ hv ↦ hv, hlater⟩).imp ?_
    rintro v c ⟨hv, hlabel, hpayload⟩
    refine ⟨?_, hpayload⟩
    have hlabel' : c.switchCase.label = e.entryReference options v := hlabel
    rw [hlabel', hnumber (List.mem_cons_of_mem _ hv)]

theorem EnumFragment.routesAsDeclared (h : EnumFragment.ofEnum s options e = .ok fragment)
    {d : Dispatcher} (hd : Dispatcher.ofEnum s options e = .ok d)
    (hnames : (e.values.map EnumValue.name).Nodup)
    (hvalues : (e.values.map EnumValue.value).Nodup) :
    RoutesAsDeclared s e fragment.scope (d.cases.map DispatchCase.switchCase) := by
  have hswitch := switch_of_ofEnum_eq_ok h hd hnames
  have hpairs : List.Forall₂ (fun v c ↦ fragment.scope.number? c.label = some v.value.toInt)
      e.values (d.cases.map DispatchCase.switchCase) := by
    rcases hswitch with ⟨hall, hcases⟩ | ⟨first, rest, c, cases, hall, hcases, hc, -, hlater⟩
    · rw [hall, hcases]
      exact .nil
    · rw [hall, hcases]
      exact .cons hc (hlater.imp fun _ _ hcase ↦ hcase.1)
  have hlabels : (d.cases.map DispatchCase.switchCase).map
      (fun c ↦ fragment.scope.number? c.label) = e.values.map fun v ↦ some v.value.toInt := by
    have heq : List.Forall₂ Eq (e.values.map fun v ↦ some v.value.toInt)
        ((d.cases.map DispatchCase.switchCase).map fun c ↦ fragment.scope.number? c.label) := by
      rw [List.forall₂_map_left_iff, List.forall₂_map_right_iff]
      exact hpairs.imp fun _ _ hnumber ↦ hnumber.symm
    rw [List.forall₂_eq_eq_eq] at heq
    exact heq.symm
  have hnumbers : (e.values.map fun v ↦ some v.value.toInt).Nodup :=
    nodup_map_of_imp hvalues fun _ _ heq ↦ Int64.toInt_inj.mp (Option.some.inj heq)
  exact
    { labels := hlabels
      once := fun v hv ↦ by
        rw [hlabels]
        exact List.count_eq_one_of_mem hnumbers (List.mem_map_of_mem hv)
      first := fun v hv ↦ by
        rcases hswitch with ⟨hall, -⟩ | ⟨first, rest, c, cases, hall, hcases, hc, hvalid, -⟩
        · rw [hall] at hv
          exact absurd hv (Option.not_mem_none v)
        · rw [hall] at hv
          obtain rfl : first = v := Option.some.inj hv
          rw [hcases, EnumScope.route_cons_of_eq hc, hvalid]
      later := fun v hv ↦ by
        rcases hswitch with ⟨hall, -⟩ | ⟨first, rest, c, cases, hall, hcases, hc, -, hlater⟩
        · rw [hall] at hv
          exact absurd hv List.not_mem_nil
        · rw [hall] at hv hvalues
          obtain ⟨hfirst, hrest⟩ := List.nodup_cons.mp hvalues
          obtain ⟨c', hpayload, hroute⟩ := EnumScope.exists_route_eq hlater hrest hv
          have hne : fragment.scope.number? c.label ≠ some v.value.toInt := by
            rw [hc]
            intro heq
            have hvalue : first.value = v.value := Int64.toInt_inj.mp (Option.some.inj heq)
            exact hfirst (hvalue ▸ List.mem_map_of_mem hv)
          rwa [hcases, EnumScope.route_cons_of_ne hne, hroute]
      others := fun number hnumber ↦ by
        refine EnumScope.route_of_forall_ne fun c hc ↦ ?_
        obtain ⟨v, hv, hlabel⟩ := Attempt.exists_mem_left_of_forall₂ hpairs hc
        rw [hlabel]
        exact fun heq ↦ hnumber v hv (Option.some.inj heq) }

/-! ## Readers of emitted lines

None of the readers knows how lines are written: each of them is a partial function on lines, which
fails on what it does not expect. -/

/-- Whether a line is one of documentation. -/
def isDocLine (indent line : String) : Bool :=
  (indent ++ "///").toList.isPrefixOf line.toList

namespace EnumScope

/-- What the line tells that begins a declaration: the name, and whether it is a scope. -/
def readHead? (line : String) : Option (String × Bool) := do
  let inner ← between? "enum " " \x7b" line
  if isIdentifier inner then return (inner, false)
  let rest ← inner.toList.dropPrefix? "class ".toList
  return (String.ofList (rest.takeWhile (· != ' ')), true)

/-- The entry on a line of a declaration. -/
def entryOfLine? (line : String) : Option (String × Int) := do
  let rest ← line.toList.dropPrefix? "  ".toList
  let number ← (rest.dropWhile (· != ' ')).dropPrefix? " = ".toList
  return (String.ofList (rest.takeWhile (· != ' ')),
    ← integer64? (String.ofList (number.takeWhile (· != ','))))

/-- The entries up to the end of a declaration. Lines of documentation tell nothing. -/
def readEntries? : List String → Option (List (String × Int))
  | [] => none
  | line :: rest =>
    if line = "\x7d;" then some []
    else if isDocLine "  " line then readEntries? rest
    else do return (← entryOfLine? line) :: (← readEntries? rest)

/-- The enumeration that lines declare, behind its documentation. -/
def read? (lines : List String) : Option EnumScope :=
  match lines.dropWhile (isDocLine "") with
  | [] => none
  | head :: rest => do
    let (name, qualified) ← readHead? head
    return ⟨name, qualified, ← readEntries? rest⟩

end EnumScope

/-- Where a statement behind a label goes. -/
def Route.read? (statement : String) : Option Route :=
  if statement = " return true;" then some .valid
  else .verify <$> between? " return verifier.VerifyTable(reinterpret_cast<const "
    " *>(union_obj));" statement

namespace SwitchCase

/-- The case on a line of a switch. -/
def read? (line : String) : Option SwitchCase := do
  let rest ← line.toList.dropPrefix? "    case ".toList
  let label ← between? "" ":" (String.ofList (rest.takeWhile (· != ' ')))
  return ⟨label, ← Route.read? (String.ofList (rest.dropWhile (· != ' ')))⟩

/-- The cases up to the default of a switch, which fails. -/
def readAll? : List String → Option (List SwitchCase)
  | [] => none
  | line :: rest =>
    if line = "    default: return false;" then some []
    else do return (← read? line) :: (← readAll? rest)

/-- The switch in the lines of a function. -/
def readSwitch? : List String → Option (List SwitchCase)
  | _ :: line :: rest => if line = "  switch (type) \x7b" then readAll? rest else none
  | _ => none

end SwitchCase

/-! ## What is read of a declaration -/

theorem isDocLine_of_mem_docLines {indent line : String} {doc : List String}
    (h : line ∈ docLines indent doc) : isDocLine indent line = true := by
  obtain ⟨text, -, rfl⟩ := List.mem_map.mp h
  have htext : (indent ++ "///" ++ text).toList = (indent ++ "///").toList ++ text.toList :=
    String.toList_append
  rw [isDocLine, List.isPrefixOf_iff_prefix, htext]
  exact List.prefix_append _ _

theorem takeWhile_append_blank {word : List Char} (h : ' ' ∉ word) (rest : List Char) :
    (word ++ ' ' :: rest).takeWhile (· != ' ') = word ∧
      (word ++ ' ' :: rest).dropWhile (· != ' ') = ' ' :: rest := by
  rw [List.takeWhile_append_of_pos (bne_of_notMem h),
    List.dropWhile_append_of_pos (bne_of_notMem h)]
  exact ⟨List.append_nil _, rfl⟩

namespace EnumScope

theorem readHead?_plain {name : String} (h : isIdentifier name = true) :
    readHead? ("enum " ++ name ++ " \x7b") = some (name, false) := by
  rw [readHead?, between?_append, Option.bind_eq_bind, Option.bind_some, if_pos h]
  rfl

theorem readHead?_class {name : String} (h : isIdentifier name = true) (storage : String) :
    readHead? ("enum class " ++ name ++ " : " ++ storage ++ " \x7b") = some (name, true) := by
  have hline : "enum class " ++ name ++ " : " ++ storage ++ " \x7b" =
      "enum " ++ ("class " ++ (name ++ (" : " ++ storage))) ++ " \x7b" := by
    have hclass : "enum class " = "enum " ++ "class " := rfl
    rw [hclass]
    simp only [String.append_assoc]
  have hplain : isIdentifier ("class " ++ (name ++ (" : " ++ storage))) = false := by
    by_contra hinner
    refine not_mem_of_isIdentifier (Bool.not_eq_false _ ▸ hinner) (c := ' ') rfl ?_
    rw [String.toList_append]
    exact List.mem_append_left _ (by decide)
  have hrest : ("class " ++ (name ++ (" : " ++ storage))).toList.dropPrefix? "class ".toList =
      some (name.toList ++ ' ' :: (": " ++ storage).toList) := by
    have hparts : (name ++ (" : " ++ storage)).toList =
        name.toList ++ ' ' :: (": " ++ storage).toList := by
      simp
    rw [String.toList_append, hparts]
    exact List.dropPrefix?_append_of_beq _ BEq.rfl
  obtain ⟨hname, -⟩ := takeWhile_append_blank (not_mem_of_isIdentifier h (c := ' ') rfl)
    (": " ++ storage).toList
  rw [hline, readHead?, between?_append, Option.bind_eq_bind, Option.bind_some, if_neg
    (Bool.eq_false_iff.mp hplain), hrest, Option.bind_eq_bind, Option.bind_some, hname,
    String.ofList_toList]
  rfl

theorem entryOfLine?_line {name : String} (h : isIdentifier name = true) (value : Int64)
    (last : Bool) :
    entryOfLine? ("  " ++ name ++ " = " ++ toString value.toInt ++ (if last then "" else ",")) =
      some (name, value.toInt) := by
  have hrest : ("  " ++ name ++ " = " ++ toString value.toInt ++
      (if last then "" else ",")).toList.dropPrefix? "  ".toList =
        some (name.toList ++ ' ' :: ("= ".toList ++ ((toString value.toInt).toList ++
          (if last then "" else ",").toList))) := by
    have hparts : ("  " ++ name ++ " = " ++ toString value.toInt ++
        (if last then "" else ",")).toList = "  ".toList ++ (name.toList ++ ' ' :: ("= ".toList ++
          ((toString value.toInt).toList ++ (if last then "" else ",").toList))) := by
      simp
    rw [hparts]
    exact List.dropPrefix?_append_of_beq _ BEq.rfl
  obtain ⟨hname, hnumber⟩ := takeWhile_append_blank (not_mem_of_isIdentifier h (c := ' ') rfl)
    ("= ".toList ++ ((toString value.toInt).toList ++ (if last then "" else ",").toList))
  have hdigits : ',' ∉ (toString value.toInt).toList := notMem_toString (by decide) (by decide)
  have htext : ((toString value.toInt).toList ++ (if last then "" else ",").toList).takeWhile
      (· != ',') = (toString value.toInt).toList := by
    rw [List.takeWhile_append_of_pos (bne_of_notMem hdigits)]
    cases last <;> exact List.append_nil _
  have hbehind (rest : List Char) :
      (' ' :: ("= ".toList ++ rest)).dropPrefix? " = ".toList = some rest := by
    have hparts : ' ' :: ("= ".toList ++ rest) = " = ".toList ++ rest := rfl
    rw [hparts]
    exact List.dropPrefix?_append_of_beq _ BEq.rfl
  rw [entryOfLine?, hrest, Option.bind_eq_bind, Option.bind_some, hname, hnumber, hbehind,
    Option.bind_eq_bind, Option.bind_some, htext, String.ofList_toList, integer64?_toString,
    String.ofList_toList]
  rfl

theorem readEntries?_docLines (doc rest : List String) :
    readEntries? (docLines "  " doc ++ rest) = readEntries? rest := by
  induction doc with
  | nil => rfl
  | cons text doc ih =>
    have hmem : "  " ++ "///" ++ text ∈ docLines "  " [text] := List.mem_cons_self
    have hdoc := isDocLine_of_mem_docLines hmem
    have hend : "  " ++ "///" ++ text ≠ "\x7d;" := by
      intro heq
      have htext := congrArg String.toList heq
      revert htext
      simp
    have hlines : docLines "  " (text :: doc) ++ rest =
        ("  " ++ "///" ++ text) :: (docLines "  " doc ++ rest) := rfl
    rw [hlines, readEntries?, if_neg hend, if_pos hdoc, ih]

/-- The line of an entry neither ends a declaration nor documents it. -/
theorem entryLine_ne {name : String} (h : isIdentifier name = true) (behind : String) :
    "  " ++ name ++ behind ≠ "\x7d;" ∧ ¬ isDocLine "  " ("  " ++ name ++ behind) = true := by
  obtain ⟨c, cs, hcs, hc⟩ := exists_cons_of_isIdentifier h
  have hline : ("  " ++ name ++ behind).toList = ' ' :: ' ' :: c :: (cs ++ behind.toList) := by
    simp [hcs]
  constructor
  · intro heq
    rw [heq] at hline
    exact absurd (List.cons.inj hline).1 (by decide)
  · intro hprefix
    rw [isDocLine, List.isPrefixOf_iff_prefix, hline] at hprefix
    change ' ' :: ' ' :: '/' :: ['/', '/'] <+: _ at hprefix
    rw [List.cons_prefix_cons, List.cons_prefix_cons, List.cons_prefix_cons] at hprefix
    obtain ⟨-, -, rfl, -⟩ := hprefix
    exact Bool.false_ne_true hc

theorem readEntries?_linesOf {entries : List EnumEntry}
    (h : ∀ entry ∈ entries, isIdentifier entry.name = true) (rest : List String) :
    readEntries? (EnumEntry.linesOf entries ++ "\x7d;" :: rest) =
      some (entries.map fun entry ↦ (entry.name, entry.value.toInt)) := by
  induction entries with
  | nil => rfl
  | cons entry entries ih =>
    obtain ⟨hname, hentries⟩ := List.forall_mem_cons.mp h
    have hline : "  " ++ entry.name ++ " = " ++ toString entry.value.toInt ++
        (if entries.isEmpty then "" else ",") = "  " ++ entry.name ++
          (" = " ++ toString entry.value.toInt ++ (if entries.isEmpty then "" else ",")) := by
      simp only [String.append_assoc]
    obtain ⟨hend, hdoc⟩ := entryLine_ne hname
      (" = " ++ toString entry.value.toInt ++ (if entries.isEmpty then "" else ","))
    have hlines : EnumEntry.linesOf (entry :: entries) ++ "\x7d;" :: rest =
        docLines "  " entry.doc ++ ("  " ++ entry.name ++ " = " ++ toString entry.value.toInt ++
          (if entries.isEmpty then "" else ",")) ::
            (EnumEntry.linesOf entries ++ "\x7d;" :: rest) := by
      rw [EnumEntry.linesOf, List.append_assoc]
      rfl
    rw [← hline] at hend hdoc
    rw [hlines, readEntries?_docLines, readEntries?, if_neg hend, if_neg hdoc,
      entryOfLine?_line hname, ih hentries]
    rfl

end EnumScope

/-- The declaration of an enumeration is read as the scope that it makes. -/
theorem EnumFragment.read?_declarationLines (hname : isIdentifier fragment.name = true)
    (hentries : ∀ entry ∈ fragment.entries, isIdentifier entry.name = true) :
    EnumScope.read? fragment.declarationLines = some fragment.scope := by
  have hhead : EnumScope.readHead? fragment.headLine =
      some (fragment.name, fragment.storage.isSome) := by
    rw [headLine]
    cases fragment.storage with
    | none => exact EnumScope.readHead?_plain hname
    | some storage => exact EnumScope.readHead?_class hname storage
  have hcode : ¬ isDocLine "" fragment.headLine = true := by
    rw [headLine, isDocLine]
    cases fragment.storage <;> simp
  obtain ⟨behind, hlines⟩ : ∃ behind, fragment.declarationLines = docLines "" fragment.doc ++
      fragment.headLine :: (EnumEntry.linesOf fragment.entries ++ "\x7d;" :: behind) := by
    apply Exists.intro
    rw [declarationLines]
    simp only [List.append_assoc, List.cons_append]
    rfl
  rw [EnumScope.read?, hlines,
    List.dropWhile_append_of_pos fun _ hline ↦ isDocLine_of_mem_docLines hline,
    List.dropWhile_cons_of_neg hcode]
  dsimp only
  rw [hhead, EnumScope.readEntries?_linesOf hentries]
  rfl

/-! ## What is read of a dispatcher -/

namespace SwitchCase

theorem read?_append {label : String} (h : ' ' ∉ label.toList) (statement : String) :
    read? ("    case " ++ label ++ ":" ++ (" " ++ statement)) =
      (⟨label, ·⟩) <$> Route.read? (" " ++ statement) := by
  have hrest : ("    case " ++ label ++ ":" ++ (" " ++ statement)).toList.dropPrefix?
      "    case ".toList = some ((label.toList ++ [':']) ++ ' ' :: statement.toList) := by
    have hparts : ("    case " ++ label ++ ":" ++ (" " ++ statement)).toList =
        "    case ".toList ++ ((label.toList ++ [':']) ++ ' ' :: statement.toList) := by
      simp
    rw [hparts]
    exact List.dropPrefix?_append_of_beq _ BEq.rfl
  have hword : ' ' ∉ label.toList ++ [':'] := by
    rw [List.mem_append, not_or]
    exact ⟨h, by decide⟩
  have hlabel : between? "" ":" (String.ofList (label.toList ++ [':'])) = some label := by
    have happend := between?_append "" label ":"
    rw [String.empty_append] at happend
    rw [String.ofList_append, String.ofList_toList]
    exact happend
  have hstatement : String.ofList (' ' :: statement.toList) = " " ++ statement := by
    rw [← String.toList_inj, String.toList_ofList, String.toList_append]
    rfl
  obtain ⟨htake, hdrop⟩ := takeWhile_append_blank hword statement.toList
  rw [read?, hrest, Option.bind_eq_bind, Option.bind_some, htake, hlabel, Option.bind_eq_bind,
    Option.bind_some, hdrop, hstatement]
  cases Route.read? (" " ++ statement) <;> rfl

theorem read?_line {c : DispatchCase} (h : ' ' ∉ c.label.toList) :
    read? c.line = some c.switchCase := by
  obtain ⟨label, target⟩ := c
  cases target with
  | none =>
    have hline : DispatchCase.line ⟨label, none⟩ =
        "    case " ++ label ++ ":" ++ (" " ++ "return true;") := by
      rw [← String.toList_inj]
      simp [DispatchCase.line]
    rw [hline, read?_append h]
    rfl
  | some target =>
    let call := "return verifier.VerifyTable(reinterpret_cast<const " ++ target ++
      " *>(union_obj));"
    have hline : DispatchCase.line ⟨label, some target⟩ =
        "    case " ++ label ++ ":" ++ (" " ++ call) := by
      rw [← String.toList_inj]
      simp [DispatchCase.line, call]
    have hcall : " " ++ call = " return verifier.VerifyTable(reinterpret_cast<const " ++ target ++
        " *>(union_obj));" := by
      rw [← String.toList_inj]
      simp [call]
    have hne : " " ++ call ≠ " return true;" := by
      intro heq
      have htext := congrArg String.toList heq
      revert htext
      simp [call]
    have hroute : Route.read? (" " ++ call) = some (.verify target) := by
      rw [Route.read?, if_neg hne, hcall, between?_append]
      rfl
    rw [hline, read?_append h, hroute]
    rfl

theorem readAll?_append {cases : List DispatchCase} (h : ∀ c ∈ cases, ' ' ∉ c.label.toList)
    (rest : List String) :
    readAll? (cases.map DispatchCase.line ++ "    default: return false;" :: rest) =
      some (cases.map DispatchCase.switchCase) := by
  induction cases with
  | nil => rfl
  | cons c cases ih =>
    obtain ⟨hc, hcases⟩ := List.forall_mem_cons.mp h
    have hne : c.line ≠ "    default: return false;" := by
      intro heq
      have htext := congrArg String.toList heq
      revert htext
      simp [DispatchCase.line]
    rw [List.map_cons, List.cons_append, readAll?, if_neg hne, read?_line hc, ih hcases]
    rfl

end SwitchCase

/-- The body of a dispatcher is read as the switch in it. -/
theorem EnumFragment.readSwitch?_dispatcherLines {d : Dispatcher}
    (hd : fragment.dispatcher = some d) (h : ∀ c ∈ d.cases, ' ' ∉ c.label.toList) :
    SwitchCase.readSwitch? fragment.dispatcherLines =
      some (d.cases.map DispatchCase.switchCase) := by
  have hlines : fragment.dispatcherLines = (Dispatcher.signature d.enumName ++ " \x7b") ::
      "  switch (type) \x7b" :: (d.cases.map DispatchCase.line ++
        "    default: return false;" :: ["  \x7d", "\x7d", ""]) := by
    rw [dispatcherLines, hd]
    simp only [Dispatcher.lines, List.append_assoc]
    rfl
  rw [hlines, SwitchCase.readSwitch?, if_pos rfl, SwitchCase.readAll?_append h]

/-! ## Names of entries -/

namespace Enumeration

theorem isIdentifier_entryName (he : isIdentifier e.name = true) {v : EnumValue}
    (hv : isIdentifier v.name = true) : isIdentifier (e.entryName options v) = true := by
  rw [entryName]
  split
  · have hchars : v.name.toList.all isIdentifierChar = true :=
      List.all_eq_true.mpr fun c hc ↦ isIdentifierChar_of_mem hv hc
    exact isIdentifier_append (isIdentifier_append he rfl) hchars
  · exact hv

theorem blank_notMem_entryReference (he : isIdentifier e.name = true) {v : EnumValue}
    (hv : isIdentifier v.name = true) : ' ' ∉ (e.entryReference options v).toList := by
  have hentry : ' ' ∉ (e.entryName options v).toList :=
    not_mem_of_isIdentifier (isIdentifier_entryName he hv) rfl
  have hname : ' ' ∉ e.name.toList := not_mem_of_isIdentifier he rfl
  rw [entryReference]
  split
  · simp [hname, hentry]
  · exact hentry

end Enumeration

/-! ## Dispatchers of loaded schemas -/

/-- **Routing of discriminants.** A loaded union has a declaration and a switch, and the switch
routes every number as the union declares it, however its entries are named: there is one case for
each entry, whose label stands for the number of that entry. If the union has an identifier for a
name, both are what the emitted lines say. -/
theorem dispatcher_routes_discriminants {d : Document} {s : Schema}
    (h : Schema.ofDocument d = .ok s) (options : Options) {e : Enumeration}
    (he : e ∈ s.enums.values) (hunion : e.isUnion = true)
    (hidentifiers : ∀ v ∈ e.values, isIdentifier v.name = true)
    (hnames : (e.values.map EnumValue.name).Nodup)
    (hvalues : (e.values.map EnumValue.value).Nodup) :
    ∃ fragment switch, EnumFragment.ofEnum s options e = .ok fragment ∧
      fragment.switch? = some switch ∧ RoutesAsDeclared s e fragment.scope switch ∧
      (isIdentifier e.name = true →
        EnumScope.read? fragment.declarationLines = some fragment.scope ∧
          SwitchCase.readSwitch? fragment.dispatcherLines = some switch) := by
  obtain ⟨fragment, dispatcher, hfragment, hdispatcher, hsome⟩ :=
    (Schema.sound_of_ofDocument h).exists_dispatcher options he hunion
  refine ⟨fragment, dispatcher.cases.map DispatchCase.switchCase, hfragment,
    by rw [EnumFragment.switch?, hsome]; rfl,
    EnumFragment.routesAsDeclared hfragment hdispatcher hnames hvalues, fun hname ↦ ⟨?_, ?_⟩⟩
  · have hscope := EnumFragment.scope_of_ofEnum_eq_ok hfragment
    have hname' : fragment.name = e.name := congrArg EnumScope.name hscope
    have hentries : fragment.scope.entries =
        e.values.map fun v ↦ (e.entryName options v, v.value.toInt) :=
      congrArg EnumScope.entries hscope
    refine EnumFragment.read?_declarationLines (hname'.symm ▸ hname) fun entry hentry ↦ ?_
    have hmem : (entry.name, entry.value.toInt) ∈ fragment.scope.entries :=
      List.mem_map_of_mem hentry
    rw [hentries] at hmem
    obtain ⟨v, hv, heq⟩ := List.mem_map.mp hmem
    rw [← (Prod.mk.inj heq).1]
    exact Enumeration.isIdentifier_entryName hname (hidentifiers v hv)
  · refine EnumFragment.readSwitch?_dispatcherLines hsome fun c hc ↦ ?_
    obtain ⟨v, hv, hlabel⟩ := Dispatcher.exists_value_of_mem_cases hdispatcher hc
    rw [hlabel]
    exact Enumeration.blank_notMem_entryReference hname (hidentifiers v hv)

/-- A union whose first value is neither zero nor the least, and whose values leave gaps. -/
def gapsEnum : Enumeration :=
  ⟨"Any", 1, .byte,
    [⟨"NONE", 5, [], none⟩, ⟨"Node", -3, ["a node"], some "Base.Node"⟩,
      ⟨"Leaf", 9, [], some "Game.Leaf"⟩], true, ["any"], false⟩

theorem dispatcher_routes_discriminants_gaps :
    ∃ s fragment switch, Schema.ofDocument { mutualDocument with enums := [gapsEnum] } = .ok s ∧
      gapsEnum ∈ s.enums.values ∧ gapsEnum.isUnion = true ∧
      (∀ v ∈ gapsEnum.values, isIdentifier v.name = true) ∧
      (gapsEnum.values.map EnumValue.name).Nodup ∧ (gapsEnum.values.map EnumValue.value).Nodup ∧
      EnumFragment.ofEnum s { scopedEnums := true, prefixedEnums := true } gapsEnum =
        .ok fragment ∧
      EnumScope.read? fragment.declarationLines = some fragment.scope ∧
      SwitchCase.readSwitch? fragment.dispatcherLines = some switch ∧
      fragment.scope.route switch 5 = .valid ∧
      fragment.scope.route switch (-3) = .verify "Base::Node" ∧
      fragment.scope.route switch 0 = .invalid := by
  obtain ⟨s, hs, hmem, hnode⟩ : ∃ s,
      Schema.ofDocument { mutualDocument with enums := [gapsEnum] } = .ok s ∧
      gapsEnum ∈ s.enums.values ∧ ∀ a, s.aggregates.get? "Base.Node" = some a →
        s.qualify a.scope a.name = .ok "Base::Node" := by
    refine ⟨_, rfl, List.mem_cons_self, fun a ha ↦ ?_⟩
    obtain rfl := Option.some.inj ha
    rfl
  have hidentifiers : ∀ v ∈ gapsEnum.values, isIdentifier v.name = true := by decide
  have hnames : (gapsEnum.values.map EnumValue.name).Nodup := by decide
  have hvalues : (gapsEnum.values.map EnumValue.value).Nodup := by decide
  obtain ⟨fragment, switch, hfragment, -, hroutes, htext⟩ := dispatcher_routes_discriminants hs
    { scopedEnums := true, prefixedEnums := true } hmem rfl hidentifiers hnames hvalues
  obtain ⟨hscope, hswitch⟩ := htext rfl
  obtain ⟨name, a, target, hname, ha, htarget, hroute⟩ :=
    hroutes.later ⟨"Node", -3, ["a node"], some "Base.Node"⟩ List.mem_cons_self
  obtain rfl := Option.some.inj hname
  obtain rfl := Except.ok.inj ((hnode a ha).symm.trans htarget)
  exact ⟨s, fragment, switch, hs, hmem, rfl, hidentifiers, hnames, hvalues, hfragment, hscope,
    hswitch, hroutes.first _ rfl, hroute, hroutes.others 0 (by decide)⟩

end BufferSchema
