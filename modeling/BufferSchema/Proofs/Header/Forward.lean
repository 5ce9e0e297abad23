import BufferSchema.Proofs.Header.Emission
import BufferSchema.Proofs.Schema.Acceptance
import BufferSchema.Text.Lines

/-!
# Forward declarations

The forward declarations of a schema, told twice. As a plan: the aggregates of other namespaces are
cut into their maximal runs of one namespace, and each run is written in one block. As a text: a
reader that knows nothing of the plan, and only keeps a stack of the namespaces that are open, finds
every aggregate once, in its place and under its path, and nothing open at the end.

The reader takes lines one by one. A law says what it does on the lines of one namespace, whatever
was open before, and the text as a whole follows block by block.
-/

namespace BufferSchema

/-! ## Lines of a text -/

/-- The lines of a text, each closed by a newline; what follows the last newline is no line. -/
def closedLines (text : String) : List String :=
  (text.toList.splitOn '\n').dropLast.map String.ofList

theorem closedLines_unlines {lines : List String} (h : ∀ line ∈ lines, '\n' ∉ line.toList) :
    closedLines (unlines lines) = lines := by
  rw [closedLines]
  induction lines with
  | nil => rfl
  | cons line lines ih =>
    obtain ⟨hline, hlines⟩ := List.forall_mem_cons.mp h
    have hfree : ∀ c ∈ line.toList, (c == '\n') = false := by
      intro c hc
      rw [beq_eq_false_iff_ne]
      rintro rfl
      exact hline hc
    have hsplit : (unlines (line :: lines)).toList.splitOn '\n' =
        line.toList :: (unlines lines).toList.splitOn '\n' := by
      rw [unlines, String.toList_append, String.toList_append, List.append_assoc]
      exact List.splitOnP_append_cons_of_forall_mem hfree '\n' BEq.rfl _
    have hne : (unlines lines).toList.splitOn '\n' ≠ [] := List.splitOnP_ne_nil _ _
    rw [hsplit, List.dropLast_cons_of_ne_nil hne, List.map_cons, String.ofList_toList, ih hlines]

/-! ## Lines of scopes -/

/-- What stands in a text between two others. -/
def between? (front back text : String) : Option String := do
  let rest ← text.toList.dropPrefix? front.toList
  String.ofList <$> rest.dropSuffix? back.toList

theorem between?_append (front text back : String) :
    between? front back (front ++ text ++ back) = some text := by
  have hrest : (front ++ text ++ back).toList.dropPrefix? front.toList =
      some (text ++ back).toList := by
    rw [String.append_assoc, String.toList_append]
    exact List.dropPrefix?_append_of_beq _ BEq.rfl
  have hinner : (text ++ back).toList.dropSuffix? back.toList = some text.toList := by
    rw [String.toList_append, List.dropSuffix?_eq_some_iff]
    exact ⟨back.toList, rfl, BEq.rfl⟩
  rw [between?, hrest, Option.bind_eq_bind, Option.bind_some, hinner, Option.map_eq_map,
    Option.map_some, String.ofList_toList]

theorem eq_append_of_between? {front back text inner : String}
    (h : between? front back text = some inner) : text = front ++ inner ++ back := by
  rw [between?, Option.bind_eq_bind, Option.bind_eq_some_iff] at h
  obtain ⟨rest, hrest, h⟩ := h
  obtain ⟨cs, hcs, rfl⟩ := Option.map_eq_some_iff.mp h
  obtain ⟨front', htext, hfront⟩ := List.dropPrefix?_eq_some_iff.mp hrest
  obtain ⟨back', hback, hbeq⟩ := List.dropSuffix?_eq_some_iff.mp hcs
  rw [← String.toList_inj, htext, hback, eq_of_beq hfront, eq_of_beq hbeq, String.toList_append,
    String.toList_append, String.toList_ofList, List.append_assoc]

/-- A search for a character runs through characters among which it is not. -/
theorem bne_of_notMem {c : Char} {cs : List Char} (h : c ∉ cs) : ∀ d ∈ cs, (d != c) = true := by
  intro d hd
  rw [bne_iff_ne]
  rintro rfl
  exact h hd

/-- What a line does to the namespaces that are open. -/
inductive ScopeLine where
  | opens (component : String)
  | closes (component : String)
  | declares (name : String)
  deriving DecidableEq, Repr

namespace ScopeLine

/-- The meaning of a line, read off its first and its last words. -/
def ofLine? (line : String) : Option ScopeLine :=
  opens <$> between? "namespace " " \x7b" line <|>
    closes <$> between? "\x7d  // namespace " "" line <|>
    declares <$> between? "struct " ";" line

theorem ofLine?_open (component : String) :
    ofLine? ("namespace " ++ component ++ " \x7b") = some (.opens component) := by
  rw [ofLine?, between?_append]
  rfl

theorem ofLine?_close (component : String) :
    ofLine? ("\x7d  // namespace " ++ component) = some (.closes component) := by
  have hopen : between? "namespace " " \x7b" ("\x7d  // namespace " ++ component) = none := by
    rw [between?, String.toList_append]
    rfl
  have hclose := between?_append "\x7d  // namespace " component ""
  rw [String.append_empty] at hclose
  rw [ofLine?, hopen, hclose]
  rfl

theorem ofLine?_forwardLine (name : String) :
    ofLine? (forwardLine name) = some (.declares name) := by
  have hopen : between? "namespace " " \x7b" ("struct " ++ name ++ ";") = none := by
    rw [between?, String.toList_append, String.toList_append]
    rfl
  have hclose : between? "\x7d  // namespace " "" ("struct " ++ name ++ ";") = none := by
    rw [between?, String.toList_append, String.toList_append]
    rfl
  rw [ofLine?, forwardLine, hopen, hclose, between?_append]
  rfl

end ScopeLine

/-! ## Reading with a stack -/

/-- What a reader of scopes knows. -/
structure ScopeReader where
  /-- The components of the open namespaces, innermost first. -/
  stack : List String
  /-- The names that were declared, each with the path that was open around it. -/
  declared : List (List String × String)
  deriving DecidableEq, Repr

namespace ScopeReader

/-- Before the first line. -/
def start : ScopeReader := ⟨[], []⟩

/-- Takes a line. One that closes a namespace has to name the innermost one that is open. -/
def step (r : ScopeReader) : ScopeLine → Option ScopeReader
  | .opens component => some { r with stack := component :: r.stack }
  | .closes component =>
    match r.stack with
    | [] => none
    | top :: rest => if top = component then some { r with stack := rest } else none
  | .declares name => some { r with declared := r.declared ++ [(r.stack.reverse, name)] }

/-- Takes lines one after the other, and stops where one has no meaning or closes what is not
open. -/
def read (r : ScopeReader) (lines : List String) : Option ScopeReader :=
  lines.foldlM (fun r line ↦ ScopeLine.ofLine? line >>= r.step) r

variable {stack : List String} {declared : List (List String × String)}

theorem read_append (r : ScopeReader) (lines lines' : List String) :
    r.read (lines ++ lines') = (r.read lines).bind fun r ↦ r.read lines' := List.foldlM_append

private theorem read_cons (r : ScopeReader) {line : String} {meaning : ScopeLine}
    (h : ScopeLine.ofLine? line = some meaning) (lines : List String) :
    r.read (line :: lines) = (r.step meaning).bind fun r ↦ r.read lines := by
  rw [read, List.foldlM_cons, h]
  rfl

theorem read_opening (components : List String) :
    read ⟨stack, declared⟩ (components.map fun component ↦ "namespace " ++ component ++ " \x7b") =
      some ⟨components.reverse ++ stack, declared⟩ := by
  induction components generalizing stack with
  | nil => rfl
  | cons component components ih =>
    rw [List.map_cons, read_cons _ (ScopeLine.ofLine?_open component), step, Option.bind_some, ih,
      List.reverse_cons, List.append_assoc, List.singleton_append]

theorem read_closing (components : List String) :
    read ⟨components ++ stack, declared⟩
        (components.map fun component ↦ "\x7d  // namespace " ++ component) =
      some ⟨stack, declared⟩ := by
  induction components with
  | nil => rfl
  | cons component components ih =>
    rw [List.map_cons, read_cons _ (ScopeLine.ofLine?_close component), List.cons_append, step]
    dsimp only
    rw [if_pos rfl, Option.bind_some, ih]

theorem read_forwardLines (names : List String) :
    read ⟨stack, declared⟩ (names.map forwardLine) =
      some ⟨stack, declared ++ names.map fun name ↦ (stack.reverse, name)⟩ := by
  induction names generalizing declared with
  | nil => rw [List.map_nil, List.map_nil, List.append_nil]; rfl
  | cons name names ih =>
    rw [List.map_cons, read_cons _ (ScopeLine.ofLine?_forwardLine name), step, Option.bind_some, ih,
      List.map_cons, List.append_assoc, List.singleton_append]

/-- A block leaves open what was open, and declares its names under its path. -/
theorem read_block (block : ScopeBlock) :
    read ⟨[], declared⟩ block.lines =
      some ⟨[], declared ++ block.names.map fun name ↦ (block.path.components, name)⟩ := by
  have hopen : read ⟨[], declared⟩ block.path.openLines =
      some ⟨block.path.components.reverse ++ [], declared⟩ := read_opening _
  have hclose (declared : List (List String × String)) :
      read ⟨block.path.components.reverse ++ [], declared⟩ block.path.closeLines =
        some ⟨[], declared⟩ := read_closing _
  rw [ScopeBlock.lines, read_append, read_append, hopen, Option.bind_some, read_forwardLines,
    Option.bind_some, hclose, List.append_nil, List.reverse_reverse]

theorem read_blocks (blocks : List ScopeBlock) :
    read ⟨[], declared⟩ (blocks.flatMap ScopeBlock.lines) =
      some ⟨[], declared ++ blocks.flatMap fun block ↦
        block.names.map fun name ↦ (block.path.components, name)⟩ := by
  induction blocks generalizing declared with
  | nil => rw [List.flatMap_nil, List.flatMap_nil, List.append_nil]; rfl
  | cons block blocks ih =>
    rw [List.flatMap_cons, read_append, read_block, Option.bind_some, ih, List.flatMap_cons,
      List.append_assoc]

end ScopeReader

/-! ## The plan -/

namespace Schema

variable {s : Schema} {forward : ForwardDeclarations}

/-- A block is that of a run: it is in the namespace of every aggregate of the run, and declares
them. -/
def IsBlockOf (s : Schema) (run : List Aggregate) (block : ScopeBlock) : Prop :=
  block.names = run.map Aggregate.name ∧ ∀ a ∈ run, s.namespaceAt a.scope = .ok block.path

theorem of_forwardDeclarations_eq_ok (h : s.forwardDeclarations = .ok forward) :
    forward.active = s.activeAggregates.map Aggregate.name ∧
      List.Forall₂ s.IsBlockOf (scopeRuns s.otherAggregates) forward.blocks := by
  rw [forwardDeclarations_eq] at h
  obtain ⟨blocks, hblocks, rfl⟩ := Attempt.map_eq_ok.mp h
  refine ⟨rfl, ?_⟩
  have hruns : List.Forall₂
      (fun run block ↦ run ∈ scopeRuns s.otherAggregates ∧ s.blockOf run = .ok block)
      (scopeRuns s.otherAggregates) blocks :=
    (List.forall₂_and_left _ _).mpr ⟨fun _ hrun ↦ hrun, Attempt.mapM_eq_ok.mp hblocks⟩
  refine hruns.imp ?_
  rintro (_ | ⟨a, run⟩) block ⟨hrun, hblock⟩
  · exact absurd rfl (List.ne_nil_of_mem_splitBy hrun)
  · obtain ⟨ns, hns, hblock⟩ := Attempt.bind_eq_ok.mp hblock
    obtain rfl := Attempt.pure_eq_ok.mp hblock
    exact ⟨rfl, fun b hb ↦ by rw [scope_eq_of_mem_scopeRuns hrun b hb, hns]⟩

/-- Every aggregate is declared, where the plan puts it. -/
theorem forwardLine_mem (h : s.forwardDeclarations = .ok forward) :
    (∀ a ∈ s.activeAggregates, forwardLine a.name ∈ forward.activeLines) ∧
      ∀ a ∈ s.otherAggregates, forwardLine a.name ∈ forward.otherLines := by
  obtain ⟨hactive, hblocks⟩ := of_forwardDeclarations_eq_ok h
  refine ⟨fun a ha ↦ ?_, fun a ha ↦ ?_⟩
  · rw [ForwardDeclarations.activeLines, hactive]
    exact List.mem_map_of_mem (List.mem_map_of_mem ha)
  · rw [← List.flatten_splitBy _ s.otherAggregates] at ha
    obtain ⟨run, hrun, ha⟩ := List.mem_flatten.mp ha
    obtain ⟨block, hblock, hnames, -⟩ := Attempt.exists_mem_right_of_forall₂ hblocks hrun
    refine List.mem_flatMap.mpr ⟨block, hblock, ?_⟩
    have hline : forwardLine a.name ∈ block.names.map forwardLine := by
      rw [hnames]
      exact List.mem_map_of_mem (List.mem_map_of_mem ha)
    exact List.mem_append_left _ (List.mem_append_right _ hline)

/-- A reader finds an aggregate under its name and the path of its namespace. -/
def FoundAs (s : Schema) (a : Aggregate) (entry : List String × String) : Prop :=
  ∃ ns, s.namespaceAt a.scope = .ok ns ∧ entry = (ns.components, a.name)

/-- What the blocks of runs declare, one entry for each aggregate. -/
private theorem forall₂_foundAs {runs : List (List Aggregate)} {blocks : List ScopeBlock}
    (h : List.Forall₂ s.IsBlockOf runs blocks) :
    List.Forall₂ s.FoundAs runs.flatten
      (blocks.flatMap fun block ↦ block.names.map fun name ↦ (block.path.components, name)) := by
  induction h with
  | nil => exact .nil
  | @cons run block _ _ hblock _ ih =>
    obtain ⟨hnames, hpath⟩ := hblock
    rw [List.flatten_cons, List.flatMap_cons]
    refine List.rel_append ?_ ih
    rw [hnames, List.map_map, List.forall₂_map_right_iff, List.forall₂_same]
    exact fun a ha ↦ ⟨block.path, hpath a ha, rfl⟩

/-! ## Lines without newlines -/

/-- No name and no component holds a newline. -/
structure OnOneLine (s : Schema) : Prop where
  names : ∀ a ∈ s.aggregates.values, '\n' ∉ a.name.toList
  components : ∀ ns ∈ s.namespaces, ∀ component ∈ ns.components, '\n' ∉ component.toList

namespace OnOneLine

variable (h : s.OnOneLine)

include h

theorem not_mem_lines {run : List Aggregate} {block : ScopeBlock} (hblock : s.IsBlockOf run block)
    (hne : run ≠ []) (hrun : ∀ a ∈ run, a ∈ s.aggregates.values) :
    ∀ line ∈ block.lines, '\n' ∉ line.toList := by
  obtain ⟨hnames, hpath⟩ := hblock
  have hmem : block.path ∈ s.namespaces := by
    obtain ⟨a, ha⟩ := List.exists_mem_of_ne_nil run hne
    exact mem_of_namespaceAt_eq_ok (hpath a ha)
  intro line hline
  rw [ScopeBlock.lines, List.mem_append, List.mem_append] at hline
  rcases hline with (hline | hline) | hline
  · obtain ⟨component, hcomponent, rfl⟩ := List.mem_map.mp hline
    simp [h.components _ hmem component hcomponent]
  · rw [hnames, List.map_map] at hline
    obtain ⟨a, ha, rfl⟩ := List.mem_map.mp hline
    simp [forwardLine, h.names a (hrun a ha)]
  · obtain ⟨component, hcomponent, rfl⟩ := List.mem_map.mp hline
    simp [h.components _ hmem component (List.mem_reverse.mp hcomponent)]

theorem not_mem_otherLines
    (hblocks : List.Forall₂ s.IsBlockOf (scopeRuns s.otherAggregates) forward.blocks) :
    ∀ line ∈ forward.otherLines, '\n' ∉ line.toList := by
  intro line hline
  obtain ⟨block, hblock, hline⟩ := List.mem_flatMap.mp hline
  obtain ⟨run, hrun, hblock⟩ := Attempt.exists_mem_left_of_forall₂ hblocks hblock
  refine h.not_mem_lines hblock (List.ne_nil_of_mem_splitBy hrun) (fun a ha ↦ ?_) line hline
  have hother : a ∈ (scopeRuns s.otherAggregates).flatten := List.mem_flatten_of_mem hrun ha
  rw [scopeRuns, List.flatten_splitBy] at hother
  exact List.mem_of_mem_filter hother

end OnOneLine

end Schema

/-- **Balanced forward declarations.** A schema whose aggregates are all in a namespace that is
there has its forward declarations: those of the active namespace by name, all others in blocks, one
for each maximal run of one namespace. A reader of the blocks finds every namespace closed that was
opened, and every aggregate that is not in the active namespace once, in declaration order and under
its own path. -/
theorem forwardDeclarations_balanced {s : Schema}
    (h : ∀ a ∈ s.aggregates.values, a.scope.toNat < s.namespaces.length) :
    ∃ forward, s.forwardDeclarations = .ok forward ∧
      forward.activeLines = s.activeAggregates.map (fun a ↦ "struct " ++ a.name ++ ";") ∧
      List.Forall₂ s.IsBlockOf (scopeRuns s.otherAggregates) forward.blocks ∧
      forward.otherLines = forward.blocks.flatMap (fun block ↦
        block.path.openLines ++ block.names.map (fun name ↦ "struct " ++ name ++ ";") ++
          block.path.closeLines) ∧
      forward.blocks.length = (scopeRuns s.otherAggregates).length ∧
      (s.OnOneLine → ∃ declared,
        ScopeReader.start.read (closedLines (unlines forward.otherLines)) = some ⟨[], declared⟩ ∧
          List.Forall₂ s.FoundAs s.otherAggregates declared) := by
  obtain ⟨forward, hforward⟩ := Schema.succeeds_forwardDeclarations.mpr h
  obtain ⟨hactive, hblocks⟩ := Schema.of_forwardDeclarations_eq_ok hforward
  refine ⟨forward, hforward, ?_, hblocks, rfl, hblocks.length_eq.symm, fun hlines ↦ ?_⟩
  · rw [ForwardDeclarations.activeLines, hactive, List.map_map]
    rfl
  · refine ⟨_, ?_, List.flatten_splitBy _ s.otherAggregates ▸ Schema.forall₂_foundAs hblocks⟩
    rw [closedLines_unlines (hlines.not_mem_otherLines hblocks)]
    exact ScopeReader.read_blocks forward.blocks

/-- A document whose namespaces take turns. Two of them have one path, one is the root, and the
active one comes between two aggregates of another. -/
def interleavedDocument : Document :=
  { mutualDocument with
    namespaces := [["Base", "Core"], [], ["Base", "Core"], ["Game"]]
    enums := []
    aggregates :=
      [("Leaf", 0), ("Node", 3), ("Stem", 0), ("Bark", 1), ("Root", 2), ("Twig", 0)].map
        fun (name, scope) ↦ ⟨name, scope, true, [], 1, 1, false, [], false⟩
    rootType := none }

theorem forwardDeclarations_balanced_interleaved : ∃ s forward declared,
    Schema.ofDocument interleavedDocument = .ok s ∧
    (∀ a ∈ s.aggregates.values, a.scope.toNat < s.namespaces.length) ∧ s.OnOneLine ∧
    s.forwardDeclarations = .ok forward ∧ forward.blocks.length = 4 ∧
    ScopeReader.start.read (closedLines (unlines forward.otherLines)) = some ⟨[], declared⟩ ∧
    List.Forall₂ s.FoundAs s.otherAggregates declared := by
  obtain ⟨s, hs, hscope, hlines, hruns⟩ : ∃ s, Schema.ofDocument interleavedDocument = .ok s ∧
      (∀ a ∈ s.aggregates.values, a.scope.toNat < s.namespaces.length) ∧ s.OnOneLine ∧
      (scopeRuns s.otherAggregates).length = 4 :=
    ⟨_, rfl, by decide, ⟨by decide, by decide⟩, rfl⟩
  obtain ⟨forward, hforward, -, -, -, hlength, hread⟩ := forwardDeclarations_balanced hscope
  obtain ⟨declared, hread, hdeclared⟩ := hread hlines
  exact ⟨s, forward, declared, hs, hscope, hlines, hforward, hlength.trans hruns, hread, hdeclared⟩

end BufferSchema
