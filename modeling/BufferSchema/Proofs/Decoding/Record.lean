import BufferSchema.Decoding.Record
import BufferSchema.Json.Source
import BufferSchema.Proofs.Attempt
import Mathlib.Data.List.Nodup

/-!
# Spellings of records

A record has many spellings. Written by name, its members come in any order among members of other
names, and those whose value is the default may be left out; written by position, trailing ones may.
`SpellsRecord` says which JSON values these are, without a look at the decoder. The decoder is shown
to read the values of the record back from each of them, once for all records: a record in
particular only has to say how each of its members is read.

The decoder fills a draft member by member. The invariant is that the draft holds the right value
for each member that was met and none for the others, which is what `Draft.met` is.
-/

namespace BufferSchema

/-! ## Spellings -/

/-- How the value of a member is spelled. -/
structure MemberSpelling where
  key : String
  /-- The values that spell it. -/
  spelledBy : Json → Prop
  /-- Whether the member may be left out. -/
  omissible : Prop

/-- Named members that spell the members of a record. None of these comes twice, but members of
other names may stand anywhere. -/
structure SpellsNamed (members : List MemberSpelling) (entries : List (String × Json)) : Prop where
  once : ∀ member ∈ members, (entries.map Prod.fst).count member.key ≤ 1
  spelled : ∀ member ∈ members, ∀ v, (member.key, v) ∈ entries → member.spelledBy v
  missing : ∀ member ∈ members, member.key ∉ entries.map Prod.fst → member.omissible

/-- The values that spell a record with the given members: by name, or by position. -/
inductive SpellsRecord : List MemberSpelling → Json → Prop
  | named {members : List MemberSpelling} {entries : List (String × Json)} :
    SpellsNamed members entries → SpellsRecord members (.ofMembers entries)
  | positional {written rest : List MemberSpelling} {items : List Json} :
    List.Forall₂ (fun member v ↦ member.spelledBy v) written items →
      (∀ member ∈ rest, member.omissible) → SpellsRecord (written ++ rest) (.ofList items)

theorem SpellsNamed.of_forall₂ {written rest : List MemberSpelling} {items : List Json}
    (hnodup : ((written ++ rest).map MemberSpelling.key).Nodup)
    (hitems : List.Forall₂ (fun member v ↦ member.spelledBy v) written items)
    (hrest : ∀ member ∈ rest, member.omissible) :
    SpellsNamed (written ++ rest) ((written.map MemberSpelling.key).zip items) := by
  have hlength : (written.map MemberSpelling.key).length = items.length := by
    rw [List.length_map, hitems.length_eq]
  have hkeys : ((written.map MemberSpelling.key).zip items).map Prod.fst =
      written.map MemberSpelling.key := List.map_fst_zip (Nat.le_of_eq hlength)
  rw [List.map_append] at hnodup
  refine ⟨fun member _ ↦ ?_, fun member hmember v hv ↦ ?_, fun member hmember hmissing ↦ ?_⟩
  · rw [hkeys]
    exact List.nodup_iff_count_le_one.mp (List.nodup_append.mp hnodup).1 member.key
  · rw [List.zip_map_left, List.mem_map] at hv
    obtain ⟨⟨member', v'⟩, hzip, heq⟩ := hv
    obtain ⟨hkey, rfl⟩ := Prod.mk.inj heq
    have hsame : member' = member := by
      rw [← List.map_append] at hnodup
      exact List.inj_on_of_nodup_map hnodup
        (List.mem_append_left _ (List.of_mem_zip hzip).1) hmember hkey
    exact hsame ▸ (List.forall₂_iff_zip.mp hitems).2 hzip
  · rw [hkeys] at hmissing
    rcases List.mem_append.mp hmember with hwritten | hrest'
    · exact absurd (List.mem_map_of_mem hwritten) hmissing
    · exact hrest member hrest'

theorem SpellsRecord.of_forall₂ {members : List MemberSpelling} {entries : List (String × Json)}
    (hnodup : (members.map MemberSpelling.key).Nodup)
    (h : List.Forall₂ (fun member entry ↦ entry.1 = member.key ∧ member.spelledBy entry.2)
      members entries) : SpellsRecord members (.ofMembers entries) := by
  have hkeys : members.map MemberSpelling.key = entries.map Prod.fst := by
    clear hnodup
    induction h with
    | nil => rfl
    | cons hentry _ ih => rw [List.map_cons, List.map_cons, hentry.1, ih]
  have hvalues : List.Forall₂ (fun member v ↦ member.spelledBy v) members
      (entries.map Prod.snd) := by
    rw [List.forall₂_map_right_iff]
    exact h.imp fun _ _ hentry ↦ hentry.2
  have hall : SpellsNamed (members ++ []) _ :=
    SpellsNamed.of_forall₂ (by rwa [List.append_nil]) hvalues nofun
  rw [List.append_nil, hkeys, ← List.zip_of_prod rfl rfl] at hall
  exact .named hall

/-! ## Members -/

/-- A member of a JSON record. -/
abbrev JsonMember : Type 1 := Member Json (Except DecodeError)

/-- The member reads the value from all of its spellings, and the default is the value if the member
may be left out. -/
structure Member.Reads (member : JsonMember) (value : member.Value) (spelling : MemberSpelling) :
    Prop where
  key : member.key = spelling.key
  read : ∀ v, spelling.spelledBy v → member.read v = .ok value
  absent : spelling.omissible → member.absent = some value

/-- Each member reads its value. -/
inductive ReadsAll : (members : List JsonMember) → Filled members → List MemberSpelling → Prop
  | nil : ReadsAll [] () []
  | cons {member : JsonMember} {members : List JsonMember} {value : member.Value}
    {filled : Filled members} {spelling : MemberSpelling} {spellings : List MemberSpelling} :
    member.Reads value spelling → ReadsAll members filled spellings →
      ReadsAll (member :: members) (value, filled) (spelling :: spellings)

namespace Draft

section

variable {ν : Type} {m : Type → Type} [Monad m] [MonadExcept DecodeError m] {member : Member ν m}
  {members : List (Member ν m)} {rest : Draft members} {key : String} {v : ν}

theorem put_head (h : member.key = key) :
    put (member :: members) (none, rest) key v = (do return (some (← member.read v), rest)) :=
  if_pos h

theorem put_tail {slot : Option member.Value} (h : member.key ≠ key) :
    put (member :: members) (slot, rest) key v = (do return (slot, ← put members rest key v)) := by
  cases slot <;> exact if_neg h

end

/-- The draft in which those members were met whose keys pass a test. -/
def met (p : String → Bool) : (members : List JsonMember) → Filled members → Draft members
  | [], _ => ()
  | member :: members, (value, filled) =>
    (if p member.key then some value else none, met p members filled)

theorem met_congr {p q : String → Bool} {members : List JsonMember} (filled : Filled members)
    (h : ∀ member ∈ members, p member.key = q member.key) :
    met p members filled = met q members filled := by
  induction members with
  | nil => rfl
  | cons member members ih =>
    obtain ⟨value, filled⟩ := filled
    obtain ⟨hmember, hmembers⟩ := List.forall_mem_cons.mp h
    rw [met, met, hmember, ih filled hmembers]

theorem met_false (members : List JsonMember) (filled : Filled members) :
    met (fun _ ↦ false) members filled = empty members := by
  induction members with
  | nil => rfl
  | cons member members ih =>
    obtain ⟨value, filled⟩ := filled
    rw [met, ih filled]
    rfl

theorem put_of_notMem {members : List JsonMember} {draft : Draft members} {key : String} {v : Json}
    (h : key ∉ members.map Member.key) : put members draft key v = .ok draft := by
  induction members with
  | nil => rfl
  | cons member members ih =>
    obtain ⟨slot, rest⟩ := draft
    rw [List.map_cons, List.mem_cons, not_or] at h
    rw [put_tail (Ne.symm h.1), ih h.2]
    rfl

end Draft

namespace ReadsAll

variable {members : List JsonMember} {filled : Filled members} {spellings : List MemberSpelling}

theorem map_key_eq (h : ReadsAll members filled spellings) :
    members.map Member.key = spellings.map MemberSpelling.key := by
  induction h with
  | nil => rfl
  | cons hmember _ ih => rw [List.map_cons, List.map_cons, hmember.key, ih]

/-- One more member is met. -/
theorem put_met (h : ReadsAll members filled spellings)
    (hnodup : (members.map Member.key).Nodup) {p : String → Bool} {spelling : MemberSpelling}
    (hspelling : spelling ∈ spellings) (hp : p spelling.key = false) {v : Json}
    (hv : spelling.spelledBy v) :
    Draft.put members (Draft.met p members filled) spelling.key v =
      .ok (Draft.met (fun key ↦ p key || key = spelling.key) members filled) := by
  induction h with
  | nil => exact absurd hspelling List.not_mem_nil
  | @cons member members value filled head spellings hmember hmembers ih =>
    rw [List.map_cons, List.nodup_cons] at hnodup
    rcases List.mem_cons.mp hspelling with rfl | hspelling
    · have hrest : Draft.met (fun key ↦ p key || key = spelling.key) members filled =
          Draft.met p members filled := by
        refine Draft.met_congr filled fun other hother ↦ ?_
        have hne : other.key ≠ spelling.key := fun heq ↦
          hnodup.1 (hmember.key.trans heq.symm ▸ List.mem_map_of_mem hother)
        rw [decide_eq_false hne, Bool.or_false]
      rw [Draft.met, Draft.met, hrest, hmember.key, hp, if_neg Bool.false_ne_true,
        Draft.put_head hmember.key, hmember.read v hv, if_pos (by simp)]
      rfl
    · have hne : member.key ≠ spelling.key := fun heq ↦
        hnodup.1 (heq ▸ hmembers.map_key_eq ▸ List.mem_map_of_mem hspelling)
      rw [Draft.met, Draft.put_tail hne, ih hnodup.2 hspelling, Draft.met, decide_eq_false hne,
        Bool.or_false]
      rfl

/-- A draft is filled up if only such members were not met that may be missing. -/
theorem fill_met (h : ReadsAll members filled spellings) {p : String → Bool}
    (hmissing : ∀ spelling ∈ spellings, p spelling.key = false → spelling.omissible)
    (missing : String → Nat → DecodeError) (position : Nat) :
    Draft.fill missing members position (Draft.met p members filled) = .ok filled := by
  induction h generalizing position with
  | nil => rfl
  | @cons member members value filled head spellings hmember _ ih =>
    obtain ⟨hhead, hspellings⟩ := List.forall_mem_cons.mp hmissing
    have hvalue : (if p member.key then some value else none).or member.absent = some value := by
      by_cases hp : p member.key = true
      · rw [if_pos hp, Option.some_or]
      · rw [if_neg hp, Option.none_or]
        exact hmember.absent (hhead (hmember.key ▸ Bool.eq_false_iff.mpr hp))
    rw [Draft.met, Draft.fill, hvalue]
    dsimp only
    rw [ih hspellings (position + 1)]
    rfl

end ReadsAll

/-! ## Records -/

namespace Record

variable {α : Type} {record : Record Json (Except DecodeError) α} {filled : Filled record.members}
  {spellings : List MemberSpelling}

/-- The run of the decoder through named members. -/
theorem putNamed_met (h : ReadsAll record.members filled spellings)
    (hnodup : (record.members.map Member.key).Nodup) {entries : List (String × Json)}
    (honce : ∀ spelling ∈ spellings, (entries.map Prod.fst).count spelling.key ≤ 1)
    (hspelled : ∀ spelling ∈ spellings, ∀ v, (spelling.key, v) ∈ entries → spelling.spelledBy v)
    {p : String → Bool}
    (hp : ∀ spelling ∈ spellings, spelling.key ∈ entries.map Prod.fst → p spelling.key = false) :
    record.putNamed (Draft.met p record.members filled)
        (entries.map fun entry ↦ (some entry.1, entry.2)) =
      .ok (Draft.met (fun key ↦ p key || key ∈ entries.map Prod.fst) record.members filled) := by
  induction entries generalizing p with
  | nil =>
    rw [List.map_nil, putNamed]
    refine congrArg Except.ok (Draft.met_congr filled fun member _ ↦ ?_)
    simp
  | cons entry entries ih =>
    obtain ⟨key, v⟩ := entry
    have honce' : ∀ spelling ∈ spellings, (entries.map Prod.fst).count spelling.key ≤ 1 :=
      fun spelling hspelling ↦ Nat.le_trans List.count_le_count_cons (honce spelling hspelling)
    have hspelled' : ∀ spelling ∈ spellings, ∀ v, (spelling.key, v) ∈ entries →
        spelling.spelledBy v :=
      fun spelling hspelling v hv ↦ hspelled spelling hspelling v (List.mem_cons_of_mem _ hv)
    rw [List.map_cons, putNamed]
    by_cases hknown : key ∈ spellings.map MemberSpelling.key
    · obtain ⟨spelling, hspelling, rfl⟩ := List.mem_map.mp hknown
      have hv := hspelled spelling hspelling v List.mem_cons_self
      rw [h.put_met hnodup hspelling (hp spelling hspelling List.mem_cons_self) hv]
      refine (ih honce' hspelled' fun other hother hmem ↦ ?_).trans ?_
      · -- the member that was just met does not come again
        have hne : other.key ≠ spelling.key := by
          intro heq
          have hcount := honce spelling hspelling
          rw [List.map_cons, List.count_cons_self, ← heq] at hcount
          have hpos := List.count_pos_iff.mpr hmem
          omega
        rw [hp other hother (List.mem_cons_of_mem _ hmem), decide_eq_false hne]
        rfl
      · refine congrArg Except.ok (Draft.met_congr filled fun member _ ↦ ?_)
        simp only [List.map_cons, List.mem_cons, Bool.decide_or, Bool.or_assoc]
    · have hforeign : key ∉ record.members.map Member.key := h.map_key_eq ▸ hknown
      rw [Draft.put_of_notMem hforeign]
      refine (ih honce' hspelled' fun other hother hmem ↦
        hp other hother (List.mem_cons_of_mem _ hmem)).trans ?_
      refine congrArg Except.ok (Draft.met_congr filled fun member hmember ↦ ?_)
      have hne : member.key ≠ key := fun heq ↦ hforeign (heq ▸ List.mem_map_of_mem hmember)
      simp only [List.map_cons, List.mem_cons, hne, false_or]

theorem exists_draft (h : ReadsAll record.members filled spellings)
    (hnodup : (spellings.map MemberSpelling.key).Nodup) {entries : List (String × Json)}
    (hentries : SpellsNamed spellings entries) :
    ∃ draft, record.putNamed (.empty record.members)
        (entries.map fun entry ↦ (some entry.1, entry.2)) = .ok draft ∧
      ∀ missing position, Draft.fill missing record.members position draft = .ok filled := by
  have hrun := putNamed_met h (h.map_key_eq ▸ hnodup) hentries.once hentries.spelled
    (p := fun _ ↦ false) fun _ _ _ ↦ rfl
  rw [Draft.met_false] at hrun
  refine ⟨_, hrun, h.fill_met fun spelling hspelling hmissing ↦ ?_⟩
  rw [Bool.false_or, decide_eq_false_iff_not] at hmissing
  exact hentries.missing spelling hspelling hmissing

/-- **Every spelling of a record is read.** -/
theorem decode_of_spellsRecord (h : ReadsAll record.members filled spellings)
    (hnodup : (spellings.map MemberSpelling.key).Nodup) {j : Json} (hj : SpellsRecord spellings j)
    (title : String) :
    (do let form ← Source.record title j; record.decode form) = .ok (record.build filled) := by
  cases hj with
  | @named _ entries hentries =>
    obtain ⟨draft, hdraft, hfill⟩ := exists_draft h hnodup hentries
    refine Attempt.bind_eq_ok.mpr ⟨_, rfl, Attempt.bind_eq_ok.mpr ⟨draft, hdraft, ?_⟩⟩
    rw [if_pos rfl, hfill]
    rfl
  | @positional written rest items hitems hrest =>
    have hentries := SpellsNamed.of_forall₂ hnodup hitems hrest
    obtain ⟨draft, hdraft, hfill⟩ := exists_draft h hnodup hentries
    have hwritten : ((written.map MemberSpelling.key).map some).length = items.length := by
      rw [List.length_map, List.length_map, hitems.length_eq]
    have hkeys : record.members.map (fun member ↦ some member.key) =
        (written.map MemberSpelling.key).map some ++ (rest.map MemberSpelling.key).map some := by
      rw [← List.map_append, ← List.map_append, ← h.map_key_eq, List.map_map]
      rfl
    have hzip : (record.members.map fun member ↦ some member.key).zip items =
        ((written.map MemberSpelling.key).zip items).map fun entry ↦ (some entry.1, entry.2) := by
      calc (record.members.map fun member ↦ some member.key).zip items
        _ = ((written.map MemberSpelling.key).map some ++
              (rest.map MemberSpelling.key).map some).zip (items ++ []) := by
          rw [hkeys, List.append_nil]
        _ = ((written.map MemberSpelling.key).map some).zip items := by
          rw [List.zip_append hwritten, List.zip_nil_right, List.append_nil]
        _ = _ := List.zip_map_left
    have hlength : items.length ≤ record.members.length := by
      have hsum := congrArg List.length hkeys
      rw [List.length_append, hwritten, List.length_map] at hsum
      omega
    rw [← hzip] at hdraft
    refine Attempt.bind_eq_ok.mpr ⟨_, rfl, Attempt.bind_eq_ok.mpr ⟨draft, hdraft, ?_⟩⟩
    dsimp only
    rw [Bool.true_and, if_pos (decide_eq_true hlength), hfill]
    rfl

end Record

end BufferSchema
