import BufferSchema.Proofs.Header.NameTable
import Mathlib.Logic.Relation

/-!
# Slots of name tables

A table of value names is read by subtracting the first value, so that the names have to stand as
far apart as their values. The slots are described in two ways: by neighbours, for values in any
order, and by index, for ascending ones, where a slot belongs to a number.

`nameSlots` gives the empty names of a gap at once. `Filling` is the same work number by number,
with a counter of 64 bits that is advanced once for each empty name; the two are tied by what a
state has done and what it still has to do, which together do not change. A counter is advanced
only if it is below some value, and so it never leaves the range, not even at its ends.
-/

namespace BufferSchema

/-! ## Numbers of 64 bits -/

/-- The number behind another one; there is none in 64 bits behind the greatest. -/
def successor? (number : Int64) : Option Int64 :=
  if number = Int64.maxValue then none else some (number + 1)

theorem toInt_le_maxValue (number : Int64) : number.toInt ≤ Int64.maxValue.toInt :=
  Int64.le_iff_toInt_le.mp (Int64.le_maxValue number)

theorem toInt_add_one {number other : Int64} (h : number < other) :
    number ≠ Int64.maxValue ∧ (number + 1).toInt = number.toInt + 1 := by
  have hlt : number.toInt < other.toInt := Int64.lt_iff_toInt_lt.mp h
  have hother := toInt_le_maxValue other
  have hleast : -2 ^ 63 ≤ number.toInt := Int64.le_toInt number
  have hgreatest : Int64.maxValue.toInt = 2 ^ 63 - 1 := by decide
  have hone : (1 : Int64).toInt = 1 := by decide
  constructor
  · rintro rfl
    omega
  · rw [Int64.toInt_add, hone]
    exact Int.bmod_eq_of_le (by omega) (by omega)

theorem successor?_of_lt {number other : Int64} (h : number < other) :
    ∃ next, successor? number = some next ∧ next.toInt = number.toInt + 1 := by
  obtain ⟨hne, hnext⟩ := toInt_add_one h
  exact ⟨number + 1, if_neg hne, hnext⟩

/-- The number expected next stays at the greatest one. -/
theorem toInt_nextNumber (number : Int64) :
    (nextNumber number).toInt = min (number.toInt + 1) Int64.maxValue.toInt := by
  have hgreatest := toInt_le_maxValue number
  rw [nextNumber]
  by_cases h : number = Int64.maxValue
  · rw [if_pos h, h]
    omega
  · have hne : number.toInt ≠ Int64.maxValue.toInt := fun heq ↦ h (Int64.toInt_inj.mp heq)
    have hlt : number < Int64.maxValue := Int64.lt_iff_toInt_lt.mpr (by omega)
    rw [if_neg h, (toInt_add_one hlt).2]
    omega

/-! ## Slots by neighbours -/

/-- The names of values in their order, with an empty one for each number between a value and the
one behind it. -/
def spacedNames (first : EnumValue) (rest : List EnumValue) : List String :=
  first.name :: ((first :: rest).zip rest).flatMap fun (v, w) ↦
    List.replicate (max 0 (w.value.toInt - v.value.toInt - 1)).toNat "" ++ [w.name]

theorem nameSlots_nextNumber (v : EnumValue) (rest : List EnumValue) :
    v.name :: nameSlots (nextNumber v.value) rest = spacedNames v rest := by
  induction rest generalizing v with
  | nil => rfl
  | cons w rest ih =>
    have hgreatest := toInt_le_maxValue w.value
    have hgap : (w.value.toInt - (nextNumber v.value).toInt).toNat =
        (max 0 (w.value.toInt - v.value.toInt - 1)).toNat := by
      rw [toInt_nextNumber]
      omega
    rw [nameSlots, hgap, ih w, spacedNames, spacedNames, List.zip_cons_cons, List.flatMap_cons,
      List.append_assoc, List.singleton_append]

theorem nameSlots_cons (v : EnumValue) (rest : List EnumValue) :
    nameSlots v.value (v :: rest) = spacedNames v rest := by
  rw [nameSlots, Int.sub_self, Int.toNat_zero, List.replicate_zero, List.nil_append,
    nameSlots_nextNumber]

/-! ## Slots by index -/

/-- From the number `next` on there is a slot for each number up to the greatest value: it holds the
name of the value of that number, or nothing. -/
structure IndexedFrom (next : Int64) (values : List EnumValue) (slots : List String) : Prop where
  length : ∀ last, values.getLast? = some last →
    (slots.length : Int) = last.value.toInt - next.toInt + 1
  named : ∀ v ∈ values, slots[(v.value.toInt - next.toInt).toNat]? = some v.name
  unnamed : ∀ i < slots.length, (∀ v ∈ values, v.value.toInt ≠ next.toInt + i) →
    slots[i]? = some ""

theorem getElem?_behind (gap i : Nat) (name : String) (slots : List String) :
    (List.replicate gap "" ++ name :: slots)[gap + 1 + i]? = slots[i]? := by
  have hindex : gap + 1 + i - gap = i + 1 := by omega
  have hlength : (List.replicate gap "").length ≤ gap + 1 + i := by
    rw [List.length_replicate]
    omega
  rw [List.getElem?_append_right hlength, List.length_replicate, hindex, List.getElem?_cons_succ]

theorem IndexedFrom.cons {next : Int64} {value : EnumValue} {rest : List EnumValue}
    {slots : List String} (hnext : next ≤ value.value) (hless : ∀ v ∈ rest, value.value < v.value)
    (hnil : rest = [] → slots = []) (h : IndexedFrom (nextNumber value.value) rest slots) :
    IndexedFrom next (value :: rest)
      (List.replicate (value.value.toInt - next.toInt).toNat "" ++ value.name :: slots) := by
  have hle : next.toInt ≤ value.value.toInt := Int64.le_iff_toInt_le.mp hnext
  -- nothing is lost at the greatest number, because no value is behind it
  have hbehind : ∀ v ∈ rest, (nextNumber value.value).toInt = value.value.toInt + 1 ∧
      value.value.toInt + 1 ≤ v.value.toInt := by
    intro v hv
    have hlt := Int64.lt_iff_toInt_lt.mp (hless v hv)
    have hgreatest := toInt_le_maxValue v.value
    rw [toInt_nextNumber]
    omega
  have hgap : ((value.value.toInt - next.toInt).toNat : Int) =
      value.value.toInt - next.toInt := by omega
  generalize (value.value.toInt - next.toInt).toNat = gap at hgap
  refine ⟨?_, ?_, ?_⟩
  · intro last hlast
    rw [List.length_append, List.length_replicate, List.length_cons]
    cases rest with
    | nil =>
      obtain rfl : value = last := Option.some.inj hlast
      rw [hnil rfl, List.length_nil]
      omega
    | cons w rest =>
      rw [List.getLast?_cons_cons] at hlast
      have hlength := h.length last hlast
      have hsucc := (hbehind w List.mem_cons_self).1
      omega
  · intro v hv
    rcases List.mem_cons.mp hv with rfl | hv
    · have hindex : (v.value.toInt - next.toInt).toNat = gap := by omega
      have hlength : (List.replicate gap "").length ≤ gap := by simp
      rw [hindex, List.getElem?_append_right hlength, List.length_replicate, Nat.sub_self]
      rfl
    · obtain ⟨hsucc, hbeyond⟩ := hbehind v hv
      have hindex : (v.value.toInt - next.toInt).toNat =
          gap + 1 + (v.value.toInt - (nextNumber value.value).toInt).toNat := by omega
      rw [hindex, getElem?_behind, h.named v hv]
  · intro i hi hfree
    rcases Nat.lt_trichotomy i gap with hlt | rfl | hlt
    · have hlength : i < (List.replicate gap "").length := by simpa using hlt
      rw [List.getElem?_append_left hlength, List.getElem?_replicate, if_pos hlt]
    · exact absurd (by omega) (hfree value List.mem_cons_self)
    · obtain ⟨j, rfl⟩ : ∃ j, i = gap + 1 + j := ⟨i - (gap + 1), by omega⟩
      rw [List.length_append, List.length_replicate, List.length_cons] at hi
      have hj : j < slots.length := by omega
      rw [getElem?_behind]
      apply h.unnamed j hj
      intro v hv
      have hne := hfree v (List.mem_cons_of_mem value hv)
      have hsucc := (hbehind v hv).1
      omega

/-- Ascending values have their names where their numbers are. -/
theorem indexedFrom_nameSlots {next : Int64} {values : List EnumValue}
    (hascending : values.Pairwise fun v w ↦ v.value < w.value)
    (hnext : ∀ v ∈ values, next ≤ v.value) : IndexedFrom next values (nameSlots next values) := by
  induction values generalizing next with
  | nil =>
    refine ⟨fun last hlast ↦ (nomatch hlast), fun v hv ↦ absurd hv List.not_mem_nil, ?_⟩
    intro i hi
    exact absurd hi (Nat.not_lt_zero i)
  | cons value rest ih =>
    obtain ⟨hless, hrest⟩ := List.pairwise_cons.mp hascending
    have hbehind : ∀ v ∈ rest, nextNumber value.value ≤ v.value := by
      intro v hv
      have hlt := Int64.lt_iff_toInt_lt.mp (hless v hv)
      rw [Int64.le_iff_toInt_le, toInt_nextNumber]
      omega
    have hnil : rest = [] → nameSlots (nextNumber value.value) rest = [] := by
      rintro rfl
      rfl
    exact (ih hrest hbehind).cons (hnext value List.mem_cons_self) hless hnil

/-! ## Slots number by number -/

/-- The slots of a table while they are put together: the number expected next, the values that
have no slot yet, and the slots there are. -/
structure Filling where
  next : Int64
  values : List EnumValue
  slots : List String

namespace Filling

/-- One slot more. It is an empty one as long as the next value lies beyond the expected number,
which is then counted on; the other slots have names. -/
inductive Step : Filling → Filling → Prop
  | gap {next next' : Int64} {value : EnumValue} {rest : List EnumValue} {slots : List String}
      (hlt : next < value.value) (hnext : successor? next = some next') :
      Step ⟨next, value :: rest, slots⟩ ⟨next', value :: rest, slots ++ [""]⟩
  | name {next : Int64} {value : EnumValue} {rest : List EnumValue} {slots : List String}
      (hle : ¬ next < value.value) :
      Step ⟨next, value :: rest, slots⟩ ⟨nextNumber value.value, rest, slots ++ [value.name]⟩

/-- Any number of slots more. -/
def Run : Filling → Filling → Prop := Relation.ReflTransGen Step

/-- The slots there are, and those that are still to come. -/
def promised (f : Filling) : List String := f.slots ++ nameSlots f.next f.values

variable {f f' : Filling}

theorem exists_step (h : f.values ≠ []) : ∃ f', f.Step f' := by
  obtain ⟨next, values, slots⟩ := f
  obtain ⟨value, rest, rfl⟩ := List.exists_cons_of_ne_nil h
  by_cases hlt : next < value.value
  · obtain ⟨next', hnext, -⟩ := successor?_of_lt hlt
    exact ⟨_, .gap hlt hnext⟩
  · exact ⟨_, .name hlt⟩

/-- A step adds the first slot that was still to come. -/
theorem Step.promised_eq (h : f.Step f') : f'.promised = f.promised := by
  cases h with
  | @gap next next' value rest slots hlt hnext =>
    obtain ⟨number, hnumber, hsucc⟩ := successor?_of_lt hlt
    obtain rfl : number = next' := Option.some.inj (hnumber.symm.trans hnext)
    have hlt' := Int64.lt_iff_toInt_lt.mp hlt
    have hgap : (value.value.toInt - next.toInt).toNat =
        (value.value.toInt - number.toInt).toNat + 1 := by omega
    simp only [promised, nameSlots, hgap, List.replicate_succ, List.append_assoc, List.cons_append,
      List.nil_append]
  | @name next value rest slots hle =>
    have hle' : value.value.toInt ≤ next.toInt := Int.not_lt.mp (mt Int64.lt_iff_toInt_lt.mpr hle)
    have hgap : (value.value.toInt - next.toInt).toNat = 0 := by omega
    simp only [promised, nameSlots, hgap, List.replicate_zero, List.nil_append, List.append_assoc,
      List.singleton_append]

theorem Step.length_slots (h : f.Step f') : f'.slots.length = f.slots.length + 1 := by
  cases h with
  | gap hlt hnext => exact List.length_append
  | name hle => exact List.length_append

theorem Run.promised_eq (h : f.Run f') : f'.promised = f.promised := by
  induction h with
  | refl => rfl
  | tail _ hstep ih => rw [hstep.promised_eq, ih]

/-- There is no run without an end: every step leaves one slot less to come. -/
theorem wellFounded_step : WellFounded fun f' f : Filling ↦ f.Step f' := by
  refine Subrelation.wf ?_ (measure fun f ↦ (nameSlots f.next f.values).length).wf
  intro f' f h
  have hpromised := congrArg List.length h.promised_eq
  have hslots := h.length_slots
  rw [promised, promised, List.length_append, List.length_append] at hpromised
  show (nameSlots f'.next f'.values).length < (nameSlots f.next f.values).length
  omega

theorem exists_run (f : Filling) : ∃ f', f.Run f' ∧ f'.values = [] := by
  induction f using wellFounded_step.induction with
  | h f ih =>
    by_cases hvalues : f.values = []
    · exact ⟨f, .refl, hvalues⟩
    · obtain ⟨f', hstep⟩ := exists_step hvalues
      obtain ⟨f'', hrun, hend⟩ := ih f' hstep
      exact ⟨f'', .head hstep hrun, hend⟩

/-- The slots get complete whatever happens: the counter finds the number it is advanced to, no
state but a finished one is the last, and all finished ones have the same slots. -/
structure Completes (f : Filling) (slots : List String) : Prop where
  counted : ∀ f', f.Run f' → ∀ value rest, f'.values = value :: rest → f'.next < value.value →
    ∃ next, successor? f'.next = some next ∧ next.toInt = f'.next.toInt + 1
  continued : ∀ f', f.Run f' → f'.values ≠ [] → ∃ f'', f'.Step f''
  ended : Acc (fun f'' f' : Filling ↦ f'.Step f'') f
  reached : ∃ f', f.Run f' ∧ f'.values = []
  filled : ∀ f', f.Run f' → f'.values = [] → f'.slots = slots

theorem completes (f : Filling) : f.Completes f.promised := by
  refine ⟨?_, fun f' _ ↦ exists_step, wellFounded_step.apply f, exists_run f, ?_⟩
  · intro f' _ value rest _ hlt
    exact successor?_of_lt hlt
  · intro f' hrun hend
    rw [← hrun.promised_eq, promised, hend, nameSlots, List.append_nil]

end Filling

/-! ## Tables -/

namespace NameTable

theorem getElem?_lines (table : NameTable) : table.lines[1]? = some (slotsLine table.slots) := rfl

end NameTable

theorem Enumeration.lt_mul_of_hasNameTable {e : Enumeration} {m : Int64} {first last : EnumValue}
    (hfirst : e.values.head? = some first) (hlast : e.values.getLast? = some last)
    (hle : first.value ≤ last.value) (h : e.hasNameTable m = true) :
    last.value.toInt - first.value.toInt + 1 < m.toInt * e.values.length := by
  have hle' := Int64.le_iff_toInt_le.mp hle
  have hlength : (0 : Int) < e.values.length := by
    have hne : e.values ≠ [] := by
      intro hnil
      rw [hnil] at hfirst
      exact nomatch hfirst
    exact Int.natCast_pos.mpr (List.length_pos_of_ne_nil hne)
  simp only [hasNameTable, hfirst, hlast, decide_eq_true_eq] at h
  rw [Int.tdiv_eq_ediv_of_nonneg (by omega)] at h
  exact (Int.ediv_lt_iff_lt_mul hlength).mp h

theorem EnumFragment.exists_lines_around_ofValues {s : Schema} {options : Options}
    {e : Enumeration} {first : EnumValue} {rest : List EnumValue} {x : EnumFragment}
    (hvalues : e.values = first :: rest) (htable : e.hasNameTable options.maxSparseness = true)
    (h : EnumFragment.ofEnum s options e = .ok x) : ∃ before after,
      x.declarationLines = before ++ (NameTable.ofValues e options first rest).lines ++ after := by
  have hsome : x.nameTable = some (NameTable.ofValues e options first rest) := by
    rw [nameTable_of_ofEnum h, NameTable.ofEnum?, hvalues]
    exact if_pos htable
  obtain ⟨before, after, -, hlines⟩ := x.exists_lines_around_nameTable
  refine ⟨before, after, ?_⟩
  rw [← hlines, ← hsome]

/-- **Tables of value names.** For values in any order, the table lists their names with an empty
one for each number between neighbours and a null pointer at the end, and it is put together number
by number without a number that 64 bits cannot hold. If the values ascend, each name stands at the
distance of its value from the first one and all other slots are empty. A table that is emitted has
a slot for each number from the first value to the last one, and fewer than the threshold for each
value. -/
theorem nameTable_fits_values {e : Enumeration} {first : EnumValue} {rest : List EnumValue}
    (hvalues : e.values = first :: rest) (options : Options) :
    let table := NameTable.ofValues e options first rest
    table.lines[1]? = some (NameTable.slotsLine table.slots) ∧
    table.slots = spacedNames first rest ∧
    (Filling.mk first.value e.values []).Completes table.slots ∧
    ((e.values.Pairwise fun v w ↦ v.value < w.value) →
      IndexedFrom first.value e.values table.slots) ∧
    ∀ s x, EnumFragment.ofEnum s options e = .ok x →
      e.hasNameTable options.maxSparseness = true →
      (∃ before after, x.declarationLines = before ++ table.lines ++ after) ∧
      ((e.values.Pairwise fun v w ↦ v.value < w.value) →
        ∀ last, e.values.getLast? = some last →
          (table.slots.length : Int) = last.value.toInt - first.value.toInt + 1 ∧
          (table.slots.length : Int) < options.maxSparseness.toInt * e.values.length) := by
  have hleast (hascending : e.values.Pairwise fun v w ↦ v.value < w.value) :
      ∀ v ∈ e.values, first.value ≤ v.value := by
    rw [hvalues] at hascending ⊢
    intro v hv
    rcases List.mem_cons.mp hv with rfl | hv
    · exact Int64.le_refl v.value
    · exact Int64.le_of_lt ((List.pairwise_cons.mp hascending).1 v hv)
  have hindexed (hascending : e.values.Pairwise fun v w ↦ v.value < w.value) :
      IndexedFrom first.value e.values (nameSlots first.value (first :: rest)) := by
    have h := indexedFrom_nameSlots hascending (hleast hascending)
    rwa [hvalues] at h ⊢
  have hcompletes : (Filling.mk first.value e.values []).Completes
      (nameSlots first.value (first :: rest)) := by
    have hpromised : (Filling.mk first.value e.values []).promised =
        nameSlots first.value (first :: rest) := by simp [Filling.promised, hvalues]
    rw [← hpromised]
    exact Filling.completes _
  refine ⟨NameTable.getElem?_lines _, nameSlots_cons first rest, hcompletes, hindexed,
    fun s x hx htable ↦ ⟨?_, ?_⟩⟩
  · exact EnumFragment.exists_lines_around_ofValues hvalues htable hx
  · intro hascending last hlast
    have hlength := (hindexed hascending).length last hlast
    have hle := hleast hascending last (List.mem_of_getLast? hlast)
    have hhead : e.values.head? = some first := by rw [hvalues, List.head?_cons]
    have hbound := Enumeration.lt_mul_of_hasNameTable hhead hlast hle htable
    rw [← hlength] at hbound
    exact ⟨hlength, hbound⟩

/-- Two values at the end of the range, with a number between them that has no value. -/
def edgeEnumeration : Enumeration where
  name := "Edge"
  scope := 0
  underlying := .long
  values := [⟨"Low", Int64.maxValue - 2, [], none⟩, ⟨"Top", Int64.maxValue, [], none⟩]
  isUnion := false
  doc := []
  generated := false

theorem nameTable_fits_values_edge : ∃ s x first rest,
    EnumFragment.ofEnum s {} edgeEnumeration = .ok x ∧ edgeEnumeration.values = first :: rest ∧
    (edgeEnumeration.values.Pairwise fun v w ↦ v.value < w.value) ∧
    edgeEnumeration.hasNameTable 5 = true ∧ spacedNames first rest = ["Low", "", "Top"] ∧
    (Filling.mk first.value edgeEnumeration.values []).Completes ["Low", "", "Top"] ∧
    IndexedFrom first.value edgeEnumeration.values ["Low", "", "Top"] ∧
    ∃ before after, x.declarationLines =
      before ++ (NameTable.ofValues edgeEnumeration {} first rest).lines ++ after := by
  obtain ⟨s, x, first, rest, hx, hvalues, hascending, htable, hspaced⟩ :
      ∃ s x first rest, EnumFragment.ofEnum s {} edgeEnumeration = .ok x ∧
        edgeEnumeration.values = first :: rest ∧
        (edgeEnumeration.values.Pairwise fun v w ↦ v.value < w.value) ∧
        edgeEnumeration.hasNameTable 5 = true ∧ spacedNames first rest = ["Low", "", "Top"] :=
    ⟨⟨"edge", none, [.root], by decide, .empty, .empty, none, none, none, []⟩, _, _, _, rfl, rfl,
      by decide, by decide, by decide⟩
  obtain ⟨-, hslots, hcompletes, hindexed, hemitted⟩ := nameTable_fits_values hvalues {}
  rw [hslots, hspaced] at hcompletes
  have hindexed := hindexed hascending
  rw [hslots, hspaced] at hindexed
  exact ⟨s, x, first, rest, hx, hvalues, hascending, htable, hspaced, hcompletes, hindexed,
    (hemitted s x hx htable).1⟩

end BufferSchema
