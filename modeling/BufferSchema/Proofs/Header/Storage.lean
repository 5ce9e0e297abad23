import BufferSchema.Proofs.Header.Members
import BufferSchema.Proofs.Header.Routing

/-!
# Storage of a struct

The size of a struct is declared in the schema, while the room that its members take is decided by
the lines of its private section. Here each of these lines is measured: a scalar or padding by the C
type that stands on the line, a nested struct by the size that is declared for it. The two tables in
play, of C types and of serialized sizes, agree on every scalar, and the padding for a mask takes as
many bytes as the mask says when it is read as a number.
-/

namespace BufferSchema

/-! ## Measuring lines -/

/-- The size in bytes of the C types that scalars are stored with. -/
def cTypeBytes? : String → Option Nat
  | "int8_t" | "uint8_t" => some 1
  | "int16_t" | "uint16_t" => some 2
  | "int32_t" | "uint32_t" | "float" => some 4
  | "int64_t" | "uint64_t" | "double" => some 8
  | _ => none

/-- The size in bytes of a member, read off the line that declares it. -/
def declaredBytes? (line : String) : Option Nat :=
  cTypeBytes? (String.ofList ((line.toList.drop 2).takeWhile (· != ' ')))

theorem declaredBytes?_eq {type : String} (h : ' ' ∉ type.toList) (rest : String) :
    declaredBytes? ("  " ++ type ++ " " ++ rest) = cTypeBytes? type := by
  have hline : ("  " ++ type ++ " " ++ rest).toList.drop 2 =
      type.toList ++ ' ' :: rest.toList := by
    simp only [String.toList_append, List.append_assoc]
    rfl
  rw [declaredBytes?, hline, (takeWhile_append_blank h _).1, String.ofList_toList]

/-- The lines of the padding behind a field, numbered from `number` on. -/
def Field.paddingLines (f : Field) (number : Nat) : List String :=
  (f.paddingWidths.zipIdx number).map fun (width, n) ↦
    "  int" ++ toString width ++ "_t __padding" ++ toString n ++ ";"

/-! ## Sizes of fields -/

/-- The serialized size of a type that may be part of a struct. -/
def Schema.serializedBytes? (s : Schema) : TypeRef → Option Nat
  | .scalar kind _ => some kind.size
  | .bool => some 1
  | .aggregate target true => (s.aggregates.get? target).map (·.byteSize.toNat)
  | .aggregate _ false | .string | .vector _ | .union _ => none

/-- A line declares the member of a field, which takes a number of bytes. -/
inductive Field.DeclaredBy (s : Schema) (f : Field) : String → Nat → Prop where
  | scalar {line : String} {bytes : Nat} (htype : f.type.isScalar = true)
      (hline : line = "  " ++ f.type.storageSpelling ++ " " ++ f.name ++ "_;")
      (hbytes : declaredBytes? line = some bytes) : DeclaredBy s f line bytes
  | struct {target spelling line : String} {nested : Aggregate}
      (htype : f.type = .aggregate target true)
      (hnested : s.aggregates.get? target = some nested)
      (hspelling : s.qualify nested.scope nested.name = .ok spelling)
      (hline : line = "  " ++ spelling ++ " " ++ f.name ++ "_;") :
      DeclaredBy s f line nested.byteSize.toNat

/-- Lines declare the members of fields, with padding numbered from `number` on. The list `bytes`
has the sizes of the members, line by line. -/
inductive HasStorage (s : Schema) :
    (number : Nat) → List Field → (lines : List String) → (bytes : List Nat) → Prop where
  | nil {number : Nat} : HasStorage s number [] [] []
  | cons {number size : Nat} {f : Field} {fields : List Field} {line : String}
      {lines : List String} {widths bytes : List Nat} (hown : f.DeclaredBy s line size)
      (hpadding : (f.paddingLines number).map declaredBytes? = widths.map some)
      (hrest : HasStorage s (number + f.paddingWidths.length) fields lines bytes) :
      HasStorage s number (f :: fields) (line :: (f.paddingLines number ++ lines))
        (size :: (widths ++ bytes))

section sizes

variable {s : Schema} {f : Field} {line : String} {size : Nat}

theorem cTypeBytes?_spelling (kind : ScalarKind) : cTypeBytes? kind.spelling = some kind.size := by
  cases kind <;> rfl

theorem cTypeBytes?_storageSpelling {type : TypeRef} (h : type.isScalar = true) :
    cTypeBytes? type.storageSpelling = s.serializedBytes? type := by
  cases type with
  | scalar kind enumName => exact cTypeBytes?_spelling kind
  | bool => exact cTypeBytes?_spelling .ubyte
  | string | vector element | aggregate target fixed | union tagEnum => exact nomatch h

theorem Schema.exists_serializedBytes?_of_isScalar (s : Schema) {type : TypeRef}
    (h : type.isScalar = true) : ∃ size, s.serializedBytes? type = some size := by
  cases type with
  | scalar kind enumName | bool => exact ⟨_, rfl⟩
  | string | vector element | aggregate target fixed | union tagEnum => exact nomatch h

theorem blank_notMem_storageSpelling {type : TypeRef} (h : type.isScalar = true) :
    ' ' ∉ type.storageSpelling.toList := by
  have hkind (kind : ScalarKind) : ' ' ∉ kind.spelling.toList := by cases kind <;> decide
  cases type with
  | scalar kind enumName => exact hkind kind
  | bool => exact hkind .ubyte
  | string | vector element | aggregate target fixed | union tagEnum => exact nomatch h

/-- The line of a scalar is measured by its serialized size. -/
theorem declaredBytes?_scalar (h : f.type.isScalar = true) :
    declaredBytes? ("  " ++ f.type.storageSpelling ++ " " ++ f.name ++ "_;") =
      s.serializedBytes? f.type := by
  rw [String.append_assoc, declaredBytes?_eq (blank_notMem_storageSpelling h),
    cTypeBytes?_storageSpelling h]

theorem Field.DeclaredBy.serializedBytes? (h : f.DeclaredBy s line size) :
    s.serializedBytes? f.type = some size := by
  cases h with
  | scalar htype hline hbytes => rw [← declaredBytes?_scalar htype, ← hline, hbytes]
  | struct htype hnested hspelling hline =>
    rw [htype, Schema.serializedBytes?, hnested, Option.map_some]

private theorem lt_four_of_mem_bitIndices : ∀ n < 16, ∀ i ∈ n.bitIndices, i < 4 := by decide

private theorem cTypeBytes?_padding : ∀ i < 4,
    ' ' ∉ ("int" ++ toString (8 * 2 ^ i) ++ "_t").toList ∧
      cTypeBytes? ("int" ++ toString (8 * 2 ^ i) ++ "_t") = some (2 ^ i) := by decide

/-- A member that pads with the bit `i` takes `2 ^ i` bytes. -/
theorem declaredBytes?_padding {i : Nat} (h : i < 4) (n : Nat) :
    declaredBytes? ("  int" ++ toString (8 * 2 ^ i) ++ "_t __padding" ++ toString n ++ ";") =
      some (2 ^ i) := by
  have hline : "  int" ++ toString (8 * 2 ^ i) ++ "_t __padding" ++ toString n ++ ";" =
      "  " ++ ("int" ++ toString (8 * 2 ^ i) ++ "_t") ++ " " ++
        ("__padding" ++ toString n ++ ";") := by
    rw [← String.toList_inj]
    simp
  obtain ⟨hblank, hbytes⟩ := cTypeBytes?_padding i h
  rw [hline, declaredBytes?_eq hblank, hbytes]

theorem map_declaredBytes?_paddingLines (h : f.padding ≤ 15) (number : Nat) :
    (f.paddingLines number).map declaredBytes? =
      (f.padding.toNat.bitIndices.map (2 ^ ·)).map some := by
  have hmask : f.padding.toNat < 16 := Nat.lt_succ_of_le (UInt8.le_iff_toNat_le.mp h)
  have hbits : ∀ i ∈ f.padding.toNat.bitIndices, i < 4 := lt_four_of_mem_bitIndices _ hmask
  rw [Field.paddingLines, Field.paddingWidths]
  generalize f.padding.toNat.bitIndices = bits at hbits
  induction bits generalizing number with
  | nil => rfl
  | cons i bits ih =>
    obtain ⟨hi, hbits⟩ := List.forall_mem_cons.mp hbits
    simp only [List.map_cons, List.zipIdx_cons, declaredBytes?_padding hi, ih _ hbits]

end sizes

/-! ## Adding up -/

section sums

variable {s : Schema} {number : Nat} {fields : List Field} {lines : List String} {bytes : List Nat}

/-- The fields have serialized sizes, and the members of a struct take these and the masks of
padding. -/
theorem HasStorage.sum_eq (h : HasStorage s number fields lines bytes)
    (hpadding : ∀ f ∈ fields, f.padding ≤ 15) :
    ∃ sizes : List Nat, fields.map (fun f ↦ s.serializedBytes? f.type) = sizes.map some ∧
      bytes.sum = sizes.sum + (fields.map fun f ↦ f.padding.toNat).sum := by
  induction h with
  | nil => exact ⟨[], rfl, rfl⟩
  | @cons number size f fields line lines widths bytes hown hwidths _ ih =>
    obtain ⟨hf, hfields⟩ := List.forall_mem_cons.mp hpadding
    obtain ⟨sizes, hsizes, hsum⟩ := ih hfields
    have hmask : widths.sum = f.padding.toNat := by
      rw [map_declaredBytes?_paddingLines hf] at hwidths
      rw [← List.map_injective_iff.mpr (Option.some_injective Nat) hwidths,
        Nat.sum_map_two_pow_bitIndices]
    refine ⟨size :: sizes, ?_, ?_⟩
    · rw [List.map_cons, List.map_cons, hsizes, hown.serializedBytes?]
    · rw [List.sum_cons, List.sum_append, List.sum_cons, List.map_cons, List.sum_cons, hsum, hmask]
      omega

/-- A type that may be part of a struct whose size is declared. -/
def TypeRef.IsStructPart (type : TypeRef) : Prop :=
  type.isScalar = true ∨ ∃ target, type = .aggregate target true

theorem exists_declaredBy {f : Field} {storage : String} (htype : f.type.IsStructPart)
    (h : s.viewSpelling " " "" " " false f.type = .ok storage) :
    ∃ size, f.DeclaredBy s ("  " ++ storage ++ f.name ++ "_;") size := by
  obtain hscalar | ⟨target, htarget⟩ := htype
  · rw [Schema.viewSpelling_of_isScalar hscalar] at h
    obtain rfl := Except.ok.inj h
    obtain ⟨size, hsize⟩ := s.exists_serializedBytes?_of_isScalar hscalar
    rw [← String.append_assoc]
    exact ⟨size, .scalar hscalar rfl ((declaredBytes?_scalar hscalar).trans hsize)⟩
  · rw [htarget, Schema.viewSpelling_of_not_isScalar rfl] at h
    obtain ⟨spelling, hspelling, rfl⟩ := Attempt.map_eq_ok.mp h
    rw [Schema.pointee] at hspelling
    obtain ⟨nested, hnested, hspelling⟩ := Attempt.bind_eq_ok.mp hspelling
    rw [String.empty_append, ← String.append_assoc]
    exact ⟨_, .struct htarget (Schema.aggregate_eq_ok.mp hnested) hspelling rfl⟩

/-- What the loop over the fields declares has storage. -/
theorem StructMember.exists_hasStorage {members : List StructMember}
    (htypes : ∀ f ∈ fields, f.type.IsStructPart) (hpadding : ∀ f ∈ fields, f.padding ≤ 15)
    (h : StructMember.ofFields s number fields = .ok members) :
    ∃ bytes, HasStorage s number fields (members.map StructMember.line) bytes := by
  induction fields generalizing number members with
  | nil =>
    obtain rfl := Attempt.pure_eq_ok.mp h
    exact ⟨[], .nil⟩
  | cons f fields ih =>
    obtain ⟨htype, htypes⟩ := List.forall_mem_cons.mp htypes
    obtain ⟨hf, hfields⟩ := List.forall_mem_cons.mp hpadding
    obtain ⟨storage, rest, hstorage, hrest, rfl⟩ := StructMember.of_ofFields_cons_eq_ok h
    obtain ⟨size, hown⟩ := exists_declaredBy htype hstorage
    obtain ⟨bytes, hbytes⟩ := ih htypes hfields hrest
    have hlines : ((f.paddingWidths.zipIdx number).map fun (width, n) ↦
        StructMember.padding width n).map StructMember.line = f.paddingLines number := by
      rw [List.map_map, Field.paddingLines]
      refine List.map_congr_left fun p _ ↦ ?_
      rw [← String.toList_inj]
      simp [StructMember.line, paddingName]
    rw [List.cons_append, List.map_cons, List.map_append, hlines]
    exact ⟨_, .cons hown (map_declaredBytes?_paddingLines hf number) hbytes⟩

end sums

/-- **Storage of a struct.** Take an aggregate of a loaded schema whose fields are scalars, truth
values or structs, with padding masks of four bits. The lines of its private section declare members
that take the serialized sizes of the fields and the sum of the masks. So they fill the size at the
end of the struct if and only if the schema declares just that sum. -/
theorem structStorage_adds_up {d : Document} {s : Schema} (hs : Schema.ofDocument d = .ok s)
    (options : Options) {a : Aggregate} (ha : a ∈ s.aggregates.values)
    (htypes : ∀ f ∈ a.fields, f.type.IsStructPart) (hpadding : ∀ f ∈ a.fields, f.padding ≤ 15) :
    ∃ (fragment : StructFragment) (lines : List String) (bytes sizes : List Nat),
      StructFragment.ofAggregate s options a = .ok fragment ∧
      s.structText options a = .ok (unlines (
        docLines "" a.doc ++
        ["MANUALLY_ALIGNED_STRUCT(" ++ toString a.minAlign.toNat ++ ") " ++ a.name ++
            " FLATBUFFERS_FINAL_CLASS \x7b",
          " private:"] ++
        lines ++
        ["", " public:"] ++
        fragment.constructorLines ++ fragment.accessors.flatMap StructAccessor.lines ++
        ["\x7d;", "STRUCT_END(" ++ a.name ++ ", " ++ toString a.byteSize.toNat ++ ");", ""])) ∧
      HasStorage s 0 a.fields lines bytes ∧
      a.fields.map (fun f ↦ s.serializedBytes? f.type) = sizes.map some ∧
      bytes.sum = sizes.sum + (a.fields.map fun f ↦ f.padding.toNat).sum ∧
      (bytes.sum = a.byteSize.toNat ↔
        a.byteSize.toNat = sizes.sum + (a.fields.map fun f ↦ f.padding.toNat).sum) := by
  have hsound : s.Sound := Schema.sound_of_ofDocument hs
  obtain ⟨fragment, hfragment⟩ : Succeeds (StructFragment.ofAggregate s options a) :=
    StructFragment.succeeds_ofAggregate.mpr fun f hf ↦ ⟨(hsound.spells ha hf).1, hpadding f hf⟩
  have hparts := hfragment
  rw [StructFragment.ofAggregate] at hparts
  obtain ⟨members, hmembers, hparts⟩ := Attempt.bind_eq_ok.mp hparts
  obtain ⟨parameters, -, hparts⟩ := Attempt.bind_eq_ok.mp hparts
  obtain ⟨initializers, -, hparts⟩ := Attempt.bind_eq_ok.mp hparts
  obtain ⟨accessors, -, hparts⟩ := Attempt.bind_eq_ok.mp hparts
  obtain ⟨bytes, hstorage⟩ := StructMember.exists_hasStorage htypes hpadding hmembers
  obtain ⟨sizes, hsizes, hsum⟩ := hstorage.sum_eq hpadding
  refine ⟨fragment, _, bytes, sizes, hfragment, ?_, hstorage, hsizes, hsum, ?_⟩
  · rw [Schema.structText, hfragment, ← Attempt.pure_eq_ok.mp hparts]
    rfl
  · rw [hsum, eq_comm]

/-- A struct of a scalar with three bytes of padding, a nested struct, a value of an enumeration and
a truth value with one byte of padding. -/
def framedStruct : Aggregate where
  name := "Frame"
  scope := 1
  fixed := true
  fields :=
    [⟨"tag", .scalar .byte none, 0, "0", false, false, false, 3, none, []⟩,
      ⟨"leaf", .aggregate "Game.Leaf" true, 0, "0", false, false, false, 0, none, []⟩,
      ⟨"kind", .scalar .utype (some "Game.Any"), 0, "0", false, false, false, 0, none, []⟩,
      ⟨"open", .bool, 0, "0", false, false, false, 1, none, []⟩]
  byteSize := 8
  minAlign := 2
  sortBySize := false
  doc := []
  generated := false

/-- A document with that struct. -/
def framedDocument : Document :=
  { mutualDocument with aggregates := framedStruct :: mutualDocument.aggregates }

/-- The members of that struct take the eight bytes that are declared for it. -/
theorem structStorage_adds_up_framed : ∃ s, Schema.ofDocument framedDocument = .ok s ∧
    framedStruct ∈ s.aggregates.values ∧ (∀ f ∈ framedStruct.fields, f.type.IsStructPart) ∧
    (∀ f ∈ framedStruct.fields, f.padding ≤ 15) ∧
    ∃ lines bytes, HasStorage s 0 framedStruct.fields lines bytes ∧ bytes.sum = 8 := by
  have htypes : ∀ f ∈ framedStruct.fields, f.type.IsStructPart := by
    simp [framedStruct, TypeRef.IsStructPart, TypeRef.isScalar]
  obtain ⟨s, hs, ha, hmeasured⟩ : ∃ s, Schema.ofDocument framedDocument = .ok s ∧
      framedStruct ∈ s.aggregates.values ∧
      framedStruct.fields.map (fun f ↦ s.serializedBytes? f.type) = [1, 1, 1, 1].map some :=
    ⟨_, rfl, List.mem_cons_self, rfl⟩
  have hpadding : ∀ f ∈ framedStruct.fields, f.padding ≤ 15 := by decide
  obtain ⟨fragment, lines, bytes, sizes, -, -, hstorage, hsizes, hsum, -⟩ :=
    structStorage_adds_up hs {} ha htypes hpadding
  rw [hmeasured] at hsizes
  obtain rfl := List.map_injective_iff.mpr (Option.some_injective Nat) hsizes
  exact ⟨s, hs, ha, htypes, hpadding, lines, bytes, hstorage, hsum⟩

end BufferSchema
