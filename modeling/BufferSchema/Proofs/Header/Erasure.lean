import BufferSchema.Proofs.Header.Table
import BufferSchema.Proofs.Schema.Acceptance
import Mathlib.Logic.Function.Iterate

/-!
# Enumerations in spellings

Callers see an enumeration by its name in one place only, as the type of a scalar. What is stored is
spelled without a look at enumerations, and so is everything behind an offset, whoever asks: the
elements of a vector are spelled as they are stored at any depth.

To say this of a type, the enumerations are erased from it. A spelling that looks none up is that of
the erased type, also in a schema with other enumerations, or with none.
-/

namespace BufferSchema

namespace TypeRef

/-- A type without the enumerations whose values its scalars hold, at any depth. The enumeration of
a union stays: it is what the union is. -/
def withoutEnums : TypeRef → TypeRef
  | .scalar kind _ => .scalar kind none
  | .bool => .bool
  | .string => .string
  | .vector element => .vector element.withoutEnums
  | .aggregate target fixed => .aggregate target fixed
  | .union tagEnum => .union tagEnum

/-- The number of vectors around the innermost element of a type. -/
def vectorDepth : TypeRef → Nat
  | .vector element => element.vectorDepth + 1
  | .scalar _ _ | .bool | .string | .aggregate _ _ | .union _ => 0

/-- What is left of a type without the vectors around it. -/
def innermost : TypeRef → TypeRef
  | .vector element => element.innermost
  | type => type

theorem isScalar_withoutEnums (type : TypeRef) : type.withoutEnums.isScalar = type.isScalar := by
  cases type <;> rfl

theorem storageSpelling_withoutEnums (type : TypeRef) :
    type.withoutEnums.storageSpelling = type.storageSpelling := by
  cases type <;> rfl

theorem storedAs_withoutEnums (type : TypeRef) (pointee behind : String) :
    type.withoutEnums.storedAs pointee behind = type.storedAs pointee behind := by
  cases type with
  | aggregate target fixed => cases fixed <;> rfl
  | scalar kind enumName | bool | string | vector element | union tagEnum => rfl

theorem storedAs_of_isScalar {type : TypeRef} (h : type.isScalar = true)
    (pointee behind : String) :
    type.storedAs pointee behind = type.storageSpelling ++ behind := by
  cases type with
  | scalar kind enumName | bool => rfl
  | string | vector element | aggregate target fixed | union tagEnum => exact nomatch h

end TypeRef

/-- The spelling of a vector, given that of its elements. -/
def vectorOf (element : String) : String := "flatbuffers::Vector<" ++ element ++ ">"

namespace Schema

variable {s : Schema} {type : TypeRef}

/-- The schema with other enumerations. -/
def withEnums (s : Schema) (enums : Declarations Enumeration) : Schema := { s with enums }

/-- A type in one schema and another one in another are spelled alike, each with or without the
names that callers see. Where one spelling meets a fault, the other one meets the same. -/
structure SpelledAlike (s : Schema) (userFacing : Bool) (type : TypeRef) (s' : Schema)
    (userFacing' : Bool) (type' : TypeRef) : Prop where
  pointee : s.pointee type = s'.pointee type'
  size : s.sizeSpelling type = s'.sizeSpelling type'
  wire : ∀ behind,
    s.wireSpelling behind userFacing type = s'.wireSpelling behind userFacing' type'
  view : ∀ afterValue before after,
    s.viewSpelling afterValue before after userFacing type =
      s'.viewSpelling afterValue before after userFacing' type'

namespace SpelledAlike

variable {s' s'' : Schema} {type' type'' : TypeRef} {userFacing userFacing' userFacing'' : Bool}

theorem symm (h : SpelledAlike s userFacing type s' userFacing' type') :
    SpelledAlike s' userFacing' type' s userFacing type :=
  ⟨h.pointee.symm, h.size.symm, fun behind ↦ (h.wire behind).symm,
    fun afterValue before after ↦ (h.view afterValue before after).symm⟩

theorem trans (h : SpelledAlike s userFacing type s' userFacing' type')
    (h' : SpelledAlike s' userFacing' type' s'' userFacing'' type'') :
    SpelledAlike s userFacing type s'' userFacing'' type'' :=
  ⟨h.pointee.trans h'.pointee, h.size.trans h'.size,
    fun behind ↦ (h.wire behind).trans (h'.wire behind),
    fun afterValue before after ↦ (h.view afterValue before after).trans
      (h'.view afterValue before after)⟩

end SpelledAlike

/-! ## Spellings that look no enumeration up -/

/-- What is pointed to is spelled without a look at enumerations, at any depth of vectors: their
elements are spelled as they are stored. -/
theorem pointee_withEnums (s : Schema) (enums : Declarations Enumeration) (type : TypeRef) :
    (s.withEnums enums).pointee type = s.pointee type.withoutEnums := by
  induction type with
  | vector element ih =>
    rw [TypeRef.withoutEnums, pointee, pointee, ih]
    simp only [TypeRef.storedAs_withoutEnums]
  | scalar kind enumName | bool | string | aggregate target fixed | union tagEnum => rfl

theorem sizeSpelling_withEnums (s : Schema) (enums : Declarations Enumeration) (type : TypeRef) :
    (s.withEnums enums).sizeSpelling type = s.sizeSpelling type.withoutEnums := by
  cases type with
  | aggregate target fixed => cases fixed <;> rfl
  | scalar kind enumName | bool | string | vector element | union tagEnum => rfl

theorem spelledAlike_of_isScalar (enums : Declarations Enumeration) (h : type.isScalar = true) :
    SpelledAlike (s.withEnums enums) false type s false type.withoutEnums := by
  have herased : type.withoutEnums.isScalar = true := type.isScalar_withoutEnums.trans h
  refine ⟨s.pointee_withEnums enums type, s.sizeSpelling_withEnums enums type, ?_, ?_⟩
  · intro behind
    rw [wireSpelling_of_isScalar h, wireSpelling_of_isScalar herased,
      type.storageSpelling_withoutEnums]
  · intro afterValue before after
    rw [viewSpelling_of_isScalar h, viewSpelling_of_isScalar herased,
      type.storageSpelling_withoutEnums]

theorem spelledAlike_of_not_isScalar (enums : Declarations Enumeration) (userFacing : Bool)
    (h : type.isScalar = false) :
    SpelledAlike (s.withEnums enums) userFacing type s false type.withoutEnums := by
  have herased : type.withoutEnums.isScalar = false := type.isScalar_withoutEnums.trans h
  refine ⟨s.pointee_withEnums enums type, s.sizeSpelling_withEnums enums type, ?_, ?_⟩
  · intro behind
    rw [wireSpelling_of_not_isScalar h, wireSpelling_of_not_isScalar herased,
      s.pointee_withEnums enums type]
    simp only [TypeRef.storedAs_withoutEnums]
  · intro afterValue before after
    rw [viewSpelling_of_not_isScalar h, viewSpelling_of_not_isScalar herased,
      s.pointee_withEnums enums type]

theorem spelledAlike_withoutEnums (s : Schema) (type : TypeRef) :
    SpelledAlike s false type s false type.withoutEnums := by
  cases h : type.isScalar with
  | true => exact spelledAlike_of_isScalar s.enums h
  | false => exact spelledAlike_of_not_isScalar s.enums false h

/-! ## Vectors -/

theorem pointee_of_isScalar (h : type.isScalar = true) : s.pointee type = .ok "void" := by
  cases type with
  | scalar kind enumName | bool => rfl
  | string | vector element | aggregate target fixed | union tagEnum => exact nomatch h

/-- The elements of a vector are spelled as they are stored. -/
theorem pointee_vector (s : Schema) (element : TypeRef) :
    s.pointee (.vector element) = vectorOf <$> s.wireSpelling "" false element := by
  rw [pointee, bind_pure_comp]
  cases h : element.isScalar with
  | true =>
    rw [wireSpelling_of_isScalar h, pointee_of_isScalar h,
      ← TypeRef.storedAs_of_isScalar h "void" ""]
    rfl
  | false =>
    rw [wireSpelling_of_not_isScalar h, ← comp_map]
    rfl

/-- A type is stored as its innermost element is, behind one offset for each vector around it. -/
theorem wireSpelling_innermost (s : Schema) (type : TypeRef) :
    s.wireSpelling "" false type =
      (offsetTo ∘ vectorOf)^[type.vectorDepth] <$> s.wireSpelling "" false type.innermost := by
  induction type with
  | vector element ih =>
    have hstored (pointee : String) :
        (TypeRef.vector element).storedAs pointee "" = offsetTo pointee := String.append_empty
    rw [wireSpelling_of_not_isScalar rfl, pointee_vector, ih, TypeRef.vectorDepth,
      Function.iterate_succ', TypeRef.innermost]
    simp only [hstored, ← comp_map]
    rfl
  | scalar kind enumName | bool | string | aggregate target fixed | union tagEnum =>
    exact (id_map _).symm

end Schema

/-- **Enumerations in spellings.** As it is stored, a type is spelled like the type without
enumerations, in all four spellings and with the same faults. A type that is no scalar is spelled so
for callers too, whatever enumerations the schema has or is given in their place. A vector is
spelled by what its innermost element is stored as, however deep that lies. -/
theorem enumerations_only_outermost (s : Schema) (type : TypeRef) :
    s.SpelledAlike false type s false type.withoutEnums ∧
      (type.isScalar = false → ∀ enums userFacing userFacing',
        (s.withEnums enums).SpelledAlike userFacing type s userFacing' type) ∧
      ∀ element, type = .vector element →
        s.pointee type = (vectorOf ∘ (offsetTo ∘ vectorOf)^[element.vectorDepth]) <$>
          s.wireSpelling "" false element.innermost := by
  refine ⟨s.spelledAlike_withoutEnums type, fun h enums userFacing userFacing' ↦ ?_, ?_⟩
  · have hother := Schema.spelledAlike_of_not_isScalar (s := s) enums userFacing h
    have hown := Schema.spelledAlike_of_not_isScalar (s := s) s.enums userFacing' h
    exact hother.trans hown.symm
  · rintro element rfl
    rw [s.pointee_vector, s.wireSpelling_innermost element, comp_map]

/-- Vectors of vectors of the values of an enumeration. -/
def layeredValues : TypeRef := .vector (.vector (.scalar .utype (some "Game.Any")))

/-- Callers see the enumeration as the type of a scalar, as long as it is there. In vectors it goes
unseen, and can go. -/
theorem enumerations_only_outermost_layered : ∃ s, Schema.ofDocument mutualDocument = .ok s ∧
    layeredValues.isScalar = false ∧
    s.wireSpelling "" true layeredValues.innermost = .ok "Any" ∧
    (s.withEnums .empty).wireSpelling "" true layeredValues.innermost =
      .error (.undeclaredEnum "Game.Any") ∧
    (s.withEnums .empty).wireSpelling "" true layeredValues = .ok
      "flatbuffers::Offset<flatbuffers::Vector<flatbuffers::Offset<flatbuffers::Vector<uint8_t>>>>" ∧
    (s.withEnums .empty).pointee layeredValues =
      .ok "flatbuffers::Vector<flatbuffers::Offset<flatbuffers::Vector<uint8_t>>>" := by
  refine ⟨_, rfl, rfl, rfl, rfl, ?_, ?_⟩
  · rw [((enumerations_only_outermost _ layeredValues).2.1 rfl .empty true false).wire]
    rfl
  · rw [((enumerations_only_outermost _ layeredValues).2.1 rfl .empty true false).pointee,
      (enumerations_only_outermost _ layeredValues).2.2 _ rfl]
    rfl

end BufferSchema
