import BufferSchema.Text.Numeral

/-!
# Numerals that are read back

A number that was written out in decimal digits is read as itself. The sign is the only character in
front of digits, and no digit looks like a sign, so that the two spellings of a number do not meet.

The texts that numbers are written as can be told by their characters. They are as long as numbers
may be, so that of some of them no number of 64 bits is read back.
-/

namespace BufferSchema

theorem decimal?_toDigits (n : Nat) : decimal? (Nat.toDigits 10 n) = some n := by
  have hdigits : (Nat.toDigits 10 n).all Char.isDigit = true :=
    List.all_eq_true.mpr fun c hc ↦ Nat.isDigit_of_mem_toDigits (by decide) (by decide) hc
  have hvalue : Nat.ofDigitChars 10 (Nat.toDigits 10 n) 0 = n :=
    Nat.ofDigitChars_toDigits (by decide) (by decide)
  rw [decimal?.eq_2 _ Nat.toDigits_ne_nil, if_pos hdigits]
  exact congrArg some hvalue

theorem toDigits_ne_cons {n : Nat} {c : Char} {cs : List Char} (hc : c.isDigit = false) :
    Nat.toDigits 10 n ≠ c :: cs := by
  intro h
  have hdigit : c.isDigit = true := by
    refine Nat.isDigit_of_mem_toDigits (b := 10) (n := n) (by decide) (by decide) ?_
    rw [h]
    exact List.mem_cons_self
  rw [hdigit] at hc
  exact Bool.false_ne_true hc.symm

theorem toList_repr_negSucc (n : Nat) :
    (Int.repr (.negSucc n)).toList = '-' :: Nat.toDigits 10 (n + 1) := by
  rw [← Nat.toList_repr]
  exact String.toList_append

/-- The text of a number denotes that number, if it has 64 bits. -/
theorem integer64?_toString_eq_ite (i : Int) : integer64? (toString i) =
    if Int64.minValue.toInt ≤ i ∧ i ≤ Int64.maxValue.toInt then some i else none := by
  rw [Int.toString_eq_repr, integer64?]
  cases i with
  | ofNat n =>
    have htext : (Int.repr (.ofNat n)).toList = Nat.toDigits 10 n := Nat.toList_repr
    rw [htext]
    split
    · next digits hminus => exact absurd hminus (toDigits_ne_cons (by decide))
    · next digits hplus => exact absurd hplus (toDigits_ne_cons (by decide))
    · rw [decimal?_toDigits]
      rfl
  | negSucc n =>
    have hneg : -((n + 1 : Nat) : Int) = .negSucc n := Int.neg_ofNat_eq_negSucc_iff.mpr rfl
    rw [toList_repr_negSucc]
    split
    · next digits hminus =>
      rw [← (List.cons.inj hminus).2, decimal?_toDigits, Option.map_eq_map, Option.map_some,
        Option.bind_eq_bind, Option.bind_some, hneg]
    · next digits hplus => exact absurd (List.cons.inj hplus).1 (by decide)
    · next hminus _ => exact absurd rfl (hminus _)

theorem integer64?_toString (v : Int64) : integer64? (toString v.toInt) = some v.toInt := by
  rw [integer64?_toString_eq_ite]
  exact if_pos ⟨v.minValue_le_toInt, v.toInt_le⟩

theorem toString_injective {i j : Int} (h : toString i = toString j) : i = j := by
  have hdigits {m n : Nat} (h : Nat.toDigits 10 m = Nat.toDigits 10 n) : m = n := by
    have hread := congrArg decimal? h
    rw [decimal?_toDigits, decimal?_toDigits] at hread
    exact Option.some.inj hread
  have hnat (n : Nat) : (Int.repr (.ofNat n)).toList = Nat.toDigits 10 n := Nat.toList_repr
  have htext := congrArg String.toList h
  rw [Int.toString_eq_repr, Int.toString_eq_repr] at htext
  cases i with
  | ofNat m =>
    cases j with
    | ofNat n =>
      rw [hnat, hnat] at htext
      exact congrArg Int.ofNat (hdigits htext)
    | negSucc n =>
      rw [hnat, toList_repr_negSucc] at htext
      exact absurd htext (toDigits_ne_cons (by decide))
  | negSucc m =>
    cases j with
    | ofNat n =>
      rw [hnat, toList_repr_negSucc] at htext
      exact absurd htext.symm (toDigits_ne_cons (by decide))
    | negSucc n =>
      rw [toList_repr_negSucc, toList_repr_negSucc] at htext
      exact congrArg Int.negSucc (Nat.succ.inj (hdigits (List.cons.inj htext).2))

theorem notMem_toString {i : Int} {c : Char} (hdigit : c.isDigit = false) (hminus : c ≠ '-') :
    c ∉ (toString i).toList := by
  have hdigits (n : Nat) : c ∉ Nat.toDigits 10 n := by
    intro hc
    rw [Nat.isDigit_of_mem_toDigits (by decide) (by decide) hc] at hdigit
    exact Bool.false_ne_true hdigit.symm
  rw [Int.toString_eq_repr]
  cases i with
  | ofNat n =>
    have htext : (Int.repr (.ofNat n)).toList = Nat.toDigits 10 n := Nat.toList_repr
    rw [htext]
    exact hdigits n
  | negSucc n =>
    rw [toList_repr_negSucc, List.mem_cons, not_or]
    exact ⟨hminus, hdigits (n + 1)⟩

/-! ## Canonical numerals -/

/-- Whether digits are those that a number is written with: zero alone, or digits with another one
than zero in front. -/
def isCanonicalDecimal (digits : List Char) : Bool :=
  digits.all Char.isDigit && (digits == ['0'] || digits.head?.any (· != '0'))

/-- Whether a text is what an integer is written as: canonical digits, in front of which there may
be a minus sign unless they are zero. -/
def isCanonicalInteger (text : String) : Bool :=
  match text.toList with
  | '-' :: digits => isCanonicalDecimal digits && digits != ['0']
  | digits => isCanonicalDecimal digits

theorem digitChar_of_isDigit {c : Char} (h : c.isDigit = true) :
    c.toNat - '0'.toNat < 10 ∧ Nat.digitChar (c.toNat - '0'.toNat) = c := by
  rw [Char.isDigit, Bool.and_eq_true, decide_eq_true_iff, decide_eq_true_iff] at h
  have hlow : 48 ≤ c.toNat := UInt32.le_iff_toNat_le.mp h.1
  have hhigh : c.toNat ≤ 57 := UInt32.le_iff_toNat_le.mp h.2
  have hzero : '0'.toNat = 48 := rfl
  rw [hzero]
  have hlt : c.toNat - 48 < 10 := by omega
  refine ⟨hlt, Char.toNat_inj.mp ?_⟩
  rw [Nat.toNat_digitChar_of_lt_ten hlt]
  omega

/-- Digits behind those of a number that is not zero are the digits of the number that all of them
denote. -/
theorem toDigits_append {n : Nat} (hn : 0 < n) {digits : List Char}
    (h : digits.all Char.isDigit = true) :
    Nat.toDigits 10 n ++ digits = Nat.toDigits 10 (Nat.ofDigitChars 10 digits n) := by
  induction digits generalizing n with
  | nil => rw [List.append_nil, Nat.ofDigitChars_nil]
  | cons c digits ih =>
    obtain ⟨hc, hdigits⟩ := Bool.and_eq_true_iff.mp (List.all_cons ▸ h)
    obtain ⟨hlt, hchar⟩ := digitChar_of_isDigit hc
    have hone : Nat.toDigits 10 (c.toNat - '0'.toNat) = [c] := by
      rw [Nat.toDigits_of_lt_base hlt, hchar]
    rw [Nat.ofDigitChars_cons, ← ih (by omega) hdigits,
      ← Nat.toDigits_append_toDigits (by decide) hn hlt, hone, List.append_assoc,
      List.singleton_append]

theorem exists_toDigits_of_isCanonicalDecimal {digits : List Char}
    (h : isCanonicalDecimal digits = true) : ∃ n, digits = Nat.toDigits 10 n := by
  rw [isCanonicalDecimal, Bool.and_eq_true, Bool.or_eq_true, beq_iff_eq] at h
  obtain ⟨hall, rfl | hhead⟩ := h
  · exact ⟨0, rfl⟩
  · cases digits with
    | nil => exact absurd hhead Bool.false_ne_true
    | cons c digits =>
      obtain ⟨hc, hdigits⟩ := Bool.and_eq_true_iff.mp (List.all_cons ▸ hall)
      obtain ⟨hlt, hchar⟩ := digitChar_of_isDigit hc
      have hzero : c ≠ '0' := bne_iff_ne.mp hhead
      have hpos : 0 < c.toNat - '0'.toNat := by
        rw [Nat.pos_iff_ne_zero]
        intro hnone
        rw [hnone] at hchar
        exact hzero hchar.symm
      refine ⟨Nat.ofDigitChars 10 digits (c.toNat - '0'.toNat), ?_⟩
      rw [← toDigits_append hpos hdigits, Nat.toDigits_of_lt_base hlt, hchar]
      rfl

theorem exists_toString_of_isCanonicalInteger {text : String}
    (h : isCanonicalInteger text = true) : ∃ i : Int, text = toString i := by
  rw [isCanonicalInteger] at h
  split at h
  · next digits htext =>
    rw [Bool.and_eq_true, bne_iff_ne] at h
    obtain ⟨hdigits, hzero⟩ := h
    obtain ⟨n, rfl⟩ := exists_toDigits_of_isCanonicalDecimal hdigits
    cases n with
    | zero => exact absurd rfl hzero
    | succ n =>
      refine ⟨.negSucc n, ?_⟩
      rw [← String.toList_inj, Int.toString_eq_repr, toList_repr_negSucc, htext]
  · next digits hminus =>
    obtain ⟨n, hdigits⟩ := exists_toDigits_of_isCanonicalDecimal h
    refine ⟨.ofNat n, ?_⟩
    have hrepr : (Int.repr (.ofNat n)).toList = Nat.toDigits 10 n := Nat.toList_repr
    rw [← String.toList_inj, Int.toString_eq_repr, hrepr, hdigits]

end BufferSchema
