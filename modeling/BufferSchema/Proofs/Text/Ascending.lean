import BufferSchema.Text.Ascending
import Mathlib.Data.Char
import Mathlib.Data.List.Perm.Basic
import Mathlib.Data.String.Basic

/-!
# The order of texts

Texts are ordered by the numbers of their characters. Their octets are in the same order: a
character is written with more octets the greater it is, the first of them tells how many follow,
and the rest of the number stands in them with its highest digits first. So the first character in
which two texts differ also decides between their octets, whatever comes behind it.

In this order a list of distinct texts is determined by what is in it, so that `ascending` gives the
same list for all lists with the same members.
-/

namespace BufferSchema

/-! ## Octets -/

/-- The octets that a text is written with. -/
def octets (text : String) : List UInt8 := text.toUTF8.data.toList

theorem octets_eq_flatMap (text : String) :
    octets text = text.toList.flatMap String.utf8EncodeChar := by
  rw [octets, String.toUTF8_eq_toByteArray, ← String.utf8Encode_toList, List.utf8Encode,
    List.toList_data_toByteArray]

/-- Octets are compared by the first of them, and by the others only if that is the same. -/
private theorem octet_cons_lt {m n : Nat} {xs ys : List UInt8} (hn : n < 256) (hle : m ≤ n)
    (hrest : m = n → xs < ys) : UInt8.ofNat m :: xs < UInt8.ofNat n :: ys := by
  rw [List.cons_lt_cons_iff]
  rcases Nat.lt_or_eq_of_le hle with hlt | rfl
  · left
    rw [UInt8.lt_iff_toNat_lt, UInt8.toNat_ofNat_of_lt' hn,
      UInt8.toNat_ofNat_of_lt' (Nat.lt_trans hlt hn)]
    exact hlt
  · exact .inr ⟨rfl, hrest rfl⟩

/-- The octets of a lesser character come first, whatever is behind them. -/
theorem utf8EncodeChar_append_lt {c d : Char} (h : c < d) (xs ys : List UInt8) :
    String.utf8EncodeChar c ++ xs < String.utf8EncodeChar d ++ ys := by
  have hlt : c.val.toNat < d.val.toNat := UInt32.lt_iff_toNat_lt.mp h
  have hd : d.val.toNat < 0x110000 := by
    have hvalid := d.valid
    simp only [UInt32.isValidChar, Nat.isValidChar] at hvalid
    omega
  rw [String.utf8EncodeChar, String.utf8EncodeChar]
  generalize c.val.toNat = m at hlt
  generalize d.val.toNat = n at hlt hd
  -- the lengths may differ, and then the first octets do; if not, the octets are compared in turn
  split_ifs <;> simp only [List.cons_append, List.nil_append] <;>
    repeat' first
      | omega
      | refine octet_cons_lt (by omega) (by omega) fun _ ↦ ?_

theorem octets_lt_of_lt {s t : String} (h : s < t) : octets s < octets t := by
  rw [octets_eq_flatMap, octets_eq_flatMap]
  rw [String.lt_iff_toList_lt] at h
  generalize s.toList = cs at h
  generalize t.toList = ds at h
  induction h with
  | @nil d ds =>
    obtain ⟨octet, rest, hd⟩ := List.exists_cons_of_ne_nil (String.utf8EncodeChar_ne_nil (c := d))
    rw [List.flatMap_nil, List.flatMap_cons, hd, List.cons_append]
    exact .nil
  | cons _ ih =>
    rw [List.flatMap_cons, List.flatMap_cons]
    exact List.append_left_lt ih
  | rel hlt =>
    rw [List.flatMap_cons, List.flatMap_cons]
    exact utf8EncodeChar_append_lt hlt _ _

/-- Texts and their octets are in one order. -/
theorem octets_lt_iff {s t : String} : octets s < octets t ↔ s < t := by
  refine ⟨fun h ↦ ?_, octets_lt_of_lt⟩
  rcases lt_trichotomy s t with hlt | rfl | hgt
  · exact hlt
  · exact absurd h (List.lt_irrefl _)
  · exact absurd h (List.lt_asymm (octets_lt_of_lt hgt))

/-! ## Ascending lists -/

/-- A list holds the texts with some property, each of them once and in ascending order of their
octets. -/
structure ListsAscending (p : String → Prop) (texts : List String) : Prop where
  ascending : texts.Pairwise fun t u ↦ octets t < octets u
  mem_iff : ∀ t, t ∈ texts ↔ p t

namespace ListsAscending

variable {p q : String → Prop} {texts texts' : List String}

/-- There is only one such list. -/
theorem unique (h : ListsAscending p texts) (h' : ListsAscending q texts')
    (hpq : ∀ t, p t ↔ q t) : texts = texts' := by
  have hnodup {texts : List String} (h : texts.Pairwise fun t u ↦ octets t < octets u) :
      texts.Nodup := by
    refine h.imp fun hlt ↦ ?_
    rintro rfl
    exact List.lt_irrefl _ hlt
  have hperm : texts.Perm texts' :=
    (List.perm_ext_iff_of_nodup (hnodup h.ascending) (hnodup h'.ascending)).mpr fun t ↦
      (h.mem_iff t).trans ((hpq t).trans (h'.mem_iff t).symm)
  exact hperm.eq_of_pairwise (fun _ _ _ _ hlt hgt ↦ absurd hgt (List.lt_asymm hlt)) h.ascending
    h'.ascending

theorem filter [DecidablePred q] (h : ListsAscending p texts) :
    ListsAscending (fun t ↦ p t ∧ q t) (texts.filter (q ·)) where
  ascending := h.ascending.filter _
  mem_iff t := by rw [List.mem_filter, h.mem_iff, decide_eq_true_iff]

end ListsAscending

variable {text t : String} {texts : List String}

theorem mem_insertAscending : t ∈ insertAscending text texts ↔ t = text ∨ t ∈ texts := by
  induction texts with
  | nil => exact List.mem_cons
  | cons u texts ih =>
    rw [insertAscending]
    by_cases hlt : text < u
    · rw [if_pos hlt, List.mem_cons]
    · rw [if_neg hlt]
      by_cases heq : text = u
      · subst heq
        rw [if_pos rfl, List.mem_cons, ← or_assoc, or_self]
      · rw [if_neg heq, List.mem_cons, ih, List.mem_cons]
        exact or_left_comm

theorem pairwise_insertAscending (h : texts.Pairwise (· < ·)) (text : String) :
    (insertAscending text texts).Pairwise (· < ·) := by
  induction texts with
  | nil => exact List.pairwise_singleton _ text
  | cons u texts ih =>
    obtain ⟨hu, htexts⟩ := List.pairwise_cons.mp h
    rw [insertAscending]
    by_cases hlt : text < u
    · rw [if_pos hlt]
      refine List.pairwise_cons.mpr ⟨fun t ht ↦ ?_, h⟩
      rcases List.mem_cons.mp ht with rfl | ht
      · exact hlt
      · exact hlt.trans (hu t ht)
    · rw [if_neg hlt]
      by_cases heq : text = u
      · rw [if_pos heq]
        exact h
      · rw [if_neg heq]
        refine List.pairwise_cons.mpr ⟨fun t ht ↦ ?_, ih htexts⟩
        rcases mem_insertAscending.mp ht with rfl | ht
        · exact lt_of_le_of_ne (not_lt.mp hlt) (Ne.symm heq)
        · exact hu t ht

theorem mem_ascending : t ∈ ascending texts ↔ t ∈ texts := by
  induction texts with
  | nil => exact Iff.rfl
  | cons text texts ih =>
    rw [ascending, List.foldr_cons, mem_insertAscending, List.mem_cons]
    exact or_congr_right ih

theorem pairwise_ascending (texts : List String) : (ascending texts).Pairwise (· < ·) := by
  induction texts with
  | nil => exact .nil
  | cons text texts ih => exact pairwise_insertAscending ih text

theorem listsAscending_ascending (texts : List String) :
    ListsAscending (· ∈ texts) (ascending texts) where
  ascending := (pairwise_ascending texts).imp octets_lt_iff.mpr
  mem_iff _ := mem_ascending

/-- What is in a list decides what it becomes in ascending order. -/
theorem ascending_congr {texts' : List String} (h : ∀ t, t ∈ texts ↔ t ∈ texts') :
    ascending texts = ascending texts' :=
  (listsAscending_ascending texts).unique (listsAscending_ascending texts') h

end BufferSchema
