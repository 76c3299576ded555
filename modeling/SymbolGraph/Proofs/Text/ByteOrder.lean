import Mathlib.Data.List.Lex
import Mathlib.Data.String.Basic
import SymbolGraph.Processing.Processor

/-!
# The order of texts

Texts are compared character by character. The bytes of two characters differ somewhere, and where they
first do they compare as the characters; so this is the order of the bytes.
-/

namespace SymbolGraph

/-- The bytes of a text. -/
def utf8 (text : String) : List UInt8 := text.toUTF8.data.toList

theorem utf8_eq (text : String) : utf8 text = text.toList.flatMap String.utf8EncodeChar := by
  conv_lhs => rw [← String.ofList_toList (s := text)]
  rw [utf8, String.toUTF8_eq_toByteArray, String.toByteArray_ofList, List.utf8Encode,
    List.data_toByteArray, List.toList_toArray]

/-! ## The first difference -/

/-- Where the lists first differ, the first one is lower. Neither of them begins the other. -/
def Precedes : List Nat → List Nat → Prop
  | x :: xs, y :: ys => x < y ∨ x = y ∧ Precedes xs ys
  | _, _ => False

/-- What comes after a difference does not matter. -/
theorem Precedes.append_lt {xs ys : List UInt8} (h : Precedes (xs.map UInt8.toNat) (ys.map UInt8.toNat))
    (rest rest' : List UInt8) : xs ++ rest < ys ++ rest' := by
  induction xs generalizing ys with
  | nil => cases h
  | cons x xs ih =>
    cases ys with
    | nil => cases h
    | cons y ys =>
      rw [List.cons_append, List.cons_append, List.cons_lt_cons_iff]
      exact h.imp UInt8.lt_iff_toNat_lt.mpr (And.imp UInt8.toNat_inj.mp ih)

/-- There are one to four bytes to a character, each with six digits of its code point but the first. -/
theorem map_toNat_utf8EncodeChar (c : Char) : (String.utf8EncodeChar c).map UInt8.toNat =
    let v := c.val.toNat
    if v ≤ 0x7f then [v]
    else if v ≤ 0x7ff then [v / 64 + 0xc0, v % 64 + 0x80]
    else if v ≤ 0xffff then [v / 4096 + 0xe0, v / 64 % 64 + 0x80, v % 64 + 0x80]
    else [v / 262144 + 0xf0, v / 4096 % 64 + 0x80, v / 64 % 64 + 0x80, v % 64 + 0x80] := by
  have hvalid : c.val.toNat < 0x110000 := by
    rcases c.valid with h | h
    · exact Nat.lt_trans h (by decide)
    · exact h.2
  dsimp only [String.utf8EncodeChar]
  generalize c.val.toNat = v at *
  -- The remainders make no difference.
  split_ifs <;> simp only [List.map_cons, List.map_nil, UInt8.toNat_ofNat', List.cons.injEq,
    and_true] <;> omega

theorem digits_lt {v w : Nat} (h : v < w) : v / 262144 < w / 262144 ∨ v / 262144 = w / 262144 ∧
    (v / 4096 % 64 < w / 4096 % 64 ∨ v / 4096 % 64 = w / 4096 % 64 ∧
      (v / 64 % 64 < w / 64 % 64 ∨ v / 64 % 64 = w / 64 % 64 ∧ v % 64 < w % 64)) := by
  have hv := Nat.div_div_eq_div_mul v 64 64
  have hw := Nat.div_div_eq_div_mul w 64 64
  have hv' := Nat.div_div_eq_div_mul v 4096 64
  have hw' := Nat.div_div_eq_div_mul w 4096 64
  omega

theorem precedes_utf8EncodeChar {c d : Char} (h : c < d) :
    Precedes ((String.utf8EncodeChar c).map UInt8.toNat)
      ((String.utf8EncodeChar d).map UInt8.toNat) := by
  have hlt : c.val.toNat < d.val.toNat := h
  have hdigits := digits_lt hlt
  rw [map_toNat_utf8EncodeChar, map_toNat_utf8EncodeChar]
  generalize c.val.toNat = v at *
  generalize d.val.toNat = w at *
  dsimp only
  split_ifs <;> simp only [Precedes] <;> omega

/-! ## Texts by their bytes -/

theorem flatMap_utf8EncodeChar_lt {cs ds : List Char} (h : cs < ds) :
    cs.flatMap String.utf8EncodeChar < ds.flatMap String.utf8EncodeChar := by
  induction cs generalizing ds with
  | nil =>
    cases ds with
    | nil => cases h
    | cons d ds =>
      rw [List.flatMap_nil, List.flatMap_cons]
      cases hbytes : String.utf8EncodeChar d with
      | nil => exact absurd hbytes String.utf8EncodeChar_ne_nil
      | cons => exact List.nil_lt_cons _ _
  | cons c cs ih =>
    cases ds with
    | nil => cases h
    | cons d ds =>
      rw [List.flatMap_cons, List.flatMap_cons]
      rcases List.cons_lt_cons_iff.mp h with h | ⟨rfl, h⟩
      · exact (precedes_utf8EncodeChar h).append_lt _ _
      · exact List.append_left_lt (ih ‹_›)

/-- The order of texts is that of their bytes. -/
theorem utf8_lt_utf8_iff {a b : String} : utf8 a < utf8 b ↔ a < b := by
  have hlt {a b : String} (h : a < b) : utf8 a < utf8 b := by
    rw [utf8_eq, utf8_eq]
    exact flatMap_utf8EncodeChar_lt (String.lt_iff_toList_lt.mp h)
  refine ⟨fun h => ?_, hlt⟩
  rcases lt_trichotomy a b with hab | rfl | hba
  · exact hab
  · exact absurd h (List.lt_irrefl _)
  · exact absurd h (List.lt_asymm (hlt hba))

theorem utf8_le_utf8_iff {a b : String} : utf8 a ≤ utf8 b ↔ a ≤ b := by
  rw [← List.not_lt, ← not_lt, utf8_lt_utf8_iff]

/-! ## Sorted texts -/

theorem perm_sortTexts (texts : List String) : (sortTexts texts).Perm texts :=
  List.mergeSort_perm texts _

/-- Sorted texts are in the order of their bytes. -/
theorem pairwise_sortTexts (texts : List String) :
    (sortTexts texts).Pairwise fun a b => utf8 a ≤ utf8 b := by
  simp only [utf8_le_utf8_iff]
  refine (List.pairwise_mergeSort ?_ ?_ texts).imp (by simp)
  · intro a b c hab hbc
    simp only [decide_eq_true_eq] at hab hbc ⊢
    exact String.le_trans hab hbc
  · intro a b
    simpa using String.le_total a b

/-- There is only one order of texts. -/
theorem eq_of_perm_of_sorted {texts texts' : List String} (h : texts.Perm texts')
    (hsorted : texts.Pairwise fun a b => utf8 a ≤ utf8 b)
    (hsorted' : texts'.Pairwise fun a b => utf8 a ≤ utf8 b) : texts = texts' := by
  refine h.eq_of_pairwise (fun a b _ _ hab hba => ?_) hsorted hsorted'
  exact String.le_antisymm (utf8_le_utf8_iff.mp hab) (utf8_le_utf8_iff.mp hba)

end SymbolGraph
