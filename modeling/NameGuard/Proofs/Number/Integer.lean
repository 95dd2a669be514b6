import Mathlib.Data.List.TakeWhile
import NameGuard.Proofs.Number.Rank
import NameGuard.Proofs.Text.Lowering

/-!
# Integers in decimal

The decimal text of a 64-bit integer is a numeral that reads back as the integer, the least one
included. It has no characters but digits and a sign, so that it stands in a name as one word.

* `Numeral.eq_minus_or_isDigit` — the characters of the text;
* `Numeral.exists_read?_text` — an integer is read back from its text;
* `Number.atMost_int` — integers stand on the line in their own order.
-/

set_option autoImplicit false

namespace NameGuard

namespace Numeral

/-! ## Digits -/

/-- What digits alone are read as, whatever sign was taken off before them. -/
theorem readFraction_digits (negative : Bool) {digits : List Char} (hne : digits ≠ [])
    (hdigit : ∀ c ∈ digits, c.isDigit = true) :
    readFraction negative (digits.takeWhile Char.isDigit) (digits.dropWhile Char.isDigit) =
      some ⟨negative, digits, none⟩ := by
  have htake : digits.takeWhile Char.isDigit = digits := List.takeWhile_eq_self_iff.mpr hdigit
  have hdrop : digits.dropWhile Char.isDigit = [] := List.dropWhile_eq_nil_iff.mpr hdigit
  rw [htake, hdrop, readFraction, if_neg (by simpa using hne)]

/-- Digits have no sign to take off. -/
theorem readSign_digits {digits : List Char} (hdigit : ∀ c ∈ digits, c.isDigit = true) :
    readSign digits = (false, digits) := by
  unfold readSign
  split
  · cases hdigit '-' List.mem_cons_self
  · cases hdigit '+' List.mem_cons_self
  · rfl

theorem isDigit_of_mem_toDigits {n : Nat} : ∀ c ∈ Nat.toDigits 10 n, c.isDigit = true :=
  fun _ hc => Nat.isDigit_of_mem_toDigits (by decide) (by decide) hc

theorem digitsValue_toDigits (n : Nat) : digitsValue (Nat.toDigits 10 n) = n :=
  Nat.ofDigitChars_ten_toDigits

/-! ## The text of an integer -/

/-- The digits of the magnitude, after a sign where the integer is negative. -/
theorem toList_text (n : Int) :
    (toString n).toList =
      if n < 0 then '-' :: Nat.toDigits 10 n.natAbs else Nat.toDigits 10 n.natAbs := by
  rw [Int.toString_eq_repr, Int.repr_eq_if]
  by_cases hn : n < 0
  · have habs : (-n).toNat = n.natAbs := by omega
    rw [if_neg (by omega), if_pos hn, String.toList_append, Nat.toList_repr, habs]
    rfl
  · have habs : n.toNat = n.natAbs := by omega
    rw [if_pos (by omega), if_neg hn, Nat.toList_repr, habs]

theorem eq_minus_or_isDigit (n : Int) :
    ∀ c ∈ (toString n).toList, c = '-' ∨ c.isDigit = true := by
  intro c hc
  rw [toList_text] at hc
  split at hc
  · exact (List.mem_cons.mp hc).imp id (isDigit_of_mem_toDigits c)
  · exact .inr (isDigit_of_mem_toDigits c hc)

theorem not_mem_text {c : Char} (hminus : c ≠ '-') (hdigit : c.isDigit = false) (n : Int) :
    c ∉ (toString n).toList := by
  intro hc
  rcases eq_minus_or_isDigit n c hc with h | h
  · exact hminus h
  · rw [hdigit] at h
    cases h

/-- The text of an integer stands in a name as one word. -/
theorem isWord_text (n : Int) : toString n ≠ "" ∧ '_' ∉ (toString n).toList := by
  refine ⟨fun h => ?_, not_mem_text (by decide) (by decide) n⟩
  have hnil := congrArg String.toList h
  rw [toList_text] at hnil
  split at hnil
  · cases hnil
  · exact Nat.toDigits_ne_nil hnil

/-- Lowering keeps the text of an integer. -/
theorem lower_text (n : Int) : (toString n).toLower = toString n := by
  refine lower_eq_self fun c hc => ?_
  rcases eq_minus_or_isDigit n c hc with rfl | hdigit
  · decide
  · intro hcapital
    exact absurd (Char.le_trans hcapital.1 ((isDigit_iff c).mp hdigit).2) (by decide)

theorem read?_text (n : Int) :
    read? (toString n) = some ⟨decide (n < 0), Nat.toDigits 10 n.natAbs, none⟩ := by
  have hne : Nat.toDigits 10 n.natAbs ≠ [] := Nat.toDigits_ne_nil
  unfold read? readChars?
  rw [toList_text]
  by_cases hn : n < 0
  · rw [if_pos hn, decide_eq_true hn]
    exact readFraction_digits true hne isDigit_of_mem_toDigits
  · rw [if_neg hn, decide_eq_false hn, readSign_digits isDigit_of_mem_toDigits]
    exact readFraction_digits false hne isDigit_of_mem_toDigits

/-- A 64-bit integer is read back from its text. -/
theorem exists_read?_text (n : Int64) :
    ∃ numeral, read? (toString n) = some numeral ∧ numeral.number = .int n := by
  refine ⟨_, read?_text n.toInt, ?_⟩
  have hvalue : Binary64.signed (decide (n.toInt < 0))
      (digitsValue (Nat.toDigits 10 n.toInt.natAbs)) = n.toInt := by
    rw [digitsValue_toDigits, Binary64.signed]
    by_cases hn : n.toInt < 0
    · rw [if_pos (decide_eq_true hn)]
      omega
    · rw [if_neg (by simpa using hn)]
      omega
  have hfits : Int64.minValue.toInt ≤ n.toInt ∧ n.toInt ≤ Int64.maxValue.toInt :=
    ⟨n.minValue_le_toInt, n.toInt_le⟩
  simp only [number, integer?, hvalue, if_pos hfits, Int64.ofInt_toInt]

example : (read? "-9223372036854775808").map number = some (.int Int64.minValue) := by
  decide +kernel

end Numeral

/-! ## The order of integers -/

namespace Number

theorem atMost_int (a b : Int64) : (Number.int a).atMost (.int b) = true ↔ a ≤ b := by
  rw [atMost_iff_of_rank? (rank?_int a) (rank?_int b), Int64.le_iff_toInt_le]
  exact Int.mul_le_mul_right Binary64.scale_pos_int

end Number

end NameGuard
