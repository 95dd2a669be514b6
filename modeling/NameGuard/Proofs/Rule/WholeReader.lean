import NameGuard.Proofs.Number.Reader
import NameGuard.Proofs.Rule.WholeBounds

/-!
# Integers as bounds

A word of digits, with a sign or without one, writes an integer, whatever its length and however
many zeros it begins with. As a bound it is kept as that integer exactly if the integer fits 64 bits,
the least one included; beyond them it is rounded to binary64. A word with a decimal point is never
kept as an integer. The text of an integer is such a word, so it reads back as what it was written
from, also with a plus before it.

* `Numeral.writesWhole_text`, `Numeral.writesWhole_plus_text` — the text of an integer;
* `Number.ofWhole_eq_int_iff` — the integers that are kept as they are;
* `readBoundNumber_of_writesWhole` — a word that writes an integer, as a bound;
* `readBoundNumber_integers` — the words that are kept as integers, and what they are kept as.
-/

set_option autoImplicit false

namespace NameGuard

namespace Numeral

/-! ## The text of an integer -/

theorem isDigits_toDigits (n : Nat) : IsDigits (Nat.toDigits 10 n) :=
  ⟨Nat.toDigits_ne_nil, List.all_eq_true.mpr isDigit_of_mem_toDigits⟩

/-- The text of an integer writes it. -/
theorem writesWhole_text (n : Int) : WritesWhole (toString n).toList n := by
  rw [toList_text]
  by_cases hn : n < 0
  · have hwrites := WritesWhole.minus (isDigits_toDigits n.natAbs)
    have habs : -(n.natAbs : Int) = n := by omega
    rw [Nat.ofDigitChars_ten_toDigits, habs] at hwrites
    rwa [if_pos hn]
  · have hwrites := WritesWhole.unsigned (isDigits_toDigits n.natAbs)
    have habs : (n.natAbs : Int) = n := by omega
    rw [Nat.ofDigitChars_ten_toDigits, habs] at hwrites
    rwa [if_neg hn]

theorem writesWhole_plus_text {n : Int} (h : 0 ≤ n) :
    WritesWhole ("+" ++ toString n).toList n := by
  have hwrites := WritesWhole.plus (isDigits_toDigits n.natAbs)
  rw [Nat.ofDigitChars_ten_toDigits, Int.natAbs_of_nonneg h] at hwrites
  rwa [String.toList_append, toList_text, if_neg (Int.not_lt.mpr h)]

end Numeral

/-! ## Integers that are kept -/

theorem Number.ofWhole_eq_int_iff (m : Int) (k : Int64) : ofWhole m = .int k ↔ k.toInt = m := by
  unfold ofWhole
  split
  · rename_i h
    rw [Number.int.injEq]
    constructor
    · rintro rfl
      exact Int64.toInt_ofInt_of_le h.1 (Int.lt_add_one_of_le h.2)
    · rintro rfl
      exact Int64.ofInt_toInt k
  · rename_i h
    refine iff_of_false (by simp) ?_
    rintro rfl
    exact h ⟨k.minValue_le_toInt, k.toInt_le⟩

open Numeral (WritesWhole)

theorem readBoundNumber_of_writesWhole {word : String} {n : Int}
    (h : WritesWhole word.toList n) : readBoundNumber word = .ok (.ofWhole n) := by
  obtain ⟨numeral, hread, hnumber⟩ := h.exists_read?
  rw [readBoundNumber_of_read? hread, hnumber]

/-- A word that writes an integer is kept as this integer, or as no integer. -/
theorem readBoundNumber_eq_int_iff {word : String} {n : Int} (h : WritesWhole word.toList n)
    (k : Int64) : readBoundNumber word = .ok (.int k) ↔ k.toInt = n := by
  rw [readBoundNumber_of_writesWhole h, Except.ok.injEq, Number.ofWhole_eq_int_iff]

/-- A word with a decimal point is not kept as an integer. -/
theorem readBoundNumber_of_point {word : String} (h : Numeral.isNumeral word = true)
    (hpoint : '.' ∈ word.toList) : ∃ x, readBoundNumber word = .ok (.float x) := by
  obtain ⟨numeral, hread⟩ := Option.isSome_iff_exists.mp h
  refine ⟨numeral.bound, ?_⟩
  rw [readBoundNumber_of_read? hread,
    Numeral.number_of_fraction ((Numeral.mem_point_iff hread).mp hpoint)]

/-- **The words that are kept as integers.** A word of digits, with a sign or without one, is kept
as the integer that it writes exactly if that lies between the least and the greatest integer of 64
bits, and as a binary64 number otherwise, the nearest one. A numeral with a decimal point is kept as
a binary64 number. The text of a 64-bit integer is kept as this integer, and so is the text after a
plus where the integer is not negative. -/
theorem readBoundNumber_integers :
    (∀ (word : String) (n : Int), WritesWhole word.toList n →
      ((∃ k : Int64, readBoundNumber word = .ok (.int k) ∧ k.toInt = n) ↔
        -9223372036854775808 ≤ n ∧ n ≤ 9223372036854775807) ∧
      (∀ k : Int64, readBoundNumber word = .ok (.int k) → k.toInt = n) ∧
      (¬(-9223372036854775808 ≤ n ∧ n ≤ 9223372036854775807) →
        readBoundNumber word = .ok (.float (Binary64.ofInt n)))) ∧
    (∀ word : String, Numeral.isNumeral word = true → '.' ∈ word.toList →
      ∃ x, readBoundNumber word = .ok (.float x)) ∧
    (∀ n : Int64, readBoundNumber (Argument.integer n).text = .ok (.int n) ∧
      (0 ≤ n → readBoundNumber ("+" ++ (Argument.integer n).text) = .ok (.int n))) := by
  refine ⟨fun word n h => ⟨?_, fun k => (readBoundNumber_eq_int_iff h k).mp, fun hout => ?_⟩,
    fun word => readBoundNumber_of_point, fun n => ⟨?_, fun hn => ?_⟩⟩
  · constructor
    · rintro ⟨k, -, rfl⟩
      exact Number.toInt_bounds k
    · intro hfits
      rw [← Number.minValue_eq, ← Number.maxValue_eq] at hfits
      have hvalue : (Int64.ofInt n).toInt = n :=
        Int64.toInt_ofInt_of_le hfits.1 (Int.lt_add_one_of_le hfits.2)
      exact ⟨Int64.ofInt n, (readBoundNumber_eq_int_iff h _).mpr hvalue, hvalue⟩
  · rw [readBoundNumber_of_writesWhole h, Number.ofWhole, Number.minValue_eq, Number.maxValue_eq,
      if_neg hout]
  · exact (readBoundNumber_eq_int_iff (Numeral.writesWhole_text n.toInt) n).mpr rfl
  · have hnonneg : 0 ≤ n.toInt := Int64.le_iff_toInt_le.mp hn
    exact (readBoundNumber_eq_int_iff (Numeral.writesWhole_plus_text hnonneg) n).mpr rfl

/-- The two asymmetric ends, with zeros before them, and the first integer beyond. -/
example : readBoundNumber "-0009223372036854775808" = .ok (.int Int64.minValue) ∧
    readBoundNumber "+0009223372036854775807" = .ok (.int Int64.maxValue) ∧
    readBoundNumber "9223372036854775808" = .ok (.float (Binary64.ofInt 9223372036854775808)) := by
  decide +kernel

end NameGuard
