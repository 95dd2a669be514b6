import Mathlib.Computability.RegularExpressions
import Mathlib.Data.List.TakeWhile
import Mathlib.Tactic.IntervalCases
import NameGuard.Numeral
import NameGuard.Proofs.Text.Lowering

/-!
# The words that are numerals

The numerals are a regular language: a sign or none, then digits with a decimal point and more
digits or without, or a decimal point and digits. The reader takes the sign off and cuts at the
first character that is no digit, and takes exactly the words of this language.

* `Numeral.pattern` — the regular expression of numerals;
* `Numeral.mem_unsigned_iff` — where a word without a sign is cut;
* `Numeral.isNumeral_iff` — the words that are read.
-/

set_option autoImplicit false

namespace NameGuard

/-! ## The regular expression -/

/-- Any one of some characters. -/
def oneOf (cs : List Char) : RegularExpression Char :=
  cs.foldr (fun c rest => .char c + rest) 0

theorem mem_oneOf_iff (cs word : List Char) :
    word ∈ (oneOf cs).matches' ↔ ∃ c ∈ cs, word = [c] := by
  induction cs with
  | nil => simp [oneOf, RegularExpression.matches'_zero]
  | cons c rest ih =>
    have hcons : (oneOf (c :: rest)).matches' = {[c]} + (oneOf rest).matches' := rfl
    rw [hcons, Language.mem_add, ih, List.exists_mem_cons_iff]
    exact Iff.rfl

namespace Numeral

def anyDigit : RegularExpression Char := oneOf "0123456789".toList

/-- A sign, or none. -/
def anySign : RegularExpression Char := 1 + oneOf ['+', '-']

/-- Digits with a decimal point and more digits after them or without, or a decimal point and
digits. -/
def unsigned : RegularExpression Char :=
  anyDigit * anyDigit.star * (1 + .char '.' * anyDigit.star) +
    .char '.' * (anyDigit * anyDigit.star)

def pattern : RegularExpression Char := anySign * unsigned

/-! ## Digits -/

theorem mem_digits_iff (c : Char) : c ∈ "0123456789".toList ↔ c.isDigit = true := by
  constructor
  · intro h
    have hdigits : "0123456789".toList.all Char.isDigit = true := by decide +kernel
    exact List.all_eq_true.mp hdigits c h
  · intro h
    have hbounds := (isDigit_iff c).mp h
    have hlow : 48 ≤ c.toNat := UInt32.le_iff_toNat_le.mp hbounds.1
    have hhigh : c.toNat ≤ 57 := UInt32.le_iff_toNat_le.mp hbounds.2
    rw [← Char.ofNat_toNat c]
    interval_cases c.toNat <;> decide

theorem mem_anyDigit_iff (word : List Char) :
    word ∈ anyDigit.matches' ↔ ∃ c : Char, c.isDigit = true ∧ word = [c] := by
  simp only [anyDigit, mem_oneOf_iff, mem_digits_iff]

theorem mem_star_anyDigit_iff (word : List Char) :
    word ∈ anyDigit.star.matches' ↔ ∀ c ∈ word, c.isDigit = true := by
  rw [RegularExpression.matches'_star, Language.mem_kstar]
  constructor
  · rintro ⟨pieces, rfl, hpieces⟩ c hc
    obtain ⟨piece, hpiece, hmem⟩ := List.mem_flatten.mp hc
    obtain ⟨d, hd, rfl⟩ := (mem_anyDigit_iff piece).mp (hpieces piece hpiece)
    rwa [List.mem_singleton.mp hmem]
  · intro h
    refine ⟨word.map fun c => [c], by simp [← List.flatMap_def], fun piece hpiece => ?_⟩
    obtain ⟨c, hc, rfl⟩ := List.mem_map.mp hpiece
    exact (mem_anyDigit_iff _).mpr ⟨c, h c hc, rfl⟩

theorem mem_someDigits_iff (word : List Char) :
    word ∈ (anyDigit * anyDigit.star).matches' ↔ word ≠ [] ∧ ∀ c ∈ word, c.isDigit = true := by
  rw [RegularExpression.matches'_mul, Language.mem_mul]
  simp only [mem_anyDigit_iff, mem_star_anyDigit_iff]
  constructor
  · rintro ⟨_, ⟨c, hc, rfl⟩, rest, hrest, rfl⟩
    exact ⟨List.cons_ne_nil _ _, List.forall_mem_cons.mpr ⟨hc, hrest⟩⟩
  · rintro ⟨hne, hdigits⟩
    cases word with
    | nil => exact absurd rfl hne
    | cons c rest =>
      obtain ⟨hc, hrest⟩ := List.forall_mem_cons.mp hdigits
      exact ⟨[c], ⟨c, hc, rfl⟩, rest, hrest, rfl⟩

theorem mem_point_mul_iff (expression : RegularExpression Char) (word : List Char) :
    word ∈ (.char '.' * expression : RegularExpression Char).matches' ↔
      ∃ rest ∈ expression.matches', word = '.' :: rest := by
  rw [RegularExpression.matches'_mul, RegularExpression.matches'_char, Language.mem_mul]
  constructor
  · rintro ⟨_, rfl, rest, hrest, rfl⟩
    exact ⟨rest, hrest, rfl⟩
  · rintro ⟨rest, hrest, rfl⟩
    exact ⟨['.'], rfl, rest, hrest, rfl⟩

/-! ## Words without a sign -/

/-- What may follow the digits before the decimal point. -/
theorem isSome_readFraction_iff (negative : Bool) (whole tail : List Char) :
    (readFraction negative whole tail).isSome = true ↔
      (whole ≠ [] ∧ tail = []) ∨
        ∃ fraction, tail = '.' :: fraction ∧ (∀ c ∈ fraction, c.isDigit = true) ∧
          (whole ≠ [] ∨ fraction ≠ []) := by
  unfold readFraction
  split
  · cases whole <;> simp
  · rename_i fraction
    by_cases hdigits : ∀ c ∈ fraction, c.isDigit = true
    · cases whole <;> cases fraction <;> simp_all
    · simp [hdigits]
  · rename_i hnil hpoint
    simp only [Option.isSome_none, Bool.false_eq_true, false_iff, not_or, not_and, not_exists]
    exact ⟨fun _ => hnil, fun fraction htail => absurd htail (hpoint fraction)⟩

theorem mem_unsigned_cases (word : List Char) :
    word ∈ unsigned.matches' ↔
      ∃ whole tail, word = whole ++ tail ∧ (∀ c ∈ whole, c.isDigit = true) ∧
        ((whole ≠ [] ∧ tail = []) ∨
          ∃ fraction, tail = '.' :: fraction ∧ (∀ c ∈ fraction, c.isDigit = true) ∧
            (whole ≠ [] ∨ fraction ≠ [])) := by
  rw [unsigned, RegularExpression.matches'_add, Language.mem_add, mem_point_mul_iff,
    RegularExpression.matches'_mul, Language.mem_mul]
  simp only [RegularExpression.matches'_add, RegularExpression.matches'_epsilon, Language.mem_add,
    Language.mem_one, mem_point_mul_iff, mem_someDigits_iff, mem_star_anyDigit_iff]
  constructor
  · rintro (⟨whole, ⟨hne, hwhole⟩, tail, rfl | ⟨fraction, hfraction, rfl⟩, rfl⟩ |
      ⟨fraction, ⟨hne, hfraction⟩, rfl⟩)
    · exact ⟨whole, [], rfl, hwhole, .inl ⟨hne, rfl⟩⟩
    · exact ⟨whole, _, rfl, hwhole, .inr ⟨fraction, rfl, hfraction, .inl hne⟩⟩
    · exact ⟨[], _, rfl, by simp, .inr ⟨fraction, rfl, hfraction, .inr hne⟩⟩
  · rintro ⟨whole, _, rfl, hwhole, ⟨hne, rfl⟩ | ⟨fraction, rfl, hfraction, hsome⟩⟩
    · exact .inl ⟨whole, ⟨hne, hwhole⟩, [], .inl rfl, rfl⟩
    · by_cases hne : whole = []
      · subst hne
        exact .inr ⟨fraction, ⟨hsome.resolve_left (not_not.mpr rfl), hfraction⟩, rfl⟩
      · exact .inl ⟨whole, ⟨hne, hwhole⟩, _, .inr ⟨fraction, hfraction, rfl⟩, rfl⟩

/-- Digits end where something else begins. -/
theorem takeWhile_dropWhile_digits {whole tail : List Char}
    (hwhole : ∀ c ∈ whole, c.isDigit = true) (htail : ∀ c ∈ tail.head?, c.isDigit = false) :
    (whole ++ tail).takeWhile Char.isDigit = whole ∧
      (whole ++ tail).dropWhile Char.isDigit = tail := by
  rw [List.takeWhile_append_of_pos hwhole, List.dropWhile_append_of_pos hwhole]
  cases tail with
  | nil => simp
  | cons c rest =>
    have hc : c.isDigit = false := htail c rfl
    simp [hc]

/-- A word without a sign is cut where its first digits end. -/
theorem mem_unsigned_iff (negative : Bool) (word : List Char) :
    word ∈ unsigned.matches' ↔
      (readFraction negative (word.takeWhile Char.isDigit)
        (word.dropWhile Char.isDigit)).isSome = true := by
  rw [mem_unsigned_cases, isSome_readFraction_iff]
  constructor
  · rintro ⟨whole, tail, rfl, hwhole, htail⟩
    have hhead : ∀ c ∈ tail.head?, c.isDigit = false := by
      rcases htail with ⟨-, rfl⟩ | ⟨fraction, rfl, -⟩
      · simp
      · simp
    obtain ⟨htake, hdrop⟩ := takeWhile_dropWhile_digits hwhole hhead
    rwa [htake, hdrop]
  · intro h
    exact ⟨_, _, List.takeWhile_append_dropWhile.symm, fun c hc => List.mem_takeWhile_imp hc, h⟩

/-! ## Words with a sign -/

theorem mem_pattern_iff (word : List Char) :
    word ∈ pattern.matches' ↔
      word ∈ unsigned.matches' ∨
        ∃ rest ∈ unsigned.matches', word = '+' :: rest ∨ word = '-' :: rest := by
  rw [pattern, RegularExpression.matches'_mul, Language.mem_mul]
  simp only [anySign, RegularExpression.matches'_add, RegularExpression.matches'_epsilon,
    Language.mem_add, Language.mem_one, mem_oneOf_iff, List.mem_cons, List.not_mem_nil, or_false]
  constructor
  · rintro ⟨_, rfl | ⟨c, rfl | rfl, rfl⟩, rest, hrest, rfl⟩
    · exact .inl hrest
    · exact .inr ⟨rest, hrest, .inl rfl⟩
    · exact .inr ⟨rest, hrest, .inr rfl⟩
  · rintro (h | ⟨rest, hrest, rfl | rfl⟩)
    · exact ⟨[], .inl rfl, word, h, rfl⟩
    · exact ⟨['+'], .inr ⟨'+', .inl rfl, rfl⟩, rest, hrest, rfl⟩
    · exact ⟨['-'], .inr ⟨'-', .inr rfl, rfl⟩, rest, hrest, rfl⟩

/-- What stands before digits and a decimal point cannot be left on. -/
theorem not_mem_unsigned {c : Char} (hdigit : c.isDigit = false) (hpoint : c ≠ '.')
    (rest : List Char) : c :: rest ∉ unsigned.matches' := by
  rw [mem_unsigned_iff false, List.takeWhile_cons_of_neg (by simp [hdigit]),
    List.dropWhile_cons_of_neg (by simp [hdigit]), isSome_readFraction_iff]
  simp [hpoint]

/-- **The words that are read as numerals** are those of the regular expression. -/
theorem isNumeral_iff (word : String) :
    isNumeral word = true ↔ word.toList ∈ pattern.matches' := by
  unfold isNumeral read? readChars?
  rw [mem_pattern_iff, ← mem_unsigned_iff]
  generalize word.toList = cs
  unfold readSign
  split
  · rename_i rest
    have hnot := not_mem_unsigned (show '-'.isDigit = false by decide) (by decide) rest
    simp [hnot]
  · rename_i rest
    have hnot := not_mem_unsigned (show '+'.isDigit = false by decide) (by decide) rest
    simp [hnot]
  · rename_i hminus hplus
    constructor
    · exact .inl
    · rintro (h | ⟨rest, -, rfl | rfl⟩)
      · exact h
      · exact absurd rfl (hplus rest)
      · exact absurd rfl (hminus rest)

end Numeral

end NameGuard
