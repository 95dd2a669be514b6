import NameGuard.Proofs.Number.Integer
import NameGuard.Proofs.Number.Pattern
import NameGuard.Rule.Range

/-!
# Three readers of one word

A word that is offered as a bound meets three readers: that of numerals, that of binary64 numbers
and that of 64-bit integers. They take different words. What the first takes the second takes too,
and finds the same number, so that reading a bound can fail only at the first; and where there is no
decimal point the third finds the integer, if it fits.

* `Numeral.body`, `Numeral.readSign_of_read?` — the characters of a numeral after its sign;
* `Numeral.binary64_read?` — a numeral is read as binary64;
* `Numeral.readInteger?_of_read?` — a numeral without a decimal point is read as an integer;
* `readBound_of_read?`, `readBoundNumber_of_read?` — the bound that a numeral writes;
* `readBound_exact` — the words that are read as bounds.
-/

set_option autoImplicit false

namespace NameGuard

namespace Numeral

/-! ## The characters of a numeral -/

/-- The characters of a numeral after its sign. -/
def body (numeral : Numeral) : List Char :=
  match numeral.fraction with
  | none => numeral.whole
  | some fraction => numeral.whole ++ '.' :: fraction

/-- Whether the parts of a numeral are digits, and there is one at least. -/
structure IsProper (numeral : Numeral) : Prop where
  whole : ∀ c ∈ numeral.whole, c.isDigit = true
  fraction : ∀ c ∈ numeral.fraction.getD [], c.isDigit = true
  digits_ne_nil : numeral.digits ≠ []

/-- What was read before and at the decimal point makes the characters again. -/
theorem readFraction_eq_some {negative : Bool} {whole tail : List Char} {numeral : Numeral}
    (hwhole : ∀ c ∈ whole, c.isDigit = true)
    (h : readFraction negative whole tail = some numeral) :
    numeral.negative = negative ∧ numeral.body = whole ++ tail ∧ numeral.IsProper := by
  unfold readFraction at h
  split at h
  · split at h
    · cases h
    · rename_i hne
      cases h
      refine ⟨rfl, (List.append_nil whole).symm, hwhole, by simp, ?_⟩
      simpa [digits] using hne
  · rename_i fraction
    split at h
    · rename_i hdigits
      cases h
      rw [Bool.and_eq_true, List.all_eq_true] at hdigits
      refine ⟨rfl, rfl, hwhole, hdigits.1, ?_⟩
      simpa [digits, imp_iff_not_or] using hdigits.2
    · cases h
  · cases h

/-- A word that is a numeral is its sign, or none, and its characters. -/
theorem readSign_of_read? {word : String} {numeral : Numeral} (h : read? word = some numeral) :
    readSign word.toList = (numeral.negative, numeral.body) ∧ numeral.IsProper := by
  obtain ⟨hnegative, hbody, hproper⟩ :=
    readFraction_eq_some (fun c hc => List.mem_takeWhile_imp hc) h
  refine ⟨Prod.ext hnegative.symm ?_, hproper⟩
  rw [hbody, List.takeWhile_append_dropWhile]

theorem readSign_cases (cs : List Char) :
    cs = '-' :: (readSign cs).2 ∧ (readSign cs).1 = true ∨
      cs = '+' :: (readSign cs).2 ∧ (readSign cs).1 = false ∨
      cs = (readSign cs).2 ∧ (readSign cs).1 = false := by
  unfold readSign
  split <;> simp

/-! ## Read as binary64 -/

/-- Without an exponent the value of a decimal is that of a numeral. -/
theorem ofDecimal_eq_bound (numeral : Numeral) :
    Binary64.ofDecimal numeral.negative (digitsValue numeral.digits)
      ((numeral.fraction.getD []).length - (0 : Int)) = numeral.bound := by
  have hplaces : -(((numeral.fraction.getD []).length : Int) - 0) ≤ 0 := by omega
  rw [Binary64.ofDecimal, Int.toNat_of_nonpos hplaces, tenPow_zero, Nat.mul_one, Int.sub_zero,
    Int.toNat_natCast, bound]

theorem readDecimal?_body {numeral : Numeral} (h : numeral.IsProper) :
    Binary64.readDecimal? numeral.negative numeral.body = some numeral.bound := by
  have hvalue := numeral.ofDecimal_eq_bound
  have hne := h.digits_ne_nil
  obtain ⟨negative, whole, fraction⟩ := numeral
  cases fraction with
  | none =>
    obtain ⟨htake, hdrop⟩ := @takeWhile_dropWhile_digits whole [] h.whole (by simp)
    rw [List.append_nil] at htake hdrop
    have hwhole : whole ≠ [] := by simpa [digits] using hne
    simpa [Binary64.readDecimal?, body, htake, hdrop, Binary64.splitFraction,
      Binary64.readExponent?, hwhole, digits] using hvalue
  | some fraction =>
    obtain ⟨htake, hdrop⟩ := @takeWhile_dropWhile_digits whole ('.' :: fraction) h.whole (by simp)
    obtain ⟨hfraction, hrest⟩ := @takeWhile_dropWhile_digits fraction [] h.fraction (by simp)
    rw [List.append_nil] at hfraction hrest
    have hsome : ¬(whole = [] ∧ fraction = []) := by simpa [digits] using hne
    simpa [Binary64.readDecimal?, body, htake, hdrop, Binary64.splitFraction, hfraction, hrest,
      Binary64.readExponent?, hsome, digits] using hvalue

/-- What is a numeral can be read as binary64, and the number is that of the numeral. -/
theorem binary64_read? {word : String} {numeral : Numeral} (h : read? word = some numeral) :
    Binary64.read? word = some numeral.bound := by
  obtain ⟨hsign, hproper⟩ := readSign_of_read? h
  rw [Binary64.read?, hsign]
  simp only [readDecimal?_body hproper, Option.some_or]

/-! ## Read as an integer -/

theorem readInteger?_of_readSign {cs digits : List Char} {negative : Bool}
    (h : readSign cs = (negative, digits)) (hne : digits ≠ [])
    (hdigits : ∀ c ∈ digits, c.isDigit = true) :
    readInteger? cs = some (Binary64.signed negative (digitsValue digits)) := by
  rw [readInteger?, h]
  simp [hne, List.all_eq_true.mpr hdigits]

theorem dropWhile_plus {digits : List Char} (h : ∀ c ∈ digits, c.isDigit = true) :
    digits.dropWhile (· == '+') = digits := by
  cases digits with
  | nil => rfl
  | cons c rest =>
    refine List.dropWhile_cons_of_neg fun hplus => ?_
    obtain rfl : c = '+' := beq_iff_eq.mp hplus
    cases h '+' List.mem_cons_self

/-- A plus before digits makes no difference. -/
theorem readSign_dropWhile_plus {cs digits : List Char} {negative : Bool}
    (h : readSign cs = (negative, digits)) (hdigits : ∀ c ∈ digits, c.isDigit = true) :
    readSign (cs.dropWhile (· == '+')) = (negative, digits) := by
  have hcases := readSign_cases cs
  rw [h] at hcases
  rcases hcases with ⟨rfl, rfl⟩ | ⟨rfl, rfl⟩ | ⟨rfl, rfl⟩
  · exact h
  · rw [List.dropWhile_cons_of_pos rfl, dropWhile_plus hdigits, readSign_digits hdigits]
  · rw [dropWhile_plus hdigits, h]

/-- What is a numeral without a decimal point can be read as an integer. -/
theorem readInteger?_of_read? {word : String} {numeral : Numeral} (h : read? word = some numeral)
    (hpoint : numeral.fraction = none) :
    readInteger? (word.toList.dropWhile (· == '+')) =
      some (Binary64.signed numeral.negative (digitsValue numeral.whole)) := by
  obtain ⟨hsign, hproper⟩ := readSign_of_read? h
  have hbody : numeral.body = numeral.whole := by rw [body, hpoint]
  have hne : numeral.whole ≠ [] := by simpa [digits, hpoint] using hproper.digits_ne_nil
  rw [hbody] at hsign
  exact readInteger?_of_readSign (readSign_dropWhile_plus hsign hproper.whole) hne hproper.whole

/-- A numeral holds a decimal point exactly if it has a fraction, which may be empty. -/
theorem mem_point_iff {word : String} {numeral : Numeral} (h : read? word = some numeral) :
    '.' ∈ word.toList ↔ numeral.fraction.isSome = true := by
  obtain ⟨hsign, hproper⟩ := readSign_of_read? h
  have hword : '.' ∈ word.toList ↔ '.' ∈ numeral.body := by
    have hcases := readSign_cases word.toList
    rw [hsign] at hcases
    rcases hcases with ⟨hcs, -⟩ | ⟨hcs, -⟩ | ⟨hcs, -⟩ <;> simp [hcs]
  have hwhole : '.' ∉ numeral.whole := fun hmem => Bool.false_ne_true (hproper.whole '.' hmem)
  rw [hword, body]
  cases numeral.fraction with
  | none => simp [hwhole]
  | some fraction => simp

theorem number_of_fraction {numeral : Numeral} (h : numeral.fraction.isSome = true) :
    numeral.number = .float numeral.bound := by
  obtain ⟨negative, whole, fraction⟩ := numeral
  cases fraction with
  | none => cases h
  | some fraction => rfl

theorem bound_ne_nan (numeral : Numeral) : numeral.bound ≠ .nan := by
  intro h
  have hrank := Binary64.isSome_rank?_ofQuotient numeral.negative (digitsValue numeral.digits)
    (tenPow (numeral.fraction.getD []).length)
  rw [← bound, h] at hrank
  cases hrank

theorem number_ne_nan (numeral : Numeral) : numeral.number ≠ .float .nan := by
  intro h
  have hrank := numeral.isSome_rank?_number
  rw [h] at hrank
  cases hrank

end Numeral

/-! ## Bounds -/

theorem readBound_of_read? {word : String} {numeral : Numeral}
    (h : Numeral.read? word = some numeral) : readBound word = .ok numeral.bound := by
  simp [readBound, Numeral.isNumeral, h, Numeral.binary64_read? h]

theorem readBound_of_not_numeral {word : String} (h : Numeral.read? word = none) :
    readBound word = .error (.notNumeric word) := by
  simp [readBound, Numeral.isNumeral, h]

theorem readBoundNumber_of_read? {word : String} {numeral : Numeral}
    (h : Numeral.read? word = some numeral) : readBoundNumber word = .ok numeral.number := by
  rw [readBoundNumber, readBound_of_read? h]
  have hpoint := Numeral.mem_point_iff h
  cases hfraction : numeral.fraction with
  | some fraction =>
    rw [hfraction] at hpoint
    have hmem : '.' ∈ word.toList := hpoint.mpr rfl
    rw [Numeral.number_of_fraction (by rw [hfraction]; rfl)]
    simp [hmem]
  | none =>
    rw [hfraction] at hpoint
    have hmem : '.' ∉ word.toList := fun hmem => Bool.false_ne_true (hpoint.mp hmem)
    simp only [List.contains_iff_mem, hmem, if_false, readInt64?,
      Numeral.readInteger?_of_read? h hfraction, Numeral.number, Numeral.integer?, hfraction]
    -- both say by the same test whether the integer fits
    by_cases hfits : Int64.minValue.toInt ≤
          Binary64.signed numeral.negative (Numeral.digitsValue numeral.whole) ∧
        Binary64.signed numeral.negative (Numeral.digitsValue numeral.whole) ≤
          Int64.maxValue.toInt
    · simp only [if_pos hfits]
    · simp only [if_neg hfits]

theorem readBoundNumber_of_not_numeral {word : String} (h : Numeral.read? word = none) :
    readBoundNumber word = .error (.notNumeric word) := by
  rw [readBoundNumber, readBound_of_not_numeral h]

/-- **The words that are read as bounds** are the numerals: a sign or none, and then digits, with a
decimal point and more digits after them or without, or a decimal point and digits. All other words
are refused, with the word, for being none. What is a numeral can be read as binary64, so that no
second reason to refuse a word exists. The bound is the value of the numeral, an integer that fits
64 bits being kept exact where that is asked for, and it is never a not-a-number. -/
theorem readBound_exact (word : String) :
    (Numeral.isNumeral word = true ↔ word.toList ∈ Numeral.pattern.matches') ∧
    ((∃ bound, readBound word = .ok bound) ↔ word.toList ∈ Numeral.pattern.matches') ∧
    ((∃ bound, readBoundNumber word = .ok bound) ↔ word.toList ∈ Numeral.pattern.matches') ∧
    (∀ e, readBound word = .error e ↔
      word.toList ∉ Numeral.pattern.matches' ∧ e = .notNumeric word) ∧
    (∀ e, readBoundNumber word = .error e ↔
      word.toList ∉ Numeral.pattern.matches' ∧ e = .notNumeric word) ∧
    ¬(Numeral.isNumeral word = true ∧ Binary64.read? word = none) ∧
    (∀ bound, readBound word = .ok bound ↔
      ∃ numeral, Numeral.read? word = some numeral ∧ numeral.bound = bound) ∧
    (∀ bound, readBoundNumber word = .ok bound ↔
      ∃ numeral, Numeral.read? word = some numeral ∧ numeral.number = bound) ∧
    readBound word ≠ .ok .nan ∧ readBoundNumber word ≠ .ok (.float .nan) := by
  have hpattern := Numeral.isNumeral_iff word
  simp only [← hpattern, true_and, Numeral.isNumeral]
  cases h : Numeral.read? word with
  | none => simp [readBound_of_not_numeral h, readBoundNumber_of_not_numeral h, eq_comm]
  | some numeral =>
    simp [readBound_of_read? h, readBoundNumber_of_read? h, Numeral.binary64_read? h,
      numeral.bound_ne_nan, numeral.number_ne_nan]

end NameGuard
