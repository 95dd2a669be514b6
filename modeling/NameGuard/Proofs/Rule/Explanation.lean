import NameGuard.Proofs.Number.Integer
import NameGuard.Rule.Range
import NameGuard.Rule.TypeChoice

/-!
# What a rule says of itself and against a value

A range and a choice of types can say what they ask for, and why they do not admit a value. An
explanation is given exactly for the values that are not admitted. The mark `?` stands for what is
missing: neither the text of a number nor the name of a type has it, so a range with both bounds and
a choice with some tag describe themselves without it.

* `isNumberText`, `FloatStyle.isNumberText_text` — the characters of the text of a number;
* `Range.mark_not_mem_describe`, `TypeChoice.mark_not_mem_describe` — descriptions without a mark;
* `Range.explain_eq_none_iff`, `TypeChoice.explain_eq_none_iff` — explanations and verdicts;
* `Range.explain_of_not_number`, `Range.explain_of_outside`, `TypeChoice.explain_of_refused` — what
  is said against a value.
-/

set_option autoImplicit false

namespace NameGuard

/-! ## The characters of a number -/

/-- Whether a character may stand in the text of a number, `NaN` and `inf` included. -/
def isNumberChar (c : Char) : Bool :=
  c.isAlphanum || c == '-' || c == '.'

def isNumberText (s : String) : Bool :=
  s.toList.all isNumberChar

@[simp] theorem isNumberText_append (s t : String) :
    isNumberText (s ++ t) = (isNumberText s && isNumberText t) := by
  simp [isNumberText]

@[simp] theorem isNumberText_ofList (cs : List Char) :
    isNumberText (String.ofList cs) = cs.all isNumberChar := by
  simp [isNumberText]

theorem isNumberChar_of_isDigit {c : Char} (h : c.isDigit = true) : isNumberChar c = true := by
  simp [isNumberChar, Char.isAlphanum, h]

theorem all_isNumberChar_digits (d : Decimal) : d.digits.all isNumberChar = true := by
  rw [List.all_eq_true]
  intro c hc
  rw [Decimal.digits, List.mem_reverse] at hc
  have hall : c ∈ d.allDigits := List.mem_reverse.mp (List.dropWhile_subset _ hc)
  exact isNumberChar_of_isDigit (Numeral.isDigit_of_mem_toDigits c hall)

theorem all_isNumberChar_zeros (n : Nat) : (List.replicate n '0').all isNumberChar = true := by
  rw [List.all_eq_true]
  intro c hc
  rw [List.eq_of_mem_replicate hc]
  decide +kernel

namespace FloatStyle

/-- Digits are laid out with zeros and a decimal point around them, and nothing else. -/
theorem isNumberText_layPositional {digits : List Char} (h : digits.all isNumberChar = true)
    (point : Int) : isNumberText (plain.layPositional digits point) = true := by
  have hpoint : isNumberText "0." = true ∧ isNumberText "." = true ∧
      isNumberText plain.wholeMark = true := by decide +kernel
  have htake : (digits.take point.toNat).all isNumberChar = true :=
    List.all_eq_true.mpr fun c hc => List.all_eq_true.mp h c (List.mem_of_mem_take hc)
  have hdrop : (digits.drop point.toNat).all isNumberChar = true :=
    List.all_eq_true.mpr fun c hc => List.all_eq_true.mp h c (List.mem_of_mem_drop hc)
  unfold layPositional
  split
  · rw [isNumberText_append, hpoint.1, isNumberText_ofList, List.all_append,
      all_isNumberChar_zeros, h]
    rfl
  · rw [isNumberText_append, isNumberText_ofList, List.all_append, htake, all_isNumberChar_zeros]
    split
    · exact hpoint.2.2
    · rw [isNumberText_append, hpoint.2.1, isNumberText_ofList, hdrop]
      rfl

theorem isNumberText_text (x : Binary64) : isNumberText (plain.text x) = true := by
  have hsign : ∀ negative : Bool, isNumberText (if negative then "-" else "") = true := by
    decide +kernel
  cases x with
  | nan => decide +kernel
  | infinity negative =>
    rw [text, isNumberText_append, hsign]
    decide +kernel
  | finite negative significand exponent canonical =>
    rw [text, isNumberText_append, hsign, Bool.true_and]
    split
    · decide +kernel
    · exact isNumberText_layPositional (all_isNumberChar_digits _) _

end FloatStyle

theorem Range.isNumberText_boundText (bound : Number) : isNumberText (boundText bound) = true := by
  cases bound with
  | float x => exact FloatStyle.isNumberText_text x
  | int n =>
    rw [isNumberText, List.all_eq_true]
    intro c hc
    rcases Numeral.eq_minus_or_isDigit n.toInt c hc with rfl | h
    · decide +kernel
    · exact isNumberChar_of_isDigit h

/-! ## Descriptions without a mark -/

theorem not_mem_intercalate {c : Char} {separator : String} (hseparator : c ∉ separator.toList) :
    ∀ {words : List String}, (∀ word ∈ words, c ∉ word.toList) →
      c ∉ (separator.intercalate words).toList
  | [], _ => by simp
  | [word], h => by simpa using h word List.mem_cons_self
  | word :: next :: rest, h => by
    rw [String.intercalate_cons_of_ne_nil (List.cons_ne_nil _ _), String.toList_append,
      String.toList_append, List.mem_append, List.mem_append]
    rintro ((hc | hc) | hc)
    · exact h word List.mem_cons_self hc
    · exact hseparator hc
    · exact not_mem_intercalate hseparator (fun w hw => h w (List.mem_cons_of_mem _ hw)) hc

/-- A range with both bounds describes itself without a mark. -/
theorem Range.mark_not_mem_describe (low high : Number) :
    '?' ∉ (describe (.both low high)).toList := by
  have hmark : isNumberChar '?' = false := by decide +kernel
  have hbound : ∀ bound, '?' ∉ (boundText bound).toList := by
    intro bound h
    have htext := isNumberText_boundText bound
    rw [List.all_eq_true.mp htext '?' h] at hmark
    cases hmark
  have hdescribe : describe (.both low high) =
      "between " ++ boundText low ++ " and " ++ boundText high := rfl
  rw [hdescribe]
  simp only [String.toList_append, List.mem_append, not_or]
  exact ⟨⟨⟨by decide, hbound low⟩, by decide⟩, hbound high⟩

/-- A choice with some tag describes itself without a mark. -/
theorem TypeChoice.mark_not_mem_describe {choice : TypeChoice} (h : choice.tags ≠ []) :
    '?' ∉ choice.describe.toList := by
  have halternatives : choice.alternatives = " or ".intercalate (choice.tags.map TypeTag.name) :=
    if_neg (by simpa using h)
  have hnames : ∀ word ∈ choice.tags.map TypeTag.name, '?' ∉ word.toList := by
    intro word hword
    obtain ⟨tag, -, rfl⟩ := List.mem_map.mp hword
    cases tag <;> decide
  have hdescribe : choice.describe = "contains " ++ choice.alternatives := rfl
  rw [hdescribe, String.toList_append, List.mem_append, halternatives]
  exact not_or.mpr ⟨by decide, not_mem_intercalate (by decide) hnames⟩

/-! ## Explanations -/

namespace Range

section

variable {low high : Number} {value : Value}

/-- What a range with both bounds says against a value that is not a number. -/
theorem explain_of_not_number (h : Number.ofValue? value = Option.none) :
    (both low high).explain value =
      some ("value is not numeric: " ++ s!"{value.text} is {value.typeName}") := by
  simp only [explain, holds?, h, String.append_assoc]
  rfl

/-- What a range with both bounds says against a number that is not admitted. -/
theorem explain_of_outside {number : Number} (hnumber : Number.ofValue? value = some number)
    (h : (both low high).validate value = false) :
    (both low high).explain value = some ("value is out of range: " ++
      s!"{value.text} not in [{boundText low}, {boundText high}]") := by
  have hholds : (both low high).holds? value = some false := by
    simpa [validate, holds?, hnumber] using h
  simp only [explain, hholds, String.append_assoc]
  rfl

end

theorem explain_eq_none_iff (range : Range) (value : Value) :
    range.explain value = Option.none ↔ range.validate value = true := by
  cases range with
  | none => simp [explain, validate, holds?]
  | one bound => simp [explain, validate, holds?]
  | both low high =>
    unfold explain validate
    cases (both low high).holds? value with
    | none => simp
    | some within => cases within <;> simp

end Range

namespace TypeChoice

/-- What a choice of types says against a value that is not admitted. -/
theorem explain_of_refused {choice : TypeChoice} {value : Value}
    (h : choice.validate value = false) :
    choice.explain value = some ("value type is not permitted: " ++
      (s!"{value.text} is {value.typeName}, " ++ s!"expected {choice.alternatives}")) := by
  simp only [explain, h, String.append_assoc]
  rfl

theorem explain_eq_none_iff (choice : TypeChoice) (value : Value) :
    choice.explain value = none ↔ choice.validate value = true := by
  cases h : choice.validate value with
  | false => simp [explain_of_refused h]
  | true => simp [explain, h]

end TypeChoice

end NameGuard
