import NameGuard.Proofs.Number.Reader
import NameGuard.Proofs.Rule.Offer

/-!
# What a range makes of words

Of the words it is offered a range takes the first two numerals, and puts them in ascending order.
All other words it refuses, and they leave it as it is.

* `Range.settles` — a range with two bounds refuses every word;
* `Range.feed_none` — the bounds after some words, by the numbers that they write;
* `Range.refused_none` — the words that are refused;
* `Range.ofNumbers_pair` — the two bounds are the two numbers, sorted.
-/

set_option autoImplicit false

namespace NameGuard

/-- The numbers that some words write. -/
def numbers (words : List String) : List Number :=
  (words.filterMap Numeral.read?).map Numeral.number

theorem numbers_cons_numeral {word : String} {numeral : Numeral}
    (h : Numeral.read? word = some numeral) (rest : List String) :
    numbers (word :: rest) = numeral.number :: numbers rest := by
  simp [numbers, h]

theorem numbers_cons_other {word : String} (h : Numeral.read? word = none)
    (rest : List String) : numbers (word :: rest) = numbers rest := by
  simp [numbers, h]

namespace Range

def ofNumbers : List Number → Range
  | [] => .none
  | [first] => .one first
  | first :: second :: _ => ofPair first second

/-! ## One word -/

theorem consume_numeral {word : String} {numeral : Numeral}
    (h : Numeral.read? word = some numeral) (range : Range) :
    range.consume word = range.insert numeral.number := by
  simp [consume, readBoundNumber_of_read? h]

theorem consume_other {word : String} (h : Numeral.read? word = .none) (range : Range) :
    range.consume word = (false, range) :=
  range.consume_of_not_numeral word (by simp [Numeral.isNumeral, h])

theorem consume_both (low high : Number) (word : String) :
    (Range.both low high).consume word = (false, .both low high) := by
  cases h : Numeral.read? word with
  | some numeral => exact consume_numeral h _
  | none => exact consume_other h _

theorem settles : rule.Settles := by
  intro range word h
  cases range with
  | none => cases h
  | one bound => cases h
  | both low high => exact consume_both low high word

theorem ofPair_eq_both (first second : Number) :
    ∃ low high, ofPair first second = .both low high := by
  unfold ofPair
  split
  · exact ⟨second, first, rfl⟩
  · exact ⟨first, second, rfl⟩

theorem consume_ofPair (first second : Number) (word : String) :
    (ofPair first second).consume word = (false, ofPair first second) := by
  obtain ⟨low, high, h⟩ := ofPair_eq_both first second
  rw [h]
  exact consume_both low high word

/-! ## The state after some words -/

theorem feed_one (first : Number) (words : List String) :
    feed consume (.one first) words = ofNumbers (first :: numbers words) := by
  induction words with
  | nil => rfl
  | cons word rest ih =>
    cases h : Numeral.read? word with
    | some numeral =>
      rw [feed_cons, consume_numeral h, numbers_cons_numeral h]
      exact feed_of_stuck (consume_ofPair first numeral.number) rest
    | none => rw [feed_cons, consume_other h, numbers_cons_other h, ih]

/-- The bounds of a range after some words are those of the first two numbers that they write. -/
theorem feed_none (words : List String) :
    feed consume .none words = ofNumbers (numbers words) := by
  induction words with
  | nil => rfl
  | cons word rest ih =>
    cases h : Numeral.read? word with
    | some numeral =>
      rw [feed_cons, consume_numeral h, numbers_cons_numeral h]
      exact feed_one numeral.number rest
    | none => rw [feed_cons, consume_other h, numbers_cons_other h, ih]

/-! ## The words that are refused -/

theorem refused_one (first : Number) (words : List String) :
    refused consume (.one first) words = words.eraseP Numeral.isNumeral := by
  induction words with
  | nil => rfl
  | cons word rest ih =>
    cases h : Numeral.read? word with
    | some numeral =>
      have hword : Numeral.isNumeral word = true := by simp [Numeral.isNumeral, h]
      have htaken : (Range.one first).consume word = (true, ofPair first numeral.number) :=
        consume_numeral h _
      rw [List.eraseP_cons_of_pos hword, refused_cons_taken htaken,
        refused_of_stuck (consume_ofPair first numeral.number)]
    | none =>
      have hword : Numeral.isNumeral word ≠ true := by simp [Numeral.isNumeral, h]
      rw [List.eraseP_cons_of_neg hword, refused_cons_refused (consume_other h _), ih]

/-- The words that a range refuses are those that are left when the first two numerals are taken
away. -/
theorem refused_none (words : List String) :
    refused consume .none words =
      (words.eraseP Numeral.isNumeral).eraseP Numeral.isNumeral := by
  induction words with
  | nil => rfl
  | cons word rest ih =>
    cases h : Numeral.read? word with
    | some numeral =>
      have hword : Numeral.isNumeral word = true := by simp [Numeral.isNumeral, h]
      have htaken : Range.none.consume word = (true, .one numeral.number) := consume_numeral h _
      rw [List.eraseP_cons_of_pos hword, refused_cons_taken htaken, refused_one]
    | none =>
      have hword : Numeral.isNumeral word ≠ true := by simp [Numeral.isNumeral, h]
      rw [List.eraseP_cons_of_neg hword, List.eraseP_cons_of_neg hword,
        refused_cons_refused (consume_other h _), ih]

/-! ## The order of the bounds -/

/-- Two bounds with ranks are sorted by their exact order. -/
theorem ofNumbers_pair {first second : Number} (hfirst : first.rank?.isSome = true)
    (hsecond : second.rank?.isSome = true) (rest : List Number) :
    ∃ low high, [first, second].mergeSort Number.atMost = [low, high] ∧
      ofNumbers (first :: second :: rest) = .both low high := by
  -- A range swaps its bounds on `gt`, sorting does so where `atMost` fails: with ranks these agree.
  have hiff := Number.compare?_ne_gt_iff hfirst hsecond
  by_cases hgt : first.compare? second = some .gt
  · have hnot : first.atMost second = false := by
      rw [Bool.eq_false_iff, Ne, ← hiff]
      exact fun h => h hgt
    exact ⟨second, first, by simp [Number.mergeSort_pair, hnot], if_pos hgt⟩
  · have hle : first.atMost second = true := hiff.mp hgt
    exact ⟨first, second, by simp [Number.mergeSort_pair, hle], if_neg hgt⟩

theorem isSome_rank?_of_mem_numbers {words : List String} {number : Number}
    (h : number ∈ numbers words) : number.rank?.isSome = true := by
  obtain ⟨numeral, -, rfl⟩ := List.mem_map.mp h
  exact numeral.isSome_rank?_number

end Range

/-! ## Clauses of ranges -/

namespace Clause

theorem feed_between (position : Nat) (keyword : String) (range : Range)
    (words : List String) :
    feed offer ⟨position, .between, keyword, range⟩ words =
      ⟨position, .between, keyword, feed Range.consume range words⟩ :=
  @feed_of_settles .between Range.settles position keyword range words

theorem refused_between (position : Nat) (keyword : String) (range : Range)
    (words : List String) :
    refused offer ⟨position, .between, keyword, range⟩ words =
      refused Range.consume range words :=
  @refused_of_settles .between Range.settles position keyword range words

end Clause

end NameGuard
