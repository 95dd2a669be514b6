import NameGuard.Proofs.Declaration.Piece
import NameGuard.Proofs.Holder.Verdict
import NameGuard.Proofs.Name.Tokenize

/-!
# Integers within bounds

The name `scalar_with_integers_between_3_and_9` says what it looks like: its holder takes the
integers from 3 to 9 and nothing else. So it is for any two 64-bit integers, in either order.

* `integerRangeWords`, `integerRange` — the words of the declaration, and the constraints they make;
* `tokenize_integersBetween` — the words of the name;
* `Holder.ofName_integersBetween` — the holder of the name, and what it takes.
-/

set_option autoImplicit false

namespace NameGuard

/-! ## The two rules -/

theorem Range.validate_int_iff (low high n : Int64) :
    (Range.both (.int low) (.int high)).validate (.int n) = true ↔ low ≤ n ∧ n ≤ high := by
  show ((Number.int low).atMost (.int n) && (Number.int n).atMost (.int high)) = true ↔ _
  rw [Bool.and_eq_true, Number.atMost_int, Number.atMost_int]

theorem TypeChoice.validate_integers_iff (closed : Bool) (value : Value) :
    (TypeChoice.of [.integers] closed).validate value = true ↔ ∃ n, value = .int n := by
  cases value <;> simp [validate, TypeTag.admits, TypeTag.type, Value.typeOf]

/-! ## What the words declare -/

/-- A list of types that names integers is ended by the keyword of a range. -/
theorem Heading.constraint?_integers (position : Nat) (rest : List String) :
    Heading.constraint? ⟨position, "with", "integers" :: "between" :: rest⟩ =
      some ⟨.contains, "with", TypeChoice.of [.integers] true⟩ := by
  have hopens : opensClause "integers" = false ∧ opensClause "between" = true := by
    decide +kernel
  have hbody : Heading.body ⟨position, "with", "integers" :: "between" :: rest⟩ = ["integers"] := by
    simp [Heading.body, hopens]
  have htags : Heading.tags ⟨position, "with", "integers" :: "between" :: rest⟩ = [.integers] := by
    rw [Heading.tags, hbody]
    decide +kernel
  have hends : Heading.endsList ⟨position, "with", "integers" :: "between" :: rest⟩ = true := by
    simp [Heading.endsList, isListWord_of_opensClause hopens.2]
  rw [Heading.constraint?_of_tags rfl (by rw [htags]; decide), htags, hends]

/-- The words that declare integers between two bounds. -/
def integerRangeWords (a b : Int64) : List String :=
  ["with", "integers", "between", toString a, "and", toString b]

theorem map_lower_integerRangeWords (a b : Int64) :
    (integerRangeWords a b).map String.toLower = integerRangeWords a b := by
  have hfixed : ∀ word ∈ ["with", "integers"], word.toLower = word := by decide +kernel
  show "with".toLower :: "integers".toLower :: (rangeWords a b).map String.toLower = _
  rw [hfixed "with" (by simp), hfixed "integers" (by simp), map_lower_rangeWords]
  rfl

theorem headings_integerRangeWords (a b : Int64) :
    headings 0 (integerRangeWords a b) =
      [⟨0, "with", ["integers", "between", toString a, "and", toString b]⟩,
        ⟨2, "between", [toString a, "and", toString b]⟩] := by
  have hopens : opensClause "with" = true ∧ opensClause "integers" = false := by decide +kernel
  have hrange : headings 2 (rangeWords a b) = [⟨2, "between", [toString a, "and", toString b]⟩] :=
    headings_piece (by decide +kernel) (opensClause_of_mem_rangeWords a b) 2
  rw [integerRangeWords, headings, if_pos hopens.1, headings, if_neg (by simp [hopens.2])]
  exact congrArg _ hrange

/-- The constraints of integers between two bounds: a choice of one type, and a range. -/
def integerRange (low high : Int64) : List Constraint :=
  [⟨.contains, "with", TypeChoice.of [.integers] true⟩,
    ⟨.between, "between", Range.both (.int low) (.int high)⟩]

theorem Registry.constraints_integerRangeWords (a b : Int64) :
    (standard.parseLenient (integerRangeWords a b)).constraints =
      integerRange (min a b) (max a b) := by
  rw [constraints_standard, map_lower_integerRangeWords, headings_integerRangeWords,
    List.filterMap_cons_some (Heading.constraint?_integers 0 _),
    List.filterMap_cons_some (Heading.constraint?_rangeWords 2 a b), List.filterMap_nil,
    integerRange]

/-! ## The holder -/

/-- The name is cut into the words that declare the integers, and the type of the holder. -/
theorem tokenize_integersBetween (a b : Int64) :
    tokenize '_' s!"scalar_with_integers_between_{a}_and_{b}" =
      "scalar" :: integerRangeWords a b := by
  have hname : s!"scalar_with_integers_between_{a}_and_{b}" =
      (String.singleton '_').intercalate ("scalar" :: integerRangeWords a b) := by
    show "scalar_with_integers_between_" ++ toString a ++ "_and_" ++ toString b = _
    rw [← String.toList_inj]
    simp [integerRangeWords]
  have hscalar : "scalar".toLower = "scalar" := by decide +kernel
  have hwords : ∀ word ∈ "scalar" :: integerRangeWords a b, word ≠ "" ∧ '_' ∉ word.toList := by
    simp only [integerRangeWords, List.forall_mem_cons]
    exact ⟨by decide, by decide, by decide, by decide, Numeral.isWord_text a.toInt, by decide,
      Numeral.isWord_text b.toInt, by simp⟩
  rw [hname, tokenize_intercalate hwords, List.map_cons, hscalar, map_lower_integerRangeWords]

namespace Holder

section

variable {holder : Holder} {low high : Int64}

theorem accepts_integerRange_iff (h : holder.constraints = integerRange low high) (value : Value) :
    holder.accepts value = true ↔ ∃ n, value = .int n ∧ low ≤ n ∧ n ≤ high := by
  rw [accepts_iff, h, integerRange, List.forall_mem_cons, List.forall_mem_singleton]
  constructor
  · rintro ⟨hchoice, hrange⟩
    obtain ⟨n, rfl⟩ := (TypeChoice.validate_integers_iff true value).mp hchoice
    exact ⟨n, rfl, (Range.validate_int_iff low high n).mp hrange⟩
  · rintro ⟨n, rfl, hn⟩
    exact ⟨(TypeChoice.validate_integers_iff true _).mpr ⟨n, rfl⟩,
      (Range.validate_int_iff low high n).mpr hn⟩

/-- A value that is not an integer is turned away by the first constraint. -/
theorem write_integerRange_of_not_int (h : holder.constraints = integerRange low high)
    {value : Value} (hvalue : value.typeOf ≠ .int) :
    ∃ v, holder.write value = (.error (.violation v), holder) ∧ v.index = 0 := by
  have hget : holder.constraints[0]? =
      some ⟨.contains, "with", TypeChoice.of [.integers] true⟩ := by
    rw [h]
    rfl
  refine write_of_first_fault hget ?_ fun j hj => absurd hj (Nat.not_lt_zero j)
  rw [Bool.eq_false_iff]
  intro hvalidate
  obtain ⟨n, rfl⟩ := (TypeChoice.validate_integers_iff true value).mp hvalidate
  exact hvalue rfl

/-- An integer beyond the bounds passes the first constraint, and is turned away by the second. -/
theorem write_integerRange_of_outside (h : holder.constraints = integerRange low high)
    {n : Int64} (hn : ¬(low ≤ n ∧ n ≤ high)) :
    ∃ v, holder.write (.int n) = (.error (.violation v), holder) ∧ v.index = 1 := by
  have hget : holder.constraints[1]? =
      some ⟨.between, "between", Range.both (.int low) (.int high)⟩ := by
    rw [h]
    rfl
  refine write_of_first_fault hget ?_ fun j hj d hd => ?_
  · rw [Bool.eq_false_iff]
    exact fun hvalidate => hn ((Range.validate_int_iff low high n).mp hvalidate)
  · obtain rfl : j = 0 := by omega
    rw [h] at hd
    cases hd
    exact (TypeChoice.validate_integers_iff true _).mpr ⟨n, rfl⟩

end

theorem ofName_of_split {name : String} {parts : Name} (h : Name.split '_' name = .ok parts) :
    ofName name = .ok ⟨name, parts.holder, parseConstraints parts.declaration, none⟩ := by
  have hdialect : Name.split ({} : Dialect).separator name = .ok parts := h
  rw [ofName_eq_construct hdialect, construct_of_split h]

/-- **A name that declares integers between two bounds makes a holder of just these.** For any two
64-bit integers, in either order, the holder has two constraints, and takes exactly the integers
from the lesser to the greater. Whatever is not an integer is turned away by the first constraint,
and an integer beyond the bounds by the second. -/
theorem ofName_integersBetween (a b : Int64) :
    ∃ holder, Holder.ofName s!"scalar_with_integers_between_{a}_and_{b}" = .ok holder ∧
      holder.constraints = [⟨.contains, "with", TypeChoice.of [.integers] true⟩,
        ⟨.between, "between", Range.both (.int (min a b)) (.int (max a b))⟩] ∧
      holder.constraints.map Constraint.args =
        [[.word "integers"], [.integer (min a b), .integer (max a b)]] ∧
      (∀ value, holder.accepts value = true ↔
        ∃ n, value = .int n ∧ min a b ≤ n ∧ n ≤ max a b) ∧
      (∀ value, value.typeOf ≠ .int →
        ∃ v, holder.write value = (.error (.violation v), holder) ∧ v.index = 0) ∧
      (∀ n, ¬(min a b ≤ n ∧ n ≤ max a b) →
        ∃ v, holder.write (.int n) = (.error (.violation v), holder) ∧ v.index = 1) := by
  have hsplit : Name.split '_' s!"scalar_with_integers_between_{a}_and_{b}" =
      .ok ⟨.scalar, integerRangeWords a b⟩ := by
    unfold Name.split
    rw [tokenize_integersBetween]
    rfl
  have hname := ofName_of_split hsplit
  rw [parseConstraints, Registry.constraints_integerRangeWords] at hname
  exact ⟨_, hname, rfl, rfl, accepts_integerRange_iff rfl,
    fun value => write_integerRange_of_not_int rfl, fun n => write_integerRange_of_outside rfl⟩

end Holder

end NameGuard
