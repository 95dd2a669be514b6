import NameGuard.Numeral
import NameGuard.Proofs.Number.Comparison

/-!
# Numerals stand on the line

The value of a numeral is never a not-a-number: it has a rank, so any two of them are comparable.

* `Numeral.isSome_rank?_number` — numerals have ranks;
* `Number.compare?_ne_gt_iff` — where both numbers have ranks, one that is not above the other is at
  most the other;
* `Number.atMost_total` — of two numbers with ranks one is at most the other.
-/

set_option autoImplicit false

namespace NameGuard

namespace Binary64

theorem isSome_rank?_ofQuotient (negative : Bool) (num den : Nat) :
    (ofQuotient negative num den).rank?.isSome = true := by
  rw [rank?_ofQuotient]
  rfl

end Binary64

theorem Numeral.isSome_rank?_number (numeral : Numeral) :
    numeral.number.rank?.isSome = true := by
  have hbound : (Number.float numeral.bound).rank?.isSome = true :=
    Binary64.isSome_rank?_ofQuotient _ _ _
  unfold Numeral.number
  split
  · split
    · rfl
    · exact hbound
  · exact hbound

namespace Number

/-- A number that is not above another is at most the other, where both have ranks. -/
theorem compare?_ne_gt_iff {a b : Number} (ha : a.rank?.isSome = true)
    (hb : b.rank?.isSome = true) : a.compare? b ≠ some .gt ↔ a.atMost b = true := by
  obtain ⟨x, hx⟩ := Option.isSome_iff_exists.mp ha
  obtain ⟨y, hy⟩ := Option.isSome_iff_exists.mp hb
  rw [compare?_of_rank? hx hy, atMost_iff_of_rank? hx hy, Ne, Option.some.injEq, Int.compare_eq_gt]
  exact Int.not_lt

theorem atMost_total {a b : Number} (ha : a.rank?.isSome = true) (hb : b.rank?.isSome = true) :
    a.atMost b = true ∨ b.atMost a = true := by
  obtain ⟨x, hx⟩ := Option.isSome_iff_exists.mp ha
  obtain ⟨y, hy⟩ := Option.isSome_iff_exists.mp hb
  rw [atMost_iff_of_rank? hx hy, atMost_iff_of_rank? hy hx]
  exact Int.le_total x y

theorem mergeSort_pair (a b : Number) :
    [a, b].mergeSort atMost = if a.atMost b = true then [a, b] else [b, a] := by
  cases h : a.atMost b <;> simp [List.mergeSort, List.MergeSort.Internal.splitInTwo, h]

end Number

end NameGuard
