import NameGuard.Proofs.Number.Overflow
import NameGuard.Proofs.Rule.Bounds

/-!
# Ranges and numbers that are not finite

A not-a-number lies in no range. An infinity lies in a range that has it as a bound, and in no
other; and a range has it as a bound if one of the two numerals that it took is so long that it is
beyond the finite numbers, although what it writes is a finite number itself.

* `Range.validate_ofPair_infinity` — a range of two numbers admits the infinities among them;
* `Range.validate_nonfinite` — the numbers, not finite, that a range admits after any words.
-/

set_option autoImplicit false

namespace NameGuard

namespace Number

/-- Every number with a rank stands between the infinities, and next to one of them only that
infinity itself. -/
theorem atMost_infinity_iff {a : Number} (ha : a.rank?.isSome = true) :
    (a.atMost (.float (.infinity false)) = true ∧
      (Number.float (.infinity true)).atMost a = true) ∧
    ((Number.float (.infinity false)).atMost a = true ↔ a = .float (.infinity false)) ∧
    (a.atMost (.float (.infinity true)) = true ↔ a = .float (.infinity true)) := by
  obtain ⟨r, hr⟩ := Option.isSome_iff_exists.mp ha
  obtain ⟨hvalue, -⟩ := value?_of_rank? hr
  have htop : (Number.float (.infinity false)).value? = some ⊤ := rfl
  have hbot : (Number.float (.infinity true)).value? = some ⊥ := rfl
  have heqtop : a.value? = some ⊤ ↔ a = .float (.infinity false) :=
    a.value?_eq_endOfLine_iff false
  have heqbot : a.value? = some ⊥ ↔ a = .float (.infinity true) := a.value?_eq_endOfLine_iff true
  rw [hvalue, Option.some.injEq] at heqtop heqbot
  rw [atMost_iff_of_value? hvalue htop, atMost_iff_of_value? hbot hvalue,
    atMost_iff_of_value? htop hvalue, atMost_iff_of_value? hvalue hbot, top_le_iff, le_bot_iff]
  exact ⟨⟨le_top, bot_le⟩, heqtop, heqbot⟩

end Number

namespace Range

theorem validate_ofPair_infinity {first second : Number} (hfirst : first.rank?.isSome = true)
    (hsecond : second.rank?.isSome = true) (negative : Bool) :
    (ofPair first second).validate (.float (.infinity negative)) = true ↔
      first = .float (.infinity negative) ∨ second = .float (.infinity negative) := by
  obtain ⟨⟨hle, hge⟩, htop, hbot⟩ := Number.atMost_infinity_iff hfirst
  obtain ⟨-, htop', hbot'⟩ := Number.atMost_infinity_iff hsecond
  have hvalue : Number.ofValue? (.float (.infinity negative)) =
      some (.float (.infinity negative)) := rfl
  rw [validate_ofPair hfirst hsecond hvalue]
  cases negative with
  | false => rw [htop, htop', and_iff_right (.inl hle)]
  | true => rw [hbot, hbot', and_iff_left (.inl hge)]

theorem validate_after_infinity_iff (words : List String) (negative : Bool) :
    (after words).validate (.float (.infinity negative)) = true ↔
      ∃ first second, (words.filterMap Numeral.read?).take 2 = [first, second] ∧
        (first.Overflows negative ∨ second.Overflows negative) := by
  rw [after_eq, numbers]
  rcases words.filterMap Numeral.read? with _ | ⟨first, _ | ⟨second, rest⟩⟩
  · simp [ofNumbers, validate, holds?]
  · simp [ofNumbers, validate, holds?]
  · rw [List.map_cons, List.map_cons, ofNumbers,
      validate_ofPair_infinity first.isSome_rank?_number second.isSome_rank?_number,
      Numeral.number_eq_infinity_iff, Numeral.number_eq_infinity_iff]
    simp

/-- **The numbers, not finite, that a range admits.** After any words a range admits no
not-a-number. It admits an infinity exactly if the words hold two numerals, and one of the first two
is beyond the finite numbers on the side of that infinity: below `2 ^ 1024 - 2 ^ 970` in magnitude
no numeral lets an infinity in. -/
theorem validate_nonfinite (words : List String) :
    (after words).validate (.float .nan) = false ∧
    ∀ negative, (after words).validate (.float (.infinity negative)) = true ↔
      ∃ first second, (words.filterMap Numeral.read?).take 2 = [first, second] ∧
        (first.Overflows negative ∨ second.Overflows negative) :=
  ⟨validate_nan _, validate_after_infinity_iff words⟩

/-- A range from `0` to `10 ^ 309`, a numeral of 310 digits, admits the positive infinity. -/
theorem validate_infinity_of_long_numeral :
    ∃ numeral : Numeral,
      Numeral.read? (String.ofList ('1' :: List.replicate 309 '0')) = some numeral ∧
      numeral.value = 10 ^ 309 ∧
      (after ["0", String.ofList ('1' :: List.replicate 309 '0')]).validate
        (.float (.infinity false)) = true := by
  have hzero : Numeral.read? "0" = some ⟨false, ['0'], .none⟩ := by decide +kernel
  have hlong : Numeral.read? (String.ofList ('1' :: List.replicate 309 '0')) =
      some ⟨false, '1' :: List.replicate 309 '0', .none⟩ := by
    rw [Numeral.read?, String.toList_ofList]
    decide +kernel
  have hread : ["0", String.ofList ('1' :: List.replicate 309 '0')].filterMap Numeral.read? =
      [⟨false, ['0'], .none⟩, ⟨false, '1' :: List.replicate 309 '0', .none⟩] := by
    rw [List.filterMap_cons_some hzero, List.filterMap_cons_some hlong]
    rfl
  have hoverflows : Numeral.Overflows ⟨false, '1' :: List.replicate 309 '0', .none⟩ false := by
    rw [← Numeral.number_eq_infinity_iff]
    decide +kernel
  refine ⟨_, hlong, by decide +kernel, ?_⟩
  rw [validate_after_infinity_iff, hread]
  exact ⟨_, _, rfl, .inr hoverflows⟩

end Range

end NameGuard
