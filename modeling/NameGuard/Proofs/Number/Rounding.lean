import NameGuard.Binary64

/-!
# Rounding to the nearest binary64 number

A quotient is rounded at the least exponent that leaves 53 bits. There the significand is rounded to
an integer, and what comes out is the rank of the result, up to the overflow to an infinity. From
this rounding keeps the order of quotients, and keeps the integers of 53 bits as they are.

* `Binary64.roundQuotient_mono`, `Binary64.significand_bounds` — the rounded significand;
* `Binary64.rank?_ofQuotient` — the rank of a rounded quotient;
* `Binary64.roundedRank_mono` — a greater quotient is not rounded to a smaller number;
* `Binary64.rank?_ofInt` — an integer of 53 bits is not rounded.
-/

set_option autoImplicit false

namespace NameGuard

theorem twoPow_le_twoPow {m n : Nat} (h : m ≤ n) : twoPow m ≤ twoPow n :=
  Nat.pow_le_pow_right (by decide) h

theorem twoPow_lt_twoPow {m n : Nat} (h : m < n) : twoPow m < twoPow n :=
  Nat.pow_lt_pow_right (by decide) h

theorem twoPow_dvd_twoPow {m n : Nat} (h : m ≤ n) : twoPow m ∣ twoPow n :=
  Nat.pow_dvd_pow 2 h

theorem twoPow_log2_le {n : Nat} (h : n ≠ 0) : twoPow n.log2 ≤ n := Nat.log2_self_le h

theorem lt_twoPow_log2_succ (n : Nat) : n < twoPow (n.log2 + 1) := Nat.lt_log2_self

theorem log2_lt_of_lt_twoPow {n k : Nat} (hk : 0 < k) (h : n < twoPow k) : n.log2 < k := by
  rcases Nat.eq_zero_or_pos n with rfl | hpos
  · exact hk
  · exact (Nat.log2_lt (by omega)).mpr h

namespace Binary64

/-! ## The nearest integer -/

/-- The nearest of the two integers around a quotient, and at a tie the even one. -/
theorem roundQuotient_cases (num den : Nat) :
    (roundQuotient num den = num / den ∧ 2 * (num % den) ≤ den ∧
      (2 * (num % den) = den → num / den % 2 = 0)) ∨
    (roundQuotient num den = num / den + 1 ∧ den ≤ 2 * (num % den) ∧
      (2 * (num % den) = den → num / den % 2 = 1)) := by
  unfold roundQuotient
  dsimp only
  split
  · exact .inl ⟨rfl, by omega, by omega⟩
  · split
    · exact .inr ⟨rfl, by omega, by omega⟩
    · split
      · exact .inl ⟨rfl, by omega, by omega⟩
      · exact .inr ⟨rfl, by omega, by omega⟩

theorem roundQuotient_mono {a b : Nat} (h : a ≤ b) (den : Nat) :
    roundQuotient a den ≤ roundQuotient b den := by
  have hquotient : a / den ≤ b / den := Nat.div_le_div_right h
  -- between the same two integers the greater remainder is not rounded further down
  have hrest : a / den = b / den → a % den ≤ b % den := by
    intro heq
    have ha := Nat.div_add_mod a den
    have hb := Nat.div_add_mod b den
    rw [heq] at ha
    omega
  have ha := roundQuotient_cases a den
  have hb := roundQuotient_cases b den
  omega

theorem roundQuotient_of_dvd {num den : Nat} (h : den ∣ num) :
    roundQuotient num den = num / den := by
  have hrest : num % den = 0 := Nat.mod_eq_zero_of_dvd h
  unfold roundQuotient
  rw [hrest]
  rcases Nat.eq_zero_or_pos den with rfl | hpos
  · simp
  · simp [hpos]

/-! ## The significand -/

/-- The significand that a quotient is rounded to. -/
def roundedSignificand (num den : Nat) : Nat :=
  roundQuotient (num * scale) (den * twoPow (quotientExponent num den))

/-- The magnitude that a quotient is rounded to, in units of `2 ^ -1074`, as if there were no
overflow. -/
def roundedRank (num den : Nat) : Nat :=
  roundedSignificand num den * twoPow (quotientExponent num den)

/-- What an integer leaves of itself when it is cut to 53 bits. -/
theorem cut_bounds (q : Nat) :
    q / twoPow (q.log2 - 52) < twoPow 53 ∧
      (q.log2 - 52 = 0 ∨ twoPow 52 ≤ q / twoPow (q.log2 - 52)) := by
  constructor
  · rw [Nat.div_lt_iff_lt_mul (twoPow_pos _), ← twoPow_add]
    exact Nat.lt_of_lt_of_le (lt_twoPow_log2_succ q) (twoPow_le_twoPow (by omega))
  · by_cases hsmall : q.log2 ≤ 52
    · exact .inl (by omega)
    · have hne : q ≠ 0 := by
        rintro rfl
        exact hsmall (by decide)
      refine .inr ((Nat.le_div_iff_mul_le (twoPow_pos _)).mpr ?_)
      rw [← twoPow_add, Nat.add_sub_cancel' (by omega)]
      exact twoPow_log2_le hne

/-- The rounded significand has 53 bits, unless it has grown to `2 ^ 53`; and it needs them all,
unless the exponent is the least. -/
theorem significand_bounds (num den : Nat) :
    roundedSignificand num den ≤ twoPow 53 ∧
      (quotientExponent num den = 0 ∨ twoPow 52 ≤ roundedSignificand num den) := by
  obtain ⟨hupper, hlower⟩ := cut_bounds (num * scale / den)
  rw [Nat.div_div_eq_div_mul] at hupper hlower
  have hcases := roundQuotient_cases (num * scale) (den * twoPow (quotientExponent num den))
  unfold roundedSignificand quotientExponent at *
  generalize roundQuotient _ _ = significand at hcases ⊢
  constructor
  · omega
  · rcases hlower with hzero | hlower
    · exact .inl hzero
    · exact .inr (by omega)

/-! ## The rank -/

theorem rank?_ofCanonical (negative : Bool) {significand exponent : Nat}
    (hbits : significand < twoPow 53) (hfull : exponent = 0 ∨ twoPow 52 ≤ significand) :
    (ofCanonical negative significand exponent).rank? =
      some (signed negative (min (significand * twoPow exponent) overflowRank)) := by
  unfold ofCanonical
  by_cases hexponent : exponent ≤ 2045
  · have hcanonical : IsCanonical significand exponent := ⟨hbits, hexponent, hfull⟩
    rw [dif_pos hcanonical, rank?_finite]
    have hle : significand * twoPow exponent ≤ overflowRank :=
      calc significand * twoPow exponent
          ≤ twoPow 53 * twoPow 2045 :=
            Nat.mul_le_mul (Nat.le_of_lt hbits) (twoPow_le_twoPow hexponent)
        _ = overflowRank := (twoPow_add 53 2045).symm
    rw [Nat.min_eq_left hle]
  · rw [dif_neg fun h => hexponent h.2.1, rank?_infinity]
    have hle : overflowRank ≤ significand * twoPow exponent :=
      calc overflowRank
          = twoPow 52 * twoPow 2046 := twoPow_add 52 2046
        _ ≤ significand * twoPow exponent :=
            Nat.mul_le_mul (hfull.resolve_left (by omega)) (twoPow_le_twoPow (by omega))
    rw [Nat.min_eq_right hle]

/-- **The rank of a rounded quotient.** -/
theorem rank?_ofQuotient (negative : Bool) (num den : Nat) :
    (ofQuotient negative num den).rank? =
      some (signed negative (min (roundedRank num den) overflowRank)) := by
  obtain ⟨hupper, hfull⟩ := significand_bounds num den
  show (ofRounded negative (roundedSignificand num den) (quotientExponent num den)).rank? = _
  unfold ofRounded roundedRank
  split
  · rename_i hgrown
    -- the carry doubles the unit and halves the significand
    have hcarry : twoPow 53 * twoPow (quotientExponent num den) =
        twoPow 52 * twoPow (quotientExponent num den + 1) := by
      rw [← twoPow_add, ← twoPow_add]
      exact congrArg twoPow (by omega)
    rw [hgrown, hcarry]
    exact rank?_ofCanonical negative (by decide) (.inr (Nat.le_refl _))
  · rename_i hgrown
    exact rank?_ofCanonical negative (Nat.lt_of_le_of_ne hupper hgrown) hfull

theorem log2_mono {m n : Nat} (h : m ≤ n) : m.log2 ≤ n.log2 := by
  rcases Nat.eq_zero_or_pos m with rfl | hpos
  · exact Nat.zero_le _
  · refine (Nat.le_log2 (by omega)).mpr ?_
    exact Nat.le_trans (Nat.log2_self_le (by omega)) h

theorem quotientExponent_mono {m n : Nat} (h : m ≤ n) (den : Nat) :
    quotientExponent m den ≤ quotientExponent n den := by
  have hlog : (m * scale / den).log2 ≤ (n * scale / den).log2 :=
    log2_mono (Nat.div_le_div_right (Nat.mul_le_mul_right scale h))
  unfold quotientExponent
  omega

/-- A greater numerator is not rounded to a smaller number. -/
theorem roundedRank_mono {m n : Nat} (h : m ≤ n) (den : Nat) :
    roundedRank m den ≤ roundedRank n den := by
  rcases Nat.lt_or_eq_of_le (quotientExponent_mono h den) with hlt | heq
  -- the greatest significand at one exponent is the least at the next
  · obtain ⟨hupper, -⟩ := significand_bounds m den
    obtain ⟨-, hlower⟩ := significand_bounds n den
    calc roundedRank m den
        ≤ twoPow 53 * twoPow (quotientExponent m den) := Nat.mul_le_mul_right _ hupper
      _ = twoPow (53 + quotientExponent m den) := (twoPow_add _ _).symm
      _ ≤ twoPow (52 + quotientExponent n den) := twoPow_le_twoPow (by omega)
      _ = twoPow 52 * twoPow (quotientExponent n den) := twoPow_add _ _
      _ ≤ roundedRank n den := Nat.mul_le_mul_right _ (hlower.resolve_left (by omega))
  · unfold roundedRank roundedSignificand
    rw [heq]
    exact Nat.mul_le_mul_right _ (roundQuotient_mono (Nat.mul_le_mul_right scale h) _)

/-! ## Integers -/

theorem scale_pos : 0 < scale := twoPow_pos 1074

theorem twoPow_mul_scale (k : Nat) : twoPow k * scale = twoPow (k + 1074) :=
  (twoPow_add k 1074).symm

/-- An integer that is a multiple of the unit it is rounded at is not rounded. -/
theorem roundedRank_of_dvd {n : Nat} (h : twoPow (quotientExponent n 1) ∣ n * scale) :
    roundedRank n 1 = n * scale := by
  unfold roundedRank roundedSignificand
  rw [Nat.one_mul, roundQuotient_of_dvd h, Nat.div_mul_cancel h]

theorem roundedRank_of_le {n : Nat} (h : n ≤ twoPow 53) : roundedRank n 1 = n * scale := by
  refine roundedRank_of_dvd ?_
  rcases Nat.lt_or_eq_of_le h with hlt | rfl
  · have hexponent : quotientExponent n 1 ≤ 1074 := by
      have hle : n * scale / 1 < twoPow (53 + 1074) := by
        rw [Nat.div_one]
        calc n * scale
            < twoPow 53 * scale := Nat.mul_lt_mul_of_pos_right hlt scale_pos
          _ = twoPow (53 + 1074) := twoPow_mul_scale 53
      have hlog : (n * scale / 1).log2 < 53 + 1074 := log2_lt_of_lt_twoPow (by decide) hle
      unfold quotientExponent
      omega
    exact Nat.dvd_trans (twoPow_dvd_twoPow hexponent) (Nat.dvd_mul_left _ _)
  · decide +kernel

theorem signed_natAbs (n : Int) : signed (decide (n < 0)) n.natAbs = n := by
  unfold signed
  by_cases hn : n < 0
  · rw [if_pos (decide_eq_true hn)]
    omega
  · rw [if_neg (by simpa using hn)]
    omega

theorem signed_mul (negative : Bool) (m n : Nat) :
    signed negative (m * n) = signed negative m * n := by
  cases negative with
  | false => exact Int.natCast_mul m n
  | true => exact (congrArg Neg.neg (Int.natCast_mul m n)).trans (Int.neg_mul m n).symm

/-- An integer of 53 bits is not rounded. -/
theorem rank?_ofInt {n : Int} (h : n.natAbs ≤ twoPow 53) :
    (ofInt n).rank? = some (n * scale) := by
  have hbound : n.natAbs * scale ≤ overflowRank :=
    calc n.natAbs * scale
        ≤ twoPow 53 * twoPow 2045 := Nat.mul_le_mul h (twoPow_le_twoPow (by decide))
      _ = overflowRank := (twoPow_add 53 2045).symm
  unfold ofInt
  rw [rank?_ofQuotient, roundedRank_of_le h, Nat.min_eq_left hbound, signed_mul, signed_natAbs]

end Binary64

end NameGuard
