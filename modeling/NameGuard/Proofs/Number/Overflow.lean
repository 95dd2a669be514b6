import NameGuard.Proofs.Number.RealOrder

/-!
# Numerals beyond the finite numbers

A numeral writes a rational number, whatever its length. What is kept of it is an integer of 64 bits
or the nearest binary64 number, and that is an infinity where the numeral is beyond the finite
numbers by half a unit of the last of them, or by more.

* `Numeral.value` — the rational number that a numeral writes;
* `Binary64.lt_roundQuotient_iff` — when a quotient is rounded up beyond an odd integer;
* `Binary64.overflowRank_le_roundedRank_iff` — the quotients that are rounded to an infinity;
* `Numeral.number_eq_infinity_iff` — the numerals that are kept as an infinity.
-/

set_option autoImplicit false

namespace NameGuard

open Binary64 (scale overflowRank signed)

/-! ## Infinite values -/

/-- The end of the extended real line that an infinity stands for. -/
noncomputable def endOfLine (negative : Bool) : EReal := if negative then ⊥ else ⊤

theorem coe_ne_endOfLine (x : ℝ) (negative : Bool) : (x : EReal) ≠ endOfLine negative := by
  cases negative with
  | true => exact EReal.coe_ne_bot x
  | false => exact EReal.coe_ne_top x

theorem Binary64.value?_eq_endOfLine_iff (x : Binary64) (negative : Bool) :
    x.value? = some (endOfLine negative) ↔ x = .infinity negative := by
  cases x with
  | nan => simp [value?]
  | infinity sign => cases sign <;> cases negative <;> simp [value?, endOfLine]
  | finite sign significand exponent canonical =>
    simp only [value?, Option.some.injEq, reduceCtorEq, iff_false]
    exact coe_ne_endOfLine _ negative

/-- Nothing but an infinity stands for an end of the line. -/
theorem Number.value?_eq_endOfLine_iff (a : Number) (negative : Bool) :
    a.value? = some (endOfLine negative) ↔ a = .float (.infinity negative) := by
  cases a with
  | int n =>
    simp only [value?, Option.some.injEq, reduceCtorEq, iff_false]
    exact coe_ne_endOfLine _ negative
  | float x => rw [value?, Binary64.value?_eq_endOfLine_iff, float.injEq]

namespace Binary64

theorem rank?_eq_overflowRank_iff (x : Binary64) (negative : Bool) :
    x.rank? = some (signed negative overflowRank) ↔ x = .infinity negative := by
  constructor
  · intro h
    rw [← value?_eq_endOfLine_iff, (value?_of_rank? h).1, valueAt_signed_overflowRank]
    rfl
  · rintro rfl
    rfl

/-! ## Rounding beyond the finite numbers -/

/-- A quotient is rounded up beyond an odd integer from half a unit above it on: the tie goes to the
even neighbour. -/
theorem lt_roundQuotient_iff {num den k : Nat} (hden : 0 < den) (hodd : k % 2 = 1) :
    k < roundQuotient num den ↔ (2 * k + 1) * den ≤ 2 * num := by
  have hnum := Nat.div_add_mod num den
  have hrest := Nat.mod_lt num hden
  have hcases := roundQuotient_cases num den
  have hexpand : (2 * k + 1) * den = 2 * (den * k) + den := by ring
  rcases Nat.lt_trichotomy (num / den) k with hlt | heq | hgt
  · have hmul : den * (num / den + 1) ≤ den * k := Nat.mul_le_mul_left den hlt
    rw [Nat.mul_add, Nat.mul_one] at hmul
    omega
  · rw [heq] at hnum hcases
    omega
  · have hmul : den * (k + 1) ≤ den * (num / den) := Nat.mul_le_mul_left den hgt
    rw [Nat.mul_add, Nat.mul_one] at hmul
    omega

/-- Half a unit beyond the greatest finite number, `2 ^ 1024 - 2 ^ 970`. -/
def overflowBound : Nat := (twoPow 54 - 1) * twoPow 970

theorem two_mul_overflowBound : 2 * (overflowBound * scale) = (twoPow 54 - 1) * twoPow 2045 := by
  decide +kernel

theorem overflowBound_bounds :
    twoPow 2097 ≤ overflowBound * scale ∧ overflowBound * scale ≤ twoPow 2098 := by
  decide +kernel

/-- Below the last exponent of the format a quotient is less than `2 ^ 1023`. -/
theorem mul_scale_lt_of_quotientExponent_lt {num den : Nat} (hden : 0 < den)
    (h : quotientExponent num den < 2045) : num * scale < twoPow 2097 * den := by
  have hlog : (num * scale / den).log2 + 1 ≤ 2097 := by
    unfold quotientExponent at h
    omega
  rw [← Nat.div_lt_iff_lt_mul hden]
  exact Nat.lt_of_lt_of_le (lt_twoPow_log2_succ _) (twoPow_le_twoPow hlog)

/-- Above it a quotient is `2 ^ 1024` at least. -/
theorem le_mul_scale_of_lt_quotientExponent {num den : Nat} (hden : 0 < den)
    (h : 2045 < quotientExponent num den) : twoPow 2098 * den ≤ num * scale := by
  have hlog : 2098 ≤ (num * scale / den).log2 := by
    unfold quotientExponent at h
    omega
  have hne : num * scale / den ≠ 0 := by
    intro hzero
    rw [hzero] at hlog
    exact absurd hlog (by decide)
  rw [← Nat.le_div_iff_mul_le hden]
  exact Nat.le_trans (twoPow_le_twoPow hlog) (twoPow_log2_le hne)

/-- A quotient is rounded to an infinity from half a unit beyond the greatest finite number on. -/
theorem overflowRank_le_roundedRank_iff (num : Nat) {den : Nat} (hden : 0 < den) :
    overflowRank ≤ roundedRank num den ↔ overflowBound * den ≤ num := by
  obtain ⟨hupper, hfull⟩ := significand_bounds num den
  obtain ⟨hlow, hhigh⟩ := overflowBound_bounds
  have hscaled : overflowBound * den ≤ num ↔ overflowBound * scale * den ≤ num * scale := by
    rw [Nat.mul_right_comm, Nat.mul_le_mul_right_iff scale_pos]
  rw [hscaled]
  rcases Nat.lt_trichotomy (quotientExponent num den) 2045 with hlt | heq | hgt
  · have hrank : roundedRank num den < overflowRank :=
      calc roundedRank num den
          ≤ twoPow 53 * twoPow 2044 := Nat.mul_le_mul hupper (twoPow_le_twoPow (by omega))
        _ = twoPow 2097 := (twoPow_add 53 2044).symm
        _ < overflowRank := twoPow_lt_twoPow (by decide)
    have hsmall : num * scale < overflowBound * scale * den :=
      Nat.lt_of_lt_of_le (mul_scale_lt_of_quotientExponent_lt hden hlt)
        (Nat.mul_le_mul_right den hlow)
    omega
  -- at the last exponent the significand decides: it must be rounded up to `2 ^ 53`
  · have hlast : overflowRank = twoPow 53 * twoPow 2045 := twoPow_add 53 2045
    have hodd : 2 * (twoPow 53 - 1) + 1 = twoPow 54 - 1 := by decide
    have hround : twoPow 53 - 1 < roundedSignificand num den ↔
        2 * (overflowBound * scale) * den ≤ 2 * (num * scale) := by
      rw [roundedSignificand, heq,
        lt_roundQuotient_iff (Nat.mul_pos hden (twoPow_pos _)) (by decide), hodd,
        two_mul_overflowBound, Nat.mul_comm den, Nat.mul_assoc]
    have hpos := twoPow_pos 53
    rw [roundedRank, heq, hlast, Nat.mul_le_mul_right_iff (twoPow_pos _)]
    rw [Nat.mul_assoc 2] at hround
    omega
  · have hrank : overflowRank ≤ roundedRank num den :=
      calc overflowRank
          = twoPow 52 * twoPow 2046 := twoPow_add 52 2046
        _ ≤ roundedRank num den :=
          Nat.mul_le_mul (hfull.resolve_left (by omega)) (twoPow_le_twoPow hgt)
    have hlarge : overflowBound * scale * den ≤ num * scale :=
      Nat.le_trans (Nat.mul_le_mul_right den hhigh) (le_mul_scale_of_lt_quotientExponent hden hgt)
    exact ⟨fun _ => hlarge, fun _ => hrank⟩

theorem signed_eq_signed_iff (sign negative : Bool) (m : Nat) {n : Nat} (hn : 0 < n) :
    signed sign m = signed negative n ↔ sign = negative ∧ m = n := by
  cases sign <;> cases negative <;> simp [signed] <;> omega

theorem ofQuotient_eq_infinity_iff (sign negative : Bool) (num : Nat) {den : Nat} (hden : 0 < den) :
    ofQuotient sign num den = .infinity negative ↔
      sign = negative ∧ overflowBound * den ≤ num := by
  rw [← rank?_eq_overflowRank_iff, rank?_ofQuotient, Option.some.injEq,
    signed_eq_signed_iff _ _ _ overflowRank_pos, min_eq_right_iff,
    overflowRank_le_roundedRank_iff num hden]

end Binary64

/-! ## Numerals -/

namespace Numeral

/-- The rational number that a numeral writes. -/
def value (numeral : Numeral) : ℚ :=
  signed numeral.negative (digitsValue numeral.digits) / tenPow (numeral.fraction.getD []).length

/-- Whether a numeral is beyond the finite numbers on one side, by half a unit of the last of them
or by more. -/
def Overflows (numeral : Numeral) (negative : Bool) : Prop :=
  if negative then numeral.value ≤ -(2 ^ 1024 - 2 ^ 970) else 2 ^ 1024 - 2 ^ 970 ≤ numeral.value

theorem cast_overflowBound : ((Binary64.overflowBound : Nat) : ℚ) = 2 ^ 1024 - 2 ^ 970 := by
  have hsub : Binary64.overflowBound = 2 ^ 1024 - 2 ^ 970 := by decide +kernel
  rw [hsub, Nat.cast_sub (by decide +kernel), Nat.cast_pow, Nat.cast_pow, Nat.cast_ofNat]

/-- A quotient with a sign is beyond a bound, on one side, where it has the sign of that side and
its magnitude is beyond the bound. -/
theorem signed_div_beyond_iff {b d : ℚ} (hb : 0 < b) (hd : 0 < d) (sign negative : Bool)
    (m : Nat) :
    (if negative then ((signed sign m : Int) : ℚ) / d ≤ -b else b ≤ (signed sign m : Int) / d) ↔
      sign = negative ∧ b * d ≤ m := by
  have hquotient : 0 ≤ (m : ℚ) / d := div_nonneg (Nat.cast_nonneg m) hd.le
  rw [← le_div_iff₀ hd]
  cases sign <;> cases negative <;> simp [signed, neg_div] <;> linarith

/-- Which numerals are beyond the finite numbers, by their sign and their digits. -/
theorem overflows_iff (numeral : Numeral) (negative : Bool) :
    numeral.Overflows negative ↔ numeral.negative = negative ∧
      Binary64.overflowBound * tenPow (numeral.fraction.getD []).length ≤
        digitsValue numeral.digits := by
  have hbound : (0 : ℚ) < Binary64.overflowBound := Nat.cast_pos.mpr (by decide +kernel)
  have hden : (0 : ℚ) < tenPow (numeral.fraction.getD []).length := Nat.cast_pos.mpr (tenPow_pos _)
  unfold Overflows value
  rw [← cast_overflowBound, signed_div_beyond_iff hbound hden, ← Nat.cast_mul, Nat.cast_le]

theorem number_cases (numeral : Numeral) :
    numeral.number = .float numeral.bound ∨
      ∃ n, numeral.integer? = some n ∧
        (Int64.minValue.toInt ≤ n ∧ n ≤ Int64.maxValue.toInt) ∧
        numeral.number = .int (Int64.ofInt n) := by
  unfold number
  split
  · rename_i n hn
    split
    · rename_i hrange
      exact .inr ⟨n, hn, hrange, rfl⟩
    · exact .inl rfl
  · exact .inl rfl

/-- A numeral that is kept as an integer is not beyond the finite numbers. -/
theorem not_overflows_of_integer? {numeral : Numeral} {n : Int} (h : numeral.integer? = some n)
    (hrange : Int64.minValue.toInt ≤ n ∧ n ≤ Int64.maxValue.toInt) (negative : Bool) :
    ¬ numeral.Overflows negative := by
  obtain ⟨sign, whole, fraction⟩ := numeral
  cases fraction with
  | some fraction => cases h
  | none =>
    obtain rfl : signed sign (digitsValue whole) = n := Option.some.inj h
    rw [overflows_iff]
    rintro ⟨-, hle⟩
    have hdigits : Numeral.digits ⟨sign, whole, none⟩ = whole := List.append_nil whole
    have hlarge : 9223372036854775808 < Binary64.overflowBound := by decide +kernel
    have habs := Binary64.natAbs_signed sign (digitsValue whole)
    have hmin := Number.minValue_eq
    have hmax := Number.maxValue_eq
    rw [hdigits, Option.getD_none, List.length_nil, tenPow_zero, Nat.mul_one] at hle
    omega

/-- **The numerals that are kept as an infinity** are those beyond the finite numbers. -/
theorem number_eq_infinity_iff (numeral : Numeral) (negative : Bool) :
    numeral.number = .float (.infinity negative) ↔ numeral.Overflows negative := by
  rcases numeral.number_cases with hfloat | ⟨n, hn, hrange, hint⟩
  · rw [hfloat, Number.float.injEq, bound, Binary64.ofQuotient_eq_infinity_iff _ _ _ (tenPow_pos _),
      overflows_iff]
  · rw [hint]
    simp only [reduceCtorEq, not_overflows_of_integer? hn hrange negative]

end Numeral

end NameGuard
