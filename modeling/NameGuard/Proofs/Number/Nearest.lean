import NameGuard.Proofs.Number.Overflow

/-!
# The nearest binary64 number

A binary64 number is the nearest to a real number if no other number of the format is nearer, and
where another one is as near, it is the one with the even significand. Rounding finds it for each
quotient that is not beyond the finite numbers, so each integer of 64 bits is widened to the
binary64 number that is nearest to it. What is rounded so keeps its order, beside another number
that is rounded and beside any number of the format.

* `Binary64.roundQuotient_nearest` — the nearest multiple of a unit;
* `Binary64.roundedRank_nearest` — no magnitude of the format is nearer to a quotient;
* `Binary64.IsNearest` — the nearest number, a tie going to the even significand;
* `Binary64.isNearest_ofQuotient`, `Binary64.isNearest_ofInt` — rounding finds it;
* `Binary64.IsNearest.le_of_lt`, `Binary64.IsNearest.le_of_le` — the order is kept.
-/

set_option autoImplicit false

namespace NameGuard

namespace Binary64

/-! ## The nearest multiple -/

/-- No multiple of the denominator is nearer to the numerator than the one of the rounded quotient,
which is even if another is as near. -/
theorem roundQuotient_nearest (num : Nat) {den : Nat} (hden : 0 < den) (k : Nat) :
    Nat.dist (roundQuotient num den * den) num ≤ Nat.dist (k * den) num ∧
      (Nat.dist (roundQuotient num den * den) num = Nat.dist (k * den) num →
        roundQuotient num den = k ∨ roundQuotient num den % 2 = 0) := by
  have hnum := Nat.div_add_mod' num den
  have hrest := Nat.mod_lt num hden
  have hcases := roundQuotient_cases num den
  have hnext : (num / den + 1) * den = num / den * den + den := Nat.succ_mul _ _
  generalize num / den = below at hnum hcases hnext
  generalize num % den = rest at hnum hrest hcases
  generalize roundQuotient num den = rounded at hcases ⊢
  unfold Nat.dist
  -- the numerator stands between two multiples, and the others are beyond these
  have hplace : k < below ∨ k = below ∨ k = below + 1 ∨ below + 1 < k := by omega
  rcases hplace with hlt | rfl | rfl | hgt
  · have hmul : (k + 1) * den ≤ below * den := Nat.mul_le_mul_right den hlt
    rw [Nat.add_mul, Nat.one_mul] at hmul
    rcases hcases with ⟨rfl, hhalf, htie⟩ | ⟨rfl, hhalf, htie⟩ <;> omega
  · rcases hcases with ⟨rfl, hhalf, htie⟩ | ⟨rfl, hhalf, htie⟩ <;> omega
  · rcases hcases with ⟨rfl, hhalf, htie⟩ | ⟨rfl, hhalf, htie⟩ <;> omega
  · have hmul : (below + 1 + 1) * den ≤ k * den := Nat.mul_le_mul_right den hgt
    rw [Nat.add_mul, Nat.one_mul] at hmul
    rcases hcases with ⟨rfl, hhalf, htie⟩ | ⟨rfl, hhalf, htie⟩ <;> omega

/-! ## The magnitudes of the format -/

/-- Beside a unit, a magnitude of the format is a multiple of it or less than `2 ^ 52` of them. -/
theorem twoPow_dvd_or_lt {significand : Nat} (h : significand < twoPow 53) (exponent e : Nat) :
    twoPow e ∣ significand * twoPow exponent ∨
      e ≠ 0 ∧ significand * twoPow exponent < twoPow 52 * twoPow e := by
  rcases Nat.lt_or_ge exponent e with hlt | hle
  · refine .inr ⟨by omega, ?_⟩
    calc significand * twoPow exponent
        < twoPow 53 * twoPow exponent := Nat.mul_lt_mul_of_pos_right h (twoPow_pos _)
      _ = twoPow 52 * twoPow (exponent + 1) := by
          rw [← twoPow_add, ← twoPow_add]
          exact congrArg twoPow (by omega)
      _ ≤ twoPow 52 * twoPow e := Nat.mul_le_mul_left _ (twoPow_le_twoPow hlt)
  · exact .inl (Nat.dvd_trans (twoPow_dvd_twoPow hle) (Nat.dvd_mul_left _ _))

/-- Above the least exponent a quotient has `2 ^ 52` units. -/
theorem le_mul_scale_of_quotientExponent_ne_zero (num den : Nat)
    (h : quotientExponent num den ≠ 0) (hden : 0 < den) :
    twoPow 52 * (den * twoPow (quotientExponent num den)) ≤ num * scale := by
  obtain ⟨-, hlower⟩ := cut_bounds (num * scale / den)
  rw [Nat.div_div_eq_div_mul] at hlower
  rw [← Nat.le_div_iff_mul_le (Nat.mul_pos hden (twoPow_pos _))]
  exact hlower.resolve_left h

/-- No magnitude of the format is nearer to a quotient than the rounded one, which has an even
significand if another is as near. -/
theorem roundedRank_nearest (num : Nat) {den : Nat} (hden : 0 < den) {significand : Nat}
    (h : significand < twoPow 53) (exponent : Nat) :
    Nat.dist (roundedRank num den * den) (num * scale) ≤
        Nat.dist (significand * twoPow exponent * den) (num * scale) ∧
      (Nat.dist (roundedRank num den * den) (num * scale) =
          Nat.dist (significand * twoPow exponent * den) (num * scale) →
        roundedRank num den = significand * twoPow exponent ∨
          roundedSignificand num den % 2 = 0) := by
  have hnearest := roundQuotient_nearest (num * scale)
    (Nat.mul_pos hden (twoPow_pos (quotientExponent num den)))
  have hrank : roundedRank num den * den =
      roundedSignificand num den * (den * twoPow (quotientExponent num den)) := by
    rw [roundedRank, Nat.mul_right_comm, Nat.mul_assoc]
  rw [hrank]
  rcases twoPow_dvd_or_lt h exponent (quotientExponent num den) with ⟨k, hk⟩ | ⟨hne, hlt⟩
  · have hmul : significand * twoPow exponent * den =
        k * (den * twoPow (quotientExponent num den)) := by
      rw [hk, Nat.mul_comm (twoPow _), Nat.mul_right_comm, Nat.mul_assoc]
    obtain ⟨hle, htie⟩ := hnearest k
    rw [hmul]
    refine ⟨hle, fun heq => (htie heq).imp (fun hsame => ?_) id⟩
    rw [hk, roundedRank, roundedSignificand, hsame, Nat.mul_comm]
  -- a magnitude with a smaller unit lies below `2 ^ 52` units, and these are not above the quotient
  · have hunits := le_mul_scale_of_quotientExponent_ne_zero num den hne hden
    have hsmall : significand * twoPow exponent * den <
        twoPow 52 * (den * twoPow (quotientExponent num den)) := by
      rw [Nat.mul_left_comm, Nat.mul_comm den]
      exact Nat.mul_lt_mul_of_pos_right hlt hden
    obtain ⟨hle, -⟩ := hnearest (twoPow 52)
    unfold roundedSignificand Nat.dist at *
    omega

/-! ## Signs -/

theorem natAbs_signed_sub (sign negative : Bool) (m n : Nat) :
    (signed sign m - signed negative n).natAbs =
      if sign = negative then Nat.dist m n else m + n := by
  unfold Nat.dist
  cases sign <;> cases negative <;> simp [signed] <;> omega

/-- No number of the format is nearer to a quotient with a sign than the rounded one. -/
theorem signed_roundedRank_nearest (negative sign : Bool) (num : Nat) {den : Nat} (hden : 0 < den)
    {significand : Nat} (h : significand < twoPow 53) (exponent : Nat) :
    (signed negative (roundedRank num den) * den - signed negative (num * scale)).natAbs ≤
        (signed sign (significand * twoPow exponent) * den -
          signed negative (num * scale)).natAbs ∧
      ((signed negative (roundedRank num den) * den - signed negative (num * scale)).natAbs =
          (signed sign (significand * twoPow exponent) * den -
            signed negative (num * scale)).natAbs →
        signed negative (roundedRank num den) = signed sign (significand * twoPow exponent) ∨
          roundedSignificand num den % 2 = 0) := by
  rw [← signed_mul, ← signed_mul, natAbs_signed_sub, natAbs_signed_sub, if_pos rfl]
  by_cases hsign : sign = negative
  · subst hsign
    rw [if_pos rfl]
    obtain ⟨hle, htie⟩ := roundedRank_nearest num hden h exponent
    exact ⟨hle, fun heq => (htie heq).imp (congrArg (signed sign)) id⟩
  -- a number of the other sign is further away than zero
  · rw [if_neg hsign]
    obtain ⟨hle, htie⟩ := roundedRank_nearest num hden (twoPow_pos 53) 0
    rw [Nat.zero_mul, Nat.zero_mul, Nat.dist_zero_left] at hle htie
    refine ⟨by omega, fun heq => ?_⟩
    have hzero : significand * twoPow exponent = 0 := by
      have hmul : significand * twoPow exponent * den = 0 := by omega
      exact (Nat.mul_eq_zero.mp hmul).resolve_right (by omega)
    rw [hzero] at heq ⊢
    refine (htie (by omega)).imp (fun hrank => ?_) id
    rw [hrank]
    cases negative <;> cases sign <;> rfl

/-! ## The nearest number -/

/-- Whether the significand of a finite number is even. -/
def IsEven : Binary64 → Prop
  | .finite _ significand _ _ => significand % 2 = 0
  | _ => False

/-- Whether a number of the format is the nearest to a real number: no other is nearer, and where
another one is as near, this one is even. -/
def IsNearest (x : Binary64) (a : ℝ) : Prop :=
  ∃ v : ℝ, x.value? = some (v : EReal) ∧
    ∀ (y : Binary64) (w : ℝ), y.value? = some (w : EReal) →
      |v - a| ≤ |w - a| ∧ (|v - a| = |w - a| → v = w ∨ x.IsEven)

theorem isEven_ofCanonical {negative : Bool} {significand exponent : Nat}
    (heven : significand % 2 = 0)
    (hfinite : ofCanonical negative significand exponent ≠ .infinity negative) :
    (ofCanonical negative significand exponent).IsEven := by
  unfold ofCanonical at hfinite ⊢
  split
  · exact heven
  · rename_i h
    exact absurd (dif_neg h) hfinite

theorem isEven_ofQuotient {negative : Bool} {num den : Nat}
    (heven : roundedSignificand num den % 2 = 0)
    (hfinite : ofQuotient negative num den ≠ .infinity negative) :
    (ofQuotient negative num den).IsEven := by
  have hrounded : ofQuotient negative num den =
      ofRounded negative (roundedSignificand num den) (quotientExponent num den) := rfl
  rw [hrounded, ofRounded] at hfinite ⊢
  split at hfinite
  · rename_i hgrown
    rw [if_pos hgrown]
    exact isEven_ofCanonical (by decide) hfinite
  · rename_i hgrown
    rw [if_neg hgrown]
    exact isEven_ofCanonical heven hfinite

/-- What has a real value is finite, and its value is that of its rank. -/
theorem exists_rank_of_value? {y : Binary64} {w : ℝ} (h : y.value? = some (w : EReal)) :
    ∃ (sign : Bool) (significand exponent : Nat), significand < twoPow 53 ∧
      w = ((signed sign (significand * twoPow exponent) : Int) : ℝ) / scale := by
  cases y with
  | nan => cases h
  | infinity sign =>
    have hend : (infinity sign).value? = some (endOfLine sign) := rfl
    rw [hend, Option.some.injEq] at h
    exact absurd h.symm (coe_ne_endOfLine w sign)
  | finite sign significand exponent canonical =>
    have hvalue := (value?_of_rank? (rank?_finite sign significand exponent canonical)).1
    rw [valueAt_of_natAbs_lt (by rw [natAbs_signed]; exact magnitude_lt canonical), h,
      Option.some.injEq, EReal.coe_eq_coe_iff] at hvalue
    exact ⟨sign, significand, exponent, canonical.1, hvalue⟩

theorem abs_div_scale_sub (r p : Int) {den : Nat} (hden : 0 < den) :
    |(r / scale : ℝ) - p / (scale * den)| = ((r * den - p).natAbs : ℝ) / (scale * den) := by
  have hscale := cast_scale_pos
  have hpos : (0 : ℝ) < den := Nat.cast_pos.mpr hden
  have hquotient : (r / scale : ℝ) - p / (scale * den) =
      ((r * den - p : Int) : ℝ) / (scale * den) := by
    push_cast
    field_simp
  rw [hquotient, abs_div, abs_of_pos (mul_pos hscale hpos), Nat.cast_natAbs, Int.cast_abs]

/-- A quotient that is not beyond the finite numbers is rounded to a number that has a value. -/
theorem value?_ofQuotient (negative : Bool) {num den : Nat} (hden : 0 < den)
    (h : num < overflowBound * den) :
    (ofQuotient negative num den).value? =
      some ((((signed negative (roundedRank num den) : Int) : ℝ) / scale : ℝ) : EReal) := by
  have hrank : roundedRank num den < overflowRank := by
    rw [← Nat.not_le, overflowRank_le_roundedRank_iff num hden]
    exact Nat.not_le.mpr h
  have hvalue := (value?_of_rank? (rank?_ofQuotient negative num den)).1
  rwa [Nat.min_eq_left hrank.le, valueAt_of_natAbs_lt (by rwa [natAbs_signed])] at hvalue

/-- **Rounding finds the nearest number** to a quotient that is not beyond the finite ones. -/
theorem isNearest_ofQuotient (negative : Bool) {num den : Nat} (hden : 0 < den)
    (h : num < overflowBound * den) :
    (ofQuotient negative num den).IsNearest (((signed negative num : Int) : ℝ) / den) := by
  have hscale := cast_scale_pos
  have hpos : (0 : ℝ) < scale * den := mul_pos hscale (Nat.cast_pos.mpr hden)
  have hfinite : ofQuotient negative num den ≠ .infinity negative := by
    rw [Ne, ofQuotient_eq_infinity_iff _ _ _ hden]
    rintro ⟨-, hle⟩
    omega
  have hplace : ((signed negative num : Int) : ℝ) / den =
      ((signed negative (num * scale) : Int) : ℝ) / (scale * den) := by
    rw [signed_mul, Int.cast_mul, Int.cast_natCast, mul_comm (scale : ℝ),
      mul_div_mul_right _ _ hscale.ne']
  refine ⟨_, value?_ofQuotient negative hden h, fun y w hw => ?_⟩
  obtain ⟨sign, significand, exponent, hbits, rfl⟩ := exists_rank_of_value? hw
  obtain ⟨hle, htie⟩ := signed_roundedRank_nearest negative sign num hden hbits exponent
  -- over one denominator the distances are those of the ranks
  rw [hplace, abs_div_scale_sub _ _ hden, abs_div_scale_sub _ _ hden,
    div_le_div_iff_of_pos_right hpos, div_left_inj' hpos.ne', Nat.cast_le, Nat.cast_inj]
  refine ⟨hle, fun heq => (htie heq).imp (fun hsame => ?_) fun heven => ?_⟩
  · rw [hsame]
  · exact isEven_ofQuotient heven hfinite

/-- An integer of 64 bits is widened to the nearest number. -/
theorem isNearest_ofInt (n : Int64) : (ofInt n.toInt).IsNearest n.toInt := by
  have hbound : n.toInt.natAbs < overflowBound * 1 := by
    rw [Nat.mul_one]
    exact Nat.lt_of_le_of_lt (Number.natAbs_toInt_le n) (by decide +kernel)
  have hnearest := isNearest_ofQuotient (decide (n.toInt < 0)) Nat.one_pos hbound
  rwa [signed_natAbs, Nat.cast_one, div_one] at hnearest

/-! ## The order -/

namespace IsNearest

variable {x y : Binary64} {a b v w : ℝ}

theorem abs_sub_le_abs_sub (hx : x.IsNearest a) (hv : x.value? = some (v : EReal))
    (hw : y.value? = some (w : EReal)) : |v - a| ≤ |w - a| := by
  obtain ⟨v', hv', hnearest⟩ := hx
  rw [hv, Option.some.injEq, EReal.coe_eq_coe_iff] at hv'
  rw [hv']
  exact (hnearest y w hw).1

/-- What is at most a number of the format is not rounded beyond it. -/
theorem le_of_le (hx : x.IsNearest a) (hv : x.value? = some (v : EReal))
    (hw : y.value? = some (w : EReal)) (h : a ≤ w) : v ≤ w := by
  have hnear := hx.abs_sub_le_abs_sub hv hw
  rw [abs_of_nonneg (sub_nonneg.mpr h)] at hnear
  have hself := le_abs_self (v - a)
  linarith

theorem ge_of_ge (hx : x.IsNearest a) (hv : x.value? = some (v : EReal))
    (hw : y.value? = some (w : EReal)) (h : w ≤ a) : w ≤ v := by
  have hnear := hx.abs_sub_le_abs_sub hv hw
  rw [abs_of_nonpos (sub_nonpos.mpr h)] at hnear
  have hself := neg_le_abs (v - a)
  linarith

/-- Of two real numbers the smaller is not rounded to a greater number. -/
theorem le_of_lt (hx : x.IsNearest a) (hy : y.IsNearest b) (hv : x.value? = some (v : EReal))
    (hw : y.value? = some (w : EReal)) (h : a < b) : v ≤ w := by
  -- with `w < v` both would lie between, and `a` not below the middle, `b` not above it
  by_contra hgt
  have ha : w < a := not_le.mp fun hle => hgt (hx.le_of_le hv hw hle)
  have hb : b < v := not_le.mp fun hle => hgt (hy.ge_of_ge hw hv hle)
  have hxnear := hx.abs_sub_le_abs_sub hv hw
  have hynear := hy.abs_sub_le_abs_sub hw hv
  rw [abs_of_pos (by linarith), abs_of_neg (by linarith)] at hxnear
  rw [abs_of_neg (by linarith), abs_of_pos (by linarith)] at hynear
  linarith

end IsNearest

end Binary64

end NameGuard
