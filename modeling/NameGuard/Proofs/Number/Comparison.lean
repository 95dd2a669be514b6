import NameGuard.Number
import NameGuard.Proofs.Number.Rounding

/-!
# Comparison by ranks

Two numbers of either format stand in the order of their ranks. Where an integer meets a binary64
number, that number is rounded down and cut to 128 bits before it is compared. Neither changes the
outcome: no number with a fraction is so large that rounding it down would be inexact, and beyond
128 bits every number is beyond all integers of 64 bits.

* `Binary64.rank?_floor`, `Binary64.toInt128_of_rank?` — the ranks of what is rounded down and cut;
* `Number.compareIntFloat_of_rank?` — the order of an integer and a binary64 number;
* `Number.compare?_of_rank?`, `Number.compare?_eq_none_iff` — the order of any two numbers;
* `Number.atMost_iff` — when a number is at most another.
-/

set_option autoImplicit false

namespace NameGuard

namespace Binary64

theorem rank?_eq_none_iff (x : Binary64) : x.rank? = none ↔ x = .nan := by
  cases x <;> simp

theorem compare?_eq_none_iff (a b : Binary64) :
    a.compare? b = none ↔ a = .nan ∨ b = .nan := by
  rw [← rank?_eq_none_iff, ← rank?_eq_none_iff, compare?]
  cases a.rank? <;> cases b.rank? <;> simp

theorem numEq_of_rank? {a b : Binary64} {x y : Int} (ha : a.rank? = some x)
    (hb : b.rank? = some y) : a.numEq b = true ↔ x = y := by
  rw [numEq, compare?_of_rank? ha hb, beq_iff_eq, Option.some.injEq, Int.compare_eq_eq]

/-! ## Rounding down -/

theorem natAbs_signed (negative : Bool) (magnitude : Nat) :
    (signed negative magnitude).natAbs = magnitude := by
  cases negative <;> simp [signed]

theorem scale_pos_int : (0 : Int) < scale := Int.natCast_pos.mpr scale_pos

theorem overflowRank_eq : overflowRank = twoPow 1024 * scale :=
  (twoPow_mul_scale 1024).symm

theorem signed_mul_ediv (negative : Bool) (n : Nat) :
    signed negative (n * scale) / scale = signed negative n := by
  rw [signed_mul, Int.mul_ediv_cancel _ (Int.ne_of_gt scale_pos_int)]

/-- A number with a fraction is so small that the integer below it has 53 bits. -/
theorem natAbs_floor_le {negative : Bool} {significand exponent : Nat}
    (canonical : IsCanonical significand exponent)
    (fraction : significand * twoPow exponent % scale ≠ 0) :
    (signed negative (significand * twoPow exponent) / scale).natAbs ≤ twoPow 53 := by
  have hexponent : exponent < 1074 := by
    refine Nat.lt_of_not_le fun hle => fraction (Nat.mod_eq_zero_of_dvd ?_)
    exact Nat.dvd_trans (twoPow_dvd_twoPow hle) (Nat.dvd_mul_left _ _)
  have hmagnitude : significand * twoPow exponent ≤ twoPow 53 * scale :=
    Nat.mul_le_mul (Nat.le_of_lt canonical.1) (twoPow_le_twoPow (Nat.le_of_lt hexponent))
  have hupper : signed negative (significand * twoPow exponent) ≤ (twoPow 53 : Int) * scale := by
    have habs := natAbs_signed negative (significand * twoPow exponent)
    have hcast := Int.natCast_mul (twoPow 53) scale
    omega
  have hlower : -(twoPow 53 : Int) * scale ≤ signed negative (significand * twoPow exponent) := by
    have habs := natAbs_signed negative (significand * twoPow exponent)
    have hcast := Int.natCast_mul (twoPow 53) scale
    rw [Int.neg_mul]
    omega
  have hle := Int.ediv_le_ediv scale_pos_int hupper
  have hge := Int.ediv_le_ediv scale_pos_int hlower
  rw [Int.mul_ediv_cancel _ (Int.ne_of_gt scale_pos_int)] at hle hge
  omega

/-- Rounding down is exact: it finds the greatest multiple of one that is not above a number. -/
theorem rank?_floor {x : Binary64} {r : Int} (h : x.rank? = some r) :
    x.floor.rank? = some (r / scale * scale) := by
  cases x with
  | nan => cases h
  | infinity negative =>
    obtain rfl := Option.some.inj h
    show (infinity negative).rank? = _
    rw [rank?_infinity, overflowRank_eq, signed_mul_ediv, signed_mul]
  | finite negative significand exponent canonical =>
    obtain rfl := Option.some.inj h
    rw [floor]
    split
    · rename_i whole
      obtain ⟨n, hn⟩ := Nat.dvd_of_mod_eq_zero whole
      rw [rank?_finite, hn, Nat.mul_comm scale n, signed_mul_ediv, signed_mul]
    · rename_i fraction
      exact rank?_ofInt (natAbs_floor_le canonical fraction)

/-! ## Cutting to 128 bits -/

/-- A whole number is cut to its integer, or to the end of the 128-bit range that it is beyond. -/
theorem toInt128_of_rank? {x : Binary64} {n : Int} (h : x.rank? = some (n * scale)) :
    x.toInt128 = clampInt128 n := by
  have hscale := scale_pos_int
  cases x with
  | nan => cases h
  | infinity negative =>
    have hinfinite : signed negative (twoPow 1024) * scale = n * scale := by
      rw [← signed_mul, ← overflowRank_eq]
      exact Option.some.inj h
    rw [← Int.eq_of_mul_eq_mul_right (Int.ne_of_gt hscale) hinfinite]
    cases negative <;> decide +kernel
  | finite negative significand exponent canonical =>
    have hfinite : signed negative (significand * twoPow exponent) = n * scale :=
      Option.some.inj h
    have hmagnitude : significand * twoPow exponent = n.natAbs * scale := by
      rw [← natAbs_signed negative (significand * twoPow exponent), hfinite, Int.natAbs_mul,
        Int.natAbs_natCast]
    rw [hmagnitude, signed_mul] at hfinite
    rw [toInt128, hmagnitude, Nat.mul_div_cancel _ scale_pos,
      Int.eq_of_mul_eq_mul_right (Int.ne_of_gt hscale) hfinite]

/-- An integer of 64 bits does not see whether another was cut to 128 bits. -/
theorem compare_clampInt128 (n : Int64) (m : Int) :
    compare n.toInt (clampInt128 m) = compare n.toInt m := by
  have hlow : minInt128 < n.toInt := Int.lt_of_lt_of_le (by decide) n.minValue_le_toInt
  have hhigh : n.toInt < maxInt128 := Int.lt_of_le_of_lt n.toInt_le (by decide)
  have hsame : ∀ order,
      compare n.toInt (clampInt128 m) = order ↔ compare n.toInt m = order := by
    intro order
    unfold clampInt128
    cases order with
    | lt => rw [Int.compare_eq_lt, Int.compare_eq_lt]; omega
    | eq => rw [Int.compare_eq_eq, Int.compare_eq_eq]; omega
    | gt => rw [Int.compare_eq_gt, Int.compare_eq_gt]; omega
  exact (hsame _).mpr rfl

end Binary64

namespace Number

open Binary64 (scale)

/-! ## Integers of 64 bits -/

theorem minValue_eq : Int64.minValue.toInt = -9223372036854775808 := by decide

theorem maxValue_eq : Int64.maxValue.toInt = 9223372036854775807 := by decide

theorem toInt_bounds (v : Int64) :
    -9223372036854775808 ≤ v.toInt ∧ v.toInt ≤ 9223372036854775807 := by
  rw [← minValue_eq, ← maxValue_eq]
  exact ⟨v.minValue_le_toInt, v.toInt_le⟩

/-! ## The order of two numbers -/

/-- **An integer and a binary64 number stand in the order of their ranks.** -/
theorem compareIntFloat_of_rank? {x : Binary64} {r : Int} (h : x.rank? = some r) (n : Int64) :
    compareIntFloat n x = some (compare (n.toInt * scale) r) := by
  have hnan : x ≠ .nan := by
    rintro rfl
    cases h
  have hfloor := Binary64.rank?_floor h
  have hwhole := Binary64.numEq_of_rank? h hfloor
  have hbelow : r / scale * scale ≤ r := Int.ediv_mul_le r (Int.ne_of_gt Binary64.scale_pos_int)
  have habove : r < (r / scale + 1) * scale :=
    Int.lt_ediv_add_one_mul_self r Binary64.scale_pos_int
  unfold compareIntFloat
  rw [if_neg hnan, Binary64.toInt128_of_rank? hfloor, Binary64.compare_clampInt128]
  -- only an integer that equals the number rounded down depends on the fraction
  rcases Int.lt_trichotomy n.toInt (r / scale) with hlt | heq | hgt
  · have hless : n.toInt * scale < r :=
      calc n.toInt * scale
          < r / scale * scale := Int.mul_lt_mul_of_pos_right hlt Binary64.scale_pos_int
        _ ≤ r := hbelow
    rw [Int.compare_eq_lt.mpr hlt, Int.compare_eq_lt.mpr hless]
  · rw [Int.compare_eq_eq.mpr heq, heq]
    dsimp only
    split
    · rename_i whole
      rw [Int.compare_eq_eq.mpr (hwhole.mp whole).symm]
    · rename_i fraction
      have hne : r ≠ r / scale * scale := fun hr => fraction (hwhole.mpr hr)
      rw [Int.compare_eq_lt.mpr (by omega)]
  · have hgreater : r < n.toInt * scale :=
      calc r < (r / scale + 1) * scale := habove
        _ ≤ n.toInt * scale :=
          Int.mul_le_mul_of_nonneg_right hgt (Int.le_of_lt Binary64.scale_pos_int)
    rw [Int.compare_eq_gt.mpr hgt, Int.compare_eq_gt.mpr hgreater]

theorem rank?_eq_none_iff (a : Number) : a.rank? = none ↔ a = .float .nan := by
  cases a with
  | int n => simp only [rank?_int, reduceCtorEq]
  | float x => rw [rank?_float, Binary64.rank?_eq_none_iff, float.injEq]

theorem compare?_int (a b : Int64) :
    (Number.int a).compare? (.int b) = some (compare (a.toInt * scale) (b.toInt * scale)) := by
  have hscale := Binary64.scale_pos_int
  show some (compareOfLessAndEq a b) = _
  simp only [compareOfLessAndEq, Int64.lt_iff_toInt_lt, ← Int64.toInt_inj]
  rcases Int.lt_trichotomy a.toInt b.toInt with hlt | heq | hgt
  · rw [if_pos hlt, Int.compare_eq_lt.mpr ((Int.mul_lt_mul_right hscale).mpr hlt)]
  · rw [if_neg (by omega), if_pos heq, heq, Int.compare_eq_eq.mpr rfl]
  · rw [if_neg (by omega), if_neg (by omega),
      Int.compare_eq_gt.mpr ((Int.mul_lt_mul_right hscale).mpr hgt)]

/-- Two numbers stand in the order of their ranks. -/
theorem compare?_of_rank? {a b : Number} {x y : Int} (ha : a.rank? = some x)
    (hb : b.rank? = some y) : a.compare? b = some (compare x y) := by
  cases a with
  | int m =>
    obtain rfl := Option.some.inj ha
    cases b with
    | int n =>
      obtain rfl := Option.some.inj hb
      exact compare?_int m n
    | float z => exact compareIntFloat_of_rank? hb m
  | float z =>
    cases b with
    | int n =>
      obtain rfl := Option.some.inj hb
      show (compareIntFloat n z).map Ordering.swap = _
      rw [compareIntFloat_of_rank? ha, Option.map_some, Int.compare_swap]
    | float w => exact Binary64.compare?_of_rank? ha hb

theorem compare?_nan_left (b : Number) : (Number.float .nan).compare? b = none := by
  cases b <;> rfl

theorem compare?_nan_right (a : Number) : a.compare? (.float .nan) = none := by
  cases a with
  | int n => rfl
  | float x => exact (Binary64.compare?_eq_none_iff x .nan).mpr (.inr rfl)

/-- Only a not-a-number is comparable to nothing. -/
theorem compare?_eq_none_iff (a b : Number) :
    a.compare? b = none ↔ a = .float .nan ∨ b = .float .nan := by
  constructor
  · intro h
    cases hx : a.rank? with
    | none => exact .inl ((rank?_eq_none_iff a).mp hx)
    | some x =>
      cases hy : b.rank? with
      | none => exact .inr ((rank?_eq_none_iff b).mp hy)
      | some y =>
        rw [compare?_of_rank? hx hy] at h
        cases h
  · rintro (rfl | rfl)
    · exact compare?_nan_left b
    · exact compare?_nan_right a

theorem atMost_iff_of_rank? {a b : Number} {x y : Int} (ha : a.rank? = some x)
    (hb : b.rank? = some y) : a.atMost b = true ↔ x ≤ y := by
  have hcompare : (compare x y = .lt ∨ compare x y = .eq) ↔ x ≤ y := by
    simp only [Int.compare_eq_lt, Int.compare_eq_eq]
    omega
  unfold atMost
  rw [compare?_of_rank? ha hb]
  cases h : compare x y <;> simp_all

theorem atMost_nan_left (b : Number) : (Number.float .nan).atMost b = false := by
  rw [atMost, compare?_nan_left]

theorem atMost_nan_right (a : Number) : a.atMost (.float .nan) = false := by
  rw [atMost, compare?_nan_right]

/-- A number is at most another exactly when both have a rank, and the ranks are so ordered. -/
theorem atMost_iff (a b : Number) :
    a.atMost b = true ↔ ∃ x y, a.rank? = some x ∧ b.rank? = some y ∧ x ≤ y := by
  constructor
  · intro h
    cases ha : a.rank? with
    | none =>
      obtain rfl := (rank?_eq_none_iff a).mp ha
      rw [atMost_nan_left] at h
      cases h
    | some x =>
      cases hb : b.rank? with
      | none =>
        obtain rfl := (rank?_eq_none_iff b).mp hb
        rw [atMost_nan_right] at h
        cases h
      | some y => exact ⟨x, y, rfl, rfl, (atMost_iff_of_rank? ha hb).mp h⟩
  · rintro ⟨x, y, ha, hb, hle⟩
    exact (atMost_iff_of_rank? ha hb).mpr hle

end Number

end NameGuard
