import Mathlib
import NameGuard.Proofs.Number.Rank

/-!
# The order of numbers is that of the reals

A number stands for a real number: an integer for itself, a finite binary64 number for a multiple of
a power of two, and an infinity for an end of the extended real line. Comparing two numbers compares
what they stand for. So numbers of both formats are ordered together, and those that are not a
not-a-number can be sorted, with one outcome up to numbers that stand for the same.

* `Binary64.value?`, `Number.value?` — what a number stands for;
* `strictMonoOn_valueAt`, `Number.value?_of_rank?` — ranks count the extended reals in units of
  `2 ^ -1074`;
* `Number.compare?_exact` — the order, on numbers of both formats.
-/

set_option autoImplicit false

namespace NameGuard

open Binary64 (scale overflowRank signed)

/-! ## Values -/

/-- The extended real number that a binary64 number stands for. -/
noncomputable def Binary64.value? : Binary64 → Option EReal
  | .nan => none
  | .infinity negative => some (if negative then ⊥ else ⊤)
  | .finite negative significand exponent _ =>
    some (((if negative then -1 else 1) * significand * 2 ^ ((exponent : ℤ) - 1074) : ℝ) : EReal)

/-- The extended real number that a number stands for. -/
noncomputable def Number.value? : Number → Option EReal
  | .int n => some ((n.toInt : ℝ) : EReal)
  | .float x => x.value?

/-! ## Ranks of values -/

/-- The extended real number at a rank. -/
noncomputable def valueAt (rank : Int) : EReal :=
  if (overflowRank : Int) ≤ rank then ⊤
  else if rank ≤ -(overflowRank : Int) then ⊥
  else ((rank / scale : ℝ) : EReal)

/-- The ranks that numbers have, from one infinity to the other. -/
def ranks : Set Int := Set.Icc (-(overflowRank : Int)) overflowRank

theorem cast_twoPow (k : Nat) : ((twoPow k : Nat) : ℝ) = 2 ^ k := Nat.cast_pow 2 k

theorem cast_scale_pos : (0 : ℝ) < scale := Nat.cast_pos.mpr Binary64.scale_pos

theorem overflowRank_pos : 0 < overflowRank := twoPow_pos 2098

/-- Different ranks are those of different extended reals, in the same order. -/
theorem strictMonoOn_valueAt : StrictMonoOn valueAt ranks := by
  intro r hr s hs h
  have hbelow : ¬ (overflowRank : Int) ≤ r := fun hle => by
    have hupper := hs.2
    omega
  have habove : ¬ s ≤ -(overflowRank : Int) := fun hle => by
    have hlower := hr.1
    omega
  unfold valueAt
  rw [if_neg hbelow, if_neg habove]
  by_cases hbottom : r ≤ -(overflowRank : Int) <;> by_cases htop : (overflowRank : Int) ≤ s
  · rw [if_pos hbottom, if_pos htop]
    exact bot_lt_top
  · rw [if_pos hbottom, if_neg htop]
    exact EReal.bot_lt_coe _
  · rw [if_neg hbottom, if_pos htop]
    exact EReal.coe_lt_top _
  · rw [if_neg hbottom, if_neg htop, EReal.coe_lt_coe_iff,
      div_lt_div_iff_of_pos_right cast_scale_pos, Int.cast_lt]
    exact h

theorem valueAt_signed_overflowRank (negative : Bool) :
    valueAt (signed negative overflowRank) = if negative then ⊥ else ⊤ := by
  have hpos := overflowRank_pos
  cases negative with
  | true =>
    show valueAt (-(overflowRank : Int)) = ⊥
    rw [valueAt, if_neg (by omega), if_pos (le_refl _)]
  | false =>
    show valueAt (overflowRank : Int) = ⊤
    rw [valueAt, if_pos (le_refl _)]

/-- A rank between the infinities is that of a real number. -/
theorem valueAt_of_natAbs_lt {r : Int} (h : r.natAbs < overflowRank) :
    valueAt r = ((r / scale : ℝ) : EReal) := by
  rw [valueAt, if_neg (by omega), if_neg (by omega)]

theorem mem_ranks_of_natAbs_le {r : Int} (h : r.natAbs ≤ overflowRank) : r ∈ ranks :=
  ⟨by omega, by omega⟩

namespace Binary64

theorem magnitude_lt {significand exponent : Nat} (canonical : IsCanonical significand exponent) :
    significand * twoPow exponent < overflowRank :=
  calc significand * twoPow exponent
      < twoPow 53 * twoPow exponent := Nat.mul_lt_mul_of_pos_right canonical.1 (twoPow_pos _)
    _ ≤ twoPow 53 * twoPow 2045 := Nat.mul_le_mul_left _ (twoPow_le_twoPow canonical.2.1)
    _ = overflowRank := (twoPow_add 53 2045).symm

theorem cast_signed (negative : Bool) (magnitude : Nat) :
    ((signed negative magnitude : Int) : ℝ) = (if negative then -1 else 1) * magnitude := by
  cases negative <;> simp [signed]

theorem zpow_eq_div_scale (exponent : Nat) :
    (2 : ℝ) ^ ((exponent : ℤ) - 1074) = twoPow exponent / scale := by
  have hscale : ((scale : Nat) : ℝ) = 2 ^ 1074 := cast_twoPow 1074
  rw [zpow_sub₀ two_ne_zero, zpow_natCast, cast_twoPow, hscale]
  rfl

theorem value?_of_rank? {x : Binary64} {r : Int} (h : x.rank? = some r) :
    x.value? = some (valueAt r) ∧ r ∈ ranks := by
  cases x with
  | nan => cases h
  | infinity negative =>
    obtain rfl := Option.some.inj h
    rw [valueAt_signed_overflowRank]
    exact ⟨rfl, mem_ranks_of_natAbs_le (Nat.le_of_eq (natAbs_signed _ _))⟩
  | finite negative significand exponent canonical =>
    obtain rfl := Option.some.inj h
    have hlt : (signed negative (significand * twoPow exponent)).natAbs < overflowRank := by
      rw [natAbs_signed]
      exact magnitude_lt canonical
    refine ⟨?_, mem_ranks_of_natAbs_le (Nat.le_of_lt hlt)⟩
    rw [valueAt_of_natAbs_lt hlt, cast_signed, Nat.cast_mul, value?, zpow_eq_div_scale,
      mul_div_assoc, mul_div_assoc, mul_assoc]

end Binary64

namespace Number

theorem natAbs_toInt_le (n : Int64) : n.toInt.natAbs ≤ twoPow 63 := by
  have htwoPow : twoPow 63 = 9223372036854775808 := by decide
  have hbounds := toInt_bounds n
  omega

theorem value?_of_rank? {a : Number} {r : Int} (h : a.rank? = some r) :
    a.value? = some (valueAt r) ∧ r ∈ ranks := by
  cases a with
  | float x => exact Binary64.value?_of_rank? h
  | int n =>
    obtain rfl := Option.some.inj h
    have hlt : (n.toInt * scale).natAbs < overflowRank := by
      rw [Int.natAbs_mul, Int.natAbs_natCast]
      calc n.toInt.natAbs * scale
          ≤ twoPow 63 * scale := Nat.mul_le_mul_right _ (natAbs_toInt_le n)
        _ = twoPow (63 + 1074) := Binary64.twoPow_mul_scale 63
        _ < overflowRank := twoPow_lt_twoPow (by decide)
    refine ⟨?_, mem_ranks_of_natAbs_le (Nat.le_of_lt hlt)⟩
    rw [valueAt_of_natAbs_lt hlt, Int.cast_mul, Int.cast_natCast,
      mul_div_cancel_right₀ _ (ne_of_gt cast_scale_pos)]
    rfl

theorem value?_eq_none_iff (a : Number) : a.value? = none ↔ a = .float .nan := by
  rw [← rank?_eq_none_iff]
  cases h : a.rank? with
  | none =>
    obtain rfl := (rank?_eq_none_iff a).mp h
    exact ⟨fun _ => rfl, fun _ => rfl⟩
  | some r => simp only [(value?_of_rank? h).1, reduceCtorEq]

theorem exists_rank?_of_value? {a : Number} {x : EReal} (h : a.value? = some x) :
    ∃ r ∈ ranks, a.rank? = some r ∧ x = valueAt r := by
  cases hrank : a.rank? with
  | none =>
    rw [rank?_eq_none_iff, ← value?_eq_none_iff, h] at hrank
    cases hrank
  | some r =>
    obtain ⟨hvalue, hmem⟩ := value?_of_rank? hrank
    rw [h, Option.some.injEq] at hvalue
    exact ⟨r, hmem, rfl, hvalue⟩

/-! ## The order -/

theorem compare?_of_value? {a b : Number} {x y : EReal} (ha : a.value? = some x)
    (hb : b.value? = some y) :
    (a.compare? b = some .lt ↔ x < y) ∧ (a.compare? b = some .eq ↔ x = y) ∧
      (a.compare? b = some .gt ↔ y < x) := by
  obtain ⟨r, hr, hra, rfl⟩ := exists_rank?_of_value? ha
  obtain ⟨s, hs, hsb, rfl⟩ := exists_rank?_of_value? hb
  rw [compare?_of_rank? hra hsb, Option.some.injEq, Option.some.injEq, Option.some.injEq,
    Int.compare_eq_lt, Int.compare_eq_eq, Int.compare_eq_gt, strictMonoOn_valueAt.lt_iff_lt hr hs,
    strictMonoOn_valueAt.injOn.eq_iff hr hs, strictMonoOn_valueAt.lt_iff_lt hs hr]
  exact ⟨Iff.rfl, Iff.rfl, Iff.rfl⟩

/-- Turned about, a comparison has the opposite outcome. -/
theorem compare?_swap (a b : Number) : a.compare? b = (b.compare? a).map Ordering.swap := by
  cases ha : a.rank? with
  | none =>
    obtain rfl := (rank?_eq_none_iff a).mp ha
    rw [compare?_nan_left, compare?_nan_right]
    rfl
  | some r =>
    cases hb : b.rank? with
    | none =>
      obtain rfl := (rank?_eq_none_iff b).mp hb
      rw [compare?_nan_left, compare?_nan_right]
      rfl
    | some s =>
      rw [compare?_of_rank? ha hb, compare?_of_rank? hb ha, Option.map_some, Int.compare_swap]

theorem atMost_iff_compare? (a b : Number) :
    a.atMost b = true ↔ a.compare? b = some .lt ∨ a.compare? b = some .eq := by
  unfold atMost
  split <;> simp_all

theorem atMost_iff_value? (a b : Number) :
    a.atMost b = true ↔ ∃ x y, a.value? = some x ∧ b.value? = some y ∧ x ≤ y := by
  rw [atMost_iff]
  constructor
  · rintro ⟨r, s, ha, hb, hle⟩
    obtain ⟨hx, hr⟩ := value?_of_rank? ha
    obtain ⟨hy, hs⟩ := value?_of_rank? hb
    exact ⟨_, _, hx, hy, (strictMonoOn_valueAt.le_iff_le hr hs).mpr hle⟩
  · rintro ⟨x, y, hx, hy, hle⟩
    obtain ⟨r, hr, ha, rfl⟩ := exists_rank?_of_value? hx
    obtain ⟨s, hs, hb, rfl⟩ := exists_rank?_of_value? hy
    exact ⟨r, s, ha, hb, (strictMonoOn_valueAt.le_iff_le hr hs).mp hle⟩

theorem atMost_iff_of_value? {a b : Number} {x y : EReal} (ha : a.value? = some x)
    (hb : b.value? = some y) : a.atMost b = true ↔ x ≤ y := by
  rw [atMost_iff_value?, ha, hb]
  simp

theorem atMost_trans {a b c : Number} (hab : a.atMost b = true) (hbc : b.atMost c = true) :
    a.atMost c = true := by
  rw [atMost_iff_value?] at *
  obtain ⟨x, y, hx, hy, hxy⟩ := hab
  obtain ⟨y', z, hy', hz, hyz⟩ := hbc
  rw [hy, Option.some.injEq] at hy'
  exact ⟨x, z, hx, hz, hxy.trans (hy' ▸ hyz)⟩

theorem atMost_total_of_ne_nan {a b : Number} (ha : a ≠ .float .nan) (hb : b ≠ .float .nan) :
    a.atMost b = true ∨ b.atMost a = true := by
  rw [ne_eq, ← rank?_eq_none_iff, ← ne_eq, Option.ne_none_iff_isSome] at ha hb
  exact atMost_total ha hb

/-! ## Sorting -/

/-- Numbers in ascending order. -/
def Ascends (numbers : List Number) : Prop := numbers.Pairwise fun a b => a.atMost b = true

theorem Ascends.map_value? {numbers : List Number} (h : Ascends numbers) :
    (numbers.map value?).Pairwise fun u v => ∃ x y, u = some x ∧ v = some y ∧ x ≤ y :=
  List.pairwise_map.mpr (h.imp fun hab => (atMost_iff_value? _ _).mp hab)

/-- A number that is not a not-a-number. -/
abbrev Ordered := {a : Number // a ≠ .float .nan}

def Ordered.atMost (a b : Ordered) : Bool := a.val.atMost b.val

theorem Ordered.atMost_trans (a b c : Ordered) (hab : a.atMost b = true) (hbc : b.atMost c = true) :
    a.atMost c = true := Number.atMost_trans hab hbc

theorem Ordered.atMost_total (a b : Ordered) : (a.atMost b || b.atMost a) = true :=
  (Bool.or_eq_true _ _).mpr (atMost_total_of_ne_nan a.property b.property)

/-- Sorting puts numbers in ascending order, unless there is a not-a-number among them. -/
theorem ascends_mergeSort {numbers : List Number} (h : Number.float .nan ∉ numbers) :
    Ascends (numbers.mergeSort atMost) := by
  have hne : ∀ a ∈ numbers, a ≠ .float .nan := fun a ha heq => h (heq ▸ ha)
  have hsort : ((numbers.attachWith _ hne).mergeSort Ordered.atMost).map Subtype.val =
      ((numbers.attachWith _ hne).map Subtype.val).mergeSort atMost :=
    List.map_mergeSort fun _ _ _ _ => rfl
  rw [List.attachWith_map_subtype_val] at hsort
  rw [← hsort]
  exact List.pairwise_map.mpr
    (List.pairwise_mergeSort Ordered.atMost_trans Ordered.atMost_total _)

/-- Numbers that are not a not-a-number can be put in ascending order. -/
theorem exists_ascends {numbers : List Number} (h : Number.float .nan ∉ numbers) :
    ∃ sorted : List Number, sorted.Perm numbers ∧ Ascends sorted :=
  ⟨_, List.mergeSort_perm numbers atMost, ascends_mergeSort h⟩

/-- Numbers in ascending order stand for the same, place by place, however they were sorted. -/
theorem map_value?_eq_of_ascends {xs ys : List Number} (perm : xs.Perm ys) (hxs : Ascends xs)
    (hys : Ascends ys) : xs.map value? = ys.map value? := by
  refine List.Perm.eq_of_pairwise (fun u v _ _ huv hvu => ?_) hxs.map_value? hys.map_value?
    (perm.map value?)
  obtain ⟨x, y, rfl, rfl, hxy⟩ := huv
  obtain ⟨y', x', hy, hx, hyx⟩ := hvu
  cases hy
  cases hx
  rw [le_antisymm hxy hyx]

/-- **Comparing numbers compares what they stand for.** Two numbers of either format cannot be
compared exactly if one of them is a not-a-number, which alone stands for nothing; otherwise the
outcome is that of the extended real numbers they stand for, and in particular no integer is rounded
where it meets a binary64 number. Turned about, a comparison has the opposite outcome; being at most
another is transitive, and total but for a not-a-number. So all other numbers can be sorted, and
what the sorted numbers stand for does not depend on how that is done. -/
theorem compare?_exact (a b c : Number) :
    (a.compare? b = none ↔ a = .float .nan ∨ b = .float .nan) ∧
    (a.value? = none ↔ a = .float .nan) ∧
    (∀ x y, a.value? = some x → b.value? = some y →
      (a.compare? b = some .lt ↔ x < y) ∧ (a.compare? b = some .eq ↔ x = y) ∧
        (a.compare? b = some .gt ↔ y < x)) ∧
    (∀ (n : Int64) (x : Binary64) (y : EReal), x.value? = some y →
      (compareIntFloat n x = some .lt ↔ ((n.toInt : ℝ) : EReal) < y) ∧
        (compareIntFloat n x = some .eq ↔ ((n.toInt : ℝ) : EReal) = y) ∧
        (compareIntFloat n x = some .gt ↔ y < ((n.toInt : ℝ) : EReal))) ∧
    a.compare? b = (b.compare? a).map Ordering.swap ∧
    (a.atMost b = true ↔ a.compare? b = some .lt ∨ a.compare? b = some .eq) ∧
    (a.atMost b = true → b.atMost c = true → a.atMost c = true) ∧
    (a ≠ .float .nan → b ≠ .float .nan → a.atMost b = true ∨ b.atMost a = true) ∧
    (∀ numbers : List Number, .float .nan ∉ numbers →
      (∃ sorted : List Number, sorted.Perm numbers ∧ Ascends sorted) ∧
      ∀ xs ys : List Number, xs.Perm numbers → ys.Perm numbers → Ascends xs → Ascends ys →
        xs.map value? = ys.map value?) := by
  refine ⟨compare?_eq_none_iff a b, value?_eq_none_iff a, fun x y ha hb => compare?_of_value? ha hb,
    fun n x y hx => ?_, compare?_swap a b, atMost_iff_compare? a b, atMost_trans,
    atMost_total_of_ne_nan, fun numbers h => ⟨exists_ascends h, ?_⟩⟩
  · have hn : (Number.int n).value? = some ((n.toInt : ℝ) : EReal) := rfl
    have hy : (Number.float x).value? = some y := hx
    exact compare?_of_value? hn hy
  · intro xs ys hxs hys
    exact map_value?_eq_of_ascends (hxs.trans hys.symm)

example : (Number.int 9007199254740993).compare? (.float (.ofInt 9007199254740993)) = some .gt := by
  decide +kernel

end Number

end NameGuard
