import NameGuard.Proofs.Number.Integer
import NameGuard.Proofs.Rule.Range

/-!
# Ranges of whole numbers

A word that writes a whole number is a bound of a range, however long it is. Within 64 bits it is
kept as it is, and beyond it is rounded to binary64. Above all 64-bit integers rounding does not
change a verdict on such an integer. Below them it does: the integers that are less than the least
one by at most 1024 are rounded to it, so that a range which ends at one of them admits it.

* `Numeral.WritesWhole` — the words that write an integer;
* `Binary64.roundedRank_eq_iff` — the integers that are rounded to the first beyond 64 bits;
* `Number.ofWhole_atMost_int`, `Number.int_atMost_ofWhole` — an integer as the lower and as the
  upper bound;
* `Range.validate_whole_bounds` — the verdict of a range of whole numbers on an integer.
-/

set_option autoImplicit false

namespace NameGuard

open Binary64 (scale roundedRank overflowRank)

/-! ## Words that write integers -/

namespace Numeral

/-- One or more digits. -/
def IsDigits (cs : List Char) : Prop := cs ≠ [] ∧ cs.all Char.isDigit = true

instance (cs : List Char) : Decidable (IsDigits cs) := by
  unfold IsDigits
  infer_instance

theorem IsDigits.isDigit {cs : List Char} (h : IsDigits cs) : ∀ c ∈ cs, c.isDigit = true :=
  List.all_eq_true.mp h.2

/-- The characters that write an integer: its digits, after a sign or without one. -/
inductive WritesWhole : List Char → Int → Prop where
  | unsigned {digits : List Char} :
    IsDigits digits → WritesWhole digits (Nat.ofDigitChars 10 digits 0)
  | plus {digits : List Char} :
    IsDigits digits → WritesWhole ('+' :: digits) (Nat.ofDigitChars 10 digits 0)
  | minus {digits : List Char} :
    IsDigits digits → WritesWhole ('-' :: digits) (-(Nat.ofDigitChars 10 digits 0 : Int))

end Numeral

/-- The number that an integer of any size is kept as. -/
def Number.ofWhole (m : Int) : Number :=
  if Int64.minValue.toInt ≤ m ∧ m ≤ Int64.maxValue.toInt then .int (Int64.ofInt m)
  else .float (Binary64.ofInt m)

namespace Numeral

theorem number_whole (negative : Bool) (digits : List Char) :
    number ⟨negative, digits, none⟩ =
      .ofWhole (Binary64.signed negative (Nat.ofDigitChars 10 digits 0)) := by
  have hvalue : digitsValue digits = Nat.ofDigitChars 10 digits 0 := rfl
  have hbound : bound ⟨negative, digits, none⟩ =
      Binary64.ofQuotient negative (Nat.ofDigitChars 10 digits 0) 1 := by
    rw [bound, Numeral.digits, Option.getD_none, List.append_nil, hvalue]
    rfl
  simp only [number, integer?, hvalue, Number.ofWhole]
  split
  · rfl
  · rename_i hout
    -- beyond 64 bits an integer is not zero, and its sign is the one that was written
    have hsign :
        decide (Binary64.signed negative (Nat.ofDigitChars 10 digits 0) < 0) = negative := by
      have hzero : Int64.minValue.toInt ≤ 0 ∧ 0 ≤ Int64.maxValue.toInt := by decide
      cases negative with
      | false => exact decide_eq_false (by unfold Binary64.signed; simp)
      | true =>
        refine decide_eq_true ?_
        simp only [Binary64.signed, if_true] at hout ⊢
        omega
    rw [hbound, Binary64.ofInt, hsign, Binary64.natAbs_signed]

/-- A word that writes an integer is a numeral, and its number is what the integer is kept as. -/
theorem WritesWhole.exists_read? {word : String} {m : Int} (h : WritesWhole word.toList m) :
    ∃ numeral, read? word = some numeral ∧ numeral.number = .ofWhole m := by
  unfold read? readChars?
  generalize word.toList = cs at h
  cases h with
  | unsigned hdigits =>
    rw [readSign_digits hdigits.isDigit]
    exact ⟨_, readFraction_digits false hdigits.1 hdigits.isDigit, number_whole false cs⟩
  | plus hdigits =>
    exact ⟨_, readFraction_digits false hdigits.1 hdigits.isDigit, number_whole false _⟩
  | minus hdigits =>
    exact ⟨_, readFraction_digits true hdigits.1 hdigits.isDigit, number_whole true _⟩

end Numeral

/-! ## Integers that are rounded -/

namespace Binary64

theorem signed_false (magnitude : Nat) : signed false magnitude = magnitude := rfl

theorem signed_true (magnitude : Nat) : signed true magnitude = -(magnitude : Int) := rfl

/-- The least integer that is beyond 64 bits is a binary64 number. -/
theorem roundedRank_first :
    roundedRank 9223372036854775808 1 = 9223372036854775808 * scale := by
  decide +kernel

/-- The last integer that is rounded to it, by a tie. -/
theorem roundedRank_last :
    roundedRank 9223372036854776832 1 = 9223372036854775808 * scale := by
  decide +kernel

theorem roundedRank_next :
    roundedRank 9223372036854776833 1 = 9223372036854777856 * scale := by
  decide +kernel

theorem le_roundedRank {k : Nat} (h : 9223372036854775808 ≤ k) :
    9223372036854775808 * scale ≤ roundedRank k 1 := by
  rw [← roundedRank_first]
  exact roundedRank_mono h 1

/-- Of the integers beyond 64 bits the first 1025 are rounded to the first. -/
theorem roundedRank_eq_iff {k : Nat} (h : 9223372036854775808 ≤ k) :
    roundedRank k 1 = 9223372036854775808 * scale ↔ k ≤ 9223372036854776832 := by
  constructor
  · intro heq
    apply Nat.le_of_not_lt
    intro hlt
    have hnext : 9223372036854777856 * scale ≤ roundedRank k 1 := by
      rw [← roundedRank_next]
      exact roundedRank_mono hlt 1
    have hscale := scale_pos
    omega
  · intro hle
    apply Nat.le_antisymm _ (le_roundedRank h)
    rw [← roundedRank_last]
    exact roundedRank_mono hle 1

theorem first_lt_overflowRank : 9223372036854775808 * scale < overflowRank := by
  rw [overflowRank_eq]
  have hlt : 9223372036854775808 < twoPow 1024 :=
    calc 9223372036854775808
        < twoPow 64 := by decide
      _ ≤ twoPow 1024 := twoPow_le_twoPow (by decide)
  exact Nat.mul_lt_mul_of_pos_right hlt scale_pos

end Binary64

namespace Number

/-- Below the 64-bit integers, and rounded to the least one. -/
def RoundsToLeast (m : Int) : Prop :=
  Int64.minValue.toInt - 1024 ≤ m ∧ m < Int64.minValue.toInt

/-! ### The ranks that integers are kept at -/

/-- An integer of 64 bits is kept at its own rank. -/
theorem rank?_ofWhole_within {m : Int}
    (h : Int64.minValue.toInt ≤ m ∧ m ≤ Int64.maxValue.toInt) :
    (ofWhole m).rank? = some (m * scale) := by
  rw [ofWhole, if_pos h, rank?_int, Int64.toInt_ofInt_of_le h.1 (Int.lt_add_one_of_le h.2)]

theorem rank?_ofWhole_beyond {m : Int}
    (h : ¬ (Int64.minValue.toInt ≤ m ∧ m ≤ Int64.maxValue.toInt)) :
    (ofWhole m).rank? =
      some (Binary64.signed (decide (m < 0)) (min (roundedRank m.natAbs 1) overflowRank)) := by
  rw [ofWhole, if_neg h, rank?_float, Binary64.ofInt, Binary64.rank?_ofQuotient]

/-- An integer above the 64-bit ones is kept above them. -/
theorem rank?_ofWhole_above {m : Int} (h : Int64.maxValue.toInt < m) :
    ∃ r, (ofWhole m).rank? = some r ∧ 9223372036854775808 * scale ≤ r := by
  have hmax := maxValue_eq
  have hnonneg : decide (m < 0) = false := decide_eq_false (by omega)
  have hrounded := Binary64.le_roundedRank (show 9223372036854775808 ≤ m.natAbs by omega)
  have hoverflow := Binary64.first_lt_overflowRank
  rw [rank?_ofWhole_beyond (by omega), hnonneg, Binary64.signed_false]
  refine ⟨_, rfl, ?_⟩
  omega

theorem roundedRank_natAbs_iff {m : Int} (h : m < Int64.minValue.toInt) :
    roundedRank m.natAbs 1 = 9223372036854775808 * scale ↔ RoundsToLeast m := by
  have hmin := minValue_eq
  rw [Binary64.roundedRank_eq_iff (by omega)]
  unfold RoundsToLeast
  omega

/-- An integer below the 64-bit ones is kept at the least of them or below it. -/
theorem rank?_ofWhole_below {m : Int} (h : m < Int64.minValue.toInt) :
    ∃ r, (ofWhole m).rank? = some r ∧ r ≤ -9223372036854775808 * scale ∧
      (r = -9223372036854775808 * scale ↔ RoundsToLeast m) := by
  have hmin := minValue_eq
  have hnegative : decide (m < 0) = true := decide_eq_true (by omega)
  have hrounded := Binary64.le_roundedRank (show 9223372036854775808 ≤ m.natAbs by omega)
  have hoverflow := Binary64.first_lt_overflowRank
  rw [rank?_ofWhole_beyond (by omega), hnegative, Binary64.signed_true, ← roundedRank_natAbs_iff h]
  refine ⟨_, rfl, ?_⟩
  omega

/-! ### The order of an integer of 64 bits and any integer -/

/-- Where an integer of any size stands beside one of 64 bits. The two are in their own order, but
for the integers that are rounded to the least one of 64 bits. -/
theorem exists_rank?_ofWhole (m : Int) (v : Int64) :
    ∃ r, (ofWhole m).rank? = some r ∧ (r ≤ v.toInt * scale ↔ m ≤ v.toInt) ∧
      (v.toInt * scale ≤ r ↔ v.toInt ≤ m ∨ v = Int64.minValue ∧ RoundsToLeast m) := by
  have hscale := Binary64.scale_pos_int
  have hv := toInt_bounds v
  have hmin := minValue_eq
  have hmax := maxValue_eq
  by_cases habove : Int64.maxValue.toInt < m
  · obtain ⟨r, hr, hle⟩ := rank?_ofWhole_above habove
    have hlt : v.toInt * scale < r :=
      calc v.toInt * scale
          < 9223372036854775808 * scale := Int.mul_lt_mul_of_pos_right (by omega) hscale
        _ ≤ r := hle
    refine ⟨r, hr, ?_, ?_⟩ <;> omega
  by_cases hbelow : m < Int64.minValue.toInt
  · obtain ⟨r, hr, hle, hleast⟩ := rank?_ofWhole_below hbelow
    have hge : -9223372036854775808 * scale ≤ v.toInt * scale :=
      Int.mul_le_mul_of_nonneg_right hv.1 (Int.le_of_lt hscale)
    refine ⟨r, hr, by omega, ?_⟩
    rw [← hleast, ← Int64.toInt_inj, hmin, ← Int.mul_eq_mul_right_iff (Int.ne_of_gt hscale)]
    omega
  · have hnot : ¬ RoundsToLeast m := fun h => hbelow h.2
    refine ⟨_, rank?_ofWhole_within (by omega), Int.mul_le_mul_right hscale, ?_⟩
    rw [Int.mul_le_mul_right hscale, or_iff_left fun h => hnot h.2]

theorem isSome_rank?_ofWhole (m : Int) : (ofWhole m).rank?.isSome = true := by
  obtain ⟨r, hr, -⟩ := exists_rank?_ofWhole m 0
  rw [hr]
  rfl

/-- From below, an integer of any size bounds exactly. -/
theorem ofWhole_atMost_int (m : Int) (v : Int64) :
    (ofWhole m).atMost (.int v) = true ↔ m ≤ v.toInt := by
  obtain ⟨r, hr, hle, -⟩ := exists_rank?_ofWhole m v
  rw [atMost_iff_of_rank? hr (rank?_int v), hle]

/-- From above, an integer of any size bounds exactly, but for the least integer of 64 bits and
those that are rounded to it. -/
theorem int_atMost_ofWhole (n : Int) (v : Int64) :
    (Number.int v).atMost (ofWhole n) = true ↔
      v.toInt ≤ n ∨ v = Int64.minValue ∧ RoundsToLeast n := by
  obtain ⟨r, hr, -, hge⟩ := exists_rank?_ofWhole n v
  rw [atMost_iff_of_rank? (rank?_int v) hr, hge]

end Number

/-! ## Verdicts -/

namespace Range

open Numeral (WritesWhole)
open Number (RoundsToLeast)

/-- A range of two numbers admits what is not below both of them and not above both. -/
theorem validate_ofPair {first second number : Number} {value : Value}
    (hfirst : first.rank?.isSome = true) (hsecond : second.rank?.isSome = true)
    (hvalue : Number.ofValue? value = some number) :
    (ofPair first second).validate value = true ↔
      (first.atMost number = true ∨ second.atMost number = true) ∧
        (number.atMost first = true ∨ number.atMost second = true) := by
  obtain ⟨x, hx⟩ := Option.isSome_iff_exists.mp hfirst
  obtain ⟨y, hy⟩ := Option.isSome_iff_exists.mp hsecond
  have hboth : ∀ low high : Number, (both low high).validate value = true ↔
      low.atMost number = true ∧ number.atMost high = true := by
    intro low high
    simp [validate, holds?, hvalue]
  cases hz : number.rank? with
  | none =>
    obtain rfl := (Number.rank?_eq_none_iff number).mp hz
    unfold ofPair
    split <;> simp [hboth, Number.atMost_nan_left, Number.atMost_nan_right]
  | some z =>
    have hgt : first.compare? second = some .gt ↔ y < x := by
      rw [Number.compare?_of_rank? hx hy, Option.some.injEq, Int.compare_eq_gt]
    rw [Number.atMost_iff_of_rank? hx hz, Number.atMost_iff_of_rank? hy hz,
      Number.atMost_iff_of_rank? hz hx, Number.atMost_iff_of_rank? hz hy]
    by_cases hswap : first.compare? second = some .gt
    · rw [ofPair, if_pos hswap, hboth, Number.atMost_iff_of_rank? hy hz,
        Number.atMost_iff_of_rank? hz hx]
      have hlt := hgt.mp hswap
      omega
    · rw [ofPair, if_neg hswap, hboth, Number.atMost_iff_of_rank? hx hz,
        Number.atMost_iff_of_rank? hz hy]
      have hle := mt hgt.mpr hswap
      omega

/-- The range of two words that write integers, of any size and in either order. -/
theorem consume_whole {s t : String} {m n : Int} (hs : WritesWhole s.toList m)
    (ht : WritesWhole t.toList n) :
    Range.none.consume s = (true, .one (.ofWhole m)) ∧
      (Range.one (.ofWhole m)).consume t = (true, ofPair (.ofWhole m) (.ofWhole n)) := by
  obtain ⟨first, hfirst, hm⟩ := hs.exists_read?
  obtain ⟨second, hsecond, hn⟩ := ht.exists_read?
  rw [consume_numeral hfirst, consume_numeral hsecond, hm, hn]
  exact ⟨rfl, rfl⟩

/-- **The verdict of a range of whole numbers on an integer.** Both words are taken, of whatever
length. The range admits the integers of 64 bits from the smaller of its bounds to the greater, and
beside them only the least integer, where the greater bound is at most 1024 below it. -/
theorem validate_whole_bounds {s t : String} {m n : Int} (hs : WritesWhole s.toList m)
    (ht : WritesWhole t.toList n) (v : Int64) :
    ∃ one both : Range, Range.none.consume s = (true, one) ∧ one.consume t = (true, both) ∧
      (both.validate (.int v) = true ↔
        (min m n ≤ v.toInt ∧ v.toInt ≤ max m n) ∨
          v = Int64.minValue ∧ RoundsToLeast (max m n)) ∧
      ((both.validate (.int v) = true ↔ min m n ≤ v.toInt ∧ v.toInt ≤ max m n) ↔
        ¬ (v = Int64.minValue ∧ RoundsToLeast (max m n))) := by
  obtain ⟨hone, hboth⟩ := consume_whole hs ht
  have hvalue : Number.ofValue? (.int v) = some (.int v) := rfl
  have hmin := Number.minValue_eq
  have hleast : v = Int64.minValue ↔ v.toInt = Int64.minValue.toInt := Int64.toInt_inj.symm
  have hverdict : (ofPair (.ofWhole m) (.ofWhole n)).validate (.int v) = true ↔
      (min m n ≤ v.toInt ∧ v.toInt ≤ max m n) ∨
        v = Int64.minValue ∧ RoundsToLeast (max m n) := by
    rw [validate_ofPair (Number.isSome_rank?_ofWhole m) (Number.isSome_rank?_ofWhole n) hvalue,
      Number.ofWhole_atMost_int, Number.ofWhole_atMost_int, Number.int_atMost_ofWhole,
      Number.int_atMost_ofWhole, hleast]
    unfold RoundsToLeast
    omega
  refine ⟨_, _, hone, hboth, hverdict, ?_⟩
  rw [hverdict, hleast]
  unfold RoundsToLeast
  omega

/-- Beside a bound that is far below the 64-bit integers, a bound within them is exact. -/
theorem validate_whole_bounds_far_below :
    WritesWhole "-9223372036854777000".toList (-9223372036854777000) ∧
    WritesWhole "+0007".toList 7 ∧
    ∃ one both : Range, Range.none.consume "-9223372036854777000" = (true, one) ∧
      one.consume "+0007" = (true, both) ∧
      (both.validate (.int 7) = true ↔
        (min (-9223372036854777000) 7 ≤ (7 : Int64).toInt ∧
          (7 : Int64).toInt ≤ max (-9223372036854777000) 7) ∨
          (7 : Int64) = Int64.minValue ∧ RoundsToLeast (max (-9223372036854777000) 7)) ∧
      ((both.validate (.int 7) = true ↔
        min (-9223372036854777000) 7 ≤ (7 : Int64).toInt ∧
          (7 : Int64).toInt ≤ max (-9223372036854777000) 7) ↔
        ¬ ((7 : Int64) = Int64.minValue ∧ RoundsToLeast (max (-9223372036854777000) 7))) := by
  have hlow : WritesWhole "-9223372036854777000".toList (-9223372036854777000) :=
    @WritesWhole.minus "9223372036854777000".toList (by decide)
  have hhigh : WritesWhole "+0007".toList 7 := @WritesWhole.plus "0007".toList (by decide)
  exact ⟨hlow, hhigh, validate_whole_bounds hlow hhigh 7⟩

/-- A range that lies below the integers of 64 bits, and admits the least of them: both of its
bounds are rounded to it. -/
theorem validate_least_above_bounds :
    WritesWhole "-9223372036854775809".toList (-9223372036854775809) ∧
      (feed consume .none ["-9223372036854775809", "-9223372036854775809"]).validate
        (.int Int64.minValue) = true ∧
      ¬ (min (-9223372036854775809) (-9223372036854775809) ≤ Int64.minValue.toInt ∧
        Int64.minValue.toInt ≤ max (-9223372036854775809) (-9223372036854775809)) :=
  ⟨@WritesWhole.minus "9223372036854775809".toList (by decide), by decide +kernel, by decide⟩

end Range

end NameGuard
