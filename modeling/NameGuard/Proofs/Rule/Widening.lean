import NameGuard.Proofs.Number.Nearest
import NameGuard.Proofs.Rule.Bounds

/-!
# The bounds of a range as binary64 numbers

A range reports its bounds as binary64 numbers, although it keeps them, and sorts them, exactly: an
integer among them is widened to the nearest binary64 number. Many integers are widened to the same
number, so that two different bounds may be reported as equal ones. But they are never reported in
the wrong order, for what is rounded to the nearest keeps its order, beside other integers and
beside the binary64 numbers.

* `Number.WidensTo` — what a number of either format becomes as a binary64 number;
* `Number.StandsBelow.toBinary64` — widening keeps the order;
* `Range.bounds?_eq_some_iff` — the bounds that are reported, by the arguments;
* `Range.bounds_widened` — the bounds that a range reports after any words.
-/

set_option autoImplicit false

namespace NameGuard

/-! ## Numbers that are widened -/

namespace Number

/-- What a number becomes as a binary64 number: an integer becomes the nearest one, a tie going to
the even significand, and a binary64 number stays as it is. -/
inductive WidensTo : Number → Binary64 → Prop
  | int {n : Int64} {x : Binary64} : x.IsNearest n.toInt → WidensTo (.int n) x
  | float (x : Binary64) : WidensTo (.float x) x

theorem widensTo_toBinary64 (a : Number) : a.WidensTo a.toBinary64 := by
  cases a with
  | int n => exact .int (Binary64.isNearest_ofInt n)
  | float x => exact .float x

theorem exists_value?_ofInt (n : Int64) :
    ∃ v : ℝ, (Binary64.ofInt n.toInt).value? = some (v : EReal) := by
  obtain ⟨v, hv, -⟩ := Binary64.isNearest_ofInt n
  exact ⟨v, hv⟩

/-- Of two integers the smaller is not widened to a greater number. -/
theorem ofInt_standsBelow_ofInt {m n : Int64} (h : (Number.int m).StandsBelow (.int n)) :
    (Number.float (Binary64.ofInt m.toInt)).StandsBelow (.float (Binary64.ofInt n.toInt)) := by
  obtain ⟨-, -, ⟨⟩, ⟨⟩, hle⟩ := h
  obtain ⟨v, hv⟩ := exists_value?_ofInt m
  obtain ⟨w, hw⟩ := exists_value?_ofInt n
  refine ⟨v, w, hv, hw, EReal.coe_le_coe_iff.mpr ?_⟩
  rcases (EReal.coe_le_coe_iff.mp hle).lt_or_eq with hlt | heq
  · exact (Binary64.isNearest_ofInt m).le_of_lt (Binary64.isNearest_ofInt n) hv hw hlt
  · rw [Int.cast_inj.mp heq, hw, Option.some.injEq, EReal.coe_eq_coe_iff] at hv
    exact hv.ge

/-- An integer is not widened beyond a binary64 number that is above it. -/
theorem ofInt_standsBelow_float {n : Int64} {y : Binary64}
    (h : (Number.int n).StandsBelow (.float y)) :
    (Number.float (Binary64.ofInt n.toInt)).StandsBelow (.float y) := by
  obtain ⟨-, top, ⟨⟩, htop, hle⟩ := h
  obtain ⟨v, hv⟩ := exists_value?_ofInt n
  refine ⟨v, top, hv, htop, ?_⟩
  induction top with
  | bot => exact absurd (le_bot_iff.mp hle) (EReal.coe_ne_bot _)
  | top => exact le_top
  | coe w =>
    exact EReal.coe_le_coe_iff.mpr
      ((Binary64.isNearest_ofInt n).le_of_le hv htop (EReal.coe_le_coe_iff.mp hle))

theorem float_standsBelow_ofInt {x : Binary64} {n : Int64}
    (h : (Number.float x).StandsBelow (.int n)) :
    (Number.float x).StandsBelow (.float (Binary64.ofInt n.toInt)) := by
  obtain ⟨bottom, -, hbottom, ⟨⟩, hle⟩ := h
  obtain ⟨v, hv⟩ := exists_value?_ofInt n
  refine ⟨bottom, v, hbottom, hv, ?_⟩
  induction bottom with
  | bot => exact bot_le
  | top => exact absurd (top_le_iff.mp hle) (EReal.coe_ne_top _)
  | coe w =>
    exact EReal.coe_le_coe_iff.mpr
      ((Binary64.isNearest_ofInt n).ge_of_ge hv hbottom (EReal.coe_le_coe_iff.mp hle))

/-- **Widening keeps the order** of numbers of both formats. -/
theorem StandsBelow.toBinary64 {a b : Number} (h : a.StandsBelow b) :
    (Number.float a.toBinary64).StandsBelow (.float b.toBinary64) := by
  cases a with
  | int m =>
    cases b with
    | int n => exact ofInt_standsBelow_ofInt h
    | float y => exact ofInt_standsBelow_float h
  | float x =>
    cases b with
    | int n => exact float_standsBelow_ofInt h
    | float y => exact h

theorem StandsBelow.ne_nan {x y : Binary64} (h : (Number.float x).StandsBelow (.float y)) :
    x ≠ .nan ∧ y ≠ .nan := by
  obtain ⟨_, _, hx, hy, -⟩ := h
  constructor
  · rintro rfl
    cases hx
  · rintro rfl
    cases hy

theorem StandsBelow.compare? {x y : Binary64} (h : (Number.float x).StandsBelow (.float y)) :
    x.compare? y = some .lt ∨ x.compare? y = some .eq := by
  have hle : (Number.float x).atMost (.float y) = true := (atMost_iff_value? _ _).mpr h
  exact (atMost_iff_compare? _ _).mp hle

end Number

/-! ## The bounds of a range -/

theorem Argument.asBinary64?_ofNumber (a : Number) :
    (Argument.ofNumber a).asBinary64? = some a.toBinary64 := by
  cases a <;> rfl

namespace Range

/-- The bounds that a range reports are its two arguments as binary64 numbers. -/
theorem bounds?_eq_some_iff (range : Range) (low high : Binary64) :
    range.bounds? = some (low, high) ↔
      range.args.map Argument.asBinary64? = [some low, some high] := by
  cases range <;> simp [bounds?, args, Argument.asBinary64?_ofNumber]

theorem isSome_bounds?_iff (range : Range) :
    range.bounds?.isSome = true ↔ range.args.length = 2 := by
  cases range <;> simp [bounds?, args]

/-- The two bounds that a range has after some words stand in their order. -/
theorem standsBelow_of_after_eq_both {words : List String} {low high : Number}
    (h : after words = .both low high) : low.StandsBelow high := by
  have hargs := args_after words
  have hpairwise := pairwise_bounds words
  have hsorted : ((numbers words).take 2).mergeSort Number.atMost = [low, high] := by
    apply List.map_injective_iff.mpr Argument.ofNumber_injective
    rw [← hargs, h]
    rfl
  rw [hsorted] at hpairwise
  exact List.rel_of_pairwise_cons hpairwise (List.mem_singleton_self high)

/-- **The bounds that a range reports.** After any words a range reports bounds exactly if it has
two. They are its arguments, which stand in their exact order, as binary64 numbers: an integer is
widened to the nearest one, and a binary64 number stays as it is. Neither is a not-a-number, and
the first is at most the second: widening does not turn them about. -/
theorem bounds_widened (words : List String) :
    ((after words).bounds?.isSome = true ↔ (after words).args.length = 2) ∧
    ∀ low high : Binary64, (after words).bounds? = some (low, high) →
      ∃ a b : Number, (after words).args = [.ofNumber a, .ofNumber b] ∧ a.StandsBelow b ∧
        (after words).args.map Argument.asBinary64? = [some low, some high] ∧
        a.WidensTo low ∧ b.WidensTo high ∧ low ≠ .nan ∧ high ≠ .nan ∧
        (low.compare? high = some .lt ∨ low.compare? high = some .eq) := by
  refine ⟨isSome_bounds?_iff _, fun low high h => ?_⟩
  have hargs := (bounds?_eq_some_iff _ _ _).mp h
  cases hafter : after words with
  | none =>
    rw [hafter] at h
    cases h
  | one first =>
    rw [hafter] at h
    cases h
  | both a b =>
    rw [hafter] at h hargs
    obtain ⟨rfl, rfl⟩ := Prod.mk.inj (Option.some.inj h)
    have hexact := standsBelow_of_after_eq_both hafter
    have hwidened := hexact.toBinary64
    exact ⟨a, b, rfl, hexact, hargs, a.widensTo_toBinary64, b.widensTo_toBinary64,
      hwidened.ne_nan.1, hwidened.ne_nan.2, hwidened.compare?⟩

/-- The integer `2 ^ 53 + 3` is below the number `2 ^ 53 + 4`, to which it is widened by a tie. -/
theorem bounds_widened_tie :
    ∃ high : Binary64, high = .ofInt 9007199254740996 ∧
      (after ["9007199254740996.", "9007199254740995"]).bounds? = some (high, high) ∧
      ∃ a b : Number,
        (after ["9007199254740996.", "9007199254740995"]).args = [.ofNumber a, .ofNumber b] ∧
        a.StandsBelow b ∧
        (after ["9007199254740996.", "9007199254740995"]).args.map Argument.asBinary64? =
          [some high, some high] ∧
        a.WidensTo high ∧ b.WidensTo high ∧ high ≠ .nan ∧ high ≠ .nan ∧
        (high.compare? high = some .lt ∨ high.compare? high = some .eq) := by
  have hbounds : (after ["9007199254740996.", "9007199254740995"]).bounds? =
      some (.ofInt 9007199254740996, .ofInt 9007199254740996) := by decide +kernel
  exact ⟨_, rfl, hbounds, (bounds_widened _).2 _ _ hbounds⟩

end Range

end NameGuard
