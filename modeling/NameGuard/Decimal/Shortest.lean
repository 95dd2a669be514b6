import NameGuard.Binary64
import NameGuard.Decimal

/-!
# The shortest decimal that reads back

A finite binary64 number stands for an interval of reals: all that round to it. Among the decimals
in that interval, the one to write has the fewest digits, and is the nearest of those; a tie goes
away from zero.

Lengths are measured in quarters of `2 ^ -1074`, so that the ends of the interval are whole.

* `Decimal.onGrid?` — the decimal with a given number of digits, if one reads back;
* `Decimal.shortest` — the first grid that has one.
-/

set_option autoImplicit false

namespace NameGuard.Decimal

/-- How far the interval of a number reaches below it. Below a power of two the neighbour is only
half as far. -/
def reachBelow (significand exponent : Nat) : Nat :=
  if significand = twoPow 52 ∧ exponent ≠ 0 then twoPow exponent else 2 * twoPow exponent

def reachAbove (exponent : Nat) : Nat :=
  2 * twoPow exponent

/-- The power of ten just above a positive number of units. -/
def leadingPower (units : Nat) : Int :=
  if Binary64.scale ≤ units then (Nat.toDigits 10 (units / Binary64.scale)).length
  else 1 - (Nat.toDigits 10 (Binary64.scale / units)).length

/-- The decimal of `count` digits that reads back as the number, if one of its two neighbours on
that grid does; of two the nearer, and on a tie the greater. -/
def onGrid? (significand exponent count : Nat) : Option Decimal :=
  let units := significand * twoPow exponent
  let power := leadingPower units - count
  let up := tenPow (-power).toNat
  let num := 4 * units * up
  let den := 4 * Binary64.scale * tenPow power.toNat
  let low := num - reachBelow significand exponent * up
  let high := num + reachAbove exponent * up
  let readsBack := fun (c : Nat) =>
    if significand % 2 = 0 then decide (low ≤ c * den ∧ c * den ≤ high)
    else decide (low < c * den ∧ c * den < high)
  let below := num / den
  let above := below + 1
  match readsBack below, readsBack above with
  | true, true => some ⟨if 2 * (num % den) < den then below else above, power⟩
  | true, false => some ⟨below, power⟩
  | false, true => some ⟨above, power⟩
  | false, false => none

/-- The shortest decimal that reads back as a positive number. Seventeen digits always do. -/
def shortest (significand exponent : Nat) : Decimal :=
  ((List.range' 1 17).findSome? (onGrid? significand exponent)).getD ⟨0, 0⟩

end NameGuard.Decimal
