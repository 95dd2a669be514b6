/-!
# Decimal numbers

A decimal number is a significand and a power of ten. Its digits are those of the significand
without the zeros at its end.

* `Decimal.digits` — the digits, the last of which is not zero;
* `Decimal.point` — where the decimal point stands, counted from before the first digit.
-/

set_option autoImplicit false

namespace NameGuard

/-- The number `significand * 10 ^ exponent`. -/
structure Decimal where
  significand : Nat
  exponent : Int
  deriving DecidableEq, Repr

namespace Decimal

def allDigits (d : Decimal) : List Char :=
  Nat.toDigits 10 d.significand

/-- The digits, without the zeros at the end. -/
def digits (d : Decimal) : List Char :=
  (d.allDigits.reverse.dropWhile (· == '0')).reverse

/-- The number is `0.DIGITS * 10 ^ point`. -/
def point (d : Decimal) : Int :=
  d.allDigits.length + d.exponent

end Decimal

end NameGuard
