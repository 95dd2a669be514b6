import NameGuard.Binary64

/-!
# Whole binary64 numbers

A binary64 number is rounded down to a whole one, which is a binary64 number again, and a whole one
is cut to the integers of 128 bits.

* `Binary64.floor` — the greatest whole number that is not above a number;
* `Binary64.toInt128` — the integer part of a number, kept within 128 bits.
-/

set_option autoImplicit false

namespace NameGuard.Binary64

/-- The greatest whole number that is not above a number. What is whole, infinite or not a number
stays as it is. -/
def floor : Binary64 → Binary64
  | .finite negative significand exponent canonical =>
    if significand * twoPow exponent % scale = 0 then
      .finite negative significand exponent canonical
    -- a number with a fraction is so small that the integer below it is not rounded
    else ofInt (signed negative (significand * twoPow exponent) / scale)
  | x => x

def minInt128 : Int := -(twoPow 127 : Int)

def maxInt128 : Int := (twoPow 127 : Int) - 1

/-- An integer, or the end of the 128-bit range that it lies beyond. -/
def clampInt128 (n : Int) : Int := max minInt128 (min maxInt128 n)

/-- The integer part of a number, kept within 128 bits; a not-a-number counts as zero. -/
def toInt128 : Binary64 → Int
  | .nan => 0
  | .infinity negative => if negative then minInt128 else maxInt128
  | .finite negative significand exponent _ =>
    clampInt128 (signed negative (significand * twoPow exponent / scale))

end NameGuard.Binary64
