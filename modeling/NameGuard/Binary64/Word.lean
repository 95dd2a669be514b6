import NameGuard.Binary64

/-!
# The 64-bit word of a binary64 number

A word has a sign bit, eleven bits of exponent field and fifty-two bits of fraction. For a finite
number the lower sixty-three bits are `exponent * 2 ^ 52 + significand`: the leading bit of a full
significand carries into the field.

* `Binary64.toWord`, `Binary64.ofWord` — between numbers and words;
* `Binary64.toHex`, `Binary64.ofHex?` — a word as sixteen hexadecimal digits.
-/

set_option autoImplicit false

namespace NameGuard.Binary64

def signBit (negative : Bool) : Nat :=
  if negative then twoPow 63 else 0

/-- The word of a number; a not-a-number is written as the quiet one with an empty payload. -/
def toWord : Binary64 → Nat
  | .nan => 2047 * twoPow 52 + twoPow 51
  | .infinity negative => signBit negative + 2047 * twoPow 52
  | .finite negative significand exponent _ => signBit negative + exponent * twoPow 52 + significand

def ofWord (word : Nat) : Binary64 :=
  let negative := word / twoPow 63 % 2 = 1
  let field := word / twoPow 52 % twoPow 11
  let fraction := word % twoPow 52
  if field = 2047 then (if fraction = 0 then .infinity negative else .nan)
  else if field = 0 then ofCanonical negative fraction 0
  else ofCanonical negative (twoPow 52 + fraction) (field - 1)

/-- The value of a lowercase hexadecimal digit. -/
def hexDigit? (c : Char) : Option Nat :=
  if c.isDigit then some (c.toNat - 48)
  else if 'a' ≤ c ∧ c ≤ 'f' then some (c.toNat - 87)
  else none

/-- The number whose word is written in sixteen lowercase hexadecimal digits. -/
def ofHex? (text : String) : Option Binary64 :=
  if text.length = 16 then
    (text.toList.foldlM (fun word c => (hexDigit? c).map (16 * word + ·)) 0).map ofWord
  else none

/-- The word of a number in sixteen lowercase hexadecimal digits. -/
def toHex (x : Binary64) : String :=
  let digits := Nat.toDigits 16 x.toWord
  String.ofList (List.replicate (16 - digits.length) '0' ++ digits)

end NameGuard.Binary64
