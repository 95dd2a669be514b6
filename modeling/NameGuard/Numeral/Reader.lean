import NameGuard.Numeral

/-!
# Readers of the two formats

Each format of numbers reads words of its own. Integers of 64 bits are read from a sign or none and
digits, as long as they fit. A binary64 number is read from more words than numerals: it may have an
exponent after its digits, and the infinities and the not-a-number have names, in letters of either
case.

* `readInt64?` — the 64-bit integer that characters write;
* `Binary64.read?` — the binary64 number nearest to what a word writes.
-/

set_option autoImplicit false

namespace NameGuard

/-- The integer that a sign, or none, and digits write. -/
def readInteger? (cs : List Char) : Option Int :=
  let digits := (Numeral.readSign cs).2
  if digits.isEmpty || !digits.all Char.isDigit then none
  else some (Binary64.signed (Numeral.readSign cs).1 (Numeral.digitsValue digits))

/-- The integer that characters write, if it fits 64 bits. -/
def readInt64? (cs : List Char) : Option Int64 :=
  match readInteger? cs with
  | some n =>
    if Int64.minValue.toInt ≤ n ∧ n ≤ Int64.maxValue.toInt then some (Int64.ofInt n) else none
  | none => none

namespace Binary64

/-- The number nearest to `± significand / 10 ^ places`. -/
def ofDecimal (negative : Bool) (significand : Nat) (places : Int) : Binary64 :=
  ofQuotient negative (significand * tenPow (-places).toNat) (tenPow places.toNat)

/-- The exponent that follows the digits of a number, zero where there is none. -/
def readExponent? : List Char → Option Int
  | [] => some 0
  | c :: rest => if c.toLower = 'e' then readInteger? rest else none

/-- What follows the digits before the decimal point: the digits after it, and the rest. -/
def splitFraction : List Char → List Char × List Char
  | '.' :: rest => (rest.takeWhile Char.isDigit, rest.dropWhile Char.isDigit)
  | rest => ([], rest)

/-- The number that digits write, with a decimal point among them or at either end, and an exponent
or none. -/
def readDecimal? (negative : Bool) (cs : List Char) : Option Binary64 :=
  let whole := cs.takeWhile Char.isDigit
  let tail := splitFraction (cs.dropWhile Char.isDigit)
  if whole.isEmpty && tail.1.isEmpty then none
  else
    (readExponent? tail.2).map fun exponent =>
      ofDecimal negative (Numeral.digitsValue (whole ++ tail.1)) (tail.1.length - exponent)

/-- The number that has a name. -/
def named? (negative : Bool) (name : List Char) : Option Binary64 :=
  match (String.ofList name).toLower with
  | "inf" | "infinity" => some (.infinity negative)
  | "nan" => some .nan
  | _ => none

/-- The number that a word writes, or names. -/
def read? (word : String) : Option Binary64 :=
  let (negative, body) := Numeral.readSign word.toList
  (readDecimal? negative body).or (named? negative body)

/-- More is read than numerals. -/
example : read? "-1.5E2" = some (ofInt (-150)) ∧ read? "+Infinity" = some (.infinity false) ∧
    read? "nan" = some .nan ∧ read? "1e" = none ∧ read? "." = none ∧ read? "5 " = none := by
  decide +kernel

end Binary64

end NameGuard
