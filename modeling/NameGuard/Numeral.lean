import NameGuard.Number

/-!
# Numerals

A numeral is a word that writes a number: an optional sign, then digits, with a decimal point among
them or at either end. It has no exponent, and its digits are `0` to `9` only.

* `Numeral.read?` — the numeral that a word is;
* `Numeral.bound` — its value as binary64, rounded to the nearest;
* `Numeral.number` — its value as a number: an integer where it has no decimal point and fits 64
  bits, and binary64 otherwise.
-/

set_option autoImplicit false

namespace NameGuard

/-- A numeral: its sign, the digits before the decimal point, and the digits after it where there
is one. -/
structure Numeral where
  negative : Bool
  whole : List Char
  fraction : Option (List Char)
  deriving DecidableEq, Repr

namespace Numeral

/-- Takes the sign off. -/
def readSign : List Char → Bool × List Char
  | '-' :: rest => (true, rest)
  | '+' :: rest => (false, rest)
  | rest => (false, rest)

/-- What follows the digits before the decimal point: nothing, or the point and digits. There is a
digit on one side at least. -/
def readFraction (negative : Bool) (whole : List Char) : List Char → Option Numeral
  | [] => if whole.isEmpty then none else some ⟨negative, whole, none⟩
  | '.' :: fraction =>
    if fraction.all Char.isDigit && !(whole.isEmpty && fraction.isEmpty) then
      some ⟨negative, whole, some fraction⟩
    else none
  | _ => none

def readChars? (cs : List Char) : Option Numeral :=
  let body := (readSign cs).2
  readFraction (readSign cs).1 (body.takeWhile Char.isDigit) (body.dropWhile Char.isDigit)

/-- The numeral that a word is. -/
def read? (word : String) : Option Numeral :=
  readChars? word.toList

def isNumeral (word : String) : Bool :=
  (read? word).isSome

def digitsValue (digits : List Char) : Nat :=
  digits.foldl (fun n c => 10 * n + (c.toNat - '0'.toNat)) 0

def digits (numeral : Numeral) : List Char :=
  numeral.whole ++ numeral.fraction.getD []

/-- The value of a numeral as binary64. -/
def bound (numeral : Numeral) : Binary64 :=
  Binary64.ofQuotient numeral.negative (digitsValue numeral.digits)
    (tenPow (numeral.fraction.getD []).length)

def integer? (numeral : Numeral) : Option Int :=
  match numeral.fraction with
  | none => some (Binary64.signed numeral.negative (digitsValue numeral.whole))
  | some _ => none

def number (numeral : Numeral) : Number :=
  match numeral.integer? with
  | some n =>
    if Int64.minValue.toInt ≤ n ∧ n ≤ Int64.maxValue.toInt then .int (Int64.ofInt n)
    else .float numeral.bound
  | none => .float numeral.bound

end Numeral

end NameGuard
