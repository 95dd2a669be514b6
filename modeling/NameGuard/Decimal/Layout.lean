import NameGuard.Decimal.Shortest

/-!
# The text of a binary64 number

A number is written with its shortest digits. A `FloatStyle` holds the decisions that are left: what
a whole number ends in, and where an exponent takes the place of zeros.

* `FloatStyle.plain` — never an exponent, and nothing after a whole number;
* `FloatStyle.marked` — a whole number ends in `.0`, and an exponent stands outside `10 ^ -4` to
  `10 ^ 16`.
-/

set_option autoImplicit false

namespace NameGuard

/-- How numbers are laid out. -/
structure FloatStyle where
  /-- Written after the digits of a whole number. -/
  wholeMark : String
  /-- Whether a number with its decimal point at this place is written without an exponent. -/
  positional : Int → Bool

namespace FloatStyle

/-- Numbers as a reader of messages sees them. -/
def plain : FloatStyle where
  wholeMark := ""
  positional _ := true

/-- Numbers as they are inspected: a whole one stays apart from an integer. -/
def marked : FloatStyle where
  wholeMark := ".0"
  positional point := decide (-4 < point ∧ point ≤ 16)

/-- Digits around a decimal point, with zeros where they do not reach it. -/
def layPositional (style : FloatStyle) (digits : List Char) (point : Int) : String :=
  if point ≤ 0 then
    "0." ++ String.ofList (List.replicate (-point).toNat '0' ++ digits)
  else
    let whole := digits.take point.toNat
    let fraction := digits.drop point.toNat
    let zeros := List.replicate (point.toNat - digits.length) '0'
    String.ofList (whole ++ zeros) ++
      (if fraction.isEmpty then style.wholeMark else "." ++ String.ofList fraction)

/-- One digit before the decimal point, and the power of ten after an `e`. -/
def layScientific (digits : List Char) (point : Int) : String :=
  let fraction := digits.drop 1
  String.ofList (digits.take 1) ++
    (if fraction.isEmpty then "" else "." ++ String.ofList fraction) ++
    "e" ++ toString (point - 1)

def positiveText (style : FloatStyle) (d : Decimal) : String :=
  if style.positional d.point then style.layPositional d.digits d.point
  else layScientific d.digits d.point

def text (style : FloatStyle) : Binary64 → String
  | .nan => "NaN"
  | .infinity negative => (if negative then "-" else "") ++ "inf"
  | .finite negative significand exponent _ =>
    (if negative then "-" else "") ++
      (if significand = 0 then "0" ++ style.wholeMark
       else style.positiveText (.shortest significand exponent))

end FloatStyle

end NameGuard
