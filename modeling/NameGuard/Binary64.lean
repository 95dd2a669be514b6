import NameGuard.Power

/-!
# Binary64 numbers

The numbers of the IEEE 754 binary64 format, held exactly: a finite number is
`± significand * 2 ^ exponent` in units of `2 ^ -1074`, the least positive number of the format.
Beside them stand two infinities and one not-a-number.

* `Binary64.rank?` — the place of a number on the integer line, in units of `2 ^ -1074`;
* `Binary64.compare?` — the numerical order, undefined where a not-a-number takes part;
* `Binary64.ofQuotient` — the number nearest to a quotient, a tie going to the even significand;
* `Binary64.rank?_finite`, `Binary64.compare?_of_rank?` — the order is the order of the ranks.
-/

set_option autoImplicit false

namespace NameGuard

/-- The one pair that names a finite number: the exponent is as small as a 53-bit significand
allows, and not beyond the last exponent of the format. -/
def IsCanonical (significand exponent : Nat) : Prop :=
  significand < twoPow 53 ∧ exponent ≤ 2045 ∧ (exponent = 0 ∨ twoPow 52 ≤ significand)

instance (significand exponent : Nat) : Decidable (IsCanonical significand exponent) := by
  unfold IsCanonical
  infer_instance

/-- A binary64 number. Zero has a sign; the bits of a not-a-number are not kept. -/
inductive Binary64 where
  | nan
  | infinity (negative : Bool)
  | finite (negative : Bool) (significand exponent : Nat)
      (canonical : IsCanonical significand exponent)
  deriving DecidableEq

namespace Binary64

def zero : Binary64 := .finite false 0 0 (by decide)

instance : Inhabited Binary64 := ⟨zero⟩

/-- An integer from its sign and its magnitude. -/
def signed (negative : Bool) (magnitude : Nat) : Int :=
  if negative then -(magnitude : Int) else magnitude

/-- How many units make one. -/
def scale : Nat := twoPow 1074

/-- The first magnitude beyond the finite numbers, in units of `2 ^ -1074`. -/
def overflowRank : Nat := twoPow 2098

/-- The place of a number on the integer line, in units of `2 ^ -1074`. The infinities take the
first places beyond the finite numbers, and a not-a-number has none. -/
def rank? : Binary64 → Option Int
  | .nan => none
  | .infinity negative => some (signed negative overflowRank)
  | .finite negative significand exponent _ =>
    some (signed negative (significand * twoPow exponent))

/-- The numerical order; both zeros are one number, and a not-a-number is comparable to nothing. -/
def compare? (a b : Binary64) : Option Ordering :=
  match a.rank?, b.rank? with
  | some x, some y => some (compare x y)
  | _, _ => none

/-- Numerical equality: the zeros are equal, and a not-a-number equals nothing. -/
def numEq (a b : Binary64) : Bool :=
  a.compare? b == some .eq

/-- The quotient of two natural numbers, rounded to the nearest, a tie to the even neighbour. -/
def roundQuotient (num den : Nat) : Nat :=
  let below := num / den
  let rest := 2 * (num % den)
  if rest < den then below
  else if den < rest then below + 1
  else if below % 2 = 0 then below
  else below + 1

/-- The finite number of a canonical pair; any other pair lies beyond the format. -/
def ofCanonical (negative : Bool) (significand exponent : Nat) : Binary64 :=
  if h : IsCanonical significand exponent then .finite negative significand exponent h
  else .infinity negative

/-- The number of a rounded significand, which may have grown to `2 ^ 53`. -/
def ofRounded (negative : Bool) (significand exponent : Nat) : Binary64 :=
  if significand = twoPow 53 then ofCanonical negative (twoPow 52) (exponent + 1)
  else ofCanonical negative significand exponent

/-- The exponent that a quotient is rounded at: the least that leaves at most 53 bits. -/
def quotientExponent (num den : Nat) : Nat :=
  (num * scale / den).log2 - 52

/-- The number nearest to `± num / den`, a tie going to the even significand, and an infinity
where the quotient is beyond the finite numbers. -/
def ofQuotient (negative : Bool) (num den : Nat) : Binary64 :=
  let exponent := quotientExponent num den
  ofRounded negative (roundQuotient (num * scale) (den * twoPow exponent)) exponent

def ofInt (n : Int) : Binary64 :=
  ofQuotient (decide (n < 0)) n.natAbs 1

def toInt? : Binary64 → Option Int
  | .finite negative significand exponent _ =>
    if significand * twoPow exponent % scale = 0 then
      some (signed negative (significand * twoPow exponent / scale))
    else none
  | _ => none

@[simp] theorem rank?_nan : rank? .nan = none := rfl

@[simp] theorem rank?_infinity (negative : Bool) :
    rank? (.infinity negative) = some (signed negative overflowRank) := rfl

@[simp] theorem rank?_finite (negative : Bool) (significand exponent : Nat)
    (h : IsCanonical significand exponent) :
    rank? (.finite negative significand exponent h) =
      some (signed negative (significand * twoPow exponent)) := rfl

theorem compare?_of_rank? {a b : Binary64} {x y : Int} (ha : a.rank? = some x)
    (hb : b.rank? = some y) : a.compare? b = some (compare x y) := by
  simp [compare?, ha, hb]

end Binary64

end NameGuard
