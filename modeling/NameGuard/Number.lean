import NameGuard.Binary64.Whole
import NameGuard.Value

/-!
# Numbers of two formats

A bound or a value may be a 64-bit integer or a binary64 number. The two are compared exactly:
neither is rounded to the format of the other. An integer is compared with the whole part of a
binary64 number first, and where these are equal the fraction decides.

* `Number.compareIntFloat` — the order of an integer and a binary64 number;
* `Number.compare?` — the numerical order, undefined on a not-a-number;
* `Number.rank?` — the place of a number on one integer line, in units of `2 ^ -1074`;
* `Number.toBinary64` — a number as binary64, an integer being rounded to the nearest.
-/

set_option autoImplicit false

namespace NameGuard

/-- A 64-bit integer or a binary64 number. -/
inductive Number where
  | int (n : Int64)
  | float (x : Binary64)
  deriving DecidableEq

namespace Number

/-- The place of a number on the integer line, in units of `2 ^ -1074`. -/
def rank? : Number → Option Int
  | .int n => some (n.toInt * Binary64.scale)
  | .float x => x.rank?

/-- The order of an integer and a binary64 number, where the integer is not rounded. It is compared
with the number rounded down; if they are equal, the integer is less where there was a fraction to
round off. -/
def compareIntFloat (n : Int64) (x : Binary64) : Option Ordering :=
  if x = .nan then none
  else
    match compare n.toInt x.floor.toInt128 with
    | .eq => if x.numEq x.floor then some .eq else some .lt
    | ordering => some ordering

/-- The numerical order; a not-a-number is comparable to nothing. -/
def compare? : Number → Number → Option Ordering
  | .int a, .int b => some (compare a b)
  | .float a, .float b => a.compare? b
  | .int a, .float b => compareIntFloat a b
  | .float a, .int b => (compareIntFloat b a).map Ordering.swap

/-- Whether the first number is not above the second. -/
def atMost (a b : Number) : Bool :=
  match a.compare? b with
  | some .lt | some .eq => true
  | _ => false

def toBinary64 : Number → Binary64
  | .int n => Binary64.ofInt n.toInt
  | .float x => x

def ofValue? : Value → Option Number
  | .int n => some (.int n)
  | .float x => some (.float x)
  | _ => none

@[simp] theorem rank?_int (n : Int64) : rank? (.int n) = some (n.toInt * Binary64.scale) := rfl

@[simp] theorem rank?_float (x : Binary64) : rank? (.float x) = x.rank? := rfl

end Number

end NameGuard
