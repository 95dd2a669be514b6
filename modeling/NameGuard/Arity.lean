/-!
# Arities

How many arguments a constraint takes: an exact number, or one and more.

* `Arity.isSatisfiedBy` — whether a number of arguments is enough;
* `Arity.hasRoom` — whether one more argument would be welcome.
-/

set_option autoImplicit false

namespace NameGuard

/-- How many arguments a constraint takes. -/
inductive Arity where
  | exact (count : Nat)
  | variadic
  deriving DecidableEq, Repr

namespace Arity

/-- The arity of a count, where none stands for any number. -/
def ofCount (count : Nat) : Arity :=
  if count = 0 then .variadic else .exact count

def count : Arity → Nat
  | .exact n => n
  | .variadic => 0

/-- Whether any number of arguments from one on is taken. -/
def isVariadic : Arity → Bool
  | .exact _ => false
  | .variadic => true

def isSatisfiedBy : Arity → Nat → Bool
  | .exact n, consumed => consumed == n
  | .variadic, consumed => 1 ≤ consumed

/-- Whether there is room for an argument beside those consumed. -/
def hasRoom : Arity → Nat → Bool
  | .exact n, consumed => consumed < n
  | .variadic, _ => true

def text : Arity → String
  | .exact n => toString n
  | .variadic => "1+"

/-- A positive count comes back from its arity; so does none. -/
theorem count_ofCount (n : Nat) : (ofCount n).count = n := by
  unfold ofCount
  split
  · rename_i h
    exact h.symm
  · rfl

end Arity

end NameGuard
