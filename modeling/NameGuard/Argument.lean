import NameGuard.Arity
import NameGuard.Decimal.Layout
import NameGuard.Number

/-!
# Arguments

An argument is what a constraint keeps of a word that it consumed: an integer, a binary64 number, or
the word itself.
-/

set_option autoImplicit false

namespace NameGuard

/-- An argument of a constraint. -/
inductive Argument where
  | integer (n : Int64)
  | number (x : Binary64)
  | word (w : String)
  deriving DecidableEq

namespace Argument

/-- A numeric argument as binary64, an integer being rounded to the nearest. -/
def asBinary64? : Argument → Option Binary64
  | .integer n => some (Binary64.ofInt n.toInt)
  | .number x => some x
  | .word _ => none

def asInteger? : Argument → Option Int64
  | .integer n => some n
  | _ => none

def asWord? : Argument → Option String
  | .word w => some w
  | _ => none

def ofNumber : Number → Argument
  | .int n => .integer n
  | .float x => .number x

def text : Argument → String
  | .integer n => toString n.toInt
  | .number x => FloatStyle.plain.text x
  | .word w => w

end Argument

end NameGuard
