/-!
# Words that cannot be read

A word offered as a bound must be a numeral, and a word offered as a type tag must name one.
-/

set_option autoImplicit false

namespace NameGuard

/-- Why a word cannot be read. -/
inductive WordError where
  | unknownTypeTag (word : String)
  | notNumeric (word : String)
  deriving DecidableEq, Repr

def WordError.message : WordError → String
  | .unknownTypeTag word => s!"Unknown type tag: {word}"
  | .notNumeric word => s!"Not a numeric bound: {word}"

end NameGuard
