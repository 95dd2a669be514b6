import NameGuard.Argument
import NameGuard.Value.Text

/-!
# Rules

A rule says what one kind of constraint does: how it consumes words, when it has enough of them,
which values it then admits, and how it speaks of itself. It is a small machine: a type of states, a
state to start from, and operations on states.

A word that is refused leaves the arguments as they are, but the rule may remember having seen it.

* `Rule` — the operations, where room for words, being satisfied and explaining have a usual form.
-/

set_option autoImplicit false

namespace NameGuard

/-- The sentence for a value that is not admitted, where there is nothing better to say. -/
def dissatisfaction (value : Value) (description : String) : String :=
  s!"{value.text} does not satisfy '{description}'"

/-- What one kind of constraint does. -/
structure Rule where
  /-- What the rule remembers of the words it was offered. -/
  State : Type
  /-- The state before any word. -/
  start : State
  /-- The words that select the rule. -/
  keywords : List String
  /-- How many arguments it takes. -/
  arity : State → Arity
  /-- The arguments it has. -/
  args : State → List Argument
  /-- Offers a word; tells whether it was taken. -/
  consume : State → String → Bool × State
  /-- Whether it wants to be offered words. -/
  hungry : State → Bool := fun s => (arity s).hasRoom (args s).length
  /-- Whether it has all it needs. -/
  isSatisfied : State → Bool := fun s => (arity s).isSatisfiedBy (args s).length
  /-- Whether it admits a value. -/
  validate : State → Value → Bool
  /-- What it asks for, in words. -/
  describe : State → String
  /-- Why it does not admit a value. -/
  explain : State → Value → Option String := fun s v =>
    if validate s v then none else some (dissatisfaction v (describe s))

end NameGuard
