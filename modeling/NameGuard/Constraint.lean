import NameGuard.Rule.Range
import NameGuard.Rule.TypeChoice
import NameGuard.Text.Case

/-!
# Kinds of constraint, and constraints

A kind gives a rule a name, the keywords that select it, the arity it declares and a description. A
constraint is a kind at work: the keyword that selected it, and the state of its rule.

* `Kind.isSelectedBy` — whether a word selects a kind;
* `Kind.instantiate` — a constraint that has seen no word yet;
* `Constraint.consume` — offers a word to a constraint.
-/

set_option autoImplicit false

namespace NameGuard

/-- A kind of constraint. -/
structure Kind where
  name : String
  keywords : List String
  arity : Arity
  description : String
  rule : Rule

/-- A constraint: a kind, the keyword that selected it, and what its rule remembers. -/
structure Constraint where
  kind : Kind
  keyword : String
  state : kind.rule.State

namespace Kind

def between : Kind where
  name := "between"
  keywords := Range.keywords
  arity := .exact 2
  description := "numeric value within an inclusive range"
  rule := Range.rule

def contains : Kind where
  name := "contains"
  keywords := TypeChoice.keywords
  arity := .variadic
  description := "value whose type is one of the listed type tags"
  rule := TypeChoice.rule

/-- The kinds that every standard registry has. -/
def standard : List Kind := [between, contains]

theorem mem_standard_iff {kind : Kind} :
    kind ∈ standard ↔ kind = .between ∨ kind = .contains := by
  simp [standard]

/-- Whether a word selects the kind, in letters of either case. -/
def isSelectedBy (kind : Kind) (word : String) : Bool :=
  kind.keywords.any fun keyword => sameWord keyword word

/-- A constraint that has seen no word yet. -/
def instantiate (kind : Kind) (keyword : String) : Constraint :=
  ⟨kind, keyword, kind.rule.start⟩

theorem isSelectedBy_iff (kind : Kind) (word : String) :
    kind.isSelectedBy word = true ↔ ∃ k ∈ kind.keywords, k.toLower = word.toLower := by
  simp [isSelectedBy, sameWord_iff]

end Kind

namespace Constraint

def name (c : Constraint) : String := c.kind.name

def arity (c : Constraint) : Arity := c.kind.rule.arity c.state

def args (c : Constraint) : List Argument := c.kind.rule.args c.state

/-- Offers a word; tells whether it was taken. -/
def consume (c : Constraint) (word : String) : Bool × Constraint :=
  ((c.kind.rule.consume c.state word).1, { c with state := (c.kind.rule.consume c.state word).2 })

def hungry (c : Constraint) : Bool := c.kind.rule.hungry c.state

def isSatisfied (c : Constraint) : Bool := c.kind.rule.isSatisfied c.state

def validate (c : Constraint) (value : Value) : Bool := c.kind.rule.validate c.state value

def describe (c : Constraint) : String := c.kind.rule.describe c.state

def explain (c : Constraint) (value : Value) : Option String := c.kind.rule.explain c.state value

@[simp] theorem kind_consume (c : Constraint) (word : String) :
    (c.consume word).2.kind = c.kind ∧ (c.consume word).2.keyword = c.keyword := ⟨rfl, rfl⟩

end Constraint

end NameGuard
