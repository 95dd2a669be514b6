import NameGuard.Name
import NameGuard.Registry

/-!
# Declarations

A declaration is a list of words. It is read once, from left to right. A word goes first to the
clause that is open, as long as that clause is hungry; a word that is not taken may be a keyword,
which closes the open clause and opens another; any other word is filler.

Reading writes down every step. What a declaration says is then gathered from the steps: the clauses
in the order of their opening, those that are satisfied, those that are not, and the filler.

* `Registry.advance`, `Registry.scan` — one step, and all steps from a given place on;
* `Registry.read` — the reading of a declaration;
* `Reading.clauses`, `Reading.constraints`, `Reading.dropped`, `Reading.discarded` — what it says;
* `Registry.parse` — the declaration, or in strict mode the first clause that is incomplete.
-/

set_option autoImplicit false

namespace NameGuard

/-- A clause: a constraint, and the place of the keyword that opened it. -/
structure Clause where
  position : Nat
  constraint : Constraint

/-- What a word is for: an argument of the open clause or a keyword, of the kind of a name, or
filler. -/
inductive Role where
  | argument (kind : String)
  | keyword (kind : String)
  | filler
  deriving DecidableEq, Repr

/-- One word read, its role, and the clause that it closed. -/
structure Step where
  word : String
  role : Role
  closed : Option Clause

/-- The steps of reading, and the clause left open at the end. -/
structure Reading where
  steps : List Step
  last : Option Clause

/-- A clause that did not get all it needs. -/
structure Dropped where
  kind : String
  keyword : String
  position : Nat
  args : List Argument
  required : Arity
  deriving DecidableEq

namespace Clause

/-- Offers a word to the clause if it is hungry; tells whether the word was taken. -/
def offer (clause : Clause) (word : String) : Bool × Clause :=
  if clause.constraint.hungry then
    ((clause.constraint.consume word).1,
      { clause with constraint := (clause.constraint.consume word).2 })
  else (false, clause)

def isSatisfied (clause : Clause) : Bool := clause.constraint.isSatisfied

def toDropped (clause : Clause) : Dropped where
  kind := clause.constraint.name
  keyword := clause.constraint.keyword
  position := clause.position
  args := clause.constraint.args
  required := clause.constraint.arity

end Clause

namespace Registry

/-- A word that was not taken: a keyword closes the open clause and opens another, and any other
word is filler. -/
def select (registry : Registry) (position : Nat) (current : Option Clause) (word : String) :
    Step × Option Clause :=
  match registry.lookup word with
  | some kind =>
    (⟨word, .keyword kind.name, current⟩, some ⟨position, kind.instantiate word⟩)
  | none => (⟨word, .filler, none⟩, current)

/-- One step of reading. -/
def advance (registry : Registry) (position : Nat) (current : Option Clause) (word : String) :
    Step × Option Clause :=
  match current with
  | none => registry.select position none word
  | some clause =>
    match clause.offer word with
    | (true, grown) => (⟨word, .argument grown.constraint.name, none⟩, some grown)
    | (false, left) => registry.select position (some left) word

/-- All steps from a place on, with the clause that is open there. -/
def scan (registry : Registry) (position : Nat) (current : Option Clause) :
    List String → Reading
  | [] => ⟨[], current⟩
  | word :: rest =>
    let step := registry.advance position current word
    let tail := registry.scan (position + 1) step.2 rest
    ⟨step.1 :: tail.steps, tail.last⟩

/-- The reading of a declaration, in letters of either case. -/
def read (registry : Registry) (words : List String) : Reading :=
  registry.scan 0 none (words.map String.toLower)

end Registry

namespace Step

def filler? (step : Step) : Option String :=
  if step.role = .filler then some step.word else none

end Step

namespace Reading

/-- The clauses, in the order of their opening. -/
def clauses (reading : Reading) : List Clause :=
  reading.steps.filterMap Step.closed ++ reading.last.toList

/-- The constraints of the clauses that have all they need. -/
def constraints (reading : Reading) : List Constraint :=
  (reading.clauses.filter Clause.isSatisfied).map Clause.constraint

/-- The records of the clauses that do not. -/
def dropped (reading : Reading) : List Dropped :=
  (reading.clauses.filter fun clause => !clause.isSatisfied).map Clause.toDropped

def discarded (reading : Reading) : List String :=
  reading.steps.filterMap Step.filler?

end Reading

/-- What a declaration says. -/
structure Declaration where
  constraints : List Constraint
  dropped : List Dropped
  discarded : List String

def Reading.declaration (reading : Reading) : Declaration :=
  ⟨reading.constraints, reading.dropped, reading.discarded⟩

/-- Why a declaration cannot be read: the name it belongs to cannot be split, or a clause did not
get all it needs. -/
inductive ParseError where
  | name (error : NameError)
  | incomplete (keyword : String) (position consumed : Nat) (required : Arity)
  deriving DecidableEq, Repr

def ParseError.message : ParseError → String
  | .name error => error.message
  | .incomplete keyword position consumed required =>
    s!"Incomplete constraint '{keyword}' at token {position}: " ++
      s!"consumed {consumed} of {required.text} arguments"

def Dropped.error (dropped : Dropped) : ParseError :=
  .incomplete dropped.keyword dropped.position dropped.args.length dropped.required

namespace Registry

/-- The declaration of some words, where incomplete clauses are dropped. -/
def parseLenient (registry : Registry) (words : List String) : Declaration :=
  (registry.read words).declaration

/-- The declaration of some words. In strict mode the first incomplete clause is an error. -/
def parse (registry : Registry) (strict : Bool) (words : List String) :
    Except ParseError Declaration :=
  let declaration := registry.parseLenient words
  match strict, declaration.dropped with
  | true, dropped :: _ => .error dropped.error
  | _, _ => .ok declaration

end Registry

def parseConstraints (words : List String) : List Constraint :=
  (Registry.standard.parseLenient words).constraints

namespace Registry

theorem length_steps_scan (registry : Registry) (words : List String) :
    ∀ (position : Nat) (current : Option Clause),
      (registry.scan position current words).steps.length = words.length := by
  induction words with
  | nil => intro position current; rfl
  | cons word rest ih => intro position current; simp [scan, ih]

/-- Reading some words and then others is reading the others from where the first left off. -/
theorem scan_append (registry : Registry) (xs ys : List String) :
    ∀ (position : Nat) (current : Option Clause),
      registry.scan position current (xs ++ ys) =
        let first := registry.scan position current xs
        let second := registry.scan (position + xs.length) first.last ys
        ⟨first.steps ++ second.steps, second.last⟩ := by
  induction xs with
  | nil => intro position current; simp [scan]
  | cons x rest ih =>
    intro position current
    simp only [List.cons_append, scan, ih, List.length_cons]
    rw [Nat.add_right_comm, ← Nat.add_assoc]

theorem parse_lenient_mode (registry : Registry) (words : List String) :
    registry.parse false words = .ok (registry.parseLenient words) := rfl

end Registry

end NameGuard
