import NameGuard.Holder.Session

/-!
# The journal

A journal says what happened, event by event: what became of each word of a declaration, which
clauses were dropped, what a declaration came to, that a holder was built, and how each write went.
The journal is read off what was done: it changes nothing, and it is the same in strict mode.

* `Event.level`, `Event.message`, `Event.fields` — an event as a line of a log;
* `Reading.journal` — the events of reading a declaration;
* `Holder.constructJournal`, `Holder.ofNameJournal` — the events of building a holder;
* `Holder.writeJournal`, `Holder.replayJournal` — the events of writing.
-/

set_option autoImplicit false

namespace NameGuard

/-- How much an event matters. -/
inductive Level where
  | trace
  | debug
  | warn
  deriving DecidableEq, Repr

def Level.name : Level → String
  | .trace => "TRACE"
  | .debug => "DEBUG"
  | .warn => "WARN"

/-- Something that happened. -/
inductive Event where
  | argument (token kind : String)
  | keyword (token kind : String)
  | filler (token : String)
  | dropping (keyword : String) (position consumed : Nat) (required : Arity)
  | parsed (tokens constraints dropped discarded : Nat)
  | built (name : String) (holder : HolderType) (constraints : Nat)
  | rejected (name : String) (index : Nat) (constraint : String) (value : Value)
  | accepted (name : String) (value : Value)

namespace Event

def level : Event → Level
  | .argument .. | .keyword .. | .filler .. | .accepted .. => .trace
  | .parsed .. | .built .. | .rejected .. => .debug
  | .dropping .. => .warn

def message : Event → String
  | .argument .. => "argument"
  | .keyword .. => "keyword"
  | .filler .. => "filler"
  | .dropping .. => "dropping incomplete constraint"
  | .parsed .. => "parsed constraints"
  | .built .. => "constrained holder built"
  | .rejected .. => "write rejected"
  | .accepted .. => "write accepted"

/-- The particulars, by name. -/
def fields : Event → List (String × String)
  | .argument token kind => [("token", token), ("kind", kind)]
  | .keyword token kind => [("token", token), ("kind", kind)]
  | .filler token => [("token", token)]
  | .dropping word position consumed required =>
    [("keyword", word), ("position", toString position), ("consumed", toString consumed),
      ("required", required.text)]
  | .parsed tokens constraints dropped discarded =>
    [("tokens", toString tokens), ("constraints", toString constraints),
      ("dropped", toString dropped), ("discarded", toString discarded)]
  | .built name holder constraints =>
    [("name", name), ("holder", holder.name), ("constraints", toString constraints)]
  | .rejected name index constraint value =>
    [("name", name), ("index", toString index), ("constraint", constraint), ("value", value.text)]
  | .accepted name value => [("name", name), ("value", value.text)]

end Event

def Step.event (step : Step) : Event :=
  match step.role with
  | .argument kind => .argument step.word kind
  | .keyword kind => .keyword step.word kind
  | .filler => .filler step.word

/-- The event of a clause that ends: none if it has all it needs. -/
def Clause.journal (clause : Clause) : List Event :=
  if clause.isSatisfied then []
  else
    [.dropping clause.constraint.keyword clause.position clause.constraint.args.length
      clause.constraint.arity]

/-- The events of a step: the word, then the end of the clause that it closed. -/
def Step.journal (step : Step) : List Event :=
  step.event :: step.closed.toList.flatMap Clause.journal

/-- The events of reading a declaration. -/
def Reading.journal (reading : Reading) : List Event :=
  reading.steps.flatMap Step.journal ++ reading.last.toList.flatMap Clause.journal ++
    [.parsed reading.steps.length reading.constraints.length reading.dropped.length
      reading.discarded.length]

/-- The events of reading a declaration over a registry. -/
def Registry.parseJournal (registry : Registry) (words : List String) : List Event :=
  (registry.read words).journal

namespace Holder

/-- The event of a holder that was built; none if it was not. -/
def builtJournal : Except HolderError Holder → List Event
  | .ok holder => [.built holder.name holder.holderType holder.constraints.length]
  | .error _ => []

/-- The events of building a holder with a given declaration. -/
def constructJournal (name : String) (words : List String) (registry : Registry := .standard)
    (dialect : Dialect := {}) : List Event :=
  match Name.split dialect.separator name with
  | .error _ => []
  | .ok _ =>
    registry.parseJournal words ++ builtJournal (construct name words registry dialect)

/-- The events of building a holder with the declaration that its name makes. -/
def ofNameJournal (name : String) (registry : Registry := .standard) (dialect : Dialect := {}) :
    List Event :=
  match Name.split dialect.separator name with
  | .error _ => []
  | .ok parts => constructJournal name parts.declaration registry dialect

def writeJournal (holder : Holder) (value : Value) : List Event :=
  match holder.firstViolation? value with
  | some v => [.rejected holder.name v.index v.constraint value]
  | none => [.accepted holder.name value]

/-- The events of an action. Only a write has any. -/
def performJournal (holder : Holder) : Action → List Event
  | .write value => holder.writeJournal value
  | _ => []

def replayJournal (holder : Holder) : List Action → List Event
  | [] => []
  | action :: rest =>
    holder.performJournal action ++ (holder.perform action).2.replayJournal rest

end Holder

end NameGuard
