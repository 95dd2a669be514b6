import NameGuard.Numeral.Reader
import NameGuard.Rule
import NameGuard.WordError

/-!
# Ranges

A range admits the numbers between two bounds, the bounds included. It takes the first two numerals
it is offered, in whatever order they come, and compares exactly: integers and binary64 numbers
stand on one line.

* `Range.bounds?` — the bounds as binary64 numbers;
* `Range.holds?` — whether a number lies between the bounds;
* `Range.rule` — ranges as a rule.
-/

set_option autoImplicit false

namespace NameGuard

/-- The bound that a numeral writes, as binary64. Other words are refused, also where a binary64
number could be read from them. -/
def readBound (word : String) : Except WordError Binary64 :=
  if Numeral.isNumeral word then
    match Binary64.read? word with
    | some bound => .ok bound
    | none => .error (.notNumeric word)
  else .error (.notNumeric word)

/-- The bound that a numeral writes. An integer is kept exact where it has no decimal point and fits
64 bits; the plus before it is taken off. -/
def readBoundNumber (word : String) : Except WordError Number :=
  match readBound word with
  | .ok bound =>
    if word.toList.contains '.' then .ok (.float bound)
    else
      match readInt64? (word.toList.dropWhile (· == '+')) with
      | some n => .ok (.int n)
      | none => .ok (.float bound)
  | .error e => .error e

/-- The bounds that a range has, in ascending order. -/
inductive Range where
  | none
  | one (bound : Number)
  | both (low high : Number)
  deriving DecidableEq

namespace Range

def keywords : List String := ["between", "betwixt", "surrounded"]

def args : Range → List Argument
  | .none => []
  | .one bound => [.ofNumber bound]
  | .both low high => [.ofNumber low, .ofNumber high]

/-- The bounds as binary64 numbers, once there are two. -/
def bounds? : Range → Option (Binary64 × Binary64)
  | .both low high => some (low.toBinary64, high.toBinary64)
  | _ => .none

/-- The range of two bounds, put in ascending order. -/
def ofPair (first second : Number) : Range :=
  if first.compare? second = some .gt then .both second first else .both first second

/-- Adds a bound; a range with two takes no more. -/
def insert (range : Range) (bound : Number) : Bool × Range :=
  match range with
  | .none => (true, .one bound)
  | .one first => (true, ofPair first bound)
  | .both low high => (false, .both low high)

/-- Takes a numeral as a bound. -/
def consume (range : Range) (word : String) : Bool × Range :=
  match readBoundNumber word with
  | .ok bound => range.insert bound
  | .error _ => (false, range)

/-- Whether a value lies between the bounds: undefined while a bound is missing, and on a value that
is not a number. -/
def holds? (range : Range) (value : Value) : Option Bool :=
  match range, Number.ofValue? value with
  | .both low high, some v => some (low.atMost v && v.atMost high)
  | _, _ => .none

def validate (range : Range) (value : Value) : Bool :=
  (range.holds? value).getD false

def boundText (bound : Number) : String :=
  (Argument.ofNumber bound).text

/-- What the range asks for, with a mark for each missing bound. -/
def describe : Range → String
  | .none => "between ? and ?"
  | .one bound => s!"between {boundText bound} and ?"
  | .both low high => s!"between {boundText low} and {boundText high}"

def explain (range : Range) (value : Value) : Option String :=
  match range with
  | .both low high =>
    match range.holds? value with
    | some true => .none
    | some false =>
      some s!"value is out of range: {value.text} not in [{boundText low}, {boundText high}]"
    | .none => some s!"value is not numeric: {value.text} is {value.typeName}"
  | _ => some "range constraint has fewer than two bounds"

def rule : Rule where
  State := Range
  start := .none
  keywords := keywords
  arity _ := .exact 2
  args := args
  consume := consume
  validate := validate
  describe := describe
  explain := explain

/-- A word that is no numeral is refused and changes nothing. -/
theorem consume_of_not_numeral (range : Range) (word : String)
    (h : Numeral.isNumeral word = false) : range.consume word = (false, range) := by
  simp [consume, readBoundNumber, readBound, h]

theorem consume_refused (range : Range) (word : String) (h : (range.consume word).1 = false) :
    (range.consume word).2 = range := by
  unfold consume at *
  split at h
  · rename_i bound hb
    cases range <;> simp_all [insert]
  · rfl

end Range

end NameGuard
