import NameGuard.Numeral
import NameGuard.Rule

/-!
# Sample rules

Rules beside ranges and type choices, to extend a registry with and to try what a rule may do. Most
of them keep the usual forms; some use the freedom that a rule has, to its limits: a rule that
admits nothing and gives no reason, one that is hungry for ever, one whose keyword no registry
takes, and one without keywords.

* `Sample.nonempty`, `Sample.divisible` — rules on values;
* `Sample.pick`, `Sample.triple`, `Sample.overeat` — rules that list the texts they admit;
* `Sample.refuse`, `Sample.upper`, `Sample.mute` — rules without arguments;
* `Sample.named?` — a sample rule by its name.
-/

set_option autoImplicit false

namespace NameGuard.Sample

/-- A rule that takes no argument. -/
def bare (keywords : List String) (description : String) (validate : Value → Bool) : Rule where
  State := Unit
  start := ()
  keywords := keywords
  arity _ := .exact 0
  args _ := []
  consume _ _ := (false, ())
  validate _ := validate
  describe _ := description

def hasContent : Value → Bool
  | .string s => !s.isEmpty
  | .list items => !items.isEmpty
  | .map entries => !entries.isEmpty
  | _ => true

/-- Admits values with content. -/
def nonempty : Rule := bare ["nonempty", "filled"] "nonempty" hasContent

/-- Admits nothing, and never says why. -/
def refuse : Rule :=
  { bare ["refuse"] "refuse" (fun _ => false) with explain := fun _ _ => none }

/-- Has a keyword with a capital, which no registry takes. -/
def upper : Rule := bare ["Upper"] "upper" fun _ => true

def mute : Rule := bare [] "mute" fun _ => true

/-- The divisor that a word writes: a whole number from one on. -/
def divisor? (word : String) : Option Binary64 :=
  match Numeral.read? word with
  | some numeral =>
    match numeral.bound.toInt? with
    | some n => if 1 ≤ n then some numeral.bound else none
    | none => none
  | none => none

/-- Whether an integer is a multiple of a divisor. A divisor beyond 64 bits counts as the greatest
integer of 64 bits. -/
def isMultiple (n : Int64) (divisor : Binary64) : Bool :=
  match divisor.toInt? with
  | some d => n.toInt.tmod (min d Int64.maxValue.toInt) == 0
  | none => false

/-- Admits the integers that are multiples of its divisor. -/
def divisible : Rule where
  State := Option Binary64
  start := none
  keywords := ["divisible", "multiple"]
  arity _ := .exact 1
  args divisor := divisor.toList.map Argument.number
  consume divisor word :=
    match divisor, divisor? word with
    | none, some d => (true, some d)
    | _, _ => (false, divisor)
  validate divisor value :=
    match divisor, value with
    | some d, .int n => isMultiple n d
    | _, _ => false
  describe divisor :=
    match divisor with
    | some d => s!"divisible by {(Argument.number d).text}"
    | none => "divisible by ?"

def isListed (texts : List String) : Value → Bool
  | .string s => texts.contains s
  | _ => false

/-- A rule that lists the texts it admits. It takes the words of which `takes` holds, given the
number of texts it has. -/
def listing (name : String) (keywords : List String) (arity : Arity)
    (takes : Nat → String → Bool) : Rule where
  State := List String
  start := []
  keywords := keywords
  arity _ := arity
  args texts := texts.map Argument.word
  consume texts word :=
    if takes texts.length word then (true, texts ++ [word]) else (false, texts)
  validate := isListed
  describe texts := name ++ " " ++ "|".intercalate texts

def startsWithX (word : String) : Bool :=
  word.toList.head? == some 'x'

/-- Lists words that start with `x`. -/
def pick : Rule := listing "pick" ["pick"] .variadic fun _ => startsWithX

/-- Lists the next three words, whatever they are. -/
def triple : Rule := listing "triple" ["triple", "three"] (.exact 3) fun count _ => count < 3

/-- Lists words that start with `x`, and never has enough. -/
def overeat : Rule :=
  { listing "overeat" ["overeat"] (.exact 1) (fun _ => startsWithX) with hungry := fun _ => true }

def named? : String → Option Rule
  | "nonempty" => some nonempty
  | "divisible" => some divisible
  | "pick" => some pick
  | "triple" => some triple
  | "refuse" => some refuse
  | "overeat" => some overeat
  | "upper" => some upper
  | "mute" => some mute
  | _ => none

end NameGuard.Sample
