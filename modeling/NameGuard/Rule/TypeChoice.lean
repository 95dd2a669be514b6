import NameGuard.Rule
import NameGuard.Text.Case
import NameGuard.WordError

/-!
# Choices of types

A type choice admits the values whose type is one of those it lists. It reads type tags, passing
over `and` and `or` between them, until a word that is neither closes the list.

* `TypeTag` — the names of types in a declaration;
* `TypeChoice` — the tags read so far, with the argument that each of them adds;
* `TypeChoice.of`, `TypeChoice.ext` — a choice is told by its tags and by whether it is closed;
* `TypeChoice.rule` — type choices as a rule.
-/

set_option autoImplicit false

namespace NameGuard

/-- The name of a type in a declaration. -/
inductive TypeTag where
  | integers
  | floats
  | strings
  | hashrefs
  | arrayrefs
  deriving DecidableEq, Repr

namespace TypeTag

def all : List TypeTag := [.integers, .floats, .strings, .hashrefs, .arrayrefs]

def name : TypeTag → String
  | .integers => "integers"
  | .floats => "floats"
  | .strings => "strings"
  | .hashrefs => "hashrefs"
  | .arrayrefs => "arrayrefs"

/-- The type that a tag stands for. No tag stands for truth values. -/
def type : TypeTag → ValueType
  | .integers => .int
  | .floats => .float
  | .strings => .string
  | .hashrefs => .map
  | .arrayrefs => .list

def admits (tag : TypeTag) (value : Value) : Bool :=
  value.typeOf == tag.type

/-- The tag that a word names, in letters of either case. -/
def ofWord? (word : String) : Option TypeTag :=
  all.find? fun tag => sameWord tag.name word

@[simp] theorem ofWord?_name (tag : TypeTag) : ofWord? tag.name = some tag := by
  cases tag <;> decide +kernel

/-- The tag that a word names, or why there is none. -/
def read (word : String) : Except WordError TypeTag :=
  match ofWord? word with
  | some tag => .ok tag
  | none => .error (.unknownTypeTag word)

end TypeTag

/-- The tags listed so far, each once, the arguments, and whether the list is closed. -/
structure TypeChoice where
  tags : List TypeTag
  args : List Argument
  closed : Bool
  /-- Each tag stands among the arguments by its name, and nothing else does. -/
  args_eq : args = tags.map fun tag => .word tag.name
  deriving DecidableEq

namespace TypeChoice

def keywords : List String := ["contains", "containing", "with"]

/-- The choice that lists the given tags. -/
def of (tags : List TypeTag) (closed : Bool) : TypeChoice where
  tags := tags
  args := tags.map fun tag => .word tag.name
  closed := closed
  args_eq := rfl

def empty : TypeChoice := of [] false

/-- Lists one more tag with its argument, unless the tag is listed already. -/
def insert (choice : TypeChoice) (tag : TypeTag) : TypeChoice :=
  if choice.tags.contains tag then choice
  else
    { choice with
      tags := choice.tags ++ [tag]
      args := choice.args ++ [.word tag.name]
      args_eq := by rw [choice.args_eq, List.map_append, List.map_singleton] }

/-- Whether a word may stand between tags. -/
def isConjunction (word : String) : Bool :=
  word == "and" || word == "or"

/-- Takes a tag, passes over a conjunction, and is closed by any other word. -/
def consume (choice : TypeChoice) (word : String) : Bool × TypeChoice :=
  if choice.closed then (false, choice)
  else
    match TypeTag.ofWord? word with
    | some tag => (true, choice.insert tag)
    | none => (false, if isConjunction word then choice else { choice with closed := true })

def validate (choice : TypeChoice) (value : Value) : Bool :=
  choice.tags.any fun tag => tag.admits value

/-- The tags with `or` between them, and a mark where there is none. -/
def alternatives (choice : TypeChoice) : String :=
  if choice.tags.isEmpty then "?" else " or ".intercalate (choice.tags.map TypeTag.name)

def describe (choice : TypeChoice) : String :=
  s!"contains {choice.alternatives}"

def explain (choice : TypeChoice) (value : Value) : Option String :=
  if choice.validate value then none
  else
    some (s!"value type is not permitted: {value.text} is {value.typeName}, " ++
      s!"expected {choice.alternatives}")

def rule : Rule where
  State := TypeChoice
  start := empty
  keywords := keywords
  arity _ := .variadic
  args := args
  consume := consume
  hungry choice := !choice.closed
  validate := validate
  describe := describe
  explain := explain

/-- The arguments follow from the tags. -/
@[ext] theorem ext {a b : TypeChoice} (tags : a.tags = b.tags) (closed : a.closed = b.closed) :
    a = b := by
  obtain ⟨ts, args, c, rfl⟩ := a
  obtain ⟨_, _, _, rfl⟩ := b
  obtain rfl : ts = _ := tags
  obtain rfl : c = _ := closed
  rfl

@[simp] theorem tags_of (tags : List TypeTag) (closed : Bool) : (of tags closed).tags = tags := rfl

@[simp] theorem closed_of (tags : List TypeTag) (closed : Bool) :
    (of tags closed).closed = closed := rfl

theorem length_args (choice : TypeChoice) : choice.args.length = choice.tags.length := by
  rw [choice.args_eq, List.length_map]

theorem consume_of_closed {choice : TypeChoice} (h : choice.closed = true) (word : String) :
    choice.consume word = (false, choice) := by
  simp [consume, h]

theorem tags_of_refused (choice : TypeChoice) (word : String)
    (h : (choice.consume word).1 = false) : (choice.consume word).2.tags = choice.tags := by
  cases hclosed : choice.closed with
  | true => rw [consume_of_closed hclosed]
  | false =>
    cases htag : TypeTag.ofWord? word with
    | some tag => simp [consume, hclosed, htag] at h
    | none => by_cases hword : isConjunction word = true <;> simp [consume, hclosed, htag, hword]

/-- A choice that refuses a word keeps its arguments. -/
theorem args_of_refused (choice : TypeChoice) (word : String)
    (h : (choice.consume word).1 = false) : (choice.consume word).2.args = choice.args := by
  rw [args_eq, args_eq, choice.tags_of_refused word h]

end TypeChoice

end NameGuard
