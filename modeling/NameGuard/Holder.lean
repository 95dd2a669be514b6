import NameGuard.Declaration
import NameGuard.Violation

/-!
# Holders

A holder has a name, and stores at most one value. The constraints that its name declares stand
guard: a value is stored only if every constraint admits it, and a value that is not admitted leaves
the stored one as it was.

* `Holder.construct`, `Holder.ofName` — a holder from a name and a declaration, or from the name
  alone;
* `Holder.accepts`, `Holder.check` — whether a value would be stored, and all that speaks against
  it;
* `Holder.write` — stores a value, or tells the first violation.
-/

set_option autoImplicit false

namespace NameGuard

/-- What can go wrong with a holder. -/
inductive HolderError where
  | nameFormat (error : NameError)
  | parse (error : ParseError)
  | violation (violation : Violation)

namespace HolderError

def message : HolderError → String
  | .nameFormat error => s!"Invalid holder name: {error.message}"
  | .parse error => s!"Invalid constraints: {error.message}"
  | .violation v => s!"Constraint violated: {v.text}"

def violation? : HolderError → Option Violation
  | .violation v => some v
  | _ => none

/-- The error of a declaration that cannot be read. That of a name stays one of the name. -/
def ofParseError : ParseError → HolderError
  | .name error => .nameFormat error
  | .incomplete keyword position consumed required =>
    .parse (.incomplete keyword position consumed required)

end HolderError

/-- A name, the constraints that it declares, and the value that is stored. -/
structure Holder where
  name : String
  holderType : HolderType
  constraints : List Constraint
  stored : Option Value

namespace Holder

/-- A holder with a given declaration; nothing is stored yet. -/
def construct (name : String) (words : List String) (registry : Registry := .standard)
    (dialect : Dialect := {}) : Except HolderError Holder :=
  match Name.split dialect.separator name with
  | .error error => .error (.nameFormat error)
  | .ok parts =>
    match registry.parse dialect.strict words with
    | .error error => .error (.ofParseError error)
    | .ok declaration => .ok ⟨name, parts.holder, declaration.constraints, none⟩

/-- A holder with the declaration that its name makes; nothing is stored yet. -/
def ofName (name : String) (registry : Registry := .standard) (dialect : Dialect := {}) :
    Except HolderError Holder :=
  match Name.split dialect.separator name with
  | .error error => .error (.nameFormat error)
  | .ok parts =>
    match registry.parse dialect.strict parts.declaration with
    | .error error => .error (.ofParseError error)
    | .ok declaration => .ok ⟨name, parts.holder, declaration.constraints, none⟩

def isSet (holder : Holder) : Bool := holder.stored.isSome

/-- What the constraint at a place says against a value. -/
def violationAt? (holder : Holder) (value : Value) (index : Nat) (c : Constraint) :
    Option Violation :=
  if c.validate value then none
  else
    some {
      holder := holder.name
      index := index
      constraint := c.describe
      value := value
      message := (c.explain value).getD (dissatisfaction value c.describe) }

def accepts (holder : Holder) (value : Value) : Bool :=
  holder.constraints.all fun c => c.validate value

/-- All that the constraints say against a value. -/
def check (holder : Holder) (value : Value) : Report :=
  ⟨holder.constraints.zipIdx.filterMap fun entry => holder.violationAt? value entry.2 entry.1⟩

/-- The first that a constraint says against a value. -/
def firstViolation? (holder : Holder) (value : Value) : Option Violation :=
  holder.constraints.zipIdx.findSome? fun entry => holder.violationAt? value entry.2 entry.1

/-- Stores a value that every constraint admits. Otherwise the first violation is the answer, and
the holder stays as it was. -/
def write (holder : Holder) (value : Value) : Except HolderError Unit × Holder :=
  match holder.firstViolation? value with
  | some v => (.error (.violation v), holder)
  | none => (.ok (), { holder with stored := some value })

def take (holder : Holder) : Option Value × Holder :=
  (holder.stored, { holder with stored := none })

def clear (holder : Holder) : Holder :=
  { holder with stored := none }

/-- A name that can be split makes a holder, whatever the words declare. -/
theorem construct_of_split {name : String} {parts : Name} (h : Name.split '_' name = .ok parts)
    (words : List String) :
    construct name words = .ok ⟨name, parts.holder, parseConstraints words, none⟩ := by
  have hdialect : ({} : Dialect).separator = '_' := rfl
  unfold construct
  rw [hdialect, h]
  rfl

/-- Where a name can be split, both ways to a holder meet. -/
theorem ofName_eq_construct {name : String} {dialect : Dialect} {parts : Name}
    (h : Name.split dialect.separator name = .ok parts) (registry : Registry) :
    ofName name registry dialect = construct name parts.declaration registry dialect := by
  unfold ofName construct
  rw [h]

theorem firstViolation?_eq (holder : Holder) (value : Value) :
    holder.firstViolation? value = (holder.check value).first? := by
  simp [firstViolation?, check, Report.first?, List.head?_filterMap]

theorem violationAt?_eq_none_iff (holder : Holder) (value : Value) (index : Nat) (c : Constraint) :
    holder.violationAt? value index c = none ↔ c.validate value = true := by
  simp [violationAt?]

end Holder

end NameGuard
