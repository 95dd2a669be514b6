import NameGuard.Registry
import NameGuard.Text.Quoted

/-!
# Rosters

A roster is a registry in the making. It grows by one kind at a time, and only by a kind that keeps
it unambiguous: a new name, keywords that select no kind yet, and a declaration that agrees with the
rule. Beside the kinds it keeps an index of the keywords that are taken.

* `Roster.fault?` — why a kind cannot be registered, the first reason in a fixed order;
* `Roster.register` — the registration of a kind, which comes last;
* `Roster.build` — the registry of the kinds that are registered.
-/

set_option autoImplicit false

namespace NameGuard

/-- Why a kind cannot be registered. -/
inductive RegistryError where
  | duplicateKind (kind : String)
  | duplicateKeyword (keyword existing kind : String)
  | invalidKeyword (kind keyword : String)
  | noKeywords (kind : String)
  | missingRule (kind : String)
  | arityMismatch (kind : String) (declared actual : Arity)
  | keywordMismatch (kind : String) (declared actual : List String)
  deriving DecidableEq, Repr

def RegistryError.message : RegistryError → String
  | .duplicateKind kind => s!"Duplicate constraint kind: {kind}"
  | .duplicateKeyword keyword existing kind =>
    s!"Keyword '{keyword}' already selects kind '{existing}', cannot also select '{kind}'"
  | .invalidKeyword kind keyword =>
    s!"Invalid keyword '{keyword}' for kind '{kind}': " ++
      "keywords are non-empty lowercase ASCII words"
  | .noKeywords kind => s!"Constraint kind '{kind}' declares no keywords"
  | .missingRule kind => s!"Constraint kind '{kind}' has no constructor"
  | .arityMismatch kind declared actual =>
    s!"Constraint kind '{kind}' declares arity {declared.text} " ++
      s!"but its constraint takes {actual.text}"
  | .keywordMismatch kind declared actual =>
    s!"Constraint kind '{kind}' declares keywords {Quoted.list declared} " ++
      s!"but its constraint answers to {Quoted.list actual}"

/-- Whether a word may be a keyword: it is not empty, and all its characters are lowercase letters
`a` to `z` or digits. -/
def isValidKeyword (word : String) : Bool :=
  !word.toList.isEmpty && word.toList.all fun c => c.isLower || c.isDigit

/-- The kinds registered so far, in order, and the places of those that have taken a keyword. -/
structure Roster where
  kinds : List Kind
  taken : Index

namespace Roster

def empty : Roster := ⟨[], .empty⟩

/-- The registry of the kinds that are registered. -/
def build (roster : Roster) : Registry := .ofKinds roster.kinds

/-- The kind that has taken a keyword. -/
def takenBy? (roster : Roster) (keyword : String) : Option Kind :=
  (roster.taken.find? keyword).bind fun place => roster.kinds[place]?

/-- Why a keyword cannot select a new kind. -/
def keywordFault? (roster : Roster) (kind keyword : String) : Option RegistryError :=
  if isValidKeyword keyword then
    (roster.takenBy? keyword).map fun existing => .duplicateKeyword keyword existing.name kind
  else some (.invalidKeyword kind keyword)

/-- Why the declaration of a kind does not agree with its rule. A fresh constraint tells its
arity. -/
def declarationFault? (kind : Kind) : Option RegistryError :=
  let sample := kind.instantiate kind.name
  if sample.arity ≠ kind.arity then
    some (.arityMismatch kind.name kind.arity sample.arity)
  else if kind.rule.keywords ≠ kind.keywords then
    some (.keywordMismatch kind.name kind.keywords kind.rule.keywords)
  else none

/-- Why a kind cannot be registered. The name comes first, then the keywords one after the other,
then the declaration. -/
def fault? (roster : Roster) (kind : Kind) : Option RegistryError :=
  if roster.kinds.any fun existing => existing.name == kind.name then
    some (.duplicateKind kind.name)
  else if kind.keywords.isEmpty then some (.noKeywords kind.name)
  else
    match kind.keywords.findSome? (roster.keywordFault? kind.name) with
    | some fault => some fault
    | none => declarationFault? kind

/-- The roster with one more kind at the end, which takes its keywords. -/
def append (roster : Roster) (kind : Kind) : Roster where
  kinds := roster.kinds ++ [kind]
  taken := roster.taken.insertAll (kind.keywords.map fun keyword => (keyword, roster.kinds.length))

/-- Registers a kind. A roster that refuses a kind stays as it was. -/
def register (roster : Roster) (kind : Kind) : Except RegistryError Unit × Roster :=
  match roster.fault? kind with
  | some fault => (.error fault, roster)
  | none => (.ok (), roster.append kind)

end Roster

end NameGuard
