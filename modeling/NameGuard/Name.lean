/-!
# Names

A name is a row of words between separators: the type of the holder, a linking word, and a
declaration. `scalar_with_integers` and `arrayref_which_contains_strings` are names. The linking
word belongs to the declaration, for it is a keyword too; `which` does not.

* `tokenize` — the words of an identifier;
* `Name.ofWords?`, `Name.split` — the parts of a name.
-/

set_option autoImplicit false

namespace NameGuard

/-- How names are written, and whether a declaration must be complete. -/
structure Dialect where
  separator : Char := '_'
  strict : Bool := false
  deriving DecidableEq, Repr

/-- The words of an identifier, in lowercase. Empty words do not count. -/
def tokenize (separator : Char) (identifier : String) : List String :=
  ((identifier.toList.splitOn separator).filter fun word => !word.isEmpty).map fun word =>
    (String.ofList word).toLower

/-- The type of a holder. -/
inductive HolderType where
  | scalar
  | arrayref
  | hashref
  deriving DecidableEq, Repr

namespace HolderType

def name : HolderType → String
  | .scalar => "scalar"
  | .arrayref => "arrayref"
  | .hashref => "hashref"

def ofWord? : String → Option HolderType
  | "scalar" => some .scalar
  | "arrayref" => some .arrayref
  | "hashref" => some .hashref
  | _ => none

theorem ofWord?_name (h : HolderType) : ofWord? h.name = some h := by
  cases h <;> rfl

end HolderType

/-- Why a name cannot be split. -/
inductive NameError where
  | empty
  | unknownHolderType (name found : String)
  | missingLinker (name : String)
  deriving DecidableEq, Repr

def NameError.message : NameError → String
  | .empty => "Empty name"
  | .unknownHolderType name found =>
    s!"Name '{name}' must start with scalar, arrayref or hashref, found '{found}'"
  | .missingLinker name =>
    s!"Name '{name}' must continue with '_with_' or '_which_contains_' after the holder type"

/-- The parts of a name: the type of the holder, and the words of the declaration from the linking
word on. -/
structure Name where
  holder : HolderType
  declaration : List String
  deriving DecidableEq, Repr

namespace Name

/-- What follows the holder type: `with`, or `which` and `contains`. -/
def linked? : List String → Option (List String)
  | "with" :: rest => some ("with" :: rest)
  | "which" :: "contains" :: rest => some ("contains" :: rest)
  | _ => none

def ofWords? (name : String) : List String → Except NameError Name
  | [] => .error .empty
  | first :: rest =>
    match HolderType.ofWord? first with
    | none => .error (.unknownHolderType name first)
    | some holder =>
      match linked? rest with
      | none => .error (.missingLinker name)
      | some declaration => .ok ⟨holder, declaration⟩

/-- The parts of a name. -/
def split (separator : Char) (name : String) : Except NameError Name :=
  ofWords? name (tokenize separator name)

end Name

end NameGuard
