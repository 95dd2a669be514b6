import NameGuard.Constraint
import NameGuard.Registry.Index

/-!
# Registries

A registry holds the kinds of constraint that keywords select, in the order of their registration.
It finds a kind by a keyword, in letters of either case, or by its name. For that it keeps two
indices, of the keywords in lowercase and of the names; where two kinds claim one word, the later
one has it.

* `Registry.ofKinds` — the registry of some kinds, and there is no other registry;
* `Registry.lookup`, `Registry.get?` — the kind that a word selects, and the kind of a name;
* `Registry.keywords` — all keywords.
-/

set_option autoImplicit false

namespace NameGuard

namespace Kind

/-- The keywords of some kinds in lowercase, each at the place of its kind. -/
def keywordEntries (kinds : List Kind) : List (String × Nat) :=
  kinds.zipIdx.flatMap fun entry =>
    entry.1.keywords.map fun keyword => (keyword.toLower, entry.2)

def nameEntries (kinds : List Kind) : List (String × Nat) :=
  kinds.zipIdx.map fun entry => (entry.1.name, entry.2)

end Kind

/-- Some kinds, with an index of their keywords in lowercase and an index of their names. -/
structure Registry where
  kinds : List Kind
  keywordIndex : Index
  nameIndex : Index
  keywordIndex_eq : keywordIndex = Index.empty.insertAll (Kind.keywordEntries kinds)
  nameIndex_eq : nameIndex = Index.empty.insertAll (Kind.nameEntries kinds)

namespace Registry

/-- The registry of some kinds. -/
def ofKinds (kinds : List Kind) : Registry where
  kinds := kinds
  keywordIndex := Index.empty.insertAll (Kind.keywordEntries kinds)
  nameIndex := Index.empty.insertAll (Kind.nameEntries kinds)
  keywordIndex_eq := rfl
  nameIndex_eq := rfl

def empty : Registry := ofKinds []

def standard : Registry := ofKinds Kind.standard

/-- The kind that a word selects, in letters of either case. The word is looked up as it stands
first. -/
def lookup (registry : Registry) (word : String) : Option Kind :=
  ((registry.keywordIndex.find? word).or (registry.keywordIndex.find? word.toLower)).bind
    fun place => registry.kinds[place]?

def get? (registry : Registry) (name : String) : Option Kind :=
  (registry.nameIndex.find? name).bind fun place => registry.kinds[place]?

def isKeyword (registry : Registry) (word : String) : Bool :=
  (registry.lookup word).isSome

/-- All keywords, each once, in ascending order. -/
def keywords (registry : Registry) : List String :=
  registry.keywordIndex.words.mergeSort fun a b => a ≤ b

def size (registry : Registry) : Nat := registry.kinds.length

def isEmpty (registry : Registry) : Bool := registry.kinds.isEmpty

theorem eq_ofKinds (registry : Registry) : registry = ofKinds registry.kinds := by
  obtain ⟨kinds, keywordIndex, nameIndex, rfl, rfl⟩ := registry
  rfl

end Registry

end NameGuard
