import NameGuard.Binary64

/-!
# Values

A value is what a holder may store: a truth value, a 64-bit integer, a binary64 number, text, a list
of values or a map from texts to values. The entries of a map stand in ascending order of their
keys, each key once; `Value.ofEntries` builds them so.

* `Value.typeOf` — the type of a value, with its name;
* `Value.equal` — equality, where numbers inside are compared as numbers;
* `Value.ofEntries` — a map from entries given one after the other, a later one replacing an
  earlier one of the same key.
-/

set_option autoImplicit false

namespace NameGuard

inductive ValueType where
  | bool
  | int
  | float
  | string
  | list
  | map
  deriving DecidableEq, Repr

def ValueType.all : List ValueType := [.bool, .int, .float, .string, .list, .map]

def ValueType.name : ValueType → String
  | .bool => "Bool"
  | .int => "Int"
  | .float => "Float"
  | .string => "String"
  | .list => "List"
  | .map => "Map"

inductive Value where
  | bool (b : Bool)
  | int (n : Int64)
  | float (x : Binary64)
  | string (s : String)
  | list (items : List Value)
  | map (entries : List (String × Value))

namespace Value

instance : Inhabited Value := ⟨.bool false⟩

def typeOf : Value → ValueType
  | .bool _ => .bool
  | .int _ => .int
  | .float _ => .float
  | .string _ => .string
  | .list _ => .list
  | .map _ => .map

def typeName (v : Value) : String := v.typeOf.name

def asInt? : Value → Option Int64
  | .int n => some n
  | _ => none

def asString? : Value → Option String
  | .string s => some s
  | _ => none

/-- A number as binary64, an integer being rounded to the nearest. -/
def asBinary64? : Value → Option Binary64
  | .int n => some (Binary64.ofInt n.toInt)
  | .float x => some x
  | _ => none

mutual

/-- Equality of values. Values of two types differ, `nan` differs from itself, and the two zeros
are equal. -/
def equal : Value → Value → Bool
  | .bool a, .bool b => a == b
  | .int a, .int b => a == b
  | .float a, .float b => a.numEq b
  | .string a, .string b => a == b
  | .list a, .list b => equalItems a b
  | .map a, .map b => equalEntries a b
  | _, _ => false

def equalItems : List Value → List Value → Bool
  | [], [] => true
  | a :: as, b :: bs => equal a b && equalItems as bs
  | _, _ => false

def equalEntries : List (String × Value) → List (String × Value) → Bool
  | [], [] => true
  | (k, a) :: as, (l, b) :: bs => k == l && equal a b && equalEntries as bs
  | _, _ => false

end

/-- Entries in ascending order of keys, with one more put in its place; it replaces the entry of the
same key. -/
def insertEntry (key : String) (value : Value) : List (String × Value) → List (String × Value)
  | [] => [(key, value)]
  | (k, v) :: rest =>
    if key < k then (key, value) :: (k, v) :: rest
    else if key = k then (key, value) :: rest
    else (k, v) :: insertEntry key value rest

/-- The map of some entries, taken in order. -/
def ofEntries (entries : List (String × Value)) : Value :=
  .map (entries.foldl (fun sorted entry => insertEntry entry.1 entry.2 sorted) [])

theorem typeOf_eq_of_equal {a b : Value} (h : equal a b = true) : a.typeOf = b.typeOf := by
  cases a <;> cases b <;> simp_all [equal, typeOf]

end Value

end NameGuard
