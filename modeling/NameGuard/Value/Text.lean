import NameGuard.Decimal.Layout
import NameGuard.Text.Quoted
import NameGuard.Value

/-!
# The texts of a value

A value has two texts. The one for messages is the value as a reader would write it: text stands
between quotes as it is, and the keys of a map stand bare. The one for inspection names the type of
every part and escapes text, so that two different values never look alike.

* `Value.text` — for messages;
* `Value.inspect` — for inspection;
* `Value.inspectStored` — for inspection of a place that may be unset.
-/

set_option autoImplicit false

namespace NameGuard.Value

mutual

/-- A value as messages show it. -/
def text : Value → String
  | .bool b => if b then "true" else "false"
  | .int n => toString n.toInt
  | .float x => FloatStyle.plain.text x
  | .string s => "\"" ++ s ++ "\""
  | .list items => "[" ++ ", ".intercalate (itemTexts items) ++ "]"
  | .map entries => "\x7b" ++ ", ".intercalate (entryTexts entries) ++ "\x7d"

def itemTexts : List Value → List String
  | [] => []
  | v :: rest => text v :: itemTexts rest

def entryTexts : List (String × Value) → List String
  | [] => []
  | (k, v) :: rest => (k ++ ": " ++ text v) :: entryTexts rest

end

mutual

/-- A value under inspection. -/
def inspect : Value → String
  | .bool b => "Bool(" ++ (if b then "true" else "false") ++ ")"
  | .int n => "Int(" ++ toString n.toInt ++ ")"
  | .float x => "Float(" ++ FloatStyle.marked.text x ++ ")"
  | .string s => "String(" ++ Quoted.text s ++ ")"
  | .list items => "List([" ++ ", ".intercalate (itemInspections items) ++ "])"
  | .map entries => "Map(\x7b" ++ ", ".intercalate (entryInspections entries) ++ "\x7d)"

def itemInspections : List Value → List String
  | [] => []
  | v :: rest => inspect v :: itemInspections rest

def entryInspections : List (String × Value) → List String
  | [] => []
  | (k, v) :: rest => (Quoted.text k ++ ": " ++ inspect v) :: entryInspections rest

end

/-- A place that may hold a value, under inspection. -/
def inspectStored : Option Value → String
  | none => "None"
  | some v => "Some(" ++ inspect v ++ ")"

end NameGuard.Value
