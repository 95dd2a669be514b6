import NameGuard.Value

/-!
# Conversions into values

`ToValue` says how data becomes a value: truth values, integers of 64 and 32 bits, binary64 numbers
and text as they are, lists item by item, and lists of keyed entries as a map.

* `toValue` — the value of some data.
-/

set_option autoImplicit false

namespace NameGuard

/-- Data that can be stored as a value. -/
class ToValue (α : Type) where
  toValue : α → Value

export ToValue (toValue)

instance : ToValue Value := ⟨id⟩

instance : ToValue Bool := ⟨.bool⟩

instance : ToValue Int64 := ⟨.int⟩

instance : ToValue Int32 := ⟨fun n => .int n.toInt64⟩

instance : ToValue Binary64 := ⟨.float⟩

instance : ToValue String := ⟨.string⟩

instance {α : Type} [ToValue α] : ToValue (List α) :=
  ⟨fun items => .list (items.map toValue)⟩

/-- Keyed entries become a map; of two entries with one key the later one stays. -/
instance {α : Type} [ToValue α] : ToValue (List (String × α)) :=
  ⟨fun entries => .ofEntries (entries.map fun entry => (entry.1, toValue entry.2))⟩

end NameGuard
