import NameGuard.Value.Text

/-!
# Violations

A violation says that a constraint of a holder does not admit a value. A report collects violations
in order.

* `Violation.text` — a violation in one line;
* `Report.indices` — which constraints a report speaks of.
-/

set_option autoImplicit false

namespace NameGuard

/-- A value that a constraint does not admit. -/
structure Violation where
  /-- The name of the holder. -/
  holder : String
  /-- The place of the constraint in the holder. -/
  index : Nat
  /-- What the constraint asks for. -/
  constraint : String
  value : Value
  /-- Why the value is not admitted. -/
  message : String

def Violation.text (v : Violation) : String :=
  s!"{v.holder}: constraint #{v.index} ({v.constraint}) rejected {v.value.text}: {v.message}"

/-- Violations in order. -/
structure Report where
  all : List Violation

namespace Report

def empty : Report := ⟨[]⟩

def push (report : Report) (v : Violation) : Report := ⟨report.all ++ [v]⟩

def merge (report other : Report) : Report := ⟨report.all ++ other.all⟩

def isEmpty (report : Report) : Bool := report.all.isEmpty

def size (report : Report) : Nat := report.all.length

def first? (report : Report) : Option Violation := report.all.head?

/-- The places of the constraints that the violations speak of. -/
def indices (report : Report) : List Nat := report.all.map Violation.index

@[simp] theorem all_push (report : Report) (v : Violation) :
    (report.push v).all = report.all ++ [v] := rfl

@[simp] theorem all_merge (report other : Report) :
    (report.merge other).all = report.all ++ other.all := rfl

end Report

end NameGuard
