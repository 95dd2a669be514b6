import NameGuard.Holder

/-!
# Expectations

An expectation says how a write should go: whether it is accepted, by which constraint it is refused
and with what words, and what is stored afterwards. It is made of demands, and a later demand takes
the place of an earlier one on the same point.

* `Expectation.ofDemands` — the expectation of some demands;
* `Expectation.verify` — whether a write went as expected, or the first point on which it did not.
-/

set_option autoImplicit false

namespace NameGuard

/-- What is expected of a write. A point that is not set does not matter. -/
structure Expectation where
  /-- Whether the write is accepted. -/
  accepted : Option Bool := none
  /-- The place of the constraint that refuses. -/
  index : Option Nat := none
  /-- What that constraint asks for. -/
  constraint : Option String := none
  /-- A piece of its message. -/
  fragment : Option String := none
  /-- What is stored afterwards. -/
  stored : Option (Option Value) := none

/-- One demand on a write. -/
inductive Demand where
  | accepted
  | rejected
  | rejectedBy (index : Nat)
  | constraint (description : String)
  | message (fragment : String)
  | stored (value : Value)
  | unset

/-- Where a write did not go as expected. -/
inductive Mismatch where
  | refused (error : HolderError)
  | accepted
  | noViolation
  | otherError (error : HolderError)
  | otherIndex (expected : Nat) (found : Violation)
  | otherConstraint (expected : String) (found : Violation)
  | otherMessage (expected : String) (found : Violation)
  | otherStored (expected found : Option Value)

def Mismatch.message : Mismatch → String
  | .refused error => s!"expected write to be accepted, got: {error.message}"
  | .accepted => "expected write to be rejected"
  | .noViolation => "expected a violation, write was accepted"
  | .otherError error => s!"expected a violation, got: {error.message}"
  | .otherIndex expected found =>
    s!"expected rejection by constraint #{expected}, got #{found.index} ({found.constraint})"
  | .otherConstraint expected found =>
    s!"expected rejecting constraint '{expected}', got '{found.constraint}'"
  | .otherMessage expected found =>
    s!"expected message containing '{expected}', got '{found.message}'"
  | .otherStored expected found =>
    s!"expected stored value {Value.inspectStored expected}, " ++
      s!"found {Value.inspectStored found}"

/-- Whether some characters stand in a row somewhere among others. -/
def occursIn (fragment : List Char) : List Char → Bool
  | [] => fragment.isEmpty
  | c :: rest => fragment.isPrefixOf (c :: rest) || occursIn fragment rest

/-- Whether two places store equal values, or both store nothing. -/
def sameStored : Option Value → Option Value → Bool
  | none, none => true
  | some a, some b => a.equal b
  | _, _ => false

namespace Expectation

/-- An expectation with one more demand. -/
def demand (e : Expectation) : Demand → Expectation
  | .accepted => { e with accepted := some true }
  | .rejected => { e with accepted := some false }
  | .rejectedBy index => { e with accepted := some false, index := some index }
  | .constraint description => { e with constraint := some description }
  | .message fragment => { e with fragment := some fragment }
  | .stored value => { e with stored := some (some value) }
  | .unset => { e with stored := some none }

def ofDemands (demands : List Demand) : Expectation :=
  demands.foldl demand {}

/-- What is wrong with the acceptance of a write. -/
def acceptanceMismatch? (e : Expectation) (outcome : Except HolderError Unit) : Option Mismatch :=
  match e.accepted, outcome with
  | some true, .error error => some (.refused error)
  | some false, .ok _ => some .accepted
  | _, _ => none

def wantsViolation (e : Expectation) : Bool :=
  e.index.isSome || e.constraint.isSome || e.fragment.isSome

/-- What is wrong with a violation: its place, then what its constraint asks for, then its
message. -/
def violationMismatch? (e : Expectation) (v : Violation) : Option Mismatch :=
  if e.index.any fun index => v.index != index then
    e.index.map fun index => .otherIndex index v
  else if e.constraint.any fun description => v.constraint != description then
    e.constraint.map fun description => .otherConstraint description v
  else if e.fragment.any fun fragment => !occursIn fragment.toList v.message.toList then
    e.fragment.map fun fragment => .otherMessage fragment v
  else none

def refusalMismatch? (e : Expectation) (outcome : Except HolderError Unit) : Option Mismatch :=
  if e.wantsViolation then
    match outcome with
    | .ok _ => some .noViolation
    | .error (.violation v) => e.violationMismatch? v
    | .error error => some (.otherError error)
  else none

def storedMismatch? (e : Expectation) (found : Option Value) : Option Mismatch :=
  match e.stored with
  | some expected => if sameStored found expected then none else some (.otherStored expected found)
  | none => none

/-- The first point on which a write did not go as expected: its acceptance, then the refusal, then
the stored value. -/
def mismatch? (e : Expectation) (outcome : Except HolderError Unit) (found : Option Value) :
    Option Mismatch :=
  match e.acceptanceMismatch? outcome with
  | some m => some m
  | none =>
    match e.refusalMismatch? outcome with
    | some m => some m
    | none => e.storedMismatch? found

/-- Whether a write went as expected, given its outcome and the holder afterwards. -/
def verify (e : Expectation) (outcome : Except HolderError Unit) (holder : Holder) :
    Except Mismatch Unit :=
  match e.mismatch? outcome holder.stored with
  | some m => .error m
  | none => .ok ()

end Expectation

end NameGuard
