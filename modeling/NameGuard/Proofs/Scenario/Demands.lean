import Mathlib.Data.List.Induction
import NameGuard.Proofs.Value.Equality
import NameGuard.Scenario.Expectation

/-!
# What demands on a write come to

Demands are made one after the other, and on each point the last one counts. A write goes as
expected exactly if it is accepted or refused as demanded, its violation is the one that the demands
speak of, and what is stored afterwards is what they say. Demands can exclude each other: a write
that is accepted has no violation, and nothing is equal to a value with `nan` in it.

* `Demand.last?`, `Expectation.ofDemands_eq` — the last demand on a point, and the expectation that
  is made of these;
* `occursIn_iff` — the search for a piece of a text;
* `Expectation.verify_eq_ok_iff` — what an expectation asks for;
* `Expectation.verify_exact` — what demands ask for.
-/

set_option autoImplicit false

namespace NameGuard

/-! ## The last demand on a point -/

namespace Demand

/-- Whether a demand has the write accepted. -/
def acceptance? : Demand → Option Bool
  | .accepted => some true
  | .rejected | .rejectedBy _ => some false
  | _ => none

def index? : Demand → Option Nat
  | .rejectedBy index => some index
  | _ => none

def description? : Demand → Option String
  | .constraint description => some description
  | _ => none

def fragment? : Demand → Option String
  | .message fragment => some fragment
  | _ => none

/-- What a demand has stored afterwards, which may be nothing. -/
def stored? : Demand → Option (Option Value)
  | .stored value => some (some value)
  | .unset => some none
  | _ => none

/-- Whether a demand speaks of the violation that refuses a write. -/
def wantsViolation : Demand → Bool
  | .rejectedBy _ | .constraint _ | .message _ => true
  | _ => false

/-- What the last of some demands says on a point, of those that speak on it. -/
def last? {α : Type} (point : Demand → Option α) (demands : List Demand) : Option α :=
  demands.reverse.findSome? point

theorem last?_append_singleton {α : Type} (point : Demand → Option α) (demands : List Demand)
    (demand : Demand) :
    last? point (demands ++ [demand]) = (point demand).or (last? point demands) := by
  rw [last?, List.reverse_append, List.findSome?_append]
  cases h : point demand <;> simp [last?, h]

end Demand

namespace Expectation

/-- A demand takes the place of what was said on the point that it speaks on, and of nothing
else. -/
theorem demand_eq (e : Expectation) (demand : Demand) :
    e.demand demand = {
      accepted := demand.acceptance?.or e.accepted
      index := demand.index?.or e.index
      constraint := demand.description?.or e.constraint
      fragment := demand.fragment?.or e.fragment
      stored := demand.stored?.or e.stored } := by
  cases demand <;> rfl

theorem ofDemands_append_singleton (demands : List Demand) (demand : Demand) :
    ofDemands (demands ++ [demand]) = (ofDemands demands).demand demand := by
  simp [ofDemands]

/-- On each point the last demand counts. -/
theorem ofDemands_eq (demands : List Demand) :
    ofDemands demands = {
      accepted := Demand.last? Demand.acceptance? demands
      index := Demand.last? Demand.index? demands
      constraint := Demand.last? Demand.description? demands
      fragment := Demand.last? Demand.fragment? demands
      stored := Demand.last? Demand.stored? demands } := by
  induction demands using List.reverseRecOn with
  | nil => rfl
  | append_singleton demands demand ih =>
    rw [ofDemands_append_singleton, demand_eq, ih]
    simp only [Demand.last?_append_singleton]

theorem wantsViolation_demand (e : Expectation) (demand : Demand) :
    (e.demand demand).wantsViolation = (e.wantsViolation || demand.wantsViolation) := by
  cases demand <;> simp [Expectation.demand, wantsViolation, Demand.wantsViolation]

theorem wantsViolation_ofDemands (demands : List Demand) :
    (ofDemands demands).wantsViolation = demands.any Demand.wantsViolation := by
  induction demands using List.reverseRecOn with
  | nil => rfl
  | append_singleton demands demand ih =>
    rw [ofDemands_append_singleton, wantsViolation_demand, ih, List.any_append, List.any_cons,
      List.any_nil, Bool.or_false]

end Expectation

/-! ## Pieces of a text, and what is stored -/

theorem occursIn_iff (fragment : List Char) (text : List Char) :
    occursIn fragment text = true ↔ fragment <:+: text := by
  induction text with
  | nil => simp [occursIn]
  | cons c rest ih =>
    rw [occursIn, Bool.or_eq_true, List.isPrefixOf_iff_prefix, ih, List.infix_cons_iff]

theorem sameStored_iff (found expected : Option Value) :
    sameStored found expected = true ↔
      Option.Rel (fun a b : Value => a.equal b = true) found expected := by
  cases found <;> cases expected <;> simp [sameStored]

/-- Nothing is equal to a value with `nan` in it. -/
theorem Value.equal_eq_false_of_hasNaN {a b : Value} (h : b.HasNaN) : a.equal b = false := by
  rw [Bool.eq_false_iff, Ne, equal_iff_normal?, (normal?_eq_none_iff b).mpr h]
  exact not_meets_none_right _

namespace Expectation

/-! ## The points of an expectation -/

theorem acceptanceMismatch?_eq_none_iff (e : Expectation) (outcome : Except HolderError Unit) :
    e.acceptanceMismatch? outcome = none ↔
      (e.accepted = some true → outcome = .ok ()) ∧
        (e.accepted = some false → ∃ error, outcome = .error error) := by
  unfold acceptanceMismatch?
  rcases e.accepted with _ | _ | _ <;> cases outcome <;> simp

/-- Whether a violation is the one that an expectation speaks of. -/
structure Recognizes (e : Expectation) (v : Violation) : Prop where
  index : ∀ index, e.index = some index → v.index = index
  constraint : ∀ description, e.constraint = some description → v.constraint = description
  fragment : ∀ fragment, e.fragment = some fragment → fragment.toList <:+: v.message.toList

theorem recognizes_iff (e : Expectation) (v : Violation) :
    e.Recognizes v ↔
      (∀ index, e.index = some index → v.index = index) ∧
      (∀ description, e.constraint = some description → v.constraint = description) ∧
      (∀ fragment, e.fragment = some fragment → fragment.toList <:+: v.message.toList) :=
  ⟨fun h => ⟨h.index, h.constraint, h.fragment⟩,
    fun ⟨index, constraint, fragment⟩ => ⟨index, constraint, fragment⟩⟩

/-- A point is passed if what is expected there, if anything, is not violated. -/
theorem ite_any_eq_none_iff {α β : Type} (point : Option α) (violates : α → Bool) (told : α → β)
    (rest : Option β) :
    (if point.any violates then point.map told else rest) = none ↔
      (∀ expected, point = some expected → violates expected = false) ∧ rest = none := by
  cases point with
  | none => simp
  | some expected => cases h : violates expected <;> simp [h]

theorem violationMismatch?_eq_none_iff (e : Expectation) (v : Violation) :
    e.violationMismatch? v = none ↔ e.Recognizes v := by
  have hfragment : ∀ fragment : String,
      (!occursIn fragment.toList v.message.toList) = false ↔
        fragment.toList <:+: v.message.toList := by
    intro fragment
    rw [Bool.not_eq_false', occursIn_iff]
  simp only [violationMismatch?, ite_any_eq_none_iff, hfragment, bne_eq_false_iff_eq, and_true,
    recognizes_iff]

theorem refusalMismatch?_eq_none_iff (e : Expectation) (outcome : Except HolderError Unit) :
    e.refusalMismatch? outcome = none ↔
      (e.wantsViolation = true → ∃ v, outcome = .error (.violation v) ∧ e.Recognizes v) := by
  unfold refusalMismatch?
  cases e.wantsViolation with
  | false => simp
  | true =>
    rcases outcome with (error | error | v) | _
    · simp
    · simp
    · simp [violationMismatch?_eq_none_iff]
    · simp

theorem storedMismatch?_eq_none_iff (e : Expectation) (found : Option Value) :
    e.storedMismatch? found = none ↔
      ∀ expected, e.stored = some expected →
        Option.Rel (fun a b : Value => a.equal b = true) found expected := by
  unfold storedMismatch?
  cases e.stored with
  | none => simp
  | some expected => simp [sameStored_iff]

theorem verify_eq_ok_iff (e : Expectation) (outcome : Except HolderError Unit) (holder : Holder) :
    e.verify outcome holder = .ok () ↔
      (e.accepted = some true → outcome = .ok ()) ∧
      (e.accepted = some false → ∃ error, outcome = .error error) ∧
      (e.wantsViolation = true → ∃ v, outcome = .error (.violation v) ∧ e.Recognizes v) ∧
      (∀ expected, e.stored = some expected →
        Option.Rel (fun a b : Value => a.equal b = true) holder.stored expected) := by
  have hnone : e.verify outcome holder = .ok () ↔
      e.acceptanceMismatch? outcome = none ∧ e.refusalMismatch? outcome = none ∧
        e.storedMismatch? holder.stored = none := by
    unfold verify mismatch?
    cases e.acceptanceMismatch? outcome <;> cases e.refusalMismatch? outcome <;>
      cases e.storedMismatch? holder.stored <;> simp
  rw [hnone, acceptanceMismatch?_eq_none_iff, refusalMismatch?_eq_none_iff,
    storedMismatch?_eq_none_iff, and_assoc]

/-! ## Expectations that nothing meets -/

/-- A write that is accepted has no violation. -/
theorem verify_ne_ok_of_accepted {e : Expectation} (haccepted : e.accepted = some true)
    (hviolation : e.wantsViolation = true) (outcome : Except HolderError Unit) (holder : Holder) :
    e.verify outcome holder ≠ .ok () := by
  intro h
  obtain ⟨hok, -, hrefused, -⟩ := (e.verify_eq_ok_iff outcome holder).mp h
  obtain ⟨v, hv, -⟩ := hrefused hviolation
  cases (hok haccepted).symm.trans hv

theorem verify_ne_ok_of_hasNaN {e : Expectation} {value : Value}
    (hstored : e.stored = some (some value)) (h : value.HasNaN)
    (outcome : Except HolderError Unit) (holder : Holder) :
    e.verify outcome holder ≠ .ok () := by
  intro hverify
  obtain ⟨-, -, -, hequal⟩ := (e.verify_eq_ok_iff outcome holder).mp hverify
  have hsame := hequal (some value) hstored
  revert hsame
  cases holder.stored with
  | none => exact nofun
  | some found =>
    rintro ⟨hsame⟩
    rw [Value.equal_eq_false_of_hasNaN h] at hsame
    cases hsame

/-! ## The main result -/

/-- **What demands ask for.** Whatever demands are made and in whatever order, a write goes as
expected exactly if all of this holds: it is accepted, or refused, as the last demand on that point
says; if any demand speaks of a violation, the write is refused with a violation, which has the last
index and the last description that were demanded, and the last fragment in its message; and what is
stored afterwards is equal to what was demanded last, or is nothing where that was demanded last.
So no write meets demands that end with its acceptance and speak of a violation, and none meets
those that have a value with `nan` in it stored. -/
theorem verify_exact (demands : List Demand) :
    (∀ outcome holder, (ofDemands demands).verify outcome holder = .ok () ↔
      (Demand.last? Demand.acceptance? demands = some true → outcome = .ok ()) ∧
      (Demand.last? Demand.acceptance? demands = some false → ∃ error, outcome = .error error) ∧
      ((∃ demand ∈ demands, demand.wantsViolation = true) →
        ∃ v, outcome = .error (.violation v) ∧
          (∀ index, Demand.last? Demand.index? demands = some index → v.index = index) ∧
          (∀ description, Demand.last? Demand.description? demands = some description →
            v.constraint = description) ∧
          (∀ fragment, Demand.last? Demand.fragment? demands = some fragment →
            fragment.toList <:+: v.message.toList)) ∧
      (∀ expected, Demand.last? Demand.stored? demands = some expected →
        Option.Rel (fun a b : Value => a.equal b = true) holder.stored expected)) ∧
    (Demand.last? Demand.acceptance? demands = some true →
      (∃ demand ∈ demands, demand.wantsViolation = true) →
      ∀ outcome holder, (ofDemands demands).verify outcome holder ≠ .ok ()) ∧
    (∀ value : Value, Demand.last? Demand.stored? demands = some (some value) → value.HasNaN →
      ∀ outcome holder, (ofDemands demands).verify outcome holder ≠ .ok ()) := by
  have hviolation : (ofDemands demands).wantsViolation = true ↔
      ∃ demand ∈ demands, demand.wantsViolation = true := by
    rw [wantsViolation_ofDemands, List.any_eq_true]
  refine ⟨fun outcome holder => ?_, fun hlast hwants => ?_, fun value hlast hnan => ?_⟩
  · rw [verify_eq_ok_iff, hviolation]
    simp only [recognizes_iff, ofDemands_eq]
  · have haccepted : (ofDemands demands).accepted = some true := by
      rw [ofDemands_eq]
      exact hlast
    exact verify_ne_ok_of_accepted haccepted (hviolation.mpr hwants)
  · have hstored : (ofDemands demands).stored = some (some value) := by
      rw [ofDemands_eq]
      exact hlast
    exact verify_ne_ok_of_hasNaN hstored hnan

/-- Acceptance does not take back the place of a constraint that was demanded before it. -/
example (holder : Holder) :
    (ofDemands [.rejectedBy 0, .accepted]).verify (.ok ()) holder = .error .noViolation := rfl

end Expectation

end NameGuard
