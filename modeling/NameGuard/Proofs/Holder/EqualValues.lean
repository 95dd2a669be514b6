import NameGuard.Proofs.Holder.Standard
import NameGuard.Proofs.Rule.Bounds
import NameGuard.Proofs.Rule.TagList
import NameGuard.Proofs.Value.Equality

/-!
# Equal values are judged alike

A range looks at the place of a number on the number line, and a choice of types at the type of a
value. Equal values have both in common, so whatever a name declares, they are admitted together. An
integer and a float are never equal, and a choice of types may tell them apart.

* `Range.validate_of_equal`, `TypeChoice.validate_of_equal` — the two rules;
* `Holder.IsStandard.accepts_of_equal` — a holder over the standard registry;
* `Value.equal_exact` — the laws of equality, and that verdicts respect it.
-/

set_option autoImplicit false

namespace NameGuard

/-- Equal numbers stand for the same number. -/
theorem exists_ofValue?_of_equal {a b : Value} (h : a.equal b = true) {m : Number}
    (ha : Number.ofValue? a = some m) :
    ∃ n, Number.ofValue? b = some n ∧ m.value? = n.value? := by
  have htype := Value.typeOf_eq_of_equal h
  cases a with
  | int x =>
    obtain rfl := Option.some.inj ha
    cases b with
    | int y =>
      rw [Value.equal, beq_iff_eq] at h
      exact ⟨.int y, rfl, by rw [h]⟩
    | _ => cases htype
  | float x =>
    obtain rfl := Option.some.inj ha
    cases b with
    | float y =>
      rw [Value.equal, Binary64.numEq_iff] at h
      obtain ⟨r, hx, hy⟩ := h
      refine ⟨.float y, rfl, ?_⟩
      rw [(@Number.value?_of_rank? (.float x) r hx).1, (@Number.value?_of_rank? (.float y) r hy).1]
    | _ => cases htype
  | _ => cases ha

namespace Range

theorem admits_of_equal {a b : Value} (h : a.equal b = true) {range : Range}
    (ha : range.validate a = true) : range.validate b = true := by
  rw [validate_iff] at ha ⊢
  obtain ⟨low, high, m, hargs, hm, hlow, hhigh⟩ := ha
  obtain ⟨n, hn, hvalue⟩ := exists_ofValue?_of_equal h hm
  refine ⟨low, high, n, hargs, hn, ?_, ?_⟩
  · rwa [Number.StandsBelow, ← hvalue]
  · rwa [Number.StandsBelow, ← hvalue]

/-- A range, whatever its bounds, has one verdict on equal values. -/
theorem validate_of_equal {a b : Value} (h : a.equal b = true) (range : Range) :
    range.validate a = range.validate b :=
  Bool.eq_iff_iff.mpr ⟨admits_of_equal h, admits_of_equal (Value.equal_symm h)⟩

end Range

/-- A choice of types, whatever its tags, has one verdict on equal values. -/
theorem TypeChoice.validate_of_equal {a b : Value} (h : a.equal b = true) (choice : TypeChoice) :
    choice.validate a = choice.validate b := by
  simp only [validate, TypeTag.admits, Value.typeOf_eq_of_equal h]

theorem Constraint.IsDeclared.validate_of_equal {c : Constraint} (declared : c.IsDeclared)
    {a b : Value} (h : a.equal b = true) : c.validate a = c.validate b := by
  cases declared with
  | range keyword low high => exact Range.validate_of_equal h (.both low high)
  | choice keyword tags closed tagged =>
    exact TypeChoice.validate_of_equal h (TypeChoice.of tags closed)

theorem Holder.IsStandard.accepts_of_equal {holder : Holder} (standard : holder.IsStandard)
    (actions : List Action) {a b : Value} (h : a.equal b = true) :
    (holder.after actions).accepts a = (holder.after actions).accepts b := by
  have declared := standard.isDeclared actions
  rw [Bool.eq_iff_iff, accepts_iff, accepts_iff]
  exact forall₂_congr fun c hc => by rw [(declared c hc).validate_of_equal h]

namespace Value

/-- **Equality of values is an equivalence short of `nan`, and verdicts respect it.** It is
symmetric and transitive at any depth, and a value is equal to itself unless `nan` occurs in it.
Equal values have the same type. Whatever words they were offered, a range and a choice of types
have one verdict on equal values, so every holder over the standard registry, in every state it
reaches, accepts both or neither. The two zeros are equal. An integer and a float are not, and there
are words after which a choice of types admits every integer and no float. -/
theorem equal_exact :
    (∀ a b : Value, equal a b = equal b a) ∧
    (∀ a b c : Value, equal a b = true → equal b c = true → equal a c = true) ∧
    (∀ a : Value, equal a a = true ↔ ¬a.HasNaN) ∧
    (∀ a b : Value, equal a b = true → a.typeOf = b.typeOf) ∧
    (∀ a b : Value, equal a b = true → ∀ words,
      (Range.after words).validate a = (Range.after words).validate b ∧
      (TypeChoice.after words).validate a = (TypeChoice.after words).validate b) ∧
    (∀ a b : Value, equal a b = true → ∀ holder : Holder, holder.IsStandard → ∀ actions,
      (holder.after actions).accepts a = (holder.after actions).accepts b) ∧
    equal (.float (.finite false 0 0 (by decide))) (.float (.finite true 0 0 (by decide))) = true ∧
    (∀ n x, equal (.int n) (.float x) = false) ∧
    (∀ n x, (TypeChoice.after ["integers"]).validate (.int n) = true ∧
      (TypeChoice.after ["integers"]).validate (.float x) = false) := by
  have hzeros : equal (.float (.finite false 0 0 (by decide)))
      (.float (.finite true 0 0 (by decide))) = true := by
    rw [equal, Binary64.numEq_iff]
    exact ⟨0, by simp [Binary64.signed], by simp [Binary64.signed]⟩
  have hintegers : (TypeChoice.after ["integers"]).tags = [.integers] := by decide +kernel
  refine ⟨equal_comm, fun _ _ _ => equal_trans, equal_self_iff, fun _ _ => typeOf_eq_of_equal,
    fun a b h words => ⟨Range.validate_of_equal h _, TypeChoice.validate_of_equal h _⟩,
    fun a b h holder standard actions => standard.accepts_of_equal actions h, hzeros,
    fun n x => by simp [equal], fun n x => ?_⟩
  rw [TypeChoice.validate, TypeChoice.validate, hintegers]
  exact ⟨rfl, rfl⟩

end Value

end NameGuard
