import NameGuard.Proofs.Holder.Standard
import NameGuard.Proofs.Rule.Bounds
import NameGuard.Proofs.Rule.Explanation
import NameGuard.Proofs.Rule.TagList

/-!
# Every violation is explained

A violation has a message, which is the explanation of the constraint or, where the constraint has
none, a text that only says that it is violated. Over the standard registry it never comes to that,
and never to the texts for a range without bounds or a choice without tags: what a declaration keeps
is complete, and a complete rule explains itself to every value that it does not admit.

* `Constraint.IsDeclared.explain_eq_none_iff` — there is an explanation where there is a violation;
* `Constraint.IsDeclared.exists_explain` — what it opens with;
* `Holder.IsStandard.violations_explained` — the messages of a holder.
-/

set_option autoImplicit false

namespace NameGuard

/-! ## One constraint -/

/-- The opening of what a complete constraint says against a value: a choice of types speaks of the
type, a range of the number or of there being none. -/
def Constraint.OpensWith (c : Constraint) (value : Value) (message : String) : Prop :=
  (c.kind = .contains ∧ ∃ rest, message = "value type is not permitted: " ++ rest) ∨
  (c.kind = .between ∧ value.typeOf ≠ .int ∧ value.typeOf ≠ .float ∧
    ∃ rest, message = "value is not numeric: " ++ rest) ∨
  (c.kind = .between ∧ (value.typeOf = .int ∨ value.typeOf = .float) ∧
    ∃ rest, message = "value is out of range: " ++ rest)

theorem ofValue?_eq_none_iff (value : Value) :
    Number.ofValue? value = none ↔ value.typeOf ≠ .int ∧ value.typeOf ≠ .float := by
  cases value <;> simp [Number.ofValue?, Value.typeOf]

/-- What opens so is not the text for a range without its bounds: they differ in the first letter. -/
theorem Constraint.OpensWith.ne_missing {c : Constraint} {value : Value} {message : String}
    (h : c.OpensWith value message) : message ≠ "range constraint has fewer than two bounds" := by
  have hfirst : ∀ opening rest : String, opening.toList.head? = some 'v' →
      opening ++ rest ≠ "range constraint has fewer than two bounds" := by
    intro opening rest hopening heq
    have hhead := congrArg (fun text : String => text.toList.head?) heq
    simp [hopening] at hhead
  rcases h with ⟨-, rest, rfl⟩ | ⟨-, -, -, rest, rfl⟩ | ⟨-, -, rest, rfl⟩
  · exact hfirst _ rest rfl
  · exact hfirst _ rest rfl
  · exact hfirst _ rest rfl

namespace Constraint.IsDeclared

variable {c : Constraint}

theorem mark_not_mem_describe (declared : c.IsDeclared) : '?' ∉ c.describe.toList := by
  cases declared with
  | range keyword low high => exact Range.mark_not_mem_describe low high
  | choice keyword tags closed tagged => exact TypeChoice.mark_not_mem_describe tagged

theorem explain_eq_none_iff (declared : c.IsDeclared) (value : Value) :
    c.explain value = none ↔ c.validate value = true := by
  cases declared with
  | range keyword low high => exact Range.explain_eq_none_iff (.both low high) value
  | choice keyword tags closed tagged =>
    exact TypeChoice.explain_eq_none_iff (TypeChoice.of tags closed) value

/-- A value that is not admitted is told why. -/
theorem exists_explain (declared : c.IsDeclared) {value : Value} (h : c.validate value = false) :
    ∃ message, c.explain value = some message ∧ c.OpensWith value message := by
  cases declared with
  | choice keyword tags closed tagged =>
    exact ⟨_, TypeChoice.explain_of_refused h, .inl ⟨rfl, _, rfl⟩⟩
  | range keyword low high =>
    -- a range speaks of its bounds to a number, and to any other value of the type
    cases hnumber : Number.ofValue? value with
    | none =>
      obtain ⟨hint, hfloat⟩ := (ofValue?_eq_none_iff value).mp hnumber
      exact ⟨_, Range.explain_of_not_number hnumber, .inr (.inl ⟨rfl, hint, hfloat, _, rfl⟩)⟩
    | some number =>
      have htype : value.typeOf = .int ∨ value.typeOf = .float := by
        by_contra hother
        rw [(ofValue?_eq_none_iff value).mpr (not_or.mp hother)] at hnumber
        cases hnumber
      exact ⟨_, Range.explain_of_outside hnumber h, .inr (.inr ⟨rfl, htype, _, rfl⟩)⟩

end Constraint.IsDeclared

/-! ## A holder -/

namespace Holder

/-- **Over the standard registry every violation is explained by its constraint.** In every state
that a holder reaches, each violation of a value has for its message the explanation of the
constraint at its place: a choice of types says that the type is not permitted, a range that the
value is not numeric, where it is neither an integer nor a float, and that it is out of range where
it is. No message is the one of a range without its bounds, and no description has a mark for what
is missing. A rule has an explanation exactly for what it does not admit, after any words it was
offered. -/
theorem IsStandard.violations_explained {holder : Holder} (standard : holder.IsStandard)
    (actions : List Action) :
    (∀ value, ∀ v ∈ ((holder.after actions).check value).all,
      ∃ c, (holder.after actions).constraints[v.index]? = some c ∧
        c.explain value = some v.message ∧ c.OpensWith value v.message) ∧
    (∀ value, ∀ c ∈ (holder.after actions).constraints,
      c.explain value = none ↔ c.validate value = true) ∧
    (∀ value, ∀ v ∈ ((holder.after actions).check value).all,
      v.message ≠ "range constraint has fewer than two bounds") ∧
    (∀ c ∈ (holder.after actions).constraints,
      c.describe ≠ "contains ?" ∧ '?' ∉ c.describe.toList) ∧
    (∀ words value, (Range.after words).explain value = none ↔
      (Range.after words).validate value = true) ∧
    (∀ words value, (TypeChoice.after words).explain value = none ↔
      (TypeChoice.after words).validate value = true) := by
  have declared := standard.isDeclared actions
  have hviolation : ∀ value, ∀ v ∈ ((holder.after actions).check value).all,
      ∃ c, (holder.after actions).constraints[v.index]? = some c ∧
        c.explain value = some v.message ∧ c.OpensWith value v.message := by
    intro value v hv
    obtain ⟨i, c, hget, hfails, rfl⟩ := (mem_check_iff _ value v).mp hv
    obtain ⟨message, hmessage, hopens⟩ :=
      (declared c (List.mem_of_getElem? hget)).exists_explain hfails
    refine ⟨c, hget, ?_⟩
    rw [hmessage]
    exact ⟨rfl, hopens⟩
  refine ⟨hviolation, fun value c hc => (declared c hc).explain_eq_none_iff value, ?_, ?_,
    fun words value => Range.explain_eq_none_iff _ value,
    fun words value => TypeChoice.explain_eq_none_iff _ value⟩
  · intro value v hv
    obtain ⟨c, -, -, hopens⟩ := hviolation value v hv
    exact hopens.ne_missing
  · intro c hc
    have hmark := (declared c hc).mark_not_mem_describe
    refine ⟨fun hcontains => ?_, hmark⟩
    rw [hcontains] at hmark
    exact hmark (by decide)

/-- Text is turned away by both constraints of a holder of small integers, with an explanation of
each. -/
theorem violations_explained_small_integers :
    ∃ holder : Holder, Holder.ofName "scalar_with_integers_between_1_and_5" = .ok holder ∧
      ((holder.after [.write (.int 3)]).check (.string "x")).all.map Violation.message =
        ["value type is not permitted: \"x\" is String, expected integers",
          "value is not numeric: \"x\" is String"] ∧
      ∀ v ∈ ((holder.after [.write (.int 3)]).check (.string "x")).all,
        ∃ c, (holder.after [.write (.int 3)]).constraints[v.index]? = some c ∧
          c.explain (.string "x") = some v.message ∧ c.OpensWith (.string "x") v.message := by
  have hrun : (Holder.ofName "scalar_with_integers_between_1_and_5").toOption.map (fun holder =>
      ((holder.after [.write (.int 3)]).check (.string "x")).all.map Violation.message) =
        some ["value type is not permitted: \"x\" is String, expected integers",
          "value is not numeric: \"x\" is String"] := by decide +kernel
  cases h : Holder.ofName "scalar_with_integers_between_1_and_5" with
  | error error =>
    rw [h] at hrun
    cases hrun
  | ok holder =>
    rw [h] at hrun
    obtain ⟨hexplained, -⟩ := (IsStandard.ofName h).violations_explained [.write (.int 3)]
    exact ⟨holder, rfl, Option.some.inj hrun, hexplained (.string "x")⟩

end Holder

end NameGuard
