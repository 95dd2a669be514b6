import NameGuard.Proofs.Declaration.Piece
import NameGuard.Proofs.Holder.Construction
import NameGuard.Proofs.Holder.History

/-!
# Holders over the standard registry

A declaration keeps a constraint only if its rule is satisfied. Over the standard registry that
leaves two forms: a range with both bounds, and a choice with at least one tag. The constraints of a
holder have these forms from the beginning, and no session changes them.

* `Constraint.IsDeclared` — the two forms;
* `Holder.IsStandard` — holders as they come from a name over the standard registry;
* `Holder.IsStandard.isDeclared` — the constraints of such a holder, in every state it reaches.
-/

set_option autoImplicit false

namespace NameGuard

/-- The forms of a constraint that a declaration over the standard registry keeps. -/
inductive Constraint.IsDeclared : Constraint → Prop
  | range (keyword : String) (low high : Number) :
      IsDeclared ⟨.between, keyword, Range.both low high⟩
  | choice (keyword : String) (tags : List TypeTag) (closed : Bool) (tagged : tags ≠ []) :
      IsDeclared ⟨.contains, keyword, TypeChoice.of tags closed⟩

theorem isDeclared_of_mem_constraints {words : List String} {c : Constraint}
    (h : c ∈ (Registry.standard.parseLenient words).constraints) : c.IsDeclared := by
  rw [Registry.constraints_standard] at h
  obtain ⟨heading, -, hheading⟩ := List.mem_filterMap.mp h
  rcases Heading.constraint?_cases hheading with
    ⟨low, high, rfl, -⟩ | ⟨tags, closed, rfl, htags, -⟩
  · exact .range heading.keyword low high
  · exact .choice heading.keyword tags closed htags

namespace Holder

/-- A holder as it comes from a name over the standard registry, in any dialect. -/
inductive IsStandard : Holder → Prop
  | construct {name : String} {words : List String} {dialect : Dialect} {holder : Holder}
      (h : Holder.construct name words .standard dialect = .ok holder) : IsStandard holder
  | ofName {name : String} {dialect : Dialect} {holder : Holder}
      (h : Holder.ofName name .standard dialect = .ok holder) : IsStandard holder

/-- A holder that comes from a name alone could be constructed with the words of the name. -/
theorem exists_construct_of_ofName {name : String} {registry : Registry} {dialect : Dialect}
    {holder : Holder} (h : ofName name registry dialect = .ok holder) :
    ∃ words, construct name words registry dialect = .ok holder := by
  cases hsplit : Name.split dialect.separator name with
  | error e =>
    rw [ofName_of_split_error hsplit] at h
    cases h
  | ok parts =>
    rw [ofName_eq_construct hsplit] at h
    exact ⟨parts.declaration, h⟩

theorem constraints_of_construct {name : String} {words : List String} {registry : Registry}
    {dialect : Dialect} {holder : Holder}
    (h : construct name words registry dialect = .ok holder) :
    holder.constraints = (registry.parseLenient words).constraints := by
  obtain ⟨parts, declaration, -, hparse, rfl⟩ := (construct_eq_ok_iff holder).mp h
  obtain ⟨-, rfl⟩ := (registry.parse_eq_ok_iff dialect.strict words declaration).mp hparse
  rfl

theorem IsStandard.exists_words {holder : Holder} (standard : holder.IsStandard) :
    ∃ words, holder.constraints = (Registry.standard.parseLenient words).constraints := by
  cases standard with
  | construct h => exact ⟨_, constraints_of_construct h⟩
  | ofName h =>
    obtain ⟨words, hwords⟩ := exists_construct_of_ofName h
    exact ⟨words, constraints_of_construct hwords⟩

theorem constraints_after (holder : Holder) (actions : List Action) :
    (holder.after actions).constraints = holder.constraints := by
  obtain ⟨stored, h⟩ := after_frame holder actions
  rw [h]

theorem IsStandard.isDeclared {holder : Holder} (standard : holder.IsStandard)
    (actions : List Action) : ∀ c ∈ (holder.after actions).constraints, c.IsDeclared := by
  obtain ⟨words, hwords⟩ := standard.exists_words
  rw [constraints_after, hwords]
  exact fun c => isDeclared_of_mem_constraints

end Holder

end NameGuard
