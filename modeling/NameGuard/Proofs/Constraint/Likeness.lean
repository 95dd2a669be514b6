import Mathlib.Data.List.Basic
import NameGuard.Constraint

/-!
# Constraints that show the same

What a constraint of a standard kind shows hangs on its arguments alone. Its state may hold more: a
list of tags knows whether it is closed, but it admits the same values either way, and says the same
of itself.

* `Constraint.Agrees` — constraints of one kind that cannot be told apart by what they show;
* `Constraint.Alike` — constraints of any kind, opened by one keyword, with the same arguments;
* `Constraint.agrees_of_args`, `Constraint.alike_of_args` — the arguments tell all that is shown;
* `Rule.RefusesCleanly`, `Rule.RefusesFirmly` — what a refusal leaves of a rule.
-/

set_option autoImplicit false

namespace NameGuard

/-! ## Arguments -/

theorem Argument.ofNumber_injective : Function.Injective Argument.ofNumber := by
  intro a b h
  cases a <;> cases b <;> cases h <;> rfl

theorem TypeTag.name_injective : Function.Injective TypeTag.name := by
  intro a b h
  have hread := congrArg TypeTag.ofWord? h
  rwa [TypeTag.ofWord?_name, TypeTag.ofWord?_name, Option.some.injEq] at hread

theorem Range.args_injective : Function.Injective Range.args := by
  intro a b h
  cases a <;> cases b <;> simp [Range.args, Argument.ofNumber_injective.eq_iff] at h
  · rfl
  · rw [h]
  · rw [h.1, h.2]

theorem TypeChoice.tags_of_args {a b : TypeChoice} (h : a.args = b.args) : a.tags = b.tags := by
  rw [a.args_eq, b.args_eq] at h
  refine List.map_injective_iff.mpr (fun s t hst => ?_) h
  exact TypeTag.name_injective (Argument.word.inj hst)

/-! ## Constraints -/

namespace Constraint

/-- Whether two constraints are of one kind, have the same arguments, and show the same: what they
ask for, which values they admit, and why they do not admit the others. -/
structure Agrees (c d : Constraint) : Prop where
  kind : c.kind = d.kind
  args : c.args = d.args
  arity : c.arity = d.arity
  isSatisfied : c.isSatisfied = d.isSatisfied
  describe : c.describe = d.describe
  validate : ∀ value, c.validate value = d.validate value
  explain : ∀ value, c.explain value = d.explain value

theorem Agrees.refl (c : Constraint) : c.Agrees c :=
  ⟨rfl, rfl, rfl, rfl, rfl, fun _ => rfl, fun _ => rfl⟩

theorem Agrees.trans {b c d : Constraint} (hbc : b.Agrees c) (hcd : c.Agrees d) : b.Agrees d where
  kind := hbc.kind.trans hcd.kind
  args := hbc.args.trans hcd.args
  arity := hbc.arity.trans hcd.arity
  isSatisfied := hbc.isSatisfied.trans hcd.isSatisfied
  describe := hbc.describe.trans hcd.describe
  validate value := (hbc.validate value).trans (hcd.validate value)
  explain value := (hbc.explain value).trans (hcd.explain value)

theorem forall₂_agrees_trans {bs cs ds : List Constraint} (hbc : List.Forall₂ Agrees bs cs)
    (hcd : List.Forall₂ Agrees cs ds) : List.Forall₂ Agrees bs ds := by
  induction hbc generalizing ds with
  | nil => exact hcd
  | cons hb _ ih =>
    cases hcd with
    | cons hc hrest => exact .cons (hb.trans hc) (ih hrest)

/-- The arguments of a constraint of a standard kind tell all that it shows. -/
theorem agrees_of_args {c d : Constraint} (standard : c.kind ∈ Kind.standard)
    (kind : c.kind = d.kind) (args : c.args = d.args) : c.Agrees d := by
  obtain ⟨k, word, s⟩ := c
  obtain ⟨_, _, t⟩ := d
  obtain rfl : k = _ := kind
  obtain rfl | rfl := Kind.mem_standard_iff.mp standard
  · have hrange : s = t := Range.args_injective args
    rw [hrange]
    exact ⟨rfl, rfl, rfl, rfl, rfl, fun _ => rfl, fun _ => rfl⟩
  · have htags : TypeChoice.tags s = TypeChoice.tags t := TypeChoice.tags_of_args args
    obtain ⟨tags, _, closed, rfl⟩ := s
    obtain ⟨_, _, closed', rfl⟩ := t
    obtain rfl : tags = _ := htags
    -- a closed list of tags shows the same as an open one
    exact ⟨rfl, args, rfl, rfl, rfl, fun _ => rfl, fun _ => rfl⟩

/-- Whether two constraints are of one kind, were opened by one keyword and have the same arguments.
Those of a standard kind also describe themselves alike, and admit the same values. -/
structure Alike (c d : Constraint) : Prop where
  kind : c.kind = d.kind
  keyword : c.keyword = d.keyword
  args : c.args = d.args
  describe : c.kind ∈ Kind.standard → c.describe = d.describe
  validate : c.kind ∈ Kind.standard → ∀ value, c.validate value = d.validate value

theorem Alike.refl (c : Constraint) : c.Alike c := ⟨rfl, rfl, rfl, fun _ => rfl, fun _ _ => rfl⟩

theorem alike_of_args {c d : Constraint} (kind : c.kind = d.kind)
    (keyword : c.keyword = d.keyword) (args : c.args = d.args) : c.Alike d :=
  ⟨kind, keyword, args, fun standard => (agrees_of_args standard kind args).describe,
    fun standard => (agrees_of_args standard kind args).validate⟩

end Constraint

/-! ## Refusals -/

/-- Whether a refusal leaves the arguments and the satisfaction of a rule as they are. -/
def Rule.RefusesCleanly (rule : Rule) : Prop :=
  ∀ s word, (rule.consume s word).1 = false →
    rule.args (rule.consume s word).2 = rule.args s ∧
      rule.isSatisfied (rule.consume s word).2 = rule.isSatisfied s

theorem Range.refusesCleanly : Range.rule.RefusesCleanly := by
  intro range word h
  have hstate : (range.consume word).2 = range := Range.consume_refused range word h
  exact ⟨congrArg Range.args hstate,
    congrArg (fun range => (Arity.exact 2).isSatisfiedBy (Range.args range).length) hstate⟩

theorem TypeChoice.refusesCleanly : TypeChoice.rule.RefusesCleanly := by
  intro choice word h
  have hargs : (TypeChoice.consume choice word).2.args = TypeChoice.args choice :=
    TypeChoice.args_of_refused choice word h
  exact ⟨hargs,
    congrArg (fun args : List Argument => Arity.variadic.isSatisfiedBy args.length) hargs⟩

theorem Kind.refusesCleanly {kind : Kind} (standard : kind ∈ Kind.standard) :
    kind.rule.RefusesCleanly := by
  obtain rfl | rfl := Kind.mem_standard_iff.mp standard
  · exact Range.refusesCleanly
  · exact TypeChoice.refusesCleanly

/-- Whether a refusal leaves a rule as it is, unless it ends the hunger. -/
def Rule.RefusesFirmly (rule : Rule) : Prop :=
  ∀ s word, (rule.consume s word).1 = false → rule.hungry (rule.consume s word).2 = true →
    (rule.consume s word).2 = s

theorem Range.refusesFirmly : Range.rule.RefusesFirmly :=
  fun range word h _ => Range.consume_refused range word h

/-- A list of tags that refuses a word and stays open was offered a conjunction. -/
theorem TypeChoice.eq_of_refused_of_open {choice : TypeChoice} {word : String}
    (hrefused : (choice.consume word).1 = false) (hopen : (choice.consume word).2.closed = false) :
    (choice.consume word).2 = choice := by
  cases hclosed : choice.closed with
  | true => rw [consume_of_closed hclosed]
  | false =>
    cases htag : TypeTag.ofWord? word with
    | some tag => simp [consume, hclosed, htag] at hrefused
    | none =>
      by_cases hword : isConjunction word = true
      · simp [consume, hclosed, htag, hword]
      · simp [consume, hclosed, htag, hword] at hopen

theorem TypeChoice.refusesFirmly : TypeChoice.rule.RefusesFirmly := by
  intro choice word hrefused hhungry
  exact eq_of_refused_of_open hrefused (by simpa [rule] using hhungry)

theorem Kind.refusesFirmly {kind : Kind} (standard : kind ∈ Kind.standard) :
    kind.rule.RefusesFirmly := by
  obtain rfl | rfl := Kind.mem_standard_iff.mp standard
  · exact Range.refusesFirmly
  · exact TypeChoice.refusesFirmly

end NameGuard
