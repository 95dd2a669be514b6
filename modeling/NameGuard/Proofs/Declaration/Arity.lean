import NameGuard.Proofs.Declaration.Strict
import NameGuard.Proofs.Registry.Built
import NameGuard.Proofs.Rule.Bounds
import NameGuard.Rule.Sample

/-!
# A declaration keeps to the arities of its kinds

What a rule would do with more words than its arity allows is of no account. A clause offers words
only while its constraint is hungry, and a constraint of an exact arity is hungry only below that
arity. So a clause stops in time, as long as each word adds one argument at most.

* `Rule.IsRegular` — rules that keep the usual forms, and add arguments one by one;
* `Registry.isRegular_standard` — the standard kinds have such rules;
* `Constraint.IsWithinArity` — what holds of a constraint as long as its clause is open;
* `Clause.isWithinArity_offer`, `Clause.isWithinArity_feed` — words preserve it;
* `Registry.isWithinArity_opened` — it holds in every clause that a declaration opens;
* `Registry.parseLenient_arities` — the arguments of what is kept and of what is dropped.
-/

set_option autoImplicit false

namespace NameGuard

/-! ## Rules that take arguments one by one -/

namespace Rule

/-- Whether a rule comes to a state as words are offered. -/
def Reaches (rule : Rule) (s : rule.State) : Prop :=
  ∃ words, feed rule.consume rule.start words = s

theorem reaches_start (rule : Rule) : rule.Reaches rule.start := ⟨[], rfl⟩

theorem Reaches.consume {rule : Rule} {s : rule.State} (reached : rule.Reaches s)
    (word : String) : rule.Reaches (rule.consume s word).2 := by
  obtain ⟨words, rfl⟩ := reached
  exact ⟨words ++ [word], feed_append rule.consume rule.start words [word]⟩

/-- Whether a rule is satisfied by the number of its arguments, and with an exact arity is hungry by
that number as well; starts without arguments, keeps its arity, and adds one argument at most for a
word that it takes and none for a word that it refuses. Nothing is said of how many words it would
take if it were asked for ever. -/
structure IsRegular (rule : Rule) : Prop where
  counts : rule.CountsArguments
  hungry_eq : ∀ s, (rule.arity s).isVariadic = false →
    rule.hungry s = (rule.arity s).hasRoom (rule.args s).length
  args_start : rule.args rule.start = []
  arity_eq : ∀ s, rule.Reaches s → rule.arity s = rule.arity rule.start
  length_args : ∀ s word, rule.Reaches s →
    (rule.args (rule.consume s word).2).length ≤
      (rule.args s).length + (rule.consume s word).1.toNat

end Rule

theorem Range.isRegular : Range.rule.IsRegular where
  counts _ := rfl
  hungry_eq _ _ := rfl
  args_start := rfl
  arity_eq _ _ := rfl
  length_args range word _ := Nat.le_of_eq (range.length_args_consume word)

theorem TypeChoice.length_tags_insert (choice : TypeChoice) (tag : TypeTag) :
    (choice.insert tag).tags.length ≤ choice.tags.length + 1 := by
  unfold insert
  split <;> simp

/-- A tag adds an argument unless it is listed already; no other word does. -/
theorem TypeChoice.length_args_consume (choice : TypeChoice) (word : String) :
    (choice.consume word).2.args.length ≤
      choice.args.length + (choice.consume word).1.toNat := by
  rw [length_args, length_args]
  cases htaken : (choice.consume word).1 with
  | false =>
    rw [choice.tags_of_refused word htaken]
    exact Nat.le_refl _
  | true =>
    have hopen : choice.closed = false := by
      rw [Bool.eq_false_iff]
      intro hclosed
      rw [consume_of_closed hclosed] at htaken
      cases htaken
    cases hword : TypeTag.ofWord? word with
    | none => simp [consume, hopen, hword] at htaken
    | some tag =>
      have hinsert : (choice.consume word).2 = choice.insert tag := by
        simp [consume, hopen, hword]
      rw [hinsert]
      exact choice.length_tags_insert tag

theorem TypeChoice.isRegular : TypeChoice.rule.IsRegular where
  counts _ := rfl
  hungry_eq _ h := by cases h
  args_start := rfl
  arity_eq _ _ := rfl
  length_args choice word _ := choice.length_args_consume word

theorem Sample.isRegular_bare (keywords : List String) (description : String)
    (validate : Value → Bool) : (bare keywords description validate).IsRegular where
  counts _ := rfl
  hungry_eq _ _ := rfl
  args_start := rfl
  arity_eq _ _ := rfl
  length_args _ _ _ := Nat.le_refl _

/-- A listing is regular whatever words it takes, and however many. -/
theorem Sample.isRegular_listing (name : String) (keywords : List String) (arity : Arity)
    (takes : Nat → String → Bool) : (listing name keywords arity takes).IsRegular where
  counts _ := rfl
  hungry_eq _ _ := rfl
  args_start := rfl
  arity_eq _ _ := rfl
  length_args := fun (texts : List String) word _ => by
    cases h : takes texts.length word <;> simp [listing, h]

/-! ## Constraints of regular rules -/

namespace Constraint

section

variable {c : Constraint} (regular : c.kind.rule.IsRegular)

include regular

theorem hungry_iff_of_exact {n : Nat} (h : c.arity = .exact n) :
    c.hungry = true ↔ c.args.length < n := by
  have hvariadic : c.arity.isVariadic = false := by rw [h]; rfl
  have hhungry : c.hungry = c.arity.hasRoom c.args.length := regular.hungry_eq c.state hvariadic
  rw [hhungry, h]
  exact decide_eq_true_iff

theorem not_hungry_of_exact_zero (h : c.arity = .exact 0) : c.hungry = false := by
  rw [Bool.eq_false_iff, Ne, hungry_iff_of_exact regular h]
  exact Nat.not_lt_zero _

theorem isSatisfied_iff_of_exact {n : Nat} (h : c.arity = .exact n) :
    c.isSatisfied = true ↔ c.args.length = n := by
  rw [Rule.CountsArguments.isSatisfied regular.counts, h]
  exact beq_iff_eq

theorem isSatisfied_iff_of_variadic (h : c.arity = .variadic) :
    c.isSatisfied = true ↔ 1 ≤ c.args.length := by
  rw [Rule.CountsArguments.isSatisfied regular.counts, h]
  exact decide_eq_true_iff

theorem args_eq_nil_of_variadic (h : c.arity = .variadic) (incomplete : c.isSatisfied = false) :
    c.args = [] := by
  rw [Bool.eq_false_iff, Ne, isSatisfied_iff_of_variadic regular h] at incomplete
  exact List.length_eq_zero_iff.mp (Nat.eq_zero_of_not_pos incomplete)

end

/-- What holds of a constraint of a regular rule as long as its clause is open: it has no more
arguments than its arity allows, and if that is none it is as its keyword made it. -/
structure IsWithinArity (c : Constraint) : Prop where
  regular : c.kind.rule.IsRegular
  reached : c.kind.rule.Reaches c.state
  length_le : ∀ n, c.arity = .exact n → c.args.length ≤ n
  untouched : c.arity = .exact 0 → c = c.kind.instantiate c.keyword

namespace IsWithinArity

variable {c : Constraint} (within : c.IsWithinArity)

include within

theorem arity_eq : c.arity = (c.kind.instantiate c.keyword).arity :=
  within.regular.arity_eq c.state within.reached

theorem length_lt {n : Nat} (h : c.arity = .exact n) (incomplete : c.isSatisfied = false) :
    c.args.length < n := by
  rw [Bool.eq_false_iff, Ne, isSatisfied_iff_of_exact within.regular h] at incomplete
  exact Nat.lt_of_le_of_ne (within.length_le n h) incomplete

theorem isSatisfied_of_exact_zero (h : c.arity = .exact 0) : c.isSatisfied = true :=
  (isSatisfied_iff_of_exact within.regular h).mpr (Nat.le_zero.mp (within.length_le 0 h))

/-- A hungry constraint is within its arity after one more word. -/
theorem consume (hungry : c.hungry = true) (word : String) :
    (c.consume word).2.IsWithinArity := by
  have hreached := within.reached.consume word
  have harity : (c.consume word).2.arity = c.arity :=
    (within.regular.arity_eq _ hreached).trans (within.regular.arity_eq _ within.reached).symm
  refine ⟨within.regular, hreached, fun n h => ?_, fun h => ?_⟩
  · rw [harity] at h
    have hroom : c.args.length < n := (hungry_iff_of_exact within.regular h).mp hungry
    have hlength : (c.consume word).2.args.length ≤ c.args.length + (c.consume word).1.toNat :=
      within.regular.length_args c.state word within.reached
    have htaken := Bool.toNat_le (c.consume word).1
    omega
  · rw [harity] at h
    rw [not_hungry_of_exact_zero within.regular h] at hungry
    cases hungry

end IsWithinArity

end Constraint

theorem Kind.isWithinArity_instantiate {kind : Kind} (regular : kind.rule.IsRegular)
    (keyword : String) : (kind.instantiate keyword).IsWithinArity where
  regular := regular
  reached := kind.rule.reaches_start
  length_le n _ := by
    show (kind.rule.args kind.rule.start).length ≤ n
    rw [regular.args_start]
    exact Nat.zero_le n
  untouched _ := rfl

/-- A clause offers a word to its constraint only if that is hungry, and otherwise leaves it. -/
theorem Clause.isWithinArity_offer (clause : Clause) (word : String)
    (within : clause.constraint.IsWithinArity) : (clause.offer word).2.constraint.IsWithinArity := by
  unfold offer
  split
  · rename_i hungry
    exact within.consume hungry word
  · exact within

theorem Clause.isWithinArity_feed (clause : Clause) (words : List String)
    (within : clause.constraint.IsWithinArity) :
    (feed offer clause words).constraint.IsWithinArity :=
  feed_preserves (P := fun clause : Clause => clause.constraint.IsWithinArity)
    isWithinArity_offer words clause within

/-! ## Declarations over regular registries -/

namespace Registry

/-- Whether all kinds of a registry have regular rules. -/
def IsRegular (registry : Registry) : Prop :=
  ∀ kind ∈ registry.kinds, kind.rule.IsRegular

theorem isRegular_standard : standard.IsRegular := by
  intro kind hkind
  obtain rfl | rfl := Kind.mem_standard_iff.mp hkind
  · exact Range.isRegular
  · exact TypeChoice.isRegular

/-- The kind of an opened clause is one of the registry's and declares its arity, and the clause is
within it. -/
theorem isWithinArity_opened {registry : Registry} (built : registry.IsBuilt)
    (regular : registry.IsRegular) {words : List String} {clause : Clause}
    (h : clause ∈ registry.opened words) :
    clause.constraint.kind ∈ registry.kinds ∧
      clause.constraint.arity = clause.constraint.kind.arity ∧ clause.constraint.IsWithinArity := by
  have hmem : clause.constraint.kind ∈ registry.kinds :=
    mem_kinds_of_lookup (lookup_of_mem_opened h)
  have within : clause.constraint.IsWithinArity := by
    obtain ⟨word, kind, -, hlookup, hfeed⟩ := mem_opened h
    have hrule := regular kind (mem_kinds_of_lookup hlookup)
    rw [hfeed]
    exact Clause.isWithinArity_feed _ _ (Kind.isWithinArity_instantiate hrule _)
  obtain ⟨-, -, -, -, -, -, -, -, hdeclared⟩ := built.lookup_exact
  refine ⟨hmem, ?_, within⟩
  rw [within.arity_eq]
  exact (hdeclared _ hmem _).1.symm

/-- **A declaration keeps to the arities of its kinds.** Let a registry be built of kinds with
regular rules, as the standard one is, whatever else these rules would do with words. A constraint
that is kept has exactly as many arguments as its kind declares, or at least one if the kind takes
any number; a record that is dropped has fewer, or none. At every place the open clause is within
its arity, and is asked for the word there only if it stays within it. A constraint whose kind takes
no argument is never asked: it is kept, as its keyword made it. -/
theorem parseLenient_arities :
    (standard.IsBuilt ∧ standard.IsRegular) ∧
    ∀ registry : Registry, registry.IsBuilt → registry.IsRegular → ∀ words : List String,
      (∀ c ∈ (registry.parseLenient words).constraints,
        registry.get? c.name = some c.kind ∧ c.arity = c.kind.arity ∧
        (∀ n, c.kind.arity = .exact n → c.args.length = n) ∧
        (c.kind.arity = .variadic → 1 ≤ c.args.length)) ∧
      (∀ dropped ∈ (registry.parseLenient words).dropped, ∃ kind,
        registry.get? dropped.kind = some kind ∧ dropped.required = kind.arity ∧
        (∀ n, kind.arity = .exact n → dropped.args.length < n) ∧
        (kind.arity = .variadic → dropped.args = []) ∧
        kind.arity ≠ .exact 0) ∧
      (∀ place clause, registry.openBefore words place = some clause →
        clause.constraint.arity = clause.constraint.kind.arity ∧
        (∀ n, clause.constraint.kind.arity = .exact n →
          clause.constraint.args.length ≤ n ∧
          (clause.constraint.hungry = true ↔ clause.constraint.args.length < n)) ∧
        (clause.constraint.kind.arity = .exact 0 → clause.constraint.hungry = false)) ∧
      (∀ clause ∈ registry.opened words, clause.constraint.kind.arity = .exact 0 →
        clause.constraint = clause.constraint.kind.instantiate clause.constraint.keyword ∧
        clause.constraint ∈ (registry.parseLenient words).constraints) := by
  refine ⟨⟨.standard, isRegular_standard⟩, fun registry built regular words => ?_⟩
  obtain ⟨hconstraints, -⟩ := registry.parseLenient_opened words
  obtain ⟨-, -, -, hget, -⟩ := built.lookup_exact
  refine ⟨fun c hc => ?_, fun dropped hmem => ?_, fun place clause hopen => ?_,
    fun clause hopened hzero => ?_⟩
  · rw [hconstraints] at hc
    obtain ⟨clause, hclause, rfl⟩ := List.mem_map.mp hc
    obtain ⟨hopened, hsatisfied⟩ := List.mem_filter.mp hclause
    obtain ⟨hkind, harity, within⟩ := isWithinArity_opened built regular hopened
    refine ⟨(hget _ _).mpr ⟨hkind, rfl⟩, harity, fun n h => ?_, fun h => ?_⟩
    · exact (Constraint.isSatisfied_iff_of_exact within.regular (harity.trans h)).mp hsatisfied
    · exact (Constraint.isSatisfied_iff_of_variadic within.regular (harity.trans h)).mp hsatisfied
  · obtain ⟨-, kind, clause, -, -, -, hname, hopened, rfl, incomplete, rfl⟩ := mem_dropped hmem
    obtain ⟨hkind, harity, within⟩ := isWithinArity_opened built regular hopened
    have hexact : ∀ n, clause.constraint.kind.arity = .exact n →
        clause.constraint.args.length < n :=
      fun n h => within.length_lt (harity.trans h) incomplete
    refine ⟨clause.constraint.kind, (hget _ _).mpr ⟨hkind, hname⟩, harity, hexact, fun h => ?_,
      fun h => Nat.not_lt_zero _ (hexact 0 h)⟩
    exact Constraint.args_eq_nil_of_variadic within.regular (harity.trans h) incomplete
  · obtain ⟨-, harity, within⟩ :=
      isWithinArity_opened built regular (mem_opened_of_last hopen)
    refine ⟨harity, fun n h => ⟨within.length_le n (harity.trans h), ?_⟩, fun h => ?_⟩
    · exact Constraint.hungry_iff_of_exact within.regular (harity.trans h)
    · exact Constraint.not_hungry_of_exact_zero within.regular (harity.trans h)
  · obtain ⟨-, harity, within⟩ := isWithinArity_opened built regular hopened
    have hsatisfied := within.isSatisfied_of_exact_zero (harity.trans hzero)
    refine ⟨within.untouched (harity.trans hzero), ?_⟩
    rw [hconstraints]
    exact List.mem_map_of_mem (List.mem_filter.mpr ⟨hopened, hsatisfied⟩)

/-- A rule that takes every word it is offered stops at one, and a rule that takes none is not
asked. -/
theorem parseLenient_arities_greedy :
    ∃ registry : Registry, registry.IsBuilt ∧ registry.IsRegular ∧
      (∃ greedy ∈ registry.kinds, greedy.name = "greedy" ∧
        ∀ s word, (greedy.rule.consume s word).1 = true) ∧
      ∃ declaration, registry.parseLenient
          ["greedy", "filled", "a", "filled", "b", "between", "1"] = declaration ∧
        declaration.constraints.map Constraint.name = ["greedy", "nonempty"] ∧
        declaration.dropped.map Dropped.kind = ["between"] ∧
        (∀ c ∈ declaration.constraints, ∀ n, c.kind.arity = .exact n → c.args.length = n) ∧
        ∀ dropped ∈ declaration.dropped, ∃ kind, registry.get? dropped.kind = some kind ∧
          ∀ n, kind.arity = .exact n → dropped.args.length < n := by
  have hgreedy := Sample.isRegular_listing "greedy" ["greedy"] (.exact 1) fun _ _ => true
  have regular : (Roster.empty.enrollAll [.ready .between,
      .draft { Draft.named "nonempty" with rule := some Sample.nonempty },
      .draft { Draft.named "greedy" with
        rule := some (Sample.listing "greedy" ["greedy"] (.exact 1) fun _ _ => true) }]).1.build
          |>.IsRegular :=
    List.forall_mem_cons.mpr ⟨Range.isRegular, List.forall_mem_cons.mpr
      ⟨Sample.isRegular_bare _ _ _, List.forall_mem_singleton.mpr hgreedy⟩⟩
  obtain ⟨hkept, hdropped, -⟩ := parseLenient_arities.2 _ (.build ⟨_, rfl⟩) regular
    ["greedy", "filled", "a", "filled", "b", "between", "1"]
  refine ⟨_, .build ⟨_, rfl⟩, regular, ?_, _, rfl, by decide +kernel, by decide +kernel,
    fun c hc => (hkept c hc).2.2.1, fun dropped h => ?_⟩
  · exact ⟨_, List.mem_cons_of_mem _ (List.mem_cons_of_mem _ List.mem_cons_self), rfl,
      fun _ _ => rfl⟩
  · obtain ⟨kind, hget, -, hexact, -⟩ := hdropped dropped h
    exact ⟨kind, hget, hexact⟩

end Registry

end NameGuard
