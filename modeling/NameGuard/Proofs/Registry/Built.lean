import NameGuard.Proofs.Registry.Registration

/-!
# What a registry finds

A registry is built from a roster, whatever came to the roster before and whatever was turned away,
or it is the standard one. Its two indices then agree with its kinds: a keyword or a name is found
exactly where going through all kinds would find it, and nothing is found twice.

* `Registry.IsBuilt` — registries as they come from a roster;
* `Registry.IsBuilt.lookup_exact` — what is found in them.
-/

set_option autoImplicit false

namespace NameGuard

namespace Roster

theorem enrollAll_append (roster : Roster) (xs ys : List Registration) :
    (roster.enrollAll (xs ++ ys)).1 = ((roster.enrollAll xs).1.enrollAll ys).1 := by
  induction xs generalizing roster with
  | nil => rfl
  | cons x rest ih => exact ih (roster.enroll x).2

/-- A roster that starts from the standard kinds is one that registrations lead to. -/
theorem isReached_of_standard {roster : Roster} (h : standard = .ok roster)
    (registrations : List Registration) : (roster.enrollAll registrations).1.IsReached := by
  have hstandard : standard = .ok (empty.enrollAll [.ready .between, .ready .contains]).1 := rfl
  rw [hstandard] at h
  cases h
  exact ⟨[.ready .between, .ready .contains] ++ registrations, enrollAll_append _ _ _⟩

end Roster

namespace Registry

/-- A registry of what was registered, or the standard registry. -/
inductive IsBuilt : Registry → Prop
  | build {roster : Roster} (reached : roster.IsReached) : IsBuilt roster.build
  | standard : IsBuilt .standard

theorem IsBuilt.unambiguous {registry : Registry} (built : registry.IsBuilt) :
    Unambiguous registry.kinds := by
  cases built with
  | build reached => exact reached.sound.kinds
  | standard => exact Kind.unambiguous_standard

/-- **What a registry finds is what its kinds say.** In a registry that was built, a word is looked
up to the kind that it selects, if there is one, and there is one at most; so it is with names.
Every keyword is a plain word, the registry lists the keywords of its kinds, each once, and every
kind declares the arity and the keywords that its fresh constraints have. -/
theorem IsBuilt.lookup_exact {registry : Registry} (built : registry.IsBuilt) :
    (∀ word kind, registry.lookup word = some kind ↔
      kind ∈ registry.kinds ∧ kind.isSelectedBy word = true) ∧
    (∀ word, (registry.kinds.filter fun kind => kind.isSelectedBy word).length ≤ 1) ∧
    (∀ word, registry.isKeyword word = true ↔
      ∃ kind ∈ registry.kinds, kind.isSelectedBy word = true) ∧
    (∀ name kind, registry.get? name = some kind ↔ kind ∈ registry.kinds ∧ kind.name = name) ∧
    (∀ name, (registry.kinds.filter fun kind => kind.name == name).length ≤ 1) ∧
    (∀ kind ∈ registry.kinds, ∀ keyword ∈ kind.keywords, keyword ≠ "" ∧
      ∀ c ∈ keyword.toList, ('a' ≤ c ∧ c ≤ 'z') ∨ ('0' ≤ c ∧ c ≤ '9')) ∧
    registry.keywords.Nodup ∧
    (∀ word, word ∈ registry.keywords ↔ ∃ kind ∈ registry.kinds, word ∈ kind.keywords) ∧
    (∀ kind ∈ registry.kinds, ∀ word,
      kind.arity = (kind.instantiate word).arity ∧ kind.keywords = kind.rule.keywords) := by
  have unambiguous := built.unambiguous
  rw [registry.eq_ofKinds]
  refine ⟨lookup_ofKinds_iff unambiguous, ?_, isKeyword_ofKinds_iff unambiguous,
    get?_ofKinds_iff unambiguous, ?_, ?_, nodup_keywords _, mem_keywords_ofKinds unambiguous, ?_⟩
  · intro word
    refine unambiguous.length_filter_le_one fun a ha b hb apart hselected => ?_
    rw [(unambiguous.proper a ha).isSelectedBy_iff] at hselected
    rw [Bool.eq_false_iff, Ne, (unambiguous.proper b hb).isSelectedBy_iff]
    exact apart.keywords _ hselected
  · intro name
    refine unambiguous.length_filter_le_one fun a _ b _ apart hname => ?_
    rw [beq_iff_eq] at hname
    rw [beq_eq_false_iff_ne, ← hname]
    exact apart.name.symm
  · intro kind hkind
    exact (unambiguous.proper kind hkind).plain
  · intro kind hkind word
    exact ⟨(unambiguous.proper kind hkind).arity_eq, (unambiguous.proper kind hkind).keywords_eq⟩

/-- A draft without a rule is turned away, and then one with a rule is let in: its second keyword
selects it, in letters of either case. -/
theorem lookup_exact_second_draft :
    ∃ roster : Roster, (Roster.empty.enrollAll [.ready .between, .draft (.named "nonempty"),
        .draft { Draft.named "nonempty" with rule := some Sample.nonempty }]).1 = roster ∧
      ∃ kind, roster.build.lookup "Filled" = some kind ∧ kind.name = "nonempty" := by
  have hlower : "filled".toLower = "filled" := by decide +kernel
  have hcapital : "Filled".toLower = "filled" := by decide +kernel
  refine ⟨_, rfl, (Draft.named "nonempty").completed Sample.nonempty, ?_, rfl⟩
  refine ((IsBuilt.build ⟨_, rfl⟩).lookup_exact.1 _ _).mpr ⟨?_, ?_⟩
  · exact List.mem_cons_of_mem _ List.mem_cons_self
  · exact (Kind.isSelectedBy_iff _ _).mpr
      ⟨"filled", List.mem_cons_of_mem _ List.mem_cons_self, hlower.trans hcapital.symm⟩

end Registry

end NameGuard
