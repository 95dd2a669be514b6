import NameGuard.Proofs.Declaration.Phrase
import NameGuard.Proofs.Holder.Verdict

/-!
# The order of the phrases

A holder asks all of its constraints. So it makes no difference in which order the phrases of a
declaration stand: the holder takes the same values, and says the same against the others, only the
places of its constraints change. Nor does it matter to what it takes if a phrase is repeated.

* `Violation.unplaced`, `Holder.unplaced_check` — what is said against a value, without the places;
* `Holder.accepts_flatten_iff` — a value is taken if each phrase on its own admits it;
* `Holder.unplaced_check_flatten` — what is said is what the phrases say, one after the other;
* `Holder.construct_perm` — phrases may be put in any order, and repeated.
-/

set_option autoImplicit false

namespace NameGuard

/-- The violation, without the place of its constraint in the holder. -/
def Violation.unplaced (v : Violation) : Violation := { v with index := 0 }

/-! ## Constraints that agree -/

theorem Constraint.all_validate_of_agrees {cs ds : List Constraint}
    (h : List.Forall₂ Agrees cs ds) (value : Value) :
    (cs.all fun c => c.validate value) = ds.all fun d => d.validate value := by
  induction h with
  | nil => rfl
  | cons hagrees _ ih => rw [List.all_cons, List.all_cons, hagrees.validate, ih]

namespace Holder

theorem violationAt?_of_agrees {c d : Constraint} (h : c.Agrees d) (holder : Holder) (value : Value)
    (index : Nat) : holder.violationAt? value index c = holder.violationAt? value index d := by
  unfold violationAt?
  rw [h.validate, h.describe, h.explain]

theorem filterMap_violationAt?_of_agrees {cs ds : List Constraint}
    (h : List.Forall₂ Constraint.Agrees cs ds) (holder : Holder) (value : Value) (index : Nat) :
    cs.filterMap (holder.violationAt? value index) =
      ds.filterMap (holder.violationAt? value index) := by
  induction h with
  | nil => rfl
  | cons hagrees _ ih =>
    rw [List.filterMap_cons, List.filterMap_cons, violationAt?_of_agrees hagrees, ih]

/-! ## Reports without places -/

theorem map_unplaced_violationAt? (holder : Holder) (value : Value) (index : Nat) (c : Constraint) :
    (holder.violationAt? value index c).map Violation.unplaced =
      holder.violationAt? value 0 c := by
  unfold violationAt?
  cases c.validate value <;> rfl

/-- Without places, a report tells what each constraint says on its own. -/
theorem unplaced_check (holder : Holder) (value : Value) :
    (holder.check value).all.map Violation.unplaced =
      holder.constraints.filterMap (holder.violationAt? value 0) :=
  calc (holder.check value).all.map Violation.unplaced
      = holder.constraints.zipIdx.filterMap (holder.violationAt? value 0 ∘ Prod.fst) := by
        simp only [check, List.map_filterMap, map_unplaced_violationAt?, Function.comp_def]
    _ = (holder.constraints.zipIdx.map Prod.fst).filterMap (holder.violationAt? value 0) :=
        List.filterMap_map.symm
    _ = holder.constraints.filterMap (holder.violationAt? value 0) := by
        rw [List.zipIdx_map_fst]

/-! ## Phrases in a row -/

section

variable {holder : Holder} {phrases : List (List String)}

/-- A value is taken if each phrase on its own admits it. -/
theorem accepts_flatten_iff
    (hphrases : ∀ phrase ∈ phrases, Registry.standard.isPhrase phrase = true)
    (h : holder.constraints = parseConstraints phrases.flatten) (value : Value) :
    holder.accepts value = true ↔
      ∀ phrase ∈ phrases, ∀ c ∈ parseConstraints phrase, c.validate value = true := by
  have hrow := Constraint.all_validate_of_agrees (Registry.constraints_flatten hphrases) value
  rw [accepts, h, parseConstraints, hrow, List.all_eq_true]
  simp only [List.mem_flatMap]
  constructor
  · intro hall phrase hphrase c hc
    exact hall c ⟨phrase, hphrase, hc⟩
  · rintro hall c ⟨phrase, hphrase, hc⟩
    exact hall phrase hphrase c hc

/-- To what is taken it matters only which phrases there are. -/
theorem accepts_eq_of_mem {other : Holder} {others : List (List String)}
    (hphrases : ∀ phrase ∈ phrases, Registry.standard.isPhrase phrase = true)
    (same : ∀ phrase, phrase ∈ others ↔ phrase ∈ phrases)
    (h : holder.constraints = parseConstraints phrases.flatten)
    (hother : other.constraints = parseConstraints others.flatten) (value : Value) :
    other.accepts value = holder.accepts value := by
  have hothers : ∀ phrase ∈ others, Registry.standard.isPhrase phrase = true := fun phrase hmem =>
    hphrases phrase ((same phrase).mp hmem)
  rw [Bool.eq_iff_iff, accepts_flatten_iff hothers hother, accepts_flatten_iff hphrases h]
  simp only [same]

theorem unplaced_check_flatten
    (hphrases : ∀ phrase ∈ phrases, Registry.standard.isPhrase phrase = true)
    (h : holder.constraints = parseConstraints phrases.flatten) (value : Value) :
    (holder.check value).all.map Violation.unplaced =
      (phrases.flatMap parseConstraints).filterMap (holder.violationAt? value 0) := by
  rw [unplaced_check, h]
  exact filterMap_violationAt?_of_agrees (Registry.constraints_flatten hphrases) holder value 0

end

/-- **Phrases may stand in any order, and be repeated.** Two holders of one name, whose declarations
have the same phrases in different orders, take the same values, and say the same against every
value, up to order and to the places of the constraints. A holder whose declaration has the same
phrases, each any number of times, takes the same values too. -/
theorem construct_perm {phrases others : List (List String)}
    (hphrases : ∀ phrase ∈ phrases, Registry.standard.isPhrase phrase = true)
    (perm : phrases.Perm others) {name : String} {parts : Name}
    (valid : Name.split '_' name = .ok parts) :
    ∃ holder other, construct name phrases.flatten = .ok holder ∧
      construct name others.flatten = .ok other ∧
      (∀ value, other.accepts value = holder.accepts value) ∧
      (∀ value, ((other.check value).all.map Violation.unplaced).Perm
        ((holder.check value).all.map Violation.unplaced)) ∧
      ∀ repeated : List (List String), (∀ phrase, phrase ∈ repeated ↔ phrase ∈ phrases) →
        ∃ third, construct name repeated.flatten = .ok third ∧
          ∀ value, third.accepts value = holder.accepts value := by
  have hothers : ∀ phrase ∈ others, Registry.standard.isPhrase phrase = true := fun phrase hmem =>
    hphrases phrase (perm.mem_iff.mpr hmem)
  refine ⟨_, _, construct_of_split valid _, construct_of_split valid _, fun value => ?_,
    fun value => ?_, fun repeated same => ⟨_, construct_of_split valid _, fun value => ?_⟩⟩
  · exact accepts_eq_of_mem hphrases (fun phrase => perm.mem_iff.symm) rfl rfl value
  · rw [unplaced_check_flatten hothers rfl, unplaced_check_flatten hphrases rfl]
    exact (perm.symm.flatMap_right parseConstraints).filterMap _
  · exact accepts_eq_of_mem hphrases same rfl rfl value

/-- A phrase that lacks what it needs takes nothing from the one after it, wherever it stands. -/
theorem construct_perm_of_incomplete :
    (∀ phrase ∈ [["between", "1"], ["With", "x", "2"], ["contains", "integers"]],
      Registry.standard.isPhrase phrase = true) ∧
    Name.split '_' "scalar_with" = .ok ⟨.scalar, ["with"]⟩ ∧
    ∃ holder other,
      construct "scalar_with" ["between", "1", "With", "x", "2", "contains", "integers"] =
        .ok holder ∧
      construct "scalar_with" ["contains", "integers", "between", "1", "With", "x", "2"] =
        .ok other ∧
      (∀ value, other.accepts value = holder.accepts value) ∧
      (∀ value, ((other.check value).all.map Violation.unplaced).Perm
        ((holder.check value).all.map Violation.unplaced)) ∧
      ∀ repeated : List (List String), (∀ phrase, phrase ∈ repeated ↔
          phrase ∈ [["between", "1"], ["With", "x", "2"], ["contains", "integers"]]) →
        ∃ third, construct "scalar_with" repeated.flatten = .ok third ∧
          ∀ value, third.accepts value = holder.accepts value := by
  have hphrases : ∀ phrase ∈ [["between", "1"], ["With", "x", "2"], ["contains", "integers"]],
      Registry.standard.isPhrase phrase = true := by
    simp only [Registry.isPhrase, Registry.isKeyword_standard]
    decide +kernel
  have valid : Name.split '_' "scalar_with" = .ok ⟨.scalar, ["with"]⟩ := by decide +kernel
  have perm : [["between", "1"], ["With", "x", "2"], ["contains", "integers"]].Perm
      [["contains", "integers"], ["between", "1"], ["With", "x", "2"]] := by
    decide
  exact ⟨hphrases, valid, construct_perm hphrases perm valid⟩

end Holder

end NameGuard
