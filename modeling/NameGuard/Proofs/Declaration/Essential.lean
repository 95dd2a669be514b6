import NameGuard.Proofs.Declaration.Cut
import NameGuard.Proofs.Declaration.Omission
import NameGuard.Proofs.Declaration.Strict

/-!
# A declaration without its filler

Filler cannot be left out word by word: a word that is neither a tag nor a conjunction closes a list
of tags, and without it tags that stand further on would be taken. But these are filler too. When
all filler is left out at once, what is left is read as it was read before.

So the clause that is open without the filler may be one that is still open to words, where with the
filler it is closed; until the next keyword, no word comes that it would take.

* `Step.isFiller`, `Registry.essential` — the words that are not filler;
* `Clause.Follows`, `Clause.Shadows` — how the clauses of the two readings are related;
* `Registry.omission_filler` — over the standard registry all filler can be left out;
* `Registry.parseLenient_essential` — what is left is the normal form of the declaration.
-/

set_option autoImplicit false

namespace NameGuard

def Step.isFiller (step : Step) : Bool := step.role = .filler

/-! ## A clause after a word -/

namespace Clause

theorem offer_of_hungry {clause : Clause} (h : clause.constraint.hungry = true) (word : String) :
    clause.offer word = ((clause.constraint.consume word).1,
      { clause with constraint := (clause.constraint.consume word).2 }) := by
  simp [offer, h]

theorem offer_of_sated {clause : Clause} (h : clause.constraint.hungry = false) (word : String) :
    clause.offer word = (false, clause) := by
  simp [offer, h]

theorem hungry_of_taken {clause : Clause} {word : String} (h : (clause.offer word).1 = true) :
    clause.constraint.hungry = true := by
  cases hhungry : clause.constraint.hungry with
  | true => rfl
  | false =>
    rw [offer_of_sated hhungry] at h
    cases h

/-- A refusal leaves the arguments of a standard constraint as they are. -/
theorem args_of_refused {clause : Clause} (standard : clause.constraint.kind ∈ Kind.standard)
    {word : String} (h : (clause.offer word).1 = false) :
    (clause.offer word).2.constraint.args = clause.constraint.args := by
  cases hhungry : clause.constraint.hungry with
  | true =>
    rw [offer_of_hungry hhungry] at h ⊢
    exact (Kind.refusesCleanly standard clause.constraint.state word h).1
  | false => rw [offer_of_sated hhungry]

/-- A refusal leaves a standard constraint as it is, or ends its hunger. -/
theorem eq_of_refused {clause : Clause} (standard : clause.constraint.kind ∈ Kind.standard)
    {word : String} (h : (clause.offer word).1 = false)
    (hungry : (clause.offer word).2.constraint.hungry = true) :
    (clause.offer word).2 = clause := by
  cases hhungry : clause.constraint.hungry with
  | true =>
    rw [offer_of_hungry hhungry] at h hungry ⊢
    have hstate := Kind.refusesFirmly standard clause.constraint.state word h hungry
    obtain ⟨position, kind, keyword, state⟩ := clause
    simp only [Constraint.consume] at hstate ⊢
    rw [hstate]
  | false => rw [offer_of_sated hhungry]

/-! ## Clauses with and without filler -/

/-- Whether a clause is what another comes to when filler is left out: a clause of the same standard
kind, opened by the same keyword, with the same arguments, at its new place. -/
structure Follows (place : Nat → Nat) (clause other : Clause) : Prop where
  standard : clause.constraint.kind ∈ Kind.standard
  kind : clause.constraint.kind = other.constraint.kind
  keyword : clause.constraint.keyword = other.constraint.keyword
  args : clause.constraint.args = other.constraint.args
  position : other.position = place clause.position

/-- Whether a clause follows another and, as long as that one is hungry, is the same constraint. -/
structure Shadows (place : Nat → Nat) (clause other : Clause) : Prop
    extends Follows place clause other where
  same : clause.constraint.hungry = true → other.constraint = clause.constraint

variable {place : Nat → Nat} {clause other : Clause} {word : String}

theorem Follows.agrees (h : Follows place clause other) :
    clause.constraint.Agrees other.constraint :=
  Constraint.agrees_of_args h.standard h.kind h.args

/-- A word that the one clause takes is taken by the other. -/
theorem Shadows.taken (h : Shadows place clause other) (taken : (clause.offer word).1 = true) :
    (other.offer word).1 = true ∧ Shadows place (clause.offer word).2 (other.offer word).2 := by
  have hhungry := hungry_of_taken taken
  have hsame := h.same hhungry
  have hother : other.constraint.hungry = true := by rw [hsame, hhungry]
  rw [offer_of_hungry hhungry] at taken ⊢
  rw [offer_of_hungry hother, hsame]
  exact ⟨taken, ⟨h.standard, rfl, rfl, rfl, h.position⟩, fun _ => rfl⟩

/-- A word that the one clause refuses need not be offered to the other. -/
theorem Shadows.refused (h : Shadows place clause other) (refused : (clause.offer word).1 = false) :
    Shadows place (clause.offer word).2 other := by
  refine ⟨⟨?_, ?_, ?_, ?_, ?_⟩, fun hhungry => ?_⟩
  · rw [kind_offer]
    exact h.standard
  · rw [kind_offer, h.kind]
  · rw [keyword_offer, h.keyword]
  · rw [args_of_refused h.standard refused, h.args]
  · rw [position_offer, h.position]
  · have heq := eq_of_refused h.standard refused hhungry
    rw [heq] at hhungry ⊢
    exact h.same hhungry

/-- A word that both clauses refuse leaves the one following the other. -/
theorem Follows.refused (h : Follows place clause other) (refused : (clause.offer word).1 = false)
    (refused' : (other.offer word).1 = false) :
    Follows place (clause.offer word).2 (other.offer word).2 := by
  have hstandard : other.constraint.kind ∈ Kind.standard := h.kind ▸ h.standard
  refine ⟨?_, ?_, ?_, ?_, ?_⟩
  · rw [kind_offer]
    exact h.standard
  · rw [kind_offer, kind_offer, h.kind]
  · rw [keyword_offer, keyword_offer, h.keyword]
  · rw [args_of_refused h.standard refused, args_of_refused hstandard refused', h.args]
  · rw [position_offer, position_offer, h.position]

theorem Follows.isSatisfied (h : Follows place clause other) :
    other.isSatisfied = clause.isSatisfied :=
  h.agrees.isSatisfied.symm

theorem Follows.toDropped (h : Follows place clause other) :
    other.toDropped = { clause.toDropped with position := place clause.position } := by
  have hname : other.constraint.name = clause.constraint.name := congrArg Kind.name h.kind.symm
  simp [Clause.toDropped, hname, h.keyword, h.args, h.position, h.agrees.arity]

/-- Clauses that follow others are kept and dropped as these are. -/
theorem kept_and_incomplete_of_follows {clauses others : List Clause}
    (h : List.Forall₂ (Follows place) clauses others) :
    List.Forall₂ (fun c d => c.keyword = d.keyword ∧ Constraint.Agrees c d) (kept clauses)
        (kept others) ∧
      incomplete others =
        (incomplete clauses).map fun dropped =>
          { dropped with position := place dropped.position } := by
  induction h with
  | nil => exact ⟨.nil, rfl⟩
  | @cons clause other clauses others hfollows _ ih =>
    obtain ⟨hkept, hincomplete⟩ := ih
    rw [← List.singleton_append, ← List.singleton_append (l := others), kept_append, kept_append,
      incomplete_append, incomplete_append, kept_singleton, kept_singleton, incomplete_singleton,
      incomplete_singleton, hfollows.isSatisfied, hincomplete]
    cases clause.isSatisfied with
    | true => exact ⟨.cons ⟨hfollows.keyword, hfollows.agrees⟩ hkept, rfl⟩
    | false =>
      refine ⟨hkept, ?_⟩
      rw [if_neg (by simp), if_neg (by simp), hfollows.toDropped]
      rfl

end Clause

namespace Registry

/-! ## Leaving filler out -/

/-- The words of a declaration that reading does not discard, in lowercase. -/
def essential (registry : Registry) (words : List String) : List String :=
  (registry.read words).without Step.isFiller

/-- How many words before a place reading does not discard. -/
def essentialBefore (registry : Registry) (words : List String) (place : Nat) : Nat :=
  (registry.read words).keptBefore Step.isFiller place

theorem refuses_keyword_of_standard {word : String} {kind : Kind} (hword : word.toLower = word)
    (selected : standard.lookup word = some kind) : opensClause word = true := by
  rw [← lookup_standard_isSome hword, selected]
  rfl

theorem omission_filler (place : Nat → Nat) :
    standard.Omission Step.isFiller place (Clause.Shadows place) (Clause.Follows place) where
  hidden := by
    intro position current other word _ hrel homits
    rcases standard.advance_cases position current word with
      ⟨clause, rfl, _, h⟩ | ⟨_, kind, _, h⟩ | ⟨refuses, _, h⟩
    · simp [h, Step.isFiller] at homits
    · simp [h, Step.isFiller] at homits
    · rw [h]
      refine ⟨rfl, ?_⟩
      cases hrel with
      | none => exact .none
      | some hshadows => exact .some (hshadows.refused (refuses _ rfl))
  visible := by
    intro position current other word hword hrel homits
    rcases standard.advance_cases position current word with
      ⟨clause, rfl, taken, h⟩ | ⟨refuses, kind, selected, h⟩ | ⟨_, _, h⟩
    · cases hrel with
      | some hshadows =>
        obtain ⟨taken', hnext⟩ := hshadows.taken taken
        have hname := congrArg Kind.name hshadows.kind.symm
        rw [h, advance_of_taken standard (place position) taken']
        exact ⟨congrArg Role.argument hname, .none, .some hnext⟩
    · have hrefuses := refuses_keyword_of_standard hword selected
      have hfresh : Option.Rel (Clause.Shadows place)
          (some ⟨position, kind.instantiate word⟩) (some ⟨place position, kind.instantiate word⟩) :=
        .some ⟨⟨IsStandard.fresh selected position _ rfl, rfl, rfl, rfl, rfl⟩, fun _ => rfl⟩
      cases hrel with
      | none =>
        rw [h, advance_of_keyword selected (by simp [Refuses]) (place position)]
        exact ⟨rfl, .none, hfresh⟩
      | @some clause other hshadows =>
        have refused : (clause.offer word).1 = false := refuses _ rfl
        have refused' : (other.offer word).1 = false :=
          Clause.offer_refuses_keyword (hshadows.kind ▸ hshadows.standard) hrefuses
        have refuses' : Refuses (some other) word := by
          intro clause hclause
          cases hclause
          exact refused'
        rw [h, advance_of_keyword selected refuses' (place position)]
        exact ⟨rfl, .some (hshadows.toFollows.refused refused refused'), hfresh⟩
    · simp [h, Step.isFiller] at homits
  last := fun h => h.toFollows

/-- Reading what is left finds no filler, and the clauses that were found before. -/
theorem read_essential (words : List String) :
    (∀ step ∈ (standard.read (standard.essential words)).steps, step.isFiller = false) ∧
      List.Forall₂ (Clause.Follows (standard.essentialBefore words)) (standard.read words).clauses
        (standard.read (standard.essential words)).clauses := by
  obtain ⟨hroles, hclauses⟩ := Omission.read words (omission_filler _)
  refine ⟨fun step hstep => ?_, hclauses⟩
  have hrole : step.role ∈ (standard.read (standard.essential words)).steps.map Step.role :=
    List.mem_map_of_mem hstep
  rw [essential, hroles] at hrole
  obtain ⟨kept, hkept, hsame⟩ := List.mem_map.mp hrole
  have hfiller := (List.mem_filter.mp hkept).2
  simpa [Step.isFiller, hsame] using hfiller

theorem discarded_eq_nil {reading : Reading}
    (h : ∀ step ∈ reading.steps, step.isFiller = false) : reading.discarded = [] := by
  refine List.filterMap_eq_nil_iff.mpr fun step hstep => ?_
  have hrole : ¬step.role = .filler := by simpa [Step.isFiller] using h step hstep
  simp [Step.filler?, hrole]

/-- Where no word is filler, none is left out. -/
theorem essential_eq_self {registry : Registry} {words : List String}
    (h : ∀ step ∈ (registry.read words).steps, step.isFiller = false) :
    registry.essential words = words.map String.toLower := by
  have hfilter : (registry.read words).steps.filter (fun step => !step.isFiller) =
      (registry.read words).steps :=
    List.filter_eq_self.mpr fun step hstep => by simp [h step hstep]
  rw [essential, Reading.without, hfilter, map_word_steps_read]

/-- **What is left of a declaration without its filler is its normal form.** Let all filler be left
out of a declaration over the standard registry, at every place where reading discards a word. Then
reading what is left discards nothing; it finds the same constraints one by one, and drops the same
clauses, at the places that they have when filler does not count. So leaving filler out a second
time changes nothing. -/
theorem parseLenient_essential (words : List String) :
    (standard.read words).steps.map Step.word = words.map String.toLower ∧
    (standard.parseLenient words).discarded =
      ((standard.read words).steps.filter Step.isFiller).map Step.word ∧
    standard.essential words =
      ((standard.read words).steps.filter fun step => !step.isFiller).map Step.word ∧
    (standard.parseLenient (standard.essential words)).discarded = [] ∧
    List.Forall₂ (fun c d => c.keyword = d.keyword ∧ Constraint.Agrees c d)
      (standard.parseLenient words).constraints
      (standard.parseLenient (standard.essential words)).constraints ∧
    (standard.parseLenient (standard.essential words)).dropped =
      (standard.parseLenient words).dropped.map (fun dropped =>
        { dropped with position := standard.essentialBefore words dropped.position }) ∧
    standard.essential (standard.essential words) = standard.essential words := by
  obtain ⟨hfiller, hclauses⟩ := read_essential words
  obtain ⟨hkept, hincomplete⟩ := Clause.kept_and_incomplete_of_follows hclauses
  refine ⟨map_word_steps_read standard words, discarded_eq_filter _, rfl, discarded_eq_nil hfiller,
    hkept, hincomplete, ?_⟩
  rw [essential_eq_self hfiller]
  exact map_lower_without standard Step.isFiller words

end Registry

end NameGuard
