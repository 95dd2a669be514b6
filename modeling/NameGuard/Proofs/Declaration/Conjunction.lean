import NameGuard.Proofs.Declaration.Cut
import NameGuard.Proofs.Declaration.Omission

/-!
# Conjunctions are filler

Over the standard registry `and` and `or` may stand anywhere in a declaration. No clause takes them,
no keyword is spelled so, and no list of tags is closed by them: whichever clause is open, it is the
same before and after. So it does not matter how many there are and where, in letters of either
case; only the places of the other words change.

* `withoutConjunctions`, `placeAmongOthers` — the other words, and their places among themselves;
* `Registry.advance_conjunction` — a conjunction is filler and leaves the open clause as it is;
* `Registry.omission_conjunction`, `Registry.read_withoutConjunctions` — conjunctions can be left
  out;
* `Registry.parseLenient_conjunctions` — declarations that differ by conjunctions say the same.
-/

set_option autoImplicit false

namespace NameGuard

/-- Some words without those that are `and` or `or` in letters of either case. -/
def withoutConjunctions (words : List String) : List String :=
  words.filter fun word => !TypeChoice.isConjunction word.toLower

/-- How many of the words before a place are no conjunctions. -/
def placeAmongOthers (words : List String) (place : Nat) : Nat :=
  (words.take place).countP fun word => !TypeChoice.isConjunction word.toLower

def Step.isConjunction (step : Step) : Bool := TypeChoice.isConjunction step.word

/-! ## Rules that ignore a word -/

/-- Whether a rule refuses a word and stays as it is, in all its states. -/
def Rule.Ignores (rule : Rule) (word : String) : Prop :=
  ∀ s, rule.consume s word = (false, s)

theorem Clause.offer_of_ignores {clause : Clause} {word : String}
    (ignores : clause.constraint.kind.rule.Ignores word) : clause.offer word = (false, clause) := by
  obtain ⟨position, kind, keyword, state⟩ := clause
  have hconsume : kind.rule.consume state word = (false, state) := ignores state
  unfold offer
  split
  · simp [Constraint.consume, hconsume]
  · rfl

theorem isConjunction_cases {word : String} (h : TypeChoice.isConjunction word = true) :
    word = "and" ∨ word = "or" := by
  simpa [TypeChoice.isConjunction] using h

theorem Range.ignores_conjunction {word : String} (h : TypeChoice.isConjunction word = true) :
    Range.rule.Ignores word := by
  have hall : ∀ word ∈ ["and", "or"], Numeral.read? word = .none := by decide +kernel
  exact consume_other (hall word (by simpa using isConjunction_cases h))

theorem TypeChoice.ignores_conjunction {word : String} (h : isConjunction word = true) :
    TypeChoice.rule.Ignores word := by
  have hconsume : ∀ choice : TypeChoice, choice.consume word = (false, choice) := by
    intro choice
    cases hclosed : choice.closed with
    | true => exact consume_of_closed hclosed word
    | false => simp [consume, hclosed, ofWord?_of_isConjunction h, h]
  exact hconsume

theorem Kind.ignores_conjunction {kind : Kind} (standard : kind ∈ Kind.standard) {word : String}
    (h : TypeChoice.isConjunction word = true) : kind.rule.Ignores word := by
  obtain rfl | rfl := Kind.mem_standard_iff.mp standard
  · exact Range.ignores_conjunction h
  · exact TypeChoice.ignores_conjunction h

theorem opensClause_of_isConjunction {word : String} (h : TypeChoice.isConjunction word = true) :
    opensClause word = false := by
  have hall : ∀ word ∈ ["and", "or"], opensClause word = false := by decide +kernel
  exact hall word (by simpa using isConjunction_cases h)

namespace Registry

/-! ## A conjunction is read -/

/-- Wherever reading meets a conjunction, it is filler, and the open clause is the same after it. -/
theorem advance_conjunction {current : Option Clause} (hcurrent : IsStandard current)
    {word : String} (hword : word.toLower = word) (h : TypeChoice.isConjunction word = true)
    (position : Nat) :
    standard.advance position current word = (⟨word, .filler, none⟩, current) := by
  have hoffer : ∀ clause, current = some clause → clause.offer word = (false, clause) :=
    fun clause hclause =>
      Clause.offer_of_ignores (Kind.ignores_conjunction (hcurrent clause hclause) h)
  rcases standard.advance_cases position current word with
    ⟨clause, hclause, taken, -⟩ | ⟨-, kind, selected, -⟩ | ⟨-, -, hstep⟩
  · rw [hoffer clause hclause] at taken
    cases taken
  · have hopens := lookup_standard_isSome hword
    rw [selected, opensClause_of_isConjunction h] at hopens
    cases hopens
  · rw [hstep]
    cases current with
    | none => rfl
    | some clause => rw [Option.map_some, hoffer clause rfl]

/-- Every conjunction among some lowercase words is filler. -/
theorem role_of_isConjunction (words : List String) (hlower : ∀ word ∈ words, word.toLower = word) :
    ∀ (position : Nat) (current : Option Clause), IsStandard current →
      ∀ step ∈ (standard.scan position current words).steps, step.isConjunction = true →
        step.role = .filler := by
  induction words with
  | nil =>
    intro position current _ step hstep
    cases hstep
  | cons word rest ih =>
    intro position current hcurrent step hstep hconjunction
    rcases List.mem_cons.mp hstep with rfl | hlater
    · have hword : word.toLower = word := hlower word List.mem_cons_self
      rw [Step.isConjunction, word_advance] at hconjunction
      rw [advance_conjunction hcurrent hword hconjunction]
    · exact ih (fun word h => hlower word (List.mem_cons_of_mem _ h)) _ _
        (hcurrent.advance position word).2 step hlater hconjunction

end Registry

/-! ## Conjunctions are left out -/

/-- Whether a clause of a standard kind is another one, at its new place. -/
def Clause.MovesTo (place : Nat → Nat) (clause other : Clause) : Prop :=
  clause.constraint.kind ∈ Kind.standard ∧ clause.moved place = other

namespace Registry

theorem rel_movesTo_iff {place : Nat → Nat} {current other : Option Clause} :
    Option.Rel (Clause.MovesTo place) current other ↔
      IsStandard current ∧ current.map (Clause.moved place) = other := by
  constructor
  · intro h
    cases h with
    | none => exact ⟨isStandard_none, rfl⟩
    | some hmoves =>
      refine ⟨fun clause hclause => ?_, congrArg some hmoves.2⟩
      cases hclause
      exact hmoves.1
  · rintro ⟨hcurrent, rfl⟩
    cases current with
    | none => exact .none
    | some clause => exact .some ⟨hcurrent clause rfl, rfl⟩

theorem omission_conjunction (place : Nat → Nat) :
    standard.Omission Step.isConjunction place (Clause.MovesTo place) (Clause.MovesTo place) where
  hidden := by
    intro position current other word hword hrel homits
    rw [Step.isConjunction, word_advance] at homits
    rw [advance_conjunction (rel_movesTo_iff.mp hrel).1 hword homits]
    exact ⟨rfl, hrel⟩
  visible := by
    intro position current other word _ hrel _
    obtain ⟨hcurrent, rfl⟩ := rel_movesTo_iff.mp hrel
    obtain ⟨hclosed, hnext⟩ := hcurrent.advance position word
    rw [advance_moved]
    exact ⟨rfl, rel_movesTo_iff.mpr ⟨hclosed, rfl⟩, rel_movesTo_iff.mpr ⟨hnext, rfl⟩⟩
  last := fun h => h

/-! ## Declarations that differ by conjunctions -/

theorem read_map_lower (registry : Registry) (words : List String) :
    registry.read (words.map String.toLower) = registry.read words := by
  have hlower : String.toLower ∘ String.toLower = String.toLower := funext lower_lower
  rw [read, List.map_map, hlower, read]

theorem without_isConjunction (registry : Registry) (words : List String) :
    (registry.read words).without Step.isConjunction =
      (withoutConjunctions words).map String.toLower := by
  have hfilter : (registry.read words).without Step.isConjunction =
      ((registry.read words).steps.map Step.word).filter
        fun word => !TypeChoice.isConjunction word := by
    rw [List.filter_map]
    rfl
  rw [hfilter, map_word_steps_read, List.filter_map]
  rfl

theorem keptBefore_isConjunction (registry : Registry) (words : List String) :
    (registry.read words).keptBefore Step.isConjunction = placeAmongOthers words := by
  funext place
  have hcount : (registry.read words).keptBefore Step.isConjunction place =
      (((registry.read words).steps.map Step.word).take place).countP
        fun word => !TypeChoice.isConjunction word := by
    rw [← List.map_take, List.countP_map]
    rfl
  rw [hcount, map_word_steps_read, ← List.map_take, List.countP_map]
  rfl

/-- Without conjunctions the other words have the roles that they have with them, and open the same
clauses. -/
theorem read_withoutConjunctions (words : List String) :
    standard.roles (withoutConjunctions words) =
        ((standard.read words).steps.filter fun step => !step.isConjunction).map Step.role ∧
      (standard.read (withoutConjunctions words)).clauses =
        (standard.read words).clauses.map (Clause.moved (placeAmongOthers words)) := by
  obtain ⟨hroles, hclauses⟩ := Omission.read words (omission_conjunction _)
  rw [without_isConjunction, read_map_lower] at hroles hclauses
  rw [keptBefore_isConjunction] at hclauses
  refine ⟨hroles, ?_⟩
  have hmoved := List.forall₂_map_left_iff.mpr (hclauses.imp fun _ _ hmoves => hmoves.2)
  rw [List.forall₂_eq_eq_eq] at hmoved
  exact hmoved.symm

theorem discarded_withoutConjunctions (words : List String) :
    (standard.parseLenient (withoutConjunctions words)).discarded =
      (standard.parseLenient words).discarded.filter
        fun word => !TypeChoice.isConjunction word := by
  obtain ⟨hroles, -⟩ := read_withoutConjunctions words
  have hwords := without_isConjunction standard words
  rw [discarded_parseLenient, hroles, ← hwords, Reading.without, List.zip_map', List.filter_map,
    List.map_map, List.filter_filter]
  show _ = (standard.read words).discarded.filter _
  rw [discarded_eq_filter, List.filter_map, List.filter_filter]
  exact congrArg _ (List.filter_congr fun step _ => Bool.and_comm _ _)

/-- All conjunctions of a declaration are among what is discarded. -/
theorem discarded_conjunctions (words : List String) :
    (standard.parseLenient words).discarded.filter TypeChoice.isConjunction =
      (words.map String.toLower).filter TypeChoice.isConjunction := by
  have hrole := role_of_isConjunction (words.map String.toLower)
    (fun _ => lower_of_mem_map_lower) 0 none isStandard_none
  show (standard.read words).discarded.filter _ = _
  rw [discarded_eq_filter, List.filter_map, List.filter_filter, ← map_word_steps_read standard,
    List.filter_map]
  refine congrArg _ (List.filter_congr fun step hstep => ?_)
  show (step.isConjunction && decide (step.role = .filler)) = step.isConjunction
  cases hconjunction : step.isConjunction with
  | true => simp [hrole step hstep hconjunction]
  | false => rfl

/-- **Conjunctions make no difference.** Let two declarations over the standard registry have the
same words but for `and` and `or`, in letters of either case, any number of them at any places.
They make the same constraints, and drop the same clauses, at the places that these have when
conjunctions do not count. Every conjunction is discarded, and the other words that are discarded
are the same, in the same order. -/
theorem parseLenient_conjunctions {xs ys : List String}
    (h : withoutConjunctions xs = withoutConjunctions ys) :
    (standard.parseLenient xs).constraints = (standard.parseLenient ys).constraints ∧
    (standard.parseLenient xs).dropped.map (Dropped.moved (placeAmongOthers xs)) =
      (standard.parseLenient ys).dropped.map (Dropped.moved (placeAmongOthers ys)) ∧
    (∀ words ∈ [xs, ys], (standard.parseLenient words).discarded.filter TypeChoice.isConjunction =
      (words.map String.toLower).filter TypeChoice.isConjunction) ∧
    ((standard.parseLenient xs).discarded.filter fun word => !TypeChoice.isConjunction word) =
      (standard.parseLenient ys).discarded.filter fun word => !TypeChoice.isConjunction word := by
  have hkept : ∀ words, (standard.parseLenient (withoutConjunctions words)).constraints =
      (standard.parseLenient words).constraints := by
    intro words
    show Clause.kept (standard.read _).clauses = Clause.kept (standard.read _).clauses
    rw [(read_withoutConjunctions words).2, Clause.kept_moved]
  have hincomplete : ∀ words, (standard.parseLenient (withoutConjunctions words)).dropped =
      (standard.parseLenient words).dropped.map (Dropped.moved (placeAmongOthers words)) := by
    intro words
    show Clause.incomplete (standard.read _).clauses =
      (Clause.incomplete (standard.read _).clauses).map _
    rw [(read_withoutConjunctions words).2, Clause.incomplete_moved]
  refine ⟨?_, ?_, fun words _ => discarded_conjunctions words, ?_⟩
  · rw [← hkept xs, h, hkept ys]
  · rw [← hincomplete xs, h, hincomplete ys]
  · rw [← discarded_withoutConjunctions xs, h, discarded_withoutConjunctions ys]

/-- Conjunctions before the keyword, in the list of tags and between the bounds: the tags and the
bounds are those of the shorter declaration. -/
theorem parseLenient_conjunctions_everywhere :
    withoutConjunctions
        ["or", "With", "AND", "integers", "Or", "between", "and", "1", "and", "5", "or", "x"] =
      withoutConjunctions ["With", "integers", "between", "1", "5", "x"] ∧
    parseConstraints
        ["or", "With", "AND", "integers", "Or", "between", "and", "1", "and", "5", "or", "x"] =
      parseConstraints ["With", "integers", "between", "1", "5", "x"] := by
  have h : withoutConjunctions
        ["or", "With", "AND", "integers", "Or", "between", "and", "1", "and", "5", "or", "x"] =
      withoutConjunctions ["With", "integers", "between", "1", "5", "x"] := by
    decide +kernel
  exact ⟨h, (parseLenient_conjunctions h).1⟩

end Registry

end NameGuard
