import Mathlib.Data.List.Forall2
import NameGuard.Proofs.Declaration.Account
import NameGuard.Proofs.Text.Lowering

/-!
# Words that can be left out

A word can be left out of a declaration if the clauses that are then open, with the word and without
it, make the same of the words that follow. So two readings go side by side: the first takes all
words, and the second those that are not left out. Where a word is left out only the first moves,
and elsewhere both do the same.

* `Reading.without`, `Reading.keptBefore` — the words that are not left out, and how many of them
  stand before a place;
* `Reading.Renumbers` — places that are counted so;
* `Registry.Omission` — what one step must keep of the relation between the open clauses;
* `Registry.Omission.scan`, `Registry.Omission.read` — the second reading gives its words the roles
  that they have in the first, and ends the same clauses.
-/

set_option autoImplicit false

namespace NameGuard

namespace Reading

/-- The words of a reading, less those of the steps that are left out. -/
def without (omits : Step → Bool) (reading : Reading) : List String :=
  (reading.steps.filter fun step => !omits step).map Step.word

/-- How many words before a place are not left out. -/
def keptBefore (omits : Step → Bool) (reading : Reading) (place : Nat) : Nat :=
  (reading.steps.take place).countP fun step => !omits step

theorem without_cons_omitted {omits : Step → Bool} {step : Step} (h : omits step = true)
    (steps : List Step) (last : Option Clause) :
    (Reading.mk (step :: steps) last).without omits = (Reading.mk steps last).without omits := by
  simp [without, h]

theorem without_cons_kept {omits : Step → Bool} {step : Step} (h : omits step = false)
    (steps : List Step) (last : Option Clause) :
    (Reading.mk (step :: steps) last).without omits =
      step.word :: (Reading.mk steps last).without omits := by
  simp [without, h]

/-- Whether `place` says where the words of a reading stand when those that are left out do not
count, the first of all words standing at the given place. -/
def Renumbers (omits : Step → Bool) (place : Nat → Nat) (position : Nat) (reading : Reading) :
    Prop :=
  ∀ i, place (position + i) = place position + reading.keptBefore omits i

theorem keptBefore_cons (omits : Step → Bool) (step : Step) (steps : List Step)
    (last : Option Clause) (i : Nat) :
    (Reading.mk (step :: steps) last).keptBefore omits (i + 1) =
      (if omits step then 0 else 1) + (Reading.mk steps last).keptBefore omits i := by
  cases h : omits step <;> simp [keptBefore, h, Nat.add_comm]

/-- The next word stands one place further on, unless the first one is left out. -/
theorem Renumbers.next {omits : Step → Bool} {place : Nat → Nat} {position : Nat} {step : Step}
    {steps : List Step} {last : Option Clause}
    (h : (Reading.mk (step :: steps) last).Renumbers omits place position) :
    place (position + 1) = place position + (if omits step then 0 else 1) ∧
      (Reading.mk steps last).Renumbers omits place (position + 1) := by
  have hfirst : place (position + 1) = place position + (if omits step then 0 else 1) := by
    rw [h 1, keptBefore_cons]
    simp [keptBefore]
  refine ⟨hfirst, fun i => ?_⟩
  have hlater := h (i + 1)
  rw [keptBefore_cons] at hlater
  rw [hfirst, Nat.add_assoc position, Nat.add_comm 1 i, hlater, Nat.add_assoc]

end Reading

theorem forall₂_toList_of_rel {r : Clause → Clause → Prop} {current other : Option Clause}
    (h : Option.Rel r current other) : List.Forall₂ r current.toList other.toList := by
  cases h with
  | none => exact .nil
  | some hrel => exact .cons hrel .nil

namespace Registry

/-- What one step must do so that words in lowercase can be left out. The clause that is open with
all words goes along with the one that is open without some; a step that is left out closes no
clause, and one that is kept has the same role in both readings, and ends the same clause. -/
structure Omission (registry : Registry) (omits : Step → Bool) (place : Nat → Nat)
    (along ended : Clause → Clause → Prop) : Prop where
  hidden : ∀ (position : Nat) {current other : Option Clause} {word : String},
    word.toLower = word → Option.Rel along current other →
    omits (registry.advance position current word).1 = true →
      (registry.advance position current word).1.closed = none ∧
      Option.Rel along (registry.advance position current word).2 other
  visible : ∀ (position : Nat) {current other : Option Clause} {word : String},
    word.toLower = word → Option.Rel along current other →
    omits (registry.advance position current word).1 = false →
      (registry.advance (place position) other word).1.role =
        (registry.advance position current word).1.role ∧
      Option.Rel ended (registry.advance position current word).1.closed
        (registry.advance (place position) other word).1.closed ∧
      Option.Rel along (registry.advance position current word).2
        (registry.advance (place position) other word).2
  last : ∀ {clause other : Clause}, along clause other → ended clause other

/-- Reading without the words that can be left out gives the others the roles that they have with
all words, and ends the same clauses. -/
theorem Omission.scan {registry : Registry} {omits : Step → Bool} {place : Nat → Nat}
    {along ended : Clause → Clause → Prop}
    (omission : registry.Omission omits place along ended) (words : List String)
    (hlower : ∀ word ∈ words, word.toLower = word) :
    ∀ (position : Nat) (current other : Option Clause), Option.Rel along current other →
      (registry.scan position current words).Renumbers omits place position →
      (registry.scan (place position) other
          ((registry.scan position current words).without omits)).steps.map Step.role =
        ((registry.scan position current words).steps.filter fun step => !omits step).map
          Step.role ∧
      List.Forall₂ ended (registry.scan position current words).clauses
        (registry.scan (place position) other
          ((registry.scan position current words).without omits)).clauses := by
  -- The second reading has only the words that are kept, so it stands still at the others.
  induction words with
  | nil =>
    intro position current other hrel _
    refine ⟨rfl, ?_⟩
    cases hrel with
    | none => exact .nil
    | some hrel => exact .cons (omission.last hrel) .nil
  | cons word rest ih =>
    intro position current other hrel hplace
    have hword : word.toLower = word := hlower word List.mem_cons_self
    have hrest := ih fun word h => hlower word (List.mem_cons_of_mem _ h)
    obtain ⟨step, next, hstep⟩ :
        ∃ step next, registry.advance position current word = (step, next) := ⟨_, _, rfl⟩
    rw [scan_cons hstep] at hplace ⊢
    obtain ⟨hnext, hlater⟩ := hplace.next
    cases homits : omits step with
    | true =>
      have hhidden := omission.hidden position hword hrel
      rw [hstep] at hhidden
      obtain ⟨hclosed, halong⟩ := hhidden homits
      obtain ⟨hroles, hclauses⟩ := hrest (position + 1) next other halong hlater
      have hstill : place (position + 1) = place position := by simpa [homits] using hnext
      rw [hstill] at hroles hclauses
      rw [Reading.without_cons_omitted homits, clauses_cons, hclosed,
        List.filter_cons_of_neg (by simp [homits])]
      exact ⟨hroles, hclauses⟩
    | false =>
      have hvisible := omission.visible position hword hrel
      have hstepword := registry.word_advance position current word
      rw [hstep] at hvisible hstepword
      obtain ⟨hrole, hended, halong⟩ := hvisible homits
      obtain ⟨hroles, hclauses⟩ := hrest (position + 1) next _ halong hlater
      have hmoves : place (position + 1) = place position + 1 := by simpa [homits] using hnext
      rw [hmoves] at hroles hclauses
      rw [Reading.without_cons_kept homits, hstepword]
      obtain ⟨step', next', hstep'⟩ :
          ∃ step' next', registry.advance (place position) other word = (step', next') :=
        ⟨_, _, rfl⟩
      rw [hstep'] at hrole hended hroles hclauses
      rw [scan_cons hstep', clauses_cons, clauses_cons,
        List.filter_cons_of_pos (by simp [homits]), List.map_cons, List.map_cons, hrole, hroles]
      exact ⟨rfl, List.rel_append (forall₂_toList_of_rel hended) hclauses⟩

/-- The words that are not left out are in lowercase, as reading has them. -/
theorem map_lower_without (registry : Registry) (omits : Step → Bool) (words : List String) :
    ((registry.read words).without omits).map String.toLower =
      (registry.read words).without omits := by
  have hsublist : ((registry.read words).without omits).Sublist (words.map String.toLower) := by
    rw [← map_word_steps_read registry words]
    exact List.filter_sublist.map Step.word
  have hlower : ∀ word ∈ (registry.read words).without omits, word.toLower = word :=
    fun word hword => lower_of_mem_map_lower (hsublist.mem hword)
  exact (List.map_congr_left hlower).trans (List.map_id _)

/-- Reading a declaration again without the words that can be left out. -/
theorem Omission.read {registry : Registry} {omits : Step → Bool}
    {along ended : Clause → Clause → Prop} (words : List String)
    (omission : registry.Omission omits ((registry.read words).keptBefore omits) along ended) :
    (registry.read ((registry.read words).without omits)).steps.map Step.role =
        ((registry.read words).steps.filter fun step => !omits step).map Step.role ∧
      List.Forall₂ ended (registry.read words).clauses
        (registry.read ((registry.read words).without omits)).clauses := by
  have hzero : (registry.read words).keptBefore omits 0 = 0 := by simp [Reading.keptBefore]
  have hplaces : (registry.read words).Renumbers omits ((registry.read words).keptBefore omits) 0 :=
    fun i => by rw [hzero, Nat.zero_add, Nat.zero_add]
  have hscan := omission.scan _ (fun _ => lower_of_mem_map_lower) 0 none none .none hplaces
  rw [hzero] at hscan
  have hread : registry.read ((registry.read words).without omits) =
      registry.scan 0 none ((registry.read words).without omits) := by
    rw [Registry.read, map_lower_without]
  rw [hread]
  exact hscan

end Registry

end NameGuard
