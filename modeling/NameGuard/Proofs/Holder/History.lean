import Mathlib.Data.List.Induction
import NameGuard.Holder.Session
import NameGuard.Proofs.Holder.Verdict

/-!
# What a holder stores, told from its history

A session with a holder leaves a transcript: each action with its answer. What is stored at the end
can be read off the transcript alone, from its end backwards, and it is always a value that every
constraint admits. Nothing else of the holder ever changes.

* `Holder.IsBuilt` — holders as they come from a name;
* `Holder.transcript`, `kept?` — the history of a session, and what it leaves stored;
* `Holder.Guarded` — the invariant: what is stored is admitted;
* `Holder.perform_cases` — what one action can do to a holder;
* `Holder.IsBuilt.stored_faithful` — every state that a session reaches.
-/

set_option autoImplicit false

namespace NameGuard

/-! ## Transcripts -/

def Action.empties : Action → Bool
  | .take | .clear => true
  | _ => false

def acceptedCandidate? : Action × Answer → Option Value
  | (.write value, .written) => some value
  | _ => none

/-- What a history leaves stored: the candidate of the last write that was accepted, of those after
the holder was last emptied. -/
def kept? (history : List (Action × Answer)) : Option Value :=
  (history.reverse.takeWhile fun entry => !entry.1.empties).findSome? acceptedCandidate?

theorem kept?_append_singleton (history : List (Action × Answer)) (entry : Action × Answer) :
    kept? (history ++ [entry]) =
      if entry.1.empties then none else (acceptedCandidate? entry).or (kept? history) := by
  unfold kept?
  rw [List.reverse_append, List.reverse_singleton, List.singleton_append, List.takeWhile_cons]
  cases entry.1.empties with
  | true => simp
  | false => cases h : acceptedCandidate? entry <;> simp [h]

namespace Holder

/-- The actions of a session, each with its answer. -/
def transcript (holder : Holder) (actions : List Action) : List (Action × Answer) :=
  actions.zip ((holder.replay actions).map Prod.fst)

@[simp] theorem after_append (holder : Holder) (xs ys : List Action) :
    holder.after (xs ++ ys) = (holder.after xs).after ys := by
  simp [after]

theorem after_singleton (holder : Holder) (action : Action) :
    holder.after [action] = (holder.perform action).2 := rfl

theorem transcript_append (holder : Holder) (xs ys : List Action) :
    holder.transcript (xs ++ ys) = holder.transcript xs ++ (holder.after xs).transcript ys := by
  induction xs generalizing holder with
  | nil => rfl
  | cons x xs ih => exact congrArg _ (ih (holder.perform x).2)

theorem transcript_singleton (holder : Holder) (action : Action) :
    holder.transcript [action] = [(action, (holder.perform action).1)] := rfl

/-! ## One action -/

/-- What an action can do: store a candidate that is admitted, empty the holder, or leave it as it
is. -/
theorem perform_cases (holder : Holder) (action : Action) :
    (∃ value, action = .write value ∧ holder.accepts value = true ∧
      holder.perform action = (.written, { holder with stored := some value })) ∨
    (action.empties = true ∧ (holder.perform action).2 = { holder with stored := none }) ∨
    (action.empties = false ∧ acceptedCandidate? (action, (holder.perform action).1) = none ∧
      (holder.perform action).2 = holder) := by
  cases action with
  | write value =>
    -- a write goes by the verdict, so that is what to split on
    cases h : holder.accepts value with
    | true => exact .inl ⟨value, rfl, h, by simp [perform, write_of_accepts h]⟩
    | false =>
      obtain ⟨v, _, hwrite⟩ := write_of_not_accepts h
      exact .inr (.inr ⟨rfl, by simp [perform, hwrite, acceptedCandidate?], by
        simp [perform, hwrite]⟩)
  | take => exact .inr (.inl ⟨rfl, rfl⟩)
  | clear => exact .inr (.inl ⟨rfl, rfl⟩)
  | check value => exact .inr (.inr ⟨rfl, rfl, rfl⟩)
  | accepts value => exact .inr (.inr ⟨rfl, rfl, rfl⟩)
  | read => exact .inr (.inr ⟨rfl, rfl, rfl⟩)

/-- An action changes nothing but what is stored. -/
theorem perform_frame (holder : Holder) (action : Action) :
    ∃ stored, (holder.perform action).2 = { holder with stored := stored } := by
  rcases perform_cases holder action with ⟨value, -, -, h⟩ | ⟨-, h⟩ | ⟨-, -, h⟩
  · exact ⟨some value, by rw [h]⟩
  · exact ⟨none, h⟩
  · exact ⟨holder.stored, h⟩

/-- What is stored is admitted by every constraint. -/
def Guarded (holder : Holder) : Prop :=
  ∀ value, holder.stored = some value → ∀ c ∈ holder.constraints, c.validate value = true

theorem perform_guarded {holder : Holder} (h : holder.Guarded) (action : Action) :
    (holder.perform action).2.Guarded := by
  rcases perform_cases holder action with ⟨value, -, haccepts, hp⟩ | ⟨-, hp⟩ | ⟨-, -, hp⟩
  · rw [hp]
    intro stored hstored
    cases hstored
    exact (accepts_iff holder value).mp haccepts
  · rw [hp]
    intro stored hstored
    cases hstored
  · rw [hp]
    exact h

theorem perform_stored {holder : Holder} {history : List (Action × Answer)}
    (h : holder.stored = kept? history) (action : Action) :
    (holder.perform action).2.stored =
      kept? (history ++ [(action, (holder.perform action).1)]) := by
  rw [kept?_append_singleton]
  rcases perform_cases holder action with
    ⟨value, rfl, -, hp⟩ | ⟨hempties, hp⟩ | ⟨hempties, hnone, hp⟩
  · simp [hp, Action.empties, acceptedCandidate?]
  · simp [hp, hempties]
  · simp [hp, hempties, hnone, h]

/-! ## Sessions -/

theorem after_frame (holder : Holder) (actions : List Action) :
    ∃ stored, holder.after actions = { holder with stored := stored } := by
  induction actions using List.reverseRecOn with
  | nil => exact ⟨holder.stored, rfl⟩
  | append_singleton actions action ih =>
    obtain ⟨earlier, hearlier⟩ := ih
    obtain ⟨stored, hstored⟩ := perform_frame (holder.after actions) action
    refine ⟨stored, ?_⟩
    rw [after_append, after_singleton, hstored, hearlier]

theorem after_guarded {holder : Holder} (h : holder.Guarded) (actions : List Action) :
    (holder.after actions).Guarded := by
  induction actions using List.reverseRecOn with
  | nil => exact h
  | append_singleton actions action ih =>
    rw [after_append, after_singleton]
    exact perform_guarded ih action

theorem after_stored {holder : Holder} (h : holder.stored = none) (actions : List Action) :
    (holder.after actions).stored = kept? (holder.transcript actions) := by
  induction actions using List.reverseRecOn with
  | nil => exact h
  | append_singleton actions action ih =>
    rw [after_append, after_singleton, transcript_append, transcript_singleton]
    exact perform_stored ih action

/-- What becomes of a write hangs on the name and the constraints, not on what is stored. -/
theorem write_outcome_stored (holder : Holder) (stored : Option Value) (value : Value) :
    (({ holder with stored := stored } : Holder).write value).1 = (holder.write value).1 := by
  have hfirst : ({ holder with stored := stored } : Holder).firstViolation? value =
      holder.firstViolation? value := rfl
  unfold write
  rw [hfirst]
  cases holder.firstViolation? value <;> rfl

/-- A holder as it comes from a name, over any registry and in any dialect. -/
inductive IsBuilt : Holder → Prop
  | construct {name : String} {words : List String} {registry : Registry} {dialect : Dialect}
      {holder : Holder} (h : Holder.construct name words registry dialect = .ok holder) :
      IsBuilt holder
  | ofName {name : String} {registry : Registry} {dialect : Dialect} {holder : Holder}
      (h : Holder.ofName name registry dialect = .ok holder) : IsBuilt holder

theorem stored_of_construct {name : String} {words : List String} {registry : Registry}
    {dialect : Dialect} {holder : Holder}
    (h : construct name words registry dialect = .ok holder) : holder.stored = none := by
  unfold construct at h
  split at h
  · cases h
  · split at h
    · cases h
    · cases h
      rfl

theorem IsBuilt.stored_eq_none {holder : Holder} (built : holder.IsBuilt) :
    holder.stored = none := by
  cases built with
  | construct h => exact stored_of_construct h
  | ofName h =>
    unfold Holder.ofName at h
    split at h
    · cases h
    · split at h
      · cases h
      · cases h
        rfl

theorem IsBuilt.guarded {holder : Holder} (built : holder.IsBuilt) : holder.Guarded := by
  intro value hvalue
  rw [built.stored_eq_none] at hvalue
  cases hvalue

/-- **A holder is faithful to its history.** In every state that a session with a newly built holder
reaches, what is stored is admitted by all constraints, and it is the candidate of the last accepted
write since the holder was last emptied. A write that is refused there changes nothing that is
stored. The name, the type and the constraints are those of the beginning, and a write has the
outcome that it has in any other state the holder can reach. -/
theorem IsBuilt.stored_faithful {holder : Holder} (built : holder.IsBuilt)
    (actions : List Action) :
    (∀ value, (holder.after actions).stored = some value →
      ∀ c ∈ (holder.after actions).constraints, c.validate value = true) ∧
    (holder.after actions).stored = kept? (holder.transcript actions) ∧
    (∀ value error, ((holder.after actions).write value).1 = .error error →
      ((holder.after actions).write value).2.stored = (holder.after actions).stored) ∧
    ((holder.after actions).name = holder.name ∧
      (holder.after actions).holderType = holder.holderType ∧
      (holder.after actions).constraints = holder.constraints) ∧
    (∀ others value,
      ((holder.after actions).write value).1 = ((holder.after others).write value).1) := by
  obtain ⟨stored, hafter⟩ := after_frame holder actions
  refine ⟨after_guarded built.guarded actions, after_stored built.stored_eq_none actions, ?_,
    ?_, ?_⟩
  · intro value error herror
    cases haccepts : (holder.after actions).accepts value with
    | true =>
      rw [write_of_accepts haccepts] at herror
      cases herror
    | false =>
      obtain ⟨v, -, hwrite⟩ := write_of_not_accepts haccepts
      rw [hwrite]
  · rw [hafter]
    exact ⟨rfl, rfl, rfl⟩
  -- two states differ in what is stored, which a verdict does not look at
  · intro others value
    obtain ⟨other, hother⟩ := after_frame holder others
    rw [hafter, hother, write_outcome_stored holder stored, write_outcome_stored holder other]

/-- A session with a holder of small integers: 3 is stored, 9 is refused, and 3 stays. -/
theorem stored_faithful_small_integers :
    ∃ holder : Holder, Holder.ofName "scalar_with_integers_between_1_and_5" = .ok holder ∧
      (holder.after [.write (.int 3), .read, .write (.int 9)]).stored.bind Value.asInt? = some 3 ∧
      (holder.after [.write (.int 3), .read, .write (.int 9)]).stored =
        kept? (holder.transcript [.write (.int 3), .read, .write (.int 9)]) ∧
      ∀ value, (holder.after [.write (.int 3), .read, .write (.int 9)]).stored = some value →
        ∀ c ∈ (holder.after [.write (.int 3), .read, .write (.int 9)]).constraints,
          c.validate value = true := by
  have hrun : (Holder.ofName "scalar_with_integers_between_1_and_5").toOption.bind (fun holder =>
      (holder.after [.write (.int 3), .read, .write (.int 9)]).stored.bind Value.asInt?) =
        some 3 := by decide +kernel
  cases h : Holder.ofName "scalar_with_integers_between_1_and_5" with
  | error error =>
    rw [h] at hrun
    cases hrun
  | ok holder =>
    rw [h] at hrun
    obtain ⟨hguarded, hkept, -⟩ :=
      (IsBuilt.ofName h).stored_faithful [.write (.int 3), .read, .write (.int 9)]
    exact ⟨holder, rfl, hrun, hkept, hguarded⟩

end Holder

end NameGuard
