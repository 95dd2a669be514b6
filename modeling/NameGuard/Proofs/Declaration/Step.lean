import NameGuard.Proofs.Rule.Offer

/-!
# One step of reading

A step of reading offers one word to the open clause, and asks the registry where the clause refuses
it.

* `Registry.Refuses` — whether the open clause refuses a word;
* `Registry.advance_cases` — what one step of reading can be.
-/

set_option autoImplicit false

namespace NameGuard

namespace Role

def isKeyword : Role → Bool
  | .keyword _ => true
  | _ => false

def isArgument : Role → Bool
  | .argument _ => true
  | _ => false

end Role

namespace Clause

@[simp] theorem position_offer (clause : Clause) (word : String) :
    (clause.offer word).2.position = clause.position := by
  unfold offer
  split <;> rfl

@[simp] theorem kind_offer (clause : Clause) (word : String) :
    (clause.offer word).2.constraint.kind = clause.constraint.kind := by
  unfold offer
  split <;> rfl

@[simp] theorem keyword_offer (clause : Clause) (word : String) :
    (clause.offer word).2.constraint.keyword = clause.constraint.keyword := by
  unfold offer
  split <;> rfl

@[simp] theorem position_feed (clause : Clause) (words : List String) :
    (feed offer clause words).position = clause.position := by
  induction words generalizing clause with
  | nil => rfl
  | cons word rest ih => simp [ih]

@[simp] theorem kind_feed (clause : Clause) (words : List String) :
    (feed offer clause words).constraint.kind = clause.constraint.kind := by
  induction words generalizing clause with
  | nil => rfl
  | cons word rest ih => simp [ih]

@[simp] theorem keyword_feed (clause : Clause) (words : List String) :
    (feed offer clause words).constraint.keyword = clause.constraint.keyword := by
  induction words generalizing clause with
  | nil => rfl
  | cons word rest ih => simp [ih]

end Clause

namespace Registry

/-- Whether the open clause, if there is one, does not take a word. -/
def Refuses (current : Option Clause) (word : String) : Prop :=
  ∀ clause, current = some clause → (clause.offer word).1 = false

theorem select_of_some {registry : Registry} {word : String} {kind : Kind}
    (h : registry.lookup word = some kind) (position : Nat) (current : Option Clause) :
    registry.select position current word =
      (⟨word, .keyword kind.name, current⟩, some ⟨position, kind.instantiate word⟩) := by
  simp [select, h]

theorem select_of_none {registry : Registry} {word : String} (h : registry.lookup word = none)
    (position : Nat) (current : Option Clause) :
    registry.select position current word = (⟨word, .filler, none⟩, current) := by
  simp [select, h]

/-- What one step of reading can be: the open clause takes the word, or it does not and the word is
a keyword, or it does not and the word is filler. -/
theorem advance_cases (registry : Registry) (position : Nat) (current : Option Clause)
    (word : String) :
    (∃ clause, current = some clause ∧ (clause.offer word).1 = true ∧
      registry.advance position current word =
        (⟨word, .argument clause.constraint.name, none⟩, some (clause.offer word).2)) ∨
    (Refuses current word ∧ ∃ kind, registry.lookup word = some kind ∧
      registry.advance position current word =
        (⟨word, .keyword kind.name, current.map fun clause => (clause.offer word).2⟩,
          some ⟨position, kind.instantiate word⟩)) ∨
    (Refuses current word ∧ registry.lookup word = none ∧
      registry.advance position current word =
        (⟨word, .filler, none⟩, current.map fun clause => (clause.offer word).2)) := by
  cases current with
  | none =>
    have hrefuses : Refuses none word := by
      intro clause h
      cases h
    cases hlookup : registry.lookup word with
    | some kind => exact .inr (.inl ⟨hrefuses, kind, rfl, select_of_some hlookup position none⟩)
    | none => exact .inr (.inr ⟨hrefuses, rfl, select_of_none hlookup position none⟩)
  | some clause =>
    cases hoffer : clause.offer word with
    | mk taken next =>
      cases taken with
      | true =>
        have hname : next.constraint.name = clause.constraint.name := by
          have hkind := clause.kind_offer word
          rw [hoffer] at hkind
          exact congrArg Kind.name hkind
        refine .inl ⟨clause, rfl, by rw [hoffer], ?_⟩
        simp [advance, hoffer, hname]
      | false =>
        have hrefuses : Refuses (some clause) word := by
          intro other h
          cases h
          rw [hoffer]
        have hadvance : registry.advance position (some clause) word =
            registry.select position (some next) word := by
          simp [advance, hoffer]
        cases hlookup : registry.lookup word with
        | some kind =>
          refine .inr (.inl ⟨hrefuses, kind, rfl, ?_⟩)
          rw [hadvance, select_of_some hlookup, Option.map_some, hoffer]
        | none =>
          refine .inr (.inr ⟨hrefuses, rfl, ?_⟩)
          rw [hadvance, select_of_none hlookup, Option.map_some, hoffer]

theorem advance_of_taken (registry : Registry) (position : Nat) {clause : Clause} {word : String}
    (taken : (clause.offer word).1 = true) :
    registry.advance position (some clause) word =
      (⟨word, .argument clause.constraint.name, none⟩, some (clause.offer word).2) := by
  rcases registry.advance_cases position (some clause) word with
    ⟨_, hclause, -, h⟩ | ⟨refuses, -⟩ | ⟨refuses, -⟩
  · cases hclause
    exact h
  · rw [refuses clause rfl] at taken
    cases taken
  · rw [refuses clause rfl] at taken
    cases taken

theorem advance_of_keyword {registry : Registry} {word : String} {kind : Kind}
    (selected : registry.lookup word = some kind) {current : Option Clause}
    (refuses : Refuses current word) (position : Nat) :
    registry.advance position current word =
      (⟨word, .keyword kind.name, current.map fun clause => (clause.offer word).2⟩,
        some ⟨position, kind.instantiate word⟩) := by
  rcases registry.advance_cases position current word with
    ⟨clause, hcurrent, taken, -⟩ | ⟨-, k, hk, h⟩ | ⟨-, hnone, -⟩
  · rw [refuses clause hcurrent] at taken
    cases taken
  · rw [selected] at hk
    cases hk
    exact h
  · rw [selected] at hnone
    cases hnone

theorem word_advance (registry : Registry) (position : Nat) (current : Option Clause)
    (word : String) : (registry.advance position current word).1.word = word := by
  rcases registry.advance_cases position current word with
    ⟨clause, _, _, h⟩ | ⟨_, kind, _, h⟩ | ⟨_, _, h⟩ <;> rw [h]

end Registry

end NameGuard
