import NameGuard.Declaration

/-!
# Words offered one by one

What takes some of the words it is offered, and refuses the others, leaves a state and the words
that were refused. A rule is such a thing, and so is a clause. A clause asks its rule for hunger
first; but a rule that is not hungry, and would refuse the word anyway and stay as it is, may as
well be offered it.

* `feed`, `refused`, `verdicts` — the state after some words, the words that were refused, and what
  was said to each word;
* `feed_of_step`, `refused_of_step` — two things that go in step take and refuse the same words;
* `Rule.Settles` — a rule that, once it is not hungry, refuses every word and stays as it is;
* `Clause.feed_of_settles`, `Clause.refused_of_settles` — a clause goes in step with such a rule.
-/

set_option autoImplicit false

namespace NameGuard

/-! ## States that take words -/

section

universe u v

variable {σ : Type u} {τ : Type v} (consume : σ → String → Bool × σ)

/-- The state after some words are offered one by one. -/
def feed (s : σ) (words : List String) : σ :=
  words.foldl (fun s word => (consume s word).2) s

/-- The words that are not taken, of those offered one by one. -/
def refused : σ → List String → List String
  | _, [] => []
  | s, word :: rest =>
    if (consume s word).1 then refused (consume s word).2 rest
    else word :: refused (consume s word).2 rest

/-- Whether each word is taken, of those offered one by one. -/
def verdicts : σ → List String → List Bool
  | _, [] => []
  | s, word :: rest => (consume s word).1 :: verdicts (consume s word).2 rest

@[simp] theorem feed_nil (s : σ) : feed consume s [] = s := rfl

@[simp] theorem feed_cons (s : σ) (word : String) (rest : List String) :
    feed consume s (word :: rest) = feed consume (consume s word).2 rest := rfl

theorem feed_append (s : σ) (xs ys : List String) :
    feed consume s (xs ++ ys) = feed consume (feed consume s xs) ys :=
  List.foldl_append

variable {consume}

theorem refused_cons_taken {s next : σ} {word : String} (h : consume s word = (true, next))
    (rest : List String) : refused consume s (word :: rest) = refused consume next rest := by
  simp [refused, h]

theorem refused_cons_refused {s next : σ} {word : String} (h : consume s word = (false, next))
    (rest : List String) :
    refused consume s (word :: rest) = word :: refused consume next rest := by
  simp [refused, h]

/-- A state that refuses every word and stays as it is. -/
theorem feed_of_stuck {s : σ} (h : ∀ word, consume s word = (false, s)) (words : List String) :
    feed consume s words = s := by
  induction words with
  | nil => rfl
  | cons word rest ih => rw [feed_cons, h, ih]

theorem refused_of_stuck {s : σ} (h : ∀ word, consume s word = (false, s))
    (words : List String) : refused consume s words = words := by
  induction words with
  | nil => rfl
  | cons word rest ih => rw [refused_cons_refused (h word), ih]

theorem verdicts_of_stuck {s : σ} (h : ∀ word, consume s word = (false, s))
    (words : List String) : verdicts consume s words = words.map fun _ => false := by
  induction words with
  | nil => rfl
  | cons word rest ih => rw [verdicts, h, ih, List.map_cons]

/-- What each word preserves, all words preserve. -/
theorem feed_preserves {P : σ → Prop} (step : ∀ s word, P s → P (consume s word).2)
    (words : List String) : ∀ s, P s → P (feed consume s words) := by
  induction words with
  | nil => intro s h; exact h
  | cons word rest ih =>
    intro s h
    exact ih _ (step s word h)

/-- Where each word finds two things in step, and leaves them in step, so do all words. -/
theorem feed_of_step {consume' : τ → String → Bool × τ} {view : σ → τ}
    (step : ∀ s word, consume' (view s) word = ((consume s word).1, view (consume s word).2))
    (words : List String) :
    ∀ s, feed consume' (view s) words = view (feed consume s words) := by
  induction words with
  | nil => intro s; rfl
  | cons word rest ih =>
    intro s
    rw [feed_cons, step, ih, feed_cons]

theorem refused_of_step {consume' : τ → String → Bool × τ} {view : σ → τ}
    (step : ∀ s word, consume' (view s) word = ((consume s word).1, view (consume s word).2))
    (words : List String) :
    ∀ s, refused consume' (view s) words = refused consume s words := by
  induction words with
  | nil => intro s; rfl
  | cons word rest ih =>
    intro s
    unfold refused
    rw [step, ih]

end

/-! ## Clauses of rules that settle -/

/-- Once it is not hungry, the rule refuses every word and stays as it is. -/
def Rule.Settles (rule : Rule) : Prop :=
  ∀ s word, rule.hungry s = false → rule.consume s word = (false, s)

namespace Clause

variable {kind : Kind} (settles : kind.rule.Settles) (position : Nat) (keyword : String)

include settles

theorem offer_of_settles (s : kind.rule.State) (word : String) :
    (Clause.mk position ⟨kind, keyword, s⟩).offer word =
      ((kind.rule.consume s word).1, ⟨position, kind, keyword, (kind.rule.consume s word).2⟩) := by
  unfold offer
  split
  · rfl
  · rename_i h
    rw [settles s word (by simpa [Constraint.hungry] using h)]

theorem feed_of_settles (s : kind.rule.State) (words : List String) :
    feed offer ⟨position, kind, keyword, s⟩ words =
      ⟨position, kind, keyword, feed kind.rule.consume s words⟩ :=
  feed_of_step (offer_of_settles settles position keyword) words s

theorem refused_of_settles (s : kind.rule.State) (words : List String) :
    refused offer ⟨position, kind, keyword, s⟩ words = refused kind.rule.consume s words :=
  refused_of_step (offer_of_settles settles position keyword) words s

end Clause

end NameGuard
