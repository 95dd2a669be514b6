import NameGuard.Proofs.Rule.Offer

/-!
# What a type choice makes of words

A type choice reads a list of tags with conjunctions between them. The first word that is neither
ends the list, and from then on the choice refuses every word.

* `TypeChoice.settles` — a closed choice refuses every word;
* `TypeChoice.feed_empty` — the tags after some words, and whether the list has ended;
* `TypeChoice.refused_empty` — the words that are refused.
-/

set_option autoImplicit false

namespace NameGuard

section

universe u

/-- Of a list with one more item at its end, that item is kept if it did not occur before. -/
theorem eraseDups_append_singleton {α : Type u} [DecidableEq α] (items : List α) (item : α) :
    (items ++ [item]).eraseDups =
      if item ∈ items then items.eraseDups else items.eraseDups ++ [item] := by
  rw [List.eraseDups_append]
  by_cases h : item ∈ items
  · simp [h, List.removeAll]
  · simp [h, List.removeAll, List.eraseDups_cons]

end

namespace TypeChoice

def isListWord (word : String) : Bool :=
  (TypeTag.ofWord? word).isSome || isConjunction word

/-- The tags that the list at the front of some words names, each once, in the order in which they
are first named. -/
def listedTags (words : List String) : List TypeTag :=
  ((words.takeWhile isListWord).filterMap TypeTag.ofWord?).eraseDups

theorem ofWord?_of_isConjunction {word : String} (h : isConjunction word = true) :
    TypeTag.ofWord? word = none := by
  simp only [isConjunction, Bool.or_eq_true, beq_iff_eq] at h
  rcases h with rfl | rfl
  · decide +kernel
  · decide +kernel

theorem settles : rule.Settles := by
  intro choice word h
  exact consume_of_closed (by simpa [rule] using h) word

/-! ## One word -/

theorem consume_refuses {word : String} (h : isListWord word = false) (choice : TypeChoice) :
    (choice.consume word).1 = false := by
  simp only [isListWord, Bool.or_eq_false_iff, Option.isSome_eq_false_iff,
    Option.isNone_iff_eq_none] at h
  unfold consume
  rw [h.1]
  split <;> rfl

/-- The choice that lists the tags of a row, each once. -/
def ofTags (tags : List TypeTag) : TypeChoice := of tags.eraseDups false

theorem insert_ofTags (tags : List TypeTag) (tag : TypeTag) :
    (ofTags tags).insert tag = ofTags (tags ++ [tag]) := by
  unfold insert ofTags
  rw [eraseDups_append_singleton]
  by_cases h : tag ∈ tags
  · simp [h]
  · ext <;> simp [h]

theorem consume_tag {word : String} {tag : TypeTag} (h : TypeTag.ofWord? word = some tag)
    (tags : List TypeTag) :
    (ofTags tags).consume word = (true, ofTags (tags ++ [tag])) := by
  rw [← insert_ofTags]
  simp [consume, ofTags, h]

theorem consume_conjunction {word : String} (h : isConjunction word = true)
    (tags : List TypeTag) : (ofTags tags).consume word = (false, ofTags tags) := by
  simp [consume, ofTags, ofWord?_of_isConjunction h, h]

theorem consume_other {word : String} (h : isListWord word = false) (tags : List TypeTag) :
    (ofTags tags).consume word = (false, of tags.eraseDups true) := by
  simp only [isListWord, Bool.or_eq_false_iff, Option.isSome_eq_false_iff,
    Option.isNone_iff_eq_none] at h
  simp only [consume, ofTags, closed_of, h.1, h.2, Bool.false_eq_true, if_false]
  rfl

theorem isListWord_cases {word : String} (h : isListWord word = true) :
    (∃ tag, TypeTag.ofWord? word = some tag) ∨ isConjunction word = true := by
  simpa [isListWord, Option.isSome_iff_exists] using h

/-! ## The state after some words -/

theorem feed_closed (tags : List TypeTag) (words : List String) :
    feed consume (of tags true) words = of tags true :=
  feed_of_stuck (fun word => consume_of_closed rfl word) words

theorem feed_ofTags (words : List String) : ∀ tags : List TypeTag,
    feed consume (ofTags tags) words =
      of (tags ++ (words.takeWhile isListWord).filterMap TypeTag.ofWord?).eraseDups
        (!words.all isListWord) := by
  induction words with
  | nil =>
    intro tags
    simp [ofTags]
  | cons word rest ih =>
    intro tags
    cases hlist : isListWord word with
    | false =>
      rw [feed_cons, consume_other hlist, feed_closed, List.takeWhile_cons_of_neg (by simp [hlist])]
      simp [hlist]
    | true =>
      rw [feed_cons, List.takeWhile_cons_of_pos hlist]
      rcases isListWord_cases hlist with ⟨tag, htag⟩ | hconjunction
      · rw [consume_tag htag, ih]
        simp [htag, hlist]
      · rw [consume_conjunction hconjunction, ih]
        simp [ofWord?_of_isConjunction hconjunction, hlist]

/-- The tags of a choice after some words are those of the list at their front; the choice is closed
once there is a word beyond it. -/
theorem feed_empty (words : List String) :
    feed consume empty words = of (listedTags words) (!words.all isListWord) := by
  have hempty : empty = ofTags [] := rfl
  rw [hempty, feed_ofTags, List.nil_append, listedTags]

/-! ## The words that are refused -/

theorem refused_ofTags (words : List String) : ∀ tags : List TypeTag,
    refused consume (ofTags tags) words =
      (words.takeWhile isListWord).filter isConjunction ++ words.dropWhile isListWord := by
  induction words with
  | nil => intro tags; rfl
  | cons word rest ih =>
    intro tags
    cases hlist : isListWord word with
    | false =>
      rw [refused_cons_refused (consume_other hlist tags),
        refused_of_stuck (fun word => consume_of_closed rfl word),
        List.takeWhile_cons_of_neg (by simp [hlist]),
        List.dropWhile_cons_of_neg (by simp [hlist])]
      rfl
    | true =>
      rw [List.takeWhile_cons_of_pos hlist, List.dropWhile_cons_of_pos hlist]
      rcases isListWord_cases hlist with ⟨tag, htag⟩ | hconjunction
      · have hnot : isConjunction word ≠ true := by
          intro h
          rw [ofWord?_of_isConjunction h] at htag
          cases htag
        rw [refused_cons_taken (consume_tag htag tags), ih, List.filter_cons_of_neg hnot]
      · rw [refused_cons_refused (consume_conjunction hconjunction tags), ih,
          List.filter_cons_of_pos hconjunction, List.cons_append]

/-- The words that a choice refuses are the conjunctions of the list at their front, and all that
follow the list. -/
theorem refused_empty (words : List String) :
    refused consume empty words =
      (words.takeWhile isListWord).filter isConjunction ++ words.dropWhile isListWord :=
  refused_ofTags words []

end TypeChoice

/-! ## Clauses of type choices -/

namespace Clause

theorem feed_contains (position : Nat) (keyword : String) (choice : TypeChoice)
    (words : List String) :
    feed offer ⟨position, .contains, keyword, choice⟩ words =
      ⟨position, .contains, keyword, feed TypeChoice.consume choice words⟩ :=
  @feed_of_settles .contains TypeChoice.settles position keyword choice words

theorem refused_contains (position : Nat) (keyword : String) (choice : TypeChoice)
    (words : List String) :
    refused offer ⟨position, .contains, keyword, choice⟩ words =
      refused TypeChoice.consume choice words :=
  @refused_of_settles .contains TypeChoice.settles position keyword choice words

end Clause

end NameGuard
