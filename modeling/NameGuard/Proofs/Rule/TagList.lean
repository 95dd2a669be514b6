import Mathlib.Data.List.Induction
import Mathlib.Data.List.TakeWhile
import NameGuard.Proofs.Rule.TypeChoice

/-!
# A type choice after any words

A type choice reads the longest list of tags and conjunctions that some words begin with. It takes
the tags of this list and no other word, keeps each tag once, in the order in which they are first
named, and is closed by the first word beyond the list.

* `IsLongestFront` — the longest part at the front of some words that has a property throughout;
* `TypeTag.ofWord?_eq_some_iff` — the words that name a tag;
* `TypeChoice.verdicts_ofTags` — the words that are taken;
* `pairwise_findIdx_eraseDups` — removing repetitions keeps the order of first occurrences;
* `TypeChoice.tags_exact` — a type choice after any words.
-/

set_option autoImplicit false

namespace NameGuard

/-! ## Longest fronts -/

/-- Whether some words are the longest part at the front of others in which each word has a
property. -/
structure IsLongestFront (p : String → Prop) (words front : List String) : Prop where
  starts : front <+: words
  holds : ∀ word ∈ front, p word
  longest : ∀ other, other <+: words → (∀ word ∈ other, p word) → other <+: front

theorem isLongestFront_takeWhile {p : String → Prop} {test : String → Bool}
    (htest : ∀ word, test word = true ↔ p word) (words : List String) :
    IsLongestFront p words (words.takeWhile test) where
  starts := List.takeWhile_prefix _
  holds word h := (htest word).mp (List.mem_takeWhile_imp h)
  longest := by
    rintro other ⟨rest, rfl⟩ hother
    rw [List.takeWhile_append_of_pos fun word h => (htest word).mpr (hother word h)]
    exact List.prefix_append _ _

/-! ## First occurrences -/

section

variable {α β : Type*} [DecidableEq β]

theorem findIdx_lt_of_mem_filterMap {f : α → Option β} {items : List α} {a : β}
    (h : a ∈ items.filterMap f) : (items.findIdx fun item => f item == some a) < items.length := by
  obtain ⟨item, hitem, hfound⟩ := List.mem_filterMap.mp h
  exact List.findIdx_lt_length_of_exists ⟨item, hitem, by simp [hfound]⟩

/-- What is stood for already is not first stood for by a later item. -/
theorem findIdx_append_of_mem_filterMap {f : α → Option β} {items : List α} {a : β}
    (h : a ∈ items.filterMap f) (later : List α) :
    ((items ++ later).findIdx fun item => f item == some a) =
      items.findIdx fun item => f item == some a := by
  rw [List.findIdx_append, if_pos (findIdx_lt_of_mem_filterMap h)]

theorem le_findIdx_append_of_not_mem_filterMap {f : α → Option β} {items : List α} {a : β}
    (h : a ∉ items.filterMap f) (later : List α) :
    items.length ≤ (items ++ later).findIdx fun item => f item == some a := by
  have hlength : (items.findIdx fun item => f item == some a) = items.length := by
    refine List.findIdx_eq_length_of_false fun item hitem => ?_
    exact beq_eq_false_iff_ne.mpr fun hfound => h (List.mem_filterMap.mpr ⟨item, hitem, hfound⟩)
  rw [List.findIdx_append, if_neg (by omega)]
  exact Nat.le_add_left _ _

/-- Of what the items of a list stand for, each is kept once, in the order in which it is first
stood for. -/
theorem pairwise_findIdx_eraseDups (f : α → Option β) (items : List α) :
    (items.filterMap f).eraseDups.Pairwise fun a b =>
      (items.findIdx fun item => f item == some a) <
        items.findIdx fun item => f item == some b := by
  induction items using List.reverseRecOn with
  | nil => exact .nil
  | append_singleton items item ih =>
    have hearlier : (items.filterMap f).eraseDups.Pairwise fun a b =>
        ((items ++ [item]).findIdx fun item => f item == some a) <
          (items ++ [item]).findIdx fun item => f item == some b := by
      refine ih.imp_of_mem fun {a b} ha hb hlt => ?_
      rw [findIdx_append_of_mem_filterMap (List.mem_eraseDups.mp ha),
        findIdx_append_of_mem_filterMap (List.mem_eraseDups.mp hb)]
      exact hlt
    cases hitem : f item with
    | none => simpa [hitem] using hearlier
    | some b =>
      have hfilter : (items ++ [item]).filterMap f = items.filterMap f ++ [b] := by simp [hitem]
      rw [hfilter, eraseDups_append_singleton]
      split
      · exact hearlier
      · rename_i hnew
        refine List.pairwise_append.mpr ⟨hearlier, List.pairwise_singleton _ _, fun a ha c hc => ?_⟩
        obtain rfl := List.mem_singleton.mp hc
        rw [findIdx_append_of_mem_filterMap (List.mem_eraseDups.mp ha)]
        exact Nat.lt_of_lt_of_le (findIdx_lt_of_mem_filterMap (List.mem_eraseDups.mp ha))
          (le_findIdx_append_of_not_mem_filterMap hnew [item])

end

/-! ## Tags -/

theorem TypeTag.lower_name (tag : TypeTag) : tag.name.toLower = tag.name := by
  cases tag <;> decide +kernel

/-- A word names a tag if it is the name of the tag in letters of either case. -/
theorem TypeTag.ofWord?_eq_some_iff (word : String) (tag : TypeTag) :
    ofWord? word = some tag ↔ word.toLower = tag.name := by
  constructor
  · intro h
    have hsame := @List.find?_some _ (fun tag : TypeTag => sameWord tag.name word) tag all h
    rw [sameWord_iff, lower_name] at hsame
    exact hsame.symm
  · intro h
    have hread : ofWord? word = ofWord? tag.name := by
      unfold ofWord? sameWord
      rw [h, lower_name]
    rw [hread, ofWord?_name]

namespace TypeChoice

/-- Whether a word may stand in a list of tags: it names a tag, in letters of either case, or is a
conjunction in lowercase. -/
def IsListed (word : String) : Prop :=
  (∃ tag : TypeTag, word.toLower = tag.name) ∨ word = "and" ∨ word = "or"

theorem isListWord_iff (word : String) : isListWord word = true ↔ IsListed word := by
  simp [isListWord, isConjunction, IsListed, Option.isSome_iff_exists, TypeTag.ofWord?_eq_some_iff]

def after (words : List String) : TypeChoice := feed rule.consume rule.start words

theorem after_eq (words : List String) :
    after words = of (listedTags words) (!words.all isListWord) :=
  feed_empty words

/-! ## The words that are taken -/

theorem verdicts_ofTags (words : List String) : ∀ tags : List TypeTag,
    verdicts consume (ofTags tags) words =
      ((words.takeWhile isListWord).map fun word => (TypeTag.ofWord? word).isSome) ++
        (words.dropWhile isListWord).map fun _ => false := by
  induction words with
  | nil => intro tags; rfl
  | cons word rest ih =>
    intro tags
    cases hlist : isListWord word with
    | false =>
      rw [verdicts, consume_other hlist, verdicts_of_stuck fun word => consume_of_closed rfl word,
        List.takeWhile_cons_of_neg (by simp [hlist]), List.dropWhile_cons_of_neg (by simp [hlist])]
      rfl
    | true =>
      rw [verdicts, List.takeWhile_cons_of_pos hlist, List.dropWhile_cons_of_pos hlist,
        List.map_cons, List.cons_append]
      rcases isListWord_cases hlist with ⟨tag, htag⟩ | hconjunction
      · rw [consume_tag htag, ih, htag, Option.isSome_some]
      · rw [consume_conjunction hconjunction, ih, ofWord?_of_isConjunction hconjunction,
          Option.isSome_none]

theorem verdicts_eq (words : List String) :
    verdicts rule.consume rule.start words =
      ((words.takeWhile isListWord).map fun word => (TypeTag.ofWord? word).isSome) ++
        (words.dropWhile isListWord).map fun _ => false :=
  verdicts_ofTags words []

theorem length_verdicts (words : List String) :
    (verdicts rule.consume rule.start words).length = words.length := by
  rw [verdicts_eq, List.length_append, List.length_map, List.length_map, ← List.length_append,
    List.takeWhile_append_dropWhile]

/-- The words that are taken are those of the list that name a tag. -/
theorem getElem?_verdicts_iff (words : List String) (i : Nat) :
    (verdicts rule.consume rule.start words)[i]? = some true ↔
      ∃ (word : String) (tag : TypeTag), (words.takeWhile isListWord)[i]? = some word ∧
        word.toLower = tag.name := by
  simp only [← TypeTag.ofWord?_eq_some_iff]
  rw [verdicts_eq]
  by_cases hi : i < (words.takeWhile isListWord).length
  · rw [List.getElem?_append_left (by simpa using hi), List.getElem?_map,
      List.getElem?_eq_getElem hi]
    simp [Option.isSome_iff_exists]
  · rw [List.getElem?_append_right (by simpa using hi), List.getElem?_map,
      List.getElem?_eq_none (Nat.le_of_not_lt hi)]
    simp

/-! ## The tags -/

/-- The place of the first of some words that names a tag. -/
def firstNaming (words : List String) (tag : TypeTag) : Nat :=
  words.findIdx fun word => word.toLower == tag.name

theorem mem_listedTags_iff (words : List String) (tag : TypeTag) :
    tag ∈ listedTags words ↔
      ∃ word ∈ words.takeWhile isListWord, word.toLower = tag.name := by
  rw [listedTags, List.mem_eraseDups, List.mem_filterMap]
  simp only [TypeTag.ofWord?_eq_some_iff]

theorem pairwise_listedTags (words : List String) :
    (listedTags words).Pairwise fun a b =>
      firstNaming (words.takeWhile isListWord) a < firstNaming (words.takeWhile isListWord) b := by
  have hnames : ∀ tag : TypeTag, (fun word => TypeTag.ofWord? word == some tag) =
      fun word : String => word.toLower == tag.name := by
    intro tag
    funext word
    rw [Bool.eq_iff_iff, beq_iff_eq, beq_iff_eq, TypeTag.ofWord?_eq_some_iff]
  have hpairwise :=
    pairwise_findIdx_eraseDups TypeTag.ofWord? (words.takeWhile isListWord)
  simp only [hnames] at hpairwise
  exact hpairwise

theorem validate_after_iff (words : List String) (value : Value) :
    (after words).validate value = true ↔
      ∃ word ∈ words.takeWhile isListWord, ∃ tag : TypeTag,
        word.toLower = tag.name ∧ value.typeOf = tag.type := by
  have htags : (after words).tags = listedTags words := congrArg tags (after_eq words)
  simp only [validate, htags, List.any_eq_true, TypeTag.admits, beq_iff_eq, mem_listedTags_iff]
  constructor
  · rintro ⟨tag, ⟨word, hword, hname⟩, htype⟩
    exact ⟨word, hword, tag, hname, htype⟩
  · rintro ⟨word, hword, tag, hname, htype⟩
    exact ⟨tag, ⟨word, hword, hname⟩, htype⟩

/-! ## Closing -/

theorem takeWhile_eq_self_iff_open (words : List String) :
    words.takeWhile isListWord = words ↔ (after words).closed = false := by
  rw [after_eq, List.takeWhile_eq_self_iff]
  simp

/-- A closed choice stays as it is. -/
theorem after_append_of_closed {words : List String} (h : (after words).closed = true)
    (later : List String) : after (words ++ later) = after words := by
  have happend : after (words ++ later) = feed consume (after words) later :=
    feed_append consume empty words later
  rw [happend]
  exact feed_of_stuck (fun word => consume_of_closed h word) later

/-- **A type choice reads the longest list that it is offered.** Of any words it takes, of the
longest part at their front that consists of tags and conjunctions, the tags, and no other word. It
is closed if there is a word beyond that part, and then no word changes it any more. Its tags are
those of the list, each once, in the order in which they are first named; its arguments are their
names. It is satisfied if there is one, and admits the values of the types that the tags stand for,
which truth values are never among. -/
theorem tags_exact (words : List String) :
    ∃ front : List String, IsLongestFront IsListed words front ∧
      (rule.hungry (after words) = false ↔ front ≠ words) ∧
      (verdicts rule.consume rule.start words).length = words.length ∧
      (∀ i : Nat, (verdicts rule.consume rule.start words)[i]? = some true ↔
        ∃ (word : String) (tag : TypeTag), front[i]? = some word ∧ word.toLower = tag.name) ∧
      (after words).tags.Nodup ∧
      (∀ tag, tag ∈ (after words).tags ↔ ∃ word ∈ front, word.toLower = tag.name) ∧
      ((after words).tags.Pairwise fun a b => firstNaming front a < firstNaming front b) ∧
      rule.args (after words) = (after words).tags.map (fun tag => .word tag.name) ∧
      (rule.isSatisfied (after words) = true ↔ (after words).tags ≠ []) ∧
      (∀ value, (after words).validate value = true ↔
        ∃ word ∈ front, ∃ tag : TypeTag, word.toLower = tag.name ∧ value.typeOf = tag.type) ∧
      (∀ b, (after words).validate (.bool b) = false) ∧
      (front = words ∨ ∀ later, after (words ++ later) = after words) := by
  have htags : (after words).tags = listedTags words := congrArg tags (after_eq words)
  have hpairwise := pairwise_listedTags words
  refine ⟨words.takeWhile isListWord, isLongestFront_takeWhile isListWord_iff words, ?_,
    length_verdicts words, getElem?_verdicts_iff words, ?_, ?_, htags ▸ hpairwise,
    (after words).args_eq, ?_, validate_after_iff words, ?_, ?_⟩
  · rw [Ne, takeWhile_eq_self_iff_open, Bool.not_eq_false]
    show (!(after words).closed) = false ↔ _
    rw [Bool.not_eq_false']
  · rw [htags]
    refine hpairwise.imp fun hlt heq => ?_
    rw [heq] at hlt
    exact Nat.lt_irrefl _ hlt
  · rw [htags]
    exact mem_listedTags_iff words
  · show decide (1 ≤ (after words).args.length) = true ↔ _
    rw [decide_eq_true_iff, length_args, Nat.one_le_iff_ne_zero, Ne, List.length_eq_zero_iff]
  · intro b
    rw [Bool.eq_false_iff, Ne, validate_after_iff]
    rintro ⟨word, -, tag, -, htype⟩
    cases tag <;> cases htype
  · rw [takeWhile_eq_self_iff_open]
    cases h : (after words).closed with
    | false => exact .inl rfl
    | true => exact .inr (after_append_of_closed h)

end TypeChoice

end NameGuard
