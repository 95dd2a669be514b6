import Mathlib.Data.List.Induction
import NameGuard.Proofs.Declaration.Outline
import NameGuard.Proofs.Number.Integer

/-!
# One piece of an outline

A piece is a keyword with the words after it, none of which is a keyword. If it makes a constraint,
then this is a range with its bounds in ascending order, or a choice of types with each tag once.
The words in which such constraints are written declare them again.

* `IsPiece`, `headings_piece` — a piece has one heading;
* `Heading.constraint?_cases` — what the constraint of a piece can be;
* `rangeWords`, `choiceWords` — the words of a range between two integers, and of a choice of types;
* `Registry.constraints_rangeWords`, `Registry.constraints_choiceWords` — what they declare.
-/

set_option autoImplicit false

namespace NameGuard

/-! ## The words of a piece -/

/-- Whether some lowercase words are a keyword and then no other one. -/
def IsPiece (words : List String) : Prop :=
  ∃ keyword body, words = keyword :: body ∧ opensClause keyword = true ∧
    ∀ word ∈ body, opensClause word = false

theorem opensClause_of_read? {word : String} {numeral : Numeral}
    (h : Numeral.read? word = some numeral) : opensClause word = false := by
  rw [Bool.eq_false_iff]
  intro hopens
  rw [read?_of_opensClause hopens] at h
  cases h

/-- Words that open no clause have no headings. -/
theorem headings_append {words : List String} (h : ∀ word ∈ words, opensClause word = false)
    (rest : List String) : ∀ position,
      headings position (words ++ rest) = headings (position + words.length) rest := by
  induction words with
  | nil => intro position; rfl
  | cons word words ih =>
    intro position
    rw [List.cons_append, headings, if_neg (by simp [h word]),
      ih fun word hword => h word (List.mem_cons_of_mem _ hword), List.length_cons,
      Nat.add_right_comm, ← Nat.add_assoc]

theorem headings_piece {keyword : String} {body : List String} (hopens : opensClause keyword = true)
    (hbody : ∀ word ∈ body, opensClause word = false) (position : Nat) :
    headings position (keyword :: body) = [⟨position, keyword, body⟩] := by
  have hnone := headings_append hbody [] (position + 1)
  rw [List.append_nil] at hnone
  rw [headings, if_pos hopens, hnone, headings]

/-- No word of a piece after its keyword is left out. -/
theorem Heading.body_of_piece {body : List String} (h : ∀ word ∈ body, opensClause word = false)
    (position : Nat) (keyword : String) : Heading.body ⟨position, keyword, body⟩ = body :=
  List.takeWhile_eq_self_iff.mpr fun word hword => by simp [h word hword]

/-! ## Bounds -/

/-- Two integers are the bounds of a range in ascending order. -/
theorem Range.ofPair_int (a b : Int64) :
    ofPair (.int a) (.int b) = .both (.int (min a b)) (.int (max a b)) := by
  have hgt : (Number.int a).compare? (.int b) ≠ some .gt ↔ a ≤ b := by
    rw [Number.compare?_ne_gt_iff rfl rfl, Number.atMost_int]
  have hmin : min a b = if a ≤ b then a else b := rfl
  have hmax : max a b = if a ≤ b then b else a := rfl
  unfold ofPair
  rw [hmin, hmax]
  by_cases hab : a ≤ b
  · rw [if_neg (hgt.mpr hab), if_pos hab, if_pos hab]
  · rw [if_pos (Classical.not_not.mp (mt hgt.mp hab)), if_neg hab, if_neg hab]

/-- The bounds of a piece ascend. -/
theorem Heading.atMost_of_bounds {heading : Heading} {low high : Number}
    (h : heading.bounds = [low, high]) : low.atMost high = true := by
  unfold bounds at h
  cases hnumbers : numbers heading.body with
  | nil => simp [hnumbers] at h
  | cons first rest =>
    cases rest with
    | nil => simp [hnumbers] at h
    | cons second rest =>
      have hrank : ∀ number ∈ first :: second :: rest, number.rank?.isSome = true :=
        fun number h => Range.isSome_rank?_of_mem_numbers (hnumbers ▸ h)
      have htotal := Number.atMost_total (hrank first (by simp)) (hrank second (by simp))
      have hsort : ((first :: second :: rest).take 2).mergeSort Number.atMost =
          if first.atMost second = true then [first, second] else [second, first] :=
        Number.mergeSort_pair first second
      rw [hnumbers, hsort] at h
      split at h
      · rename_i hle
        cases h
        exact hle
      · rename_i hnot
        cases h
        exact htotal.resolve_left hnot

/-! ## Tags -/

/-- A piece lists each tag once. -/
theorem TypeChoice.eraseDups_listedTags (words : List String) :
    (listedTags words).eraseDups = listedTags words := by
  unfold listedTags
  induction (words.takeWhile isListWord).filterMap TypeTag.ofWord? using List.reverseRecOn with
  | nil => rfl
  | append_singleton tags tag ih =>
    rw [eraseDups_append_singleton]
    split
    · exact ih
    · rename_i hnew
      rw [eraseDups_append_singleton, if_neg (mt List.mem_eraseDups.mp hnew), ih]

/-! ## What a piece declares -/

/-- A piece that names a type, and is no range, is a choice of the types it names. -/
theorem Heading.constraint?_of_tags {heading : Heading} (hrange : heading.isRange = false)
    (htags : heading.tags ≠ []) :
    heading.constraint? =
      some ⟨.contains, heading.keyword, TypeChoice.of heading.tags heading.endsList⟩ := by
  unfold constraint?
  rw [if_neg (by simp [hrange]), if_neg (by simpa using htags)]

/-- A piece that writes two integers first is a range between them. -/
theorem Heading.constraint?_of_ints {heading : Heading} (hrange : heading.isRange = true)
    {a b : Int64} {rest : List Number}
    (hnumbers : numbers heading.body = .int a :: .int b :: rest) :
    heading.constraint? =
      some ⟨.between, heading.keyword, Range.both (.int (min a b)) (.int (max a b))⟩ := by
  obtain ⟨low, high, hsort, hboth⟩ := @Range.ofNumbers_pair (.int a) (.int b) rfl rfl rest
  have hpair : Range.both low high = .both (.int (min a b)) (.int (max a b)) :=
    hboth.symm.trans (Range.ofPair_int a b)
  have hbounds : heading.bounds = [low, high] := by
    unfold bounds
    rw [hnumbers]
    exact hsort
  unfold constraint?
  rw [if_pos hrange, hbounds, ← hpair]

/-- The constraint of a piece is a range whose bounds ascend, or a choice that lists some tags, each
once. -/
theorem Heading.constraint?_cases {heading : Heading} {c : Constraint}
    (h : heading.constraint? = some c) :
    (∃ low high, c = ⟨.between, heading.keyword, Range.both low high⟩ ∧ low.atMost high = true) ∨
    ∃ tags closed, c = ⟨.contains, heading.keyword, TypeChoice.of tags closed⟩ ∧
      tags ≠ [] ∧ tags.eraseDups = tags := by
  unfold constraint? at h
  split at h
  · split at h
    · rename_i low high hbounds
      exact .inl ⟨low, high, (Option.some.inj h).symm, atMost_of_bounds hbounds⟩
    · cases h
  · split at h
    · cases h
    · rename_i htags
      exact .inr ⟨heading.tags, heading.endsList, (Option.some.inj h).symm,
        by simpa using htags, TypeChoice.eraseDups_listedTags heading.body⟩

/-! ## The words of a range -/

/-- The words of a range between two integers. -/
def rangeWords (a b : Int64) : List String := ["between", toString a, "and", toString b]

theorem opensClause_of_mem_rangeWords (a b : Int64) :
    ∀ word ∈ [toString a, "and", toString b], opensClause word = false := by
  obtain ⟨first, hfirst, -⟩ := Numeral.exists_read?_text a
  obtain ⟨second, hsecond, -⟩ := Numeral.exists_read?_text b
  simp only [List.forall_mem_cons]
  exact ⟨opensClause_of_read? hfirst, by decide +kernel, opensClause_of_read? hsecond, by simp⟩

theorem isPiece_rangeWords (a b : Int64) : IsPiece (rangeWords a b) :=
  ⟨_, _, rfl, by decide +kernel, opensClause_of_mem_rangeWords a b⟩

theorem map_lower_rangeWords (a b : Int64) :
    (rangeWords a b).map String.toLower = rangeWords a b := by
  have hfixed : ∀ word ∈ ["between", "and"], word.toLower = word := by decide +kernel
  have hfirst : (toString a).toLower = toString a := Numeral.lower_text a.toInt
  have hsecond : (toString b).toLower = toString b := Numeral.lower_text b.toInt
  simp only [rangeWords, List.map_cons, List.map_nil, hfirst, hsecond, hfixed "between" (by simp),
    hfixed "and" (by simp)]

/-- The texts of two integers are the bounds of a range. -/
theorem Heading.constraint?_rangeWords (position : Nat) (a b : Int64) :
    Heading.constraint? ⟨position, "between", [toString a, "and", toString b]⟩ =
      some ⟨.between, "between", Range.both (.int (min a b)) (.int (max a b))⟩ := by
  obtain ⟨first, hfirst, hfirstNumber⟩ := Numeral.exists_read?_text a
  obtain ⟨second, hsecond, hsecondNumber⟩ := Numeral.exists_read?_text b
  have hand : Numeral.read? "and" = none := by decide +kernel
  refine @Heading.constraint?_of_ints ⟨position, "between", _⟩ rfl a b [] ?_
  rw [Heading.body_of_piece (opensClause_of_mem_rangeWords a b), numbers_cons_numeral hfirst,
    numbers_cons_other hand, numbers_cons_numeral hsecond, hfirstNumber, hsecondNumber]
  rfl

theorem Registry.constraints_rangeWords (a b : Int64) :
    (standard.parseLenient (rangeWords a b)).constraints =
      [⟨.between, "between", Range.both (.int (min a b)) (.int (max a b))⟩] := by
  have hheadings : headings 0 (rangeWords a b) =
      [⟨0, "between", [toString a, "and", toString b]⟩] :=
    headings_piece (by decide +kernel) (opensClause_of_mem_rangeWords a b) 0
  rw [constraints_standard, map_lower_rangeWords, hheadings,
    List.filterMap_cons_some (Heading.constraint?_rangeWords 0 a b), List.filterMap_nil]

/-! ## The words of a choice -/

/-- The names of some tags, with `or` between them. -/
def listing (tags : List TypeTag) : List String := (tags.map TypeTag.name).intersperse "or"

theorem listing_cons_cons (tag next : TypeTag) (rest : List TypeTag) :
    listing (tag :: next :: rest) = tag.name :: "or" :: listing (next :: rest) :=
  List.intersperse_cons_cons

theorem listing_ne_nil {tags : List TypeTag} (h : tags ≠ []) : listing tags ≠ [] := by
  match tags with
  | [] => exact absurd rfl h
  | [_] => exact List.cons_ne_nil _ _
  | _ :: _ :: _ => exact List.cons_ne_nil _ _

theorem forall_mem_listing {p : String → Prop} (hor : p "or") (hname : ∀ tag : TypeTag, p tag.name)
    (tags : List TypeTag) : ∀ word ∈ listing tags, p word := by
  match tags with
  | [] => exact fun word h => by cases h
  | [tag] => exact List.forall_mem_singleton.mpr (hname tag)
  | tag :: next :: rest =>
    rw [listing_cons_cons, List.forall_mem_cons, List.forall_mem_cons]
    exact ⟨hname tag, hor, forall_mem_listing hor hname (next :: rest)⟩

/-- The words of a choice of types. -/
def choiceWords (tags : List TypeTag) : List String := "contains" :: listing tags

theorem opensClause_of_mem_listing (tags : List TypeTag) :
    ∀ word ∈ listing tags, opensClause word = false := by
  refine forall_mem_listing (by decide +kernel) (fun tag => ?_) tags
  cases tag <;> decide +kernel

theorem isPiece_choiceWords (tags : List TypeTag) : IsPiece (choiceWords tags) :=
  ⟨_, _, rfl, by decide +kernel, opensClause_of_mem_listing tags⟩

theorem map_lower_choiceWords (tags : List TypeTag) :
    (choiceWords tags).map String.toLower = choiceWords tags := by
  have hlisting : ∀ word ∈ listing tags, word.toLower = word := by
    refine forall_mem_listing (by decide +kernel) (fun tag => ?_) tags
    cases tag <;> decide +kernel
  have hkeyword : "contains".toLower = "contains" := by decide +kernel
  rw [choiceWords, List.map_cons, hkeyword, List.map_congr_left hlisting, List.map_id']

theorem filterMap_listing (tags : List TypeTag) :
    (listing tags).filterMap TypeTag.ofWord? = tags := by
  have hor : TypeTag.ofWord? "or" = none := TypeChoice.ofWord?_of_isConjunction rfl
  match tags with
  | [] => rfl
  | [tag] => exact List.filterMap_cons_some (TypeTag.ofWord?_name tag)
  | tag :: next :: rest =>
    rw [listing_cons_cons, List.filterMap_cons_some (TypeTag.ofWord?_name tag),
      List.filterMap_cons_none hor, filterMap_listing (next :: rest)]

theorem isListWord_of_mem_listing (tags : List TypeTag) :
    ∀ word ∈ listing tags, TypeChoice.isListWord word = true := by
  refine forall_mem_listing (by decide +kernel) (fun tag => ?_) tags
  rw [TypeChoice.isListWord, TypeTag.ofWord?_name]
  rfl

/-- The names of distinct tags are a list of these tags, which no word ends. -/
theorem Heading.constraint?_listing (position : Nat) {tags : List TypeTag} (hne : tags ≠ [])
    (hdistinct : tags.eraseDups = tags) :
    Heading.constraint? ⟨position, "contains", listing tags⟩ =
      some ⟨.contains, "contains", TypeChoice.of tags false⟩ := by
  have hlist := isListWord_of_mem_listing tags
  have htags : Heading.tags ⟨position, "contains", listing tags⟩ = tags := by
    rw [Heading.tags, body_of_piece (opensClause_of_mem_listing tags), TypeChoice.listedTags,
      List.takeWhile_eq_self_iff.mpr hlist, filterMap_listing, hdistinct]
  have hends : Heading.endsList ⟨position, "contains", listing tags⟩ = false := by
    rw [Heading.endsList, List.all_eq_true.mpr hlist]
    rfl
  rw [Heading.constraint?_of_tags rfl (by rwa [htags]), htags, hends]

theorem Registry.constraints_choiceWords {tags : List TypeTag} (hne : tags ≠ [])
    (hdistinct : tags.eraseDups = tags) :
    (standard.parseLenient (choiceWords tags)).constraints =
      [⟨.contains, "contains", TypeChoice.of tags false⟩] := by
  have hheadings : headings 0 (choiceWords tags) = [⟨0, "contains", listing tags⟩] :=
    headings_piece (by decide +kernel) (opensClause_of_mem_listing tags) 0
  rw [constraints_standard, map_lower_choiceWords, hheadings,
    List.filterMap_cons_some (Heading.constraint?_listing 0 hne hdistinct), List.filterMap_nil]

end NameGuard
