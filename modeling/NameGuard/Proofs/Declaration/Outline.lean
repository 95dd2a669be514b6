import Mathlib.Data.List.TakeWhile
import NameGuard.Proofs.Declaration.Opening
import NameGuard.Proofs.Registry.Lookup
import NameGuard.Proofs.Rule.Range
import NameGuard.Proofs.Rule.TypeChoice
import NameGuard.Proofs.Text.Lowering

/-!
# The outline of a declaration

Over the standard registry a declaration can be read without a current clause that is carried along:
cut the words before every keyword, and look at each piece on its own. A range has the first two
numerals of its piece as bounds, a type choice the tags of the list at the front of its piece, and
all other words are filler.

* `headings` — the keywords of a declaration, each with the words after it;
* `Heading.constraint?`, `Heading.dropped?`, `Heading.filler` — what one piece comes to;
* `outline` — what the pieces come to together;
* `Registry.openings_standard` — the clauses that keywords open are the pieces of the outline;
* `Registry.parseLenient_eq_outline` — reading a declaration is reading its outline.
-/

set_option autoImplicit false

namespace NameGuard

/-! ## Pieces -/

/-- Whether a lowercase word opens a clause of a standard kind. -/
def opensClause (word : String) : Bool :=
  Range.keywords.contains word || TypeChoice.keywords.contains word

/-- A keyword at its place, with all the words after it. -/
structure Heading where
  position : Nat
  keyword : String
  following : List String

/-- The keywords among some words, the first of which stands at the given place. -/
def headings (position : Nat) : List String → List Heading
  | [] => []
  | word :: rest =>
    if opensClause word then ⟨position, word, rest⟩ :: headings (position + 1) rest
    else headings (position + 1) rest

namespace Heading

def body (heading : Heading) : List String :=
  heading.following.takeWhile fun word => !opensClause word

def isRange (heading : Heading) : Bool :=
  Range.keywords.contains heading.keyword

/-- The first two numbers of the piece, or fewer, in ascending order. -/
def bounds (heading : Heading) : List Number :=
  ((numbers heading.body).take 2).mergeSort Number.atMost

def tags (heading : Heading) : List TypeTag :=
  TypeChoice.listedTags heading.body

/-- Whether some word after the keyword, of this piece or beyond it, ends the list of tags. -/
def endsList (heading : Heading) : Bool :=
  !heading.following.all TypeChoice.isListWord

/-- The constraint of the piece: a range with two bounds, or a choice of one tag at least. -/
def constraint? (heading : Heading) : Option Constraint :=
  if heading.isRange then
    match heading.bounds with
    | [low, high] => some ⟨.between, heading.keyword, Range.both low high⟩
    | _ => none
  else if heading.tags.isEmpty then none
  else some ⟨.contains, heading.keyword, TypeChoice.of heading.tags heading.endsList⟩

/-- The record of the piece where it makes no constraint. -/
def dropped? (heading : Heading) : Option Dropped :=
  if heading.isRange then
    if heading.bounds.length = 2 then none
    else some ⟨"between", heading.keyword, heading.position,
      heading.bounds.map Argument.ofNumber, .exact 2⟩
  else if heading.tags.isEmpty then
    some ⟨"contains", heading.keyword, heading.position, [], .variadic⟩
  else none

/-- The words of the piece that are left over: all but the first two numerals; or the conjunctions
of the list of tags, and all that follow the list. -/
def filler (heading : Heading) : List String :=
  if heading.isRange then
    (heading.body.eraseP Numeral.isNumeral).eraseP Numeral.isNumeral
  else
    (heading.body.takeWhile TypeChoice.isListWord).filter TypeChoice.isConjunction ++
      heading.body.dropWhile TypeChoice.isListWord

end Heading

/-- What some lowercase words say over the standard registry, piece by piece. The words before the
first keyword are filler. -/
def outline (words : List String) : Declaration where
  constraints := (headings 0 words).filterMap Heading.constraint?
  dropped := (headings 0 words).filterMap Heading.dropped?
  discarded := words.takeWhile (fun word => !opensClause word) ++
    (headings 0 words).flatMap Heading.filler

/-! ## Keywords -/

theorem lower_of_opensClause : ∀ word ∈ Range.keywords ++ TypeChoice.keywords,
    word.toLower = word := by
  decide +kernel

theorem opensClause_iff (word : String) :
    opensClause word = true ↔ word ∈ Range.keywords ++ TypeChoice.keywords := by
  simp [opensClause]

theorem read?_of_opensClause {word : String} (h : opensClause word = true) :
    Numeral.read? word = none := by
  have hall : ∀ word ∈ Range.keywords ++ TypeChoice.keywords, Numeral.read? word = none := by
    decide +kernel
  exact hall word ((opensClause_iff word).mp h)

theorem isListWord_of_opensClause {word : String} (h : opensClause word = true) :
    TypeChoice.isListWord word = false := by
  have hall : ∀ word ∈ Range.keywords ++ TypeChoice.keywords,
      TypeChoice.isListWord word = false := by
    decide +kernel
  exact hall word ((opensClause_iff word).mp h)

/-- Among words in lowercase, a kind is selected by its keywords. -/
theorem Kind.isSelectedBy_lower {kind : Kind} (hkeywords : ∀ k ∈ kind.keywords, k.toLower = k)
    {word : String} (hword : word.toLower = word) :
    kind.isSelectedBy word = kind.keywords.contains word := by
  rw [Bool.eq_iff_iff, isSelectedBy_iff, List.contains_iff_mem]
  constructor
  · rintro ⟨k, hk, hsame⟩
    rw [hkeywords k hk, hword] at hsame
    exact hsame ▸ hk
  · intro hmem
    exact ⟨word, hmem, rfl⟩

namespace Registry

theorem lookup_standard {word : String} (hword : word.toLower = word) :
    standard.lookup word =
      if Range.keywords.contains word then some Kind.between
      else if TypeChoice.keywords.contains word then some Kind.contains
      else none := by
  have hbetween : Kind.between.isSelectedBy word = Range.keywords.contains word :=
    Kind.isSelectedBy_lower
      (fun k hk => lower_of_opensClause k (List.mem_append_left _ hk)) hword
  have hcontains : Kind.contains.isSelectedBy word = TypeChoice.keywords.contains word :=
    Kind.isSelectedBy_lower
      (fun k hk => lower_of_opensClause k (List.mem_append_right _ hk)) hword
  have hfind : standard.lookup word =
      [Kind.between, Kind.contains].find? (fun kind => kind.isSelectedBy word) :=
    lookup_ofKinds_eq_find? Kind.unambiguous_standard word
  rw [hfind, List.find?_cons, List.find?_cons, hbetween, hcontains]
  cases Range.keywords.contains word with
  | true => rfl
  | false => cases TypeChoice.keywords.contains word <;> rfl

theorem lookup_standard_isSome {word : String} (hword : word.toLower = word) :
    (standard.lookup word).isSome = opensClause word := by
  rw [lookup_standard hword, opensClause]
  cases Range.keywords.contains word with
  | true => rfl
  | false => cases TypeChoice.keywords.contains word <;> rfl

theorem isKeyword_standard (word : String) :
    standard.isKeyword word = opensClause word.toLower := by
  rw [← lookup_standard_isSome (lower_lower word), lookup_lower]
  rfl

end Registry

/-- A clause of a standard kind does not take a keyword. -/
theorem Clause.offer_refuses_keyword {clause : Clause}
    (hkind : clause.constraint.kind ∈ Kind.standard) {word : String}
    (h : opensClause word = true) : (clause.offer word).1 = false := by
  obtain ⟨position, kind, keyword, state⟩ := clause
  obtain rfl | rfl := Kind.mem_standard_iff.mp hkind
  · rw [offer_of_settles Range.settles]
    exact congrArg Prod.fst (Range.consume_other (read?_of_opensClause h) state)
  · rw [offer_of_settles TypeChoice.settles]
    exact TypeChoice.consume_refuses (isListWord_of_opensClause h) state

/-! ## Reading goes piece by piece -/

namespace Heading

def kind (heading : Heading) : Kind :=
  if heading.isRange then .between else .contains

/-- The clause that the keyword opens, with the words that it is offered. -/
def opening (heading : Heading) : Opening where
  fresh := ⟨heading.position, heading.kind.instantiate heading.keyword⟩
  body := heading.body
  closing? := heading.following.find? opensClause

end Heading

namespace Registry

/-- Whether the open clause, if there is one, is of a standard kind. -/
def IsStandard (current : Option Clause) : Prop :=
  ∀ clause, current = some clause → clause.constraint.kind ∈ Kind.standard

theorem isStandard_none : IsStandard none := by
  intro clause h
  cases h

theorem IsStandard.offer {current : Option Clause} (h : IsStandard current) (word : String) :
    IsStandard (current.map fun clause => (clause.offer word).2) := by
  intro clause hclause
  obtain ⟨before, hbefore, rfl⟩ := Option.map_eq_some_iff.mp hclause
  rw [Clause.kind_offer]
  exact h before hbefore

theorem IsStandard.fresh {kind : Kind} {word : String} (h : standard.lookup word = some kind)
    (position : Nat) : IsStandard (some ⟨position, kind.instantiate word⟩) := by
  intro clause hclause
  cases hclause
  exact ((lookup_ofKinds_iff Kind.unambiguous_standard word kind).mp h).1

/-- A step closes a clause of a standard kind, and leaves one open, if there are any. -/
theorem IsStandard.advance {current : Option Clause} (hcurrent : IsStandard current)
    (position : Nat) (word : String) :
    IsStandard (standard.advance position current word).1.closed ∧
      IsStandard (standard.advance position current word).2 := by
  rcases standard.advance_cases position current word with
    ⟨clause, rfl, -, h⟩ | ⟨-, kind, selected, h⟩ | ⟨-, -, h⟩
  · rw [h]
    exact ⟨isStandard_none, hcurrent.offer word⟩
  · rw [h]
    exact ⟨hcurrent.offer word, .fresh selected position⟩
  · rw [h]
    exact ⟨isStandard_none, hcurrent.offer word⟩

/-- Over the standard registry the keywords alone tell where clauses open. -/
theorem advance_standard {word : String} (hword : word.toLower = word) (position : Nat)
    {current : Option Clause} (hcurrent : IsStandard current) :
    (opensClause word = true ∧ ∃ kind closed, standard.lookup word = some kind ∧
      standard.advance position current word =
        (⟨word, .keyword kind.name, closed⟩, some ⟨position, kind.instantiate word⟩)) ∨
    (opensClause word = false ∧ ∃ step next, step.word = word ∧ step.role.isKeyword = false ∧
      IsStandard next ∧ standard.advance position current word = (step, next)) := by
  have hopens := lookup_standard_isSome hword
  rcases standard.advance_cases position current word with
    ⟨clause, rfl, taken, h⟩ | ⟨_, kind, selected, h⟩ | ⟨_, selected, h⟩
  · refine .inr ⟨?_, _, _, rfl, rfl, hcurrent.offer word, h⟩
    cases hkeyword : opensClause word with
    | false => rfl
    | true =>
      rw [Clause.offer_refuses_keyword (hcurrent clause rfl) hkeyword] at taken
      cases taken
  · rw [selected] at hopens
    exact .inl ⟨hopens.symm, kind, _, selected, h⟩
  · rw [selected] at hopens
    exact .inr ⟨hopens.symm, _, _, rfl, rfl, hcurrent.offer word, h⟩

theorem kind_of_lookup_standard {word : String} (hword : word.toLower = word) {kind : Kind}
    (h : standard.lookup word = some kind) (position : Nat) (following : List String) :
    (Heading.mk position word following).kind = kind := by
  unfold Heading.kind Heading.isRange
  rw [lookup_standard hword] at h
  split at h
  · rename_i hrange
    rw [if_pos hrange]
    exact Option.some.inj h
  · rename_i hrange
    rw [if_neg hrange]
    split at h
    · exact Option.some.inj h
    · cases h

/-- The clauses that keywords open are the pieces of the words between them. -/
theorem openings_standard (words : List String) (hlower : ∀ word ∈ words, word.toLower = word) :
    ∀ (position : Nat) (current : Option Clause), IsStandard current →
      standard.openings position (standard.scan position current words).steps =
          (headings position words).map Heading.opening ∧
        bodyWords (standard.scan position current words).steps =
          words.takeWhile (fun word => !opensClause word) ∧
        closingWord? (standard.scan position current words).steps = words.find? opensClause := by
  -- The open clause stays one of a standard kind, so that it never takes a keyword.
  induction words with
  | nil => intro position current _; exact ⟨rfl, rfl, rfl⟩
  | cons word rest ih =>
    intro position current hcurrent
    have hword : word.toLower = word := hlower word List.mem_cons_self
    have hrest := ih fun word h => hlower word (List.mem_cons_of_mem _ h)
    rcases advance_standard hword position hcurrent with
      ⟨hopens, kind, closed, selected, h⟩ | ⟨hopens, step, next, rfl, hrole, hnext, h⟩
    · obtain ⟨hopenings, hbody, hclosing⟩ := hrest (position + 1) _ (.fresh selected position)
      rw [scan_cons h, openings_cons_keyword _ _ rfl selected, bodyWords_cons_keyword rfl,
        closingWord?_cons_keyword rfl, hopenings, hbody, hclosing]
      refine ⟨?_, by simp [hopens], by simp [hopens]⟩
      rw [headings, if_pos hopens, List.map_cons, Heading.opening,
        kind_of_lookup_standard hword selected]
      rfl
    · obtain ⟨hopenings, hbody, hclosing⟩ := hrest (position + 1) next hnext
      rw [scan_cons h, openings_cons_other _ _ hrole, bodyWords_cons_other hrole,
        closingWord?_cons_other hrole, hopenings, hbody, hclosing]
      refine ⟨?_, by simp [hopens], by simp [hopens]⟩
      rw [headings, if_neg (by simp [hopens])]

end Registry

/-! ## What one piece comes to -/

namespace Heading

/-- All words that the clause of the piece is offered. -/
def offered (heading : Heading) : List String :=
  heading.body ++ (heading.following.find? opensClause).toList

theorem numbers_offered (heading : Heading) :
    numbers heading.offered = numbers heading.body := by
  unfold offered
  cases h : heading.following.find? opensClause with
  | none => rw [Option.toList_none, List.append_nil]
  | some closing =>
    have hnumeral := read?_of_opensClause (List.find?_some h)
    simp [numbers, hnumeral]

theorem takeWhile_offered (heading : Heading) :
    heading.offered.takeWhile TypeChoice.isListWord =
      heading.body.takeWhile TypeChoice.isListWord := by
  unfold offered
  cases h : heading.following.find? opensClause with
  | none => rw [Option.toList_none, List.append_nil]
  | some closing =>
    have hlist := isListWord_of_opensClause (List.find?_some h)
    -- where the whole body is one list of tags, the keyword after it ends the list
    rw [Option.toList_some, List.takeWhile_append]
    split
    · rename_i hlength
      rw [List.takeWhile_cons_of_neg (by simp [hlist]), List.append_nil]
      exact ((List.takeWhile_prefix _).eq_of_length hlength).symm
    · rfl

theorem all_offered (heading : Heading) :
    heading.offered.all TypeChoice.isListWord = heading.following.all TypeChoice.isListWord := by
  unfold offered
  cases h : heading.following.find? opensClause with
  | none =>
    have hnone := List.find?_eq_none.mp h
    have hbody : heading.body = heading.following :=
      List.takeWhile_eq_self_iff.mpr fun word hword => by simpa using hnone word hword
    rw [Option.toList_none, List.append_nil, hbody]
  | some closing =>
    have hlist := isListWord_of_opensClause (List.find?_some h)
    have hfalse : heading.following.all TypeChoice.isListWord = false :=
      List.all_eq_false.mpr ⟨closing, List.mem_of_find?_eq_some h, by simp [hlist]⟩
    simp [hlist, hfalse]

/-- The bounds of a range are those of the piece, by how many numbers it has. -/
theorem bounds_cases (heading : Heading) :
    (heading.bounds = [] ∧ Range.ofNumbers (numbers heading.body) = .none) ∨
    (∃ bound, heading.bounds = [bound] ∧
      Range.ofNumbers (numbers heading.body) = .one bound) ∨
    ∃ low high, heading.bounds = [low, high] ∧
      Range.ofNumbers (numbers heading.body) = .both low high := by
  unfold bounds
  cases hnumbers : numbers heading.body with
  | nil => exact .inl ⟨by simp, rfl⟩
  | cons first rest =>
    cases rest with
    | nil => exact .inr (.inl ⟨first, by simp, rfl⟩)
    | cons second rest =>
      have hrank : ∀ number ∈ first :: second :: rest, number.rank?.isSome = true :=
        fun number h => Range.isSome_rank?_of_mem_numbers (hnumbers ▸ h)
      obtain ⟨low, high, hsort, hrange⟩ := Range.ofNumbers_pair
        (hrank first (by simp)) (hrank second (by simp)) rest
      exact .inr (.inr ⟨low, high, hsort, hrange⟩)

theorem final_range {heading : Heading} (h : heading.isRange = true) :
    heading.opening.final =
      ⟨heading.position, .between, heading.keyword,
        Range.ofNumbers (numbers heading.body)⟩ := by
  have hkind : heading.kind = .between := if_pos h
  unfold Opening.final opening
  rw [hkind, ← numbers_offered, ← Range.feed_none]
  exact Clause.feed_between heading.position heading.keyword .none heading.offered

theorem final_choice {heading : Heading} (h : heading.isRange = false) :
    heading.opening.final =
      ⟨heading.position, .contains, heading.keyword,
        TypeChoice.of heading.tags heading.endsList⟩ := by
  have hkind : heading.kind = .contains := if_neg (by simp [h])
  have hfeed : feed TypeChoice.consume .empty heading.offered =
      .of heading.tags heading.endsList := by
    rw [TypeChoice.feed_empty, TypeChoice.listedTags, takeWhile_offered, all_offered]
    rfl
  unfold Opening.final opening
  rw [hkind, ← hfeed]
  exact Clause.feed_contains heading.position heading.keyword .empty heading.offered

/-- What the outline says of a piece is what its clause comes to. -/
theorem final_cases (heading : Heading) :
    (heading.opening.final.isSatisfied = true ∧
      heading.constraint? = some heading.opening.final.constraint ∧ heading.dropped? = none) ∨
    (heading.opening.final.isSatisfied = false ∧
      heading.constraint? = none ∧ heading.dropped? = some heading.opening.final.toDropped) := by
  unfold constraint? dropped?
  cases h : heading.isRange with
  | true =>
    rw [final_range h]
    rcases heading.bounds_cases with
      ⟨hbounds, hrange⟩ | ⟨bound, hbounds, hrange⟩ | ⟨low, high, hbounds, hrange⟩
    · rw [hbounds, hrange]
      exact .inr ⟨rfl, rfl, rfl⟩
    · rw [hbounds, hrange]
      exact .inr ⟨rfl, rfl, rfl⟩
    · rw [hbounds, hrange]
      exact .inl ⟨rfl, rfl, rfl⟩
  | false =>
    rw [final_choice h]
    cases htags : heading.tags with
    | nil => exact .inr ⟨rfl, rfl, rfl⟩
    | cons tag rest => exact .inl ⟨rfl, rfl, rfl⟩

theorem filter_isSatisfied (headings : List Heading) :
    ((headings.map fun heading => heading.opening.final).filter Clause.isSatisfied).map
      Clause.constraint = headings.filterMap constraint? := by
  induction headings with
  | nil => rfl
  | cons heading rest ih =>
    rcases heading.final_cases with ⟨hsatisfied, hconstraint, -⟩ | ⟨hsatisfied, hconstraint, -⟩
    · simp [hsatisfied, hconstraint, ih]
    · simp [hsatisfied, hconstraint, ih]

theorem filter_not_isSatisfied (headings : List Heading) :
    ((headings.map fun heading => heading.opening.final).filter
      fun clause => !clause.isSatisfied).map Clause.toDropped = headings.filterMap dropped? := by
  induction headings with
  | nil => rfl
  | cons heading rest ih =>
    rcases heading.final_cases with ⟨hsatisfied, -, hdropped⟩ | ⟨hsatisfied, -, hdropped⟩
    · simp [hsatisfied, hdropped, ih]
    · simp [hsatisfied, hdropped, ih]

theorem filler_opening (heading : Heading) : heading.opening.filler = heading.filler := by
  unfold Opening.filler filler opening
  cases h : heading.isRange with
  | true =>
    have hkind : heading.kind = .between := if_pos h
    rw [hkind, if_pos rfl, ← Range.refused_none]
    exact Clause.refused_between heading.position heading.keyword .none heading.body
  | false =>
    have hkind : heading.kind = .contains := if_neg (by simp [h])
    rw [hkind, if_neg (by simp), ← TypeChoice.refused_empty]
    exact Clause.refused_contains heading.position heading.keyword .empty heading.body

end Heading

namespace Registry

theorem read_standard (words : List String) :
    standard.openings 0 (standard.read words).steps =
        (headings 0 (words.map String.toLower)).map Heading.opening ∧
      bodyWords (standard.read words).steps =
        (words.map String.toLower).takeWhile fun word => !opensClause word := by
  have hlower : ∀ word ∈ words.map String.toLower, word.toLower = word :=
    fun _ => lower_of_mem_map_lower
  obtain ⟨hopenings, hbody, -⟩ := openings_standard _ hlower 0 none isStandard_none
  exact ⟨hopenings, hbody⟩

theorem clauses_standard (words : List String) :
    (standard.read words).clauses =
      (headings 0 (words.map String.toLower)).map fun heading => heading.opening.final := by
  obtain ⟨hopenings, -⟩ := read_standard words
  rw [read] at hopenings ⊢
  rw [clauses_scan, hopenings, List.map_map]
  rfl

theorem constraints_standard (words : List String) :
    (standard.parseLenient words).constraints =
      (headings 0 (words.map String.toLower)).filterMap Heading.constraint? := by
  show (((standard.read words).clauses).filter Clause.isSatisfied).map Clause.constraint = _
  rw [clauses_standard, Heading.filter_isSatisfied]

theorem dropped_standard (words : List String) :
    (standard.parseLenient words).dropped =
      (headings 0 (words.map String.toLower)).filterMap Heading.dropped? := by
  show (((standard.read words).clauses).filter fun clause => !clause.isSatisfied).map
    Clause.toDropped = _
  rw [clauses_standard, Heading.filter_not_isSatisfied]

theorem discarded_standard (words : List String) :
    (standard.parseLenient words).discarded = (outline (words.map String.toLower)).discarded := by
  obtain ⟨hopenings, hbody⟩ := read_standard words
  show (standard.read words).discarded = _
  rw [read] at hopenings hbody ⊢
  rw [discarded_scan, hopenings, leftover, hbody, List.flatMap_map]
  simp only [Heading.filler_opening]
  rfl

/-- **Reading a declaration is reading its outline.** Over the standard registry the one pass that
carries an open clause along, and asks it before the registry, says of any words what their outline
says: the same constraints, dropped clauses and filler, in the same order. -/
theorem parseLenient_eq_outline (words : List String) :
    standard.parseLenient words = outline (words.map String.toLower) := by
  have hconstraints := constraints_standard words
  have hdropped := dropped_standard words
  have hdiscarded := discarded_standard words
  cases h : standard.parseLenient words with
  | mk constraints dropped discarded =>
    rw [h] at hconstraints hdropped hdiscarded
    rw [outline, ← hconstraints, ← hdropped]
    exact congrArg _ hdiscarded

example :
    (outline ["with", "integers", "and", "floats", "x", "between", "9", "to", "3"]).discarded =
      ["and", "x", "to"] := by
  decide +kernel

end Registry

end NameGuard
