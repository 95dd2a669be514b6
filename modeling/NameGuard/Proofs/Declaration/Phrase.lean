import Mathlib.Data.List.Forall2
import NameGuard.Proofs.Constraint.Likeness
import NameGuard.Proofs.Declaration.Piece

/-!
# Phrases

A phrase is a keyword with the words after it, none of which is a keyword. Phrases that stand one
after the other do not touch each other: what a phrase lacks is not taken from the next one, and
what it does not take is not given to the next one. Each declares what it declares on its own.

* `Registry.isPhrase` — whether some words are a phrase;
* `Heading.SamePiece` — headings with the same keyword and the same words up to the next one;
* `headings_flatten` — the headings of phrases in a row are those of the phrases;
* `Registry.constraints_flatten` — so are the constraints.
-/

set_option autoImplicit false

namespace NameGuard

/-- Whether some words are a keyword and then no other one. -/
def Registry.isPhrase (registry : Registry) : List String → Bool
  | [] => false
  | first :: rest => registry.isKeyword first && rest.all fun word => !registry.isKeyword word

/-! ## Headings -/

namespace Heading

/-- Whether two headings have the same keyword, and the same words up to the next one. -/
structure SamePiece (first second : Heading) : Prop where
  keyword : first.keyword = second.keyword
  body : first.body = second.body

/-- What a piece declares hangs on its keyword and its words. Only whether its list of tags has been
closed hangs on what comes next, and that does not show. -/
theorem SamePiece.constraint? {first second : Heading} (h : first.SamePiece second) :
    Option.Rel Constraint.Agrees first.constraint? second.constraint? := by
  have hrange : first.isRange = second.isRange := congrArg Range.keywords.contains h.keyword
  have hbounds : first.bounds = second.bounds := by rw [bounds, bounds, h.body]
  have htags : first.tags = second.tags := congrArg TypeChoice.listedTags h.body
  unfold Heading.constraint?
  rw [hrange, hbounds, htags, h.keyword]
  split
  · split
    · exact .some (.refl _)
    · exact .none
  · split
    · exact .none
    · exact .some (Constraint.agrees_of_args (Kind.mem_standard_iff.mpr (.inr rfl)) rfl rfl)

end Heading

/-! ## Phrases in a row -/

theorem isPhrase_standard_iff (phrase : List String) :
    Registry.standard.isPhrase phrase = true ↔ IsPiece (phrase.map String.toLower) := by
  cases phrase with
  | nil => simp [Registry.isPhrase, IsPiece]
  | cons first rest => simp [Registry.isPhrase, IsPiece, Registry.isKeyword_standard]

/-- After the words of a phrase comes the keyword of the next one. -/
theorem takeWhile_flatten {pieces : List (List String)} (h : ∀ words ∈ pieces, IsPiece words) :
    pieces.flatten.takeWhile (fun word => !opensClause word) = [] := by
  cases pieces with
  | nil => rfl
  | cons words rest =>
    obtain ⟨keyword, body, rfl, hopens, -⟩ := h words List.mem_cons_self
    rw [List.flatten_cons, List.cons_append, List.takeWhile_cons_of_neg (by simp [hopens])]

/-- The headings of phrases that stand in a row are those that each phrase has on its own. -/
theorem headings_flatten {pieces : List (List String)} (h : ∀ words ∈ pieces, IsPiece words) :
    ∀ position, List.Forall₂ Heading.SamePiece (headings position pieces.flatten)
      (pieces.flatMap (headings 0)) := by
  -- A phrase ends where the next one begins with its keyword, so that only its place is another.
  induction pieces with
  | nil => intro position; exact .nil
  | cons words rest ih =>
    intro position
    have hrest : ∀ words ∈ rest, IsPiece words := fun words hwords =>
      h words (List.mem_cons_of_mem _ hwords)
    obtain ⟨keyword, body, rfl, hopens, hbody⟩ := h words List.mem_cons_self
    have hrow : headings position (keyword :: body ++ rest.flatten) =
        ⟨position, keyword, body ++ rest.flatten⟩ ::
          headings (position + 1 + body.length) rest.flatten := by
      rw [List.cons_append, headings, if_pos hopens, headings_append hbody]
    have hkept : Heading.body ⟨position, keyword, body ++ rest.flatten⟩ = body := by
      rw [Heading.body, List.takeWhile_append_of_pos fun word h => by simp [hbody word h],
        takeWhile_flatten hrest, List.append_nil]
    rw [List.flatten_cons, List.flatMap_cons, hrow, headings_piece hopens hbody]
    exact .cons ⟨rfl, hkept.trans (Heading.body_of_piece hbody 0 keyword).symm⟩ (ih hrest _)

namespace Registry

/-- Phrases that stand in a row declare one after the other what each declares on its own. -/
theorem constraints_flatten {phrases : List (List String)}
    (h : ∀ phrase ∈ phrases, standard.isPhrase phrase = true) :
    List.Forall₂ Constraint.Agrees (standard.parseLenient phrases.flatten).constraints
      (phrases.flatMap fun phrase => (standard.parseLenient phrase).constraints) := by
  have hpieces : ∀ words ∈ phrases.map (List.map String.toLower), IsPiece words := by
    intro words hwords
    obtain ⟨phrase, hphrase, rfl⟩ := List.mem_map.mp hwords
    exact (isPhrase_standard_iff phrase).mp (h phrase hphrase)
  have halone : (phrases.flatMap fun phrase => (standard.parseLenient phrase).constraints) =
      ((phrases.map (List.map String.toLower)).flatMap (headings 0)).filterMap
        Heading.constraint? := by
    rw [List.flatMap_map, List.filterMap_flatMap]
    exact List.flatMap_congr fun phrase _ => constraints_standard phrase
  rw [constraints_standard, List.map_flatten, halone]
  refine List.rel_filterMap ?_ (headings_flatten hpieces 0)
  intro first second hsame
  exact hsame.constraint?

end Registry

end NameGuard
