import NameGuard.Proofs.Declaration.Phrase

/-!
# Descriptions as declarations

The description of a constraint is a phrase: its words declare the constraint again. So the
descriptions of all constraints of a declaration, one after the other, are a declaration of the same
constraints. Of ranges this holds where the bounds are integers, for these are written in full.

* `spacedWords` — the words of a text that spaces stand between;
* `Range.spacedWords_describe`, `TypeChoice.spacedWords_describe` — the words of a description;
* `Constraint.ReadsBack` — whether a description is a phrase that declares the constraint again;
* `parseConstraints_describe` — descriptions declare what they describe.
-/

set_option autoImplicit false

namespace NameGuard

/-! ## The words of a description -/

/-- The words of a text, cut at every space. -/
def spacedWords (text : String) : List String :=
  (text.split ' ').toList.map fun word => word.copy

theorem spacedWords_intercalate {words : List String} (hne : words ≠ [])
    (h : ∀ word ∈ words, ' ' ∉ word.toList) : spacedWords (" ".intercalate words) = words :=
  (String.toList_split_intercalate h).trans (if_neg hne)

/-- Words with `or` between them, and spaces around it. -/
theorem intercalate_intersperse (words : List String) :
    " ".intercalate (words.intersperse "or") = " or ".intercalate words := by
  match words with
  | [] => rfl
  | [word] => simp
  | word :: next :: rest =>
    have hor : " or " = " " ++ "or" ++ " " := by decide +kernel
    have hne : (next :: rest).intersperse "or" ≠ [] := by cases rest <;> simp
    rw [List.intersperse_cons_cons, String.intercalate_cons_cons,
      String.intercalate_cons_of_ne_nil hne, intercalate_intersperse (next :: rest),
      String.intercalate_cons_cons, hor]
    simp only [String.append_assoc]

theorem Range.spacedWords_describe (low high : Int64) :
    spacedWords (Range.both (.int low) (.int high)).describe = rangeWords low high := by
  have hdescribe : (Range.both (.int low) (.int high)).describe =
      " ".intercalate (rangeWords low high) := by
    show "between " ++ toString low ++ " and " ++ toString high = _
    rw [← String.toList_inj]
    simp [rangeWords]
  have hwords : ∀ word ∈ rangeWords low high, ' ' ∉ word.toList := by
    simp only [rangeWords, List.forall_mem_cons]
    exact ⟨by decide, Numeral.not_mem_text (by decide) (by decide) low.toInt, by decide,
      Numeral.not_mem_text (by decide) (by decide) high.toInt, by simp⟩
  rw [hdescribe]
  exact spacedWords_intercalate (List.cons_ne_nil _ _) hwords

theorem TypeChoice.spacedWords_describe {tags : List TypeTag} (hne : tags ≠ []) (closed : Bool) :
    spacedWords (TypeChoice.of tags closed).describe = choiceWords tags := by
  have hdescribe : (TypeChoice.of tags closed).describe = " ".intercalate (choiceWords tags) := by
    have halternatives : (TypeChoice.of tags closed).alternatives =
        " or ".intercalate (tags.map TypeTag.name) := if_neg (by simpa using hne)
    rw [choiceWords, String.intercalate_cons_of_ne_nil (listing_ne_nil hne), listing,
      intercalate_intersperse, ← halternatives]
    rfl
  have hwords : ∀ word ∈ choiceWords tags, ' ' ∉ word.toList := by
    rw [choiceWords, List.forall_mem_cons]
    refine ⟨by decide, forall_mem_listing (by decide) (fun tag => ?_) tags⟩
    cases tag <;> decide
  rw [hdescribe]
  exact spacedWords_intercalate (List.cons_ne_nil _ _) hwords

/-! ## Reading a description -/

/-- Whether the description of a constraint is a phrase that declares the constraint again. -/
def Constraint.ReadsBack (c : Constraint) : Prop :=
  Registry.standard.isPhrase (spacedWords c.describe) = true ∧
    ∃ d, parseConstraints (spacedWords c.describe) = [d] ∧ d.Agrees c

theorem Range.readsBack (keyword : String) {low high : Int64}
    (h : (Number.int low).atMost (.int high) = true) :
    Constraint.ReadsBack ⟨.between, keyword, Range.both (.int low) (.int high)⟩ := by
  have hle : low ≤ high := (Number.atMost_int low high).mp h
  have hwords : spacedWords (Constraint.describe ⟨.between, keyword, Range.both (.int low)
      (.int high)⟩) = rangeWords low high := Range.spacedWords_describe low high
  have hmin : min low high = low := if_pos hle
  have hmax : max low high = high := if_pos hle
  have hread := Registry.constraints_rangeWords low high
  rw [hmin, hmax] at hread
  rw [Constraint.ReadsBack, hwords, isPhrase_standard_iff, map_lower_rangeWords]
  exact ⟨isPiece_rangeWords low high, _, hread,
    Constraint.agrees_of_args (Kind.mem_standard_iff.mpr (.inl rfl)) rfl rfl⟩

theorem TypeChoice.readsBack (keyword : String) {tags : List TypeTag} (closed : Bool)
    (hne : tags ≠ []) (hdistinct : tags.eraseDups = tags) :
    Constraint.ReadsBack ⟨.contains, keyword, TypeChoice.of tags closed⟩ := by
  have hwords : spacedWords (Constraint.describe ⟨.contains, keyword, TypeChoice.of tags closed⟩) =
      choiceWords tags := TypeChoice.spacedWords_describe hne closed
  rw [Constraint.ReadsBack, hwords, isPhrase_standard_iff, map_lower_choiceWords]
  exact ⟨isPiece_choiceWords tags, _, Registry.constraints_choiceWords hne hdistinct,
    Constraint.agrees_of_args (Kind.mem_standard_iff.mpr (.inr rfl)) rfl rfl⟩

/-- A declared constraint reads back, if it is no range with a bound that is not an integer. -/
theorem readsBack_of_mem_parseConstraints {words : List String} {c : Constraint}
    (hc : c ∈ parseConstraints words)
    (integral : c.name = "between" → ∀ a ∈ c.args, a.asInteger?.isSome = true) : c.ReadsBack := by
  rw [parseConstraints, Registry.constraints_standard] at hc
  obtain ⟨heading, -, hheading⟩ := List.mem_filterMap.mp hc
  rcases Heading.constraint?_cases hheading with
    ⟨low, high, rfl, hascends⟩ | ⟨tags, closed, rfl, hne, hdistinct⟩
  · have hbounds : ∀ a ∈ [Argument.ofNumber low, Argument.ofNumber high],
        a.asInteger?.isSome = true := integral rfl
    rw [List.forall_mem_cons, List.forall_mem_singleton] at hbounds
    cases low with
    | float x => cases hbounds.1
    | int low =>
      cases high with
      | float x => cases hbounds.2
      | int high => exact Range.readsBack heading.keyword hascends
  · exact TypeChoice.readsBack heading.keyword closed hne hdistinct

/-- Constraints that read back are declared again by their descriptions, one by one. -/
theorem forall₂_agrees_of_readsBack {constraints : List Constraint}
    (h : ∀ c ∈ constraints, c.ReadsBack) :
    List.Forall₂ Constraint.Agrees
      (constraints.flatMap fun c => parseConstraints (spacedWords c.describe)) constraints := by
  induction constraints with
  | nil => exact .nil
  | cons c rest ih =>
    obtain ⟨-, d, hd, hagrees⟩ := h c List.mem_cons_self
    rw [List.flatMap_cons, hd]
    exact .cons hagrees (ih fun c hc => h c (List.mem_cons_of_mem _ hc))

/-- **Descriptions declare what they describe.** Where every range has integers as bounds, the words
of all descriptions in a row declare as many constraints, which at each place are of the same kind
as the one described, have the same arguments and the same description, and admit the same values.
-/
theorem parseConstraints_describe (words : List String)
    (integral : ∀ c ∈ parseConstraints words,
      c.name = "between" → ∀ a ∈ c.args, a.asInteger?.isSome = true) :
    List.Forall₂ Constraint.Agrees
      (parseConstraints ((parseConstraints words).flatMap fun c => spacedWords c.describe))
      (parseConstraints words) := by
  have hreads : ∀ c ∈ parseConstraints words, c.ReadsBack := fun c hc =>
    readsBack_of_mem_parseConstraints hc (integral c hc)
  have hphrases : ∀ phrase ∈ (parseConstraints words).map fun c => spacedWords c.describe,
      Registry.standard.isPhrase phrase = true := by
    intro phrase hphrase
    obtain ⟨c, hc, rfl⟩ := List.mem_map.mp hphrase
    exact (hreads c hc).1
  have hrow := Registry.constraints_flatten hphrases
  rw [List.flatMap_map] at hrow
  exact Constraint.forall₂_agrees_trans hrow (forall₂_agrees_of_readsBack hreads)

/-- The description has the bounds in the other order, and leaves the filler out. -/
theorem parseConstraints_describe_descending :
    (parseConstraints ["between", "9", "-3", "x"]).map Constraint.describe =
      ["between -3 and 9"] ∧
    (∀ c ∈ parseConstraints ["between", "9", "-3", "x"],
      c.name = "between" → ∀ a ∈ c.args, a.asInteger?.isSome = true) ∧
    List.Forall₂ Constraint.Agrees
      (parseConstraints
        ((parseConstraints ["between", "9", "-3", "x"]).flatMap fun c => spacedWords c.describe))
      (parseConstraints ["between", "9", "-3", "x"]) := by
  have integral : ∀ c ∈ parseConstraints ["between", "9", "-3", "x"],
      c.name = "between" → ∀ a ∈ c.args, a.asInteger?.isSome = true := by
    decide +kernel
  exact ⟨by decide +kernel, integral, parseConstraints_describe _ integral⟩

end NameGuard
