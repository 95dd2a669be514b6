import NameGuard.Proofs.Name.Tokenize

/-!
# The grammar of names

A name is the word of a holder type, a linking word, and a declaration. Splitting a name gives these
parts exactly where its words are so, and otherwise finds the first fault: there is no word at all,
the first is no holder type, or no linking word follows it. Back again, every holder type and every
row of plain words make a name that is split into them.

* `Name.Spells` — the words that spell a name, in either form;
* `Name.spells_cons_iff` — a holder type, and what follows it, each by its own reader;
* `Name.ofWords?_cases` — the four outcomes of splitting words;
* `Name.Spells.split_intercalate` — words that spell a name, put together, are split into it;
* `Name.split_exact` — names and their faults, over all texts and separators.
-/

set_option autoImplicit false

namespace NameGuard

namespace HolderType

/-- A word names the holder type that is written so. -/
theorem ofWord?_eq_some_iff (word : String) (holder : HolderType) :
    ofWord? word = some holder ↔ word = holder.name := by
  constructor
  · intro h
    unfold ofWord? at h
    split at h <;> cases h <;> rfl
  · rintro rfl
    exact ofWord?_name holder

theorem ofWord?_eq_none_iff (word : String) :
    ofWord? word = none ↔ word ∉ ["scalar", "arrayref", "hashref"] := by
  unfold ofWord?
  split <;> simp_all

/-- The word of a holder type stands between separators that are no lowercase letters. -/
theorem standsBetween_name {separator : Char} (h : ¬('a' ≤ separator ∧ separator ≤ 'z'))
    (holder : HolderType) : StandsBetween separator holder.name := by
  cases holder <;> exact standsBetween_of_letters h (by decide) (by decide)

end HolderType

namespace Name

/-- The words of a name are the word of its holder type and those of its declaration, with `which`
between them where the linking word is `contains`. -/
inductive Spells : List String → Name → Prop
  | withLinked (holder : HolderType) (rest : List String) :
    Spells (holder.name :: "with" :: rest) ⟨holder, "with" :: rest⟩
  | containsLinked (holder : HolderType) (rest : List String) :
    Spells (holder.name :: "which" :: "contains" :: rest) ⟨holder, "contains" :: rest⟩

/-! ## Words -/

theorem spells_of_linked {rest declaration : List String} (h : linked? rest = some declaration)
    (holder : HolderType) : Spells (holder.name :: rest) ⟨holder, declaration⟩ := by
  unfold linked? at h
  split at h
  · cases h
    exact .withLinked holder _
  · cases h
    exact .containsLinked holder _
  · cases h

theorem spells_cons_iff (first : String) (rest : List String) (parts : Name) :
    Spells (first :: rest) parts ↔
      HolderType.ofWord? first = some parts.holder ∧ linked? rest = some parts.declaration := by
  constructor
  · rintro (⟨holder, rest⟩ | ⟨holder, rest⟩)
    · exact ⟨HolderType.ofWord?_name holder, rfl⟩
    · exact ⟨HolderType.ofWord?_name holder, rfl⟩
  · rintro ⟨hholder, hlinked⟩
    obtain rfl := (HolderType.ofWord?_eq_some_iff _ _).mp hholder
    exact spells_of_linked hlinked parts.holder

theorem spells_iff (words : List String) (holder : HolderType) (declaration : List String) :
    Spells words ⟨holder, declaration⟩ ↔
      (∃ rest, declaration = "with" :: rest ∧ words = holder.name :: declaration) ∨
      (∃ rest, declaration = "contains" :: rest ∧
        words = holder.name :: "which" :: declaration) := by
  constructor
  · rintro (⟨_, rest⟩ | ⟨_, rest⟩)
    · exact .inl ⟨rest, rfl, rfl⟩
    · exact .inr ⟨rest, rfl, rfl⟩
  · rintro (⟨rest, rfl, rfl⟩ | ⟨rest, rfl, rfl⟩)
    · exact .withLinked holder rest
    · exact .containsLinked holder rest

/-- What splitting makes of words, by their first word and by what follows it. -/
theorem ofWords?_cases (name : String) (words : List String) :
    (words = [] ∧ ofWords? name words = .error .empty) ∨
    (∃ first rest, words = first :: rest ∧ HolderType.ofWord? first = none ∧
      ofWords? name words = .error (.unknownHolderType name first)) ∨
    (∃ holder rest, words = HolderType.name holder :: rest ∧ linked? rest = none ∧
      ofWords? name words = .error (.missingLinker name)) ∨
    ∃ holder rest declaration, words = HolderType.name holder :: rest ∧
      linked? rest = some declaration ∧ ofWords? name words = .ok ⟨holder, declaration⟩ := by
  cases words with
  | nil => exact .inl ⟨rfl, rfl⟩
  | cons first rest =>
    cases hfirst : HolderType.ofWord? first with
    | none => exact .inr (.inl ⟨first, rest, rfl, hfirst, by simp [ofWords?, hfirst]⟩)
    | some holder =>
      obtain rfl := (HolderType.ofWord?_eq_some_iff _ _).mp hfirst
      cases hlinked : linked? rest with
      | none =>
        exact .inr (.inr (.inl ⟨holder, rest, rfl, hlinked, by simp [ofWords?, hfirst, hlinked]⟩))
      | some declaration =>
        exact .inr (.inr (.inr ⟨holder, rest, declaration, rfl, hlinked,
          by simp [ofWords?, hfirst, hlinked]⟩))

variable (name : String) (words : List String)

theorem ofWords?_eq_ok_iff (parts : Name) :
    ofWords? name words = .ok parts ↔ Spells words parts := by
  rcases ofWords?_cases name words with
    ⟨rfl, h⟩ | ⟨first, rest, rfl, hfirst, h⟩ | ⟨holder, rest, rfl, hlinked, h⟩ |
      ⟨holder, rest, declaration, rfl, hlinked, h⟩
  · rw [h]
    constructor <;> rintro ⟨⟩
  · simp [h, spells_cons_iff, hfirst]
  · simp [h, spells_cons_iff, hlinked]
  · obtain ⟨owner, words⟩ := parts
    rw [h, spells_cons_iff, HolderType.ofWord?_name, hlinked, Except.ok.injEq, Option.some.injEq,
      Option.some.injEq, Name.mk.injEq]

theorem ofWords?_eq_empty_iff : ofWords? name words = .error .empty ↔ words = [] := by
  rcases ofWords?_cases name words with
    ⟨rfl, h⟩ | ⟨first, rest, rfl, -, h⟩ | ⟨holder, rest, rfl, -, h⟩ |
      ⟨holder, rest, declaration, rfl, -, h⟩ <;> simp [h]

theorem ofWords?_eq_unknownHolderType_iff (about found : String) :
    ofWords? name words = .error (.unknownHolderType about found) ↔
      about = name ∧ words.head? = some found ∧ found ∉ ["scalar", "arrayref", "hashref"] := by
  simp only [← HolderType.ofWord?_eq_none_iff]
  rcases ofWords?_cases name words with
    ⟨rfl, h⟩ | ⟨first, rest, rfl, hfirst, h⟩ | ⟨holder, rest, rfl, -, h⟩ |
      ⟨holder, rest, declaration, rfl, -, h⟩
  · simp [h]
  · rw [h, List.head?_cons, Except.error.injEq, NameError.unknownHolderType.injEq,
      Option.some.injEq]
    constructor
    · rintro ⟨rfl, rfl⟩
      exact ⟨rfl, rfl, hfirst⟩
    · rintro ⟨rfl, rfl, -⟩
      exact ⟨rfl, rfl⟩
  · rw [h, List.head?_cons]
    simp only [Except.error.injEq, reduceCtorEq, Option.some.injEq, false_iff]
    rintro ⟨-, rfl, hnone⟩
    simp [HolderType.ofWord?_name] at hnone
  · rw [h, List.head?_cons]
    simp only [reduceCtorEq, Option.some.injEq, false_iff]
    rintro ⟨-, rfl, hnone⟩
    simp [HolderType.ofWord?_name] at hnone

/-- The linking word is missing where a holder type is followed by neither form. -/
theorem ofWords?_eq_missingLinker_iff (about : String) :
    ofWords? name words = .error (.missingLinker about) ↔
      about = name ∧ (∃ holder, words.head? = some (HolderType.name holder)) ∧
        ∀ parts, ¬ Spells words parts := by
  rcases ofWords?_cases name words with
    ⟨rfl, h⟩ | ⟨first, rest, rfl, hfirst, h⟩ | ⟨holder, rest, rfl, hlinked, h⟩ |
      ⟨holder, rest, declaration, rfl, hlinked, h⟩
  · simp [h]
  · rw [h, List.head?_cons]
    simp only [Except.error.injEq, reduceCtorEq, Option.some.injEq, false_iff]
    rintro ⟨-, ⟨holder, rfl⟩, -⟩
    simp [HolderType.ofWord?_name] at hfirst
  · rw [h, List.head?_cons]
    simp only [Except.error.injEq, NameError.missingLinker.injEq, spells_cons_iff, hlinked,
      reduceCtorEq, and_false, not_false_eq_true, implies_true, and_true]
    exact ⟨fun hname => ⟨hname.symm, holder, rfl⟩, fun hname => hname.1.symm⟩
  · rw [h]
    simp only [reduceCtorEq, false_iff]
    rintro ⟨-, -, hnone⟩
    exact hnone _ (spells_of_linked hlinked holder)

/-! ## Texts -/

/-- Words that spell a name, and can stand between separators, make a text that is split into the
name. -/
theorem Spells.split_intercalate {words : List String} {parts : Name} (h : Spells words parts)
    {separator : Char} (hwords : ∀ word ∈ words, StandsBetween separator word) :
    split separator ((String.singleton separator).intercalate words) = .ok parts := by
  rw [split, tokenize_intercalate_of_standsBetween hwords, ofWords?_eq_ok_iff]
  exact h

/-- **Names are what the grammar of names says.** A text is split into a holder type and the words
of a declaration exactly if its words are the word of that type and then those of the declaration,
the first of which is `with`; or the word of that type, `which`, and then those of the declaration,
the first of which is `contains`. It is empty if it has no word, it is of no holder type if the
first of its words names none, and that word is found; and in all other cases the linking word is
missing. Back again, with any separator that is no lowercase letter, plain words that are put
together in one of the two forms are split into just these parts. -/
theorem split_exact (separator : Char) (name : String) :
    (∀ holder declaration, split separator name = .ok ⟨holder, declaration⟩ ↔
      (∃ rest, declaration = "with" :: rest ∧
        tokenize separator name = holder.name :: declaration) ∨
      (∃ rest, declaration = "contains" :: rest ∧
        tokenize separator name = holder.name :: "which" :: declaration)) ∧
    (split separator name = .error .empty ↔ tokenize separator name = []) ∧
    (∀ about found, split separator name = .error (.unknownHolderType about found) ↔
      about = name ∧ (tokenize separator name).head? = some found ∧
        found ∉ ["scalar", "arrayref", "hashref"]) ∧
    (∀ about, split separator name = .error (.missingLinker about) ↔
      about = name ∧
        (∃ holder, (tokenize separator name).head? = some (HolderType.name holder)) ∧
        ∀ parts, split separator name ≠ .ok parts) ∧
    (¬('a' ≤ separator ∧ separator ≤ 'z') → ∀ (holder : HolderType) (words : List String),
      (∀ word ∈ words, word ≠ "" ∧ separator ∉ word.toList ∧
        ∀ c ∈ word.toList, ¬('A' ≤ c ∧ c ≤ 'Z')) →
      split separator
          ((String.singleton separator).intercalate (holder.name :: "with" :: words)) =
        .ok ⟨holder, "with" :: words⟩ ∧
      split separator
          ((String.singleton separator).intercalate
            (holder.name :: "which" :: "contains" :: words)) =
        .ok ⟨holder, "contains" :: words⟩) := by
  refine ⟨fun holder declaration => ?_, ofWords?_eq_empty_iff _ _,
    ofWords?_eq_unknownHolderType_iff _ _, fun about => ?_, fun hseparator holder words hwords => ?_⟩
  · rw [split, ofWords?_eq_ok_iff, spells_iff]
  · unfold split
    simp only [ne_eq, ofWords?_eq_ok_iff]
    exact ofWords?_eq_missingLinker_iff _ _ about
  · have hholder := HolderType.standsBetween_name hseparator holder
    have hwith : StandsBetween separator "with" :=
      standsBetween_of_letters hseparator (by decide) (by decide)
    have hwhich : StandsBetween separator "which" :=
      standsBetween_of_letters hseparator (by decide) (by decide)
    have hcontains : StandsBetween separator "contains" :=
      standsBetween_of_letters hseparator (by decide) (by decide)
    refine ⟨(Spells.withLinked holder words).split_intercalate ?_,
      (Spells.containsLinked holder words).split_intercalate ?_⟩
    · exact List.forall_mem_cons.mpr ⟨hholder, List.forall_mem_cons.mpr ⟨hwith, hwords⟩⟩
    · exact List.forall_mem_cons.mpr ⟨hholder, List.forall_mem_cons.mpr ⟨hwhich,
        List.forall_mem_cons.mpr ⟨hcontains, hwords⟩⟩⟩

/-- A capital as the separator: it is doubled, and lowering the words does not bring it back. -/
theorem split_exact_capital :
    split 'Z' "ZArrayRefZZwhichZcontainsZintegersZ" = .ok ⟨.arrayref, ["contains", "integers"]⟩ ∧
    ¬('a' ≤ 'Z' ∧ 'Z' ≤ 'z') ∧
    (∀ word ∈ ["zero", "1"], word ≠ "" ∧ 'Z' ∉ word.toList ∧
      ∀ c ∈ word.toList, ¬('A' ≤ c ∧ c ≤ 'Z')) ∧
    split 'Z' "scalarZwithZzeroZ1" = .ok ⟨.scalar, ["with", "zero", "1"]⟩ ∧
    split 'Z' "scalarZwhichZcontainsZzeroZ1" = .ok ⟨.scalar, ["contains", "zero", "1"]⟩ := by
  have hseparator : ¬('a' ≤ 'Z' ∧ 'Z' ≤ 'z') := by decide
  have hwords : ∀ word ∈ ["zero", "1"], word ≠ "" ∧ 'Z' ∉ word.toList ∧
      ∀ c ∈ word.toList, ¬('A' ≤ c ∧ c ≤ 'Z') := by
    simp only [List.forall_mem_cons]
    exact ⟨⟨by decide, by decide, by simp⟩, ⟨by decide, by decide, by simp⟩, by simp⟩
  obtain ⟨hok, -, -, -, hback⟩ := split_exact 'Z' "ZArrayRefZZwhichZcontainsZintegersZ"
  obtain ⟨hwith, hwhich⟩ := hback hseparator .scalar ["zero", "1"] hwords
  have htokens : tokenize 'Z' "ZArrayRefZZwhichZcontainsZintegersZ" =
      ["arrayref", "which", "contains", "integers"] := by decide +kernel
  exact ⟨(hok _ _).mpr (.inr ⟨_, rfl, htokens⟩), hseparator, hwords, hwith, hwhich⟩

end Name

end NameGuard
