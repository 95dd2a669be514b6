import Mathlib
import NameGuard.Proofs.Name.Tokenize

/-!
# The words of a text

A text is cut at its separators, and its words are the pieces that are not empty, in lowercase. So a
text that was put together at a separator has the words of its two parts, and the words of a text,
put together again, are the words of what they make. There is one exception. The pieces are lowered
after the text was cut, and a lowercase letter as the separator comes into a word by this where the
text has its capital.

* `not_mem_of_mem_splitOn` — no piece holds what it was cut at;
* `mem_tokenize_iff` — the words of a text by its pieces;
* `tokenize_append_separator` — the words of a text that was put together at a separator;
* `standsBetween_of_mem_tokenize` — a word can stand between separators again;
* `tokenize_exact` — cutting and putting together, over all texts and separators.
-/

set_option autoImplicit false

namespace NameGuard

/-! ## Pieces -/

theorem not_mem_of_mem_splitOn {separator : Char} {cs : List Char} :
    ∀ piece ∈ cs.splitOn separator, separator ∉ piece := by
  induction cs with
  | nil =>
    intro piece hpiece
    rw [List.splitOn_nil, List.mem_singleton] at hpiece
    rw [hpiece]
    exact List.not_mem_nil
  | cons c rest ih =>
    intro piece hpiece
    rw [List.splitOn_cons_eq_if_modifyHead] at hpiece
    split at hpiece
    · rcases List.mem_cons.mp hpiece with rfl | hrest
      · exact List.not_mem_nil
      · exact ih piece hrest
    -- the character goes before the first piece of the rest
    · rename_i hne
      obtain ⟨first, others, hsplit⟩ :=
        List.exists_cons_of_ne_nil (List.splitOn_ne_nil separator rest)
      rw [hsplit] at ih hpiece
      rw [List.modifyHead_cons] at hpiece
      rcases List.mem_cons.mp hpiece with rfl | hothers
      · have hfirst := ih first List.mem_cons_self
        intro hmem
        rcases List.mem_cons.mp hmem with rfl | hmem
        · exact hne (beq_self_eq_true _)
        · exact hfirst hmem
      · exact ih piece (List.mem_cons_of_mem _ hothers)

/-! ## Words -/

variable {separator : Char}

/-- The words of a text are its pieces that are not empty, in lowercase. -/
theorem mem_tokenize_iff {name word : String} :
    word ∈ tokenize separator name ↔
      ∃ piece ∈ name.toList.splitOn separator, piece ≠ [] ∧
        word.toList = piece.map Char.toLower := by
  have hword : ∀ piece : List Char,
      (String.ofList piece).toLower = word ↔ word.toList = piece.map Char.toLower := by
    intro piece
    rw [← String.toList_inj, toList_lower, String.toList_ofList, eq_comm]
  simp only [tokenize, List.mem_map, List.mem_filter, hword, Bool.not_eq_true',
    List.isEmpty_eq_false_iff, and_assoc]

/-- Cutting at a separator cuts the two parts of a text by themselves. -/
theorem tokenize_append_separator (a b : String) :
    tokenize separator (a ++ String.singleton separator ++ b) =
      tokenize separator a ++ tokenize separator b := by
  have hsplit : (a.toList ++ separator :: b.toList).splitOn separator =
      a.toList.splitOn separator ++ b.toList.splitOn separator :=
    List.splitOnP_append_cons _ _ (beq_self_eq_true separator)
  unfold tokenize
  rw [String.toList_append, String.toList_append, String.toList_singleton, List.append_assoc,
    List.singleton_append, hsplit, List.filter_append, List.map_append]

/-- A text that is a single character is one word, unless that is the separator. -/
theorem tokenize_singleton {c : Char} (h : c ≠ separator) :
    tokenize separator (String.singleton c) = [String.singleton c.toLower] := by
  have hword : ∀ word ∈ [String.singleton c], word ≠ "" ∧ separator ∉ word.toList := by
    intro word hword
    obtain rfl := List.mem_singleton.mp hword
    exact ⟨by simp, by simpa using h.symm⟩
  have hlower : (String.singleton c).toLower = String.singleton c.toLower := by
    rw [← String.toList_inj, toList_lower, String.toList_singleton, String.toList_singleton,
      List.map_singleton]
  have hcut := tokenize_intercalate hword
  rwa [String.intercalate_singleton, List.map_singleton, hlower] at hcut

/-- A separator alone has no word. -/
theorem tokenize_singleton_separator :
    tokenize separator (String.singleton separator) = [] := by
  have happend := @tokenize_append_separator separator "" ""
  rwa [String.empty_append, String.append_empty] at happend

theorem ne_empty_of_mem_tokenize {name word : String} (h : word ∈ tokenize separator name) :
    word ≠ "" := by
  obtain ⟨piece, -, hne, hword⟩ := mem_tokenize_iff.mp h
  rintro rfl
  exact hne (List.map_eq_nil_iff.mp hword.symm)

/-- A word has no capitals. -/
theorem not_capital_of_mem_tokenize {name word : String} (h : word ∈ tokenize separator name) :
    ∀ c ∈ word.toList, ¬('A' ≤ c ∧ c ≤ 'Z') := by
  obtain ⟨piece, -, -, hword⟩ := mem_tokenize_iff.mp h
  intro c hc
  rw [hword] at hc
  obtain ⟨original, -, rfl⟩ := List.mem_map.mp hc
  rw [← isUpper_iff, Char.isUpper_toLower_eq_false]
  exact Bool.false_ne_true

/-- Lowering keeps a character, or gives a lowercase letter. -/
theorem toLower_eq_self_or_isLower (c : Char) : c.toLower = c ∨ c.toLower.isLower = true := by
  cases hupper : c.isUpper with
  | false => exact .inl (Char.toLower_eq_of_not_isUpper (by simp [hupper]))
  | true =>
    rw [Char.isLower_toLower_eq_isAlpha, Char.isAlpha, hupper]
    exact .inr rfl

/-- A word does not hold the separator, unless that is a lowercase letter. -/
theorem separator_not_mem_of_mem_tokenize (hseparator : ¬('a' ≤ separator ∧ separator ≤ 'z'))
    {name word : String} (h : word ∈ tokenize separator name) : separator ∉ word.toList := by
  obtain ⟨piece, hpiece, -, hword⟩ := mem_tokenize_iff.mp h
  rw [hword]
  intro hmem
  obtain ⟨original, horiginal, heq⟩ := List.mem_map.mp hmem
  rcases toLower_eq_self_or_isLower original with hself | hlower
  · apply not_mem_of_mem_splitOn piece hpiece
    rwa [← heq, hself]
  · rw [heq, isLower_iff] at hlower
    exact hseparator hlower

/-- Unless the separator is a lowercase letter, the words of a text can stand between separators. -/
theorem standsBetween_of_mem_tokenize (hseparator : ¬('a' ≤ separator ∧ separator ≤ 'z'))
    {name word : String} (h : word ∈ tokenize separator name) : StandsBetween separator word :=
  ⟨ne_empty_of_mem_tokenize h, separator_not_mem_of_mem_tokenize hseparator h,
    not_capital_of_mem_tokenize h⟩

/-- The capital of a letter is a word, and the word is the letter, also where the text is cut at
it. -/
theorem tokenize_singleton_toUpper (h : 'a' ≤ separator ∧ separator ≤ 'z') :
    tokenize separator (String.singleton separator.toUpper) = [String.singleton separator] := by
  have hlower : separator.isLower = true := (isLower_iff separator).mpr h
  have hne : separator.toUpper ≠ separator := by
    intro heq
    have hupper := Char.isLower_toUpper_eq_false separator
    rw [heq, hlower] at hupper
    cases hupper
  have hself : separator.toLower = separator :=
    Char.toLower_eq_of_not_isUpper (Char.not_isUpper_of_isLower hlower)
  rw [tokenize_singleton hne, Char.toLower_toUpper_eq_toLower, hself]

/-! ## Cutting and putting together -/

/-- **Cutting takes back what put words together, and cutting again changes nothing.** A text that
was put together at a separator has the words of its first part and then those of its second. No
word is empty or has a capital. Plain words that are put together are the words of what they make.
The words of any text hold no separator, and are the words of what they make when they are put
together again, exactly if the separator is no lowercase letter. -/
theorem tokenize_exact (separator : Char) :
    (∀ a b : String, tokenize separator (a ++ String.singleton separator ++ b) =
      tokenize separator a ++ tokenize separator b) ∧
    (∀ name : String, ∀ word ∈ tokenize separator name,
      word ≠ "" ∧ ∀ c ∈ word.toList, ¬('A' ≤ c ∧ c ≤ 'Z')) ∧
    (∀ words : List String,
      (∀ word ∈ words, word ≠ "" ∧ separator ∉ word.toList ∧
        ∀ c ∈ word.toList, ¬('A' ≤ c ∧ c ≤ 'Z')) →
      tokenize separator ((String.singleton separator).intercalate words) = words) ∧
    (¬('a' ≤ separator ∧ separator ≤ 'z') ↔
      ∀ name : String, ∀ word ∈ tokenize separator name, separator ∉ word.toList) ∧
    (¬('a' ≤ separator ∧ separator ≤ 'z') ↔
      ∀ name : String,
        tokenize separator ((String.singleton separator).intercalate (tokenize separator name)) =
          tokenize separator name) := by
  refine ⟨tokenize_append_separator, fun name word h =>
    ⟨ne_empty_of_mem_tokenize h, not_capital_of_mem_tokenize h⟩,
    fun words h => tokenize_intercalate_of_standsBetween h, ⟨fun hseparator name word h =>
      separator_not_mem_of_mem_tokenize hseparator h, fun hfree hletter => ?_⟩,
    ⟨fun hseparator name => tokenize_intercalate_of_standsBetween fun word h =>
      standsBetween_of_mem_tokenize hseparator h, fun hback hletter => ?_⟩⟩
  · have hword := tokenize_singleton_toUpper hletter
    apply hfree (String.singleton separator.toUpper) (String.singleton separator)
    · rw [hword]
      exact List.mem_singleton_self _
    · rw [String.toList_singleton]
      exact List.mem_singleton_self _
  · have hagain := hback (String.singleton separator.toUpper)
    rw [tokenize_singleton_toUpper hletter, String.intercalate_singleton,
      tokenize_singleton_separator] at hagain
    cases hagain

/-- A capital as the separator: what is between its occurrences is lowered, and put together again
with the capital it is cut as before. -/
theorem tokenize_exact_capital :
    (∀ word ∈ ["é1", "zero"], word ≠ "" ∧ 'Z' ∉ word.toList ∧
      ∀ c ∈ word.toList, ¬('A' ≤ c ∧ c ≤ 'Z')) ∧
    tokenize 'Z' "é1Zzero" = ["é1", "zero"] ∧
    tokenize 'Z' ("Zé1ZZ" ++ "Z" ++ "ÉZzeroZ") = tokenize 'Z' "Zé1ZZ" ++ tokenize 'Z' "ÉZzeroZ" ∧
    tokenize 'Z' ((String.singleton 'Z').intercalate (tokenize 'Z' "ZZeroZZFIZZ")) =
      tokenize 'Z' "ZZeroZZFIZZ" := by
  have hwords : ∀ word ∈ ["é1", "zero"], word ≠ "" ∧ 'Z' ∉ word.toList ∧
      ∀ c ∈ word.toList, ¬('A' ≤ c ∧ c ≤ 'Z') := by
    simp only [List.forall_mem_cons]
    exact ⟨⟨by decide, by decide, by simp⟩, ⟨by decide, by decide, by simp⟩, by simp⟩
  obtain ⟨happend, -, hplain, -, hagain⟩ := tokenize_exact 'Z'
  exact ⟨hwords, hplain _ hwords, happend _ _, hagain.mp (by decide) _⟩

/-- The text `s` has no word when it is cut at `s`, but `S` has the word `s`. -/
example : tokenize 's' "S" = ["s"] ∧ tokenize 's' ("s".intercalate ["s"]) = [] := by
  decide +kernel

end NameGuard
