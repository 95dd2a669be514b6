import NameGuard.Name
import NameGuard.Proofs.Text.Lowering

/-!
# Words put together to a name

Words that stand with separators between them are the words of what they make, as long as none of
them is empty or holds the separator.

* `tokenize_intercalate` — the words of a name that is put together;
* `StandsBetween` — the words that come back as they are;
* `tokenize_intercalate_of_standsBetween` — cutting takes back what put such words together.
-/

set_option autoImplicit false

namespace NameGuard

/-- Cutting a name into words takes back what put them together, up to the case of letters. -/
theorem tokenize_intercalate {separator : Char} {words : List String}
    (h : ∀ word ∈ words, word ≠ "" ∧ separator ∉ word.toList) :
    tokenize separator ((String.singleton separator).intercalate words) =
      words.map String.toLower := by
  have hsplit : words ≠ [] →
      ((String.singleton separator).intercalate words).toList.splitOn separator =
        words.map String.toList := by
    intro hne
    rw [String.toList_intercalate, String.toList_singleton]
    refine List.splitOn_intercalate separator (fun cs hcs => ?_) (by simpa using hne)
    obtain ⟨word, hword, rfl⟩ := List.mem_map.mp hcs
    exact (h word hword).2
  have hfilter : (words.map String.toList).filter (fun cs => !cs.isEmpty) =
      words.map String.toList := by
    refine List.filter_eq_self.mpr fun cs hcs => ?_
    obtain ⟨word, hword, rfl⟩ := List.mem_map.mp hcs
    simpa using (h word hword).1
  cases hwords : words with
  | nil => rfl
  | cons first rest =>
    rw [← hwords]
    unfold tokenize
    rw [hsplit (by simp [hwords]), hfilter, List.map_map]
    exact List.map_congr_left fun word _ => by simp

/-- Whether a word can stand between separators and be cut out again as it is: it is not empty, and
holds neither the separator nor a capital. -/
def StandsBetween (separator : Char) (word : String) : Prop :=
  word ≠ "" ∧ separator ∉ word.toList ∧ ∀ c ∈ word.toList, ¬('A' ≤ c ∧ c ≤ 'Z')

/-- A word of lowercase letters stands between separators that are no such letters. -/
theorem standsBetween_of_letters {separator : Char}
    (hseparator : ¬('a' ≤ separator ∧ separator ≤ 'z')) {word : String} (hne : word ≠ "")
    (h : word.toList.all Char.isLower = true) : StandsBetween separator word := by
  have hletters : ∀ c ∈ word.toList, 'a' ≤ c ∧ c ≤ 'z' := fun c hc =>
    (isLower_iff c).mp (List.all_eq_true.mp h c hc)
  refine ⟨hne, fun hmem => hseparator (hletters separator hmem), fun c hc hcapital => ?_⟩
  exact absurd (Char.le_trans (hletters c hc).1 hcapital.2) (by decide)

theorem tokenize_intercalate_of_standsBetween {separator : Char} {words : List String}
    (h : ∀ word ∈ words, StandsBetween separator word) :
    tokenize separator ((String.singleton separator).intercalate words) = words := by
  rw [tokenize_intercalate fun word hword => ⟨(h word hword).1, (h word hword).2.1⟩]
  exact (List.map_congr_left fun word hword => lower_eq_self (h word hword).2.2).trans
    (List.map_id words)

end NameGuard
