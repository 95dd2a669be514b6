import NameGuard.Text.Case

/-!
# Words in lowercase

Lowering a word twice is lowering it once, so words in lowercase are those that lowering keeps. A
word without capitals is one of them.
-/

set_option autoImplicit false

namespace NameGuard

/-- Lowering goes character by character. -/
theorem toList_lower (word : String) : word.toLower.toList = word.toList.map Char.toLower :=
  String.toList_map

theorem lower_lower (word : String) : word.toLower.toLower = word.toLower := by
  have hlower : Char.toLower ∘ Char.toLower = Char.toLower := funext toLower_toLower
  rw [← String.toList_inj, toList_lower, toList_lower, List.map_map, hlower]

/-- Words that were lowered are in lowercase. -/
theorem lower_of_mem_map_lower {words : List String} {word : String}
    (h : word ∈ words.map String.toLower) : word.toLower = word := by
  obtain ⟨original, -, rfl⟩ := List.mem_map.mp h
  exact lower_lower original

theorem isUpper_iff (c : Char) : c.isUpper = true ↔ 'A' ≤ c ∧ c ≤ 'Z' := by
  unfold Char.isUpper
  rw [decide_eq_true_iff]
  rfl

theorem isLower_iff (c : Char) : c.isLower = true ↔ 'a' ≤ c ∧ c ≤ 'z' := by
  show (decide ('a'.val ≤ c.val) && decide (c.val ≤ 'z'.val)) = true ↔ _
  rw [Bool.and_eq_true, decide_eq_true_iff, decide_eq_true_iff]
  rfl

theorem isDigit_iff (c : Char) : c.isDigit = true ↔ '0' ≤ c ∧ c ≤ '9' := by
  show (decide ('0'.val ≤ c.val) && decide (c.val ≤ '9'.val)) = true ↔ _
  rw [Bool.and_eq_true, decide_eq_true_iff, decide_eq_true_iff]
  rfl

/-- Lowering keeps a word without capitals. -/
theorem lower_eq_self {word : String} (h : ∀ c ∈ word.toList, ¬('A' ≤ c ∧ c ≤ 'Z')) :
    word.toLower = word := by
  have hmap : word.toList.map Char.toLower = word.toList :=
    (List.map_congr_left fun c hc => dif_neg (h c hc)).trans (List.map_id _)
  rw [← String.toList_inj, toList_lower, hmap]

end NameGuard
