/-!
# Indices

An index says at which place of a list a word is found. It holds each word once; a word that is put
in again moves to its new place.

* `Index.find?`, `Index.words` — the place of a word, and all words;
* `Index.insert`, `Index.insertAll` — an index with more words;
* `Index.find?_insert`, `Index.find?_insertAll` — the word put in last counts.
-/

set_option autoImplicit false

namespace NameGuard

/-- A table from words to places, each word once. -/
structure Index where
  entries : List (String × Nat)
  nodup : (entries.map Prod.fst).Nodup

namespace Index

def empty : Index := ⟨[], .nil⟩

/-- The place of a word. -/
def find? (index : Index) (word : String) : Option Nat := index.entries.lookup word

def words (index : Index) : List String := index.entries.map Prod.fst

/-- The index with a word at a place, wherever the word was before. -/
def insert (index : Index) (word : String) (place : Nat) : Index where
  entries := (word, place) :: index.entries.filter fun entry => entry.1 != word
  nodup := by
    refine List.nodup_cons.mpr ⟨?_, index.nodup.sublist (List.filter_sublist.map Prod.fst)⟩
    intro h
    obtain ⟨entry, hentry, rfl⟩ := List.mem_map.mp h
    have hne := (List.mem_filter.mp hentry).2
    exact absurd rfl (bne_iff_ne.mp hne)

/-- The index with some words put in at their places, one after the other. -/
def insertAll (index : Index) (entries : List (String × Nat)) : Index :=
  entries.foldl (fun index entry => index.insert entry.1 entry.2) index

@[simp] theorem find?_empty (word : String) : empty.find? word = none := rfl

theorem isSome_find?_iff (index : Index) (word : String) :
    (index.find? word).isSome = true ↔ word ∈ index.words := by
  rw [find?, List.lookup_isSome_iff, words, List.mem_map]
  constructor
  · rintro ⟨entry, hentry, hword⟩
    exact ⟨entry, hentry, (beq_iff_eq.mp hword).symm⟩
  · rintro ⟨entry, hentry, rfl⟩
    exact ⟨entry, hentry, beq_self_eq_true _⟩

theorem lookup_filter_ne {word other : String} (h : other ≠ word) (entries : List (String × Nat)) :
    (entries.filter fun entry => entry.1 != word).lookup other = entries.lookup other := by
  induction entries with
  | nil => rfl
  | cons entry rest ih =>
    obtain ⟨w, place⟩ := entry
    by_cases hw : w = word
    · subst hw
      rw [List.filter_cons_of_neg (by simp), ih, List.lookup_cons, beq_eq_false_iff_ne.mpr h]
    · rw [List.filter_cons_of_pos (by simpa using hw), List.lookup_cons, List.lookup_cons, ih]

theorem find?_insert (index : Index) (word : String) (place : Nat) (other : String) :
    (index.insert word place).find? other =
      if other = word then some place else index.find? other := by
  show ((word, place) :: _).lookup other = _
  rw [List.lookup_cons]
  by_cases h : other = word
  · rw [if_pos h, beq_iff_eq.mpr h]
  · rw [if_neg h, beq_eq_false_iff_ne.mpr h]
    exact lookup_filter_ne h index.entries

/-- Of the places that a word is put in at, the last one counts. -/
theorem find?_insertAll (entries : List (String × Nat)) (word : String) :
    ∀ index : Index, (index.insertAll entries).find? word =
      (entries.reverse.lookup word).or (index.find? word) := by
  induction entries with
  | nil => intro index; rfl
  | cons entry rest ih =>
    intro index
    obtain ⟨w, place⟩ := entry
    have hcons : index.insertAll ((w, place) :: rest) = (index.insert w place).insertAll rest := rfl
    rw [hcons, ih, find?_insert, List.reverse_cons, List.lookup_append, Option.or_assoc,
      List.lookup_cons]
    by_cases h : word = w
    · rw [if_pos h, beq_iff_eq.mpr h, Option.some_or]
    · rw [if_neg h, beq_eq_false_iff_ne.mpr h, List.lookup_nil, Option.none_or]

end Index

end NameGuard
