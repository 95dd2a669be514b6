import NameGuard.Proofs.Declaration.Cut

/-!
# A declaration that grows

Words that are appended to a declaration are read after all others. What is written down by then
stays as it is: the filler, and each clause that a later keyword has closed. Only the clause of the
last keyword is still open. It is offered the new words up to the next keyword, so that it may be
kept where it would have been dropped, or the other way round.

* `Registry.getLast?_opened` — the clause that reading leaves open is that of the last keyword;
* `Registry.settled`, `Registry.opened_eq_settled_append` — the clauses before it;
* `Registry.opened_append`, `Registry.clauses_readAfter` — the clauses of the longer declaration;
* `Registry.parseLenient_prefix_stable` — the filler, the constraints and the records that stay.
-/

set_option autoImplicit false

namespace NameGuard

namespace Registry

/-! ## The clause that is left open -/

/-- Once a clause is open, there is one to the end. -/
theorem isSome_last_scan (registry : Registry) (words : List String) :
    ∀ (position : Nat) (current : Option Clause), current.isSome = true →
      (registry.scan position current words).last.isSome = true := by
  induction words with
  | nil =>
    intro position current h
    exact h
  | cons word rest ih =>
    intro position current h
    rcases registry.advance_cases position current word with
      ⟨clause, -, -, hstep⟩ | ⟨-, kind, -, hstep⟩ | ⟨-, -, hstep⟩
    · rw [scan_cons hstep]
      exact ih (position + 1) _ rfl
    · rw [scan_cons hstep]
      exact ih (position + 1) _ rfl
    · rw [scan_cons hstep]
      exact ih (position + 1) _ (by rwa [Option.isSome_map])

/-- The last clause of a reading is the one that is left open: where a keyword closes a clause, it
opens another. -/
theorem getLast?_clauses_scan (registry : Registry) (words : List String) :
    ∀ (position : Nat) (current : Option Clause),
      (registry.scan position current words).clauses.getLast? =
        (registry.scan position current words).last := by
  induction words with
  | nil =>
    intro position current
    cases current <;> rfl
  | cons word rest ih =>
    intro position current
    rcases registry.advance_cases position current word with
      ⟨clause, -, -, hstep⟩ | ⟨-, kind, -, hstep⟩ | ⟨-, -, hstep⟩
    · rw [scan_cons hstep, clauses_cons, List.getLast?_append, ih]
      exact Option.or_none
    · obtain ⟨last, hlast⟩ := Option.isSome_iff_exists.mp
        (registry.isSome_last_scan rest (position + 1) (some ⟨position, kind.instantiate word⟩) rfl)
      rw [scan_cons hstep, clauses_cons, List.getLast?_append, ih, hlast]
      exact Option.some_or
    · rw [scan_cons hstep, clauses_cons, List.getLast?_append, ih]
      exact Option.or_none

theorem getLast?_opened (registry : Registry) (words : List String) :
    (registry.opened words).getLast? = (registry.read words).last := by
  rw [← clauses_read]
  exact registry.getLast?_clauses_scan _ _ _

/-- The clause that is left open stands at the last keyword. -/
theorem position_last_read (registry : Registry) (words : List String) :
    (registry.read words).last.map Clause.position =
      ((registry.roles words).findIdxs Role.isKeyword).getLast? := by
  rw [← map_position_opened, List.getLast?_map, getLast?_opened]

/-! ## The clauses that are closed -/

/-- The clauses that are closed before the end of a declaration: all that its keywords open, but for
the last. -/
def settled (registry : Registry) (words : List String) : List Clause :=
  (registry.opened words).dropLast

theorem opened_eq_settled_append (registry : Registry) (words : List String) :
    registry.opened words = registry.settled words ++ (registry.read words).last.toList := by
  rw [← getLast?_opened, settled]
  cases h : (registry.opened words).getLast? with
  | none =>
    rw [List.getLast?_eq_none_iff.mp h]
    rfl
  | some clause => exact (List.dropLast_append_getLast? clause h).symm

theorem filterMap_closed_read (registry : Registry) (words : List String) :
    (registry.read words).steps.filterMap Step.closed = registry.settled words := by
  have hclauses := registry.opened_eq_settled_append words
  rw [← clauses_read] at hclauses
  exact List.append_cancel_right hclauses

/-! ## More words -/

theorem discarded_append (registry : Registry) (xs ys : List String) :
    (registry.parseLenient (xs ++ ys)).discarded =
      (registry.parseLenient xs).discarded ++ (registry.readAfter xs ys).discarded := by
  show (registry.read (xs ++ ys)).discarded = _
  rw [read_append, Reading.discarded, List.filterMap_append]
  rfl

theorem opened_append (registry : Registry) (xs ys : List String) :
    registry.opened (xs ++ ys) = registry.settled xs ++ (registry.readAfter xs ys).clauses := by
  rw [← clauses_read, read_append, Reading.clauses, List.filterMap_append, filterMap_closed_read,
    List.append_assoc]
  rfl

/-- The clause that is open is offered the words that follow, up to the next keyword and with it.
All other clauses stand at keywords among these words. -/
theorem clauses_readAfter (registry : Registry) (xs ys : List String) :
    ∃ offered later, offered <+: ys.map String.toLower ∧
      (registry.readAfter xs ys).clauses =
        ((registry.read xs).last.map fun clause => feed Clause.offer clause offered).toList ++
          later ∧
      ∀ clause ∈ later, xs.length ≤ clause.position := by
  have hwords : (registry.readAfter xs ys).steps.map Step.word = ys.map String.toLower :=
    registry.map_word_steps_scan _ _ _
  refine ⟨bodyWords (registry.readAfter xs ys).steps ++
      (closingWord? (registry.readAfter xs ys).steps).toList,
    (registry.openings xs.length (registry.readAfter xs ys).steps).map Opening.final,
    ?_, registry.clauses_scan _ _ _, ?_⟩
  · rw [bodyWords_append_closingWord?, hwords]
    exact List.take_prefix _ _
  · intro clause hclause
    obtain ⟨opening, hopening, rfl⟩ := List.mem_map.mp hclause
    obtain ⟨i, step, kind, -, -, hfresh, -⟩ := mem_openings hopening
    rw [position_final, hfresh]
    exact Nat.le_add_right _ _

/-! ## What stays -/

/-- **Words that are appended change the lot of the last clause only.** The filler stays, and more
may follow it. Every clause but that of the last keyword is kept or dropped as it was, and so the
constraints and the records of these clauses stay at the front in their order, as they were; at most
one constraint or record, that of the last keyword, may go. Its clause is offered some of the new
words, and every other clause of the longer declaration stands among the new words. -/
theorem parseLenient_prefix_stable (registry : Registry) (xs ys : List String) :
    (registry.parseLenient xs).discarded <+: (registry.parseLenient (xs ++ ys)).discarded ∧
    registry.opened xs = registry.settled xs ++ (registry.read xs).last.toList ∧
    (registry.read xs).last.map Clause.position =
      ((registry.roles xs).findIdxs Role.isKeyword).getLast? ∧
    (registry.parseLenient xs).constraints =
      Clause.kept (registry.settled xs) ++ Clause.kept (registry.read xs).last.toList ∧
    (registry.parseLenient xs).dropped =
      Clause.incomplete (registry.settled xs) ++
        Clause.incomplete (registry.read xs).last.toList ∧
    (Clause.kept (registry.read xs).last.toList).length +
      (Clause.incomplete (registry.read xs).last.toList).length ≤ 1 ∧
    Clause.kept (registry.settled xs) <+: (registry.parseLenient (xs ++ ys)).constraints ∧
    Clause.incomplete (registry.settled xs) <+: (registry.parseLenient (xs ++ ys)).dropped ∧
    ∃ offered later, offered <+: ys.map String.toLower ∧
      registry.opened (xs ++ ys) =
        registry.settled xs ++
          (((registry.read xs).last.map fun clause => feed Clause.offer clause offered).toList ++
            later) ∧
      ∀ clause ∈ later, xs.length ≤ clause.position := by
  have hkept : ∀ words, (registry.parseLenient words).constraints =
      Clause.kept (registry.opened words) := fun words => (registry.parseLenient_opened words).1
  have hincomplete : ∀ words, (registry.parseLenient words).dropped =
      Clause.incomplete (registry.opened words) := fun words => (registry.parseLenient_opened words).2
  have hlast : (Clause.kept (registry.read xs).last.toList).length +
      (Clause.incomplete (registry.read xs).last.toList).length =
        (registry.read xs).last.toList.length :=
    length_constraints_add_length_dropped ⟨[], (registry.read xs).last⟩
  obtain ⟨offered, later, hoffered, hclauses, hlater⟩ := registry.clauses_readAfter xs ys
  refine ⟨?_, registry.opened_eq_settled_append xs, registry.position_last_read xs, ?_, ?_, ?_, ?_,
    ?_, offered, later, hoffered, ?_, hlater⟩
  · rw [discarded_append]
    exact List.prefix_append _ _
  · rw [hkept, opened_eq_settled_append, Clause.kept_append]
  · rw [hincomplete, opened_eq_settled_append, Clause.incomplete_append]
  · rw [hlast]
    cases (registry.read xs).last <;> simp
  · rw [hkept, opened_append, Clause.kept_append]
    exact List.prefix_append _ _
  · rw [hincomplete, opened_append, Clause.incomplete_append]
    exact List.prefix_append _ _
  · rw [opened_append, hclauses]

end Registry

end NameGuard
