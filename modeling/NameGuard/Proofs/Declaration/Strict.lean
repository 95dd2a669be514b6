import NameGuard.Proofs.Declaration.Account

/-!
# Reading in strict mode

In strict mode a declaration with an incomplete clause is refused, and the error speaks of the first
record that was dropped. A clause is dropped when it is closed, which is later than its keyword; but
clauses are closed in the order in which they were opened. So the records stand in the order of
their places, and the error speaks of the incomplete clause whose keyword is the leftmost.

* `Registry.pairwise_position_opened`, `Registry.pairwise_position_dropped` — clauses and records
  stand in the order of their places;
* `Registry.IsFirstIncomplete` — the clause that a strict reading fails at;
* `Registry.mem_dropped` — what a record says of its clause, and of the words;
* `Registry.parse_strict_ok_iff`, `Registry.parse_strict_error_iff` — both outcomes of strict mode;
* `Registry.parse_exact` — reading in either mode;
* `Registry.IsFirstDropped`, `Registry.parse_eq_ok_iff`, `Registry.parse_eq_error_iff` — both
  outcomes in terms of what is dropped.
-/

set_option autoImplicit false

namespace NameGuard

/-- Whether a rule is satisfied by the number of its arguments alone, as is usual. -/
def Rule.CountsArguments (rule : Rule) : Prop :=
  ∀ s, rule.isSatisfied s = (rule.arity s).isSatisfiedBy (rule.args s).length

theorem Rule.CountsArguments.isSatisfied {c : Constraint} (h : c.kind.rule.CountsArguments) :
    c.isSatisfied = c.arity.isSatisfiedBy c.args.length :=
  h c.state

/-- What stands first in a list with ascending places is what stands leftmost. -/
theorem head?_eq_some_iff_of_ascends {α : Type*} (place : α → Nat) {items : List α}
    (ascends : items.Pairwise fun a b => place a < place b) (item : α) :
    items.head? = some item ↔ item ∈ items ∧ ∀ other ∈ items, place item ≤ place other := by
  cases items with
  | nil => simp
  | cons first rest =>
    have hlater : ∀ other ∈ rest, place first < place other :=
      fun other h => List.rel_of_pairwise_cons ascends h
    constructor
    · intro hhead
      cases hhead
      refine ⟨List.mem_cons_self, fun other hother => ?_⟩
      rcases List.mem_cons.mp hother with rfl | hrest
      · exact Nat.le_refl _
      · exact Nat.le_of_lt (hlater other hrest)
    · rintro ⟨hitem, hleftmost⟩
      rcases List.mem_cons.mp hitem with rfl | hrest
      · rfl
      · have hbefore := hlater item hrest
        have hnot := hleftmost first List.mem_cons_self
        omega

namespace Registry

/-! ## The order of clauses -/

theorem pairwise_position_opened (registry : Registry) (words : List String) :
    ((registry.opened words).map Clause.position).Pairwise (· < ·) := by
  rw [map_position_opened]
  exact List.pairwise_findIdxs

theorem pairwise_position_dropped (registry : Registry) (words : List String) :
    ((registry.parseLenient words).dropped.map Dropped.position).Pairwise (· < ·) := by
  obtain ⟨-, hdropped⟩ := registry.parseLenient_opened words
  have hsublist : ((registry.parseLenient words).dropped.map Dropped.position).Sublist
      ((registry.opened words).map Clause.position) := by
    rw [hdropped, List.map_map]
    exact List.filter_sublist.map Clause.position
  exact (registry.pairwise_position_opened words).sublist hsublist

/-- Whether a clause is the one, of those that are incomplete at their end, whose keyword is the
leftmost. -/
structure IsFirstIncomplete (registry : Registry) (words : List String) (clause : Clause) :
    Prop where
  opened : clause ∈ registry.opened words
  incomplete : clause.isSatisfied = false
  leftmost : ∀ other ∈ registry.opened words, other.isSatisfied = false →
    clause.position ≤ other.position

/-- The first of the incomplete clauses in the order of their opening is the leftmost. -/
theorem isFirstIncomplete_iff (registry : Registry) (words : List String) (clause : Clause) :
    registry.IsFirstIncomplete words clause ↔
      ((registry.opened words).filter fun clause => !clause.isSatisfied).head? = some clause := by
  have hascends : ((registry.opened words).filter fun clause => !clause.isSatisfied).Pairwise
      fun a b => a.position < b.position :=
    (List.pairwise_map.mp (registry.pairwise_position_opened words)).filter _
  rw [head?_eq_some_iff_of_ascends Clause.position hascends]
  simp only [List.mem_filter, Bool.not_eq_true', and_imp]
  constructor
  · intro h
    exact ⟨⟨h.opened, h.incomplete⟩, h.leftmost⟩
  · rintro ⟨⟨opened, incomplete⟩, leftmost⟩
    exact ⟨opened, incomplete, leftmost⟩

/-! ## Records -/

/-- The record of a clause that was dropped: where its keyword stands among the words, which kind
the keyword selects, and what the clause had when it was closed. -/
theorem mem_dropped {registry : Registry} {words : List String} {dropped : Dropped}
    (h : dropped ∈ (registry.parseLenient words).dropped) :
    ∃ word kind clause, words[dropped.position]? = some word ∧ word.toLower = dropped.keyword ∧
      registry.lookup dropped.keyword = some kind ∧ kind.name = dropped.kind ∧
      clause ∈ registry.opened words ∧ clause.constraint.kind = kind ∧
      clause.isSatisfied = false ∧ dropped = clause.toDropped := by
  obtain ⟨-, hdropped⟩ := registry.parseLenient_opened words
  rw [hdropped] at h
  obtain ⟨clause, hclause, rfl⟩ := List.mem_map.mp h
  obtain ⟨hopened, hincomplete⟩ := List.mem_filter.mp hclause
  obtain ⟨word, hword, hkeyword⟩ := keyword_of_mem_opened hopened
  exact ⟨word, clause.constraint.kind, clause, hword, hkeyword, lookup_of_mem_opened hopened, rfl,
    hopened, rfl, by simpa using hincomplete, rfl⟩

/-! ## The two outcomes -/

theorem parse_strict_of_nil {registry : Registry} {words : List String}
    (h : (registry.parseLenient words).dropped = []) :
    registry.parse true words = .ok (registry.parseLenient words) := by
  simp [parse, h]

theorem parse_strict_of_cons {registry : Registry} {words : List String} {dropped : Dropped}
    {rest : List Dropped} (h : (registry.parseLenient words).dropped = dropped :: rest) :
    registry.parse true words = .error dropped.error := by
  simp [parse, h]

theorem parse_strict_ok_iff (registry : Registry) (words : List String)
    (declaration : Declaration) :
    registry.parse true words = .ok declaration ↔
      (registry.parseLenient words).dropped = [] ∧ declaration = registry.parseLenient words := by
  cases h : (registry.parseLenient words).dropped with
  | nil =>
    rw [parse_strict_of_nil h]
    simp [eq_comm]
  | cons dropped rest =>
    rw [parse_strict_of_cons h]
    simp

theorem parse_strict_error_iff (registry : Registry) (words : List String) (error : ParseError) :
    registry.parse true words = .error error ↔
      ∃ clause, registry.IsFirstIncomplete words clause ∧ error = clause.toDropped.error := by
  obtain ⟨-, hdropped⟩ := registry.parseLenient_opened words
  simp only [isFirstIncomplete_iff]
  cases h : (registry.opened words).filter fun clause => !clause.isSatisfied with
  | nil =>
    rw [h] at hdropped
    rw [parse_strict_of_nil hdropped]
    simp
  | cons first rest =>
    rw [h] at hdropped
    rw [parse_strict_of_cons hdropped]
    simp [eq_comm]

/-! ## The first record -/

/-- Whether a record is the one, of those that are dropped, whose keyword is the leftmost. -/
structure IsFirstDropped (registry : Registry) (words : List String)
    (dropped : Dropped) : Prop where
  member : dropped ∈ (registry.parseLenient words).dropped
  leftmost : ∀ other ∈ (registry.parseLenient words).dropped, dropped.position ≤ other.position

/-- The records stand in the order of their places, so the leftmost comes first. -/
theorem isFirstDropped_iff (registry : Registry) (words : List String) (dropped : Dropped) :
    registry.IsFirstDropped words dropped ↔
      (registry.parseLenient words).dropped.head? = some dropped := by
  rw [head?_eq_some_iff_of_ascends Dropped.position
    (List.pairwise_map.mp (registry.pairwise_position_dropped words))]
  exact ⟨fun h => ⟨h.member, h.leftmost⟩, fun ⟨member, leftmost⟩ => ⟨member, leftmost⟩⟩

theorem exists_isFirstDropped_iff (registry : Registry) (words : List String) :
    (∃ dropped, registry.IsFirstDropped words dropped) ↔
      (registry.parseLenient words).dropped ≠ [] := by
  simp only [isFirstDropped_iff]
  rw [← Option.isSome_iff_exists, List.isSome_head?]

theorem parse_eq_ok_iff (registry : Registry) (strict : Bool) (words : List String)
    (declaration : Declaration) :
    registry.parse strict words = .ok declaration ↔
      (strict = true → (registry.parseLenient words).dropped = []) ∧
        declaration = registry.parseLenient words := by
  cases strict with
  | false =>
    rw [parse_lenient_mode, Except.ok.injEq]
    simp [eq_comm (a := declaration)]
  | true => simp [parse_strict_ok_iff]

theorem parse_eq_error_iff (registry : Registry) (strict : Bool) (words : List String)
    (error : ParseError) :
    registry.parse strict words = .error error ↔
      strict = true ∧ ∃ dropped, registry.IsFirstDropped words dropped ∧ error = dropped.error := by
  simp only [isFirstDropped_iff]
  cases strict with
  | false => simp [parse_lenient_mode]
  | true =>
    cases hall : (registry.parseLenient words).dropped with
    | nil => simp [parse_strict_of_nil hall]
    | cons first rest => simp [parse_strict_of_cons hall, eq_comm]

/-- **Strict mode fails at the leftmost incomplete clause.** Whatever the kinds of a registry do, a
strict reading succeeds exactly when nothing is dropped, and then with what the lenient reading
says; otherwise the error describes the incomplete clause whose keyword stands leftmost. The records
of the dropped clauses stand in the order of their places; each names the keyword that stands at its
place, the kind that the keyword selects, and the arguments and the arity of its clause, which had
too few or too many of them if its rule goes by their number. A lenient reading never fails. -/
theorem parse_exact (registry : Registry) (words : List String) :
    (∀ declaration, registry.parse true words = .ok declaration ↔
      (registry.parseLenient words).dropped = [] ∧
        declaration = registry.parseLenient words) ∧
    (∀ error, registry.parse true words = .error error ↔
      ∃ clause, registry.IsFirstIncomplete words clause ∧
        error = .incomplete clause.constraint.keyword clause.position
          clause.constraint.args.length clause.constraint.arity) ∧
    ((registry.parseLenient words).dropped.map Dropped.position).Pairwise (· < ·) ∧
    (∀ dropped ∈ (registry.parseLenient words).dropped, ∃ word kind clause,
      words[dropped.position]? = some word ∧ word.toLower = dropped.keyword ∧
        registry.lookup dropped.keyword = some kind ∧ kind.name = dropped.kind ∧
        clause ∈ registry.opened words ∧ clause.position = dropped.position ∧
        clause.constraint.kind = kind ∧ dropped.args = clause.constraint.args ∧
        dropped.required = clause.constraint.arity ∧
        (kind.rule.CountsArguments →
          dropped.required.isSatisfiedBy dropped.args.length = false)) ∧
    registry.parse false words = .ok (registry.parseLenient words) := by
  refine ⟨registry.parse_strict_ok_iff words, registry.parse_strict_error_iff words,
    registry.pairwise_position_dropped words, ?_, registry.parse_lenient_mode words⟩
  intro dropped h
  obtain ⟨word, kind, clause, hword, hkeyword, hlookup, hname, hopened, rfl, hincomplete, rfl⟩ :=
    mem_dropped h
  refine ⟨word, _, clause, hword, hkeyword, hlookup, hname, hopened, rfl, rfl, rfl, rfl, ?_⟩
  intro counts
  exact counts.isSatisfied.symm.trans hincomplete

end Registry

end NameGuard
