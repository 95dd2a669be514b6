import NameGuard.Holder

/-!
# Writing, asking and reporting agree

A holder judges a value in three ways: it stores the value or refuses it, it says yes or no, and it
reports every violation. Each of them goes through the constraints on its own.

* `Holder.mem_check_iff`, `Holder.indices_check` — what a report holds, and where it points;
* `Holder.write_of_accepts`, `Holder.write_of_not_accepts` — a write in terms of the verdict;
* `Holder.write_of_first_fault` — the constraint that turns a value away;
* `Holder.verdicts_agree` — the three judgements are one, and the report is exact.
-/

set_option autoImplicit false

namespace NameGuard

namespace Holder

/-! ## The report -/

theorem violationAt?_eq_some_iff (holder : Holder) (value : Value) (index : Nat) (c : Constraint)
    (v : Violation) :
    holder.violationAt? value index c = some v ↔
      c.validate value = false ∧
        v = ⟨holder.name, index, c.describe, value,
          (c.explain value).getD (dissatisfaction value c.describe)⟩ := by
  unfold violationAt?
  cases c.validate value with
  | true => simp
  | false => simp [eq_comm]

theorem mem_check_iff (holder : Holder) (value : Value) (v : Violation) :
    v ∈ (holder.check value).all ↔
      ∃ i c, holder.constraints[i]? = some c ∧ c.validate value = false ∧
        v = ⟨holder.name, i, c.describe, value,
          (c.explain value).getD (dissatisfaction value c.describe)⟩ := by
  simp only [check, List.mem_filterMap, violationAt?_eq_some_iff]
  constructor
  · rintro ⟨entry, hmem, hfails, rfl⟩
    exact ⟨entry.2, entry.1, List.mem_zipIdx_iff_getElem?.mp hmem, hfails, rfl⟩
  · rintro ⟨i, c, hget, hfails, rfl⟩
    exact ⟨(c, i), List.mem_zipIdx_iff_getElem?.mpr hget, hfails, rfl⟩

theorem indices_check (holder : Holder) (value : Value) :
    (holder.check value).indices =
      (holder.constraints.zipIdx.filter fun entry => !entry.1.validate value).map Prod.snd := by
  unfold Report.indices check
  rw [List.map_filterMap, ← List.filterMap_eq_map, List.filterMap_filter]
  congr 1
  funext entry
  unfold violationAt?
  cases entry.1.validate value <;> rfl

theorem pairwise_indices_check (holder : Holder) (value : Value) :
    (holder.check value).indices.Pairwise (· < ·) := by
  have hrange : (holder.constraints.zipIdx.map Prod.snd).Pairwise (· < ·) := by
    rw [List.zipIdx_map_snd]
    exact List.pairwise_lt_range'
  rw [indices_check]
  exact hrange.sublist (List.filter_sublist.map Prod.snd)

theorem mem_indices_check_iff (holder : Holder) (value : Value) (i : Nat) :
    i ∈ (holder.check value).indices ↔
      ∃ c, holder.constraints[i]? = some c ∧ c.validate value = false := by
  rw [indices_check]
  simp only [List.mem_map, List.mem_filter, Bool.not_eq_true']
  constructor
  · rintro ⟨entry, ⟨hmem, hfails⟩, rfl⟩
    exact ⟨entry.1, List.mem_zipIdx_iff_getElem?.mp hmem, hfails⟩
  · rintro ⟨c, hget, hfails⟩
    exact ⟨(c, i), ⟨List.mem_zipIdx_iff_getElem?.mpr hget, hfails⟩, rfl⟩

/-! ## The verdict -/

theorem accepts_iff (holder : Holder) (value : Value) :
    holder.accepts value = true ↔ ∀ c ∈ holder.constraints, c.validate value = true := by
  simp [accepts]

theorem isEmpty_check_iff (holder : Holder) (value : Value) :
    (holder.check value).isEmpty = true ↔ holder.accepts value = true := by
  have hnil : (holder.check value).isEmpty = true ↔
      ∀ entry ∈ holder.constraints.zipIdx, entry.1.validate value = true := by
    simp [Report.isEmpty, check, violationAt?_eq_none_iff]
  rw [hnil, accepts_iff]
  constructor
  · intro h c hc
    obtain ⟨i, hget⟩ := List.mem_iff_getElem?.mp hc
    exact h (c, i) (List.mem_zipIdx_iff_getElem?.mpr hget)
  · intro h entry hmem
    exact h entry.1 (List.fst_mem_of_mem_zipIdx hmem)

/-- A value that every constraint admits is stored. -/
theorem write_of_accepts {holder : Holder} {value : Value} (h : holder.accepts value = true) :
    holder.write value = (.ok (), { holder with stored := some value }) := by
  have hempty := (isEmpty_check_iff holder value).mpr h
  have hfirst : holder.firstViolation? value = none := by
    rw [firstViolation?_eq]
    exact List.head?_eq_none_iff.mpr (List.isEmpty_iff.mp hempty)
  simp [write, hfirst]

/-- A value that some constraint does not admit is refused with the first violation of the report,
and the holder stays as it was. -/
theorem write_of_not_accepts {holder : Holder} {value : Value} (h : holder.accepts value = false) :
    ∃ v, (holder.check value).first? = some v ∧
      holder.write value = (.error (.violation v), holder) := by
  cases hfirst : (holder.check value).first? with
  | some v =>
    refine ⟨v, rfl, ?_⟩
    rw [← firstViolation?_eq] at hfirst
    simp [write, hfirst]
  | none =>
    have hempty : (holder.check value).isEmpty = true :=
      List.isEmpty_iff.mpr (List.head?_eq_none_iff.mp hfirst)
    rw [isEmpty_check_iff, h] at hempty
    cases hempty

/-- The first constraint that does not admit a value is the one that turns it away. -/
theorem write_of_first_fault {holder : Holder} {value : Value} {i : Nat} {c : Constraint}
    (hget : holder.constraints[i]? = some c) (hfails : c.validate value = false)
    (hbefore : ∀ j < i, ∀ d, holder.constraints[j]? = some d → d.validate value = true) :
    ∃ v, holder.write value = (.error (.violation v), holder) ∧ v.index = i := by
  have hrefused : holder.accepts value = false := by
    rw [Bool.eq_false_iff, Ne, accepts_iff]
    intro hall
    rw [hall c (List.mem_of_getElem? hget)] at hfails
    cases hfails
  obtain ⟨v, hfirst, hwrite⟩ := write_of_not_accepts hrefused
  refine ⟨v, hwrite, Nat.le_antisymm ?_ ?_⟩
  · -- the report ascends, and the place of the constraint is in it
    obtain ⟨rest, hall⟩ := List.head?_eq_some_iff.mp hfirst
    have hascends := pairwise_indices_check holder value
    have hmem := (mem_indices_check_iff holder value i).mpr ⟨c, hget, hfails⟩
    unfold Report.indices at hascends hmem
    rw [hall, List.map_cons] at hascends hmem
    rcases List.mem_cons.mp hmem with rfl | hlater
    · exact Nat.le_refl _
    · exact Nat.le_of_lt (List.rel_of_pairwise_cons hascends hlater)
  · obtain ⟨j, d, hj, hd, rfl⟩ := (mem_check_iff holder value v).mp (List.mem_of_head? hfirst)
    refine Nat.le_of_not_lt fun hlt => ?_
    rw [hbefore j hlt d hj] at hd
    cases hd

theorem write_ok_iff (holder : Holder) (value : Value) :
    (holder.write value).1 = .ok () ↔ holder.accepts value = true := by
  cases h : holder.accepts value with
  | true => simp [write_of_accepts h]
  | false =>
    obtain ⟨v, _, hwrite⟩ := write_of_not_accepts h
    simp [hwrite]

theorem write_error_iff (holder : Holder) (value : Value) (error : HolderError) :
    (holder.write value).1 = .error error ↔
      ∃ v, (holder.check value).first? = some v ∧ error = .violation v := by
  cases h : holder.accepts value with
  | true =>
    have hempty := List.isEmpty_iff.mp ((isEmpty_check_iff holder value).mpr h)
    simp [write_of_accepts h, Report.first?, hempty]
  | false =>
    obtain ⟨v, hfirst, hwrite⟩ := write_of_not_accepts h
    simp [hwrite, hfirst, eq_comm]

/-- **The three judgements of a holder are one.** A write succeeds exactly when the holder accepts
the value, and exactly when the report is empty; a write that fails does so with the first violation
of the report. The report points, in strictly ascending order, to the places of exactly the
constraints that do not admit the value, and says of each what the constraint itself says, or else
that the value does not satisfy it. -/
theorem verdicts_agree (holder : Holder) (value : Value) :
    ((holder.write value).1 = .ok () ↔ holder.accepts value = true) ∧
    (holder.accepts value = true ↔ (holder.check value).isEmpty = true) ∧
    (∀ error, (holder.write value).1 = .error error ↔
      ∃ v, (holder.check value).first? = some v ∧ error = .violation v) ∧
    (holder.check value).indices.Pairwise (· < ·) ∧
    (∀ i, i ∈ (holder.check value).indices ↔
      ∃ c, holder.constraints[i]? = some c ∧ c.validate value = false) ∧
    (∀ v, v ∈ (holder.check value).all ↔
      ∃ i c, holder.constraints[i]? = some c ∧ c.validate value = false ∧
        v.holder = holder.name ∧ v.index = i ∧ v.constraint = c.describe ∧ v.value = value ∧
        v.message =
          (c.explain value).getD s!"{value.text} does not satisfy '{c.describe}'") := by
  refine ⟨write_ok_iff holder value, (isEmpty_check_iff holder value).symm,
    write_error_iff holder value, pairwise_indices_check holder value,
    mem_indices_check_iff holder value, fun v => ?_⟩
  rw [mem_check_iff]
  constructor
  · rintro ⟨i, c, hget, hfails, rfl⟩
    exact ⟨i, c, hget, hfails, rfl, rfl, rfl, rfl, rfl⟩
  · rintro ⟨i, c, hget, hfails, hholder, hindex, hconstraint, hvalue, hmessage⟩
    refine ⟨i, c, hget, hfails, ?_⟩
    cases v
    simp_all [dissatisfaction]

end Holder

end NameGuard
