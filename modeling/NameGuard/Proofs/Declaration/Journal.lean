import NameGuard.Proofs.Declaration.Account
import NameGuard.Proofs.Declaration.Pass

/-!
# The journal agrees with the declaration

Each part of the journal is accounted for by what the declaration says: one trace for each word, one
warning for each clause that is dropped, at the place where the clause is closed, and one summary.

* `Reading.filterMap_events` — what passes over warnings sees the events of words only;
* `Reading.filter_warning_events` — the warnings;
* `Reading.Warns.cons`, `Registry.warns_scan` — where the warnings stand, for one step and for all;
* `Registry.parseJournal_faithful` — the journal and the declaration.
-/

set_option autoImplicit false

namespace NameGuard

/-! ## Events -/

namespace Event

def isWarning (event : Event) : Bool := event.level = .warn

def isKeyword : Event → Bool
  | .keyword .. => true
  | _ => false

def filler? : Event → Option String
  | .filler token => some token
  | _ => none

/-- The word that an event shows. -/
def token? (event : Event) : Option String := event.fields.lookup "token"

end Event

theorem Dropped.isWarning_warning (dropped : Dropped) : dropped.warning.isWarning = true := rfl

namespace Step

theorem level_event (step : Step) : step.event.level = .trace := by
  unfold event
  split <;> rfl

theorem isWarning_event (step : Step) : step.event.isWarning = false := by
  simp [Event.isWarning, step.level_event]

theorem token?_event (step : Step) : step.event.token? = some step.word := by
  unfold event
  split <;> rfl

theorem filler?_event (step : Step) : step.event.filler? = step.filler? := by
  unfold event filler?
  split <;> simp [Event.filler?, *]

theorem isKeyword_event (step : Step) : step.event.isKeyword = step.role.isKeyword := by
  unfold event
  split <;> simp [Event.isKeyword, Role.isKeyword, *]

end Step

/-! ## The events of words, and the warnings -/

theorem Clause.flatMap_journal (clauses : List Clause) :
    clauses.flatMap Clause.journal =
      ((clauses.filter fun clause => !clause.isSatisfied).map Clause.toDropped).map
        Dropped.warning := by
  induction clauses with
  | nil => rfl
  | cons clause rest ih =>
    cases h : clause.isSatisfied with
    | true => simp [Clause.journal_of_satisfied h, h, ih]
    | false => simp [Clause.journal_of_dropped h, h, ih]

theorem Clause.exists_dropped_of_mem_journal {clauses : List Clause} {event : Event}
    (h : event ∈ clauses.flatMap Clause.journal) :
    ∃ dropped : Dropped, event = dropped.warning := by
  rw [flatMap_journal] at h
  obtain ⟨dropped, -, rfl⟩ := List.mem_map.mp h
  exact ⟨dropped, rfl⟩

namespace Reading

theorem events_cons (step : Step) (steps : List Step) (last : Option Clause) :
    (Reading.mk (step :: steps) last).events =
      step.journal ++ (Reading.mk steps last).events := by
  simp [events]

theorem events_nil (last : Option Clause) :
    (Reading.mk [] last).events = last.toList.flatMap Clause.journal := rfl

/-- What passes over warnings sees the events of words only. -/
theorem filterMap_events {α : Type} {f : Event → Option α}
    (hwarning : ∀ dropped : Dropped, f dropped.warning = none) (reading : Reading) :
    reading.events.filterMap f = reading.steps.filterMap fun step => f step.event := by
  obtain ⟨steps, last⟩ := reading
  have hclauses (clauses : List Clause) : (clauses.flatMap Clause.journal).filterMap f = [] := by
    rw [List.filterMap_eq_nil_iff]
    intro event hevent
    obtain ⟨dropped, rfl⟩ := Clause.exists_dropped_of_mem_journal hevent
    exact hwarning dropped
  induction steps with
  | nil => rw [events_nil, hclauses, List.filterMap_nil]
  | cons step rest ih =>
    rw [events_cons, Step.journal, List.filterMap_append, List.filterMap_cons, hclauses, ih]
    cases h : f step.event <;> simp [h]

/-- The events but for warnings are one for each word. -/
theorem filter_not_warning_events (reading : Reading) :
    reading.events.filter (fun event => !event.isWarning) = reading.steps.map Step.event := by
  rw [← List.filterMap_eq_filter, filterMap_events (fun dropped => rfl), ← List.filterMap_eq_map]
  exact List.filterMap_congr fun step _ => by simp [step.isWarning_event]

theorem filterMap_filler_events (reading : Reading) :
    reading.events.filterMap Event.filler? = reading.discarded := by
  rw [filterMap_events fun dropped => rfl]
  exact List.filterMap_congr fun step _ => step.filler?_event

theorem countP_keyword_events (reading : Reading) :
    reading.events.countP Event.isKeyword =
      (reading.steps.map Step.role).countP Role.isKeyword := by
  have hword (event : Event) : event.isKeyword = (event.isKeyword && !event.isWarning) := by
    cases event <;> rfl
  calc reading.events.countP Event.isKeyword
      = reading.events.countP fun event => event.isKeyword && !event.isWarning := by
        rw [← funext hword]
    _ = (reading.steps.map Step.event).countP Event.isKeyword := by
        rw [← List.countP_filter, filter_not_warning_events]
    _ = (reading.steps.map Step.role).countP Role.isKeyword := by
        rw [List.countP_map, List.countP_map]
        exact List.countP_congr fun step _ => by simp [step.isKeyword_event]

/-- The warnings are one for each clause that was dropped. -/
theorem filter_warning_events (reading : Reading) :
    reading.events.filter Event.isWarning = reading.dropped.map Dropped.warning := by
  have hclauses (clauses : List Clause) :
      (clauses.flatMap Clause.journal).filter Event.isWarning = clauses.flatMap Clause.journal := by
    rw [List.filter_eq_self]
    intro event hevent
    obtain ⟨dropped, rfl⟩ := Clause.exists_dropped_of_mem_journal hevent
    exact dropped.isWarning_warning
  obtain ⟨steps, last⟩ := reading
  suffices (mk steps last).events.filter Event.isWarning =
      (mk steps last).clauses.flatMap Clause.journal by
    rw [this, Clause.flatMap_journal]
    rfl
  induction steps with
  | nil => rw [events_nil, hclauses]; rfl
  | cons step rest ih =>
    rw [events_cons, Step.journal, Registry.clauses_cons, List.filter_append,
      List.filter_cons_of_neg (by simp [step.isWarning_event]), hclauses, ih, List.flatMap_append]

/-! ## The places of warnings -/

/-- Whether the warning about the clause at a place stands where it should, among the events of a
reading that begins at some position: right after the event of the keyword that closed the clause,
which is the one that opened the next clause, or at the end where there is no next clause. -/
def Warns (reading : Reading) (position place : Nat) (warning : Event) : Prop :=
  (reading.clauses[place + 1]? = none → ∃ before, reading.events = before ++ [warning]) ∧
  ∀ next, reading.clauses[place + 1]? = some next → ∃ before after,
    reading.events =
      before ++ .keyword next.constraint.keyword next.constraint.name :: warning :: after ∧
    position + before.countP (fun event => !event.isWarning) = next.position

theorem countP_not_warning_journal (step : Step) :
    step.journal.countP (fun event => !event.isWarning) = 1 := by
  have hclosed : (step.closed.toList.flatMap Clause.journal).countP
      (fun event => !event.isWarning) = 0 := by
    rw [List.countP_eq_zero]
    intro event hevent
    obtain ⟨dropped, rfl⟩ := Clause.exists_dropped_of_mem_journal hevent
    simp [dropped.isWarning_warning]
  rw [Step.journal, List.countP_cons, hclosed]
  simp [step.isWarning_event]

/-- A step before a reading moves its warnings on, past the one about the clause that it closes. -/
theorem Warns.cons {step : Step} {steps : List Step} {last : Option Clause}
    {position place place' : Nat} {warning : Event}
    (h : (mk steps last).Warns (position + 1) place warning)
    (hplace : place' = step.closed.toList.length + place) :
    (mk (step :: steps) last).Warns position place' warning := by
  have hclauses : (mk (step :: steps) last).clauses[place' + 1]? =
      (mk steps last).clauses[place + 1]? := by
    rw [Registry.clauses_cons, hplace, Nat.add_assoc,
      List.getElem?_append_right (Nat.le_add_right _ _), Nat.add_sub_cancel_left]
  obtain ⟨hend, hnext⟩ := h
  unfold Warns
  rw [hclauses, events_cons]
  constructor
  · intro hnone
    obtain ⟨before, hevents⟩ := hend hnone
    exact ⟨step.journal ++ before, by rw [hevents, List.append_assoc]⟩
  · intro next hsome
    obtain ⟨before, after, hevents, hposition⟩ := hnext next hsome
    refine ⟨step.journal ++ before, after, by rw [hevents, List.append_assoc], ?_⟩
    rw [List.countP_append, countP_not_warning_journal]
    omega

/-- A step that closes a clause that is dropped warns about it at once. -/
theorem warns_of_closed {step : Step} {steps : List Step} {last : Option Clause}
    {position : Nat} {clause next : Clause} (hclosed : step.closed = some clause)
    (hdropped : clause.isSatisfied = false)
    (hevent : step.event = .keyword next.constraint.keyword next.constraint.name)
    (hnext : (mk steps last).clauses[0]? = some next) (hposition : next.position = position) :
    (mk (step :: steps) last).Warns position 0 clause.toDropped.warning := by
  have hclauses : (mk (step :: steps) last).clauses[0 + 1]? = some next := by
    rw [Registry.clauses_cons, hclosed]
    exact hnext
  unfold Warns
  rw [hclauses, events_cons, Step.journal, hclosed, hevent]
  constructor
  · intro hnone
    cases hnone
  · intro other hother
    obtain rfl := Option.some.inj hother
    refine ⟨[], (mk steps last).events, ?_, hposition.symm⟩
    rw [Option.toList_some, List.flatMap_singleton, Clause.journal_of_dropped hdropped]
    rfl

end Reading

namespace Registry

/-- What is open first is closed first. -/
theorem head_clauses_scan (registry : Registry) (words : List String) (position : Nat)
    (clause : Clause) :
    ∃ next, (registry.scan position (some clause) words).clauses[0]? = some next ∧
      next.position = clause.position ∧ next.constraint.keyword = clause.constraint.keyword ∧
      next.constraint.name = clause.constraint.name := by
  rw [clauses_scan]
  refine ⟨_, rfl, Clause.position_feed _ _, Clause.keyword_feed _ _, ?_⟩
  exact congrArg Kind.name (Clause.kind_feed _ _)

/-- Each clause that is dropped is warned about where it is closed. -/
theorem warns_scan (registry : Registry) (words : List String) :
    ∀ (position : Nat) (current : Option Clause) (place : Nat) (clause : Clause),
      (registry.scan position current words).clauses[place]? = some clause →
      clause.isSatisfied = false →
      (registry.scan position current words).Warns position place clause.toDropped.warning := by
  induction words with
  | nil =>
    intro position current place clause hclause hdropped
    obtain ⟨rfl, rfl⟩ : current = some clause ∧ place = 0 := by
      cases current <;> cases place <;> simp_all [scan, Reading.clauses]
    refine ⟨fun _ => ⟨[], ?_⟩, fun next hnext => by cases hnext⟩
    exact (List.flatMap_singleton _ _).trans (Clause.journal_of_dropped hdropped)
  | cons word rest ih =>
    intro position current place clause hclause hdropped
    rcases registry.advance_cases position current word with
      ⟨grown, rfl, _, h⟩ | ⟨_, kind, selected, h⟩ | ⟨_, _, h⟩
    · rw [scan_cons h, clauses_cons] at hclause
      rw [scan_cons h]
      exact (ih _ _ place clause hclause hdropped).cons (Nat.zero_add _).symm
    · rw [scan_cons h, clauses_cons] at hclause
      rw [scan_cons h]
      cases current with
      | none => exact (ih _ _ place clause hclause hdropped).cons (Nat.zero_add _).symm
      | some left =>
        cases place with
        | zero =>
          -- the clause is closed here, by the keyword that opens the next
          obtain rfl := Option.some.inj hclause
          obtain ⟨next, hnext, hposition, hkeyword, hname⟩ :=
            registry.head_clauses_scan rest (position + 1) ⟨position, kind.instantiate word⟩
          have hevent : Event.keyword word kind.name =
              .keyword next.constraint.keyword next.constraint.name := by
            rw [hkeyword, hname]
            rfl
          exact Reading.warns_of_closed rfl hdropped hevent hnext hposition
        | succ place =>
          exact (ih _ _ place clause hclause hdropped).cons (Nat.add_comm _ _)
    · rw [scan_cons h, clauses_cons] at hclause
      rw [scan_cons h]
      exact (ih _ _ place clause hclause hdropped).cons (Nat.zero_add _).symm

/-- The clauses that are dropped, as they are opened, and where the journal warns about them. -/
theorem parseJournal_warns (registry : Registry) {words : List String} {place : Nat}
    {clause : Clause} (hclause : (registry.opened words)[place]? = some clause)
    (hdropped : clause.isSatisfied = false) :
    ((registry.opened words)[place + 1]? = none → ∃ before,
      registry.parseJournal words = before ++
        [clause.toDropped.warning, (registry.parseLenient words).summary words.length]) ∧
    ∀ next, (registry.opened words)[place + 1]? = some next → ∃ before after,
      registry.parseJournal words = before ++
        .keyword next.constraint.keyword next.constraint.name :: clause.toDropped.warning ::
          after ∧
      before.countP (fun event => !event.isWarning) = next.position := by
  rw [← clauses_read] at hclause ⊢
  obtain ⟨hend, hnext⟩ := registry.warns_scan _ 0 none place clause hclause hdropped
  constructor
  · intro hnone
    obtain ⟨before, hevents⟩ := hend hnone
    refine ⟨before, ?_⟩
    rw [parseJournal_eq, read, hevents, List.append_assoc]
    rfl
  · intro next hsome
    obtain ⟨before, after, hevents, hposition⟩ := hnext next hsome
    refine ⟨before, after ++ [(registry.parseLenient words).summary words.length], ?_, by omega⟩
    rw [parseJournal_eq, read, hevents, List.append_assoc]
    rfl

theorem parseJournal_traces (registry : Registry) (words : List String) :
    ∃ traces : List Event,
      (registry.parseJournal words).filter (fun event => !event.isWarning) =
        traces ++ [(registry.parseLenient words).summary words.length] ∧
      (∀ event ∈ traces, event.level = .trace) ∧
      traces.map Event.token? = words.map fun word => some word.toLower := by
  refine ⟨(registry.read words).steps.map Step.event, ?_, ?_, ?_⟩
  · rw [parseJournal_eq, List.filter_append, Reading.filter_not_warning_events]
    rfl
  · intro event hevent
    obtain ⟨step, -, rfl⟩ := List.mem_map.mp hevent
    exact step.level_event
  · have hwords := congrArg (List.map some) (registry.map_word_steps_read words)
    rw [List.map_map, List.map_map] at hwords
    have htoken : Event.token? ∘ Step.event = some ∘ Step.word := funext Step.token?_event
    rw [List.map_map, htoken]
    exact hwords

/-- **The journal is faithful to the declaration.** A single pass over the words, in either mode,
writes the journal and comes to what reading comes to, also where strict mode fails. But for the
warnings, the journal has one trace for each word, in order and with the word in lowercase, and then
the summary with the numbers of words, constraints, dropped clauses and filler. The filler events
are the filler; there are as many keyword events as clauses that are kept or dropped. The warnings
are one for each dropped clause, in order, and each stands right after the event of the keyword that
closed its clause, the one at the position of the next clause; or, for the last clause, right before
the summary. -/
theorem parseJournal_faithful (registry : Registry) (strict : Bool) (words : List String) :
    registry.run strict words = (registry.parseJournal words, registry.parse strict words) ∧
    (∃ traces : List Event,
      (registry.parseJournal words).filter (fun event => !event.isWarning) =
        traces ++ [(registry.parseLenient words).summary words.length] ∧
      (∀ event ∈ traces, event.level = .trace) ∧
      traces.map Event.token? = words.map fun word => some word.toLower) ∧
    (registry.parseJournal words).filterMap Event.filler? =
      (registry.parseLenient words).discarded ∧
    (registry.parseJournal words).countP Event.isKeyword =
      (registry.parseLenient words).constraints.length +
        (registry.parseLenient words).dropped.length ∧
    (registry.parseJournal words).filter Event.isWarning =
      (registry.parseLenient words).dropped.map Dropped.warning ∧
    (registry.parseLenient words).dropped =
      ((registry.opened words).filter fun clause => !clause.isSatisfied).map Clause.toDropped ∧
    (∀ place clause, (registry.opened words)[place]? = some clause → clause.isSatisfied = false →
      ((registry.opened words)[place + 1]? = none → ∃ before,
        registry.parseJournal words = before ++
          [clause.toDropped.warning, (registry.parseLenient words).summary words.length]) ∧
      ∀ next, (registry.opened words)[place + 1]? = some next → ∃ before after,
        registry.parseJournal words = before ++
          .keyword next.constraint.keyword next.constraint.name :: clause.toDropped.warning ::
            after ∧
        before.countP (fun event => !event.isWarning) = next.position) := by
  refine ⟨registry.run_eq strict words, registry.parseJournal_traces words, ?_, ?_, ?_,
    (registry.parseLenient_opened words).2, fun place clause => registry.parseJournal_warns⟩
  · rw [parseJournal_eq, List.filterMap_append, Reading.filterMap_filler_events]
    exact List.append_nil _
  · rw [parseJournal_eq, List.countP_append, Reading.countP_keyword_events,
      length_kept_add_length_dropped]
    rfl
  · rw [parseJournal_eq, List.filter_append, Reading.filter_warning_events]
    exact List.append_nil _

end Registry

end NameGuard
