import NameGuard.Journal
import NameGuard.Proofs.Declaration.Step

/-!
# The journal in a single pass

The journal is read off a reading that is done. A pass goes through the words once, writes down each
event as it happens, and collects what the declaration says beside it: a word first, then the
warning about the clause that it closes, and the summary when all words are read. Both ways come to
the same, in either mode.

* `Registry.take`, `Registry.pass`, `Registry.run` — one word, all words, and the whole in either
  mode;
* `Registry.take_eq_extend`, `Registry.pass_eq_extend` — one step and a run of a pass, by the
  reading;
* `Registry.run_eq` — the events of a pass are the journal, and its outcome is that of
  `Registry.parse`.
-/

set_option autoImplicit false

namespace NameGuard

/-! ## The events of a reading -/

/-- The warning about a clause that was dropped. -/
def Dropped.warning (dropped : Dropped) : Event :=
  .dropping dropped.keyword dropped.position dropped.args.length dropped.required

/-- The event at the end of a reading. -/
def Declaration.summary (declaration : Declaration) (tokens : Nat) : Event :=
  .parsed tokens declaration.constraints.length declaration.dropped.length
    declaration.discarded.length

theorem Clause.journal_of_satisfied {clause : Clause} (h : clause.isSatisfied = true) :
    clause.journal = [] := if_pos h

theorem Clause.journal_of_dropped {clause : Clause} (h : clause.isSatisfied = false) :
    clause.journal = [clause.toDropped.warning] := by
  rw [journal, if_neg (by simp [h])]
  rfl

/-- The events of reading, but for the summary at the end. -/
def Reading.events (reading : Reading) : List Event :=
  reading.steps.flatMap Step.journal ++ reading.last.toList.flatMap Clause.journal

theorem Registry.parseJournal_eq (registry : Registry) (words : List String) :
    registry.parseJournal words =
      (registry.read words).events ++ [(registry.parseLenient words).summary words.length] := by
  have hlength : (registry.read words).steps.length = words.length := by
    rw [read, length_steps_scan, List.length_map]
  rw [← hlength]
  rfl

/-! ## A pass that writes events as they happen -/

namespace Declaration

def empty : Declaration := ⟨[], [], []⟩

def append (first second : Declaration) : Declaration :=
  ⟨first.constraints ++ second.constraints, first.dropped ++ second.dropped,
    first.discarded ++ second.discarded⟩

theorem append_assoc (first second third : Declaration) :
    (first.append second).append third = first.append (second.append third) := by
  simp [append]

/-- What some clauses come to when they are closed, with the filler between them. -/
def ofClauses (clauses : List Clause) (discarded : List String) : Declaration :=
  ⟨(clauses.filter Clause.isSatisfied).map Clause.constraint,
    (clauses.filter fun clause => !clause.isSatisfied).map Clause.toDropped, discarded⟩

theorem ofClauses_append (first second : List Clause) (before after : List String) :
    ofClauses (first ++ second) (before ++ after) =
      (ofClauses first before).append (ofClauses second after) := by
  simp [ofClauses, append]

end Declaration

/-- How far a pass has come: the clause that is open, what has been collected, and the events. -/
structure Progress where
  current : Option Clause
  declaration : Declaration
  journal : List Event

namespace Progress

def start : Progress := ⟨none, .empty, []⟩

def emit (progress : Progress) (event : Event) : Progress :=
  { progress with journal := progress.journal ++ [event] }

def collect (progress : Progress) (found : Declaration) : Progress :=
  { progress with declaration := progress.declaration.append found }

/-- Collects the open clause, with a warning where it is dropped. -/
def close (progress : Progress) : Progress :=
  match progress.current with
  | none => progress
  | some clause =>
    let closed : Progress := { progress with current := none }
    if clause.isSatisfied then closed.collect ⟨[clause.constraint], [], []⟩
    else (closed.emit clause.toDropped.warning).collect ⟨[], [clause.toDropped], []⟩

end Progress

namespace Registry

/-- One word of a pass: an argument of the open clause, or else a keyword, or else filler. -/
def take (registry : Registry) (position : Nat) (progress : Progress) (word : String) : Progress :=
  match progress.current.map fun clause => clause.offer word with
  | some (true, grown) =>
    { progress.emit (.argument word grown.constraint.name) with current := some grown }
  | offered =>
    let left : Progress := { progress with current := offered.map Prod.snd }
    match registry.lookup word with
    | some kind =>
      { (left.emit (.keyword word kind.name)).close with
        current := some ⟨position, kind.instantiate word⟩ }
    | none => (left.emit (.filler word)).collect ⟨[], [], [word]⟩

def pass (registry : Registry) (position : Nat) (progress : Progress) : List String → Progress
  | [] => progress
  | word :: rest =>
    registry.pass (position + 1) (registry.take position progress word.toLower) rest

/-- The events and the outcome of a pass, in either mode. -/
def run (registry : Registry) (strict : Bool) (words : List String) :
    List Event × Except ParseError Declaration :=
  let finished := (registry.pass 0 .start words).close
  let events := (finished.emit (finished.declaration.summary words.length)).journal
  match strict, finished.declaration.dropped with
  | true, dropped :: _ => (events, .error dropped.error)
  | _, _ => (events, .ok finished.declaration)

end Registry

/-! ### What a pass comes to -/

namespace Progress

theorem close_eq (progress : Progress) :
    progress.close =
      ⟨none, progress.declaration.append (.ofClauses progress.current.toList []),
        progress.journal ++ progress.current.toList.flatMap Clause.journal⟩ := by
  obtain ⟨current, declaration, journal⟩ := progress
  cases current with
  | none => simp [close, Declaration.ofClauses, Declaration.append]
  | some clause =>
    cases h : clause.isSatisfied with
    | true =>
      simp [close, collect, Declaration.ofClauses, Declaration.append, h,
        Clause.journal_of_satisfied h]
    | false =>
      simp [close, collect, emit, Declaration.ofClauses, Declaration.append, h,
        Clause.journal_of_dropped h]

/-- What some more steps make of a pass. -/
def extend (progress : Progress) (reading : Reading) : Progress where
  current := reading.last
  declaration := progress.declaration.append
    (.ofClauses (reading.steps.filterMap Step.closed) reading.discarded)
  journal := progress.journal ++ reading.steps.flatMap Step.journal

theorem extend_nil (progress : Progress) :
    progress.extend ⟨[], progress.current⟩ = progress := by
  simp [extend, Reading.discarded, Declaration.ofClauses, Declaration.append]

theorem extend_cons (progress : Progress) (step : Step) (next : Option Clause) (steps : List Step)
    (last : Option Clause) :
    (progress.extend ⟨[step], next⟩).extend ⟨steps, last⟩ =
      progress.extend ⟨step :: steps, last⟩ := by
  have hdiscarded : (Reading.mk (step :: steps) last).discarded =
      (Reading.mk [step] next).discarded ++ (Reading.mk steps last).discarded := by
    unfold Reading.discarded
    rw [← List.filterMap_append]
    rfl
  have hclosed : (step :: steps).filterMap Step.closed =
      [step].filterMap Step.closed ++ steps.filterMap Step.closed := by
    rw [← List.filterMap_append]
    rfl
  simp only [extend, hdiscarded, hclosed, Declaration.ofClauses_append, Declaration.append_assoc,
    List.flatMap_cons, List.flatMap_nil, List.append_nil, List.append_assoc]

theorem close_extend (reading : Reading) :
    (start.extend reading).close = ⟨none, reading.declaration, reading.events⟩ := by
  have hdeclaration : reading.declaration =
      (Declaration.ofClauses (reading.steps.filterMap Step.closed) reading.discarded).append
        (.ofClauses reading.last.toList []) := by
    rw [← Declaration.ofClauses_append, List.append_nil]
    rfl
  rw [close_eq, hdeclaration]
  rfl

end Progress

namespace Registry

theorem take_of_taken {registry : Registry} {progress : Progress} {clause : Clause} {word : String}
    (hcurrent : progress.current = some clause) (taken : (clause.offer word).1 = true)
    (position : Nat) :
    registry.take position progress word =
      { progress.emit (.argument word clause.constraint.name) with
        current := some (clause.offer word).2 } := by
  have hname : (clause.offer word).2.constraint.name = clause.constraint.name :=
    congrArg Kind.name (clause.kind_offer word)
  have hoffer : clause.offer word = (true, (clause.offer word).2) := Prod.ext taken rfl
  rw [take, hcurrent, Option.map_some, hoffer]
  dsimp only
  rw [hname]

theorem take_of_refused {registry : Registry} {progress : Progress} {word : String}
    (refuses : Refuses progress.current word) (position : Nat) :
    registry.take position progress word =
      let left : Progress :=
        { progress with current := progress.current.map fun clause => (clause.offer word).2 }
      match registry.lookup word with
      | some kind =>
        { (left.emit (.keyword word kind.name)).close with
          current := some ⟨position, kind.instantiate word⟩ }
      | none => (left.emit (.filler word)).collect ⟨[], [], [word]⟩ := by
  cases hcurrent : progress.current with
  | none => simp only [take, hcurrent, Option.map_none]
  | some clause =>
    have hoffer : clause.offer word = (false, (clause.offer word).2) :=
      Prod.ext (refuses clause hcurrent) rfl
    rw [take, hcurrent, Option.map_some, hoffer]
    rfl

/-- One word of a pass is one step of reading, written down. -/
theorem take_eq_extend (registry : Registry) (position : Nat) (progress : Progress)
    (word : String) :
    registry.take position progress word =
      progress.extend ⟨[(registry.advance position progress.current word).1],
        (registry.advance position progress.current word).2⟩ := by
  rcases registry.advance_cases position progress.current word with
    ⟨clause, hcurrent, taken, h⟩ | ⟨refuses, kind, selected, h⟩ | ⟨refuses, selected, h⟩
  · rw [h, take_of_taken hcurrent taken]
    simp [Progress.extend, Progress.emit, Reading.discarded, Step.filler?, Step.journal, Step.event,
      Declaration.ofClauses, Declaration.append]
  · rw [h, take_of_refused refuses, selected]
    simp only [Progress.close_eq]
    cases progress.current <;>
      simp [Progress.extend, Progress.emit, Reading.discarded, Step.filler?, Step.journal,
        Step.event]
  · rw [h, take_of_refused refuses, selected]
    simp [Progress.extend, Progress.emit, Progress.collect, Reading.discarded, Step.filler?,
      Step.journal, Step.event, Declaration.ofClauses]

/-- A pass is a reading, written down. -/
theorem pass_eq_extend (registry : Registry) (words : List String) :
    ∀ (position : Nat) (progress : Progress),
      registry.pass position progress words =
        progress.extend (registry.scan position progress.current (words.map String.toLower)) := by
  induction words with
  | nil =>
    intro position progress
    exact progress.extend_nil.symm
  | cons word rest ih =>
    intro position progress
    show registry.pass (position + 1) (registry.take position progress word.toLower) rest = _
    rw [ih, take_eq_extend]
    exact progress.extend_cons _ _ _ _

/-- **A single pass writes the journal.** In either mode its events are the journal, and its outcome
is that of reading: strict mode only looks at what was dropped when all is written. -/
theorem run_eq (registry : Registry) (strict : Bool) (words : List String) :
    registry.run strict words = (registry.parseJournal words, registry.parse strict words) := by
  have hpass : (registry.pass 0 .start words).close =
      ⟨none, registry.parseLenient words, (registry.read words).events⟩ := by
    rw [pass_eq_extend]
    exact Progress.close_extend _
  rw [parseJournal_eq]
  unfold run parse
  rw [hpass]
  dsimp only
  cases strict with
  | false => rfl
  | true => cases (registry.parseLenient words).dropped <;> rfl

end Registry

end NameGuard
