import NameGuard.Proofs.Declaration.Step

/-!
# What keywords open

Each keyword of a declaration opens one clause, which is offered the words that follow up to the
next keyword, and then that keyword. What a declaration says is what these clauses come to, with the
words that none of them took.

* `Registry.openings` — the clauses that keywords open, each with the words it is offered;
* `Registry.clauses_scan`, `Registry.discarded_scan` — a reading in terms of its openings.
-/

set_option autoImplicit false

namespace NameGuard

/-- The words of some steps up to the first keyword. -/
def bodyWords (steps : List Step) : List String :=
  (steps.takeWhile fun step => !step.role.isKeyword).map Step.word

def closingWord? (steps : List Step) : Option String :=
  (steps.find? fun step => step.role.isKeyword).map Step.word

theorem bodyWords_cons_keyword {step : Step} (h : step.role.isKeyword = true)
    (rest : List Step) : bodyWords (step :: rest) = [] := by
  simp [bodyWords, h]

theorem bodyWords_cons_other {step : Step} (h : step.role.isKeyword = false)
    (rest : List Step) : bodyWords (step :: rest) = step.word :: bodyWords rest := by
  simp [bodyWords, h]

theorem closingWord?_cons_keyword {step : Step} (h : step.role.isKeyword = true)
    (rest : List Step) : closingWord? (step :: rest) = some step.word := by
  simp [closingWord?, h]

theorem closingWord?_cons_other {step : Step} (h : step.role.isKeyword = false)
    (rest : List Step) : closingWord? (step :: rest) = closingWord? rest := by
  simp [closingWord?, h]

theorem bodyWords_append_closingWord? (steps : List Step) :
    bodyWords steps ++ (closingWord? steps).toList =
      (steps.map Step.word).take ((steps.map Step.role).findIdx Role.isKeyword + 1) := by
  induction steps with
  | nil => rfl
  | cons step rest ih =>
    rw [List.map_cons, List.map_cons, List.findIdx_cons, List.take_succ_cons]
    cases h : step.role.isKeyword with
    | true => rw [bodyWords_cons_keyword h, closingWord?_cons_keyword h]; rfl
    | false =>
      rw [bodyWords_cons_other h, closingWord?_cons_other h, List.cons_append, ih]
      rfl

/-- A clause as a keyword opens it, with the words that it is offered: those up to the next keyword,
and then that keyword. -/
structure Opening where
  fresh : Clause
  body : List String
  closing? : Option String

namespace Opening

/-- The clause when it is closed. -/
def final (opening : Opening) : Clause :=
  feed Clause.offer opening.fresh (opening.body ++ opening.closing?.toList)

/-- The words that are left over. The closing keyword is not among them, for it opens a clause of
its own. -/
def filler (opening : Opening) : List String :=
  refused Clause.offer opening.fresh opening.body

end Opening

namespace Registry

/-- The openings of some steps, the first of which stands at the given place. -/
def openings (registry : Registry) (position : Nat) : List Step → List Opening
  | [] => []
  | step :: rest =>
    match step.role, registry.lookup step.word with
    | .keyword _, some kind =>
      ⟨⟨position, kind.instantiate step.word⟩, bodyWords rest, closingWord? rest⟩ ::
        registry.openings (position + 1) rest
    | _, _ => registry.openings (position + 1) rest

theorem openings_cons_keyword (registry : Registry) (position : Nat) {step : Step} {kind : Kind}
    (hrole : step.role = .keyword kind.name) (hlookup : registry.lookup step.word = some kind)
    (rest : List Step) :
    registry.openings position (step :: rest) =
      ⟨⟨position, kind.instantiate step.word⟩, bodyWords rest, closingWord? rest⟩ ::
        registry.openings (position + 1) rest := by
  simp [openings, hrole, hlookup]

theorem openings_cons_other (registry : Registry) (position : Nat) {step : Step}
    (h : step.role.isKeyword = false) (rest : List Step) :
    registry.openings position (step :: rest) = registry.openings (position + 1) rest := by
  cases hrole : step.role with
  | keyword kind =>
    rw [hrole] at h
    cases h
  | argument kind => simp [openings, hrole]
  | filler => simp [openings, hrole]

/-- An opening stands at a keyword, and is offered words that follow it. -/
theorem mem_openings {registry : Registry} {steps : List Step} {opening : Opening} :
    ∀ {position : Nat}, opening ∈ registry.openings position steps →
      ∃ i step kind, steps[i]? = some step ∧ registry.lookup step.word = some kind ∧
        opening.fresh = ⟨position + i, kind.instantiate step.word⟩ ∧
        opening.body = bodyWords (steps.drop (i + 1)) ∧
        opening.closing? = closingWord? (steps.drop (i + 1)) := by
  induction steps with
  | nil =>
    intro position h
    cases h
  | cons step rest ih =>
    intro position h
    have hlater : opening ∈ registry.openings (position + 1) rest →
        ∃ i later kind, (step :: rest)[i]? = some later ∧
          registry.lookup later.word = some kind ∧
          opening.fresh = ⟨position + i, kind.instantiate later.word⟩ ∧
          opening.body = bodyWords ((step :: rest).drop (i + 1)) ∧
          opening.closing? = closingWord? ((step :: rest).drop (i + 1)) := by
      intro hmem
      obtain ⟨i, later, kind, hget, hlookup, hfresh, hbody, hclosing⟩ := ih hmem
      refine ⟨i + 1, later, kind, hget, hlookup, ?_, hbody, hclosing⟩
      rw [hfresh, Nat.add_right_comm, Nat.add_assoc]
    unfold openings at h
    split at h
    · rename_i kind hrole hlookup
      rcases List.mem_cons.mp h with rfl | hmem
      · exact ⟨0, step, kind, rfl, hlookup, rfl, rfl, rfl⟩
      · exact hlater hmem
    · exact hlater h

/-! ## A reading and its openings -/

theorem scan_cons {registry : Registry} {position : Nat} {current next : Option Clause}
    {word : String} {step : Step} (h : registry.advance position current word = (step, next))
    (rest : List String) :
    registry.scan position current (word :: rest) =
      ⟨step :: (registry.scan (position + 1) next rest).steps,
        (registry.scan (position + 1) next rest).last⟩ := by
  simp [scan, h]

theorem clauses_cons (step : Step) (steps : List Step) (last : Option Clause) :
    (Reading.mk (step :: steps) last).clauses =
      step.closed.toList ++ (Reading.mk steps last).clauses := by
  cases h : step.closed <;> simp [Reading.clauses, h]

/-- The clauses of a reading are the clause that was open at first, after it was offered the words
up to the first keyword, and then the openings. -/
theorem clauses_scan (registry : Registry) (words : List String) :
    ∀ (position : Nat) (current : Option Clause),
      (registry.scan position current words).clauses =
        (current.map fun clause =>
          feed Clause.offer clause (bodyWords (registry.scan position current words).steps ++
            (closingWord? (registry.scan position current words).steps).toList)).toList ++
        (registry.openings position (registry.scan position current words).steps).map
          Opening.final := by
  induction words with
  | nil =>
    intro position current
    cases current <;> rfl
  | cons word rest ih =>
    intro position current
    rcases registry.advance_cases position current word with
      ⟨clause, rfl, _, h⟩ | ⟨_, kind, selected, h⟩ | ⟨_, _, h⟩
    · rw [scan_cons h, clauses_cons, ih, bodyWords_cons_other rfl, closingWord?_cons_other rfl,
        openings_cons_other _ _ rfl]
      rfl
    -- a keyword closes the open clause, which was offered it last
    · rw [scan_cons h, clauses_cons, ih, bodyWords_cons_keyword rfl, closingWord?_cons_keyword rfl,
        openings_cons_keyword _ _ rfl selected]
      cases current <;> rfl
    · rw [scan_cons h, clauses_cons, ih, bodyWords_cons_other rfl, closingWord?_cons_other rfl,
        openings_cons_other _ _ rfl]
      cases current <;> rfl

theorem discarded_cons (step : Step) (steps : List Step) (last : Option Clause) :
    (Reading.mk (step :: steps) last).discarded =
      step.filler?.toList ++ (Reading.mk steps last).discarded := by
  cases h : step.filler? <;> simp [Reading.discarded, h]

/-- What a clause leaves over of some words; where none is open, all is left. -/
def leftover : Option Clause → List String → List String
  | none, words => words
  | some clause, words => refused Clause.offer clause words

/-- The filler of a reading is what the clause that was open at first leaves over up to the first
keyword, and then what the openings leave over. -/
theorem discarded_scan (registry : Registry) (words : List String) :
    ∀ (position : Nat) (current : Option Clause),
      (registry.scan position current words).discarded =
        leftover current (bodyWords (registry.scan position current words).steps) ++
        (registry.openings position (registry.scan position current words).steps).flatMap
          Opening.filler := by
  induction words with
  | nil =>
    intro position current
    cases current <;> rfl
  | cons word rest ih =>
    intro position current
    rcases registry.advance_cases position current word with
      ⟨clause, rfl, taken, h⟩ | ⟨_, kind, selected, h⟩ | ⟨refused, _, h⟩
    · rw [scan_cons h, discarded_cons, ih, bodyWords_cons_other rfl, openings_cons_other _ _ rfl,
        leftover, leftover, refused_cons_taken (Prod.ext taken rfl)]
      rfl
    · rw [scan_cons h, discarded_cons, ih, bodyWords_cons_keyword rfl,
        openings_cons_keyword _ _ rfl selected]
      cases current <;> rfl
    · rw [scan_cons h, discarded_cons, ih, bodyWords_cons_other rfl, openings_cons_other _ _ rfl]
      cases current with
      | none => rfl
      | some clause =>
        rw [Option.map_some, leftover, leftover,
          refused_cons_refused (Prod.ext (refused clause rfl) rfl)]
        rfl

end Registry

end NameGuard
