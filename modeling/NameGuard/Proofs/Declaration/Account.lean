import Mathlib.Data.List.Basic
import NameGuard.Proofs.Declaration.Opening

/-!
# No word of a declaration is lost

Reading gives every word one role: an argument of the clause that is open, a keyword that opens a
clause, or filler. The account of a declaration goes through the words once more, and finds every
word in its role, every keyword in one clause, and every clause among those that are kept or those
that are dropped.

* `Registry.Assigns` — which role a word has, given the clause that is open before it;
* `Registry.assigns_openBefore` — the roles of a reading are those;
* `Registry.clauses_read` — the clauses of a reading are those that its keywords open;
* `Registry.parseLenient_accounts` — every word, and every clause, is accounted for once.
-/

set_option autoImplicit false

namespace NameGuard

namespace Registry

/-! ## Roles -/

/-- The role of a word, and the clause that is open after it, given the clause that is open before
it. The open clause is asked first, and then the registry. A clause that is asked may remember it,
also where it refuses. -/
inductive Assigns (registry : Registry) (position : Nat) (word : String) :
    Option Clause → Role → Option Clause → Prop
  | argument {clause : Clause} (taken : (clause.offer word).1 = true) :
      Assigns registry position word (some clause) (.argument clause.constraint.name)
        (some (clause.offer word).2)
  | keyword {current : Option Clause} {kind : Kind} (refused : Refuses current word)
      (selected : registry.lookup word = some kind) :
      Assigns registry position word current (.keyword kind.name)
        (some ⟨position, kind.instantiate word⟩)
  | filler {current : Option Clause} (refused : Refuses current word)
      (selected : registry.lookup word = none) :
      Assigns registry position word current .filler
        (current.map fun clause => (clause.offer word).2)

/-- A word has one role, and leaves one clause open. -/
theorem Assigns.unique {registry : Registry} {position : Nat} {word : String}
    {current next next' : Option Clause} {role role' : Role}
    (h : registry.Assigns position word current role next)
    (h' : registry.Assigns position word current role' next') : role' = role ∧ next' = next := by
  -- Two different roles would have the word both taken and refused, or look it up to two answers.
  cases h with
  | argument taken =>
    cases h' with
    | argument => exact ⟨rfl, rfl⟩
    | keyword refused =>
      rw [refused _ rfl] at taken
      cases taken
    | filler refused =>
      rw [refused _ rfl] at taken
      cases taken
  | keyword refused selected =>
    cases h' with
    | argument taken =>
      rw [refused _ rfl] at taken
      cases taken
    | keyword _ selected' =>
      rw [selected] at selected'
      cases selected'
      exact ⟨rfl, rfl⟩
    | filler _ selected' =>
      rw [selected] at selected'
      cases selected'
  | filler refused selected =>
    cases h' with
    | argument taken =>
      rw [refused _ rfl] at taken
      cases taken
    | keyword _ selected' =>
      rw [selected] at selected'
      cases selected'
    | filler => exact ⟨rfl, rfl⟩

theorem advance_assigns (registry : Registry) (position : Nat) (current : Option Clause)
    (word : String) :
    registry.Assigns position word current (registry.advance position current word).1.role
      (registry.advance position current word).2 := by
  rcases registry.advance_cases position current word with
    ⟨clause, rfl, taken, h⟩ | ⟨refused, kind, selected, h⟩ | ⟨refused, selected, h⟩
  · rw [h]
    exact .argument taken
  · rw [h]
    exact .keyword refused selected
  · rw [h]
    exact .filler refused selected

def roles (registry : Registry) (words : List String) : List Role :=
  (registry.read words).steps.map Step.role

/-- The clause that is open before the word at a place. -/
def openBefore (registry : Registry) (words : List String) (place : Nat) : Option Clause :=
  (registry.read (words.take place)).last

/-- The reading of words that follow others. -/
def readAfter (registry : Registry) (xs ys : List String) : Reading :=
  registry.scan xs.length (registry.read xs).last (ys.map String.toLower)

theorem read_append (registry : Registry) (xs ys : List String) :
    registry.read (xs ++ ys) =
      ⟨(registry.read xs).steps ++ (registry.readAfter xs ys).steps,
        (registry.readAfter xs ys).last⟩ := by
  rw [read, List.map_append, scan_append, List.length_map, Nat.zero_add]
  rfl

theorem map_word_steps_scan (registry : Registry) (words : List String) :
    ∀ (position : Nat) (current : Option Clause),
      (registry.scan position current words).steps.map Step.word = words := by
  induction words with
  | nil => intro position current; rfl
  | cons word rest ih =>
    intro position current
    simp only [scan, List.map_cons, word_advance, ih]

theorem map_word_steps_read (registry : Registry) (words : List String) :
    (registry.read words).steps.map Step.word = words.map String.toLower :=
  registry.map_word_steps_scan (words.map String.toLower) 0 none

theorem length_roles (registry : Registry) (words : List String) :
    (registry.roles words).length = words.length := by
  simp [roles, read, length_steps_scan]

theorem openBefore_zero (registry : Registry) (words : List String) :
    registry.openBefore words 0 = none := rfl

/-- A reading goes through each place: up to there it is the reading of the words before, and there
it takes the step of the word. -/
theorem steps_read_split (registry : Registry) {words : List String} {i : Nat} {word : String}
    (h : words[i]? = some word) :
    ∃ later, (registry.read words).steps = (registry.read (words.take i)).steps ++
      (registry.advance i (registry.openBefore words i) word.toLower).1 :: later := by
  obtain ⟨hi, hword⟩ := List.getElem?_eq_some_iff.mp h
  have hwords : words = words.take i ++ word :: words.drop (i + 1) := by
    rw [← hword, ← List.drop_eq_getElem_cons hi, List.take_append_drop]
  have hlength : (words.take i).length = i := List.length_take_of_le (Nat.le_of_lt hi)
  refine ⟨(registry.scan (i + 1)
    (registry.advance i (registry.openBefore words i) word.toLower).2
    ((words.drop (i + 1)).map String.toLower)).steps, ?_⟩
  conv => lhs; rw [hwords]
  simp only [read, List.map_append, List.map_cons, scan_append, List.length_map, hlength, scan,
    Nat.zero_add, openBefore]

theorem getElem?_roles (registry : Registry) {words : List String} {i : Nat} {word : String}
    (h : words[i]? = some word) :
    (registry.roles words)[i]? =
      some (registry.advance i (registry.openBefore words i) word.toLower).1.role := by
  obtain ⟨later, hsteps⟩ := registry.steps_read_split h
  obtain ⟨hi, -⟩ := List.getElem?_eq_some_iff.mp h
  have hlength : (registry.read (words.take i)).steps.length = i := by
    rw [read, length_steps_scan, List.length_map]
    exact List.length_take_of_le (Nat.le_of_lt hi)
  rw [roles, hsteps, List.map_append, List.getElem?_append_right (by simp [hlength])]
  simp [hlength]

theorem openBefore_succ (registry : Registry) {words : List String} {i : Nat} {word : String}
    (h : words[i]? = some word) :
    registry.openBefore words (i + 1) =
      (registry.advance i (registry.openBefore words i) word.toLower).2 := by
  obtain ⟨hi, -⟩ := List.getElem?_eq_some_iff.mp h
  have hlength : (words.take i).length = i := List.length_take_of_le (Nat.le_of_lt hi)
  rw [openBefore, List.take_add_one, h, Option.toList_some]
  simp only [read, List.map_append, List.map_cons, List.map_nil, scan_append, List.length_map,
    hlength, scan, Nat.zero_add, openBefore]

/-- The role that reading gives to a word is the one that it has, and no other. -/
theorem assigns_openBefore (registry : Registry) {words : List String} {i : Nat} {word : String}
    (h : words[i]? = some word) :
    ∃ role, (registry.roles words)[i]? = some role ∧
      ∀ role' next, registry.Assigns i word.toLower (registry.openBefore words i) role' next ↔
        role' = role ∧ next = registry.openBefore words (i + 1) := by
  have hassigns := registry.advance_assigns i (registry.openBefore words i) word.toLower
  refine ⟨_, registry.getElem?_roles h, fun role' next => ?_⟩
  rw [registry.openBefore_succ h]
  constructor
  · intro hassigns'
    exact hassigns.unique hassigns'
  · rintro ⟨rfl, rfl⟩
    exact hassigns

/-! ## Clauses -/

/-- The clauses that the keywords of a declaration open, as they are when they are closed. -/
def opened (registry : Registry) (words : List String) : List Clause :=
  (registry.openings 0 (registry.read words).steps).map Opening.final

theorem clauses_read (registry : Registry) (words : List String) :
    (registry.read words).clauses = registry.opened words := by
  rw [read, clauses_scan]
  rfl

theorem position_final (opening : Opening) :
    opening.final.position = opening.fresh.position := by
  simp [Opening.final]

/-- There is one opening for each keyword, at its place. -/
theorem map_position_openings_scan (registry : Registry) (words : List String) :
    ∀ (position : Nat) (current : Option Clause),
      (registry.openings position (registry.scan position current words).steps).map
          (fun opening => opening.fresh.position) =
        ((registry.scan position current words).steps.map Step.role).findIdxs Role.isKeyword
          position := by
  induction words with
  | nil => intro position current; rfl
  | cons word rest ih =>
    intro position current
    rcases registry.advance_cases position current word with
      ⟨clause, rfl, _, h⟩ | ⟨_, kind, selected, h⟩ | ⟨_, _, h⟩
    · rw [scan_cons h, openings_cons_other _ _ rfl, ih]
      simp [Role.isKeyword]
    · rw [scan_cons h, openings_cons_keyword _ _ rfl selected, List.map_cons, ih]
      simp [Role.isKeyword]
    · rw [scan_cons h, openings_cons_other _ _ rfl, ih]
      simp [Role.isKeyword]

theorem map_position_opened (registry : Registry) (words : List String) :
    (registry.opened words).map Clause.position =
      (registry.roles words).findIdxs Role.isKeyword := by
  rw [opened, List.map_map, roles, read, ← map_position_openings_scan]
  exact List.map_congr_left fun opening _ => position_final opening

theorem length_opened (registry : Registry) (words : List String) :
    (registry.opened words).length = (registry.roles words).countP Role.isKeyword := by
  have hlength := congrArg List.length (registry.map_position_opened words)
  rwa [List.length_map, List.length_findIdxs] at hlength

/-- The words of a declaration after a place, up to the next keyword and with it. -/
def wordsOffered (registry : Registry) (words : List String) (place : Nat) : List String :=
  ((words.drop (place + 1)).take
    (((registry.roles words).drop (place + 1)).findIdx Role.isKeyword + 1)).map String.toLower

/-- A clause is of the kind that its keyword selects, and was offered the words that follow up to
the next keyword. -/
theorem mem_opened {registry : Registry} {words : List String} {clause : Clause}
    (h : clause ∈ registry.opened words) :
    ∃ word kind, words[clause.position]? = some word ∧
      registry.lookup word.toLower = some kind ∧
      clause = feed Clause.offer ⟨clause.position, kind.instantiate word.toLower⟩
        (registry.wordsOffered words clause.position) := by
  obtain ⟨opening, hopening, rfl⟩ := List.mem_map.mp h
  obtain ⟨i, step, kind, hstep, hlookup, hfresh, hbody, hclosing⟩ := mem_openings hopening
  have hposition : opening.final.position = i := by
    rw [position_final, hfresh, Nat.zero_add]
  have hlower : (words.map String.toLower)[i]? = some step.word := by
    rw [← map_word_steps_read registry, List.getElem?_map, hstep]
    rfl
  rw [List.getElem?_map] at hlower
  obtain ⟨word, hword, hstepword⟩ := Option.map_eq_some_iff.mp hlower
  have hoffered : opening.body ++ opening.closing?.toList = registry.wordsOffered words i := by
    rw [hbody, hclosing, bodyWords_append_closingWord?, wordsOffered, List.map_take, List.map_drop,
      List.map_drop, List.map_drop, map_word_steps_read]
    rfl
  refine ⟨word, kind, ?_, ?_, ?_⟩
  · rw [hposition, hword]
  · rw [hstepword, hlookup]
  · rw [hposition, hstepword, Opening.final, hfresh, Nat.zero_add, hoffered]

/-- The keyword of an opened clause is the word at its place, in lowercase. -/
theorem keyword_of_mem_opened {registry : Registry} {words : List String} {clause : Clause}
    (h : clause ∈ registry.opened words) :
    ∃ word, words[clause.position]? = some word ∧ word.toLower = clause.constraint.keyword := by
  obtain ⟨word, kind, hword, -, hfeed⟩ := mem_opened h
  refine ⟨word, hword, ?_⟩
  rw [hfeed, Clause.keyword_feed]
  rfl

/-- The keyword of an opened clause selects its kind. -/
theorem lookup_of_mem_opened {registry : Registry} {words : List String} {clause : Clause}
    (h : clause ∈ registry.opened words) :
    registry.lookup clause.constraint.keyword = some clause.constraint.kind := by
  obtain ⟨word, kind, -, hlookup, hfeed⟩ := mem_opened h
  rw [hfeed, Clause.keyword_feed, Clause.kind_feed]
  exact hlookup

/-- The clause that reading leaves open is one of those that the keywords open. -/
theorem mem_opened_of_last {registry : Registry} {words : List String} {clause : Clause}
    (h : (registry.read words).last = some clause) : clause ∈ registry.opened words := by
  rw [← clauses_read, Reading.clauses, h]
  simp

/-! ## The account -/

theorem length_constraints_add_length_dropped (reading : Reading) :
    reading.constraints.length + reading.dropped.length = reading.clauses.length := by
  rw [Reading.constraints, Reading.dropped, List.length_map, List.length_map,
    ← List.countP_eq_length_filter, ← List.countP_eq_length_filter]
  have hsplit := List.length_eq_countP_add_countP Clause.isSatisfied (l := reading.clauses)
  simpa using hsplit.symm

theorem discarded_eq_filter (reading : Reading) :
    reading.discarded = (reading.steps.filter fun step => step.role = .filler).map Step.word := by
  unfold Reading.discarded
  induction reading.steps with
  | nil => rfl
  | cons step rest ih =>
    by_cases h : step.role = .filler
    · simp [Step.filler?, h, ih]
    · simp [Step.filler?, h, ih]

theorem countP_roles (roles : List Role) :
    roles.countP Role.isArgument + roles.countP Role.isKeyword +
      roles.countP (fun role => role = .filler) = roles.length := by
  induction roles with
  | nil => rfl
  | cons role rest ih =>
    cases role <;> simp [List.countP_cons, Role.isArgument, Role.isKeyword] <;> omega

/-- The filler of a declaration, by the roles of its words. -/
theorem discarded_parseLenient (registry : Registry) (words : List String) :
    (registry.parseLenient words).discarded =
      (((words.map String.toLower).zip (registry.roles words)).filter
        fun entry => entry.2 = .filler).map Prod.fst := by
  show (registry.read words).discarded = _
  rw [discarded_eq_filter, ← map_word_steps_read, roles, List.zip_map',
    List.filter_map, List.map_map]
  rfl

theorem length_discarded_parseLenient (registry : Registry) (words : List String) :
    (registry.parseLenient words).discarded.length =
      (registry.roles words).countP fun role => role = .filler := by
  show (registry.read words).discarded.length = _
  rw [discarded_eq_filter, List.length_map, ← List.countP_eq_length_filter, roles,
    List.countP_map]
  rfl

/-- The declaration keeps the satisfied clauses of those that its keywords open, and drops the
others. -/
theorem parseLenient_opened (registry : Registry) (words : List String) :
    (registry.parseLenient words).constraints =
      ((registry.opened words).filter Clause.isSatisfied).map Clause.constraint ∧
    (registry.parseLenient words).dropped =
      ((registry.opened words).filter fun clause => !clause.isSatisfied).map Clause.toDropped := by
  rw [← clauses_read]
  exact ⟨rfl, rfl⟩

theorem length_kept_add_length_dropped (registry : Registry) (words : List String) :
    (registry.parseLenient words).constraints.length +
      (registry.parseLenient words).dropped.length =
        (registry.roles words).countP Role.isKeyword := by
  have hclauses := length_constraints_add_length_dropped (registry.read words)
  rw [clauses_read, length_opened] at hclauses
  exact hclauses

/-- **Every word, and every clause, is accounted for once.** Whatever its kinds do, reading over a
registry gives each word exactly one role, from the clause that is then open. The filler is what is
discarded, in order. Each keyword opens one clause, at its place, which is offered the words that
follow up to the next keyword; the clauses that are satisfied are kept, the others are dropped, both
in the order of their opening, and nothing else is. So the arguments, the constraints, the dropped
clauses and the filler are together as many as the words. -/
theorem parseLenient_accounts (registry : Registry) (words : List String) :
    registry.openBefore words 0 = none ∧
    (registry.roles words).length = words.length ∧
    (∀ i word, words[i]? = some word →
      ∃ role, (registry.roles words)[i]? = some role ∧
        ∀ role' next, registry.Assigns i word.toLower (registry.openBefore words i) role' next ↔
          role' = role ∧ next = registry.openBefore words (i + 1)) ∧
    (registry.parseLenient words).discarded =
      (((words.map String.toLower).zip (registry.roles words)).filter
        fun entry => entry.2 = .filler).map Prod.fst ∧
    (registry.parseLenient words).constraints.length +
      (registry.parseLenient words).dropped.length =
        (registry.roles words).countP Role.isKeyword ∧
    (registry.roles words).countP Role.isArgument +
      (registry.parseLenient words).constraints.length +
      (registry.parseLenient words).dropped.length +
      (registry.parseLenient words).discarded.length = words.length ∧
    (registry.opened words).map Clause.position =
      (registry.roles words).findIdxs Role.isKeyword ∧
    (∀ clause ∈ registry.opened words, ∃ word kind,
      words[clause.position]? = some word ∧ registry.lookup word.toLower = some kind ∧
        clause = feed Clause.offer ⟨clause.position, kind.instantiate word.toLower⟩
          (registry.wordsOffered words clause.position)) ∧
    (registry.parseLenient words).constraints =
      ((registry.opened words).filter Clause.isSatisfied).map Clause.constraint ∧
    (registry.parseLenient words).dropped =
      ((registry.opened words).filter fun clause => !clause.isSatisfied).map Clause.toDropped ∧
    (∀ c ∈ (registry.parseLenient words).constraints, c.isSatisfied = true) ∧
    (∀ dropped ∈ (registry.parseLenient words).dropped, ∃ clause ∈ registry.opened words,
      clause.constraint.isSatisfied = false ∧ dropped = clause.toDropped) := by
  obtain ⟨hconstraints, hdropped⟩ := registry.parseLenient_opened words
  have hkeywords := registry.length_kept_add_length_dropped words
  refine ⟨registry.openBefore_zero words, registry.length_roles words,
    fun i word h => registry.assigns_openBefore h, registry.discarded_parseLenient words,
    hkeywords, ?_, registry.map_position_opened words, fun clause h => mem_opened h, hconstraints,
    hdropped, ?_, ?_⟩
  · have hroles := countP_roles (registry.roles words)
    have hlength := registry.length_roles words
    have hdiscarded := registry.length_discarded_parseLenient words
    omega
  · intro c hc
    rw [hconstraints] at hc
    obtain ⟨clause, hclause, rfl⟩ := List.mem_map.mp hc
    exact (List.mem_filter.mp hclause).2
  · intro dropped hmem
    rw [hdropped] at hmem
    obtain ⟨clause, hclause, rfl⟩ := List.mem_map.mp hmem
    obtain ⟨hopened, hunsatisfied⟩ := List.mem_filter.mp hclause
    exact ⟨clause, hopened, by simpa [Clause.isSatisfied] using hunsatisfied, rfl⟩

end Registry

end NameGuard
