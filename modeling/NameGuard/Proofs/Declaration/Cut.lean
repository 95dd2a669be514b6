import Mathlib.Data.List.Forall2
import NameGuard.Proofs.Constraint.Likeness
import NameGuard.Proofs.Declaration.Account
import NameGuard.Proofs.Declaration.Outline
import NameGuard.Proofs.Registry.Built

/-!
# A declaration cut before a keyword

A keyword that the open clause does not take closes that clause for good: what comes after is read
as if it stood alone, only further on. So a declaration that is cut there falls into two, which are
read apart and put together again.

* `Clause.moved`, `Registry.advance_moved` — a step does not hang on how places are numbered;
* `Registry.scan_add` — reading further on is reading, with all places moved;
* `Registry.CutsAt` — a word that finds no clause open which takes it;
* `Registry.cutsAt_standard` — over the standard registry every keyword is one;
* `Registry.clauses_cut` — the clauses on both sides of a cut;
* `Registry.parseLenient_cut` — a declaration is its two parts;
* `Registry.parseLenient_cut_fickle` — it need not be, where a rule changes its arity.
-/

set_option autoImplicit false

namespace NameGuard

/-! ## Clauses at other places -/

/-- A clause at the place that a renumbering gives it. -/
def Clause.moved (place : Nat → Nat) (clause : Clause) : Clause :=
  { clause with position := place clause.position }

def Dropped.moved (place : Nat → Nat) (dropped : Dropped) : Dropped :=
  { dropped with position := place dropped.position }

def Step.moved (place : Nat → Nat) (step : Step) : Step :=
  { step with closed := step.closed.map (Clause.moved place) }

def Reading.moved (place : Nat → Nat) (reading : Reading) : Reading :=
  ⟨reading.steps.map (Step.moved place), reading.last.map (Clause.moved place)⟩

/-- The record of a clause that stands further on. -/
def Dropped.shift (n : Nat) : Dropped → Dropped := moved (· + n)

theorem Clause.offer_moved (place : Nat → Nat) (clause : Clause) (word : String) :
    (clause.moved place).offer word =
      ((clause.offer word).1, (clause.offer word).2.moved place) := by
  unfold offer moved
  split <;> rfl

/-- Where the places of a clause and of a word are given other numbers, the step is the same, with
the other numbers. -/
theorem Registry.advance_moved (registry : Registry) (place : Nat → Nat) (position : Nat)
    (current : Option Clause) (word : String) :
    registry.advance (place position) (current.map (Clause.moved place)) word =
      ((registry.advance position current word).1.moved place,
        (registry.advance position current word).2.map (Clause.moved place)) := by
  have hselect : ∀ current : Option Clause,
      registry.select (place position) (current.map (Clause.moved place)) word =
        ((registry.select position current word).1.moved place,
          (registry.select position current word).2.map (Clause.moved place)) := by
    intro current
    unfold select
    cases registry.lookup word <;> rfl
  cases current with
  | none => exact hselect none
  | some clause =>
    cases hoffer : clause.offer word with
    | mk taken next =>
      have hmoved : (clause.moved place).offer word = (taken, next.moved place) := by
        rw [Clause.offer_moved, hoffer]
      simp only [advance, Option.map_some, hmoved, hoffer]
      cases taken with
      | true => rfl
      | false => exact hselect (some next)

namespace Reading

theorem clauses_moved (place : Nat → Nat) (reading : Reading) :
    (reading.moved place).clauses = reading.clauses.map (Clause.moved place) := by
  obtain ⟨steps, last⟩ := reading
  have hclosed : (steps.map (Step.moved place)).filterMap Step.closed =
      (steps.filterMap Step.closed).map (Clause.moved place) := by
    rw [List.filterMap_map, List.map_filterMap]
    rfl
  unfold clauses moved
  rw [hclosed, List.map_append]
  cases last <;> rfl

theorem discarded_moved (place : Nat → Nat) (reading : Reading) :
    (reading.moved place).discarded = reading.discarded := by
  unfold discarded moved
  rw [List.filterMap_map]
  rfl

end Reading

/-- Reading from a place further on, with the clause that is open there moved as well, is reading
with all places moved. -/
theorem Registry.scan_add (registry : Registry) (n : Nat) (words : List String) :
    ∀ (position : Nat) (current : Option Clause),
      registry.scan (position + n) (current.map (Clause.moved (· + n))) words =
        (registry.scan position current words).moved (· + n) := by
  induction words with
  | nil => intro position current; rfl
  | cons word rest ih =>
    intro position current
    simp only [scan, registry.advance_moved (· + n)]
    rw [Nat.add_right_comm, ih]
    rfl

/-! ## A keyword that closes -/

namespace Registry

/-- A keyword that is refused closes the open clause, and what follows is read as if the keyword
stood first. -/
theorem scan_keyword {registry : Registry} {word : String} {kind : Kind}
    (selected : registry.lookup word = some kind) {current : Option Clause}
    (refuses : Refuses current word) (n : Nat) (rest : List String) :
    (registry.scan n current (word :: rest)).clauses =
        (current.map fun clause => (clause.offer word).2).toList ++
          (registry.scan 0 none (word :: rest)).clauses.map (Clause.moved (· + n)) ∧
      (registry.scan n current (word :: rest)).discarded =
        (registry.scan 0 none (word :: rest)).discarded := by
  have hadvance := advance_of_keyword selected refuses n
  have hfresh : registry.advance 0 none word =
      (⟨word, .keyword kind.name, none⟩, some ⟨0, kind.instantiate word⟩) :=
    select_of_some selected 0 none
  -- what follows is read alike, with the fresh clause at its place
  have hrest : registry.scan (n + 1) (some ⟨n, kind.instantiate word⟩) rest =
      (registry.scan 1 (some ⟨0, kind.instantiate word⟩) rest).moved (· + n) := by
    rw [← scan_add, Nat.add_comm 1 n, Option.map_some, Clause.moved, Nat.zero_add]
  constructor
  · rw [scan_cons hadvance, scan_cons hfresh, hrest, clauses_cons, clauses_cons]
    exact congrArg _ (Reading.clauses_moved (· + n) _)
  · rw [scan_cons hadvance, scan_cons hfresh, hrest, discarded_cons, discarded_cons]
    exact congrArg _ (Reading.discarded_moved (· + n) _)

/-- Whether a word, after some others, finds no clause open that takes it: none is open, or the open
one is not hungry, or it refuses the word and keeps its arguments and its satisfaction. -/
def CutsAt (registry : Registry) (words : List String) (word : String) : Prop :=
  ∀ clause ∈ (registry.read words).last,
    clause.constraint.hungry = false ∨
      ((clause.constraint.consume word.toLower).1 = false ∧
        (clause.constraint.consume word.toLower).2.args = clause.constraint.args ∧
        (clause.constraint.consume word.toLower).2.isSatisfied = clause.constraint.isSatisfied)

/-- What becomes of the open clause at a cut. -/
theorem CutsAt.offer {registry : Registry} {words : List String} {word : String}
    (cuts : registry.CutsAt words word) {clause : Clause}
    (hlast : (registry.read words).last = some clause) :
    (clause.offer word.toLower).1 = false ∧
      (clause.offer word.toLower).2.constraint.args = clause.constraint.args ∧
      (clause.offer word.toLower).2.isSatisfied = clause.isSatisfied := by
  unfold Clause.offer
  split
  · rename_i hungry
    rcases cuts clause hlast with hsated | hkeeps
    · rw [hungry] at hsated
      cases hsated
    · exact hkeeps
  · exact ⟨rfl, rfl, rfl⟩

theorem CutsAt.refuses {registry : Registry} {words : List String} {word : String}
    (cuts : registry.CutsAt words word) : Refuses (registry.read words).last word.toLower :=
  fun _ hlast => (cuts.offer hlast).1

/-- The clause that is open at a cut, once it has seen the keyword. -/
def closedAt (registry : Registry) (words : List String) (word : String) : Option Clause :=
  (registry.read words).last.map fun clause => (clause.offer word.toLower).2

/-- The clauses on both sides of a cut, where the clause that was open has seen the keyword. -/
theorem clauses_cut {registry : Registry} {xs : List String} {k : String}
    (keyword : registry.isKeyword k = true) (cuts : registry.CutsAt xs k) (ys : List String) :
    (registry.read (xs ++ [k] ++ ys)).clauses =
        (registry.read xs).steps.filterMap Step.closed ++ (registry.closedAt xs k).toList ++
          (registry.read ([k] ++ ys)).clauses.map (Clause.moved (· + xs.length)) ∧
      (registry.read (xs ++ [k] ++ ys)).discarded =
        (registry.read xs).discarded ++ (registry.read ([k] ++ ys)).discarded := by
  obtain ⟨kind, selected⟩ := Option.isSome_iff_exists.mp keyword
  rw [← lookup_lower] at selected
  obtain ⟨hclauses, hdiscarded⟩ :=
    scan_keyword selected cuts.refuses xs.length (ys.map String.toLower)
  have hread : registry.read (xs ++ [k] ++ ys) =
      ⟨(registry.read xs).steps ++ (registry.scan xs.length (registry.read xs).last
        (k.toLower :: ys.map String.toLower)).steps,
        (registry.scan xs.length (registry.read xs).last
          (k.toLower :: ys.map String.toLower)).last⟩ := by
    rw [List.append_assoc]
    exact registry.read_append xs ([k] ++ ys)
  have hsecond : registry.read ([k] ++ ys) =
      registry.scan 0 none (k.toLower :: ys.map String.toLower) := rfl
  rw [hread, hsecond]
  constructor
  · rw [List.append_assoc, closedAt, ← hclauses, Reading.clauses, List.filterMap_append,
      List.append_assoc]
    rfl
  · rw [← hdiscarded, Reading.discarded, List.filterMap_append]
    rfl

end Registry

/-! ## What clauses come to -/

namespace Clause

/-- The constraints of the clauses that have all they need. -/
def kept (clauses : List Clause) : List Constraint :=
  (clauses.filter isSatisfied).map constraint

/-- The records of the clauses that do not. -/
def incomplete (clauses : List Clause) : List Dropped :=
  (clauses.filter fun clause => !clause.isSatisfied).map toDropped

theorem kept_append (xs ys : List Clause) : kept (xs ++ ys) = kept xs ++ kept ys := by
  simp [kept]

theorem incomplete_append (xs ys : List Clause) :
    incomplete (xs ++ ys) = incomplete xs ++ incomplete ys := by
  simp [incomplete]

theorem kept_moved (place : Nat → Nat) (clauses : List Clause) :
    kept (clauses.map (moved place)) = kept clauses := by
  unfold kept
  rw [List.filter_map, List.map_map]
  rfl

theorem incomplete_moved (place : Nat → Nat) (clauses : List Clause) :
    incomplete (clauses.map (moved place)) = (incomplete clauses).map (Dropped.moved place) := by
  unfold incomplete
  rw [List.filter_map, List.map_map, List.map_map]
  rfl

theorem kept_singleton (clause : Clause) :
    kept [clause] = if clause.isSatisfied then [clause.constraint] else [] := by
  unfold kept
  rw [List.filter_singleton]
  cases clause.isSatisfied <;> rfl

theorem incomplete_singleton (clause : Clause) :
    incomplete [clause] = if clause.isSatisfied then [] else [clause.toDropped] := by
  unfold incomplete
  rw [List.filter_singleton]
  cases clause.isSatisfied <;> rfl

end Clause

/-- A record without the arity, which a rule may tell otherwise once it has refused a word. -/
def Dropped.face (dropped : Dropped) : String × String × Nat × List Argument :=
  (dropped.kind, dropped.keyword, dropped.position, dropped.args)

/-! ## Cuts over the standard registry -/

namespace Registry

/-- Whether the clause that is open at a cut has the arity that it had before it saw the keyword. -/
def KeepsArityAt (registry : Registry) (words : List String) (word : String) : Prop :=
  ∀ clause ∈ (registry.read words).last,
    (clause.offer word.toLower).2.constraint.arity = clause.constraint.arity

theorem kind_last_read {registry : Registry} {words : List String} {clause : Clause}
    (h : (registry.read words).last = some clause) :
    clause.constraint.kind ∈ registry.kinds :=
  mem_kinds_of_lookup (lookup_of_mem_opened (mem_opened_of_last h))

/-- Where each rule has one arity in all its states, every cut keeps the arity. -/
theorem keepsArityAt_of_fixed {registry : Registry}
    (fixed : ∀ kind ∈ registry.kinds, ∃ arity, ∀ s, kind.rule.arity s = arity)
    (words : List String) (word : String) : registry.KeepsArityAt words word := by
  have harity : ∀ c : Constraint, c.kind ∈ registry.kinds →
      ∃ arity, ∀ d : Constraint, d.kind = c.kind → d.arity = arity := by
    intro c hmem
    obtain ⟨arity, h⟩ := fixed c.kind hmem
    exact ⟨arity, fun ⟨_, _, s⟩ hkind => by subst hkind; exact h s⟩
  intro clause hclause
  obtain ⟨arity, h⟩ := harity clause.constraint (kind_last_read hclause)
  exact (h _ (clause.kind_offer word.toLower)).trans (h _ rfl).symm

/-- A word that every rule refuses, and refuses cleanly, cuts wherever it stands. -/
theorem cutsAt_of_refuses {registry : Registry} {word : String}
    (refuses : ∀ kind ∈ registry.kinds, ∀ s, (kind.rule.consume s word.toLower).1 = false)
    (cleanly : ∀ kind ∈ registry.kinds, kind.rule.RefusesCleanly) (words : List String) :
    registry.CutsAt words word := by
  intro clause hclause
  have hmem := kind_last_read hclause
  have hrefuses := refuses _ hmem clause.constraint.state
  exact .inr ⟨hrefuses, cleanly _ hmem _ _ hrefuses⟩

/-- Over the standard registry every keyword cuts. -/
theorem cutsAt_standard {word : String} (keyword : standard.isKeyword word = true)
    (words : List String) : standard.CutsAt words word := by
  have hopens : opensClause word.toLower = true := by
    rw [← isKeyword_standard]
    exact keyword
  refine cutsAt_of_refuses (fun kind hkind => ?_) (fun _ => Kind.refusesCleanly) words
  obtain rfl | rfl := Kind.mem_standard_iff.mp hkind
  · intro range
    exact congrArg Prod.fst (Range.consume_other (read?_of_opensClause hopens) range)
  · intro choice
    exact TypeChoice.consume_refuses (isListWord_of_opensClause hopens) choice

theorem keepsArityAt_standard (words : List String) (word : String) :
    standard.KeepsArityAt words word := by
  refine keepsArityAt_of_fixed (fun kind hkind => ?_) words word
  obtain rfl | rfl := Kind.mem_standard_iff.mp hkind
  · exact ⟨.exact 2, fun _ => rfl⟩
  · exact ⟨.variadic, fun _ => rfl⟩

/-! ## The two parts -/

/-- The clause that a cut closes is kept or dropped as it is at the end of the words, and shows the
same. -/
theorem CutsAt.closed_alike {registry : Registry} {words : List String} {word : String}
    (cuts : registry.CutsAt words word) :
    List.Forall₂ Constraint.Alike (Clause.kept (registry.closedAt words word).toList)
        (Clause.kept (registry.read words).last.toList) ∧
      (Clause.incomplete (registry.closedAt words word).toList).map Dropped.face =
        (Clause.incomplete (registry.read words).last.toList).map Dropped.face ∧
      (registry.KeepsArityAt words word →
        Clause.incomplete (registry.closedAt words word).toList =
          Clause.incomplete (registry.read words).last.toList) := by
  unfold closedAt KeepsArityAt
  cases hlast : (registry.read words).last with
  | none => exact ⟨.nil, rfl, fun _ => rfl⟩
  | some clause =>
    obtain ⟨-, hargs, hsatisfied⟩ := cuts.offer hlast
    have hkind := clause.kind_offer word.toLower
    have hkeyword := clause.keyword_offer word.toLower
    have hname : (clause.offer word.toLower).2.constraint.name = clause.constraint.name :=
      congrArg Kind.name hkind
    rw [Option.map_some, Option.toList_some, Option.toList_some, Clause.kept_singleton,
      Clause.kept_singleton, Clause.incomplete_singleton, Clause.incomplete_singleton, hsatisfied]
    cases clause.isSatisfied with
    | true =>
      exact ⟨.cons (Constraint.alike_of_args hkind hkeyword hargs) .nil, rfl, fun _ => rfl⟩
    | false =>
      refine ⟨.nil, ?_, fun harity => ?_⟩
      · simp [Dropped.face, Clause.toDropped, hname, hargs]
      · simp [Clause.toDropped, hname, hargs, harity clause rfl]

/-- **A declaration cut before a keyword is its two parts.** Where the keyword finds no clause open
that takes it, the filler, the dropped clauses and the constraints of the whole are those of the
words before the cut, and then those from the keyword on, the latter further on by the number of
words before. The clause that the keyword closes shows the same as at the end of the first part;
only a rule that tells another arity once it has refused the keyword has that in its record. -/
theorem parseLenient_cut (registry : Registry) (xs ys : List String) (k : String)
    (keyword : registry.isKeyword k = true) (cuts : registry.CutsAt xs k) :
    (registry.parseLenient (xs ++ [k] ++ ys)).discarded =
      (registry.parseLenient xs).discarded ++ (registry.parseLenient ([k] ++ ys)).discarded ∧
    (registry.parseLenient (xs ++ [k] ++ ys)).dropped.map Dropped.face =
      ((registry.parseLenient xs).dropped ++
        (registry.parseLenient ([k] ++ ys)).dropped.map (Dropped.shift xs.length)).map
          Dropped.face ∧
    (registry.KeepsArityAt xs k →
      (registry.parseLenient (xs ++ [k] ++ ys)).dropped =
        (registry.parseLenient xs).dropped ++
          (registry.parseLenient ([k] ++ ys)).dropped.map (Dropped.shift xs.length)) ∧
    List.Forall₂ Constraint.Alike (registry.parseLenient (xs ++ [k] ++ ys)).constraints
      ((registry.parseLenient xs).constraints ++
        (registry.parseLenient ([k] ++ ys)).constraints) := by
  obtain ⟨hwhole, hdiscarded⟩ := clauses_cut keyword cuts ys
  obtain ⟨hkept, hface, hincomplete⟩ := cuts.closed_alike
  have hfirst : (registry.read xs).clauses =
      (registry.read xs).steps.filterMap Step.closed ++ (registry.read xs).last.toList := rfl
  have hdropped : (registry.parseLenient (xs ++ [k] ++ ys)).dropped =
      Clause.incomplete ((registry.read xs).steps.filterMap Step.closed) ++
        Clause.incomplete (registry.closedAt xs k).toList ++
          (registry.parseLenient ([k] ++ ys)).dropped.map (Dropped.shift xs.length) := by
    show Clause.incomplete (registry.read (xs ++ [k] ++ ys)).clauses =
      _ ++ _ ++ (Clause.incomplete (registry.read ([k] ++ ys)).clauses).map _
    rw [hwhole, Clause.incomplete_append, Clause.incomplete_append, Clause.incomplete_moved]
    rfl
  have hdroppedFirst : (registry.parseLenient xs).dropped =
      Clause.incomplete ((registry.read xs).steps.filterMap Step.closed) ++
        Clause.incomplete (registry.read xs).last.toList := by
    show Clause.incomplete (registry.read xs).clauses = _
    rw [hfirst, Clause.incomplete_append]
  refine ⟨hdiscarded, ?_, fun harity => ?_, ?_⟩
  · rw [hdropped, hdroppedFirst, List.map_append, List.map_append, List.map_append, List.map_append,
      hface]
  · rw [hdropped, hdroppedFirst, hincomplete harity]
  · show List.Forall₂ Constraint.Alike (Clause.kept (registry.read (xs ++ [k] ++ ys)).clauses)
      (Clause.kept (registry.read xs).clauses ++ Clause.kept (registry.read ([k] ++ ys)).clauses)
    rw [hwhole, hfirst, Clause.kept_append, Clause.kept_append, Clause.kept_append,
      Clause.kept_moved]
    have hrefl := fun cs : List Constraint => List.forall₂_same.mpr fun c (_ : c ∈ cs) =>
      Constraint.Alike.refl c
    exact List.rel_append (List.rel_append (hrefl _) hkept) (hrefl _)

/-- Over the standard registry a range that waits for its second bound is closed by a keyword, and
dropped as it would be at the end; what the keyword opens is dropped at its place in the whole. -/
theorem parseLenient_cut_open_range :
    standard.isKeyword "With" = true ∧ standard.CutsAt ["Between", "1", "and"] "With" ∧
      (standard.parseLenient ["Between", "1", "and", "With", "floating"]).dropped =
        [⟨"between", "between", 0, [.integer 1], .exact 2⟩,
          ⟨"contains", "with", 3, [], .variadic⟩] := by
  have keyword : standard.isKeyword "With" = true := by
    rw [isKeyword_standard]
    decide +kernel
  have cuts := cutsAt_standard keyword ["Between", "1", "and"]
  obtain ⟨-, -, hdropped, -⟩ :=
    parseLenient_cut standard ["Between", "1", "and"] ["floating"] "With" keyword cuts
  refine ⟨keyword, cuts, (hdropped (keepsArityAt_standard _ _)).trans ?_⟩
  rw [dropped_standard, dropped_standard]
  decide +kernel

end Registry

/-! ## A rule that changes its arity -/

/-- A rule that takes no word, and once it has refused one asks for one argument more. -/
def Sample.fickle : Rule where
  State := Bool
  start := false
  keywords := ["fickle"]
  arity refused := .exact (if refused then 2 else 1)
  args _ := []
  consume _ _ := (false, true)
  validate _ _ := false
  describe _ := "fickle"

theorem Sample.refusesCleanly_fickle : Sample.fickle.RefusesCleanly := by
  intro (refused : Bool) word _
  refine ⟨rfl, ?_⟩
  cases refused <;> rfl

namespace Registry

/-- The registry of that rule alone. -/
def fickle : Registry :=
  (Roster.empty.enrollAll
    [.draft { Draft.named "fickle" with rule := some Sample.fickle }]).1.build

/-- The arity matters to a cut. A clause of the rule is dropped by a keyword that it refuses
cleanly, and its record requires more than where the declaration ends before the keyword. -/
theorem parseLenient_cut_fickle :
    fickle.IsBuilt ∧ (∀ kind ∈ fickle.kinds, kind.rule.RefusesCleanly) ∧
      fickle.isKeyword "fickle" = true ∧ fickle.CutsAt ["fickle"] "fickle" ∧
      (fickle.parseLenient (["fickle"] ++ ["fickle"] ++ [])).dropped =
        [⟨"fickle", "fickle", 0, [], .exact 2⟩, ⟨"fickle", "fickle", 1, [], .exact 1⟩] ∧
      (fickle.parseLenient ["fickle"]).dropped ++
          (fickle.parseLenient (["fickle"] ++ [])).dropped.map (Dropped.shift ["fickle"].length) =
        [⟨"fickle", "fickle", 0, [], .exact 1⟩, ⟨"fickle", "fickle", 1, [], .exact 1⟩] ∧
      (fickle.parseLenient (["fickle"] ++ ["fickle"] ++ [])).dropped ≠
        (fickle.parseLenient ["fickle"]).dropped ++
          (fickle.parseLenient (["fickle"] ++ [])).dropped.map
            (Dropped.shift ["fickle"].length) := by
  have cleanly : ∀ kind ∈ fickle.kinds, kind.rule.RefusesCleanly :=
    List.forall_mem_singleton.mpr Sample.refusesCleanly_fickle
  have refuses : ∀ kind ∈ fickle.kinds, ∀ s, (kind.rule.consume s "fickle".toLower).1 = false :=
    List.forall_mem_singleton.mpr fun _ => rfl
  have hwhole : (fickle.parseLenient (["fickle"] ++ ["fickle"] ++ [])).dropped =
      [⟨"fickle", "fickle", 0, [], .exact 2⟩, ⟨"fickle", "fickle", 1, [], .exact 1⟩] := by
    decide +kernel
  have hparts : (fickle.parseLenient ["fickle"]).dropped ++
        (fickle.parseLenient (["fickle"] ++ [])).dropped.map (Dropped.shift ["fickle"].length) =
      [⟨"fickle", "fickle", 0, [], .exact 1⟩, ⟨"fickle", "fickle", 1, [], .exact 1⟩] := by
    decide +kernel
  refine ⟨.build ⟨_, rfl⟩, cleanly, by decide +kernel, cutsAt_of_refuses refuses cleanly _,
    hwhole, hparts, ?_⟩
  rw [hwhole, hparts]
  decide +kernel

end Registry

end NameGuard
