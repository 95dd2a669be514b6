import NameGuard.Holder.Session
import NameGuard.Scenario

/-!
# Scenarios end at the first thing that is not as expected

A scenario has four stages, and each can end it: its holder is named, built, compared with what it
expects of the constraints, and written to. The writes are judged one after the other, each on the
holder as the writes before it have left it, and the first that does not go as expected ends the
scenario. Nothing that comes later has a say.

* `Scenario.holderAt` — the holder before a write;
* `Scenario.IsFirstFailure` — the write that ends a scenario;
* `Scenario.replay_eq_ok_iff`, `Scenario.replay_eq_error_iff` — both outcomes of replaying;
* `Scenario.EndsWith`, `Scenario.goesWell_or_endsWith` — the stages at which a scenario can end;
* `Scenario.run_exact` — how a scenario ends.
-/

set_option autoImplicit false

namespace NameGuard

theorem Holder.snd_perform_write (holder : Holder) (value : Value) :
    (holder.perform (.write value)).2 = (holder.write value).2 := by
  rcases h : holder.write value with ⟨_ | _, next⟩ <;> simp [perform, h]

namespace Scenario

/-! ## One write -/

/-- Whether a write on a holder goes as expected. -/
def Write.verdict (step : Write) (holder : Holder) : Except Mismatch Unit :=
  step.expectation.verify (holder.write step.value).1 (holder.write step.value).2

/-- The holder before the write at a place: the writes before that have been made, whether they were
accepted or not. -/
def holderAt (holder : Holder) (writes : List Write) (place : Nat) : Holder :=
  holder.after ((writes.take place).map fun step => .write step.value)

theorem holderAt_cons_succ (holder : Holder) (step : Write) (rest : List Write) (place : Nat) :
    holderAt holder (step :: rest) (place + 1) =
      holderAt (holder.write step.value).2 rest place := by
  rw [← Holder.snd_perform_write]
  rfl

theorem replay_cons_of_ok {holder : Holder} {step : Write} (h : step.verdict holder = .ok ())
    (scenario : String) (rest : List Write) :
    replay scenario holder (step :: rest) = replay scenario (holder.write step.value).2 rest := by
  unfold Write.verdict at h
  simp [replay, h]

theorem replay_cons_of_error {holder : Holder} {step : Write} {mismatch : Mismatch}
    (h : step.verdict holder = .error mismatch) (scenario : String) (rest : List Write) :
    replay scenario holder (step :: rest) = .error (.write scenario step.name mismatch) := by
  unfold Write.verdict at h
  simp [replay, h]

/-! ## Replaying writes -/

/-- Whether all of some writes go as expected, each on the holder that those before it leave. -/
def AllGoWell (holder : Holder) (writes : List Write) : Prop :=
  ∀ (place : Nat) (step : Write), writes[place]? = some step →
    step.verdict (holderAt holder writes place) = .ok ()

/-- Whether the write at a place is the first that does not go as expected, and in what. -/
structure IsFirstFailure (holder : Holder) (writes : List Write) (place : Nat) (step : Write)
    (mismatch : Mismatch) : Prop where
  at_place : writes[place]? = some step
  fails : step.verdict (holderAt holder writes place) = .error mismatch
  before : ∀ earlier < place, ∀ other, writes[earlier]? = some other →
    other.verdict (holderAt holder writes earlier) = .ok ()

theorem allGoWell_nil (holder : Holder) : AllGoWell holder [] := by
  intro place step h
  cases h

theorem allGoWell_cons_iff (holder : Holder) (step : Write) (rest : List Write) :
    AllGoWell holder (step :: rest) ↔
      step.verdict holder = .ok () ∧ AllGoWell (holder.write step.value).2 rest := by
  constructor
  · intro h
    refine ⟨h 0 step rfl, fun place later hlater => ?_⟩
    rw [← holderAt_cons_succ]
    exact h (place + 1) later hlater
  · rintro ⟨hfirst, hrest⟩ place later hlater
    cases place with
    | zero =>
      cases hlater
      exact hfirst
    | succ place =>
      rw [holderAt_cons_succ]
      exact hrest place later hlater

theorem replay_eq_ok_iff (scenario : String) (writes : List Write) :
    ∀ holder : Holder, replay scenario holder writes = .ok () ↔ AllGoWell holder writes := by
  induction writes with
  | nil => exact fun holder => iff_of_true rfl (allGoWell_nil holder)
  | cons step rest ih =>
    intro holder
    rw [allGoWell_cons_iff]
    cases h : step.verdict holder with
    | ok => simp [replay_cons_of_ok h, ih]
    | error mismatch => simp [replay_cons_of_error h]

/-- The first failure of some writes, where the first of them goes as expected. -/
theorem isFirstFailure_cons_succ {holder : Holder} {first : Write}
    (h : first.verdict holder = .ok ()) {rest : List Write} {place : Nat} {step : Write}
    {mismatch : Mismatch} :
    IsFirstFailure holder (first :: rest) (place + 1) step mismatch ↔
      IsFirstFailure (holder.write first.value).2 rest place step mismatch := by
  constructor
  · intro hfirst
    refine ⟨hfirst.at_place, ?_, fun earlier hlt other hother => ?_⟩
    · rw [← holderAt_cons_succ]
      exact hfirst.fails
    · rw [← holderAt_cons_succ]
      exact hfirst.before (earlier + 1) (Nat.succ_lt_succ hlt) other hother
  · intro hrest
    refine ⟨hrest.at_place, ?_, fun earlier hlt other hother => ?_⟩
    · rw [holderAt_cons_succ]
      exact hrest.fails
    · cases earlier with
      | zero =>
        cases hother
        exact h
      | succ earlier =>
        rw [holderAt_cons_succ]
        exact hrest.before earlier (Nat.lt_of_succ_lt_succ hlt) other hother

theorem replay_eq_error_iff (scenario : String) (writes : List Write) (error : ScenarioError) :
    ∀ holder : Holder, replay scenario holder writes = .error error ↔
      ∃ place step mismatch, IsFirstFailure holder writes place step mismatch ∧
        error = .write scenario step.name mismatch := by
  induction writes with
  | nil =>
    intro holder
    refine iff_of_false (by simp [replay]) ?_
    rintro ⟨place, step, mismatch, hfirst, -⟩
    cases hfirst.at_place
  | cons first rest ih =>
    intro holder
    cases h : first.verdict holder with
    | ok =>
      rw [replay_cons_of_ok h, ih]
      constructor
      · rintro ⟨place, step, mismatch, hfirst, rfl⟩
        exact ⟨place + 1, step, mismatch, (isFirstFailure_cons_succ h).mpr hfirst, rfl⟩
      · rintro ⟨place, step, mismatch, hfirst, rfl⟩
        cases place with
        | zero =>
          obtain rfl : first = step := Option.some.inj hfirst.at_place
          cases h.symm.trans hfirst.fails
        | succ place =>
          exact ⟨place, step, mismatch, (isFirstFailure_cons_succ h).mp hfirst, rfl⟩
    | error mismatch =>
      rw [replay_cons_of_error h, Except.error.injEq, eq_comm]
      constructor
      · rintro rfl
        exact ⟨0, first, mismatch, ⟨rfl, h, fun _ hlt => absurd hlt (Nat.not_lt_zero _)⟩, rfl⟩
      · rintro ⟨place, step, other, hfirst, rfl⟩
        cases place with
        | zero =>
          obtain rfl : first = step := Option.some.inj hfirst.at_place
          cases h.symm.trans hfirst.fails
          rfl
        | succ place => cases h.symm.trans (hfirst.before 0 (Nat.succ_pos place) first rfl)

/-- Which write fails first hangs on the writes up to it only. -/
theorem IsFirstFailure.of_take_eq {holder : Holder} {writes others : List Write} {place : Nat}
    {step : Write} {mismatch : Mismatch} (h : IsFirstFailure holder writes place step mismatch)
    (htake : others.take (place + 1) = writes.take (place + 1)) :
    IsFirstFailure holder others place step mismatch := by
  have hget : ∀ i < place + 1, others[i]? = writes[i]? := by
    intro i hi
    rw [← List.getElem?_take_of_lt hi, htake, List.getElem?_take_of_lt hi]
  have hholder : ∀ i < place + 1, holderAt holder others i = holderAt holder writes i := by
    intro i hi
    have hle : min i (place + 1) = i := Nat.min_eq_left (Nat.le_of_lt hi)
    have hprefix := congrArg (List.take i) htake
    rw [List.take_take, List.take_take, hle] at hprefix
    rw [holderAt, hprefix, holderAt]
  refine ⟨?_, ?_, fun earlier hlt other hother => ?_⟩
  · rw [hget place (Nat.lt_succ_self place)]
    exact h.at_place
  · rw [hholder place (Nat.lt_succ_self place)]
    exact h.fails
  · have hlt' := Nat.lt_succ_of_lt hlt
    rw [hget earlier hlt'] at hother
    rw [hholder earlier hlt']
    exact h.before earlier hlt other hother

/-! ## The four stages -/

/-- Whether a holder is the one that a scenario builds: over its registry, or the standard one where
it sets none. -/
def Builds (s : Scenario) (holder : Holder) : Prop :=
  ∃ name, s.holder = some name ∧
    Holder.ofName name (s.registry.getD .standard) s.dialect = .ok holder

/-- Whether the constraints of a holder are those that a scenario expects, if it says so. -/
def Suits (s : Scenario) (holder : Holder) : Prop :=
  ∀ expected, s.constraints = some expected → holder.constraints.map Constraint.describe = expected

theorem run_of_unnamed {s : Scenario} (h : s.holder = none) :
    s.run = .error (.missingHolder s.name) := by
  simp [run, h]

theorem run_of_unbuilt {s : Scenario} {name : String} {source : HolderError}
    (hname : s.holder = some name)
    (hbuild : Holder.ofName name (s.registry.getD .standard) s.dialect = .error source) :
    s.run = .error (.construct s.name name source) := by
  simp [run, hname, build, hbuild]

theorem run_of_unsuited {s : Scenario} {holder : Holder} {expected : List String}
    (builds : s.Builds holder) (hsome : s.constraints = some expected)
    (hne : holder.constraints.map Constraint.describe ≠ expected) :
    s.run = .error (.otherConstraints s.name expected
      (holder.constraints.map Constraint.describe)) := by
  obtain ⟨name, hname, hbuild⟩ := builds
  simp [run, hname, build, hbuild, checkConstraints, hsome, hne]

theorem run_of_suits {s : Scenario} {holder : Holder} (builds : s.Builds holder)
    (suits : s.Suits holder) : s.run = replay s.name holder s.writes := by
  have hcheck : s.checkConstraints holder = .ok () := by
    unfold checkConstraints
    cases hsome : s.constraints with
    | none => rfl
    | some expected => exact if_pos (suits expected hsome)
  obtain ⟨name, hname, hbuild⟩ := builds
  simp [run, hname, build, hbuild, hcheck]

theorem suits_or_not (s : Scenario) (holder : Holder) :
    s.Suits holder ∨ ∃ expected, s.constraints = some expected ∧
      holder.constraints.map Constraint.describe ≠ expected := by
  unfold Suits
  cases s.constraints with
  | none => exact .inl nofun
  | some expected =>
    by_cases h : holder.constraints.map Constraint.describe = expected
    · exact .inl fun _ hsome => h.trans (Option.some.inj hsome)
    · exact .inr ⟨expected, rfl, h⟩

/-! ## How a scenario ends -/

/-- Whether a scenario goes well: its holder can be built and has the constraints that are expected,
and every write goes as expected. -/
def GoesWell (s : Scenario) : Prop :=
  ∃ holder, s.Builds holder ∧ s.Suits holder ∧ AllGoWell holder s.writes

/-- The errors that end a scenario early, each at a stage that is reached only past those above
it. -/
inductive EndsWith (s : Scenario) : ScenarioError → Prop where
  /-- The holder has no name. -/
  | unnamed (hname : s.holder = none) : s.EndsWith (.missingHolder s.name)
  /-- The holder of the name cannot be built. -/
  | unbuilt {name : String} {source : HolderError} (hname : s.holder = some name)
      (hbuild : Holder.ofName name (s.registry.getD .standard) s.dialect = .error source) :
      s.EndsWith (.construct s.name name source)
  /-- The holder has other constraints than those expected. -/
  | unsuited {holder : Holder} {expected : List String} (builds : s.Builds holder)
      (hsome : s.constraints = some expected)
      (hne : holder.constraints.map Constraint.describe ≠ expected) :
      s.EndsWith (.otherConstraints s.name expected (holder.constraints.map Constraint.describe))
  /-- A write is the first that does not go as expected. -/
  | failed {holder : Holder} {place : Nat} {step : Write} {mismatch : Mismatch}
      (builds : s.Builds holder) (suits : s.Suits holder)
      (hfirst : IsFirstFailure holder s.writes place step mismatch) :
      s.EndsWith (.write s.name step.name mismatch)

theorem GoesWell.run {s : Scenario} (h : s.GoesWell) : s.run = .ok () := by
  obtain ⟨holder, builds, suits, hwell⟩ := h
  rw [run_of_suits builds suits, replay_eq_ok_iff]
  exact hwell

theorem EndsWith.run {s : Scenario} {error : ScenarioError} (h : s.EndsWith error) :
    s.run = .error error := by
  cases h with
  | unnamed hname => exact run_of_unnamed hname
  | unbuilt hname hbuild => exact run_of_unbuilt hname hbuild
  | unsuited builds hsome hne => exact run_of_unsuited builds hsome hne
  | failed builds suits hfirst =>
    rw [run_of_suits builds suits, replay_eq_error_iff]
    exact ⟨_, _, _, hfirst, rfl⟩

/-- A scenario goes well, or there is a stage that ends it. -/
theorem goesWell_or_endsWith (s : Scenario) : s.GoesWell ∨ ∃ error, s.EndsWith error := by
  cases hname : s.holder with
  | none => exact .inr ⟨_, .unnamed hname⟩
  | some name =>
    cases hbuild : Holder.ofName name (s.registry.getD .standard) s.dialect with
    | error source => exact .inr ⟨_, .unbuilt hname hbuild⟩
    | ok holder =>
      have builds : s.Builds holder := ⟨name, hname, hbuild⟩
      rcases s.suits_or_not holder with suits | ⟨expected, hsome, hne⟩
      · cases hreplay : replay s.name holder s.writes with
        | ok => exact .inl ⟨holder, builds, suits, (replay_eq_ok_iff _ _ holder).mp hreplay⟩
        | error error =>
          obtain ⟨place, step, mismatch, hfirst, -⟩ :=
            (replay_eq_error_iff _ _ _ holder).mp hreplay
          exact .inr ⟨_, .failed builds suits hfirst⟩
      · exact .inr ⟨_, .unsuited builds hsome hne⟩

theorem run_eq_ok_iff (s : Scenario) : s.run = .ok () ↔ s.GoesWell := by
  constructor
  · intro h
    rcases s.goesWell_or_endsWith with hwell | ⟨error, hends⟩
    · exact hwell
    · cases hends.run.symm.trans h
  · exact GoesWell.run

theorem run_eq_error_iff (s : Scenario) (error : ScenarioError) :
    s.run = .error error ↔ s.EndsWith error := by
  constructor
  · intro h
    rcases s.goesWell_or_endsWith with hwell | ⟨other, hends⟩
    · cases hwell.run.symm.trans h
    · cases hends.run.symm.trans h
      exact hends
  · exact EndsWith.run

/-- What is written after the first failure has no say. -/
theorem run_of_take_eq {s : Scenario} {holder : Holder} {place : Nat} {step : Write}
    {mismatch : Mismatch} (builds : s.Builds holder) (suits : s.Suits holder)
    (hfirst : IsFirstFailure holder s.writes place step mismatch) {writes : List Write}
    (htake : writes.take (place + 1) = s.writes.take (place + 1)) :
    Scenario.run { s with writes := writes } = s.run := by
  have hends : EndsWith { s with writes := writes } (.write s.name step.name mismatch) :=
    .failed builds suits (hfirst.of_take_eq htake)
  rw [hends.run, (EndsWith.failed builds suits hfirst).run]

/-- **A scenario ends at the first thing that is not as expected.** It goes well exactly if its
holder has a name, can be built over the registry and in the dialect of the scenario, has the
constraints that are expected, and every write goes as expected on the holder that the writes before
it leave. Otherwise the error speaks of the first of these that fails: of the missing name, of the
error of building, of the constraints at a step of its own, or of the first write that does not go
as expected, by the name of its step. What is written after that write has no say. -/
theorem run_exact (s : Scenario) :
    (s.run = .ok () ↔ s.GoesWell) ∧
    (∀ error, s.run = .error error ↔ s.EndsWith error) ∧
    (∀ expected found, (ScenarioError.otherConstraints s.name expected found).message =
      s!"Scenario '{s.name}' step '<construct>': " ++
        s!"expected constraints {Quoted.list expected}, parsed {Quoted.list found}") ∧
    (∀ step mismatch, (ScenarioError.write s.name step mismatch).message =
      s!"Scenario '{s.name}' step '{step}': {mismatch.message}") ∧
    (∀ holder place step mismatch, s.Builds holder → s.Suits holder →
      IsFirstFailure holder s.writes place step mismatch →
      ∀ writes : List Write, writes.take (place + 1) = s.writes.take (place + 1) →
        Scenario.run { s with writes := writes } = s.run) := by
  exact ⟨s.run_eq_ok_iff, s.run_eq_error_iff, fun _ _ => rfl, fun _ _ => rfl,
    fun _ _ _ _ builds suits hfirst _ htake => run_of_take_eq builds suits hfirst htake⟩

/-- A write that is refused as expected does not end a scenario, and leaves what was stored. -/
example : (Scenario.run {
    name := "refusal"
    holder := some "scalar_with_integers_between_1_and_5"
    writes := [
      ⟨"inside", .int 3, .ofDemands [.accepted]⟩,
      ⟨"outside", .int 9, .ofDemands [.rejectedBy 1, .stored (.int 3)]⟩,
      ⟨"inside again", .int 4, .ofDemands [.accepted, .stored (.int 4)]⟩] }).isOk = true := by
  decide +kernel

end Scenario

end NameGuard
