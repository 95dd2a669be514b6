import NameGuard.Journal
import NameGuard.Scenario.Expectation

/-!
# Scenarios

A scenario builds a holder from a name, compares its constraints with those it expects, and replays
writes, each with an expectation. It ends at the first thing that is not as expected.

* `Scenario.run` — whether all went as expected;
* `Scenario.journal` — the events on the way.
-/

set_option autoImplicit false

namespace NameGuard

/-- One write of a scenario. -/
structure Scenario.Write where
  name : String
  value : Value
  expectation : Expectation

/-- A holder to build, and writes to replay. -/
structure Scenario where
  name : String
  holder : Option String := none
  /-- The registry that the holder is built over; the standard one where none is set. -/
  registry : Option Registry := none
  dialect : Dialect := {}
  /-- What the constraints of the holder should ask for. -/
  constraints : Option (List String) := none
  writes : List Scenario.Write := []

/-- Why a scenario ended early. -/
inductive ScenarioError where
  | missingHolder (scenario : String)
  | construct (scenario name : String) (source : HolderError)
  | otherConstraints (scenario : String) (expected found : List String)
  | write (scenario step : String) (mismatch : Mismatch)

def ScenarioError.message : ScenarioError → String
  | .missingHolder scenario => s!"Scenario '{scenario}' has no holder name"
  | .construct scenario name source =>
    s!"Scenario '{scenario}': holder '{name}' failed to build: {source.message}"
  | .otherConstraints scenario expected found =>
    s!"Scenario '{scenario}' step '<construct>': " ++
      s!"expected constraints {Quoted.list expected}, parsed {Quoted.list found}"
  | .write scenario step mismatch =>
    s!"Scenario '{scenario}' step '{step}': {mismatch.message}"

namespace Scenario

/-- The holder of a name, over the registry of the scenario. -/
def build (s : Scenario) (name : String) : Except HolderError Holder :=
  Holder.ofName name (s.registry.getD .standard) s.dialect

/-- Replays writes on a holder, up to the first that does not go as expected. -/
def replay (scenario : String) (holder : Holder) : List Write → Except ScenarioError Unit
  | [] => .ok ()
  | step :: rest =>
    let outcome := holder.write step.value
    match step.expectation.verify outcome.1 outcome.2 with
    | .error mismatch => .error (.write scenario step.name mismatch)
    | .ok () => replay scenario outcome.2 rest

/-- Whether the constraints of a holder are those expected. -/
def checkConstraints (s : Scenario) (holder : Holder) : Except ScenarioError Unit :=
  let found := holder.constraints.map Constraint.describe
  match s.constraints with
  | some expected =>
    if found = expected then .ok () else .error (.otherConstraints s.name expected found)
  | none => .ok ()

def run (s : Scenario) : Except ScenarioError Unit :=
  match s.holder with
  | none => .error (.missingHolder s.name)
  | some name =>
    match s.build name with
    | .error error => .error (.construct s.name name error)
    | .ok holder =>
      match s.checkConstraints holder with
      | .error error => .error error
      | .ok () => replay s.name holder s.writes

/-- The events of replaying writes, up to the first that does not go as expected. -/
def replayJournal (holder : Holder) : List Write → List Event
  | [] => []
  | step :: rest =>
    let outcome := holder.write step.value
    holder.writeJournal step.value ++
      match step.expectation.verify outcome.1 outcome.2 with
      | .error _ => []
      | .ok () => replayJournal outcome.2 rest

def journal (s : Scenario) : List Event :=
  match s.holder with
  | none => []
  | some name =>
    Holder.ofNameJournal name (s.registry.getD .standard) s.dialect ++
      match s.build name with
      | .error _ => []
      | .ok holder =>
        match s.checkConstraints holder with
        | .error _ => []
        | .ok () => replayJournal holder s.writes

end Scenario

end NameGuard
