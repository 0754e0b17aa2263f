import Pyverge.Runtime.Coordinator
import Pyverge.Runtime.Nested

/-! The runner: planning a request and executing the plan.
Without a table of plans, the answer of a request does not depend on the requests before it.
-/

namespace Pyverge

open Py (Json)

variable {V M F H : Type}

inductive RunError (V : Type) where
  | planning (error : PlanningError V)
  | unknownModel (ref : ModelRef)
  | raised (error : Raised)
  deriving DecidableEq

/-- The parts of a runner. The adapter resolves a model reference and tells whether it identifies
the model.
-/
structure Runner (V M F H : Type) where
  coordinator : ExecutionCoordinator V M F H
  identifies : ModelRef → Except Raised Bool
  setup : RunSetup V F H

/-- Programs of a runner. -/
abbrev RunM (V M : Type) [DecidableEq V] := EStateM (RunError V) (CoordinatorState V M)

namespace Runner

variable [DecidableEq V] [VersionValue V] (runner : Runner V M F H)

omit [DecidableEq V] [VersionValue V] in
/-- The loop of `plan` over the entries. -/
def checkModels : List (PathPlanEntry V) → Except (RunError V) PUnit
  | [] => .ok ⟨⟩
  | entry :: rest => do
      let known ← (runner.identifies entry.targetModel).mapError .raised
      if known then checkModels rest else throw (.unknownModel entry.targetModel)

/-- `Runner.plan` -/
def plan (request : PlanRequest V M) : RunM V M (ExecutionPlan V F H) := do
  let plan ← Py.zoom id (fun reached _ => reached) .planning (runner.coordinator.plan request)
  Py.query (fun _ => runner.checkModels plan.path.entries)
  return plan

omit [DecidableEq V] in
/-- `Runner.execute` with a backend that takes one entry after the other. -/
def execute (mode : Mode) (plan : ExecutionPlan V F H) : Except Raised Json :=
  Py.outcome (executeLevels mode runner.setup plan.levels plan.payload) []

/-- `Runner.run` without a final validation. -/
def run (mode : Mode) (request : PlanRequest V M) : RunM V M Json := do
  let plan ← runner.plan request
  Py.query (fun _ => (runner.execute mode plan).mapError .raised)

-----------------------------------------------------------------------------------------
-- Running without tables
-----------------------------------------------------------------------------------------

/-- The plan of a request by itself. -/
def planned (request : PlanRequest V M) : Except (PlanningError V) (ExecutionPlan V F H) := do
  let entries ← runner.coordinator.extract request
  let found ← (runner.coordinator.found request entries).mapError .catalog
  (buildPlan runner.coordinator.bindings found.plan request.payload).mapError .catalog

/-- What a request by itself is answered with. -/
def ran (mode : Mode) (request : PlanRequest V M) : Except (RunError V) Json := do
  let plan ← (runner.planned request).mapError .planning
  runner.checkModels plan.path.entries
  (runner.execute mode plan).mapError .raised

/-- The states of a coordinator whose plans are not cached, which is the default. -/
def Uncached (state : CoordinatorState V M) : Prop :=
  runner.coordinator.Remembers (fun _ _ => False) 0 state

variable {runner}

section Tables

variable {Expected : PlanKey → FoundPlan V M → Prop} {size : Int} {request : PlanRequest V M}

/-- Where the table has the right plans for a request, it is planned as it is by itself. -/
theorem plan_answers_of
    (right : size ≠ 0 → ∀ entries key plan, runner.coordinator.extract request = .ok entries →
      runner.coordinator.key request entries = some key → Expected key plan →
      runner.coordinator.found request entries = .ok plan)
    (fresh : size ≠ 0 → ∀ entries key plan, runner.coordinator.extract request = .ok entries →
      runner.coordinator.key request entries = some key →
      runner.coordinator.found request entries = .ok plan → Expected key plan)
    : Py.Answers (runner.coordinator.Remembers Expected size) (runner.coordinator.plan request)
        (runner.planned request) := by
  refine .bind_of_ok (.const _ _) (fun entries discovered => .bind ?_ (fun _ => .const _ _))
  exact ExecutionCoordinator.pathPlan_answers
    (fun enabled key plan => right enabled entries key plan discovered)
    (fun enabled key plan => fresh enabled entries key plan discovered)

/-- A request that is planned as by itself is answered as by itself. -/
theorem run_answers_of {Valid : CoordinatorState V M → Prop} (mode : Mode)
    (answers : Py.Answers Valid (runner.coordinator.plan request) (runner.planned request))
    : Py.Answers Valid (runner.run mode request) (runner.ran mode request) := by
  have plans : Py.Answers Valid (Py.zoom id (fun reached _ => reached) .planning
      (runner.coordinator.plan request)) ((runner.planned request).mapError RunError.planning) :=
    answers.zoom (fun _ valid => valid) (fun _ _ _ reached => reached)
  have runs := (plans.bind (fun plan => .bind (.const _ (runner.checkModels plan.path.entries))
    (fun _ => .pure _ plan))).bind
    (fun plan => .const _ ((runner.execute mode plan).mapError .raised))
  intro state valid
  obtain ⟨given, kept⟩ := runs state valid
  refine ⟨given.trans ?_, kept⟩
  unfold ran
  cases runner.planned request with
  | error error => rfl
  | ok plan =>
      simp only [Except.mapError, bind, Except.bind]
      cases runner.checkModels plan.path.entries <;> rfl

end Tables

/-- Whatever was run before, a request is answered as it is by itself. -/
theorem run_answers (mode : Mode) (request : PlanRequest V M)
    : Py.Answers runner.Uncached (runner.run mode request) (runner.ran mode request) :=
  run_answers_of mode (plan_answers_of (fun enabled => (enabled rfl).elim)
    (fun enabled => (enabled rfl).elim))

-----------------------------------------------------------------------------------------
-- What a runner finds
-----------------------------------------------------------------------------------------

/-- The entries of a request in terms of what is found in its payload. -/
def entriesOf (finds : List (Path × VersionNode V)) : List (ExtractedEntry V) :=
  finds.map (fun find => ⟨find.1, find.2⟩)

/-- What the runner matches entries by. -/
def matched (runner : Runner V M F H) : Json → Option (VersionNode V) :=
  runner.coordinator.finder.graph.matchPayload runner.coordinator.adapter.kindProperty
    runner.coordinator.adapter.versionProperty

/-- Without a source model and without a limit, the entries of a request are all finds. -/
theorem extract_of_containerless {request : PlanRequest V M} (noModel : request.sourceModel = none)
    (unlimited : request.maxDepth < 0)
    : runner.coordinator.extract request
      = .ok (entriesOf (finds true runner.matched request.payload)) := by
  simp only [ExecutionCoordinator.extract, noModel, extract_containerless _ _ unlimited,
    Except.map, Except.mapError, List.map_map, entriesOf, matched]
  congr 1

end Runner

end Pyverge
