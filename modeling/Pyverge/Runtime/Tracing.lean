import Pyverge.Py.Dict
import Pyverge.Runtime.Telemetry

/-! Adapters that correlate the start and the end of runs and steps.
Both keep what is active in maps keyed by run id, path and step index. The runs whose events they
receive interleave, and the publisher may suppress some of the events.
-/

namespace Pyverge

-----------------------------------------------------------------------------------------
-- Spans
-----------------------------------------------------------------------------------------

/-- The key of a step in the maps of the adapters. -/
def StepRef.key (step : StepRef) : String × Path × Nat := (step.run.runId, step.path, step.index)

/-- A span, by the errors that it has ended with; `none` is the status without one. -/
structure Span where
  ended : List (Option Raised)
  deriving DecidableEq

/-- `OtelAdapter`; spans are numbered in the order in which they are opened. -/
structure OtelAdapter where
  spans : List Span
  runs : Py.Dict String Nat
  steps : Py.Dict (String × Path × Nat) Nat
  deriving DecidableEq

namespace OtelAdapter

def new : OtelAdapter := ⟨[], ∅, ∅⟩

/-- `_exit`: note the status of a span and end it. -/
def exit (adapter : OtelAdapter) (span : Nat) (error : Option Raised) : OtelAdapter :=
  { adapter with spans := adapter.spans.modify span (fun span => ⟨span.ended ++ [error]⟩) }

def startRun (adapter : OtelAdapter) (run : RunRef) : OtelAdapter :=
  { adapter with
    spans := adapter.spans ++ [⟨[]⟩]
    runs := adapter.runs.set run.runId adapter.spans.length }

def finishRun (adapter : OtelAdapter) (run : RunRef) (error : Option Raised) : OtelAdapter :=
  match adapter.runs.get? run.runId with
  | none => adapter
  | some active => { adapter with runs := adapter.runs.erase run.runId }.exit active error

def startStep (adapter : OtelAdapter) (step : StepRef) : OtelAdapter :=
  { adapter with
    spans := adapter.spans ++ [⟨[]⟩]
    steps := adapter.steps.set step.key adapter.spans.length }

def finishStep (adapter : OtelAdapter) (step : StepRef) (error : Option Raised) : OtelAdapter :=
  match adapter.steps.get? step.key with
  | none => adapter
  | some active => { adapter with steps := adapter.steps.erase step.key }.exit active error

def emit (adapter : OtelAdapter) : TelemetryEvent → OtelAdapter
  | .runStarted run => adapter.startRun run
  | .runCompleted run => adapter.finishRun run none
  | .runFailed run error => adapter.finishRun run (some error)
  | .stepStarted step => adapter.startStep step
  | .stepCompleted step => adapter.finishStep step none
  | .stepFailed step error => adapter.finishStep step (some error)

end OtelAdapter

-----------------------------------------------------------------------------------------
-- Lineage events
-----------------------------------------------------------------------------------------

/-- The run of a lineage event: derived from the run id, or drawn anew for each step. -/
inductive LineageRun where
  | run (runId : String)
  | step (drawn : Nat)
  deriving DecidableEq

inductive LineageState where
  | start
  | complete
  | fail (error : Raised)
  deriving DecidableEq

structure LineageEvent where
  run : LineageRun
  state : LineageState
  deriving DecidableEq

def LineageState.finished : Option Raised → LineageState
  | none => .complete
  | some error => .fail error

/-- `OpenLineageAdapter`, with what its client has received. -/
structure OpenLineageAdapter where
  sent : List LineageEvent
  runs : List String
  steps : Py.Dict (String × Path × Nat) Nat
  deriving DecidableEq

namespace OpenLineageAdapter

def new : OpenLineageAdapter := ⟨[], [], ∅⟩

def send (adapter : OpenLineageAdapter) (run : LineageRun) (state : LineageState)
    : OpenLineageAdapter :=
  { adapter with sent := adapter.sent ++ [⟨run, state⟩] }

def startRun (adapter : OpenLineageAdapter) (run : RunRef) : OpenLineageAdapter :=
  { adapter.send (.run run.runId) .start with runs := adapter.runs.insert run.runId }

def finishRun (adapter : OpenLineageAdapter) (run : RunRef) (error : Option Raised)
    : OpenLineageAdapter :=
  if run.runId ∈ adapter.runs then
    { adapter with runs := adapter.runs.filter (· ≠ run.runId) }.send (.run run.runId)
      (.finished error)
  else adapter

/-- The number of the event serves as the id that is drawn for the step. -/
def startStep (adapter : OpenLineageAdapter) (step : StepRef) : OpenLineageAdapter :=
  if step.run.runId ∈ adapter.runs then
    { adapter.send (.step adapter.sent.length) .start with
      steps := adapter.steps.set step.key adapter.sent.length }
  else adapter

def finishStep (adapter : OpenLineageAdapter) (step : StepRef) (error : Option Raised)
    : OpenLineageAdapter :=
  match adapter.steps.get? step.key with
  | none => adapter
  | some drawn =>
      { adapter with steps := adapter.steps.erase step.key }.send (.step drawn) (.finished error)

def emit (adapter : OpenLineageAdapter) : TelemetryEvent → OpenLineageAdapter
  | .runStarted run => adapter.startRun run
  | .runCompleted run => adapter.finishRun run none
  | .runFailed run error => adapter.finishRun run (some error)
  | .stepStarted step => adapter.startStep step
  | .stepCompleted step => adapter.finishStep step none
  | .stepFailed step error => adapter.finishStep step (some error)

end OpenLineageAdapter

/-- One started run of the lineage client, by the errors that it has ended with. -/
structure LineageRecord where
  run : LineageRun
  ended : List (Option Raised)
  deriving DecidableEq

/-- End the last run that was started under an id. -/
def endLast (run : LineageRun) (error : Option Raised) : List LineageRecord → List LineageRecord
  | [] => []
  | record :: rest =>
      if rest.any (·.run = run) then record :: endLast run error rest
      else if record.run = run then { record with ended := record.ended ++ [error] } :: rest
      else record :: rest

/-- The runs that the client makes of the events it has received. -/
def lineageRecords (sent : List LineageEvent) : List LineageRecord :=
  sent.foldl (fun records event =>
    match event.state with
    | .start => records ++ [⟨event.run, []⟩]
    | .complete => endLast event.run none records
    | .fail error => endLast event.run (some error) records) []

-----------------------------------------------------------------------------------------
-- Interleaved runs
-----------------------------------------------------------------------------------------

/-- What the runs are about to emit: the open runs and steps, each with its number if its start
was delivered, and by number how the delivered ones have ended.
-/
structure TelemetrySource where
  runs : Py.Dict RunRef (Option Nat)
  steps : Py.Dict StepRef (Option Nat)
  outcomes : List (Option (Option Raised))
  failures : List Raised
  deriving DecidableEq

namespace TelemetrySource

def new : TelemetrySource := ⟨∅, ∅, [], []⟩

/-- The number of a run or step that starts. -/
def number (source : TelemetrySource) (delivered : Bool) : Option Nat :=
  if delivered then some source.outcomes.length else none

def opened (source : TelemetrySource) (delivered : Bool) : List (Option (Option Raised)) :=
  if delivered then source.outcomes ++ [none] else source.outcomes

/-- Note how a run or step has ended. -/
def closed (source : TelemetrySource) (delivered : Bool) (number : Option (Option Nat))
    (error : Option Raised) : TelemetrySource :=
  if delivered then
    { source with
      outcomes := (number.join.map (fun n => source.outcomes.set n (some error))).getD
        source.outcomes
      failures := source.failures ++ error.toList }
  else source

/-- What one event changes. -/
def advance (publisher : TelemetryPublisher) (source : TelemetrySource) (event : TelemetryEvent)
    : TelemetrySource :=
  let delivered := publisher.delivers event
  let finishRun run error :=
    { source.closed delivered (source.runs.get? run) error with runs := source.runs.erase run }
  let finishStep step error :=
    { source.closed delivered (source.steps.get? step) error with steps := source.steps.erase step }
  match event with
  | .runStarted run =>
      { source with
        runs := source.runs.set run (source.number delivered)
        outcomes := source.opened delivered }
  | .stepStarted step =>
      { source with
        steps := source.steps.set step (source.number delivered)
        outcomes := source.opened delivered }
  | .runCompleted run => finishRun run none
  | .runFailed run error => finishRun run (some error)
  | .stepCompleted step => finishStep step none
  | .stepFailed step error => finishStep step (some error)

/-- Runs start and end once, with their steps in between; a step may be tried again after it
has ended.
-/
def Allows (source : TelemetrySource) : TelemetryEvent → Prop
  | .runStarted run => run ∉ source.runs.keys
  | .runCompleted run | .runFailed run _ =>
      run ∈ source.runs.keys ∧ ∀ step ∈ source.steps.keys, step.run ≠ run
  | .stepStarted step => step.run ∈ source.runs.keys ∧ step ∉ source.steps.keys
  | .stepCompleted step | .stepFailed step _ => step ∈ source.steps.keys

end TelemetrySource

/-- The runs together with the adapters that follow them. -/
structure TracedRuns where
  source : TelemetrySource
  otel : OtelAdapter
  lineage : OpenLineageAdapter
  deriving DecidableEq

namespace TracedRuns

def new : TracedRuns := ⟨.new, .new, .new⟩

def step (publisher : TelemetryPublisher) (traced : TracedRuns) (event : TelemetryEvent)
    : TracedRuns where
  source := traced.source.advance publisher event
  otel := if publisher.delivers event then traced.otel.emit event else traced.otel
  lineage := if publisher.delivers event then traced.lineage.emit event else traced.lineage

end TracedRuns

/-- Every run and step that was started under a number has ended as its spans say; when no run is
open, nothing is active; and every failure is on some span.
-/
structure Accounts (source : TelemetrySource) (ended : List (List (Option Raised)))
    (active : Bool) : Prop where
  statuses : ended = source.outcomes.map Option.toList
  idle : source.runs.keys = [] → active = false ∧ ∀ errors ∈ ended, errors.length = 1
  failures : ∀ error ∈ source.failures, ∃ errors ∈ ended, some error ∈ errors

/-- Both adapters account for the runs. -/
structure TracedRuns.Accounted (traced : TracedRuns) : Prop where
  otel : Accounts traced.source (traced.otel.spans.map Span.ended)
    (!traced.otel.runs.keys.isEmpty || !traced.otel.steps.keys.isEmpty)
  lineage : Accounts traced.source ((lineageRecords traced.lineage.sent).map LineageRecord.ended)
    (!traced.lineage.runs.isEmpty || !traced.lineage.steps.keys.isEmpty)

end Pyverge
