import Mathlib.Algebra.Order.Field.Rat
import Pyverge.Planning.Path
import Pyverge.Py.Effects

/-! Telemetry events and their publication.
The publisher decides by mode which events reach the adapters. It logs what an adapter raises,
so only an exception that is not an `Exception` gets past it.
-/

namespace Pyverge

-----------------------------------------------------------------------------------------
-- Events
-----------------------------------------------------------------------------------------

/-- The context of one run. The number tells apart the `execute` calls, which may share their
run id.
-/
structure RunRef where
  call : Nat
  runId : String
  deriving DecidableEq

/-- The context of one step of a run. -/
structure StepRef where
  run : RunRef
  path : Path
  index : Nat
  deriving DecidableEq

inductive TelemetryEvent where
  | runStarted (run : RunRef)
  | runCompleted (run : RunRef)
  | runFailed (run : RunRef) (error : Raised)
  | stepStarted (step : StepRef)
  | stepCompleted (step : StepRef)
  | stepFailed (step : StepRef) (error : Raised)
  deriving DecidableEq

namespace TelemetryEvent

/-- `_event_run_id` -/
def runId : TelemetryEvent → String
  | .runStarted run | .runCompleted run | .runFailed run _ => run.runId
  | .stepStarted step | .stepCompleted step | .stepFailed step _ => step.run.runId

def isFailure : TelemetryEvent → Bool
  | .runFailed .. | .stepFailed .. => true
  | .runStarted _ | .runCompleted _ | .stepStarted _ | .stepCompleted _ => false

end TelemetryEvent

-----------------------------------------------------------------------------------------
-- The publisher
-----------------------------------------------------------------------------------------

inductive TelemetryMode where
  | all
  | errors
  | sampled
  | off
  deriving DecidableEq

/-- An adapter, by what it raises on the last of the events that it has received. -/
abbrev TelemetryAdapter := List TelemetryEvent → Option Raised

/-- The publisher. The fraction of a run id is the number below one that its digest stands
for.
-/
structure TelemetryPublisher where
  adapters : List TelemetryAdapter
  mode : TelemetryMode
  sampleRate : ℚ
  fraction : String → ℚ

namespace TelemetryPublisher

def enabled (publisher : TelemetryPublisher) : Bool :=
  !publisher.adapters.isEmpty && publisher.mode != .off

def emitsSuccess (publisher : TelemetryPublisher) : Bool :=
  match publisher.mode with
  | .all => publisher.enabled
  | .sampled => publisher.enabled && decide (0 < publisher.sampleRate)
  | .errors | .off => false

def emitsFailure (publisher : TelemetryPublisher) : Bool := publisher.enabled

def isSampled (publisher : TelemetryPublisher) (event : TelemetryEvent) : Bool :=
  if publisher.sampleRate ≤ 0 then false
  else if 1 ≤ publisher.sampleRate then true
  else decide (publisher.fraction event.runId < publisher.sampleRate)

/-- Whether an event gets to the adapters. -/
def delivers (publisher : TelemetryPublisher) (event : TelemetryEvent) : Bool :=
  publisher.enabled
    && !(publisher.mode == .errors && !event.isFailure)
    && !(publisher.mode == .sampled && !publisher.isSampled event)

/-- What the adapters have received, in the order of the adapters. -/
abbrev Inboxes := List (List TelemetryEvent)

/-- The loop over the adapters: what an adapter raises is logged if it is an `Exception`. -/
def fanOut (event : TelemetryEvent) : List TelemetryAdapter → EStateM Raised Inboxes PUnit
  | [], inboxes => .ok ⟨⟩ inboxes
  | adapter :: rest, inboxes =>
      let received := inboxes.headD [] ++ [event]
      match (adapter received).filter (fun error => !error.isException) with
      | some error => .error error (received :: inboxes.tail)
      | none =>
          match fanOut event rest inboxes.tail with
          | .ok _ later => .ok ⟨⟩ (received :: later)
          | .error error later => .error error (received :: later)

def emit (publisher : TelemetryPublisher) (event : TelemetryEvent)
    : EStateM Raised Inboxes PUnit :=
  if publisher.delivers event then fanOut event publisher.adapters else return ()

end TelemetryPublisher

end Pyverge
