import Pyverge.Runtime.Backends
import Pyverge.Runtime.Telemetry

/-! The telemetry events of one run.
What a task reads and what its callables return may depend on what runs beside it, where a
cancelled await raises as well; so every step has callables of its own here.
-/

namespace Pyverge

open Py (Json)

variable {V F H : Type}

-----------------------------------------------------------------------------------------
-- Publishing
-----------------------------------------------------------------------------------------

namespace TelemetryPublisher

/-- Whether the runtime makes the event at all. -/
def constructs (publisher : TelemetryPublisher) (event : TelemetryEvent) : Bool :=
  if event.isFailure then publisher.emitsFailure else publisher.emitsSuccess

def publish (publisher : TelemetryPublisher) (event : TelemetryEvent)
    : EStateM Raised Inboxes PUnit :=
  if publisher.constructs event then publisher.emit event else return ()

/-- Publishing the event may raise the error. -/
def Escapes (publisher : TelemetryPublisher) (event : TelemetryEvent) (error : Raised) : Prop :=
  ∃ inboxes later, publisher.publish event inboxes = .error error later

/-- No adapter raises anything but an `Exception`. -/
def Contained (publisher : TelemetryPublisher) : Prop :=
  ∀ adapter ∈ publisher.adapters, ∀ received error,
    adapter received = some error → error.isException = true

/-- Publish the events of a run one after the other. -/
def publishAll (publisher : TelemetryPublisher) (events : List TelemetryEvent)
    : EStateM Raised Inboxes PUnit :=
  events.forM publisher.publish

end TelemetryPublisher

/-- How publishing an event ends: quietly, or with an error that gets past the publisher. -/
inductive Published (publisher : TelemetryPublisher) (event : TelemetryEvent)
    : Option Raised → Prop where
  | quiet : Published publisher event none
  | escaped {error : Raised} (escapes : publisher.Escapes event error)
      : Published publisher event (some error)

-----------------------------------------------------------------------------------------
-- Steps and entries
-----------------------------------------------------------------------------------------

def BoundStep.ref (run : RunRef) (step : BoundStep V F H) : StepRef :=
  ⟨run, step.context.path, step.context.index⟩

section Steps

variable [VersionValue V]

/-- What happens between the scopes: nothing is migrated if one refuses to be entered. -/
def insideScopes (mode : Mode) (calls : Calls V F H) (ends : EntryEnds V) (step : BoundStep V F H)
    (data : Json) : Option Raised → ExecM V (Option Json × Option Raised)
  | some error => return (none, some error)
  | none => migrateStep mode calls ends step.func step.hooks step.context data

/-- The part of a step that its telemetry brackets: what was migrated, and the exception that
leaves its scopes.
-/
def scopedStep (mode : Mode) (calls : Calls V F H) (ends : EntryEnds V) (step : BoundStep V F H)
    (data : Json) : ExecM V (Option Json × Option Raised) := do
  let entered ← beforeHooks mode step.context
    (fun hook => calls.before hook step.context data) step.hooks
  let ended ← insideScopes mode calls ends step data entered.2
  let left ← exitScopes step.context entered.1 ended.2
  return (ended.1, left)

/-- What a step gives back after its last event. -/
def stepResult (migrated : Option Json) : Option Raised → Except Raised Json
  | some error => .error error
  | none => migrated.elim (.error .unboundLocalError) .ok

variable (publisher : TelemetryPublisher) (mode : Mode) (property : String) (run : RunRef)

/-- `run_sync` and `run_async`, by their events and by what they return or raise. -/
inductive StepEvents (ends : EntryEnds V) (step : BoundStep V F H) (data : Json)
    : List TelemetryEvent → Except Raised Json → Prop where
  | refused {error : Raised} (escapes : publisher.Escapes (.stepStarted (step.ref run)) error)
      : StepEvents ends step data [.stepStarted (step.ref run)] (.error error)
  | failed {calls : Calls V F H} {migrated : Option Json} {error : Raised} {escaped : Option Raised}
      (body : Py.outcome (scopedStep mode calls ends step data) [] = .ok (migrated, some error))
      (published : Published publisher (.stepFailed (step.ref run) error) escaped)
      : StepEvents ends step data [.stepStarted (step.ref run), .stepFailed (step.ref run) error]
          (.error (escaped.getD error))
  | completed {calls : Calls V F H} {migrated : Option Json} {escaped : Option Raised}
      (body : Py.outcome (scopedStep mode calls ends step data) [] = .ok (migrated, none))
      (published : Published publisher (.stepCompleted (step.ref run)) escaped)
      : StepEvents ends step data [.stepStarted (step.ref run), .stepCompleted (step.ref run)]
          (stepResult migrated escaped)

/-- `execute_sync` and `execute_async`: step by step, until one raises. -/
inductive StepsEvents (ends : EntryEnds V)
    : List (BoundStep V F H) → Json → List TelemetryEvent → Except Raised Json → Prop where
  | done (current : Json) : StepsEvents ends [] current [] (.ok current)
  | raise {step : BoundStep V F H} {rest : List (BoundStep V F H)} {current : Json}
      {events : List TelemetryEvent} {error : Raised}
      (ran : StepEvents publisher mode run ends step current events (.error error))
      : StepsEvents ends (step :: rest) current events (.error error)
  | next {step : BoundStep V F H} {rest : List (BoundStep V F H)} {current migrated : Json}
      {events later : List TelemetryEvent} {out : Except Raised Json}
      (ran : StepEvents publisher mode run ends step current events (.ok migrated))
      (others : StepsEvents ends rest (stampVersion property
        (VersionValue.str step.context.target.id.version) migrated) later out)
      : StepsEvents ends (step :: rest) current (events ++ later) out

/-- One entry of a level: it has no events if it cannot be read or is cancelled before. -/
inductive EntryEvents (entry : ExecutionEntry V F H)
    : List TelemetryEvent → Except Raised (Path × Json) → Prop where
  | unread (error : Raised) : EntryEvents entry [] (.error error)
  | ran {value : Json} {events : List TelemetryEvent} {out : Except Raised Json}
      (steps : StepsEvents publisher mode property run entry.ends entry.boundSteps value events out)
      : EntryEvents entry events (out.map (entry.path, ·))

-----------------------------------------------------------------------------------------
-- Levels, plans and runs
-----------------------------------------------------------------------------------------

/-- The events that carry a tag, in order. -/
def tagged {ι : Type} [DecidableEq ι] (tag : ι) (events : List (ι × TelemetryEvent))
    : List TelemetryEvent :=
  (events.filter (·.1 = tag)).map Prod.snd

/-- A level entry by entry, until one raises. -/
inductive SerialEvents
    : List (ExecutionEntry V F H) → List TelemetryEvent → Except Raised (List (Path × Json)) → Prop
  where
  | nil : SerialEvents [] [] (.ok [])
  | raise {entry : ExecutionEntry V F H} {rest : List (ExecutionEntry V F H)}
      {events : List TelemetryEvent} {error : Raised}
      (ran : EntryEvents publisher mode property run entry events (.error error))
      : SerialEvents (entry :: rest) events (.error error)
  | next {entry : ExecutionEntry V F H} {rest : List (ExecutionEntry V F H)}
      {events later : List TelemetryEvent} {result : Path × Json}
      {out : Except Raised (List (Path × Json))}
      (ran : EntryEvents publisher mode property run entry events (.ok result))
      (others : SerialEvents rest later out)
      : SerialEvents (entry :: rest) (events ++ later) (out.map (result :: ·))

/-- A level as tasks of a pool, tagged by their places. A pool waits for every task it has
started, also when it raises.
-/
inductive PooledEvents (level : List (ExecutionEntry V F H))
    : List TelemetryEvent → Except Raised (List (Path × Json)) → Prop where
  | returned {events : List (Nat × TelemetryEvent)} {results : List (Path × Json)}
      (ran : ∀ place entry, level[place]? = some entry → ∃ result ∈ results,
        EntryEvents publisher mode property run entry (tagged place events) (.ok result))
      (inside : ∀ event ∈ events, event.1 < level.length)
      : PooledEvents level (events.map Prod.snd) (.ok results)
  | raised {events : List (Nat × TelemetryEvent)} {error : Raised}
      (ran : ∀ place entry, level[place]? = some entry → ∃ out,
        EntryEvents publisher mode property run entry (tagged place events) out)
      (inside : ∀ event ∈ events, event.1 < level.length)
      : PooledEvents level (events.map Prod.snd) (.error error)

def LevelEvents (pooled : Bool) (level : List (ExecutionEntry V F H))
    (events : List TelemetryEvent) (out : Except Raised (List (Path × Json))) : Prop :=
  if pooled then PooledEvents publisher mode property run level events out
  else SerialEvents publisher mode property run level events out

/-- `execute` of a backend over the levels of a plan; applying the results of a level may raise.
-/
inductive LevelsEvents (pooled : Bool)
    : List (List (ExecutionEntry V F H)) → List TelemetryEvent → Except Raised Json → Prop where
  | nil (data : Json) : LevelsEvents pooled [] [] (.ok data)
  | raise {level : List (ExecutionEntry V F H)} {rest : List (List (ExecutionEntry V F H))}
      {events : List TelemetryEvent} {error : Raised}
      (ran : LevelEvents publisher mode property run pooled level events (.error error))
      : LevelsEvents pooled (level :: rest) events (.error error)
  | unapplied {level : List (ExecutionEntry V F H)} {rest : List (List (ExecutionEntry V F H))}
      {events : List TelemetryEvent} {results : List (Path × Json)} (error : Raised)
      (ran : LevelEvents publisher mode property run pooled level events (.ok results))
      : LevelsEvents pooled (level :: rest) events (.error error)
  | next {level : List (ExecutionEntry V F H)} {rest : List (List (ExecutionEntry V F H))}
      {events later : List TelemetryEvent} {results : List (Path × Json)}
      {out : Except Raised Json}
      (ran : LevelEvents publisher mode property run pooled level events (.ok results))
      (others : LevelsEvents pooled rest later out)
      : LevelsEvents pooled (level :: rest) (events ++ later) out

end Steps

def Backend.mode : Backend → Mode
  | .threaded _ | .process _ => .sync
  | .async _ => .async

def Backend.pooled : Backend → Bool
  | .threaded maxWorkers | .async maxWorkers => decide (1 < maxWorkers)
  | .process _ => false

section Runs

variable [VersionValue V] (publisher : TelemetryPublisher) (property : String) (run : RunRef)
  (backend : Backend) (plan : ExecutionPlan V F H)

/-- A backend, and a backend behind middleware, which may execute the plan any number of times
and decides on the outcome.
-/
inductive LayeredEvents : Bool → List TelemetryEvent → Except Raised Json → Prop where
  | plain {wrapped : Bool} {events : List TelemetryEvent} {out : Except Raised Json}
      (ran : LevelsEvents publisher backend.mode property run backend.pooled plan.levels events out)
      : LayeredEvents wrapped events out
  | layered {attempts : List (List TelemetryEvent)} {out : Except Raised Json}
      (ran : ∀ events ∈ attempts, ∃ ended,
        LevelsEvents publisher backend.mode property run backend.pooled plan.levels events ended)
      : LayeredEvents true attempts.flatten out

/-- `Runner.execute` and `_await_result`, awaited if they are asynchronous. -/
inductive ExecuteEvents (wrapped : Bool) : List TelemetryEvent → Except Raised Json → Prop where
  | refused {error : Raised} (escapes : publisher.Escapes (.runStarted run) error)
      : ExecuteEvents wrapped [.runStarted run] (.error error)
  | failed {events : List TelemetryEvent} {error : Raised} {escaped : Option Raised}
      (ran : LayeredEvents publisher property run backend plan wrapped events (.error error))
      (published : Published publisher (.runFailed run error) escaped)
      : ExecuteEvents wrapped (.runStarted run :: events ++ [.runFailed run error])
          (.error (escaped.getD error))
  | completed {events : List TelemetryEvent} {value : Json} {escaped : Option Raised}
      (ran : LayeredEvents publisher property run backend plan wrapped events (.ok value))
      (published : Published publisher (.runCompleted run) escaped)
      : ExecuteEvents wrapped (.runStarted run :: events ++ [.runCompleted run])
          (stepResult (some value) escaped)

end Runs

-----------------------------------------------------------------------------------------
-- Serial backends
-----------------------------------------------------------------------------------------

/-- The telemetry event of a moment of a step. -/
def StepEvent.telemetry? (run : RunRef) (event : StepEvent V) : Option TelemetryEvent :=
  let step : StepRef := ⟨run, event.step.path, event.step.index⟩
  match event.moment with
  | .started => some (.stepStarted step)
  | .completed => some (.stepCompleted step)
  | .failed error => some (.stepFailed step error)
  | .before _ | .entered _ | .migrate | .onError _ | .after _ | .exited _ => none

def telemetryEvents (run : RunRef) (trace : List (StepEvent V)) : List TelemetryEvent :=
  trace.filterMap (StepEvent.telemetry? run)

/-- The last event of a step and what it gives back. -/
def closeStep (telemetry : Telemetry) (step : StepContext V)
    : Option Json × Option Raised → ExecM V Json
  | (_, some error) => do
      emit telemetry.emitsFailure step (.failed error)
      throw error
  | (migrated, none) => do
      emit telemetry.emitsSuccess step .completed
      match migrated with
      | some value => return value
      | none => throw .unboundLocalError

section Serial

variable (run : RunRef)

/-- Moments that telemetry does not report leave no event. -/
theorem record_keeps {step : StepContext V} {moment : StepMoment}
    (silent : StepEvent.telemetry? run ⟨step, moment⟩ = none)
    : Py.Keeps (telemetryEvents run) (record step moment) := by
  apply Py.Keeps.modify
  intro trace
  simp [telemetryEvents, silent]

theorem settled_keeps {α : Type} (outcome : Except Raised α)
    : Py.Keeps (telemetryEvents run) (settled outcome : ExecM V α) :=
  .query _ _

theorem attempt_keeps {program : ExecM V PUnit} (keeps : Py.Keeps (telemetryEvents run) program)
    : Py.Keeps (telemetryEvents run) (attempt program) :=
  .tryCatch (.bind keeps (fun _ => .pure _ _)) (fun _ => .pure _ _)

theorem invokeHook_keeps {α : Type} {step : StepContext V} {moment : Nat → StepMoment}
    (silent : ∀ place, StepEvent.telemetry? run ⟨step, moment place⟩ = none)
    (call : H → Except Raised α) (place : Nat) (hooks : List H)
    : Py.Keeps (telemetryEvents run) (invokeHook step moment call place hooks) := by
  induction hooks generalizing place with
  | nil => exact .pure _ _
  | cons hook rest ih =>
      refine .bind (record_keeps run (silent place)) (fun _ => .bind (settled_keeps run _) ?_)
      exact fun _ => .bind (ih (place + 1)) (fun _ => .pure _ _)

theorem callHooks_keeps (mode : Mode) {step : StepContext V} {moment : Nat → StepMoment}
    (silent : ∀ place, StepEvent.telemetry? run ⟨step, moment place⟩ = none)
    (call : H → Except Raised (Returned Unit)) (hooks : List H)
    : Py.Keeps (telemetryEvents run) (callHooks mode step moment call hooks) :=
  .bind (invokeHook_keeps run silent call 0 hooks)
    (fun results => .forM results (fun _ _ => settled_keeps run _))

theorem enterScopes_keeps (mode : Mode) (step : StepContext V) (place : Nat)
    (results : List (Returned HookScope)) (stack : List (Nat × Scope))
    : Py.Keeps (telemetryEvents run) (enterScopes mode step place results stack) := by
  induction results generalizing place stack with
  | nil => exact .pure _ _
  | cons result rest ih =>
      simp only [enterScopes]
      cases mode.settle "async hook requires async backend" result with
      | error error => exact .pure _ _
      | ok entered =>
          cases entered with
          | nothing => exact ih _ _
          | scope scope =>
              dsimp only
              cases scope.enter with
              | error error => exact .pure _ _
              | ok _ => exact .bind (record_keeps run rfl) (fun _ => ih _ _)
          | asyncScope scope =>
              cases mode with
              | sync => exact .pure _ _
              | async =>
                  dsimp only
                  cases scope.enter with
                  | error error => exact .pure _ _
                  | ok _ => exact .bind (record_keeps run rfl) (fun _ => ih _ _)

theorem exitScopes_keeps (step : StepContext V) (stack : List (Nat × Scope))
    (pending : Option Raised)
    : Py.Keeps (telemetryEvents run) (exitScopes step stack pending) := by
  induction stack generalizing pending with
  | nil => exact .pure _ _
  | cons item rest ih =>
      obtain ⟨place, scope⟩ := item
      refine .bind (record_keeps run rfl) (fun _ => ?_)
      cases scope.exit pending with
      | error error => exact ih _
      | ok suppress => exact ih _

variable [VersionValue V] (mode : Mode) (calls : Calls V F H) (ends : EntryEnds V)

theorem migrateStep_keeps (func : F) (hooks : List H) (step : StepContext V) (data : Json)
    : Py.Keeps (telemetryEvents run) (migrateStep mode calls ends func hooks step data) := by
  refine .bind (record_keeps run rfl) (fun _ => ?_)
  cases (calls.migrate func data).bind
      (mode.settle "coroutine migration requires async backend") with
  | ok migrated =>
      exact .bind (attempt_keeps run (callHooks_keeps run mode (fun _ => rfl) _ _))
        (fun _ => .pure _ _)
  | error error =>
      refine .ite _ (.bind (attempt_keeps run ?_) (fun _ => .pure _ _)) (.pure _ _)
      exact callHooks_keeps run mode (fun _ => rfl) _ _

/-- The part of a step inside its scopes leaves no telemetry event. -/
theorem scopedStep_keeps (step : BoundStep V F H) (data : Json)
    : Py.Keeps (telemetryEvents run) (scopedStep mode calls ends step data) := by
  refine .bind (.tryCatch (.bind (invokeHook_keeps run (fun _ => rfl) _ _ _)
    (fun _ => enterScopes_keeps run mode _ _ _ _)) (fun _ => .pure _ _)) (fun entered => ?_)
  refine .bind ?_ (fun _ => .bind (exitScopes_keeps run _ _ _) (fun _ => .pure _ _))
  cases entered.2 with
  | some error => exact .pure _ _
  | none => exact migrateStep_keeps run mode calls ends _ _ _ _

theorem scopedStep_oblivious (step : BoundStep V F H) (data : Json)
    : Py.Oblivious (scopedStep mode calls ends step data) := by
  refine .bind (.tryCatch (.bind (invokeHook_oblivious _ _ _ _ _)
    (fun _ => enterScopes_oblivious _ _ _ _ _)) (fun _ => .pure _)) (fun entered => ?_)
  refine .bind ?_ (fun _ => .bind (exitScopes_oblivious _ _ _) (fun _ => .pure _))
  cases entered.2 with
  | some error => exact .pure _
  | none => exact migrateStep_oblivious mode calls ends _ _ _ _

omit [VersionValue V] in
theorem exitScopes_returns (step : StepContext V) (stack : List (Nat × Scope))
    (pending : Option Raised)
    : Py.Returns (exitScopes step stack pending) := by
  induction stack generalizing pending with
  | nil => exact .pure _
  | cons item rest ih =>
      obtain ⟨place, scope⟩ := item
      refine .bind (.modify _) (fun _ => ?_)
      cases scope.exit pending with
      | error error => exact ih _
      | ok suppress => exact ih _

/-- Whatever happens in its scopes, a step gets to its last event. -/
theorem scopedStep_returns (step : BoundStep V F H) (data : Json)
    : Py.Returns (scopedStep mode calls ends step data) := by
  refine .bind (.tryCatch _ (fun _ => .pure _)) (fun entered => ?_)
  refine .bind ?_ (fun _ => .bind (exitScopes_returns _ _ _) (fun _ => .pure _))
  cases entered.2 with
  | some error => exact .pure _
  | none =>
      refine .bind (.modify _) (fun _ => ?_)
      cases (calls.migrate step.func data).bind
          (mode.settle "coroutine migration requires async backend") with
      | ok migrated => exact .bind (.tryCatch _ (fun _ => .pure _)) (fun _ => .pure _)
      | error error =>
          exact .ite _ (.bind (.tryCatch _ (fun _ => .pure _)) (fun _ => .pure _)) (.pure _)

/-- The lifecycle of a step is its scoped part between its two events. -/
theorem runStep_eq (telemetry : Telemetry) (step : BoundStep V F H) (data : Json)
    : runStep mode telemetry calls ends step.func step.hooks step.context data
      = (do
          emit telemetry.emitsSuccess step.context .started
          let ended ← scopedStep mode calls ends step data
          closeStep telemetry step.context ended) := by
  unfold runStep scopedStep
  simp only [bind_assoc, pure_bind]
  congr 1
  funext _
  congr 1
  funext entered
  obtain ⟨stack, refused⟩ := entered
  have finish : ∀ migrated pending, finishStep telemetry step.context stack migrated pending
      = exitScopes step.context stack pending >>= fun left =>
          closeStep telemetry step.context (migrated, left) := by
    intro migrated pending
    unfold finishStep
    congr 1
    funext left
    cases left with
    | some error => rfl
    | none => cases migrated <;> rfl
  cases refused with
  | some error => simp only [finish, insideScopes, pure_bind]
  | none => simp only [finish, insideScopes]

/-- The events that a program adds are related to what it returns or raises. -/
def Reports {α : Type} (program : ExecM V α)
    (related : List TelemetryEvent → Except Raised α → Prop) : Prop :=
  ∀ trace, ∃ events, related events (Py.outcome program trace)
    ∧ telemetryEvents run (Py.after program trace) = telemetryEvents run trace ++ events

omit [VersionValue V] in
/-- Two programs after each other report both, unless the first one raises. -/
theorem Reports.bind {α β : Type} {first : ExecM V α} {next : α → ExecM V β}
    {one : List TelemetryEvent → Except Raised α → Prop}
    {two : α → List TelemetryEvent → Except Raised β → Prop}
    (left : Reports run first one) (right : ∀ value, Reports run (next value) (two value))
    : Reports run (first >>= next) (fun events out =>
        (∃ error, one events (.error error) ∧ out = .error error)
        ∨ ∃ value early late, one early (.ok value) ∧ two value late out
            ∧ events = early ++ late) := by
  intro trace
  obtain ⟨early, holds, added⟩ := left trace
  cases ran : first trace with
  | error error middle =>
      have same : (first >>= next) trace = .error error middle := Py.bind_eq_of_error ran
      rw [Py.after_of_error ran] at added
      simp only [Py.outcome, ran] at holds
      refine ⟨early, .inl ⟨error, holds, ?_⟩, ?_⟩
      · simp only [Py.outcome, same]
      · rw [Py.after_of_error same, added]
  | ok value middle =>
      have same : (first >>= next) trace = next value middle := Py.bind_eq_of_ok ran
      rw [Py.after_of_ok ran] at added
      simp only [Py.outcome, ran] at holds
      obtain ⟨late, ended, more⟩ := right value middle
      refine ⟨early ++ late, .inr ⟨value, early, late, holds, ?_, rfl⟩, ?_⟩
      · rw [Py.outcome, same]
        exact ended
      · rw [Py.after_eq same, more, added, List.append_assoc]

omit [VersionValue V] in
theorem Reports.mono {α : Type} {program : ExecM V α}
    {one two : List TelemetryEvent → Except Raised α → Prop} (reports : Reports run program one)
    (more : ∀ events out, one events out → two events out)
    : Reports run program two := by
  intro trace
  obtain ⟨events, holds, added⟩ := reports trace
  exact ⟨events, more _ _ holds, added⟩

omit [VersionValue V] in
/-- A program that leaves the trace as it is reports nothing. -/
theorem Reports.settled {α : Type} (outcome : Except Raised α)
    : Reports run (settled outcome : ExecM V α) (fun events out => events = [] ∧ out = outcome) := by
  intro trace
  refine ⟨[], ⟨rfl, outcome_settled outcome trace⟩, ?_⟩
  rw [Pyverge.settled, Py.after_query, List.append_nil]

variable (publisher : TelemetryPublisher) {mode calls ends}

/-- Published telemetry reports a step as it runs. -/
theorem runStep_reports (step : BoundStep V F H) (data : Json)
    : Reports run (runStep mode ⟨true, true⟩ calls ends step.func step.hooks step.context data)
        (StepEvents publisher mode run ends step data) := by
  intro trace
  let started : List (StepEvent V) := trace ++ [⟨step.context, .started⟩]
  obtain ⟨⟨migrated, left⟩, final, ran⟩ := scopedStep_returns mode calls ends step data started
  have kept := scopedStep_keeps run mode calls ends step data started
  rw [Py.after_of_ok ran] at kept
  have body : Py.outcome (scopedStep mode calls ends step data) [] = .ok (migrated, left) := by
    rw [scopedStep_oblivious mode calls ends step data [] started]
    simp only [Py.outcome, ran]
  have runs : runStep mode ⟨true, true⟩ calls ends step.func step.hooks step.context data trace
      = closeStep ⟨true, true⟩ step.context (migrated, left) final := by
    rw [runStep_eq]
    exact Py.bind_eq_of_ok ran
  have events : telemetryEvents run started
      = telemetryEvents run trace ++ [.stepStarted (step.ref run)] := by
    simp [started, telemetryEvents, StepEvent.telemetry?, BoundStep.ref]
  rw [Py.after_eq runs, Py.outcome, runs]
  cases left with
  | some error =>
      have noted : Py.after (closeStep ⟨true, true⟩ step.context (migrated, some error)) final
          = final ++ [⟨step.context, .failed error⟩] := rfl
      refine ⟨_, .failed body .quiet, ?_⟩
      rw [noted, telemetryEvents, List.filterMap_append, ← telemetryEvents, kept, events]
      simp [StepEvent.telemetry?, BoundStep.ref]
  | none =>
      have noted : Py.after (closeStep ⟨true, true⟩ step.context (migrated, none)) final
          = final ++ [⟨step.context, .completed⟩] := by
        cases migrated <;> rfl
      have completed : StepEvents publisher mode run ends step data
          [.stepStarted (step.ref run), .stepCompleted (step.ref run)]
          (stepResult migrated none) := .completed body .quiet
      refine ⟨[.stepStarted (step.ref run), .stepCompleted (step.ref run)], ?_, ?_⟩
      · cases migrated <;> exact completed
      · rw [noted, telemetryEvents, List.filterMap_append, ← telemetryEvents, kept, events]
        simp [StepEvent.telemetry?, BoundStep.ref]

variable (property : String)

theorem executeSteps_reports (steps : List (BoundStep V F H)) (current : Json)
    : Reports run (executeSteps mode ⟨⟨true, true⟩, calls, property⟩ ends steps current)
        (StepsEvents publisher mode property run ends steps current) := by
  induction steps generalizing current with
  | nil =>
      intro trace
      exact ⟨[], .done current, by simp [executeSteps]⟩
  | cons step rest ih =>
      refine ((runStep_reports run publisher step current).bind run (fun _ => ih _)).mono run ?_
      intro events out given
      rcases given with ⟨error, ran, rfl⟩ | ⟨migrated, early, late, ran, others, rfl⟩
      · exact .raise ran
      · exact .next ran others

theorem runEntry_reports (data : Json) (entry : ExecutionEntry V F H)
    : Reports run (runEntry mode ⟨⟨true, true⟩, calls, property⟩ data entry)
        (EntryEvents publisher mode property run entry) := by
  refine ((Reports.settled run (entry.path.get data)).bind run (fun value =>
    (executeSteps_reports run publisher property entry.boundSteps value).bind run
      (fun result => Reports.settled run (.ok (entry.path, result))))).mono run ?_
  intro events out given
  rcases given with ⟨error, ⟨rfl, -⟩, rfl⟩ | ⟨value, early, late, ⟨rfl, -⟩, ended, rfl⟩
  · exact .unread error
  · rcases ended with ⟨error, ran, rfl⟩ | ⟨result, early, none, ran, ⟨rfl, rfl⟩, rfl⟩
    · exact .ran ran
    · rw [List.append_nil]
      exact .ran ran

/-- The serial backends report the levels of a plan, entry by entry. -/
theorem executeLevels_reports (levels : List (List (ExecutionEntry V F H))) (data : Json)
    : Reports run (executeLevels mode ⟨⟨true, true⟩, calls, property⟩ levels data)
        (LevelsEvents publisher mode property run false levels) := by
  have level : ∀ (data : Json) (level : List (ExecutionEntry V F H)),
      Reports run (level.mapM (runEntry mode ⟨⟨true, true⟩, calls, property⟩ data))
        (SerialEvents publisher mode property run level) := by
    intro data level
    induction level with
    | nil =>
        intro trace
        exact ⟨[], .nil, by simp⟩
    | cons entry rest ih =>
        rw [List.mapM_cons]
        refine ((runEntry_reports run publisher property data entry).bind run (fun result =>
          ih.bind run (fun results => Reports.settled run (.ok (result :: results))))).mono run ?_
        intro events out given
        rcases given with ⟨error, ran, rfl⟩ | ⟨result, early, late, ran, ended, rfl⟩
        · exact .raise ran
        · rcases ended with ⟨error, others, rfl⟩ | ⟨results, early, none, others, ⟨rfl, rfl⟩, rfl⟩
          · exact .next ran others
          · rw [List.append_nil]
            exact .next ran others
  induction levels generalizing data with
  | nil =>
      intro trace
      exact ⟨[], .nil data, by simp [executeLevels]⟩
  | cons first rest ih =>
      refine (((level data first).bind run (fun results =>
        Reports.settled run (applyResults data results))).bind run (fun _ => ih _)).mono run ?_
      intro events out given
      rcases given with ⟨error, ran, rfl⟩ | ⟨next, early, late, ran, others, rfl⟩
      · rcases ran with ⟨same, ran, equal⟩ | ⟨results, early, none, ran, ⟨rfl, -⟩, rfl⟩
        · obtain rfl := Except.error.inj equal
          exact .raise ran
        · rw [List.append_nil]
          exact .unapplied error ran
      · rcases ran with ⟨error, -, equal⟩ | ⟨results, early, none, ran, ⟨rfl, -⟩, rfl⟩
        · cases equal
        · rw [List.append_nil]
          exact .next ran others

end Serial

end Pyverge
