import Pyverge.Planning.Path
import Pyverge.Py.Effects
import Pyverge.Versioning.Edges

/-! The lifecycle of one migration step, with its hooks and the scopes that hooks return.
The synchronous and the asynchronous lifecycle are the same program; they differ in what they
do with an awaitable and with an asynchronous scope.
-/

namespace Pyverge

open Py (Json)

variable {V F H α : Type}

-----------------------------------------------------------------------------------------
-- Callables
-----------------------------------------------------------------------------------------

/-- What a call hands back: a value, or an awaitable with the outcome of awaiting it. -/
inductive Returned (α : Type) where
  | plain (value : α)
  | awaitable (outcome : Except Raised α)

/-- A scope of one step. Leaving it may raise, or suppress the pending exception. -/
structure Scope where
  enter : Except Raised Unit
  exit : Option Raised → Except Raised Bool

/-- What `before_migrate` yields. -/
inductive HookScope where
  | nothing
  | scope (scope : Scope)
  | asyncScope (scope : Scope)

structure StepContext (V : Type) where
  path : Path
  index : Nat
  source : Comparable V
  target : Comparable V
  edge : EdgeId V
  name : String
  migration : MigrationDescriptor
  deriving DecidableEq

/-- The meaning of the callables bound to edges. A migration sees the context of its run,
which is the same for all its calls; `unpicklable` is what sending it there and then to another
process raises, because it or the context cannot be pickled.
-/
structure Calls (V F H : Type) where
  migrate : F → Json → Except Raised (Returned Json)
  before : H → StepContext V → Json → Except Raised (Returned HookScope)
  after : H → StepContext V → Json → Json → Except Raised (Returned Unit)
  onError : H → StepContext V → Json → Raised → Except Raised (Returned Unit)
  unpicklable : F → Option Raised := fun _ => none

inductive Mode where
  | sync
  | async
  deriving DecidableEq

/-- Settle a returned object: the asynchronous lifecycle awaits what the other refuses. -/
def Mode.settle (mode : Mode) (message : String) : Returned α → Except Raised α
  | .plain value => .ok value
  | .awaitable outcome =>
      match mode with
      | .sync => .error (.asyncExecutionRequired message)
      | .async => outcome

-----------------------------------------------------------------------------------------
-- Events
-----------------------------------------------------------------------------------------

inductive StepMoment where
  | started
  | completed
  | failed (error : Raised)
  | before (hook : Nat)
  | entered (hook : Nat)
  | migrate
  | onError (hook : Nat)
  | after (hook : Nat)
  | exited (hook : Nat)
  deriving DecidableEq

structure StepEvent (V : Type) where
  step : StepContext V
  moment : StepMoment
  deriving DecidableEq

structure Telemetry where
  emitsSuccess : Bool
  emitsFailure : Bool

/-- Programs that may raise and that leave a trace of what they did. -/
abbrev ExecM (V : Type) := EStateM Raised (List (StepEvent V))

def record (step : StepContext V) (moment : StepMoment) : ExecM V PUnit :=
  modify (fun trace => trace ++ [⟨step, moment⟩])

def emit (enabled : Bool) (step : StepContext V) (moment : StepMoment) : ExecM V PUnit :=
  if enabled then record step moment else pure ()

def settled (outcome : Except Raised α) : ExecM V α := Py.query (fun _ => outcome)

/-- The error of a program, if it raises. -/
def attempt (program : ExecM V PUnit) : ExecM V (Option Raised) :=
  tryCatch (do program; return none) (fun error => return some error)

-----------------------------------------------------------------------------------------
-- Hooks and scopes
-----------------------------------------------------------------------------------------

/-- `invoke_hook`: one phase of all hooks is called before any result is looked at. -/
def invokeHook (step : StepContext V) (moment : Nat → StepMoment)
    (call : H → Except Raised α) : Nat → List H → ExecM V (List α)
  | _, [] => return []
  | place, hook :: rest => do
      record step (moment place)
      let result ← settled (call hook)
      let later ← invokeHook step moment call (place + 1) rest
      return result :: later

/-- The phases without scopes: `after`, `on_error` and their asynchronous twins. -/
def callHooks (mode : Mode) (step : StepContext V) (moment : Nat → StepMoment)
    (call : H → Except Raised (Returned Unit)) (hooks : List H) : ExecM V PUnit := do
  let results ← invokeHook step moment call 0 hooks
  results.forM (fun result => settled (mode.settle "async hook requires async backend" result))

/-- Enter the scopes in order; the scopes entered before an error stay on the stack. -/
def enterScopes (mode : Mode) (step : StepContext V)
    : Nat → List (Returned HookScope) → List (Nat × Scope)
      → ExecM V (List (Nat × Scope) × Option Raised)
  | _, [], stack => return (stack, none)
  | place, result :: rest, stack =>
      let push (scope : Scope) : ExecM V (List (Nat × Scope) × Option Raised) :=
        match scope.enter with
        | .error error => return (stack, some error)
        | .ok () => do
            record step (.entered place)
            enterScopes mode step (place + 1) rest ((place, scope) :: stack)
      match mode.settle "async hook requires async backend" result with
      | .error error => return (stack, some error)
      | .ok .nothing => enterScopes mode step (place + 1) rest stack
      | .ok (.scope scope) => push scope
      | .ok (.asyncScope scope) =>
          match mode with
          | .sync => return (stack,
              some (.asyncExecutionRequired "async hook scope requires async backend"))
          | .async => push scope

/-- `before` and `before_async` -/
def beforeHooks (mode : Mode) (step : StepContext V)
    (call : H → Except Raised (Returned HookScope)) (hooks : List H)
    : ExecM V (List (Nat × Scope) × Option Raised) :=
  tryCatch
    (do
      let results ← invokeHook step .before call 0 hooks
      enterScopes mode step 0 results [])
    (fun error => return ([], some error))

/-- Leave the scopes in reverse order. Each sees the exception that is pending by then. -/
def exitScopes (step : StepContext V) : List (Nat × Scope) → Option Raised
    → ExecM V (Option Raised)
  | [], pending => return pending
  | (place, scope) :: rest, pending => do
      record step (.exited place)
      match scope.exit pending with
      | .error error => exitScopes step rest (some error)
      | .ok suppress => exitScopes step rest (if suppress then none else pending)

-----------------------------------------------------------------------------------------
-- The lifecycle
-----------------------------------------------------------------------------------------

section Lifecycle

variable [VersionValue V]

/-- `migration_error`; errors that already say why a step failed are raised as they are. -/
def migrationError (kind source target : String) : Raised → Raised
  | .asyncExecutionRequired message => .asyncExecutionRequired message
  | .migrationApplication kind earlier later reason =>
      .migrationApplication kind earlier later reason
  | error => .migrationApplication kind source target
      ("Failed to apply migration " ++ source ++ "->" ++ target ++ ": " ++ error.text)

/-- One entry's endpoints, which its error messages name. -/
structure EntryEnds (V : Type) where
  source : VersionNode V
  target : VersionNode V

/-- The part of a step inside its scopes: what was migrated, and the pending exception. -/
def migrateStep (mode : Mode) (calls : Calls V F H) (ends : EntryEnds V) (func : F)
    (hooks : List H) (step : StepContext V) (data : Json)
    : ExecM V (Option Json × Option Raised) := do
  record step .migrate
  match (calls.migrate func data).bind
      (mode.settle "coroutine migration requires async backend") with
  | .ok migrated =>
      let failure ← attempt (callHooks mode step .after
        (fun hook => calls.after hook step data migrated) hooks)
      return (some migrated, failure)
  | .error error =>
      if error.isException then
        let failure ← attempt (callHooks mode step .onError
          (fun hook => calls.onError hook step data error) hooks)
        return (none, some (failure.getD
          (migrationError ends.source.id.kind ends.source.id.str ends.target.id.str error)))
      return (none, some error)

/-- Leave the scopes of a step and report its end. A scope that suppresses the error of a
migration leaves nothing to return.
-/
def finishStep (telemetry : Telemetry) (step : StepContext V) (stack : List (Nat × Scope))
    (migrated : Option Json) (pending : Option Raised) : ExecM V Json := do
  match ← exitScopes step stack pending with
  | some error =>
      emit telemetry.emitsFailure step (.failed error)
      throw error
  | none =>
      emit telemetry.emitsSuccess step .completed
      match migrated with
      | some value => return value
      | none => throw .unboundLocalError

/-- `run_sync` and `run_async` -/
def runStep (mode : Mode) (telemetry : Telemetry) (calls : Calls V F H) (ends : EntryEnds V)
    (func : F) (hooks : List H) (step : StepContext V) (data : Json) : ExecM V Json := do
  emit telemetry.emitsSuccess step .started
  let (stack, refused) ← beforeHooks mode step (fun hook => calls.before hook step data) hooks
  match refused with
  | some error => finishStep telemetry step stack none (some error)
  | none =>
      let (migrated, pending) ← migrateStep mode calls ends func hooks step data
      finishStep telemetry step stack migrated pending

end Lifecycle

-----------------------------------------------------------------------------------------
-- Synchronous callables
-----------------------------------------------------------------------------------------

/-- No call hands back an awaitable or an asynchronous scope. -/
structure Calls.Synchronous (calls : Calls V F H) : Prop where
  migrate : ∀ func data result, calls.migrate func data = .ok result →
    ∃ value, result = .plain value
  before : ∀ hook step data result, calls.before hook step data = .ok result →
    result = .plain .nothing ∨ ∃ scope, result = .plain (.scope scope)
  after : ∀ hook step data migrated result, calls.after hook step data migrated = .ok result →
    result = .plain ()
  onError : ∀ hook step data error result, calls.onError hook step data error = .ok result →
    result = .plain ()

theorem settled_ok (value : α) : (settled (.ok value) : ExecM V α) = pure value := rfl

/-- Two continuations that agree on the results a phase can have, by list induction. -/
theorem invokeHook_bind_congr {β : Type} (step : StepContext V) (moment : Nat → StepMoment)
    {call : H → Except Raised α} {Expected : α → Prop}
    (expected : ∀ hook result, call hook = .ok result → Expected result)
    {left right : List α → ExecM V β}
    (agree : ∀ results, (∀ result ∈ results, Expected result) → left results = right results)
    (place : Nat) (hooks : List H)
    : (invokeHook step moment call place hooks >>= left)
      = (invokeHook step moment call place hooks >>= right) := by
  induction hooks generalizing place left right with
  | nil =>
      simp only [invokeHook, pure_bind]
      exact agree [] (by simp)
  | cons hook rest ih =>
      simp only [invokeHook, bind_assoc, pure_bind]
      cases outcome : call hook with
      | error error => rfl
      | ok result =>
          have own := expected hook result outcome
          simp only [settled_ok, pure_bind]
          congr 1
          funext _
          refine ih (fun later holds => agree (result :: later) ?_) (place + 1)
          intro other member
          rcases List.mem_cons.mp member with rfl | inside
          · exact own
          · exact holds other inside

theorem callHooks_sync_eq_async (step : StepContext V) (moment : Nat → StepMoment)
    {call : H → Except Raised (Returned Unit)}
    (plain : ∀ hook result, call hook = .ok result → result = .plain ()) (hooks : List H)
    : callHooks .sync step moment call hooks = callHooks .async step moment call hooks := by
  refine invokeHook_bind_congr step moment plain (fun results holds => ?_) 0 hooks
  induction results with
  | nil => rfl
  | cons result rest ih =>
      obtain rfl := holds result (by simp)
      have later := ih (fun other member => holds other (List.mem_cons_of_mem _ member))
      exact congrArg (fun program => settled (.ok ()) >>= fun _ => program) later

theorem enterScopes_sync_eq_async (step : StepContext V) {results : List (Returned HookScope)}
    (plain : ∀ result ∈ results,
      result = .plain .nothing ∨ ∃ scope, result = .plain (.scope scope))
    (place : Nat) (stack : List (Nat × Scope))
    : enterScopes .sync step place results stack = enterScopes .async step place results stack := by
  induction results generalizing place stack with
  | nil => rfl
  | cons result rest ih =>
      have later := ih (fun other member => plain other (List.mem_cons_of_mem _ member))
      rcases plain result (by simp) with rfl | ⟨scope, rfl⟩
      · simp only [enterScopes, Mode.settle, later]
      · simp only [enterScopes, Mode.settle, later]

/-- With synchronous callables the two lifecycles are the same program. -/
theorem runStep_sync_eq_async [VersionValue V] {calls : Calls V F H}
    (synchronous : calls.Synchronous) (telemetry : Telemetry) (ends : EntryEnds V) (func : F)
    (hooks : List H) (step : StepContext V) (data : Json)
    : runStep .sync telemetry calls ends func hooks step data
      = runStep .async telemetry calls ends func hooks step data := by
  have before : beforeHooks .sync step (fun hook => calls.before hook step data) hooks
      = beforeHooks .async step (fun hook => calls.before hook step data) hooks := by
    have same := invokeHook_bind_congr step .before
      (fun hook result => synchronous.before hook step data result)
      (fun results holds => enterScopes_sync_eq_async step holds 0 []) 0 hooks
    simp only [beforeHooks, same]
  have migrate : migrateStep .sync calls ends func hooks step data
      = migrateStep .async calls ends func hooks step data := by
    have after := fun migrated => callHooks_sync_eq_async step .after
      (fun hook result => synchronous.after hook step data migrated result) hooks
    have onError := fun error => callHooks_sync_eq_async step .onError
      (fun hook result => synchronous.onError hook step data error result) hooks
    simp only [migrateStep, after, onError]
    cases outcome : calls.migrate func data with
    | error error => rfl
    | ok result =>
        obtain ⟨value, rfl⟩ := synchronous.migrate func data result outcome
        rfl
  simp only [runStep, before, migrate]

-----------------------------------------------------------------------------------------
-- The trace never decides
-----------------------------------------------------------------------------------------

theorem settled_oblivious (outcome : Except Raised α)
    : Py.Oblivious (settled outcome : ExecM V α) :=
  .const outcome

theorem outcome_settled (outcome : Except Raised α) (trace : List (StepEvent V))
    : Py.outcome (settled outcome) trace = outcome :=
  Py.outcome_query _ _

theorem emit_oblivious (enabled : Bool) (step : StepContext V) (moment : StepMoment)
    : Py.Oblivious (emit enabled step moment) :=
  .ite _ (.modify _) (.pure _)

theorem outcome_emit (enabled : Bool) (step : StepContext V) (moment : StepMoment)
    (trace : List (StepEvent V))
    : Py.outcome (emit enabled step moment) trace = .ok () := by
  cases enabled <;> rfl

theorem invokeHook_oblivious (step : StepContext V) (moment : Nat → StepMoment)
    (call : H → Except Raised α) (place : Nat) (hooks : List H)
    : Py.Oblivious (invokeHook step moment call place hooks) := by
  induction hooks generalizing place with
  | nil => exact .pure _
  | cons hook rest ih =>
      refine .bind (.modify _) (fun _ => .bind (.const _) (fun _ => ?_))
      exact .bind (ih (place + 1)) (fun _ => .pure _)

theorem attempt_oblivious {program : ExecM V PUnit} (oblivious : Py.Oblivious program)
    : Py.Oblivious (attempt program) :=
  .tryCatch (.bind oblivious (fun _ => .pure _)) (fun _ => .pure _)

theorem callHooks_oblivious (mode : Mode) (step : StepContext V) (moment : Nat → StepMoment)
    (call : H → Except Raised (Returned Unit)) (hooks : List H)
    : Py.Oblivious (callHooks mode step moment call hooks) :=
  .bind (invokeHook_oblivious step moment call 0 hooks) (fun _ => .forM (fun _ => .const _) _)

theorem enterScopes_oblivious (mode : Mode) (step : StepContext V) (place : Nat)
    (results : List (Returned HookScope)) (stack : List (Nat × Scope))
    : Py.Oblivious (enterScopes mode step place results stack) := by
  induction results generalizing place stack with
  | nil => exact .pure _
  | cons result rest ih =>
      have push : ∀ scope : Scope, Py.Oblivious (
          match scope.enter with
          | .error error => return (stack, some error)
          | .ok () => do
              record step (.entered place)
              enterScopes mode step (place + 1) rest ((place, scope) :: stack)) := by
        intro scope
        cases scope.enter with
        | error error => exact .pure _
        | ok _ => exact .bind (.modify _) (fun _ => ih _ _)
      simp only [enterScopes]
      cases mode.settle "async hook requires async backend" result with
      | error error => exact .pure _
      | ok scope =>
          cases scope with
          | nothing => exact ih _ _
          | scope scope => exact push scope
          | asyncScope scope =>
              cases mode with
              | sync => exact .pure _
              | async => exact push scope

theorem exitScopes_oblivious (step : StepContext V) (stack : List (Nat × Scope))
    (pending : Option Raised)
    : Py.Oblivious (exitScopes step stack pending) := by
  induction stack generalizing pending with
  | nil => exact .pure _
  | cons item rest ih =>
      obtain ⟨place, scope⟩ := item
      refine .bind (.modify _) (fun _ => ?_)
      cases scope.exit pending with
      | error error => exact ih _
      | ok suppress => exact ih _

section Lifecycle

variable [VersionValue V] (mode : Mode) (telemetry : Telemetry) (calls : Calls V F H)
  (ends : EntryEnds V) (func : F)

theorem migrateStep_oblivious (hooks : List H) (step : StepContext V) (data : Json)
    : Py.Oblivious (migrateStep mode calls ends func hooks step data) := by
  refine .bind (.modify _) (fun _ => ?_)
  cases (calls.migrate func data).bind
      (mode.settle "coroutine migration requires async backend") with
  | ok migrated =>
      exact .bind (attempt_oblivious (callHooks_oblivious _ _ _ _ _)) (fun _ => .pure _)
  | error error =>
      refine .ite _ (.bind (attempt_oblivious (callHooks_oblivious _ _ _ _ _)) ?_) (.pure _)
      exact fun _ => .pure _

omit [VersionValue V] in
theorem finishStep_oblivious (step : StepContext V) (stack : List (Nat × Scope))
    (migrated : Option Json) (pending : Option Raised)
    : Py.Oblivious (finishStep telemetry step stack migrated pending) := by
  refine .bind (exitScopes_oblivious _ _ _) (fun remaining => ?_)
  cases remaining with
  | some error => exact .bind (emit_oblivious _ _ _) (fun _ => .throw _)
  | none =>
      refine .bind (emit_oblivious _ _ _) (fun _ => ?_)
      cases migrated with
      | some value => exact .pure _
      | none => exact .throw _

/-- What a step returns or raises does not depend on the trace so far. -/
theorem runStep_oblivious (hooks : List H) (step : StepContext V) (data : Json)
    : Py.Oblivious (runStep mode telemetry calls ends func hooks step data) := by
  refine .bind (emit_oblivious _ _ _) (fun _ => .bind ?_ (fun entered => ?_))
  · exact .tryCatch (.bind (invokeHook_oblivious _ _ _ _ _)
      (fun _ => enterScopes_oblivious _ _ _ _ _)) (fun _ => .pure _)
  · obtain ⟨stack, refused⟩ := entered
    cases refused with
    | some error => exact finishStep_oblivious telemetry step stack none (some error)
    | none =>
        refine .bind (migrateStep_oblivious mode calls ends func hooks step data) ?_
        exact fun done => finishStep_oblivious telemetry step stack done.1 done.2

/-- The error that a failed step without hooks ends with. -/
def stepError (ends : EntryEnds V) (error : Raised) : Raised :=
  if error.isException then
    migrationError ends.source.id.kind ends.source.id.str ends.target.id.str error
  else error

/-- Without hooks a step is its migration. -/
theorem outcome_runStep_nil (step : StepContext V) (data : Json) (trace : List (StepEvent V))
    : Py.outcome (runStep mode telemetry calls ends func [] step data) trace
      = ((calls.migrate func data).bind
          (mode.settle "coroutine migration requires async backend")).mapError
          (stepError ends) := by
  have finish : ∀ migrated pending trace,
      Py.outcome (finishStep telemetry step [] migrated pending) trace
        = match pending, migrated with
          | some error, _ => .error error
          | none, some value => .ok value
          | none, none => .error .unboundLocalError := by
    intro migrated pending trace
    cases pending <;> cases migrated <;>
      simp only [finishStep, exitScopes, pure_bind, Py.outcome_bind, outcome_emit, Except.bind,
        Py.outcome_pure, Py.outcome_throw]
  have idle : beforeHooks mode step (fun hook => calls.before hook step data) []
      = (pure ([], none) : ExecM V _) := rfl
  have quiet : ∀ moment call, attempt (callHooks mode step moment call ([] : List H))
      = (pure none : ExecM V _) := fun _ _ => rfl
  simp only [runStep, idle, pure_bind, migrateStep, quiet]
  rw [Py.outcome_bind, outcome_emit]
  cases (calls.migrate func data).bind
      (mode.settle "coroutine migration requires async backend") with
  | ok migrated => simp [Except.bind, Py.outcome_bind, finish, Except.mapError, record]
  | error error =>
      cases caught : error.isException <;>
        simp [Except.bind, Py.outcome_bind, finish, Except.mapError, record, stepError, caught]

end Lifecycle

-----------------------------------------------------------------------------------------
-- Hooks that raise nothing
-----------------------------------------------------------------------------------------

/-- Entering and leaving the scope raises nothing. -/
structure Scope.Quiet (scope : Scope) : Prop where
  enter : scope.enter = .ok ()
  exit : ∀ pending, ∃ suppress, scope.exit pending = .ok suppress

/-- The lifecycle can use what a hook yields, and that raises nothing. -/
def HookScope.Quiet (mode : Mode) : HookScope → Prop
  | .nothing => True
  | .scope opened => opened.Quiet
  | .asyncScope opened => mode = .async ∧ opened.Quiet

/-- Hooks that only watch: none raises, nor does any scope of one. -/
structure Calls.Quiet (mode : Mode) (calls : Calls V F H) : Prop where
  before : ∀ hook step data, ∃ result scope, calls.before hook step data = .ok result
    ∧ mode.settle "async hook requires async backend" result = .ok scope ∧ scope.Quiet mode
  after : ∀ hook step data migrated, ∃ result, calls.after hook step data migrated = .ok result
    ∧ mode.settle "async hook requires async backend" result = .ok ()

theorem invokeHook_yields (step : StepContext V) (moment : Nat → StepMoment)
    {call : H → Except Raised α} {Told : α → Prop}
    (told : ∀ hook, ∃ result, call hook = .ok result ∧ Told result) (place : Nat) (hooks : List H)
    : Py.Yields (fun results => ∀ result ∈ results, Told result)
        (invokeHook step moment call place hooks) := by
  induction hooks generalizing place with
  | nil => exact .pure (by simp)
  | cons hook rest ih =>
      obtain ⟨result, called, holds⟩ := told hook
      refine .bind (.modify _) (fun _ _ => .bind (.const called holds) (fun first own => ?_))
      refine .bind (ih (place + 1)) (fun later others => .pure ?_)
      intro other member
      rcases List.mem_cons.mp member with rfl | inside
      · exact own
      · exact others other inside

theorem callHooks_yields {mode : Mode} (step : StepContext V) (moment : Nat → StepMoment)
    {call : H → Except Raised (Returned Unit)}
    (quiet : ∀ hook, ∃ result, call hook = .ok result
      ∧ mode.settle "async hook requires async backend" result = .ok ()) (hooks : List H)
    : Py.Yields (fun _ => True) (callHooks mode step moment call hooks) := by
  refine .bind (invokeHook_yields step moment quiet 0 hooks) (fun results settles => ?_)
  exact .forM (fun result member => .const (settles result member) trivial)

theorem attempt_yields {program : ExecM V PUnit} (yields : Py.Yields (fun _ => True) program)
    : Py.Yields (fun error => error = none) (attempt program) :=
  .tryCatch (.bind yields (fun _ _ => @Py.Yields.pure _ _ _ (fun error => error = none) _ rfl)) _

/-- Quiet scopes are all entered, and stay on the stack. -/
theorem enterScopes_yields {mode : Mode} (step : StepContext V) (place : Nat)
    {results : List (Returned HookScope)}
    (quiet : ∀ result ∈ results, ∃ scope,
      mode.settle "async hook requires async backend" result = .ok scope ∧ scope.Quiet mode)
    {stack : List (Nat × Scope)} (stacked : ∀ item ∈ stack, item.2.Quiet)
    : Py.Yields (fun entered => entered.2 = none ∧ ∀ item ∈ entered.1, item.2.Quiet)
        (enterScopes mode step place results stack) := by
  induction results generalizing place stack with
  | nil => exact .pure ⟨rfl, stacked⟩
  | cons result rest ih =>
      obtain ⟨yielded, settles, own⟩ := quiet result List.mem_cons_self
      have others := fun other member => quiet other (List.mem_cons_of_mem _ member)
      have push : ∀ scope : Scope, scope.Quiet →
          Py.Yields (fun entered => entered.2 = none ∧ ∀ item ∈ entered.1, item.2.Quiet) (do
            record step (.entered place)
            enterScopes mode step (place + 1) rest ((place, scope) :: stack)) := by
        intro scope silent
        refine .bind (.modify _) (fun _ _ => ih (place + 1) others ?_)
        intro item member
        rcases List.mem_cons.mp member with rfl | inside
        · exact silent
        · exact stacked item inside
      simp only [enterScopes, settles]
      cases yielded with
      | nothing => exact ih (place + 1) others stacked
      | scope scope =>
          simp only [own.enter]
          exact push scope own
      | asyncScope scope =>
          obtain ⟨rfl, silent⟩ := own
          simp only [silent.enter]
          exact push scope silent

/-- Nothing becomes pending where quiet scopes are left. -/
theorem exitScopes_yields (step : StepContext V) {stack : List (Nat × Scope)}
    (quiet : ∀ item ∈ stack, item.2.Quiet)
    : Py.Yields (fun pending => pending = none) (exitScopes step stack none) := by
  induction stack with
  | nil => exact .pure rfl
  | cons item rest ih =>
      obtain ⟨suppress, left⟩ := (quiet item List.mem_cons_self).exit none
      have later := ih (fun other member => quiet other (List.mem_cons_of_mem _ member))
      refine .bind (.modify _) (fun _ _ => ?_)
      simp only [left, ite_self]
      exact later

theorem emit_yields (enabled : Bool) (step : StepContext V) (moment : StepMoment)
    : Py.Yields (fun _ => True) (emit enabled step moment) := by
  cases enabled with
  | false => exact .pure trivial
  | true => exact .modify _

/-- Under hooks that raise nothing a step returns what its migration returns. -/
theorem runStep_yields [VersionValue V] {mode : Mode} {calls : Calls V F H}
    (quiet : calls.Quiet mode) (telemetry : Telemetry) (ends : EntryEnds V) {func : F}
    (hooks : List H) (step : StepContext V) {data migrated : Json}
    (migrates : (calls.migrate func data).bind
      (mode.settle "coroutine migration requires async backend") = .ok migrated)
    : Py.Yields (fun result => result = migrated)
        (runStep mode telemetry calls ends func hooks step data) := by
  have before : Py.Yields (fun entered => entered.2 = none ∧ ∀ item ∈ entered.1, item.2.Quiet)
      (beforeHooks mode step (fun hook => calls.before hook step data) hooks) := by
    refine .tryCatch (.bind (invokeHook_yields step .before (fun hook => ?_) 0 hooks)
      (fun results told => enterScopes_yields step 0 told (by simp))) _
    obtain ⟨result, scope, called, settles, silent⟩ := quiet.before hook step data
    exact ⟨result, called, scope, settles, silent⟩
  refine .bind (emit_yields _ _ _) (fun _ _ => .bind before (fun entered told => ?_))
  obtain ⟨stack, refused⟩ := entered
  obtain ⟨accepted, stacked⟩ := told
  obtain rfl : refused = none := accepted
  have inside : Py.Yields (fun done => done = (some migrated, none))
      (migrateStep mode calls ends func hooks step data) := by
    refine .bind (.modify _) (fun _ _ => ?_)
    simp only [migrates]
    refine .bind (attempt_yields (callHooks_yields step .after
      (fun hook => quiet.after hook step data migrated) hooks)) (fun failure none => .pure ?_)
    rw [none]
  refine .bind inside (fun done told => ?_)
  subst told
  refine .bind (exitScopes_yields step stacked) (fun pending nothing => ?_)
  subst nothing
  exact .bind (emit_yields _ _ _) (fun _ _ => .pure rfl)

end Pyverge
