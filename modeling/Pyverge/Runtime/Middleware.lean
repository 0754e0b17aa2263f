import Pyverge.Runtime.Steps
import Mathlib.Logic.Function.Basic

/-! Middleware around a backend.
A layer calls the executor it wraps and looks at what comes back: a value, or an awaitable whose
body runs only when somebody awaits it.
-/

namespace Pyverge.Middleware

open Py (Json)

variable {S α : Type}

inductive AuditStatus where
  | started
  | completed
  | failed
  deriving DecidableEq

/-- One audit record, without the time it took. -/
structure AuditEvent where
  name : String
  runId : String
  status : AuditStatus
  entries : Nat
  backend : String
  error : Option String
  deriving DecidableEq

/-- What the layers do, by layer call. The last kind is no action of a layer: it says how the
execution that a layer call wraps has ended.
-/
inductive Event where
  | begin (call : Nat)
  | commit (call : Nat)
  | rollback (call : Nat) (error : Raised)
  | audit (call : Nat) (record : AuditEvent)
  | ended (call : Nat) (produced : Bool)
  deriving DecidableEq

def Event.call : Event → Nat
  | .begin call | .commit call | .rollback call _ | .audit call _ | .ended call _ => call

/-- A key of an idempotency store. -/
inductive KeyState where
  | free
  | claimed
  | completed (result : Json)
  deriving DecidableEq

/-- `get` answers `None` for a key without a result, and for a result that is `None`. -/
def KeyState.get : KeyState → Option Json
  | .completed .null => none
  | .completed result => some result
  | .free | .claimed => none

structure State (S : Type) where
  trace : List Event
  calls : Nat
  keys : S → KeyState
  attempts : Nat

abbrev StackM (S : Type) := EStateM Raised (State S)

/-- What `execute` hands back. -/
inductive Reply (S : Type) where
  | value (result : Json)
  | awaitable (coroutine : StackM S Json)

structure Executor (S : Type) where
  name : String
  execute : StackM S (Reply S)

/-- `await reply` -/
def awaitReply : Reply S → StackM S Json
  | .awaitable coroutine => coroutine
  | .value _ => throw (.typeError "object can't be used in 'await' expression")

/-- The runner awaits an awaitable and takes anything else as the result. -/
def finishReply : Reply S → StackM S Json
  | .awaitable coroutine => coroutine
  | .value result => return result

/-- `try: … except Exception as error: …` -/
def exceptException (program : StackM S α) (handler : Raised → StackM S α) : StackM S α :=
  tryCatch program (fun error => if error.isException then handler error else throw error)

def State.noted (state : State S) (events : List Event) : State S :=
  { state with trace := state.trace ++ events }

def note (event : Event) : StackM S PUnit := modify (fun state => state.noted [event])

/-- The state in which a new layer call has noted its first event. -/
def State.opened (opening : Nat → Event) (state : State S) : State S :=
  { state.noted [opening state.calls] with calls := state.calls + 1 }

/-- The number of a new layer call. -/
def openCall (opening : Nat → Event) : StackM S Nat := fun state =>
  .ok state.calls (state.opened opening)

/-- Note how a coroutine ends. -/
def observeCoroutine (call : Nat) (coroutine : StackM S Json) : StackM S Json := do
  let result ← tryCatch coroutine (fun error => do note (.ended call false); throw error)
  note (.ended call true)
  return result

/-- Note how the execution behind a call ends, wherever it does. -/
def observe (call : Nat) (execute : StackM S (Reply S)) : StackM S (Reply S) := do
  match ← tryCatch execute (fun error => do note (.ended call false); throw error) with
  | .awaitable coroutine => return .awaitable (observeCoroutine call coroutine)
  | .value result =>
      note (.ended call true)
      return .value result

/-- The last part of a bracketing layer, in its coroutine. -/
def closeCoroutine (closing : Nat → Option Raised → Event) (call : Nat)
    (coroutine : StackM S Json) : StackM S Json := do
  let result ← exceptException coroutine (fun error => do
    note (closing call (some error))
    throw error)
  note (closing call none)
  return result

/-- The common body of the layers that note something before and after the execution they
wrap.
-/
def bracket (opening : Nat → Event) (closing : Nat → Option Raised → Event)
    (execute : StackM S (Reply S)) : StackM S (Reply S) := do
  let call ← openCall opening
  let reply ← exceptException (observe call execute) (fun error => do
    note (closing call (some error))
    throw error)
  match reply with
  | .awaitable coroutine => return .awaitable (closeCoroutine closing call coroutine)
  | .value result =>
      note (closing call none)
      return .value result

def endTransaction (call : Nat) : Option Raised → Event
  | none => .commit call
  | some error => .rollback call error

/-- `_Transaction.execute` -/
def transactionExecute (inner : Executor S) : StackM S (Reply S) :=
  bracket .begin endTransaction inner.execute

structure RunInfo where
  runId : String
  entries : Nat

def auditEvent (info : RunInfo) (backend : String) (status : AuditStatus) (error : Option Raised)
    : AuditEvent where
  name := "run"
  runId := info.runId
  status
  entries := info.entries
  backend
  error := error.map Raised.text

def startAudit (info : RunInfo) (backend : String) (call : Nat) : Event :=
  .audit call (auditEvent info backend .started none)

def endAudit (info : RunInfo) (backend : String) (call : Nat) : Option Raised → Event
  | none => .audit call (auditEvent info backend .completed none)
  | some error => .audit call (auditEvent info backend .failed (some error))

/-- `_Audit.execute` -/
def auditExecute (info : RunInfo) (inner : Executor S) : StackM S (Reply S) :=
  bracket (startAudit info inner.name) (endAudit info inner.name) inner.execute

/-- The attempts of a retrying loop: an exception starts the next attempt, the error of the
last one is raised, and so is every error that is no exception.
-/
def retrying (program : StackM S α) : Nat → StackM S α
  | 0 => program
  | retries + 1 => exceptException program (fun _ => retrying program retries)

/-- `_Retry.execute`: an awaitable of the first call is dropped, and the coroutine calls again. -/
def retryExecute (attempts : Nat) (inner : Executor S) : StackM S (Reply S) :=
  retrying (do
    match ← inner.execute with
    | .awaitable _ =>
        return .awaitable (retrying (do awaitReply (← inner.execute)) (attempts - 1))
    | .value result => return .value result) (attempts - 1)

section Stores

variable [DecidableEq S]

def State.setKey (state : State S) (key : S) (value : KeyState) : State S :=
  { state with keys := Function.update state.keys key value }

def storeGet (key : S) : StackM S (Option Json) := fun state =>
  .ok (state.keys key).get state

/-- `claim` succeeds iff the key is neither claimed nor completed. -/
def storeClaim (key : S) : StackM S Bool := fun state =>
  match state.keys key with
  | .free => .ok true (state.setKey key .claimed)
  | .claimed | .completed _ => .ok false state

def storeComplete (key : S) (result : Json) : StackM S PUnit :=
  modify (fun state => state.setKey key (.completed result))

def storeRelease (key : S) : StackM S PUnit :=
  modify (fun state => state.setKey key .free)

def claimedError : Raised := .exception "idempotency key is claimed"

/-- `_Idempotency._async_result` -/
def completeCoroutine (key : S) (coroutine : StackM S Json) : StackM S Json := do
  let result ← exceptException coroutine (fun error => do storeRelease key; throw error)
  storeComplete key result
  return result

/-- `_Idempotency.execute` -/
def idempotencyExecute (key : S) (inner : Executor S) : StackM S (Reply S) := do
  match ← storeGet key with
  | some cached => return .value cached
  | none =>
      if ← storeClaim key then
        let reply ← exceptException inner.execute (fun error => do storeRelease key; throw error)
        match reply with
        | .awaitable coroutine => return .awaitable (completeCoroutine key coroutine)
        | .value result =>
            storeComplete key result
            return .value result
      else
        match ← storeGet key with
        | none => throw claimedError
        | some cached => return .value cached

/-- One configured layer; an idempotency layer comes with the key it builds for the run. -/
inductive Layer (S : Type) where
  | retry (attempts : Nat) (positive : 1 ≤ attempts)
  | idempotency (key : S)
  | transaction
  | audit
  deriving DecidableEq

def Layer.wrap (info : RunInfo) (inner : Executor S) : Layer S → Executor S
  | .retry attempts _ => ⟨"_Retry", retryExecute attempts inner⟩
  | .idempotency key => ⟨"_Idempotency", idempotencyExecute key inner⟩
  | .transaction => ⟨"_Transaction", transactionExecute inner⟩
  | .audit => ⟨"_Audit", auditExecute info inner⟩

/-- The first layer is the outermost. -/
def wrapAll (info : RunInfo) (backend : Executor S) (layers : List (Layer S)) : Executor S :=
  layers.foldr (fun layer inner => layer.wrap info inner) backend

/-- The next attempt of a backend. -/
def attempt (outcomes : Nat → Except Raised Json) : StackM S Json := fun state =>
  match outcomes state.attempts with
  | .ok result => .ok result { state with attempts := state.attempts + 1 }
  | .error error => .error error { state with attempts := state.attempts + 1 }

def syncBackend (outcomes : Nat → Except Raised Json) : Executor S :=
  ⟨"ThreadedBackend", do return .value (← attempt outcomes)⟩

def asyncBackend (outcomes : Nat → Except Raised Json) : Executor S :=
  ⟨"AsyncBackend", return .awaitable (attempt outcomes)⟩

def backendOf (outcomes : Nat → Except Raised Json) : Mode → Executor S
  | .sync => syncBackend outcomes
  | .async => asyncBackend outcomes

def runStack (executor : Executor S) : StackM S Json := do finishReply (← executor.execute)

end Stores

section Runs

theorem exceptException_apply (program : StackM S α) (handler : Raised → StackM S α)
    (state : State S)
    : exceptException program handler state
      = match program state with
        | .ok value reached => .ok value reached
        | .error error reached =>
            if error.isException then handler error reached else .error error reached := by
  rw [exceptException, Py.tryCatch_apply]
  cases program state with
  | ok value reached => rfl
  | error error reached =>
      dsimp only
      split <;> rfl

@[simp]
theorem note_apply (event : Event) (state : State S)
    : note event state = .ok PUnit.unit (state.noted [event]) := rfl

@[simp]
theorem State.noted_noted (state : State S) (first later : List Event)
    : (state.noted first).noted later = state.noted (first ++ later) := by
  simp [State.noted]

/-- What a bracketing layer notes at the end. -/
def closingEvents (closing : Nat → Option Raised → Event) (call : Nat)
    : Except Raised Json → List Event
  | .ok _ => [.ended call true, closing call none]
  | .error error =>
      if error.isException then [.ended call false, closing call (some error)]
      else [.ended call false]

/-- A bracketing layer around a coroutine notes one group of events around it. -/
theorem closeCoroutine_apply (closing : Nat → Option Raised → Event) (call : Nat)
    (coroutine : StackM S Json) (state : State S)
    : closeCoroutine closing call (observeCoroutine call coroutine) state
      = match coroutine state with
        | .ok result reached =>
            .ok result (reached.noted (closingEvents closing call (.ok result)))
        | .error error reached =>
            .error error (reached.noted (closingEvents closing call (.error error))) := by
  simp only [closeCoroutine, observeCoroutine, Py.bind_apply, exceptException_apply,
    Py.tryCatch_apply]
  cases coroutine state with
  | ok result reached => simp [Py.pure_apply, closingEvents]
  | error error reached =>
      cases caught : error.isException <;> 
        simp [Py.throw_apply, closingEvents, caught]

/-- A bracketing layer that is called and not awaited leaves its group open. -/
theorem bracket_apply (opening : Nat → Event) (closing : Nat → Option Raised → Event)
    (execute : StackM S (Reply S)) (state : State S)
    : bracket opening closing execute state
      = match execute (state.opened opening) with
        | .ok (.awaitable coroutine) reached =>
            .ok (.awaitable (closeCoroutine closing state.calls
              (observeCoroutine state.calls coroutine))) reached
        | .ok (.value result) reached =>
            .ok (.value result) (reached.noted (closingEvents closing state.calls (.ok result)))
        | .error error reached =>
            .error error (reached.noted (closingEvents closing state.calls (.error error))) := by
  simp only [bracket, Py.bind_apply, openCall, exceptException_apply, observe,
    Py.tryCatch_apply]
  cases execute (state.opened opening) with
  | error error reached =>
      cases caught : error.isException <;> simp [Py.throw_apply, closingEvents, caught]
  | ok reply reached =>
      cases reply with
      | awaitable coroutine => rfl
      | value result =>
          simp only [Py.bind_apply, note_apply, Py.pure_apply, State.noted_noted, closingEvents]
          rfl

/-- A bracketing layer and the execution it wraps, up to the end. -/
theorem finish_bracket (opening : Nat → Event) (closing : Nat → Option Raised → Event)
    (execute : StackM S (Reply S)) (state : State S)
    : (bracket opening closing execute >>= finishReply) state
      = match (execute >>= finishReply) (state.opened opening) with
        | .ok result reached =>
            .ok result (reached.noted (closingEvents closing state.calls (.ok result)))
        | .error error reached =>
            .error error (reached.noted (closingEvents closing state.calls (.error error))) := by
  rw [Py.bind_apply, bracket_apply, Py.bind_apply]
  cases execute (state.opened opening) with
  | error error reached => rfl
  | ok reply reached =>
      cases reply with
      | value result => rfl
      | awaitable coroutine => exact closeCoroutine_apply closing state.calls coroutine reached

variable [DecidableEq S]

/-- Run a program under a claim of a key. -/
theorem completeCoroutine_apply (key : S) (coroutine : StackM S Json) (state : State S)
    : completeCoroutine key coroutine state
      = match coroutine state with
        | .ok result reached => .ok result (reached.setKey key (.completed result))
        | .error error reached =>
            .error error (if error.isException then reached.setKey key .free else reached) := by
  simp only [completeCoroutine, Py.bind_apply, exceptException_apply]
  cases coroutine state with
  | ok result reached => rfl
  | error error reached =>
      cases caught : error.isException <;>
        simp [Py.throw_apply, storeRelease, Py.modify_apply, caught]

theorem idempotencyExecute_cached {key : S} (inner : Executor S) {state : State S} {result : Json}
    (cached : (state.keys key).get = some result)
    : idempotencyExecute key inner state = .ok (.value result) state := by
  simp only [idempotencyExecute, Py.bind_apply, storeGet, cached]
  rfl

theorem idempotencyExecute_refused {key : S} (inner : Executor S) {state : State S}
    (missing : (state.keys key).get = none) (taken : state.keys key ≠ .free)
    : idempotencyExecute key inner state = .error claimedError state := by
  have claim : storeClaim key state = .ok false state := by
    unfold storeClaim
    cases held : state.keys key with
    | free => exact (taken held).elim
    | claimed => rfl
    | completed result => rfl
  simp only [idempotencyExecute, Py.bind_apply, storeGet, missing, claim]
  simp only [Bool.false_eq_true, if_false, Py.bind_apply, storeGet, missing, Py.throw_apply]

theorem idempotencyExecute_free {key : S} (inner : Executor S) {state : State S}
    (free : state.keys key = .free)
    : idempotencyExecute key inner state
      = match inner.execute (state.setKey key .claimed) with
        | .ok (.awaitable coroutine) reached =>
            .ok (.awaitable (completeCoroutine key coroutine)) reached
        | .ok (.value result) reached =>
            .ok (.value result) (reached.setKey key (.completed result))
        | .error error reached =>
            .error error (if error.isException then reached.setKey key .free else reached) := by
  simp only [idempotencyExecute, Py.bind_apply, storeGet, storeClaim, free, KeyState.get]
  simp only [if_true, Py.bind_apply, exceptException_apply]
  cases inner.execute (state.setKey key .claimed) with
  | error error reached =>
      cases caught : error.isException <;>
        simp [Py.throw_apply, storeRelease, Py.modify_apply, caught]
  | ok reply reached => cases reply <;> rfl

theorem finish_idempotency_free {key : S} (inner : Executor S) {state : State S}
    (free : state.keys key = .free)
    : (idempotencyExecute key inner >>= finishReply) state
      = completeCoroutine key (runStack inner) (state.setKey key .claimed) := by
  rw [Py.bind_apply, idempotencyExecute_free inner free, completeCoroutine_apply, runStack,
    Py.bind_apply]
  cases inner.execute (state.setKey key .claimed) with
  | error error reached => rfl
  | ok reply reached =>
      cases reply with
      | value result => rfl
      | awaitable coroutine => exact completeCoroutine_apply key coroutine reached

end Runs

end Pyverge.Middleware
