import Pyverge.Planning.Targets
import Pyverge.Py.Effects

/-! The convergence runtime that the framework adapters share: one runner, and a synchronous and an
asynchronous way to converge a payload with it.
-/

namespace Pyverge

open Py (Json)

/-- What an adapter raises itself, and what the runs and the framework raise. -/
inductive AdapterError (ε : Type) where
  | runtimeError (message : String)
  | attributeError (message : String)
  | negotiationError (message : String)
  | decodeError
  | raised (error : ε)

/-- `str.isspace` of one letter. -/
def isBlank (letter : Char) : Bool :=
  letter = ' ' || '\t' ≤ letter && letter ≤ '\r' || '\x1c' ≤ letter && letter ≤ '\x1f'
  || letter = '\x85' || letter = '\xa0' || letter = '\u1680'
  || '\u2000' ≤ letter && letter ≤ '\u200a' || letter = '\u2028' || letter = '\u2029'
  || letter = '\u202f' || letter = '\u205f' || letter = '\u3000'

/-- `str.strip` -/
def strip (text : List Char) : List Char :=
  ((text.dropWhile isBlank).reverse.dropWhile isBlank).reverse

/-- The version that a payload shows. -/
def shownVersion (printable : Char → Bool) (payload : List (String × Json)) : Option String :=
  match Json.getMember payload "version" with
  | none | some .null => none
  | some version => some (version.pyStr printable)

/-- The arguments of `Runner.run`. -/
structure RunArguments (V M C : Type) where
  payload : Json
  target : TargetPolicy V M
  sourceModel : Option M
  maxDepth : Int
  context : Option C
  runId : Option String
  validateTarget : Bool

/-- What a run hands over: a payload, or something to await. -/
inductive Handed (ε σ : Type) where
  | payload (data : Json)
  | awaitable (result : EStateM (AdapterError ε) σ Json)

/-- `Runner.run` as the adapters see it, with all that runs read and write in one state. -/
abbrev RunnerPort (R V M C ε σ : Type) :=
  R → RunArguments V M C → EStateM (AdapterError ε) σ (Handed ε σ)

/-- The options of one convergence; `none` takes the default of the runtime. -/
structure ConvergeOptions (M C : Type) where
  sourceModel : Option M := none
  maxDepth : Int := -1
  context : Option C := none
  runId : Option String := none
  validateTarget : Option Bool := none

structure ConvergenceRuntime (R C S : Type) where
  bound : Option R
  context : Option C
  runId : Option String
  contextFactory : Option (S → Option C)
  validateTarget : Bool

namespace ConvergenceRuntime

variable {R V M C S ε σ : Type} (runtime : ConvergenceRuntime R C S)

/-- The property `runner`. -/
def runner : Except (AdapterError ε) R :=
  runtime.bound.elim
    (.error (.runtimeError
      "ConvergenceRuntime has no runner; bind one during application startup"))
    .ok

/-- `bind`: a runtime keeps the first runner it is given. -/
def bind [DecidableEq R] (runner : R) : EStateM (AdapterError ε) (ConvergenceRuntime R C S) PUnit :=
  fun runtime =>
    if runtime.bound.isSome ∧ runtime.bound ≠ some runner then
      .error (.runtimeError "ConvergenceRuntime is already bound to a runner") runtime
    else .ok ⟨⟩ { runtime with bound := some runner }

/-- `context_for` -/
def contextFor (source : Option S) : Option C :=
  match runtime.contextFactory, source with
  | some factory, some given => factory given
  | _, _ => runtime.context

/-- What a run is given: an option that is absent, or a context of `None`, takes the default. -/
def arguments (payload : Json) (target : TargetPolicy V M) (options : ConvergeOptions M C)
    : RunArguments V M C where
  payload
  target
  sourceModel := options.sourceModel
  maxDepth := options.maxDepth
  context := options.context.orElse (fun _ => runtime.context)
  runId := options.runId.orElse (fun _ => runtime.runId)
  validateTarget := options.validateTarget.getD runtime.validateTarget

variable (run : RunnerPort R V M C ε σ)

/-- `_run` -/
def handed (payload : Json) (target : TargetPolicy V M) (options : ConvergeOptions M C)
    : EStateM (AdapterError ε) σ (Handed ε σ) := do
  let runner ← Py.query (fun _ => runtime.runner)
  run runner (runtime.arguments payload target options)

/-- `converge_sync` -/
def convergeSync (payload : Json) (target : TargetPolicy V M) (options : ConvergeOptions M C)
    : EStateM (AdapterError ε) σ Json := do
  match ← runtime.handed run payload target options with
  | .payload data => return data
  | .awaitable _ => throw (.runtimeError "sync convergence requires a synchronous runner")

/-- `converge` -/
def converge (payload : Json) (target : TargetPolicy V M) (options : ConvergeOptions M C)
    : EStateM (AdapterError ε) σ Json := do
  match ← runtime.handed run payload target options with
  | .payload data => return data
  | .awaitable result => result

end ConvergenceRuntime

end Pyverge
