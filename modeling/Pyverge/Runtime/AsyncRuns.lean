import Pyverge.Runtime.Backends
import Pyverge.Runtime.TargetValidation

/-! Runs with an asynchronous backend: the runner hands back a coroutine, which the caller awaits.
The final validation comes before that and looks at the coroutine.
-/

namespace Pyverge

open Py (Json)

variable {V M F H T C : Type}

/-- What `Runner.execute` returns: a payload, or the coroutine that an asynchronous backend makes
of a plan.
-/
inductive RunResult (V F H : Type) where
  | payload (data : Json)
  | coroutine (plan : ExecutionPlan V F H)

/-- `Path.get` of a result. A coroutine has no items. -/
def RunResult.get (path : Path) : RunResult V F H → Except Raised (RunResult V F H)
  | .payload data => (path.get data).map .payload
  | .coroutine plan =>
      match path with
      | [] => .ok (.coroutine plan)
      | _ :: _ => .error (.typeError "'coroutine' object is not subscriptable")

namespace TargetModels

variable (targets : TargetModels T)

/-- The loop body of `_validate_target` for a result. A coroutine is no mapping. -/
def validateEntryOf (result : RunResult V F H) (entry : PathPlanEntry V)
    : Except ValidationError (RunResult V F H) :=
  match result with
  | .payload data => (targets.validateEntry data entry).map .payload
  | .coroutine plan => do
      let _ ← ((RunResult.coroutine plan).get entry.path).mapError .raised
      .error (.target entry.path entry.targetModel (.typeError "target payload is not a mapping"))

/-- `Runner._validate_target` of whatever `execute` returned -/
def validateResult (entries : List (PathPlanEntry V)) (result : RunResult V F H)
    : Except ValidationError (RunResult V F H) :=
  entries.foldlM targets.validateEntryOf result

end TargetModels

namespace Backend

def isAsync : Backend → Bool
  | .async _ => true
  | .threaded _ | .process _ => false

/-- Nothing has to be sent where the migrations run in an event loop. -/
theorem pickles_of_isAsync {backend : Backend} (isAsync : backend.isAsync = true)
    {plan : ExecutionPlan V F H} {calls : Calls V F H} (isProcess : backend.isProcess = true)
    : plan.Pickles calls := by
  cases backend with
  | async => cases isProcess
  | threaded => cases isAsync
  | process => cases isAsync

section Calls

variable [VersionValue V] (setup : RunSetup V F H)

/-- What the call of a backend may hand back, or `none` for an error. -/
def Hands (plan : ExecutionPlan V F H) (backend : Backend) (handed : Option (RunResult V F H))
    : Prop :=
  if backend.isAsync then handed = some (.coroutine plan)
  else ∃ out, backend.Ends setup plan plan.payload out ∧ handed = out.map .payload

/-- How a result may end, once a coroutine is awaited. -/
def Awaits (backend : Backend) : RunResult V F H → Option Json → Prop
  | .payload data, out => out = some data
  | .coroutine plan, out => backend.Ends setup plan plan.payload out

end Calls

end Backend

namespace ValidatingRunner

/-- A runner whose callables see the context of a run. -/
def inContext (runner : ValidatingRunner V M F H T) (calls : C → Calls V F H) (context : C)
    : ValidatingRunner V M F H T :=
  { runner with setup := { runner.setup with calls := calls context } }

variable [DecidableEq V] [VersionValue V] (runner : ValidatingRunner V M F H T)

/-- The final validation, where it is asked for. -/
def validated (validate : Bool) (plan : ExecutionPlan V F H) (result : RunResult V F H)
    : Except ValidationError (RunResult V F H) :=
  if validate then runner.targets.validateResult plan.path.entries result else .ok result

section Runs

variable (backend : Backend) (validate : Bool) (request : PlanRequest V M)
  (state : CoordinatorState V M)

/-- How awaiting `Runner.run` may end: with a payload, or with `none` for an error. -/
inductive Runs : Option Json → Prop where
  | unplanned {error : RunError V} (planned : Py.outcome (runner.plan request) state = .error error)
      : Runs none
  | raised {plan : ExecutionPlan V F H}
      (planned : Py.outcome (runner.plan request) state = .ok plan)
      (executed : backend.Hands runner.setup plan none)
      : Runs none
  | invalid {plan : ExecutionPlan V F H} {result : RunResult V F H} {error : ValidationError}
      (planned : Py.outcome (runner.plan request) state = .ok plan)
      (executed : backend.Hands runner.setup plan (some result))
      (refused : runner.validated validate plan result = .error error)
      : Runs none
  | ended {plan : ExecutionPlan V F H} {result final : RunResult V F H} {out : Option Json}
      (planned : Py.outcome (runner.plan request) state = .ok plan)
      (executed : backend.Hands runner.setup plan (some result))
      (accepted : runner.validated validate plan result = .ok final)
      (awaited : backend.Awaits runner.setup final out)
      : Runs out

/-- What a run should give: the migrated payload, finalized exactly if that is asked for. -/
def served : Option Json :=
  if validate then
    (Py.outcome (runner.runValidated (runner.execute .sync) request) state).toOption
  else (Py.outcome (runner.run .sync request) state).toOption

/-- Both backends end a run with the payload that it should give, or both with an error. -/
def RunsAlike (direct awaited : Backend) : Prop :=
  ∃ ended, (ended = none ∨ ended = runner.served validate request state)
    ∧ (∀ out, runner.Runs direct validate request state out ↔ out = ended)
    ∧ ∀ out, runner.Runs awaited validate request state out ↔ out = ended

/-- Where validation is asked for and the target models take the migrated payload, the plan has no
entry.
-/
def NothingToValidate : Prop :=
  validate = true → ∀ plan data final, Py.outcome (runner.plan request) state = .ok plan
    → runner.execute .sync plan = .ok data
    → runner.targets.validateTarget plan.path.entries data = .ok final
    → plan.path.entries = []

/-- Where the request can be served with a pool of processes, its migrations can be sent there. -/
def Sendable (direct : Backend) : Prop :=
  direct.isProcess = true → ∀ plan data, Py.outcome (runner.plan request) state = .ok plan
    → runner.execute .sync plan = .ok data
    → (validate = true → ∃ final, runner.targets.validateTarget plan.path.entries data = .ok final)
    → plan.Pickles runner.setup.calls

end Runs

end ValidatingRunner

-----------------------------------------------------------------------------------------
-- Validating a result
-----------------------------------------------------------------------------------------

namespace TargetModels

variable {targets : TargetModels T}

/-- A payload is validated as such, by list induction. -/
theorem validateResult_payload (entries : List (PathPlanEntry V)) (data : Json)
    : targets.validateResult entries (.payload data : RunResult V F H)
      = (targets.validateTarget entries data).map .payload := by
  induction entries generalizing data with
  | nil => rfl
  | cons entry rest ih =>
      rw [validateResult, validateTarget, List.foldlM_cons, List.foldlM_cons, validateEntryOf]
      cases targets.validateEntry data entry with
      | error error => rfl
      | ok next => exact ih next

/-- A coroutine passes only where there is no entry. -/
theorem validateResult_coroutine {entries : List (PathPlanEntry V)} {plan : ExecutionPlan V F H}
    {final : RunResult V F H}
    : targets.validateResult entries (.coroutine plan) = .ok final
      ↔ entries = [] ∧ final = .coroutine plan := by
  cases entries with
  | nil =>
      rw [validateResult, List.foldlM_nil]
      exact ⟨fun same => ⟨rfl, (Except.ok.inj same).symm⟩, fun same => by rw [same.2]; rfl⟩
  | cons entry rest =>
      constructor
      · intro passed
        obtain ⟨next, first, _⟩ := Py.ok_bind_iff.mp passed
        obtain ⟨_, _, refused⟩ := Py.ok_bind_iff.mp first
        cases refused
      · intro same
        cases same.1

end TargetModels

-----------------------------------------------------------------------------------------
-- How runs end
-----------------------------------------------------------------------------------------

section Ends

variable [DecidableEq V] [VersionValue V]

/-- What a coordinator plans is a path plan with its callables bound. -/
theorem ExecutionCoordinator.plan_built {coordinator : ExecutionCoordinator V M F H}
    {request : PlanRequest V M} {state : CoordinatorState V M} {plan : ExecutionPlan V F H}
    (planned : Py.outcome (coordinator.plan request) state = .ok plan)
    : buildPlan coordinator.bindings plan.path plan.payload = .ok plan := by
  rw [ExecutionCoordinator.plan, Py.outcome_bind] at planned
  obtain ⟨entries, _, later⟩ := Py.ok_bind_iff.mp planned
  rw [Py.outcome_bind] at later
  obtain ⟨found, _, bound⟩ := Py.ok_bind_iff.mp later
  rw [Py.outcome_query] at bound
  have built := Py.mapError_eq_ok.mp bound
  obtain ⟨path, payload, _⟩ := buildPlan_ok built
  rw [path, payload]
  exact built

/-- A runner plans as its coordinator does. -/
theorem Runner.coordinated_of_plan {runner : Runner V M F H} {request : PlanRequest V M}
    {state : CoordinatorState V M} {plan : ExecutionPlan V F H}
    (planned : Py.outcome (runner.plan request) state = .ok plan)
    : Py.outcome (runner.coordinator.plan request) state = .ok plan := by
  rw [Runner.plan, Py.outcome_bind, Py.outcome_zoom] at planned
  obtain ⟨found, coordinated, later⟩ := Py.ok_bind_iff.mp planned
  rw [Py.outcome_bind] at later
  obtain ⟨_, _, same⟩ := Py.ok_bind_iff.mp later
  obtain rfl := Except.ok.inj same
  exact Py.mapError_eq_ok.mp coordinated

namespace ValidatingRunner

variable {runner : ValidatingRunner V M F H T} {request : PlanRequest V M}

/-- A plan that is built over distinct paths ends the same way with every backend that can call
its migrations.
-/
theorem ends_of_built {plan : ExecutionPlan V F H}
    (built : buildPlan runner.coordinator.bindings plan.path plan.payload = .ok plan)
    (ordered : ParentsFirst plan.path.entries)
    (synchronous : runner.setup.calls.Synchronous) {backend : Backend}
    (pickles : backend.isProcess = true → plan.Pickles runner.setup.calls) (out : Option Json)
    : backend.Ends runner.setup plan plan.payload out
      ↔ out = (runner.execute .sync plan).toOption := by
  have distinct : (plan.path.entries.map PathPlanEntry.path).Nodup := by
    rw [List.Nodup, List.pairwise_map]
    refine ordered.imp (fun apart same => apart ?_)
    rw [same]
  exact Backend.ends_of_pickles built distinct synchronous pickles

section State

variable {state : CoordinatorState V M}

/-- A request that is not planned is not served. -/
theorem served_of_unplanned {error : RunError V}
    (planned : Py.outcome (runner.plan request) state = .error error) (validate : Bool)
    : runner.served validate request state = none := by
  cases validate with
  | false =>
      rw [served, if_neg Bool.false_ne_true, Runner.run, Py.outcome_bind, planned]
      rfl
  | true =>
      rw [served, if_pos rfl, runValidated, Py.outcome_bind, Py.outcome_zoom, id_eq, planned]
      rfl

/-- A planned request is served with what its execution gives, and its target models make of it. -/
theorem served_of_planned {plan : ExecutionPlan V F H}
    (planned : Py.outcome (runner.plan request) state = .ok plan) (validate : Bool)
    : runner.served validate request state
      = (runner.execute .sync plan).toOption.bind (fun data =>
          if validate then (runner.targets.validateTarget plan.path.entries data).toOption
          else some data) := by
  cases validate with
  | false =>
      rw [served, if_neg Bool.false_ne_true, Runner.run, Py.outcome_bind, planned]
      change (Py.outcome (Py.query _) _).toOption = _
      rw [Py.outcome_query]
      cases runner.execute .sync plan <;> rfl
  | true =>
      rw [served, if_pos rfl, runValidated, Py.outcome_bind, Py.outcome_zoom, id_eq, planned]
      change (Py.outcome (Py.query _ >>= _) _).toOption = _
      rw [Py.outcome_bind, Py.outcome_query]
      cases runner.execute .sync plan with
      | error error => rfl
      | ok data =>
          change (Py.outcome (Py.query _) _).toOption = _
          rw [Py.outcome_query]
          simp only [Except.toOption, Option.bind_some, if_pos]
          cases runner.targets.validateTarget plan.path.entries data <;> rfl

/-- A request that is not planned ends with an error. -/
theorem runs_of_unplanned {error : RunError V}
    (planned : Py.outcome (runner.plan request) state = .error error) {backend : Backend}
    {validate : Bool} {out : Option Json}
    : runner.Runs backend validate request state out ↔ out = none := by
  constructor
  · intro runs
    cases runs with
    | unplanned _ => rfl
    | raised _ _ => rfl
    | invalid _ _ _ => rfl
    | ended again _ _ _ =>
        rw [planned] at again
        cases again
  · intro none
    subst none
    exact .unplanned planned

section Planned

variable {plan : ExecutionPlan V F H}

/-- A planned run goes on from the execution of its one plan. -/
theorem runs_of_planned (planned : Py.outcome (runner.plan request) state = .ok plan)
    {backend : Backend} {validate : Bool} {out : Option Json}
    : runner.Runs backend validate request state out
      ↔ (out = none ∧ (backend.Hands runner.setup plan none
            ∨ ∃ result error, backend.Hands runner.setup plan (some result)
              ∧ runner.validated validate plan result = .error error))
        ∨ ∃ result final, backend.Hands runner.setup plan (some result)
            ∧ runner.validated validate plan result = .ok final
            ∧ backend.Awaits runner.setup final out := by
  have one : ∀ {other}, Py.outcome (runner.plan request) state = .ok other → other = plan := by
    intro other again
    rw [planned] at again
    exact (Except.ok.inj again).symm
  constructor
  · intro runs
    cases runs with
    | unplanned failed =>
        rw [planned] at failed
        cases failed
    | raised again executed =>
        obtain rfl := one again
        exact .inl ⟨rfl, .inl executed⟩
    | invalid again executed refused =>
        obtain rfl := one again
        exact .inl ⟨rfl, .inr ⟨_, _, executed, refused⟩⟩
    | ended again executed accepted awaited =>
        obtain rfl := one again
        exact .inr ⟨_, _, executed, accepted, awaited⟩
  · intro ways
    rcases ways with ⟨none, executed | ⟨result, error, executed, refused⟩⟩
      | ⟨result, final, executed, accepted, awaited⟩
    · subst none
      exact .raised planned executed
    · subst none
      exact .invalid planned executed refused
    · exact .ended planned executed accepted awaited

/-- With a synchronous backend a planned run ends with what its execution gives, and its target
models make of it.
-/
theorem runs_direct (planned : Py.outcome (runner.plan request) state = .ok plan)
    {direct : Backend} (isSync : direct.isAsync = false) {ended : Option Json}
    (ends : ∀ out, direct.Ends runner.setup plan plan.payload out ↔ out = ended) {validate : Bool}
    {out : Option Json}
    : runner.Runs direct validate request state out
      ↔ out = ended.bind (fun data =>
          if validate then (runner.targets.validateTarget plan.path.entries data).toOption
          else some data) := by
  have hands : ∀ handed, direct.Hands runner.setup plan handed
      ↔ handed = ended.map .payload := by
    intro handed
    rw [Backend.Hands, isSync, if_neg Bool.false_ne_true]
    constructor
    · intro executed
      obtain ⟨data, ran, same⟩ := executed
      rw [same, (ends data).mp ran]
    · intro same
      exact ⟨_, (ends _).mpr rfl, same⟩
  rw [runs_of_planned planned]
  simp only [hands]
  cases ended with
  | none => simp
  | some data =>
      simp only [Option.map_some, reduceCtorEq, false_or, Option.some.injEq, Option.bind_some]
      cases validate with
      | false => simp [validated, Backend.Awaits]
      | true =>
          simp only [validated, if_pos, exists_eq_left, exists_and_left,
            TargetModels.validateResult_payload]
          cases runner.targets.validateTarget plan.path.entries data with
          | error error => simp [Except.map, Except.toOption]
          | ok final => simp [Except.map, Except.toOption, Backend.Awaits, eq_comm]

/-- With an asynchronous backend a planned run ends with an error where the validation sees an
entry.
-/
theorem runs_awaited (planned : Py.outcome (runner.plan request) state = .ok plan)
    {awaited : Backend} (isAsync : awaited.isAsync = true)
    (ends : ∀ out, awaited.Ends runner.setup plan plan.payload out
      ↔ out = (runner.execute .sync plan).toOption) {validate : Bool} {out : Option Json}
    : runner.Runs awaited validate request state out
      ↔ out = if validate = true ∧ plan.path.entries ≠ [] then none
          else (runner.execute .sync plan).toOption := by
  have hands : ∀ handed, awaited.Hands runner.setup plan handed
      ↔ handed = some (.coroutine plan) := by
    intro handed
    rw [Backend.Hands, isAsync, if_pos rfl]
  rw [runs_of_planned planned]
  simp only [hands, reduceCtorEq, false_or, Option.some.injEq]
  cases validate with
  | false => simp [validated, Backend.Awaits, ends]
  | true =>
      by_cases empty : plan.path.entries = []
      · simp [validated, empty, TargetModels.validateResult, Backend.Awaits, pure, Except.pure,
          ends]
      · have refused : ∃ error, runner.targets.validateResult plan.path.entries (.coroutine plan)
            = .error error := by
          cases passed : runner.targets.validateResult plan.path.entries (.coroutine plan) with
          | error error => exact ⟨error, rfl⟩
          | ok final => exact (empty (TargetModels.validateResult_coroutine.mp passed).1).elim
        obtain ⟨error, refused⟩ := refused
        simp [validated, empty, refused]

/-- With a synchronous backend a planned run ends as it should if its migrations can be sent where
they have to be.
-/
theorem runs_direct_served (planned : Py.outcome (runner.plan request) state = .ok plan)
    (built : buildPlan runner.coordinator.bindings plan.path plan.payload = .ok plan)
    (ordered : ParentsFirst plan.path.entries)
    (synchronous : runner.setup.calls.Synchronous) {direct : Backend}
    (isSync : direct.isAsync = false) {validate : Bool}
    (sendable : runner.Sendable validate request state direct) (out : Option Json)
    : runner.Runs direct validate request state out
      ↔ out = runner.served validate request state := by
  rw [served_of_planned planned validate]
  by_cases pickles : direct.isProcess = true → plan.Pickles runner.setup.calls
  · rw [runs_direct planned isSync (ends_of_built built ordered synchronous pickles)]
  · obtain ⟨isProcess, refused⟩ := Classical.not_imp.mp pickles
    rw [runs_direct planned isSync (fun _ => Backend.ends_of_unpickled isProcess refused),
      Option.bind_none]
    cases executed : runner.execute .sync plan with
    | error error => rfl
    | ok data =>
        cases validate with
        | false =>
            exact (refused (sendable isProcess plan data planned executed Bool.noConfusion)).elim
        | true =>
            cases accepted : runner.targets.validateTarget plan.path.entries data with
            | error error => simp [Except.toOption, accepted]
            | ok final =>
                exact (refused (sendable isProcess plan data planned executed
                  (fun _ => ⟨final, accepted⟩))).elim

/-- With a synchronous backend a planned run that cannot be sent to its processes ends with an
error.
-/
theorem runs_direct_none (planned : Py.outcome (runner.plan request) state = .ok plan)
    {direct : Backend} (isSync : direct.isAsync = false) {validate : Bool}
    (unsendable : ¬ runner.Sendable validate request state direct) (out : Option Json)
    : runner.Runs direct validate request state out ↔ out = none := by
  simp only [Sendable, Classical.not_imp] at unsendable
  obtain ⟨isProcess, unsendable⟩ := unsendable
  have refused : ¬ plan.Pickles runner.setup.calls := by
    intro pickles
    apply unsendable
    intro other data again _ _
    obtain rfl := Except.ok.inj (planned.symm.trans again)
    exact pickles
  rw [runs_direct planned isSync (fun _ => Backend.ends_of_unpickled isProcess refused),
    Option.bind_none]

/-- With an asynchronous backend a planned run ends as it should if there is nothing to validate. -/
theorem runs_awaited_served (planned : Py.outcome (runner.plan request) state = .ok plan)
    (built : buildPlan runner.coordinator.bindings plan.path plan.payload = .ok plan)
    (ordered : ParentsFirst plan.path.entries)
    (synchronous : runner.setup.calls.Synchronous) {awaited : Backend}
    (isAsync : awaited.isAsync = true) {validate : Bool}
    (nothing : runner.NothingToValidate validate request state) (out : Option Json)
    : runner.Runs awaited validate request state out
      ↔ out = runner.served validate request state := by
  rw [served_of_planned planned validate, runs_awaited planned isAsync
    (ends_of_built built ordered synchronous (Backend.pickles_of_isAsync isAsync))]
  by_cases stops : validate = true ∧ plan.path.entries ≠ []
  · obtain ⟨asked, present⟩ := stops
    rw [if_pos ⟨asked, present⟩]
    cases executed : runner.execute .sync plan with
    | error error => simp [Except.toOption]
    | ok data =>
        cases accepted : runner.targets.validateTarget plan.path.entries data with
        | error error => simp [Except.toOption, asked, accepted]
        | ok final =>
            exact (present (nothing asked plan data final planned executed accepted)).elim
  · rw [if_neg stops]
    cases asked : validate with
    | false => cases runner.execute .sync plan <;> simp [Except.toOption]
    | true =>
        have empty : plan.path.entries = [] := by
          by_contra present
          exact stops ⟨asked, present⟩
        rw [empty]
        cases runner.execute .sync plan <;>
          simp [Except.toOption, TargetModels.validateTarget, Pure.pure, Except.pure]

/-- With an asynchronous backend a planned run that has something to validate ends with an error. -/
theorem runs_awaited_none (planned : Py.outcome (runner.plan request) state = .ok plan)
    (built : buildPlan runner.coordinator.bindings plan.path plan.payload = .ok plan)
    (ordered : ParentsFirst plan.path.entries)
    (synchronous : runner.setup.calls.Synchronous) {awaited : Backend}
    (isAsync : awaited.isAsync = true) {validate : Bool}
    (something : ¬ runner.NothingToValidate validate request state) (out : Option Json)
    : runner.Runs awaited validate request state out ↔ out = none := by
  have stops : validate = true ∧ plan.path.entries ≠ [] := by
    by_contra passes
    apply something
    intro asked other data final again _ _
    obtain rfl := Except.ok.inj (planned.symm.trans again)
    by_contra present
    exact passes ⟨asked, present⟩
  rw [runs_awaited planned isAsync (ends_of_built built ordered synchronous
    (Backend.pickles_of_isAsync isAsync)), if_pos stops]

end Planned

end State

section Served

variable {state : CoordinatorState V M} {validate : Bool}

/-- What cannot be sent to processes would be served elsewhere. -/
theorem exists_served_of_unsendable {direct : Backend}
    (unsendable : ¬ runner.Sendable validate request state direct)
    : ∃ final, runner.served validate request state = some final := by
  simp only [Sendable, Classical.not_imp, not_forall] at unsendable
  obtain ⟨_, plan, data, planned, executed, accepts, _⟩ := unsendable
  rw [served_of_planned planned validate, executed]
  cases validate with
  | false => exact ⟨data, rfl⟩
  | true =>
      obtain ⟨final, accepted⟩ := accepts rfl
      exact ⟨final, by simp [Except.toOption, accepted]⟩

/-- What there is to validate would be served by another backend. -/
theorem exists_served_of_something (something : ¬ runner.NothingToValidate validate request state)
    : ∃ final, runner.served validate request state = some final := by
  simp only [NothingToValidate, Classical.not_imp, not_forall] at something
  obtain ⟨asked, plan, data, final, planned, executed, accepted, _⟩ := something
  rw [served_of_planned planned validate, executed]
  exact ⟨final, by simp [Except.toOption, asked, accepted]⟩

end Served

/-- Two runs that each give what they should or an error end alike exactly if both give it or none
does.
-/
theorem ends_alike_iff {direct awaited : Option Json → Prop} {served : Option Json}
    {sends skips : Prop} (first : sends → ∀ out, direct out ↔ out = served)
    (firstFails : ¬ sends → (∀ out, direct out ↔ out = none) ∧ ∃ final, served = some final)
    (late : skips → ∀ out, awaited out ↔ out = served)
    (lateFails : ¬ skips → (∀ out, awaited out ↔ out = none) ∧ ∃ final, served = some final)
    : (∃ ended, (ended = none ∨ ended = served) ∧ (∀ out, direct out ↔ out = ended)
        ∧ ∀ out, awaited out ↔ out = ended)
      ↔ (skips ↔ sends) := by
  constructor
  · rintro ⟨ended, _, one, other⟩
    have same : ∀ out, direct out ↔ awaited out := fun out => (one out).trans (other out).symm
    constructor
    · intro holds
      by_contra fails
      obtain ⟨none, final, answered⟩ := firstFails fails
      have given := (same served).mpr ((late holds served).mpr rfl)
      rw [(none served).mp given] at answered
      cases answered
    · intro holds
      by_contra fails
      obtain ⟨none, final, answered⟩ := lateFails fails
      have given := (same served).mp ((first holds served).mpr rfl)
      rw [(none served).mp given] at answered
      cases answered
  · intro same
    by_cases holds : skips
    · exact ⟨served, .inr rfl, first (same.mp holds), late holds⟩
    · exact ⟨none, .inl rfl, (firstFails (fun sends => holds (same.mpr sends))).1,
        (lateFails holds).1⟩

end ValidatingRunner

end Ends

-----------------------------------------------------------------------------------------
-- A user that is validated
-----------------------------------------------------------------------------------------

/-- The first user is planned with an entry, and its target model takes it. -/
theorem exists_plan_firstUser
    : ∃ graph, buildGraph plainConfig.hasher (userCatalogIn "default") none = .ok graph
        ∧ ∃ (plan : ExecutionPlan Release Unit Unit) (final : Json),
          Py.outcome ((plainRunner graph).plan firstUser) (ExecutionCoordinator.start 0) = .ok plan
          ∧ (plainRunner graph).execute .sync plan = .ok firstUser.payload
          ∧ (finalizingRunner graph keepIdentity).targets.validateTarget plan.path.entries
              firstUser.payload = .ok final
          ∧ plan.path.entries ≠ [] := by
  have shown : (buildGraph plainConfig.hasher (userCatalogIn "default") none).map (fun graph =>
      (Py.outcome ((plainRunner graph).plan firstUser) (ExecutionCoordinator.start 0)).map
        (fun plan => ((plainRunner graph).execute .sync plan,
          (finalizingRunner graph keepIdentity).targets.validateTarget plan.path.entries
            firstUser.payload, plan.path.entries.isEmpty)))
      = .ok (.ok (.ok firstUser.payload, .ok firstUser.payload, false)) := by
    decide +kernel
  obtain ⟨graph, built, told⟩ := Py.map_eq_ok.mp shown
  obtain ⟨plan, planned, results⟩ := Py.map_eq_ok.mp told
  obtain ⟨executed, others⟩ := Prod.mk.inj results
  obtain ⟨accepted, present⟩ := Prod.mk.inj others
  refine ⟨graph, built, plan, firstUser.payload, planned, executed, accepted, ?_⟩
  intro empty
  rw [empty] at present
  cases present

theorem isWellFormed_firstUser (graph : MigrationGraph Release)
    : ∀ other ∈ [firstUser], other.IsWellFormed (plainCoordinator graph .any) := by
  intro other member
  rw [List.mem_singleton.mp member]
  apply isWellFormed_of_plain
  simp [WellFormed, WellFormedMembers]

end Pyverge
