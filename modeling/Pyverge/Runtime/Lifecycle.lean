import Pyverge.Py.Lists
import Pyverge.Py.Traces
import Pyverge.Runtime.RunEvents

/-! What a step does around its migration: the scopes it enters and leaves, the hooks it calls, and
the error that is pending when it ends. Only a scope that suppresses the error of a step without a
result leaves the lifecycle with nothing to return.
-/

namespace Pyverge

open Py (Json)

variable {V F H α : Type}

-----------------------------------------------------------------------------------------
-- What is pending
-----------------------------------------------------------------------------------------

/-- What the lifecycle makes of a scope that a hook yields, if it can be entered. -/
def Mode.entered (mode : Mode) : HookScope → Except Raised (Option Scope)
  | .nothing => .ok none
  | .scope scope => scope.enter.map (fun _ => some scope)
  | .asyncScope scope =>
      match mode with
      | .sync => .error (.asyncExecutionRequired "async hook scope requires async backend")
      | .async => scope.enter.map (fun _ => some scope)

/-- What a result of `before_migrate` opens. -/
def Mode.opens (mode : Mode) (result : Returned HookScope) : Except Raised (Option Scope) :=
  (mode.settle "async hook requires async backend" result).bind mode.entered

/-- The scopes that results open one after the other, and the error at the first that cannot be. -/
def Mode.openAll (mode : Mode)
    : Nat → List (Returned HookScope) → List (Nat × Scope) × Option Raised
  | _, [] => ([], none)
  | place, result :: rest =>
      match mode.opens result with
      | .error error => ([], some error)
      | .ok none => mode.openAll (place + 1) rest
      | .ok (some scope) =>
          ((place, scope) :: (mode.openAll (place + 1) rest).1, (mode.openAll (place + 1) rest).2)

/-- What is pending after leaving the scopes in turn. -/
def leaveScopes : List Scope → Option Raised → Option Raised
  | [], pending => pending
  | scope :: rest, pending =>
      match scope.exit pending with
      | .error error => leaveScopes rest (some error)
      | .ok suppress => leaveScopes rest (if suppress then none else pending)

def errorOf : Except Raised α → Option Raised
  | .error error => some error
  | .ok _ => none

/-- The error of a phase without scopes: of a call, or else of a result. -/
def Mode.phaseError (mode : Mode) (call : H → Except Raised (Returned Unit)) (hooks : List H)
    : Option Raised :=
  errorOf (do
    let results ← hooks.mapM call
    results.forM (mode.settle "async hook requires async backend"))

-----------------------------------------------------------------------------------------
-- Phases
-----------------------------------------------------------------------------------------

def moments (step : StepContext V) (listed : List StepMoment) : List (StepEvent V) :=
  listed.map (StepEvent.mk step)

theorem record_writes (step : StepContext V) (moment : StepMoment)
    : Py.Writes (record step moment) (moments step [moment]) (.ok PUnit.unit) :=
  .append _

theorem emit_writes (enabled : Bool) (step : StepContext V) (moment : StepMoment)
    : Py.Writes (emit enabled step moment) (moments step (if enabled then [moment] else []))
        (.ok PUnit.unit) := by
  cases enabled with
  | false => exact .pure _
  | true => exact record_writes step moment

theorem moments_append (step : StepContext V) (first later : List StepMoment)
    : moments step first ++ moments step later = moments step (first ++ later) :=
  List.map_append.symm

/-- One phase of all hooks, by induction on the hooks. -/
theorem invokeHook_writes (step : StepContext V) (moment : Nat → StepMoment)
    (call : H → Except Raised α) (place : Nat) (hooks : List H)
    : ∃ places : List Nat, Py.Writes (invokeHook step moment call place hooks)
        (moments step (places.map moment)) (hooks.mapM call) := by
  induction hooks generalizing place with
  | nil => exact ⟨[], .pure _⟩
  | cons hook rest ih =>
      obtain ⟨places, later⟩ := ih (place + 1)
      have first := record_writes step (moment place)
      cases called : call hook with
      | error error =>
          have raised : (hook :: rest).mapM call = .error error := by
            rw [List.mapM_cons, called]
            rfl
          rw [raised]
          exact ⟨[place], first.bind (.const_bind_error called _)⟩
      | ok result =>
          have both : (hook :: rest).mapM call = (rest.mapM call).map (result :: ·) := by
            rw [List.mapM_cons, called]
            cases rest.mapM call <;> rfl
          rw [both]
          exact ⟨place :: places, first.bind (.const_bind called (later.map _))⟩

theorem attempt_writes {program : ExecM V PUnit} {added : List (StepEvent V)}
    {out : Except Raised PUnit} (writes : Py.Writes program added out)
    : Py.Writes (attempt program) added (.ok (errorOf out)) := by
  cases out with
  | error error =>
      have handled : Py.Writes (attempt program) (added ++ []) (.ok (some error)) :=
        .tryCatch_error writes.bind_error (.pure (some error))
      rw [List.append_nil] at handled
      exact handled
  | ok done => exact .tryCatch (writes.bind_quiet (.pure none))

/-- Results are settled one after the other, by induction on them. -/
theorem settleAll_writes (mode : Mode) (results : List (Returned Unit))
    : Py.Writes (results.forM (fun result =>
          (settled (mode.settle "async hook requires async backend" result) : ExecM V PUnit)))
        [] (results.forM (mode.settle "async hook requires async backend")) := by
  induction results with
  | nil => exact .pure _
  | cons result rest ih =>
      have unfolded : (result :: rest).forM (mode.settle "async hook requires async backend")
          = (mode.settle "async hook requires async backend" result).bind
              (fun _ => rest.forM (mode.settle "async hook requires async backend")) := rfl
      rw [unfolded]
      cases told : mode.settle "async hook requires async backend" result with
      | error error => exact .const_bind_error told _
      | ok done => exact .const_bind told ih

/-- A phase without scopes. -/
theorem callHooks_writes (mode : Mode) (step : StepContext V) (moment : Nat → StepMoment)
    (call : H → Except Raised (Returned Unit)) (hooks : List H)
    : ∃ places : List Nat, Py.Writes (attempt (callHooks mode step moment call hooks))
        (moments step (places.map moment)) (.ok (mode.phaseError call hooks)) := by
  obtain ⟨places, called⟩ := invokeHook_writes step moment call 0 hooks
  refine ⟨places, attempt_writes ?_⟩
  cases listed : hooks.mapM call with
  | error error =>
      rw [listed] at called
      exact called.bind_error
  | ok results =>
      rw [listed] at called
      exact called.bind_quiet (settleAll_writes mode results)

-----------------------------------------------------------------------------------------
-- Scopes
-----------------------------------------------------------------------------------------

/-- Scopes are entered in turn and stacked, by induction on what the hooks have yielded. -/
theorem enterScopes_writes (mode : Mode) (step : StepContext V) (place : Nat)
    (results : List (Returned HookScope)) (stack : List (Nat × Scope))
    : Py.Writes (enterScopes mode step place results stack)
        (moments step ((mode.openAll place results).1.map (fun scope => .entered scope.1)))
        (.ok ((mode.openAll place results).1.reverse ++ stack,
          (mode.openAll place results).2)) := by
  induction results generalizing place stack with
  | nil => exact .pure _
  | cons result rest ih =>
      have push : ∀ (scope : Scope) (program : ExecM V (List (Nat × Scope) × Option Raised)),
          mode.opens result = (scope.enter).map (fun _ => some scope) →
          (∀ error, scope.enter = .error error → program = pure (stack, some error)) →
          (scope.enter = .ok () → program = record step (.entered place) >>= fun _ =>
            enterScopes mode step (place + 1) rest ((place, scope) :: stack)) →
          Py.Writes program
            (moments step ((mode.openAll place (result :: rest)).1.map
              (fun scope => .entered scope.1)))
            (.ok ((mode.openAll place (result :: rest)).1.reverse ++ stack,
              (mode.openAll place (result :: rest)).2)) := by
        intro scope program opened refuses goes
        cases entered : scope.enter with
        | error error =>
            rw [entered] at opened
            have stops : mode.opens result = .error error := opened
            rw [Mode.openAll, stops, refuses error entered]
            exact .pure _
        | ok done =>
            rw [entered] at opened
            have opens : mode.opens result = .ok (some scope) := opened
            rw [Mode.openAll, opens, goes entered]
            simp only [List.map_cons, List.reverse_cons, List.append_assoc]
            exact (record_writes step (.entered place)).bind
              (ih (place + 1) ((place, scope) :: stack))
      unfold enterScopes
      dsimp only
      cases settles : mode.settle "async hook requires async backend" result with
      | error error =>
          have stops : mode.opens result = .error error := by rw [Mode.opens, settles]; rfl
          rw [Mode.openAll, stops]
          exact .pure _
      | ok yielded =>
          have told : mode.opens result = mode.entered yielded := by
            rw [Mode.opens, settles]
            rfl
          cases yielded with
          | nothing =>
              have opens : mode.opens result = .ok none := told
              rw [Mode.openAll, opens]
              exact ih (place + 1) stack
          | scope scope =>
              refine push scope _ told (fun error entered => ?_) (fun entered => ?_)
              · simp only [entered]
              · simp only [entered]
          | asyncScope scope =>
              cases mode with
              | sync =>
                  have stops : Mode.sync.opens result = .error (.asyncExecutionRequired
                      "async hook scope requires async backend") := told
                  rw [Mode.openAll, stops]
                  exact .pure _
              | async =>
                  refine push scope _ told (fun error entered => ?_) (fun entered => ?_)
                  · simp only [entered]
                  · simp only [entered]

/-- Scopes are left in the order of the stack. -/
theorem exitScopes_writes (step : StepContext V) (stack : List (Nat × Scope))
    (pending : Option Raised)
    : Py.Writes (exitScopes step stack pending)
        (moments step (stack.map (fun scope => .exited scope.1)))
        (.ok (leaveScopes (stack.map Prod.snd) pending)) := by
  induction stack generalizing pending with
  | nil => exact .pure _
  | cons item rest ih =>
      obtain ⟨place, scope⟩ := item
      have first := record_writes step (.exited place)
      rw [List.map_cons, List.map_cons, leaveScopes]
      cases left : scope.exit pending with
      | error error => 
          refine first.bind ?_
          rw [left]
          exact ih _
      | ok suppress =>
          refine first.bind ?_
          rw [left]
          exact ih _

-----------------------------------------------------------------------------------------
-- How far a step gets
-----------------------------------------------------------------------------------------

section Steps

/-- What migrating comes to. -/
def Calls.migrated (calls : Calls V F H) (mode : Mode) (func : F) (data : Json)
    : Except Raised Json :=
  (calls.migrate func data).bind (mode.settle "coroutine migration requires async backend")

/-- The scopes of a step that are entered, and the error that keeps it from migrating. -/
def Calls.opened (calls : Calls V F H) (mode : Mode) (step : BoundStep V F H) (data : Json)
    : List (Nat × Scope) × Option Raised :=
  match step.hooks.mapM (fun hook => calls.before hook step.context data) with
  | .error error => ([], some error)
  | .ok results => mode.openAll 0 results

variable [VersionValue V]

/-- What is pending after a failed migration. -/
def Calls.failure (calls : Calls V F H) (mode : Mode) (ends : EntryEnds V)
    (step : BoundStep V F H) (data : Json) (error : Raised) : Raised :=
  if error.isException then
    (mode.phaseError (fun hook => calls.onError hook step.context data error) step.hooks).getD
      (migrationError ends.source.id.kind ends.source.id.str ends.target.id.str error)
  else error

variable (calls : Calls V F H) (mode : Mode) (ends : EntryEnds V) (step : BoundStep V F H)
  (data : Json)

/-- How far a step gets before it leaves its scopes: the scopes it has entered, what it has
migrated, and the error that is pending.
-/
inductive Calls.Reaches : List (Nat × Scope) → Option Json → Option Raised → Prop where
  | refused {scopes : List (Nat × Scope)} {error : Raised}
      (opened : calls.opened mode step data = (scopes, some error))
      : Reaches scopes none (some error)
  | failed {scopes : List (Nat × Scope)} {error : Raised}
      (opened : calls.opened mode step data = (scopes, none))
      (failed : calls.migrated mode step.func data = .error error)
      : Reaches scopes none (some (calls.failure mode ends step data error))
  | migrated {scopes : List (Nat × Scope)} {value : Json}
      (opened : calls.opened mode step data = (scopes, none))
      (migrated : calls.migrated mode step.func data = .ok value)
      : Reaches scopes (some value)
          (mode.phaseError (fun hook => calls.after hook step.context data value) step.hooks)

/-- What happens inside the scopes, and what is migrated there. -/
inductive Calls.Inside : Option Json → List StepMoment → Prop where
  | nothing : Inside none []
  | failed {error : Raised} (failed : calls.migrated mode step.func data = .error error)
      (hooks : List Nat)
      : Inside none (.migrate :: hooks.map .onError)
  | migrated {value : Json} (migrated : calls.migrated mode step.func data = .ok value)
      (hooks : List Nat)
      : Inside (some value) (.migrate :: hooks.map .after)

variable {calls mode ends step data}

omit [VersionValue V] in
theorem Mode.openAll_places (place : Nat) (results : List (Returned HookScope))
    : ((mode.openAll place results).1.map Prod.fst).Pairwise (· < ·)
      ∧ ∀ scope ∈ (mode.openAll place results).1, place ≤ scope.1 := by
  induction results generalizing place with
  | nil => exact ⟨.nil, fun _ member => absurd member List.not_mem_nil⟩
  | cons result rest ih =>
      obtain ⟨increasing, above⟩ := ih (place + 1)
      rw [Mode.openAll]
      cases mode.opens result with
      | error error => exact ⟨.nil, fun _ member => absurd member List.not_mem_nil⟩
      | ok opened =>
          cases opened with
          | none => exact ⟨increasing, fun scope member => Nat.le_of_succ_le (above scope member)⟩
          | some scope =>
              refine ⟨.cons ?_ increasing, ?_⟩
              · intro other member
                obtain ⟨later, listed, rfl⟩ := List.mem_map.mp member
                exact above later listed
              · intro other member
                rcases List.mem_cons.mp member with rfl | later
                · exact Nat.le_refl _
                · exact Nat.le_of_succ_le (above other later)

omit [VersionValue V] in
theorem Calls.opened_places : ((calls.opened mode step data).1.map Prod.fst).Pairwise (· < ·) := by
  unfold Calls.opened
  cases step.hooks.mapM (fun hook => calls.before hook step.context data) with
  | error error => exact .nil
  | ok results => exact (Mode.openAll_places 0 results).1

omit [VersionValue V] in
/-- The hooks are all called before the first scope is entered. -/
theorem beforeHooks_writes
    : ∃ places : List Nat, Py.Writes (beforeHooks mode step.context
          (fun hook => calls.before hook step.context data) step.hooks)
        (moments step.context (places.map .before
          ++ (calls.opened mode step data).1.map (fun scope => .entered scope.1)))
        (.ok ((calls.opened mode step data).1.reverse, (calls.opened mode step data).2)) := by
  obtain ⟨places, called⟩ := invokeHook_writes step.context .before
    (fun hook => calls.before hook step.context data) 0 step.hooks
  refine ⟨places, ?_⟩
  unfold Calls.opened
  cases listed : step.hooks.mapM (fun hook => calls.before hook step.context data) with
  | error error =>
      rw [listed] at called
      rw [← moments_append]
      exact .tryCatch_error called.bind_error (.pure _)
  | ok results =>
      rw [listed] at called
      have entered := enterScopes_writes mode step.context 0 results []
      rw [List.append_nil] at entered
      rw [← moments_append]
      exact (called.bind entered).tryCatch

theorem insideScopes_writes
    : ∃ migrated pending inside,
        calls.Reaches mode ends step data (calls.opened mode step data).1 migrated pending
        ∧ calls.Inside mode step data migrated inside
        ∧ Py.Writes (insideScopes mode calls ends step data (calls.opened mode step data).2)
            (moments step.context inside) (.ok (migrated, pending)) := by
  rcases opened : calls.opened mode step data with ⟨scopes, refused⟩
  cases refused with
  | some error => exact ⟨none, some error, [], .refused opened, .nothing, .pure _⟩
  | none =>
      have starts := record_writes step.context .migrate
      cases outcome : calls.migrated mode step.func data with
      | error error =>
          refine ⟨none, some (calls.failure mode ends step data error), ?_⟩
          cases caught : error.isException with
          | true =>
              obtain ⟨places, called⟩ := callHooks_writes mode step.context .onError
                (fun hook => calls.onError hook step.context data error) step.hooks
              refine ⟨.migrate :: places.map .onError, .failed opened outcome,
                .failed outcome places, ?_⟩
              refine starts.bind ?_
              have ran := outcome
              unfold Calls.migrated at ran
              rw [ran]
              simp only [caught, if_true, Calls.failure]
              exact called.map (fun failure => (none, some (failure.getD _)))
          | false =>
              refine ⟨[.migrate], .failed opened outcome, .failed outcome [], ?_⟩
              refine starts.bind ?_
              have ran := outcome
              unfold Calls.migrated at ran
              rw [ran]
              simp only [caught, Calls.failure]
              exact .pure _
      | ok value =>
          obtain ⟨places, called⟩ := callHooks_writes mode step.context .after
            (fun hook => calls.after hook step.context data value) step.hooks
          refine ⟨some value, _, .migrate :: places.map .after, .migrated opened outcome,
            .migrated outcome places, ?_⟩
          refine starts.bind ?_
          have ran := outcome
          unfold Calls.migrated at ran
          rw [ran]
          exact called.map (fun failure => (some value, failure))

theorem scopedStep_writes
    : ∃ migrated pending, ∃ opening : List Nat, ∃ inside,
        calls.Reaches mode ends step data (calls.opened mode step data).1 migrated pending
        ∧ calls.Inside mode step data migrated inside
        ∧ Py.Writes (scopedStep mode calls ends step data)
            (moments step.context (opening.map .before
              ++ (calls.opened mode step data).1.map (fun scope => .entered scope.1)
              ++ (inside ++ (calls.opened mode step data).1.reverse.map
                (fun scope => .exited scope.1))))
            (.ok (migrated, leaveScopes
              ((calls.opened mode step data).1.reverse.map Prod.snd) pending)) := by
  obtain ⟨opening, entered⟩ := @beforeHooks_writes _ _ _ calls mode step data
  obtain ⟨migrated, pending, inside, reaches, happens, ran⟩ :=
    @insideScopes_writes _ _ _ _ calls mode ends step data
  refine ⟨migrated, pending, opening, inside, reaches, happens, ?_⟩
  have left := (exitScopes_writes step.context (calls.opened mode step data).1.reverse pending).map
    (fun left => (migrated, left))
  rw [← moments_append step.context (_ ++ _), ← moments_append step.context inside]
  unfold scopedStep
  refine .bind entered ?_
  refine .bind ran ?_
  exact left

omit [VersionValue V] in
theorem closeStep_writes (telemetry : Telemetry) (context : StepContext V)
    (migrated : Option Json) (left : Option Raised)
    : ∃ closing : List StepMoment, (∀ moment ∈ closing, moment = .completed ∨ ∃ error,
          moment = .failed error)
        ∧ Py.Writes (closeStep telemetry context (migrated, left)) (moments context closing)
            (stepResult migrated left) := by
  cases left with
  | some error =>
      refine ⟨if telemetry.emitsFailure then [.failed error] else [], ?_, ?_⟩
      · intro moment member
        split at member
        · exact .inr ⟨error, List.mem_singleton.mp member⟩
        · exact absurd member List.not_mem_nil
      · exact (emit_writes _ context (.failed error)).bind_quiet (.throw error)
  | none =>
      refine ⟨if telemetry.emitsSuccess then [.completed] else [], ?_, ?_⟩
      · intro moment member
        split at member
        · exact .inl (List.mem_singleton.mp member)
        · exact absurd member List.not_mem_nil
      · cases migrated with
        | none => exact (emit_writes _ context .completed).bind_quiet (.throw _)
        | some value => exact (emit_writes _ context .completed).bind_quiet (.pure value)

end Steps

-----------------------------------------------------------------------------------------
-- Where an error comes from
-----------------------------------------------------------------------------------------

section Errors

variable [VersionValue V] (calls : Calls V F H) (mode : Mode) (ends : EntryEnds V)
  (step : BoundStep V F H) (data : Json)

/-- The errors that the callables of a step raise, and those raised for an awaitable that the
synchronous lifecycle does not await.
-/
inductive Calls.Raises : Raised → Prop where
  | before {hook : H} {error : Raised} (member : hook ∈ step.hooks)
      (raised : calls.before hook step.context data = .error error)
      : Raises error
  | scope {hook : H} {result : Returned HookScope} {error : Raised} (member : hook ∈ step.hooks)
      (yielded : calls.before hook step.context data = .ok result)
      (refused : mode.opens result = .error error)
      : Raises error
  | exit {hook : H} {result : Returned HookScope} {scope : Scope} {pending : Option Raised}
      {error : Raised} (member : hook ∈ step.hooks)
      (yielded : calls.before hook step.context data = .ok result)
      (opened : mode.opens result = .ok (some scope)) (raised : scope.exit pending = .error error)
      : Raises error
  | migration {error : Raised} (failed : calls.migrated mode step.func data = .error error)
      : Raises (stepError ends error)
  | after {hook : H} {value : Json} {error : Raised} (member : hook ∈ step.hooks)
      (migrated : calls.migrated mode step.func data = .ok value)
      (raised : (calls.after hook step.context data value).bind
        (mode.settle "async hook requires async backend") = .error error)
      : Raises error
  | onError {hook : H} {cause error : Raised} (member : hook ∈ step.hooks)
      (failed : calls.migrated mode step.func data = .error cause)
      (raised : (calls.onError hook step.context data cause).bind
        (mode.settle "async hook requires async backend") = .error error)
      : Raises error

variable {calls mode ends step data}

omit [VersionValue V] in
/-- A phase raises what one of its hooks does. -/
theorem Mode.exists_of_phaseError {call : H → Except Raised (Returned Unit)} {hooks : List H}
    {error : Raised} (raised : mode.phaseError call hooks = some error)
    : ∃ hook ∈ hooks, (call hook).bind (mode.settle "async hook requires async backend")
        = .error error := by
  unfold Mode.phaseError at raised
  cases listed : hooks.mapM call with
  | error first =>
      rw [listed] at raised
      obtain rfl := Option.some.inj raised
      obtain ⟨hook, member, called⟩ := Py.exists_of_mapM_error listed
      refine ⟨hook, member, ?_⟩
      rw [called]
      rfl
  | ok results =>
      rw [listed] at raised
      have called := Py.mapM_eq_ok_iff.mp listed
      have settles : ∃ result ∈ results,
          mode.settle "async hook requires async backend" result = .error error := by
        clear listed called
        induction results with
        | nil => cases raised
        | cons result rest ih =>
            cases told : mode.settle "async hook requires async backend" result with
            | error first =>
                have ended : errorOf ((result :: rest).forM
                    (mode.settle "async hook requires async backend")) = some first := by
                  change errorOf ((mode.settle _ result).bind _) = _
                  rw [told]
                  rfl
                obtain rfl := Option.some.inj (ended.symm.trans raised)
                exact ⟨result, List.mem_cons_self, told⟩
            | ok done =>
                have goesOn : errorOf ((result :: rest).forM
                    (mode.settle "async hook requires async backend"))
                    = errorOf (rest.forM (mode.settle "async hook requires async backend")) := by
                  change errorOf ((mode.settle _ result).bind _) = _
                  rw [told]
                  rfl
                obtain ⟨other, member, settled⟩ := ih (goesOn.symm.trans raised)
                exact ⟨other, List.mem_cons_of_mem _ member, settled⟩
      obtain ⟨result, member, settled⟩ := settles
      obtain ⟨hook, inHooks, own⟩ := Py.exists_of_forall₂_right called member
      refine ⟨hook, inHooks, ?_⟩
      rw [own]
      exact settled

omit [VersionValue V] in
/-- The scopes that are entered were opened by results, and so was not the one that was refused. -/
theorem Mode.mem_openAll {place : Nat} {results : List (Returned HookScope)}
    : (∀ scope ∈ (mode.openAll place results).1, ∃ result ∈ results,
        mode.opens result = .ok (some scope.2))
      ∧ ∀ error, (mode.openAll place results).2 = some error →
        ∃ result ∈ results, mode.opens result = .error error := by
  induction results generalizing place with
  | nil => exact ⟨fun _ member => absurd member List.not_mem_nil, fun _ refused => by cases refused⟩
  | cons result rest ih =>
      obtain ⟨entered, refused⟩ := @ih (place + 1)
      have later : (∀ scope ∈ (mode.openAll (place + 1) rest).1, ∃ other ∈ result :: rest,
            mode.opens other = .ok (some scope.2))
          ∧ ∀ error, (mode.openAll (place + 1) rest).2 = some error →
            ∃ other ∈ result :: rest, mode.opens other = .error error := by
        constructor
        · intro scope member
          obtain ⟨other, listed, opened⟩ := entered scope member
          exact ⟨other, List.mem_cons_of_mem _ listed, opened⟩
        · intro error stopped
          obtain ⟨other, listed, opened⟩ := refused error stopped
          exact ⟨other, List.mem_cons_of_mem _ listed, opened⟩
      rw [Mode.openAll]
      cases opens : mode.opens result with
      | error error =>
          refine ⟨fun _ member => absurd member List.not_mem_nil, fun other same => ?_⟩
          obtain rfl := Option.some.inj same
          exact ⟨result, List.mem_cons_self, opens⟩
      | ok opened =>
          cases opened with
          | none => exact later
          | some scope =>
              refine ⟨fun other member => ?_, later.2⟩
              rcases List.mem_cons.mp member with rfl | listed
              · exact ⟨result, List.mem_cons_self, opens⟩
              · exact later.1 other listed

omit [VersionValue V] in
/-- What is pending after leaving scopes was pending before, or one of them has raised it. -/
theorem exists_of_leaveScopes {scopes : List Scope} {pending : Option Raised} {error : Raised}
    (left : leaveScopes scopes pending = some error)
    : pending = some error ∨ ∃ scope ∈ scopes, ∃ earlier, scope.exit earlier = .error error := by
  induction scopes generalizing pending with
  | nil => exact .inl left
  | cons scope rest ih =>
      have later : ∀ {next}, leaveScopes rest next = some error → next = some error
          ∨ ∃ other ∈ scope :: rest, ∃ earlier, other.exit earlier = .error error := by
        intro next same
        rcases ih same with before | ⟨other, member, raised⟩
        · exact .inl before
        · exact .inr ⟨other, List.mem_cons_of_mem _ member, raised⟩
      rw [leaveScopes] at left
      cases ended : scope.exit pending with
      | error raised =>
          rw [ended] at left
          rcases later left with same | found
          · obtain rfl := Option.some.inj same
            exact .inr ⟨scope, List.mem_cons_self, pending, ended⟩
          · exact .inr found
      | ok suppress =>
          rw [ended] at left
          rcases later left with same | found
          · cases suppress with
            | true => cases same
            | false => exact .inl same
          · exact .inr found

theorem Calls.raises_of_refused {error : Raised}
    (refused : (calls.opened mode step data).2 = some error)
    : calls.Raises mode ends step data error := by
  unfold Calls.opened at refused
  cases listed : step.hooks.mapM (fun hook => calls.before hook step.context data) with
  | error first =>
      rw [listed] at refused
      obtain rfl := Option.some.inj refused
      obtain ⟨hook, member, raised⟩ := Py.exists_of_mapM_error listed
      exact .before member raised
  | ok results =>
      rw [listed] at refused
      obtain ⟨result, member, opens⟩ := Mode.mem_openAll.2 error refused
      obtain ⟨hook, inHooks, yielded⟩ :=
        Py.exists_of_forall₂_right (Py.mapM_eq_ok_iff.mp listed) member
      exact .scope inHooks yielded opens

theorem Calls.raises_of_scope {scope : Nat × Scope}
    (member : scope ∈ (calls.opened mode step data).1) {pending : Option Raised} {error : Raised}
    (raised : scope.2.exit pending = .error error)
    : calls.Raises mode ends step data error := by
  unfold Calls.opened at member
  cases listed : step.hooks.mapM (fun hook => calls.before hook step.context data) with
  | error first =>
      rw [listed] at member
      exact absurd member List.not_mem_nil
  | ok results =>
      rw [listed] at member
      obtain ⟨result, inResults, opens⟩ := Mode.mem_openAll.1 scope member
      obtain ⟨hook, inHooks, yielded⟩ :=
        Py.exists_of_forall₂_right (Py.mapM_eq_ok_iff.mp listed) inResults
      exact .exit inHooks yielded opens raised

theorem Calls.raises_of_failure {cause : Raised}
    (failed : calls.migrated mode step.func data = .error cause)
    : calls.Raises mode ends step data (calls.failure mode ends step data cause) := by
  have own : calls.Raises mode ends step data (stepError ends cause) := .migration failed
  unfold Calls.failure
  unfold stepError at own
  cases caught : cause.isException with
  | false =>
      rw [caught] at own
      exact own
  | true =>
      rw [caught] at own
      rw [if_pos rfl]
      cases phase : mode.phaseError (fun hook => calls.onError hook step.context data cause)
          step.hooks with
      | none => exact own
      | some error =>
          obtain ⟨hook, member, raised⟩ := Mode.exists_of_phaseError phase
          exact .onError member failed raised

/-- Whatever is pending before the scopes are left comes from a callable of the step. -/
theorem Calls.Reaches.raises {scopes : List (Nat × Scope)} {migrated : Option Json}
    {error : Raised} (reaches : calls.Reaches mode ends step data scopes migrated (some error))
    : calls.Raises mode ends step data error := by
  generalize pends : some error = pending at reaches
  cases reaches with
  | refused opened =>
      obtain rfl := Option.some.inj pends
      exact Calls.raises_of_refused (congrArg Prod.snd opened)
  | failed opened failed =>
      obtain rfl := Option.some.inj pends
      exact Calls.raises_of_failure failed
  | migrated opened migrated =>
      obtain ⟨hook, member, raised⟩ := Mode.exists_of_phaseError pends.symm
      exact .after member migrated raised

/-- How far a step gets is determined. -/
theorem Calls.Reaches.unique {scopes others : List (Nat × Scope)} {migrated other : Option Json}
    {pending later : Option Raised}
    (left : calls.Reaches mode ends step data scopes migrated pending)
    (right : calls.Reaches mode ends step data others other later)
    : scopes = others ∧ migrated = other ∧ pending = later := by
  cases left with
  | refused opened =>
      cases right with
      | refused again =>
          obtain ⟨rfl, same⟩ := Prod.mk.inj (opened.symm.trans again)
          exact ⟨rfl, rfl, same⟩
      | failed again _ => cases (Prod.mk.inj (opened.symm.trans again)).2
      | migrated again _ => cases (Prod.mk.inj (opened.symm.trans again)).2
  | failed opened failed =>
      cases right with
      | refused again => cases (Prod.mk.inj (opened.symm.trans again)).2
      | failed again other =>
          obtain ⟨rfl, _⟩ := Prod.mk.inj (opened.symm.trans again)
          obtain rfl := Except.error.inj (failed.symm.trans other)
          exact ⟨rfl, rfl, rfl⟩
      | migrated _ other => cases failed.symm.trans other
  | migrated opened migrated =>
      cases right with
      | refused again => cases (Prod.mk.inj (opened.symm.trans again)).2
      | failed _ other => cases migrated.symm.trans other
      | migrated again other =>
          obtain ⟨rfl, _⟩ := Prod.mk.inj (opened.symm.trans again)
          obtain rfl := Except.ok.inj (migrated.symm.trans other)
          exact ⟨rfl, rfl, rfl⟩

theorem Calls.Reaches.scopes {scopes : List (Nat × Scope)} {migrated : Option Json}
    {pending : Option Raised} (reaches : calls.Reaches mode ends step data scopes migrated pending)
    : (calls.opened mode step data).1 = scopes := by
  cases reaches with
  | refused opened => rw [opened]
  | failed opened _ => rw [opened]
  | migrated opened _ => rw [opened]

end Errors

-----------------------------------------------------------------------------------------
-- Orderly steps
-----------------------------------------------------------------------------------------

def StepMoment.entered? : StepMoment → Option Nat
  | .entered hook => some hook
  | _ => none

def StepMoment.exited? : StepMoment → Option Nat
  | .exited hook => some hook
  | _ => none

section Orderly

variable [VersionValue V] (calls : Calls V F H) (mode : Mode) (ends : EntryEnds V)
  (step : BoundStep V F H) (data : Json)

/-- The error is pending when a step has left its scopes. -/
def Calls.Pending (error : Raised) : Prop :=
  ∃ scopes migrated pending, calls.Reaches mode ends step data scopes migrated pending
    ∧ leaveScopes (scopes.reverse.map Prod.snd) pending = some error

/-- What the moments and the outcome of a step should be. -/
structure Calls.Orderly (listed : List StepMoment) (outcome : Except Raised Json) : Prop where
  /-- Every scope is entered at most once, -/
  distinct : (listed.filterMap StepMoment.entered?).Nodup
  /-- and those entered are the ones left, in reverse order -/
  reversed : listed.filterMap StepMoment.exited?
    = (listed.filterMap StepMoment.entered?).reverse
  /-- and after all of them were entered. -/
  nested : ∀ hook other, .entered hook ∈ listed → .exited other ∈ listed →
    [.entered hook, .exited other].Sublist listed
  after : ∀ hook, .after hook ∈ listed → [.migrate, .after hook].Sublist listed
    ∧ ∃ value, calls.migrated mode step.func data = .ok value
  onError : ∀ hook, .onError hook ∈ listed → [.migrate, .onError hook].Sublist listed
    ∧ ∃ error, calls.migrated mode step.func data = .error error
  exclusive : ∀ hook other, .after hook ∈ listed → .onError other ∉ listed
  returned : ∀ value, outcome = .ok value →
    .migrate ∈ listed ∧ calls.migrated mode step.func data = .ok value
  raised : ∀ error, outcome = .error error →
    calls.Pending mode ends step data error ∧ calls.Raises mode ends step data error

/-- The error of a step that has migrated nothing is not suppressed by its scopes. -/
def Calls.Unsuppressed : Prop :=
  ∀ scopes error, calls.Reaches mode ends step data scopes none (some error) →
    leaveScopes (scopes.reverse.map Prod.snd) (some error) ≠ none

variable {calls mode ends step data}

/-- The moments of a step that enters the scopes of these hooks. -/
def momentsOf (places : List Nat) (starting inside closing : List StepMoment) : List StepMoment :=
  starting ++ places.map .entered ++ inside ++ places.reverse.map .exited ++ closing

/-- A step enters its scopes, migrates inside them and leaves them again. -/
theorem runStep_writes (telemetry : Telemetry)
    : ∃ migrated pending starting inside closing,
        calls.Reaches mode ends step data (calls.opened mode step data).1 migrated pending
        ∧ calls.Inside mode step data migrated inside
        ∧ (∀ moment ∈ starting, moment = .started ∨ ∃ hook, moment = .before hook)
        ∧ (∀ moment ∈ closing, moment = .completed ∨ ∃ error, moment = .failed error)
        ∧ Py.Writes
            (runStep mode telemetry calls ends step.func step.hooks step.context data)
            (moments step.context (momentsOf ((calls.opened mode step data).1.map Prod.fst) starting
              inside closing))
            (stepResult migrated (leaveScopes
              ((calls.opened mode step data).1.reverse.map Prod.snd) pending)) := by
  obtain ⟨migrated, pending, opening, inside, reaches, happens, body⟩ :=
    @scopedStep_writes _ _ _ _ calls mode ends step data
  obtain ⟨closing, ends_, closed⟩ := closeStep_writes telemetry step.context migrated
    (leaveScopes ((calls.opened mode step data).1.reverse.map Prod.snd) pending)
  refine ⟨migrated, pending,
    (if telemetry.emitsSuccess then [.started] else []) ++ opening.map .before, inside, closing,
    reaches, happens, ?_, ends_, ?_⟩
  · intro moment member
    rcases List.mem_append.mp member with first | listed
    · split at first
      · exact .inl (List.mem_singleton.mp first)
      · exact absurd first List.not_mem_nil
    · obtain ⟨hook, _, rfl⟩ := List.mem_map.mp listed
      exact .inr ⟨hook, rfl⟩
  · rw [runStep_eq]
    have whole : Py.Writes (emit telemetry.emitsSuccess step.context .started >>= fun _ =>
        scopedStep mode calls ends step data >>= closeStep telemetry step.context) (_ ++ _) _ :=
      (emit_writes telemetry.emitsSuccess step.context .started).bind (body.bind closed)
    simp only [momentsOf, moments_append, List.append_assoc, List.map_map, List.map_reverse]
      at whole ⊢
    exact whole

/-- What a step is made of, whatever its outcome. -/
structure Calls.Parts (calls : Calls V F H) (mode : Mode) (step : BoundStep V F H) (data : Json)
    (migrated : Option Json) (starting inside closing : List StepMoment) : Prop where
  starts : ∀ moment ∈ starting, moment = .started ∨ ∃ hook, moment = .before hook
  happens : calls.Inside mode step data migrated inside
  closes : ∀ moment ∈ closing, moment = .completed ∨ ∃ error, moment = .failed error

namespace Calls.Parts

variable {migrated : Option Json} {starting inside closing : List StepMoment} {places : List Nat}

omit [VersionValue V] in
theorem inside_cases (parts : calls.Parts mode step data migrated starting inside closing)
    : ∀ moment ∈ inside, moment = .migrate ∨ (∃ hook, moment = .after hook)
        ∨ ∃ hook, moment = .onError hook := by
  intro moment member
  cases parts.happens with
  | nothing => exact absurd member List.not_mem_nil
  | failed _ hooks =>
      rcases List.mem_cons.mp member with rfl | later
      · exact .inl rfl
      · obtain ⟨hook, _, rfl⟩ := List.mem_map.mp later
        exact .inr (.inr ⟨hook, rfl⟩)
  | migrated _ hooks =>
      rcases List.mem_cons.mp member with rfl | later
      · exact .inl rfl
      · obtain ⟨hook, _, rfl⟩ := List.mem_map.mp later
        exact .inr (.inl ⟨hook, rfl⟩)

omit [VersionValue V] in
/-- Only the two middle parts are about scopes. -/
theorem filterMap_eq (parts : calls.Parts mode step data migrated starting inside closing)
    {view : StepMoment → Option Nat}
    (silent : ∀ moment, (∀ hook, moment ≠ .entered hook) → (∀ hook, moment ≠ .exited hook) →
      view moment = none)
    : (momentsOf places starting inside closing).filterMap view
      = (places.map .entered).filterMap view ++ (places.reverse.map .exited).filterMap view := by
  have first : starting.filterMap view = [] := by
    refine List.filterMap_eq_nil_iff.mpr (fun moment member => ?_)
    rcases parts.starts moment member with rfl | ⟨hook, rfl⟩
    · exact silent _ (by simp) (by simp)
    · exact silent _ (by simp) (by simp)
  have middle : inside.filterMap view = [] := by
    refine List.filterMap_eq_nil_iff.mpr (fun moment member => ?_)
    rcases parts.inside_cases moment member with rfl | ⟨hook, rfl⟩ | ⟨hook, rfl⟩
    · exact silent _ (by simp) (by simp)
    · exact silent _ (by simp) (by simp)
    · exact silent _ (by simp) (by simp)
  have last : closing.filterMap view = [] := by
    refine List.filterMap_eq_nil_iff.mpr (fun moment member => ?_)
    rcases parts.closes moment member with rfl | ⟨error, rfl⟩
    · exact silent _ (by simp) (by simp)
    · exact silent _ (by simp) (by simp)
  simp only [momentsOf, List.filterMap_append, first, middle, last, List.nil_append,
    List.append_nil]

omit [VersionValue V] in
theorem entered (parts : calls.Parts mode step data migrated starting inside closing)
    : (momentsOf places starting inside closing).filterMap StepMoment.entered? = places := by
  rw [parts.filterMap_eq]
  · simp [List.filterMap_map, Function.comp_def, StepMoment.entered?]
  · intro moment notEntered _
    cases moment with
    | entered hook => exact (notEntered hook rfl).elim
    | started => rfl
    | completed => rfl
    | failed error => rfl
    | before hook => rfl
    | migrate => rfl
    | onError hook => rfl
    | after hook => rfl
    | exited hook => rfl

omit [VersionValue V] in
theorem exited (parts : calls.Parts mode step data migrated starting inside closing)
    : (momentsOf places starting inside closing).filterMap StepMoment.exited? = places.reverse := by
  rw [parts.filterMap_eq]
  · simp [List.filterMap_map, Function.comp_def, StepMoment.exited?]
  · intro moment _ notExited
    cases moment with
    | exited hook => exact (notExited hook rfl).elim
    | started => rfl
    | completed => rfl
    | failed error => rfl
    | before hook => rfl
    | migrate => rfl
    | onError hook => rfl
    | after hook => rfl
    | entered hook => rfl

omit [VersionValue V] in
/-- Hooks are called inside the scopes, once the migration was. -/
theorem mem_inside (parts : calls.Parts mode step data migrated starting inside closing)
    {moment : StepMoment}
    (about : moment = .migrate ∨ (∃ hook, moment = .after hook) ∨ ∃ hook, moment = .onError hook)
    (member : moment ∈ momentsOf places starting inside closing)
    : moment ∈ inside := by
  simp only [momentsOf, List.mem_append, List.mem_map] at member
  rcases member with (((first | ⟨_, _, rfl⟩) | middle) | ⟨_, _, rfl⟩) | last
  · rcases parts.starts moment first with rfl | ⟨_, rfl⟩ <;> simp at about
  · simp at about
  · exact middle
  · simp at about
  · rcases parts.closes moment last with rfl | ⟨_, rfl⟩ <;> simp at about

omit [VersionValue V] in
theorem nested (parts : calls.Parts mode step data migrated starting inside closing)
    {hook other : Nat}
    (enters : .entered hook ∈ momentsOf places starting inside closing)
    (leaves : .exited other ∈ momentsOf places starting inside closing)
    : [.entered hook, .exited other].Sublist (momentsOf places starting inside closing) := by
  have entered : hook ∈ places := by
    have listed := List.mem_filterMap.mpr ⟨_, enters, (rfl : StepMoment.entered? _ = some hook)⟩
    rwa [parts.entered] at listed
  have exited : other ∈ places.reverse := by
    have listed := List.mem_filterMap.mpr ⟨_, leaves, (rfl : StepMoment.exited? _ = some other)⟩
    rwa [parts.exited] at listed
  have first : [StepMoment.entered hook].Sublist (starting ++ places.map .entered) :=
    List.singleton_sublist.mpr (List.mem_append_right _ (List.mem_map.mpr ⟨hook, entered, rfl⟩))
  have second : [StepMoment.exited other].Sublist (places.reverse.map .exited) :=
    List.singleton_sublist.mpr (List.mem_map.mpr ⟨other, exited, rfl⟩)
  have both := (first.trans (List.sublist_append_left _ inside)).append second
  exact both.trans (List.sublist_append_left _ closing)

omit [VersionValue V] in
theorem inside_sublist
    : inside.Sublist (momentsOf places starting inside closing) := by
  have first := List.sublist_append_right (starting ++ places.map .entered) inside
  have second := first.trans (List.sublist_append_left _ (places.reverse.map .exited))
  exact second.trans (List.sublist_append_left _ closing)

/-- Such a step is orderly if its outcome is. -/
theorem orderly (parts : calls.Parts mode step data migrated starting inside closing)
    (increasing : places.Pairwise (· < ·)) {outcome : Except Raised Json}
    (returned : ∀ value, outcome = .ok value → migrated = some value)
    (raised : ∀ error, outcome = .error error →
      calls.Pending mode ends step data error ∧ calls.Raises mode ends step data error)
    : calls.Orderly mode ends step data (momentsOf places starting inside closing)
        outcome where
  distinct := by
    rw [parts.entered]
    exact increasing.imp Nat.ne_of_lt
  reversed := by rw [parts.entered, parts.exited]
  nested := fun hook other enters leaves => parts.nested enters leaves
  after := by
    intro hook member
    have listed := parts.mem_inside (.inr (.inl ⟨hook, rfl⟩)) member
    cases parts.happens with
    | nothing => exact absurd listed List.not_mem_nil
    | failed _ hooks => simp at listed
    | migrated succeeded hooks =>
        have tail := (List.mem_cons.mp listed).resolve_left (by simp)
        exact ⟨((List.singleton_sublist.mpr tail).cons_cons _).trans inside_sublist, _, succeeded⟩
  onError := by
    intro hook member
    have listed := parts.mem_inside (.inr (.inr ⟨hook, rfl⟩)) member
    cases parts.happens with
    | nothing => exact absurd listed List.not_mem_nil
    | migrated _ hooks => simp at listed
    | failed raised hooks =>
        have tail := (List.mem_cons.mp listed).resolve_left (by simp)
        exact ⟨((List.singleton_sublist.mpr tail).cons_cons _).trans inside_sublist, _, raised⟩
  exclusive := by
    intro hook other called member
    have first := parts.mem_inside (.inr (.inl ⟨hook, rfl⟩)) called
    have second := parts.mem_inside (.inr (.inr ⟨other, rfl⟩)) member
    cases parts.happens with
    | nothing => exact absurd first List.not_mem_nil
    | failed _ hooks => simp at first
    | migrated _ hooks => simp at second
  returned := by
    intro value same
    have happened := parts.happens
    rw [returned value same] at happened
    cases happened with
    | migrated succeeded hooks => exact ⟨inside_sublist.subset List.mem_cons_self, succeeded⟩
  raised := raised

end Calls.Parts

/-- An orderly step has not lost the error of what it has not migrated. -/
theorem Calls.unsuppressed_of_orderly {telemetry : Telemetry} {trace : List (StepEvent V)}
    {listed : List StepMoment}
    (orderly : calls.Orderly mode ends step data listed (Py.outcome
      (runStep mode telemetry calls ends step.func step.hooks step.context data) trace))
    : calls.Unsuppressed mode ends step data := by
  intro scopes error reaches suppressed
  obtain ⟨migrated, pending, starting, inside, closing, own, _, _, _, writes⟩ :=
    @runStep_writes _ _ _ _ calls mode ends step data telemetry
  obtain ⟨rfl, rfl, rfl⟩ := reaches.unique own
  have outcome := writes.outcome trace
  rw [suppressed] at outcome
  obtain ⟨⟨others, other, later, again, left⟩, _⟩ := orderly.raised _ outcome
  obtain ⟨rfl, _, rfl⟩ := own.unique again
  rw [suppressed] at left
  cases left

/-- What is pending when a step has left its scopes comes from a callable of the step. -/
theorem Calls.Pending.raises {error : Raised} (pends : calls.Pending mode ends step data error)
    : calls.Raises mode ends step data error := by
  obtain ⟨scopes, migrated, pending, reaches, left⟩ := pends
  rcases exists_of_leaveScopes left with same | ⟨scope, member, earlier, raised⟩
  · obtain rfl := same
    exact reaches.raises
  · obtain ⟨entered, listed, rfl⟩ := List.mem_map.mp member
    rw [← reaches.scopes] at listed
    exact Calls.raises_of_scope (List.mem_reverse.mp listed) raised

/-- A step enters and leaves its scopes, calls its hooks and ends as it should, exactly if its
scopes do not suppress the error of a step that has migrated nothing.
-/
theorem runStep_orderly_iff (telemetry : Telemetry) (calls : Calls V F H) (mode : Mode)
    (ends : EntryEnds V) (step : BoundStep V F H) (data : Json) (trace : List (StepEvent V))
    : (∃ listed,
        Py.after (runStep mode telemetry calls ends step.func step.hooks step.context data) trace
          = trace ++ moments step.context listed
        ∧ calls.Orderly mode ends step data listed (Py.outcome
            (runStep mode telemetry calls ends step.func step.hooks step.context data) trace))
      ↔ calls.Unsuppressed mode ends step data := by
  constructor
  · intro ran
    obtain ⟨listed, _, orderly⟩ := ran
    exact Calls.unsuppressed_of_orderly orderly
  · intro unsuppressed
    obtain ⟨migrated, pending, starting, inside, closing, reaches, happens, starts, closes,
      writes⟩ := @runStep_writes _ _ _ _ calls mode ends step data telemetry
    refine ⟨_, writes.after trace, ?_⟩
    rw [writes.outcome trace]
    have parts : calls.Parts mode step data migrated starting inside closing :=
      ⟨starts, happens, closes⟩
    cases left : leaveScopes ((calls.opened mode step data).1.reverse.map Prod.snd) pending with
    | some error =>
        apply parts.orderly Calls.opened_places
        · intro value same
          cases same
        · intro raised same
          obtain rfl := Except.error.inj same
          have pends : calls.Pending mode ends step data error :=
            ⟨_, migrated, pending, reaches, left⟩
          exact ⟨pends, pends.raises⟩
    | none =>
        cases migrated with
        | some value =>
            apply parts.orderly Calls.opened_places
            · intro returned same
              rw [Except.ok.inj same]
            · intro raised same
              cases same
        | none =>
            -- Nothing was migrated, so that an error was pending.
            have pends : ∃ error, pending = some error := by
              cases reaches with
              | refused _ => exact ⟨_, rfl⟩
              | failed _ _ => exact ⟨_, rfl⟩
            obtain ⟨error, rfl⟩ := pends
            exact (unsuppressed _ error reaches left).elim

/-- A hook whose scope suppresses every exception, around a migration that raises. -/
def suppressingCalls : Calls Release Unit Unit where
  migrate := fun _ _ => .error (.keyError "'name'")
  before := fun _ _ _ => .ok (.plain (.scope ⟨.ok (), fun _ => .ok true⟩))
  after := fun _ _ _ _ => .ok (.plain ())
  onError := fun _ _ _ _ => .ok (.plain ())

def hookedStep : BoundStep Release Unit Unit where
  context := ⟨[], 0, .nodeId (userId 1), .nodeId (userId 2), userEdge, "User",
    ⟨"callable", "upgrade"⟩⟩
  func := ()
  hooks := [()]

/-- Counterexample: the error of the migration is suppressed, and the lifecycle raises its own. -/
theorem not_orderly_suppressingCalls
    : ¬ ∀ (telemetry : Telemetry) (calls : Calls Release Unit Unit) (mode : Mode)
        (ends : EntryEnds Release) (step : BoundStep Release Unit Unit) (data : Json)
        (trace : List (StepEvent Release)),
        ∃ listed,
          Py.after (runStep mode telemetry calls ends step.func step.hooks step.context data) trace
            = trace ++ moments step.context listed
          ∧ calls.Orderly mode ends step data listed (Py.outcome
              (runStep mode telemetry calls ends step.func step.hooks step.context data)
              trace) := by
  intro claim
  obtain ⟨listed, _, orderly⟩ := claim ⟨true, true⟩ suppressingCalls .sync
    ⟨userNode 1 "UserV1", userNode 2 "UserV2"⟩ hookedStep .null []
  have unsuppressed := Calls.unsuppressed_of_orderly orderly
  exact unsuppressed [(0, ⟨.ok (), fun _ => .ok true⟩)] _ (.failed rfl rfl) rfl

end Orderly

end Pyverge
