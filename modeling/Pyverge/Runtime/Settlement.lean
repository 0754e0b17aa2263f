import Pyverge.Runtime.LayerCalls

/-! When every layer call of a stack is finished.
A transaction stays open when the execution it wraps ends with an error that is no exception, and
when a retrying layer around it drops the first awaitable.
-/

namespace Pyverge.Middleware

open Py (Json after)

variable {S α : Type}

/-- Layers that must finish what they begin. -/
def Layer.isFinisher : Layer S → Bool
  | .transaction | .audit => true
  | .retry _ _ | .idempotency _ => false

def Layer.isIdempotency : Layer S → Bool
  | .idempotency _ => true
  | .retry _ _ | .transaction | .audit => false

/-- Whether a retrying layer is outside some layer of a kind. -/
def retryOver (kind : Layer S → Bool) : List (Layer S) → Bool
  | [] => false
  | .retry _ _ :: rest => rest.any kind
  | .idempotency _ :: rest | .transaction :: rest | .audit :: rest => retryOver kind rest

/-- How many attempts a stack makes at most. -/
def budget : List (Layer S) → Nat
  | [] => 1
  | .retry attempts _ :: rest => attempts * budget rest
  | .idempotency _ :: rest | .transaction :: rest | .audit :: rest => budget rest

theorem retryOver_of_any {kind : Layer S → Bool} {layers : List (Layer S)}
    (none : layers.any kind = false)
    : retryOver kind layers = false := by
  induction layers with
  | nil => rfl
  | cons layer rest ih =>
      rw [List.any_cons, Bool.or_eq_false_iff] at none
      cases layer with
      | retry attempts positive => exact none.2
      | idempotency key => exact ih none.2
      | transaction => exact ih none.2
      | audit => exact ih none.2

section Synchronous

/-- No call hands back an awaitable. -/
def Plain (execute : StackM S (Reply S)) : Prop :=
  ∀ state coroutine reached, execute state ≠ .ok (.awaitable coroutine) reached

theorem Plain.bracket {execute : StackM S (Reply S)} (plain : Plain execute)
    (opening : Nat → Event) (closing : Nat → Option Raised → Event)
    : Plain (bracket opening closing execute) := by
  intro state coroutine reached run
  rw [bracket_apply] at run
  cases inner : execute (state.opened opening) with
  | error error stopped => simp [inner] at run
  | ok reply stopped =>
      cases reply with
      | awaitable other => exact plain _ _ _ inner
      | value result => simp [inner] at run

theorem Plain.retrying {execute : StackM S (Reply S)} (plain : Plain execute) (retries : Nat)
    : Plain (retrying execute retries) := by
  induction retries with
  | zero => exact plain
  | succ retries ih =>
      intro state coroutine reached run
      rw [Middleware.retrying, exceptException_apply] at run
      cases inner : execute state with
      | ok reply stopped =>
          simp only [inner, EStateM.Result.ok.injEq] at run
          exact plain _ _ _ (run.1 ▸ inner)
      | error error stopped =>
          simp only [inner] at run
          split at run
          · exact ih _ _ _ run
          · cases run

/-- Without awaitables a retrying layer repeats the call it wraps. -/
theorem retryExecute_plain {inner : Executor S} (plain : Plain inner.execute) (attempts : Nat)
    : retryExecute attempts inner = retrying inner.execute (attempts - 1) := by
  rw [retryExecute]
  congr 1
  funext state
  rw [Py.bind_apply]
  cases called : inner.execute state with
  | error error stopped => rfl
  | ok reply stopped =>
      cases reply with
      | awaitable other => exact (plain _ _ _ called).elim
      | value result => rfl

theorem finish_retrying {execute : StackM S (Reply S)} (plain : Plain execute) (retries : Nat)
    : (retrying execute retries >>= finishReply) = retrying (execute >>= finishReply) retries := by
  induction retries with
  | zero => rfl
  | succ retries ih =>
      funext state
      rw [retrying, retrying, Py.bind_apply, exceptException_apply, exceptException_apply,
        Py.bind_apply, ← ih]
      cases called : execute state with
      | ok reply stopped =>
          cases reply with
          | awaitable other => exact (plain _ _ _ called).elim
          | value result => rfl
      | error error stopped =>
          cases caught : error.isException with
          | true => simp [caught, Py.bind_apply]
          | false => simp [caught]

variable [DecidableEq S] (info : RunInfo) (outcomes : Nat → Except Raised Json)

theorem Plain.idempotency {inner : Executor S} (plain : Plain inner.execute) (key : S)
    : Plain (idempotencyExecute key inner) := by
  intro state coroutine reached run
  rcases @answer_idempotency _ _ state.keys key [] _ rfl with
    ⟨result, found, _⟩ | ⟨missing, taken, _⟩ | ⟨free, _⟩
  · simp [idempotencyExecute_cached inner found] at run
  · simp [idempotencyExecute_refused inner missing taken] at run
  · rw [idempotencyExecute_free inner free] at run
    cases called : inner.execute (state.setKey key .claimed) with
    | error error stopped => simp [called] at run
    | ok reply stopped =>
        cases reply with
        | awaitable other => exact plain _ _ _ called
        | value result => simp [called] at run

omit [DecidableEq S] in
theorem syncBackend_execute (state : State S)
    : (syncBackend outcomes).execute state
      = match attempt outcomes state with
        | .ok result stopped => .ok (.value result) stopped
        | .error error stopped => .error error stopped := by
  refine (Py.bind_apply (attempt outcomes) (fun result => pure (Reply.value result)) state).trans ?_
  cases attempt outcomes state <;> rfl

theorem execute_plain (layers : List (Layer S))
    : Plain (wrapAll info (syncBackend outcomes) layers).execute := by
  induction layers with
  | nil =>
      intro state coroutine reached run
      have called := (syncBackend_execute outcomes state).symm.trans run
      cases ran : attempt outcomes state <;> simp [ran] at called
  | cons layer rest ih =>
      cases layer with
      | retry attempts positive =>
          have same : (wrapAll info (syncBackend outcomes) (.retry attempts positive :: rest)).execute
              = retrying (wrapAll info (syncBackend outcomes) rest).execute (attempts - 1) :=
            retryExecute_plain ih attempts
          rw [same]
          exact ih.retrying _
      | idempotency key => exact ih.idempotency key
      | transaction => exact ih.bracket _ _
      | audit => exact ih.bracket _ _

omit [DecidableEq S] in
theorem any_finisher {layer : Layer S} (finisher : layer.isFinisher = true)
    {rest : List (Layer S)}
    : ((layer :: rest).any Layer.isFinisher = true) = True := by
  simp [finisher]

/-- A synchronous stack spends its attempts, by induction over the layers. -/
theorem runStack_sync (layers : List (Layer S)) {state : State S} (numbered : state.Numbered)
    (reachable : answer state.keys layers = .backend)
    : Reaches outcomes (runStack (wrapAll info (syncBackend outcomes) layers)) state
        (budget layers) True (layers.any Layer.isFinisher = true) := by
  induction layers generalizing state with
  | nil =>
      have same : (runStack (wrapAll info (syncBackend outcomes) []) : StackM S Json)
          = attempt outcomes := by
        funext state
        have called := syncBackend_execute outcomes state
        rw [runStack, Py.bind_apply, wrapAll, List.foldr_nil, called]
        cases attempt outcomes state <;> rfl
      have first := @reaches_attempt S outcomes state numbered
      rw [same]
      simpa [budget] using first
  | cons layer rest ih =>
      cases layer with
      | retry attempts positive =>
          have plain := execute_plain info outcomes rest
          have same : runStack (wrapAll info (syncBackend outcomes) (.retry attempts positive :: rest))
              = retrying (runStack (wrapAll info (syncBackend outcomes) rest)) (attempts - 1) := by
            have whole := finish_retrying plain (attempts - 1)
            rw [← retryExecute_plain plain attempts] at whole
            exact whole
          have loop := Reaches.retrying numbered (fun next nextNumbered keys =>
            ih nextNumbered (keys ▸ reachable)) (attempts - 1)
          rw [Nat.sub_add_cancel positive] at loop
          rw [same]
          exact loop
      | idempotency key =>
          rcases answer_idempotency reachable with ⟨_, _, impossible⟩ | ⟨_, _, impossible⟩ | ⟨free, inner⟩
          · cases impossible
          · cases impossible
          · exact (@ih (state.setKey key .claimed) numbered inner).idempotency free
      | transaction =>
          have inner := ih (numbered.opened transaction_brackets) reachable
          rw [any_finisher rfl]
          exact inner.bracket transaction_brackets numbered
      | audit =>
          have brackets := audit_brackets info (wrapAll info (syncBackend outcomes) rest).name
          have inner := ih (numbered.opened brackets) reachable
          rw [any_finisher rfl]
          exact inner.bracket brackets numbered

end Synchronous

section Asynchronous

variable [DecidableEq S] (info : RunInfo) (outcomes : Nat → Except Raised Json)

/-- The keys after a call that nobody awaits. -/
def claimAll (keys : S → KeyState) : List (Layer S) → S → KeyState
  | [] => keys
  | .idempotency key :: rest => claimAll (Function.update keys key .claimed) rest
  | .retry _ _ :: rest | .transaction :: rest | .audit :: rest => claimAll keys rest

theorem claimAll_claimed {keys : S → KeyState} {key : S} (claimed : keys key = .claimed)
    (layers : List (Layer S))
    : claimAll keys layers key = .claimed := by
  induction layers generalizing keys with
  | nil => exact claimed
  | cons layer rest ih =>
      cases layer with
      | idempotency other =>
          refine ih ?_
          by_cases same : key = other
          · rw [same, Function.update_self]
          · rw [Function.update_of_ne same, claimed]
      | retry attempts positive => exact ih claimed
      | transaction => exact ih claimed
      | audit => exact ih claimed

theorem claimAll_of_none {keys : S → KeyState} {layers : List (Layer S)}
    (none : layers.any Layer.isIdempotency = false)
    : claimAll keys layers = keys := by
  induction layers generalizing keys with
  | nil => rfl
  | cons layer rest ih =>
      rw [List.any_cons, Bool.or_eq_false_iff] at none
      cases layer with
      | idempotency key => cases none.1
      | retry attempts positive => exact ih none.2
      | transaction => exact ih none.2
      | audit => exact ih none.2

/-- A stack meets the claims that its own first call left behind. -/
theorem answer_claimAll {keys : S → KeyState} {layers : List (Layer S)}
    (some : layers.any Layer.isIdempotency = true)
    : answer (claimAll keys layers) layers = .refused := by
  induction layers generalizing keys with
  | nil => cases some
  | cons layer rest ih =>
      cases layer with
      | idempotency key =>
          have claimed := claimAll_claimed (Function.update_self key KeyState.claimed keys) rest
          simp [answer, claimAll, claimed, KeyState.get]
      | retry attempts positive => exact ih (by simpa [Layer.isIdempotency] using some)
      | transaction => exact ih (by simpa [Layer.isIdempotency] using some)
      | audit => exact ih (by simpa [Layer.isIdempotency] using some)

/-- A call that comes back with an awaitable leaves its layers open. -/
def Suspends (execute : StackM S (Reply S)) (state : State S) (layers : List (Layer S)) : Prop :=
  ∃ coroutine reached, execute state = .ok (.awaitable coroutine) reached
    ∧ Grows state reached ∧ reached.attempts = state.attempts
    ∧ reached.keys = claimAll state.keys layers
    ∧ (SettledFrom state.calls reached.trace ↔ layers.any Layer.isFinisher = false)

theorem Suspends.bracket {opening : Nat → Event} {closing : Nat → Option Raised → Event}
    (brackets : Brackets opening closing) {execute : StackM S (Reply S)} {state : State S}
    (numbered : state.Numbered) {rest : List (Layer S)}
    (suspends : Suspends execute (state.opened opening) rest) {layer : Layer S}
    (finisher : layer.isFinisher = true)
    (keys : claimAll state.keys (layer :: rest) = claimAll state.keys rest)
    : Suspends (bracket opening closing execute) state (layer :: rest) := by
  obtain ⟨coroutine, reached, run, inner, attempts, claimed, _⟩ := suspends
  have unchanged : reached.noted [] = reached := by simp [State.noted]
  obtain ⟨grows, settled⟩ := Grows.bracket brackets numbered inner
    (fun event member => (List.not_mem_nil member).elim)
  rw [unchanged] at grows settled
  refine ⟨_, reached, by rw [bracket_apply, run], grows, attempts, claimed.trans keys.symm, ?_⟩
  simp [settled, brackets.unended, finisher]

omit [DecidableEq S] in
theorem retryExecute_awaitable {inner : Executor S} {state reached : State S}
    {coroutine : StackM S Json} (run : inner.execute state = .ok (.awaitable coroutine) reached)
    (attempts : Nat)
    : retryExecute attempts inner state
      = .ok (.awaitable (retrying (inner.execute >>= awaitReply) (attempts - 1))) reached := by
  refine retrying_of_ok ?_ _
  rw [Py.bind_apply, run]
  rfl

theorem idempotencyExecute_awaitable {inner : Executor S} {key : S} {state reached : State S}
    (free : state.keys key = .free) {coroutine : StackM S Json}
    (run : inner.execute (state.setKey key .claimed) = .ok (.awaitable coroutine) reached)
    : idempotencyExecute key inner state
      = .ok (.awaitable (completeCoroutine key coroutine)) reached := by
  rw [idempotencyExecute_free inner free, run]

theorem execute_suspends (layers : List (Layer S)) {state : State S} (numbered : state.Numbered)
    (reachable : answer state.keys layers = .backend)
    : Suspends (wrapAll info (asyncBackend outcomes) layers).execute state layers := by
  induction layers generalizing state with
  | nil =>
      refine ⟨attempt outcomes, state, rfl, .of_eq rfl rfl, rfl, rfl, ?_⟩
      simpa using settledFrom_calls numbered
  | cons layer rest ih =>
      cases layer with
      | retry attempts positive =>
          obtain ⟨coroutine, reached, run, facts⟩ := ih numbered reachable
          exact ⟨_, reached, retryExecute_awaitable run attempts, facts⟩
      | idempotency key =>
          rcases answer_idempotency reachable with ⟨_, _, impossible⟩ | ⟨_, _, impossible⟩ | ⟨free, inner⟩
          · cases impossible
          · cases impossible
          · obtain ⟨coroutine, reached, run, grows, attempts, keys, settled⟩ :=
              @ih (state.setKey key .claimed) numbered inner
            exact ⟨_, reached, idempotencyExecute_awaitable free run, ⟨grows.calls, grows.trace⟩,
              attempts, keys, settled⟩
      | transaction =>
          exact (ih (numbered.opened transaction_brackets) reachable).bracket transaction_brackets
            numbered rfl rfl
      | audit =>
          have brackets := audit_brackets info (wrapAll info (asyncBackend outcomes) rest).name
          exact (ih (numbered.opened brackets) reachable).bracket brackets numbered rfl rfl

/-- An awaitable is awaited in the same way by the runner and by a retrying layer. -/
theorem Suspends.await_eq {execute : StackM S (Reply S)} {state : State S}
    {layers : List (Layer S)} (suspends : Suspends execute state layers)
    : (execute >>= awaitReply) state = (execute >>= finishReply) state := by
  obtain ⟨coroutine, reached, run, _⟩ := suspends
  rw [Py.bind_apply, Py.bind_apply, run]
  rfl

/-- A retrying layer drops the awaitable of its first call and then calls again. -/
theorem Suspends.finish_retry {inner : Executor S} {state : State S} {layers : List (Layer S)}
    (suspends : Suspends inner.execute state layers) (attempts : Nat)
    : ∃ reached, Grows state reached ∧ reached.attempts = state.attempts
        ∧ reached.keys = claimAll state.keys layers
        ∧ (SettledFrom state.calls reached.trace ↔ layers.any Layer.isFinisher = false)
        ∧ (retryExecute attempts inner >>= finishReply) state
          = retrying (inner.execute >>= awaitReply) (attempts - 1) reached := by
  obtain ⟨coroutine, reached, run, grows, count, keys, settled⟩ := suspends
  refine ⟨reached, grows, count, keys, settled, ?_⟩
  rw [Py.bind_apply, retryExecute_awaitable run]
  rfl

/-- An asynchronous stack in which no retrying layer is outside an idempotency layer spends its
attempts, by induction over the layers.
-/
theorem runStack_async (layers : List (Layer S)) {state : State S} (numbered : state.Numbered)
    (reachable : answer state.keys layers = .backend)
    (unclaimed : retryOver Layer.isIdempotency layers = false)
    : Reaches outcomes (runStack (wrapAll info (asyncBackend outcomes) layers)) state
        (budget layers) (retryOver Layer.isFinisher layers = false)
        (layers.any Layer.isFinisher = true) := by
  induction layers generalizing state with
  | nil =>
      have same : (runStack (wrapAll info (asyncBackend outcomes) []) : StackM S Json)
          = attempt outcomes := rfl
      have first := @reaches_attempt S outcomes state numbered
      rw [same]
      simpa [budget, retryOver] using first
  | cons layer rest ih =>
      cases layer with
      | retry attempts positive =>
          have none : rest.any Layer.isIdempotency = false := unclaimed
          have later : ∀ next : State S, next.Numbered → next.keys = state.keys →
              Reaches outcomes ((wrapAll info (asyncBackend outcomes) rest).execute >>= awaitReply)
                next (budget rest) (retryOver Layer.isFinisher rest = false)
                (rest.any Layer.isFinisher = true) := by
            intro next nextNumbered keys
            have open_ : answer next.keys rest = .backend := keys ▸ reachable
            have suspends := execute_suspends info outcomes rest nextNumbered open_
            rw [Reaches, suspends.await_eq]
            exact ih nextNumbered open_ (retryOver_of_any none)
          have suspends := execute_suspends info outcomes rest numbered reachable
          obtain ⟨reached, grows, count, keys, settled, run⟩ := suspends.finish_retry attempts
          rw [claimAll_of_none none] at keys
          obtain ⟨result, final, loop, decides⟩ := Reaches.retrying (numbered.grows grows)
            (fun next nextNumbered same => later next nextNumbered (same.trans keys)) (attempts - 1)
          rw [Nat.sub_add_cancel positive] at decides
          refine ⟨result, final, run.trans loop, grows.trans decides.grows, ?_, ?_, ?_⟩
          · rw [← count]
            exact decides.decided
          · intro missed
            rw [← count] at missed
            obtain ⟨raised, restored, spent⟩ := decides.exhausted missed
            exact ⟨raised, restored.trans keys, by rw [spent, count]; rfl⟩
          · rw [decides.grows.settledFrom_iff (numbered.grows grows) grows.calls, settled,
              decides.settled, count]
            constructor
            · rintro ⟨bare, _, never⟩
              exact ⟨bare, never⟩
            · rintro ⟨bare, never⟩
              exact ⟨bare, retryOver_of_any bare, never⟩
      | idempotency key =>
          rcases answer_idempotency reachable with ⟨_, _, impossible⟩ | ⟨_, _, impossible⟩ | ⟨free, inner⟩
          · cases impossible
          · cases impossible
          · exact (@ih (state.setKey key .claimed) numbered inner unclaimed).idempotency free
      | transaction =>
          have inner := ih (numbered.opened transaction_brackets) reachable unclaimed
          rw [any_finisher rfl]
          exact inner.bracket transaction_brackets numbered
      | audit =>
          have brackets := audit_brackets info (wrapAll info (asyncBackend outcomes) rest).name
          have inner := ih (numbered.opened brackets) reachable unclaimed
          rw [any_finisher rfl]
          exact inner.bracket brackets numbered

/-- A run that raises an exception without a single attempt. -/
def Stalls (program : StackM S Json) (state : State S) (safe : Prop) : Prop :=
  ∃ error reached, program state = .error error reached ∧ error.isException = true
    ∧ Grows state reached ∧ (SettledFrom state.calls reached.trace ↔ safe)

omit [DecidableEq S] in
theorem Stalls.bracket {opening : Nat → Event} {closing : Nat → Option Raised → Event}
    (brackets : Brackets opening closing) {execute : StackM S (Reply S)} {state : State S}
    (numbered : state.Numbered) {safe : Prop}
    (stalls : Stalls (execute >>= finishReply) (state.opened opening) safe)
    : Stalls (bracket opening closing execute >>= finishReply) state safe := by
  obtain ⟨error, reached, run, caught, inner, innerSettled⟩ := stalls
  have own := closingEvents_call brackets state.calls (.error error)
  obtain ⟨grows, settled⟩ := Grows.bracket brackets numbered inner own
  refine ⟨error, reached.noted (closingEvents closing state.calls (.error error)), ?_, caught,
    grows, ?_⟩
  · rw [finish_bracket, run]
  · have finished : Finished (opening state.calls
        :: closingEvents closing state.calls (.error error)) := by
      refine (finished_closingEvents brackets _ _).mpr (fun other same => ?_)
      rwa [← Except.error.inj same]
    rw [settled, innerSettled]
    exact and_iff_right finished

theorem Stalls.idempotency {key : S} {inner : Executor S} {state : State S}
    (free : state.keys key = .free) {safe : Prop}
    (stalls : Stalls (runStack inner) (state.setKey key .claimed) safe)
    : Stalls (idempotencyExecute key inner >>= finishReply) state safe := by
  obtain ⟨error, reached, run, caught, grows, settled⟩ := stalls
  refine ⟨error, reached.setKey key .free, ?_, caught, ⟨grows.calls, grows.trace⟩, settled⟩
  rw [finish_idempotency_free inner free, completeCoroutine_apply, run]
  simp [caught]

/-- An asynchronous stack in which a retrying layer is outside an idempotency layer stops at the
claim of its own first call, by induction over the layers.
-/
theorem runStack_stalls (layers : List (Layer S)) {state : State S} (numbered : state.Numbered)
    (reachable : answer state.keys layers = .backend)
    (claimed : retryOver Layer.isIdempotency layers = true)
    : Stalls (runStack (wrapAll info (asyncBackend outcomes) layers)) state
        (retryOver Layer.isFinisher layers = false) := by
  induction layers generalizing state with
  | nil => cases claimed
  | cons layer rest ih =>
      cases layer with
      | retry attempts positive =>
          have suspends := execute_suspends info outcomes rest numbered reachable
          obtain ⟨reached, grows, _, keys, settled, run⟩ := suspends.finish_retry attempts
          have later := numbered.grows grows
          obtain ⟨final, loop, undisturbed⟩ := Refuses.retrying later
            (fun next nextNumbered same => (execute_refused info (asyncBackend outcomes) rest
              nextNumbered (by rw [same, keys, answer_claimAll claimed])).bind awaitReply)
            (attempts - 1)
          refine ⟨claimedError, final, run.trans loop, rfl, grows.trans undisturbed.grows, ?_⟩
          rw [undisturbed.grows.settledFrom_iff later grows.calls, settled]
          exact and_iff_left undisturbed.settled
      | idempotency key =>
          rcases answer_idempotency reachable with ⟨_, _, impossible⟩ | ⟨_, _, impossible⟩ | ⟨free, inner⟩
          · cases impossible
          · cases impossible
          · exact (@ih (state.setKey key .claimed) numbered inner claimed).idempotency free
      | transaction =>
          exact (ih (numbered.opened transaction_brackets) reachable claimed).bracket
            transaction_brackets numbered
      | audit =>
          have brackets := audit_brackets info (wrapAll info (asyncBackend outcomes) rest).name
          exact (ih (numbered.opened brackets) reachable claimed).bracket brackets numbered

end Asynchronous

/-- No layer has been called yet. -/
def State.initial (keys : S → KeyState) : State S := ⟨[], 0, keys, 0⟩

/-- When the layer calls of a run are all finished: an idempotency layer answers instead of the
backend; or no retrying layer around an awaitable is outside a layer that must finish, and no
attempt that such a layer watches ends with an error that is no exception.
-/
def Finishes [DecidableEq S] (mode : Mode) (layers : List (Layer S)) (keys : S → KeyState)
    (outcomes : Nat → Except Raised Json) : Prop :=
  answer keys layers = .backend →
    (mode = .async → retryOver Layer.isFinisher layers = false)
    ∧ (layers.any Layer.isFinisher = true →
        (mode = .async → retryOver Layer.isIdempotency layers = false) →
        ∀ error, decisive outcomes 0 (budget layers) ≠ some (.error error))

theorem settled_iff_settledFrom (trace : List Event) : Settled trace ↔ SettledFrom 0 trace :=
  ⟨fun settled call _ => settled call, fun settled call => settled call (Nat.zero_le call)⟩

/-- All layer calls of a run are finished exactly when the condition on the stack holds. -/
theorem settled_iff [DecidableEq S] (info : RunInfo) (mode : Mode) (layers : List (Layer S))
    (keys : S → KeyState) (outcomes : Nat → Except Raised Json)
    : Settled (after (runStack (wrapAll info (backendOf outcomes mode) layers))
        (State.initial keys)).trace
      ↔ Finishes mode layers keys outcomes := by
  have numbered : (State.initial keys).Numbered := by simp [State.Numbered, State.initial]
  rw [settled_iff_settledFrom, Finishes]
  cases answered : answer keys layers with
  | refused =>
      obtain ⟨reached, run, undisturbed⟩ := (execute_refused info (backendOf outcomes mode) layers
        numbered answered).bind finishReply
      have stopped := Py.after_of_error run
      rw [runStack, stopped]
      exact iff_of_true undisturbed.settled (fun impossible => by cases impossible)
  | cached result =>
      obtain ⟨reached, run, _, settled⟩ := (execute_cached info (backendOf outcomes mode) layers
        numbered answered).finish
      have stopped := Py.after_of_ok run
      rw [runStack, stopped]
      exact iff_of_true settled (fun impossible => by cases impossible)
  | backend =>
      have after_stop : ∀ {program : StackM S Json} {result : Except Raised Json}
          {state reached : State S}, program state = stop result reached →
          after program state = reached := by
        intro program result state reached run
        cases result with
        | ok value => exact Py.after_of_ok run
        | error error => exact Py.after_of_error run
      simp only [true_implies]
      cases mode with
      | sync =>
          obtain ⟨result, reached, run, decides⟩ :=
            runStack_sync info outcomes layers numbered answered
          rw [backendOf, after_stop run]
          refine decides.settled.trans ?_
          simp [State.initial]
      | async =>
          cases claimed : retryOver Layer.isIdempotency layers with
          | false =>
              obtain ⟨result, reached, run, decides⟩ :=
                runStack_async info outcomes layers numbered answered claimed
              rw [backendOf, after_stop run]
              refine decides.settled.trans ?_
              simp [State.initial]
          | true =>
              obtain ⟨error, reached, run, _, _, settled⟩ :=
                runStack_stalls info outcomes layers numbered answered claimed
              rw [backendOf, Py.after_of_error run]
              refine settled.trans ?_
              simp

/-- A retrying layer around a transaction, over a backend that always succeeds and is awaited:
the transaction of the first call is never finished.
-/
theorem not_settled_retry_transaction
    : ¬ Settled (after (runStack (wrapAll ⟨"run_1", 1⟩
        (backendOf (fun _ => .ok (.obj [])) .async)
        [.retry 2 (by decide), .transaction])) (State.initial (fun _ : Unit => .free))).trace := by
  intro settled
  have first := settled 0
  have unfinished : group (after (runStack (wrapAll ⟨"run_1", 1⟩
        (backendOf (fun _ => .ok (.obj [])) .async)
        [.retry 2 (by decide), .transaction])) (State.initial (fun _ : Unit => .free))).trace 0
      = [.begin 0] := by decide
  rw [unfinished] at first
  cases first

end Pyverge.Middleware
