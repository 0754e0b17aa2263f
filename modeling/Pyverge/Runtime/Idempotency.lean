import Pyverge.Runtime.Middleware
import Mathlib.Logic.Function.Basic

/-! Concurrent runs through an idempotency layer.
Each store call and each inner execution is one step, and the steps of different runs interleave
in any order. A run may have a retrying layer around its idempotency layer.
-/

namespace Pyverge.Idempotency

open Py (Json)
open Middleware (KeyState claimedError)

variable {S : Type}

structure System where
  mode : Mode
  /-- The attempts of the retrying layer, if there is one. -/
  retry : Option Nat
  deriving DecidableEq

/-- How a result comes back to the caller. -/
inductive Form where
  | plain
  | awaitable
  deriving DecidableEq

/-- The form of the results of the backend itself. -/
def System.form (system : System) : Form :=
  match system.mode with
  | .sync => .plain
  | .async => .awaitable

inductive Ending where
  | returned (form : Form) (result : Json)
  | raised (error : Raised)
  deriving DecidableEq

/-- What a run does next. -/
inductive Stage where
  | get
  | claim
  | getAgain
  | execute
  | awaited
  | complete (result : Json)
  | release (error : Raised)
  | ended (ending : Ending)
  deriving DecidableEq

/-- Whether a run at this stage holds a claim. -/
def Stage.holds : Stage → Bool
  | .execute | .awaited | .complete _ | .release _ => true
  | .get | .claim | .getAgain | .ended _ => false

/-- One run. It is looping inside the coroutine of the retrying layer. -/
structure Run (S : Type) where
  key : S
  stage : Stage
  looping : Bool
  left : Nat
  deriving DecidableEq

structure State (S : Type) where
  keys : S → KeyState
  runs : List (Run S)
  /-- How many inner executions have succeeded and failed. -/
  successes : S → Nat
  failures : Nat

namespace Run

def start (system : System) (key : S) : Run S :=
  ⟨key, .get, false, system.retry.getD 1 - 1⟩

/-- An error reaches the retrying layer, or the caller. -/
def raise (run : Run S) (error : Raised) : Run S :=
  if error.isException && decide (0 < run.left) then
    { run with stage := .get, left := run.left - 1 }
  else { run with stage := .ended (.raised error) }

/-- The idempotency layer returns a plain value, which the coroutine of a retrying layer cannot
await.
-/
def reply (run : Run S) (result : Json) : Run S :=
  if run.looping then run.raise (.typeError "object can't be used in 'await' expression")
  else { run with stage := .ended (.returned .plain result) }

/-- The idempotency layer returns an awaitable. The first one is dropped by a retrying layer,
whose coroutine then starts over.
-/
def suspend (system : System) (run : Run S) : Run S :=
  match system.retry with
  | none => { run with stage := .awaited }
  | some attempts =>
      if run.looping then { run with stage := .awaited }
      else { run with stage := .get, looping := true, left := attempts - 1 }

/-- Whether the next step of the run is the end of an inner execution. -/
def runsInner (mode : Mode) (run : Run S) : Bool :=
  match run.stage, mode with
  | .execute, .sync | .awaited, _ => true
  | _, _ => false

/-- Whether the next step of the run asks the store for a result. -/
def asks (run : Run S) : Bool :=
  match run.stage with
  | .get | .getAgain => true
  | _ => false

/-- Whether the run holds the claim of its key. -/
def holds (run : Run S) : Bool := run.stage.holds

end Run

section Moves

variable [DecidableEq S]

namespace State

def initial (system : System) (keys : S → KeyState) (runKeys : List S) : State S :=
  ⟨keys, runKeys.map (Run.start system), fun _ => 0, 0⟩

def setRun (state : State S) (place : Nat) (run : Run S) : State S :=
  { state with runs := state.runs.set place run }

def setKey (state : State S) (key : S) (value : KeyState) : State S :=
  { state with keys := Function.update state.keys key value }

/-- The inner execution of a run ends. -/
def endInner (state : State S) (place : Nat) (run : Run S)
    : Except Raised Json → State S
  | .ok result =>
      { state with
        successes := Function.update state.successes run.key (state.successes run.key + 1)
      }.setRun place { run with stage := .complete result }
  | .error error =>
      { state with failures := state.failures + 1 }.setRun place { run with
        stage := if error.isException then .release error else .ended (.raised error) }

/-- The next step of a run; the outcome is that of the inner execution, if the step is the end of
one.
-/
def advance (system : System) (state : State S) (place : Nat) (run : Run S)
    (outcome : Except Raised Json) : State S :=
  match run.stage with
  | .get =>
      match (state.keys run.key).get with
      | some result => state.setRun place (run.reply result)
      | none => state.setRun place { run with stage := .claim }
  | .claim =>
      if state.keys run.key = .free then
        (state.setKey run.key .claimed).setRun place { run with stage := .execute }
      else state.setRun place { run with stage := .getAgain }
  | .getAgain =>
      match (state.keys run.key).get with
      | some result => state.setRun place (run.reply result)
      | none => state.setRun place (run.raise claimedError)
  | .execute =>
      match system.mode with
      | .sync => state.endInner place run outcome
      | .async => state.setRun place (run.suspend system)
  | .awaited => state.endInner place run outcome
  | .complete result =>
      (state.setKey run.key (.completed result)).setRun place
        (match system.mode with
          | .sync => run.reply result
          | .async => { run with stage := .ended (.returned .awaitable result) })
  | .release error => (state.setKey run.key .free).setRun place (run.raise error)
  | .ended _ => state

/-- One step of the run at a place. -/
def move (system : System) (state : State S) (place : Nat) (outcome : Except Raised Json)
    : State S :=
  match state.runs[place]? with
  | none => state
  | some run => state.advance system place run outcome

/-- Any interleaving. -/
def moves (system : System) (state : State S) (steps : List (Nat × Except Raised Json))
    : State S :=
  steps.foldl (fun state step => state.move system step.1 step.2) state

end State

/-- What the layer promises. -/
structure Idempotent (system : System) (state : State S) : Prop where
  once : ∀ key, state.successes key ≤ 1
  stored : ∀ run ∈ state.runs, ∀ form result, run.stage = .ended (.returned form result) →
    state.keys run.key = .completed result ∧ form = system.form
  released : (∀ run ∈ state.runs, ∃ ending, run.stage = .ended ending) →
    ∀ key, state.keys key ≠ .claimed
  retried : system.mode = .async → system.retry ≠ none → state.runs.length = 1 →
    state.failures = 0 → ∀ run ∈ state.runs, ∀ error, run.stage ≠ .ended (.raised error)

/-- The step does not end an inner execution with an error that is no exception, and when the
backend is asynchronous it does not find a stored result.
-/
def meets (system : System) (state : State S) (place : Nat) (outcome : Except Raised Json)
    : Bool :=
  match state.runs[place]? with
  | none => true
  | some run =>
      (!run.runsInner system.mode ||
        match outcome with
        | .ok _ => true
        | .error error => error.isException)
      && (system.mode == .sync || !run.asks || (state.keys run.key).get.isNone)

def meetsAll (system : System) : State S → List (Nat × Except Raised Json) → Bool
  | _, [] => true
  | state, (place, outcome) :: rest =>
      meets system state place outcome && meetsAll system (state.move system place outcome) rest

end Moves

/-- What holds in every state that meets the conditions. -/
structure Invariant (system : System) (state : State S) : Prop where
  flat : ∀ (place : Nat) (run : Run S), state.runs[place]? = some run → run.looping = false
  holder : ∀ (place : Nat) (run : Run S), state.runs[place]? = some run → run.holds = true →
    state.keys run.key = .claimed
  unique : ∀ (place other : Nat) (run second : Run S), state.runs[place]? = some run →
    state.runs[other]? = some second → run.holds = true → second.holds = true →
    run.key = second.key → place = other
  held : ∀ key, state.keys key = .claimed →
    ∃ (place : Nat) (run : Run S), state.runs[place]? = some run ∧ run.holds = true ∧ run.key = key
  stored : ∀ (place : Nat) (run : Run S), state.runs[place]? = some run → ∀ form result,
    run.stage = .ended (.returned form result) →
    state.keys run.key = .completed result ∧ form = system.form
  once : ∀ key, state.successes key = 0 ∨ state.successes key = 1
    ∧ ((∃ result, state.keys key = .completed result)
      ∨ ∃ (place : Nat) (run : Run S) (result : Json), state.runs[place]? = some run ∧ run.key = key
          ∧ run.stage = .complete result)

/-- What one step does to the run that moves and to its key. -/
structure Change (system : System) (state after : State S) (place : Nat) (run next : Run S)
    : Prop where
  runs : after.runs = state.runs.set place next
  key : next.key = run.key
  flat : next.looping = false
  others : ∀ key, key ≠ run.key →
    after.keys key = state.keys key ∧ after.successes key = state.successes key
  claimed : after.keys run.key = .claimed
    ↔ next.holds = true ∨ run.holds = false ∧ state.keys run.key = .claimed
  acquired : next.holds = true → run.holds = false → state.keys run.key ≠ .claimed
  kept : ∀ result, state.keys run.key = .completed result → after.keys run.key = .completed result
  returned : ∀ form result, next.stage = .ended (.returned form result) →
    after.keys run.key = .completed result ∧ form = system.form
  counted : after.successes run.key = state.successes run.key
      ∧ (∀ result, run.stage = .complete result → after.keys run.key = .completed result)
    ∨ after.successes run.key = state.successes run.key + 1 ∧ run.holds = true
      ∧ (∀ result, run.stage ≠ .complete result) ∧ ∃ result, next.stage = .complete result

section Preservation

variable {system : System} {state after : State S} {place : Nat} {run next : Run S}

theorem Change.getElem?_iff (change : Change system state after place run next)
    (found : state.runs[place]? = some run) {other : Nat} {second : Run S}
    : after.runs[other]? = some second
      ↔ other = place ∧ second = next ∨ other ≠ place ∧ state.runs[other]? = some second := by
  have inside := (List.getElem?_eq_some_iff.mp found).1
  rw [change.runs, List.getElem?_set]
  by_cases same : place = other
  · subst same
    simp [inside, eq_comm]
  · simp [same, Ne.symm same]

/-- One step keeps the invariant. -/
theorem Change.invariant (change : Change system state after place run next)
    (found : state.runs[place]? = some run) (holds : Invariant system state)
    : Invariant system after := by
  have at_ := @Change.getElem?_iff _ _ _ _ _ _ _ change found
  have sameKeys : ∀ {key}, key ≠ run.key → after.keys key = state.keys key :=
    fun other => (change.others _ other).1
  refine ⟨?_, ?_, ?_, ?_, ?_, ?_⟩
  · intro other second member
    rcases at_.mp member with ⟨_, rfl⟩ | ⟨_, earlier⟩
    · exact change.flat
    · exact holds.flat other second earlier
  · intro other second member holding
    rcases at_.mp member with ⟨_, rfl⟩ | ⟨apart, earlier⟩
    · rw [change.key]
      exact change.claimed.mpr (.inl holding)
    · have before := holds.holder other second earlier holding
      by_cases same : second.key = run.key
      · rw [same] at before ⊢
        refine change.claimed.mpr (.inr ⟨?_, before⟩)
        by_contra mine
        exact apart (holds.unique other place second run earlier found holding
          (by simpa using mine) same)
      · rw [sameKeys same]
        exact before
  · have alone : ∀ other second, other ≠ place → state.runs[other]? = some second →
        second.holds = true → next.holds = true → second.key ≠ next.key := by
      intro other second apart earlier holding mine same
      rw [change.key] at same
      cases was : run.holds with
      | true => exact apart (holds.unique other place second run earlier found holding was same)
      | false =>
          exact change.acquired mine was (same ▸ holds.holder other second earlier holding)
    intro first other second third atFirst atOther holdsFirst holdsOther same
    rcases at_.mp atFirst with ⟨rfl, rfl⟩ | ⟨apartFirst, earlierFirst⟩ <;>
      rcases at_.mp atOther with ⟨rfl, rfl⟩ | ⟨apartOther, earlierOther⟩
    · rfl
    · exact (alone other third apartOther earlierOther holdsOther holdsFirst same.symm).elim
    · exact (alone first second apartFirst earlierFirst holdsFirst holdsOther same).elim
    · exact holds.unique first other second third earlierFirst earlierOther holdsFirst holdsOther
        same
  · intro key claimed
    by_cases same : key = run.key
    · subst same
      rcases change.claimed.mp claimed with mine | ⟨was, before⟩
      · exact ⟨place, next, at_.mpr (.inl ⟨rfl, rfl⟩), mine, change.key⟩
      · obtain ⟨other, second, earlier, holding, sameKey⟩ := holds.held _ before
        refine ⟨other, second, at_.mpr (.inr ⟨?_, earlier⟩), holding, sameKey⟩
        rintro rfl
        rw [found, Option.some.injEq] at earlier
        rw [← earlier, was] at holding
        cases holding
    · rw [sameKeys same] at claimed
      obtain ⟨other, second, earlier, holding, sameKey⟩ := holds.held key claimed
      refine ⟨other, second, at_.mpr (.inr ⟨?_, earlier⟩), holding, sameKey⟩
      rintro rfl
      rw [found, Option.some.injEq] at earlier
      exact same (sameKey.symm.trans (congrArg Run.key earlier.symm))
  · intro other second member form result ended
    rcases at_.mp member with ⟨_, rfl⟩ | ⟨_, earlier⟩
    · rw [change.key]
      exact change.returned form result ended
    · obtain ⟨before, sameForm⟩ := holds.stored other second earlier form result ended
      refine ⟨?_, sameForm⟩
      by_cases same : second.key = run.key
      · rw [same] at before ⊢
        exact change.kept result before
      · rw [sameKeys same]
        exact before
  · intro key
    by_cases same : key = run.key
    · subst same
      rcases change.counted with ⟨count, done⟩ | ⟨count, mine, unfinished, result, finished⟩
      · rw [count]
        rcases holds.once run.key with none | ⟨one, stored | ⟨other, second, result, earlier, sameKey, complete⟩⟩
        · exact .inl none
        · obtain ⟨result, before⟩ := stored
          exact .inr ⟨one, .inl ⟨result, change.kept result before⟩⟩
        · refine .inr ⟨one, ?_⟩
          by_cases mine : other = place
          · subst mine
            rw [found, Option.some.injEq] at earlier
            exact .inl ⟨result, done result (earlier ▸ complete)⟩
          · exact .inr ⟨other, second, result, at_.mpr (.inr ⟨mine, earlier⟩), sameKey, complete⟩
      · have claimed := holds.holder place run found mine
        have none : state.successes run.key = 0 := by
          rcases holds.once run.key with none | ⟨_, stored | ⟨other, second, result, earlier, sameKey, complete⟩⟩
          · exact none
          · obtain ⟨result, before⟩ := stored
            rw [claimed] at before
            cases before
          · have holding : second.holds = true := by rw [Run.holds, complete]; rfl
            have same := holds.unique other place second run earlier found holding mine sameKey
            subst same
            rw [found, Option.some.injEq] at earlier
            exact (unfinished result (earlier ▸ complete)).elim
        refine .inr ⟨by rw [count, none], .inr ⟨place, next, result, ?_, change.key, finished⟩⟩
        exact at_.mpr (.inl ⟨rfl, rfl⟩)
    · rw [(change.others key same).2, sameKeys same]
      rcases holds.once key with none | ⟨one, stored | ⟨other, second, result, earlier, sameKey, complete⟩⟩
      · exact .inl none
      · exact .inr ⟨one, .inl stored⟩
      · refine .inr ⟨one, .inr ⟨other, second, result, at_.mpr (.inr ⟨?_, earlier⟩), sameKey, complete⟩⟩
        rintro rfl
        rw [found, Option.some.injEq] at earlier
        exact same (sameKey.symm.trans (congrArg Run.key earlier.symm))

end Preservation

section Steps

variable {system : System} {state after : State S} {place : Nat} {run next : Run S}

@[simp]
theorem Run.raise_key (run : Run S) (error : Raised) : (run.raise error).key = run.key := by
  unfold Run.raise
  split <;> rfl

@[simp]
theorem Run.raise_looping (run : Run S) (error : Raised)
    : (run.raise error).looping = run.looping := by
  unfold Run.raise
  split <;> rfl

@[simp]
theorem Run.raise_holds (run : Run S) (error : Raised) : (run.raise error).holds = false := by
  unfold Run.raise
  split <;> rfl

theorem Run.raise_stage (run : Run S) (error : Raised) (form : Form) (result : Json)
    : (run.raise error).stage ≠ .ended (.returned form result) := by
  unfold Run.raise
  split <;> simp

theorem Run.reply_eq (flat : run.looping = false) (result : Json)
    : run.reply result = { run with stage := .ended (.returned .plain result) } := by
  simp [Run.reply, flat]

theorem get_eq_some {key : KeyState} {result : Json} (found : key.get = some result)
    : key = .completed result := by
  unfold KeyState.get at found
  split at found <;> simp_all

/-- A step that leaves the store alone. -/
theorem Change.quiet (holds : Invariant system state) (found : state.runs[place]? = some run)
    (runs : after.runs = state.runs.set place next) (keys : after.keys = state.keys)
    (successes : after.successes = state.successes) (key : next.key = run.key)
    (flat : next.looping = false) (holding : next.holds = run.holds)
    (unfinished : ∀ result, run.stage ≠ .complete result)
    (returned : ∀ form result, next.stage = .ended (.returned form result) →
      state.keys run.key = .completed result ∧ form = system.form)
    : Change system state after place run next where
  runs
  key
  flat
  others _ _ := by rw [keys, successes]; exact ⟨rfl, rfl⟩
  claimed := by
    rw [keys, holding]
    cases mine : run.holds with
    | true => simp [holds.holder place run found mine]
    | false => simp
  acquired acquires was := by
    rw [holding, was] at acquires
    cases acquires
  kept _ before := by rw [keys]; exact before
  returned := by rw [keys]; exact returned
  counted := .inl ⟨by rw [successes], fun result complete => (unfinished result complete).elim⟩

variable [DecidableEq S]

/-- A step that gives up the claim of the run. -/
theorem Change.giveUp (holds : Invariant system state) (found : state.runs[place]? = some run)
    (mine : run.holds = true) {value : KeyState} (free : value ≠ .claimed)
    (key : next.key = run.key) (flat : next.looping = false) (holding : next.holds = false)
    (finished : ∀ result, run.stage = .complete result → value = .completed result)
    (returned : ∀ form result, next.stage = .ended (.returned form result) →
      value = .completed result ∧ form = system.form)
    : Change system state ((state.setKey run.key value).setRun place next) place run next where
  runs := rfl
  key
  flat
  others other apart := ⟨Function.update_of_ne apart _ _, rfl⟩
  claimed := by simp [State.setKey, State.setRun, holding, mine, free]
  acquired acquires _ := by
    rw [holding] at acquires
    cases acquires
  kept _ before := by
    rw [holds.holder place run found mine] at before
    cases before
  returned form result ended := by
    simpa [State.setKey, State.setRun] using returned form result ended
  counted := .inl ⟨rfl, fun result complete => by
    simpa [State.setKey, State.setRun] using finished result complete⟩

/-- The inner execution of a run that holds its claim ends. -/
theorem Change.endInner (holds : Invariant system state) (found : state.runs[place]? = some run)
    (mine : run.holds = true) (unfinished : ∀ result, run.stage ≠ .complete result)
    {outcome : Except Raised Json}
    (caught : ∀ error, outcome = .error error → error.isException = true)
    : ∃ next, Change system state (state.endInner place run outcome) place run next := by
  have flat := holds.flat place run found
  cases outcome with
  | error error =>
      refine ⟨{ run with stage := .release error }, .quiet holds found ?_ rfl rfl rfl flat
        mine.symm unfinished (by simp)⟩
      simp [State.endInner, State.setRun, caught error rfl]
  | ok result =>
      refine ⟨{ run with stage := .complete result }, ?_⟩
      refine ⟨rfl, rfl, flat, fun other apart => ⟨rfl, Function.update_of_ne apart _ _⟩, ?_, ?_,
        fun _ before => before, by simp, .inr ?_⟩
      · simp [State.endInner, State.setRun, Run.holds, Stage.holds, holds.holder place run found mine]
      · intro _ was
        rw [mine] at was
        cases was
      · exact ⟨Function.update_self _ _ _, mine, unfinished, result, rfl⟩

/-- Every step that meets the conditions changes one run and its key, one case for each stage. -/
theorem move_change (single : system.mode = .async → system.retry = none)
    (holds : Invariant system state) {outcome : Except Raised Json}
    (allowed : meets system state place outcome = true) (found : state.runs[place]? = some run)
    : state.move system place outcome = state
      ∨ ∃ next, Change system state (state.move system place outcome) place run next := by
  have flat := holds.flat place run found
  simp only [meets, found, Bool.and_eq_true, Bool.or_eq_true, Bool.not_eq_true', beq_iff_eq,
    Option.isNone_iff_eq_none] at allowed
  obtain ⟨caught, silent⟩ := allowed
  have exceptions : run.runsInner system.mode = true →
      ∀ error, outcome = .error error → error.isException = true := by
    rintro inner error rfl
    simpa [inner] using caught
  have plain : ∀ result, (state.keys run.key).get = some result → run.asks = true →
      system.mode = .sync := by
    intro result cached asks
    rcases silent with (sync | never) | none
    · exact sync
    · rw [asks] at never
      cases never
    · rw [cached] at none
      cases none
  have answered : ∀ result, (state.keys run.key).get = some result → run.asks = true →
      run.holds = false → (∀ result, run.stage ≠ .complete result) →
      Change system state (state.setRun place (run.reply result)) place run
        (run.reply result) := by
    intro result cached asks was unfinished
    rw [Run.reply_eq flat]
    refine .quiet holds found rfl rfl rfl rfl flat was.symm unfinished ?_
    rintro form other ended
    obtain ⟨rfl, rfl⟩ : Form.plain = form ∧ result = other := by simpa using ended
    exact ⟨get_eq_some cached, by simp [System.form, plain result cached asks]⟩
  have moved : state.move system place outcome = state.advance system place run outcome := by
    rw [State.move, found]
  cases stage : run.stage with
  | ended ending =>
      left
      rw [moved, State.advance, stage]
  | get =>
      right
      have unfinished : ∀ result, run.stage ≠ .complete result := by simp [stage]
      have was : run.holds = false := by simp [Run.holds, stage, Stage.holds]
      rw [moved, State.advance, stage]
      cases cached : (state.keys run.key).get with
      | some result =>
          exact ⟨_, answered result cached (by simp [Run.asks, stage]) was unfinished⟩
      | none =>
          exact ⟨_, .quiet holds found rfl rfl rfl rfl flat was.symm unfinished (by simp)⟩
  | claim =>
      right
      have unfinished : ∀ result, run.stage ≠ .complete result := by simp [stage]
      have was : run.holds = false := by simp [Run.holds, stage, Stage.holds]
      rw [moved, State.advance, stage]
      by_cases free : state.keys run.key = .free
      · rw [if_pos free]
        refine ⟨{ run with stage := .execute }, rfl, rfl, flat,
          fun other apart => ⟨Function.update_of_ne apart _ _, rfl⟩, ?_, ?_, ?_, by simp,
          .inl ⟨rfl, fun result complete => (unfinished result complete).elim⟩⟩
        · simp [State.setKey, State.setRun, Run.holds, Stage.holds]
        · simp [free]
        · simp [free]
      · rw [if_neg free]
        exact ⟨_, .quiet holds found rfl rfl rfl rfl flat was.symm unfinished (by simp)⟩
  | getAgain =>
      right
      have unfinished : ∀ result, run.stage ≠ .complete result := by simp [stage]
      have was : run.holds = false := by simp [Run.holds, stage, Stage.holds]
      rw [moved, State.advance, stage]
      cases cached : (state.keys run.key).get with
      | some result =>
          exact ⟨_, answered result cached (by simp [Run.asks, stage]) was unfinished⟩
      | none =>
          refine ⟨_, .quiet holds found rfl rfl rfl (run.raise_key _)
            ((run.raise_looping _).trans flat) ((run.raise_holds _).trans was.symm) unfinished ?_⟩
          intro form result ended
          exact (run.raise_stage _ form result ended).elim
  | execute =>
      right
      have unfinished : ∀ result, run.stage ≠ .complete result := by simp [stage]
      have mine : run.holds = true := by simp [Run.holds, stage, Stage.holds]
      rw [moved, State.advance, stage]
      cases mode : system.mode with
      | sync =>
          exact Change.endInner holds found mine unfinished
            (exceptions (by simp [Run.runsInner, stage, mode]))
      | async =>
          have awaits : run.suspend system = { run with stage := .awaited } := by
            simp [Run.suspend, single mode]
          simp only [awaits]
          exact ⟨_, .quiet holds found rfl rfl rfl rfl flat mine.symm unfinished (by simp)⟩
  | awaited =>
      right
      have unfinished : ∀ result, run.stage ≠ .complete result := by simp [stage]
      have mine : run.holds = true := by simp [Run.holds, stage, Stage.holds]
      rw [moved, State.advance, stage]
      exact Change.endInner holds found mine unfinished (exceptions (by simp [Run.runsInner, stage]))
  | complete result =>
      right
      have mine : run.holds = true := by simp [Run.holds, stage, Stage.holds]
      have returns : (match system.mode with
            | .sync => run.reply result
            | .async => { run with stage := .ended (.returned .awaitable result) })
          = { run with stage := .ended (.returned system.form result) } := by
        cases mode : system.mode with
        | sync => simp [Run.reply_eq flat, System.form, mode]
        | async => simp [System.form, mode]
      rw [moved, State.advance, stage]
      simp only [returns]
      refine ⟨_, .giveUp holds found mine (by simp) rfl flat rfl ?_ ?_⟩
      · intro other same
        rw [stage] at same
        rw [Stage.complete.inj same]
      · rintro form other ended
        obtain ⟨rfl, rfl⟩ : system.form = form ∧ result = other := by simpa using ended
        exact ⟨rfl, rfl⟩
  | release error =>
      right
      have mine : run.holds = true := by simp [Run.holds, stage, Stage.holds]
      rw [moved, State.advance, stage]
      refine ⟨_, .giveUp holds found mine (by simp) (run.raise_key _)
        ((run.raise_looping _).trans flat) (run.raise_holds _) (by simp [stage]) ?_⟩
      intro form result ended
      exact (run.raise_stage _ form result ended).elim

/-- One step keeps the invariant. -/
theorem Invariant.move (single : system.mode = .async → system.retry = none)
    (holds : Invariant system state) {outcome : Except Raised Json}
    (allowed : meets system state place outcome = true)
    : Invariant system (state.move system place outcome) := by
  cases found : state.runs[place]? with
  | none =>
      rw [State.move, found]
      exact holds
  | some run =>
      rcases move_change single holds allowed found with same | ⟨next, change⟩
      · rw [same]
        exact holds
      · exact change.invariant found holds

/-- A whole interleaving keeps the invariant, by induction over its steps. -/
theorem Invariant.moves (single : system.mode = .async → system.retry = none)
    {steps : List (Nat × Except Raised Json)} (holds : Invariant system state)
    (allowed : meetsAll system state steps = true)
    : Invariant system (state.moves system steps) := by
  induction steps generalizing state with
  | nil => exact holds
  | cons step rest ih =>
      rw [meetsAll, Bool.and_eq_true] at allowed
      exact ih (holds.move single allowed.1) allowed.2

omit [DecidableEq S] in
theorem Invariant.initial {keys : S → KeyState} (unclaimed : ∀ key, keys key ≠ .claimed)
    (runKeys : List S)
    : Invariant system (State.initial system keys runKeys) := by
  have started : ∀ {place : Nat} {run : Run S},
      (State.initial system keys runKeys).runs[place]? = some run →
      run.looping = false ∧ run.stage = .get := by
    intro place run found
    obtain ⟨key, _, rfl⟩ := List.mem_map.mp (List.mem_of_getElem? found)
    exact ⟨rfl, rfl⟩
  have idle : ∀ {place : Nat} {run : Run S},
      (State.initial system keys runKeys).runs[place]? = some run → run.holds = false := by
    intro place run found
    rw [Run.holds, (started found).2]
    rfl
  refine ⟨fun _ _ found => (started found).1, ?_, ?_, ?_, ?_, fun _ => .inl rfl⟩
  · intro place run found mine
    rw [idle found] at mine
    cases mine
  · intro place other run second found _ mine
    rw [idle found] at mine
    cases mine
  · exact fun key claimed => (unclaimed key claimed).elim
  · intro place run found form result ended
    rw [(started found).2] at ended
    cases ended

omit [DecidableEq S] in
/-- When every run has ended, nobody holds a claim. -/
theorem Invariant.idempotent (single : system.mode = .async → system.retry = none)
    (holds : Invariant system state)
    : Idempotent system state where
  once key := by
    rcases holds.once key with none | ⟨one, _⟩ <;> omega
  stored run member form result ended := by
    obtain ⟨place, found⟩ := List.mem_iff_getElem?.mp member
    exact holds.stored place run found form result ended
  released allEnded key claimed := by
    obtain ⟨place, run, found, mine, _⟩ := holds.held key claimed
    obtain ⟨ending, ended⟩ := allEnded run (List.mem_of_getElem? found)
    rw [Run.holds, ended] at mine
    cases mine
  retried asynchronous retrying := (retrying (single asynchronous)).elim

/-- Every interleaving whose steps meet the conditions keeps the promises of the layer, unless a
retrying layer is around an awaitable.
-/
theorem idempotent_of_meets (single : system.mode = .async → system.retry = none)
    {keys : S → KeyState} (unclaimed : ∀ key, keys key ≠ .claimed) (runKeys : List S)
    {steps : List (Nat × Except Raised Json)}
    (allowed : meetsAll system (State.initial system keys runKeys) steps = true)
    : Idempotent system ((State.initial system keys runKeys).moves system steps) :=
  ((Invariant.initial unclaimed runKeys).moves single allowed).idempotent single

end Steps

/-- Two runs with one key: the first fails, the second starts before the first tries again. -/
def overtaking : List (Nat × Except Raised Json) :=
  let idle : Except Raised Json := .ok .null
  [(0, idle), (1, idle), (0, idle), (0, .error (.exception "first attempt")), (0, idle),
    (1, idle), (0, idle), (0, idle), (1, .ok (.obj [])), (0, idle), (1, idle), (0, idle)]

/-- Witness: both runs of the overtaking end with the one stored result. -/
theorem idempotent_overtaking
    : Idempotent ⟨.sync, some 3⟩
        ((State.initial ⟨.sync, some 3⟩ (fun _ : Unit => .free) [(), ()]).moves ⟨.sync, some 3⟩
          overtaking)
      ∧ ((State.initial ⟨.sync, some 3⟩ (fun _ : Unit => .free) [(), ()]).moves ⟨.sync, some 3⟩
          overtaking).runs.map Run.stage
        = [.ended (.returned .plain (.obj [])), .ended (.returned .plain (.obj []))] :=
  ⟨idempotent_of_meets (by decide) (by simp) [(), ()] (by decide), by decide⟩

/-- One awaited run under a retrying layer meets the claim of its own first call. -/
def selfBlocked : List (Nat × Except Raised Json) :=
  List.replicate 9 (0, .ok (.obj []))

/-- A single run over an asynchronous backend that always succeeds fails under a retrying layer
and leaves its key claimed.
-/
theorem not_idempotent_selfBlocked
    : ¬ Idempotent ⟨.async, some 2⟩
        ((State.initial ⟨.async, some 2⟩ (fun _ : Unit => .free) [()]).moves ⟨.async, some 2⟩
          selfBlocked) := by
  intro promised
  have ended : ((State.initial ⟨.async, some 2⟩ (fun _ : Unit => .free) [()]).moves
      ⟨.async, some 2⟩ selfBlocked).runs
        = [⟨(), .ended (.raised claimedError), true, 0⟩] := by decide
  refine promised.retried rfl (by simp) ?_ ?_ ⟨(), .ended (.raised claimedError), true, 0⟩ ?_
    claimedError rfl
  · rw [ended]
    rfl
  · decide
  · rw [ended]
    simp

end Pyverge.Idempotency
