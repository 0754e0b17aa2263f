import Mathlib.Algebra.GroupWithZero.Nat
import Pyverge.Runtime.Nested
import Mathlib.Logic.Relation

/-! The backends and the schedules they allow.
A pool runs the entries of a level as tasks that share the payload of the level. A task reads
its entry when it starts; while it runs, stamping versions into the objects it read may change
the payload at and below its own path.
-/

namespace Pyverge

open Py (Json)

variable {V F H : Type}

inductive TaskState (V F H : Type) where
  | waiting
  | running (rest : List (BoundStep V F H)) (current : Json)
  | done (result : Json)
  | failed

structure LevelState (V F H : Type) where
  payload : Json
  tasks : List (ExecutionEntry V F H × TaskState V F H)

namespace LevelState

def initial (data : Json) (level : List (ExecutionEntry V F H)) : LevelState V F H :=
  ⟨data, level.map (fun entry => (entry, .waiting))⟩

def isRunning : ExecutionEntry V F H × TaskState V F H → Bool
  | (_, .running _ _) => true
  | _ => false

/-- How many workers are busy. -/
def active (state : LevelState V F H) : Nat := state.tasks.countP isRunning

/-- The result slots, without the empty ones. -/
def results (state : LevelState V F H) : List (Path × Json) :=
  state.tasks.filterMap (fun task =>
    match task.2 with
    | .done result => some (task.1.path, result)
    | _ => none)

def setTask (state : LevelState V F H) (place : Nat) (entry : ExecutionEntry V F H)
    (task : TaskState V F H) : LevelState V F H :=
  { state with tasks := state.tasks.set place (entry, task) }

end LevelState

/-- An in-place change at or below one path. -/
def Touches (place : Path) (before after : Json) : Prop :=
  after = before ∨ ∃ value, replaceAt before place value = .ok after

section Schedules

variable [VersionValue V] (mode : Mode) (setup : RunSetup V F H)

/-- What one step of an entry returns or raises. -/
def stepOutcome (entry : ExecutionEntry V F H) (step : BoundStep V F H) (current : Json)
    : Except Raised Json :=
  Py.outcome (runStep mode setup.telemetry setup.calls entry.ends step.func step.hooks
    step.context current) []

def stamped (step : BoundStep V F H) (migrated : Json) : Json :=
  stampVersion setup.versionProperty (VersionValue.str step.context.target.id.version) migrated

/-- One move of one task. A waiting task needs a free worker. -/
inductive TaskStep (workers : Nat) : LevelState V F H → LevelState V F H → Prop where
  | start {state : LevelState V F H} {place : Nat} {entry : ExecutionEntry V F H} {value : Json}
      (task : state.tasks[place]? = some (entry, .waiting)) (free : state.active < workers)
      (read : entry.path.get state.payload = .ok value)
      : TaskStep workers state (state.setTask place entry (.running entry.boundSteps value))
  | unreadable {state : LevelState V F H} {place : Nat} {entry : ExecutionEntry V F H}
      {raised : Raised} (task : state.tasks[place]? = some (entry, .waiting))
      (free : state.active < workers) (read : entry.path.get state.payload = .error raised)
      : TaskStep workers state (state.setTask place entry .failed)
  | step {state : LevelState V F H} {place : Nat} {entry : ExecutionEntry V F H}
      {step : BoundStep V F H} {rest : List (BoundStep V F H)} {current migrated payload : Json}
      (task : state.tasks[place]? = some (entry, .running (step :: rest) current))
      (ran : stepOutcome mode setup entry step current = .ok migrated)
      (touches : Touches entry.path state.payload payload)
      : TaskStep workers state ({ state with payload }.setTask place entry
          (.running rest (stamped setup step migrated)))
  | raise {state : LevelState V F H} {place : Nat} {entry : ExecutionEntry V F H}
      {step : BoundStep V F H} {rest : List (BoundStep V F H)} {current payload : Json}
      {raised : Raised}
      (task : state.tasks[place]? = some (entry, .running (step :: rest) current))
      (ran : stepOutcome mode setup entry step current = .error raised)
      (touches : Touches entry.path state.payload payload)
      : TaskStep workers state ({ state with payload }.setTask place entry .failed)
  | finish {state : LevelState V F H} {place : Nat} {entry : ExecutionEntry V F H}
      {current : Json} (task : state.tasks[place]? = some (entry, .running [] current))
      : TaskStep workers state (state.setTask place entry (.done current))

/-- The states of a level that some schedule reaches. -/
def LevelReaches (workers : Nat) : LevelState V F H → LevelState V F H → Prop :=
  Relation.ReflTransGen (TaskStep mode setup workers)

def LevelState.AllDone (state : LevelState V F H) : Prop :=
  ∀ task ∈ state.tasks, ∃ result, task.2 = .done result

def LevelState.AnyFailed (state : LevelState V F H) : Prop :=
  ∃ task ∈ state.tasks, task.2 = .failed

/-- How a level may end: with the payload that its results lead to, or with an error. -/
inductive LevelOutcome (workers : Nat) (data : Json) (level : List (ExecutionEntry V F H))
    : Option Json → Prop where
  | returned {state : LevelState V F H}
      (reached : LevelReaches mode setup workers (.initial data level) state)
      (done : state.AllDone)
      : LevelOutcome workers data level (applyResults state.payload state.results).toOption
  | raised {state : LevelState V F H}
      (reached : LevelReaches mode setup workers (.initial data level) state)
      (failed : state.AnyFailed)
      : LevelOutcome workers data level none

/-- How a run over all levels may end. -/
inductive PoolRun (workers : Nat) : List (List (ExecutionEntry V F H)) → Json → Option Json → Prop
  where
  | nil (data : Json) : PoolRun workers [] data (some data)
  | cons {level : List (ExecutionEntry V F H)} {rest : List (List (ExecutionEntry V F H))}
      {data next : Json} {out : Option Json}
      (first : LevelOutcome mode setup workers data level (some next))
      (later : PoolRun workers rest next out)
      : PoolRun workers (level :: rest) data out
  | fail {level : List (ExecutionEntry V F H)} {rest : List (List (ExecutionEntry V F H))}
      {data : Json} (first : LevelOutcome mode setup workers data level none)
      : PoolRun workers (level :: rest) data none

end Schedules

inductive Backend where
  | threaded (maxWorkers : Int)
  | process (maxWorkers : Int)
  | async (maxWorkers : Int)
  deriving DecidableEq

namespace Backend

def isProcess : Backend → Bool
  | .process _ => true
  | .threaded _ | .async _ => false

end Backend

/-- `ProcessStrategy.invoke`: a migration is submitted to a pool of processes. -/
def Calls.inProcess (calls : Calls V F H) : Calls V F H :=
  { calls with
    migrate := fun func data =>
      match calls.unpicklable func with
      | some error => .error error
      | none => calls.migrate func data }

/-- The final payloads, or `none` for an error, that a backend may end a plan with. An
asynchronous one is awaited.
-/
def Backend.Ends [VersionValue V] (setup : RunSetup V F H) (plan : ExecutionPlan V F H)
    (payload : Json) (out : Option Json) : Backend → Prop
  | .threaded maxWorkers =>
      if 1 < maxWorkers then PoolRun .sync setup maxWorkers.toNat plan.levels payload out
      else (Py.outcome (executeLevels .sync setup plan.levels payload) []).toOption = out
  | .process _ =>
      (Py.outcome (executeLevels .sync { setup with calls := setup.calls.inProcess } plan.levels
        payload) []).toOption = out
  | .async maxWorkers =>
      if 1 < maxWorkers then PoolRun .async setup maxWorkers.toNat plan.levels payload out
      else (Py.outcome (executeLevels .async setup plan.levels payload) []).toOption = out

/-- Every migration of the plan can be sent to another process. -/
def ExecutionPlan.Pickles (calls : Calls V F H) (plan : ExecutionPlan V F H) : Prop :=
  ∀ level ∈ plan.levels, ∀ entry ∈ level, ∀ step ∈ entry.boundSteps,
    calls.unpicklable step.func = none

/-- The results of a level lead to the same payload in any order. -/
def OrderFree (level : List (ExecutionEntry V F H)) : Prop :=
  ∀ results other : List (Path × Json),
    results.map Prod.fst = level.map ExecutionEntry.path → results.Perm other →
    ∀ before, (applyResults before results).toOption = (applyResults before other).toOption

/-- Every run with any backend ends with one payload, or every one with an error, and so does
putting back the results of a level in any order.
-/
def ExecutionPlan.BackendsAgree [VersionValue V] (setup : RunSetup V F H)
    (plan : ExecutionPlan V F H) (payload : Json) : Prop :=
  (∃ ended, ∀ (backend : Backend) (out : Option Json),
    backend.Ends setup plan payload out ↔ out = ended)
  ∧ ∀ level ∈ plan.levels, OrderFree level

/-- A payload changed in place at or below some paths. -/
inductive Scribbled (started : Path → Prop) (data : Json) : Json → Prop where
  | refl : Scribbled started data data
  | step {payload next value : Json} {place : Path} (earlier : Scribbled started data payload)
      (own : started place) (replaced : replaceAt payload place value = .ok next)
      : Scribbled started data next

theorem Scribbled.mono {started wider : Path → Prop} {data payload : Json}
    (scribbled : Scribbled started data payload) (more : ∀ place, started place → wider place)
    : Scribbled wider data payload := by
  induction scribbled with
  | refl => exact .refl
  | step _ own replaced ih => exact .step ih (more _ own) replaced

theorem Scribbled.touch {started : Path → Prop} {data payload next : Json} {place : Path}
    (scribbled : Scribbled started data payload) (own : started place)
    (touches : Touches place payload next)
    : Scribbled started data next := by
  rcases touches with rfl | ⟨value, replaced⟩
  · exact scribbled
  · exact .step scribbled own replaced

/-- A place apart from all changes reads as before. -/
theorem Scribbled.get {started : Path → Prop} {data payload : Json} {place : Path}
    (scribbled : Scribbled started data payload)
    (apart : ∀ other, started other → other.Apart place)
    : place.get payload = place.get data := by
  induction scribbled with
  | refl => rfl
  | step _ own replaced ih => rw [Path.get_replaceAt_apart replaced (apart _ own), ih]

/-- Results hide what was changed at one of their paths. -/
theorem applyAll_replaceAt {results : List (Path × Json)}
    (apart : results.Pairwise (fun left right => left.1.Apart right.1)) {payload next value : Json}
    {place : Path} (own : place ∈ results.map Prod.fst)
    (replaced : replaceAt payload place value = .ok next)
    : applyAll next results = applyAll payload results := by
  induction results generalizing payload next with
  | nil => simp at own
  | cons result rest ih =>
      obtain ⟨away, others⟩ := List.pairwise_cons.mp apart
      simp only [applyAll, List.foldlM_cons]
      by_cases same : place = result.1
      · subst same
        rw [replaceAt_replaceAt replaced]
      · have later : place ∈ rest.map Prod.fst := by simpa [same] using own
        obtain ⟨other, inside, rfl⟩ := List.mem_map.mp later
        have swapped := replaceAt_comm payload (away other inside) result.2 value
        rw [replaced] at swapped
        cases second : replaceAt payload result.1 result.2 with
        | error raised =>
            rw [second] at swapped
            have failed : (replaceAt next result.1 result.2).toOption = none := by
              simpa [Except.toOption] using swapped.symm
            rw [failed]
            rfl
        | ok updated =>
            obtain ⟨final, left, right⟩ := replaceAt_apart_isOk replaced (away other inside).symm
              second
            rw [left]
            exact ih others later right

theorem Scribbled.applyAll_eq {results : List (Path × Json)} {data payload : Json}
    (scribbled : Scribbled (· ∈ results.map Prod.fst) data payload)
    (apart : results.Pairwise (fun left right => left.1.Apart right.1))
    : applyAll payload results = applyAll data results := by
  induction scribbled with
  | refl => rfl
  | step _ own replaced ih => rw [applyAll_replaceAt apart own replaced, ih]

/-- Results at paths apart may be put back in any order. -/
theorem applyAll_perm {results other : List (Path × Json)} (perm : results.Perm other)
    (apart : results.Pairwise (fun left right => left.1.Apart right.1)) (data : Json)
    : applyAll data results = applyAll data other := by
  induction perm generalizing data with
  | nil => rfl
  | cons result _ ih =>
      simp only [applyAll, List.foldlM_cons]
      congr 1
      funext next
      exact ih (List.pairwise_cons.mp apart).2 next
  | swap first second rest =>
      have away := (List.pairwise_cons.mp apart).1 first (by simp)
      have swapped := replaceAt_comm data away second.2 first.2
      simp only [applyAll, List.foldlM_cons, ← bind_assoc]
      exact congrArg (· >>= _) swapped
  | trans left _ ihLeft ihRight =>
      rw [ihLeft apart]
      exact ihRight (left.pairwise apart (fun apart => apart.symm)) data

section Schedules

variable [VersionValue V] (mode : Mode) (setup : RunSetup V F H)

/-- What an entry gives on the payload of its level. -/
def ExecutionEntry.result (data : Json) (entry : ExecutionEntry V F H) : Except Raised Json :=
  (entry.path.get data).bind (entry.outcome mode setup)

/-- A task is on the way to the result of its entry. -/
def TaskOk (data : Json) : ExecutionEntry V F H × TaskState V F H → Prop
  | (_, .waiting) => True
  | (entry, .running rest current) =>
      entry.result mode setup data = Py.outcome (executeSteps mode setup entry.ends rest current) []
  | (entry, .done result) => entry.result mode setup data = .ok result
  | (entry, .failed) => ∃ raised, entry.result mode setup data = .error raised

/-- The path of a task that has read its entry. -/
def LevelState.Started (state : LevelState V F H) (place : Path) : Prop :=
  ∃ task ∈ state.tasks, task.2 ≠ .waiting ∧ task.1.path = place

/-- What holds between a level and a state that it reaches. -/
structure LevelInvariant (data : Json) (level : List (ExecutionEntry V F H))
    (state : LevelState V F H) : Prop where
  entries : state.tasks.map Prod.fst = level
  tasks : ∀ task ∈ state.tasks, TaskOk mode setup data task
  payload : Scribbled state.Started data state.payload


variable {mode setup} {data : Json} {level : List (ExecutionEntry V F H)}

theorem LevelInvariant.initial : LevelInvariant mode setup data level (.initial data level) where
  entries := by simp [LevelState.initial, List.map_map, Function.comp_def]
  tasks := by
    intro task member
    obtain ⟨entry, _, rfl⟩ := List.mem_map.mp member
    trivial
  payload := .refl

/-- Moving one task on, with changes at its own path only. -/
theorem LevelInvariant.setTask {state : LevelState V F H}
    (holds : LevelInvariant mode setup data level state) {place : Nat}
    {entry : ExecutionEntry V F H} {old next : TaskState V F H}
    (found : state.tasks[place]? = some (entry, old)) {payload : Json}
    (touches : Touches entry.path state.payload payload) (moved : next ≠ .waiting)
    (ok : TaskOk mode setup data (entry, next))
    : LevelInvariant mode setup data level ({ state with payload }.setTask place entry next) := by
  obtain ⟨inside, at_⟩ := List.getElem?_eq_some_iff.mp found
  have own : LevelState.Started ({ state with payload }.setTask place entry next) entry.path :=
    ⟨(entry, next), List.mem_set inside _, moved, rfl⟩
  have kept : ∀ path, state.Started path →
      LevelState.Started ({ state with payload }.setTask place entry next) path := by
    rintro path ⟨task, member, started, rfl⟩
    obtain ⟨other, bound, rfl⟩ := List.getElem_of_mem member
    by_cases same : other = place
    · subst same
      rw [at_]
      exact own
    · refine ⟨state.tasks[other], ?_, started, rfl⟩
      have unchanged : (state.tasks.set place (entry, next))[other]? = some state.tasks[other] := by
        rw [List.getElem?_set_ne (Ne.symm same), List.getElem?_eq_getElem bound]
      exact List.mem_of_getElem? unchanged
  refine ⟨?_, ?_, ?_⟩
  · rw [← holds.entries]
    simp only [LevelState.setTask, List.map_set]
    obtain rfl : state.tasks[place].1 = entry := by rw [at_]
    rw [← List.getElem_map Prod.fst (h := by simpa using inside), List.set_getElem_self]
  · intro task member
    rcases List.mem_or_eq_of_mem_set member with earlier | rfl
    · exact holds.tasks task earlier
    · exact ok
  · exact (holds.payload.mono kept).touch own touches

/-- A waiting task still reads what its level started with. -/
theorem LevelInvariant.read_eq {state : LevelState V F H}
    (holds : LevelInvariant mode setup data level state)
    (apart : level.Pairwise (fun left right => left.path.Apart right.path)) {place : Nat}
    {entry : ExecutionEntry V F H} (found : state.tasks[place]? = some (entry, .waiting))
    : entry.path.get state.payload = entry.path.get data := by
  refine holds.payload.get ?_
  rintro _ ⟨task, member, started, rfl⟩
  have away : state.tasks.Pairwise (fun left right => left.1.path.Apart right.1.path) :=
    by
    rw [← holds.entries, List.pairwise_map] at apart
    exact apart
  obtain ⟨inside, at_⟩ := List.getElem?_eq_some_iff.mp found
  obtain ⟨other, bound, rfl⟩ := List.getElem_of_mem member
  rcases Nat.lt_trichotomy other place with before | same | after
  · have := List.pairwise_iff_getElem.mp away other place bound inside before
    rwa [at_] at this
  · subst same
    rw [at_] at started
    exact (started rfl).elim
  · have := List.pairwise_iff_getElem.mp away place other inside bound after
    rw [at_] at this
    exact this.symm

/-- One move of a schedule keeps the invariant, one case for each kind of move. -/
theorem LevelInvariant.step {workers : Nat} {state next : LevelState V F H}
    (holds : LevelInvariant mode setup data level state)
    (apart : level.Pairwise (fun left right => left.path.Apart right.path))
    (step : TaskStep mode setup workers state next)
    : LevelInvariant mode setup data level next := by
  have steps := fun entry : ExecutionEntry V F H => executeSteps_oblivious mode setup entry.ends
  cases step with
  | start task free read =>
      refine holds.setTask task (.inl rfl) (by simp) ?_
      rw [holds.read_eq apart task] at read
      simp [TaskOk, ExecutionEntry.result, read, Except.bind, ExecutionEntry.outcome]
  | @unreadable place entry raised task free read =>
      refine holds.setTask task (.inl rfl) (by simp) ⟨raised, ?_⟩
      rw [holds.read_eq apart task] at read
      simp [ExecutionEntry.result, read, Except.bind]
  | step task ran touches =>
      refine holds.setTask task touches (by simp) ?_
      have before := holds.tasks _ (List.mem_of_getElem? task)
      simp only [TaskOk] at before ⊢
      rw [before, executeSteps, Py.outcome_bind_of_oblivious (fun _ => steps _ _ _)]
      rw [stepOutcome] at ran
      rw [ran]
      rfl
  | @raise place entry _ _ _ _ raised task ran touches =>
      refine holds.setTask task touches (by simp) ⟨raised, ?_⟩
      have before := holds.tasks _ (List.mem_of_getElem? task)
      simp only [TaskOk] at before
      rw [before, executeSteps, Py.outcome_bind_of_oblivious (fun _ => steps _ _ _)]
      rw [stepOutcome] at ran
      rw [ran]
      rfl
  | finish task =>
      have before := holds.tasks _ (List.mem_of_getElem? task)
      exact holds.setTask task (.inl rfl) (by simp) before

theorem LevelReaches.invariant {workers : Nat} {state : LevelState V F H}
    (reached : LevelReaches mode setup workers (.initial data level) state)
    (apart : level.Pairwise (fun left right => left.path.Apart right.path))
    : LevelInvariant mode setup data level state := by
  induction reached with
  | refl => exact .initial
  | tail _ step ih => exact ih.step apart step

omit [VersionValue V] in
theorem readLevel_paths {E : Type} {path : E → Path} {act : E → Json → Option Json} {level : List E}
    {results : List (Path × Json)} (read : readLevel path act data level = some results)
    : results.map Prod.fst = level.map path := by
  induction level generalizing results with
  | nil =>
      obtain rfl : [] = results := by simpa [readLevel] using read
      rfl
  | cons entry rest ih =>
      obtain ⟨result, _, later⟩ := Option.bind_eq_some_iff.mp read
      obtain ⟨others, inner, rfl⟩ := Option.map_eq_some_iff.mp later
      simp [ih inner]

/-- When every task is done, the results are those of reading the level at once. -/
theorem readLevel_of_done {tasks : List (ExecutionEntry V F H × TaskState V F H)} (payload : Json)
    (ok : ∀ task ∈ tasks, TaskOk mode setup data task)
    (done : ∀ task ∈ tasks, ∃ result, task.2 = .done result)
    : readLevel ExecutionEntry.path (fun entry value => (entry.outcome mode setup value).toOption)
        data (tasks.map Prod.fst)
      = some (LevelState.results ⟨payload, tasks⟩) := by
  induction tasks with
  | nil => rfl
  | cons task rest ih =>
      have later := ih (fun other member => ok other (List.mem_cons_of_mem task member))
        (fun other member => done other (List.mem_cons_of_mem task member))
      obtain ⟨entry, progress⟩ := task
      obtain ⟨result, finished⟩ := done (entry, progress) (by simp)
      obtain rfl : progress = .done result := finished
      have own : entry.result mode setup data = .ok result := ok (entry, .done result) (by simp)
      simp only [List.map_cons, readLevel, later]
      rw [ExecutionEntry.result] at own
      cases read : entry.path.get data with
      | error raised => simp [read, Except.bind] at own
      | ok value =>
          simp only [read, Except.bind] at own
          simp [Except.toOption, own, LevelState.results]

/-- How many moves a task has left at most. -/
def TaskState.work (entry : ExecutionEntry V F H) : TaskState V F H → Nat
  | .waiting => entry.boundSteps.length + 2
  | .running rest _ => rest.length + 1
  | .done _ | .failed => 0

def LevelState.work (state : LevelState V F H) : Nat :=
  (state.tasks.map (fun task => task.2.work task.1)).sum

omit [VersionValue V] in
theorem LevelState.work_setTask_lt {state : LevelState V F H} {place : Nat}
    {entry : ExecutionEntry V F H} {old next : TaskState V F H}
    (found : state.tasks[place]? = some (entry, old)) (less : next.work entry < old.work entry)
    : (state.setTask place entry next).work < state.work := by
  obtain ⟨payload, tasks⟩ := state
  simp only [LevelState.work, LevelState.setTask]
  induction tasks generalizing place with
  | nil => simp at found
  | cons task rest ih =>
      cases place with
      | zero =>
          obtain rfl : task = (entry, old) := by simpa using found
          simpa using less
      | succ place => simpa using ih (by simpa using found)

theorem TaskStep.work_lt {workers : Nat} {state next : LevelState V F H}
    (step : TaskStep mode setup workers state next)
    : next.work < state.work := by
  cases step with
  | start task | unreadable task | raise task | finish task | step task =>
      exact LevelState.work_setTask_lt task (by simp [TaskState.work])

/-- A level that is not over has a task that can move, as long as there is a worker. -/
theorem exists_taskStep {workers : Nat} (enough : 0 < workers) {state : LevelState V F H}
    (open_ : ¬ state.AllDone) (clean : ¬ state.AnyFailed)
    : ∃ next, TaskStep mode setup workers state next := by
  by_cases idle : ∀ task ∈ state.tasks, LevelState.isRunning task = false
  · have free : state.active < workers := by
      have none : state.active = 0 := by
        rw [LevelState.active, List.countP_eq_zero]
        intro task member
        simp [idle task member]
      omega
    simp only [LevelState.AllDone, not_forall] at open_
    obtain ⟨⟨entry, progress⟩, member, unfinished⟩ := open_
    obtain ⟨place, found⟩ := List.mem_iff_getElem?.mp member
    cases progress with
    | waiting =>
        cases read : entry.path.get state.payload with
        | ok value => exact ⟨_, .start found free read⟩
        | error raised => exact ⟨_, .unreadable found free read⟩
    | running rest current => cases idle _ member
    | done result => exact (unfinished ⟨result, rfl⟩).elim
    | failed => exact (clean ⟨_, member, rfl⟩).elim
  · simp only [not_forall] at idle
    obtain ⟨⟨entry, progress⟩, member, busy⟩ := idle
    obtain ⟨place, found⟩ := List.mem_iff_getElem?.mp member
    cases progress with
    | running rest current =>
        cases rest with
        | nil => exact ⟨_, .finish found⟩
        | cons step rest =>
            cases ran : stepOutcome mode setup entry step current with
            | ok migrated => exact ⟨_, .step found ran (.inl rfl)⟩
            | error raised => exact ⟨_, .raise found ran (.inl rfl)⟩
    | waiting | done _ | failed => simp [LevelState.isRunning] at busy

/-- Every schedule can be continued until all tasks are done or one has failed, by induction
on the work left.
-/
theorem exists_levelReaches {workers : Nat} (enough : 0 < workers) (state : LevelState V F H)
    : ∃ final, LevelReaches mode setup workers state final
        ∧ (final.AllDone ∨ final.AnyFailed) := by
  induction left : state.work using Nat.strong_induction_on generalizing state with
  | _ work ih =>
      by_cases finished : state.AllDone ∨ state.AnyFailed
      · exact ⟨state, .refl, finished⟩
      · obtain ⟨open_, clean⟩ := not_or.mp finished
        obtain ⟨next, step⟩ := @exists_taskStep _ _ _ _ mode setup _ enough _ open_ clean
        obtain ⟨final, reached, ended⟩ := ih next.work (left ▸ step.work_lt) next rfl
        exact ⟨final, .head step reached, ended⟩

/-- Every schedule of a level ends with what the level gives at once. -/
theorem levelOutcome_iff {workers : Nat} (enough : 0 < workers)
    (apart : level.Pairwise (fun left right => left.path.Apart right.path)) (out : Option Json)
    : LevelOutcome mode setup workers data level out
      ↔ out = runLevel ExecutionEntry.path
          (fun entry value => (entry.outcome mode setup value).toOption) data level := by
  have returned : ∀ {state}, LevelReaches mode setup workers (.initial data level) state →
      state.AllDone → (applyResults state.payload state.results).toOption
        = runLevel ExecutionEntry.path
            (fun entry value => (entry.outcome mode setup value).toOption) data level := by
    intro state reached done
    have holds := reached.invariant apart
    have results := readLevel_of_done state.payload holds.tasks done
    rw [holds.entries] at results
    have paths := readLevel_paths results
    have started : ∀ place, state.Started place → place ∈ state.results.map Prod.fst := by
      rintro place ⟨task, member, _, rfl⟩
      rw [paths, ← holds.entries, List.map_map]
      exact List.mem_map_of_mem member
    have away : state.results.Pairwise (fun left right => left.1.Apart right.1) := by
      rw [← List.pairwise_map (f := Prod.fst), paths, List.pairwise_map]
      exact apart
    rw [toOption_applyResults, (holds.payload.mono started).applyAll_eq away, runLevel, results]
    rfl
  have raised : ∀ {state}, LevelReaches mode setup workers (.initial data level) state →
      state.AnyFailed → runLevel ExecutionEntry.path
            (fun entry value => (entry.outcome mode setup value).toOption) data level = none := by
    rintro state reached ⟨⟨entry, progress⟩, member, failed⟩
    have holds := reached.invariant apart
    obtain rfl : progress = .failed := failed
    obtain ⟨error, own⟩ := holds.tasks _ member
    have inside : entry ∈ level := holds.entries ▸ List.mem_map_of_mem (f := Prod.fst) member
    have nothing : (entry.path.get data).toOption.bind
        (fun value => (entry.outcome mode setup value).toOption) = none := by
      rw [ExecutionEntry.result] at own
      cases read : entry.path.get data with
      | error _ => rfl
      | ok value =>
          simp only [read, Except.bind] at own
          simp [Except.toOption, own]
    rw [runLevel, readLevel_of_none inside nothing]
    rfl
  constructor
  · rintro (⟨reached, done⟩ | ⟨reached, failed⟩)
    · exact returned reached done
    · exact (raised reached failed).symm
  · rintro rfl
    obtain ⟨final, reached, done | failed⟩ := @exists_levelReaches _ _ _ _ mode setup workers enough
      (.initial data level)
    · rw [← returned reached done]
      exact .returned reached done
    · rw [raised reached failed]
      exact .raised reached failed

/-- Every schedule of a run ends with what the level loop gives, by induction over the levels. -/
theorem poolRun_iff {workers : Nat} (enough : 0 < workers)
    {levels : List (List (ExecutionEntry V F H))}
    (apart : ∀ level ∈ levels,
      level.Pairwise (fun left right => left.path.Apart right.path)) (out : Option Json)
    : PoolRun mode setup workers levels data out
      ↔ out = (Py.outcome (executeLevels mode setup levels data) []).toOption := by
  rw [toOption_executeLevels]
  induction levels generalizing data out with
  | nil =>
      constructor
      · rintro ⟨⟩
        rfl
      · rintro rfl
        exact .nil data
  | cons level rest ih =>
      have first := @levelOutcome_iff _ _ _ _ mode setup data level workers enough (apart level (by simp))
      have later := fun next => @ih next
        (fun other member => apart other (List.mem_cons_of_mem level member))
      rw [runLevels, List.foldlM_cons]
      constructor
      · rintro (_ | ⟨ran, continues⟩ | ran)
        · rw [← (first _).mp ran]
          exact (later _ _).mp continues
        · rw [← (first _).mp ran]
          rfl
      · rintro rfl
        cases ran : runLevel ExecutionEntry.path
            (fun entry value => (entry.outcome mode setup value).toOption) data level with
        | none => exact .fail ((first none).mpr ran.symm)
        | some next => exact .cons ((first (some next)).mpr ran.symm) ((later next _).mpr rfl)

theorem executeLevels_sync_eq_async (synchronous : setup.calls.Synchronous)
    (levels : List (List (ExecutionEntry V F H)))
    : executeLevels .sync setup levels = executeLevels .async setup levels := by
  have steps : ∀ ends (steps : List (BoundStep V F H)),
      executeSteps .sync setup ends steps = executeSteps .async setup ends steps := by
    intro ends steps
    induction steps with
    | nil => rfl
    | cons step rest ih =>
        funext value
        simp only [executeSteps, ih, runStep_sync_eq_async synchronous]
  have entry : runEntry .sync setup = runEntry .async setup := by
    funext data entry
    simp only [runEntry, ExecutionEntry.execute, steps]
  induction levels with
  | nil => rfl
  | cons level rest ih =>
      funext data
      simp only [executeLevels, executeLevel, ih, entry]

end Schedules

-----------------------------------------------------------------------------------------
-- Processes
-----------------------------------------------------------------------------------------

section Processes

variable [VersionValue V]

omit [VersionValue V] in
/-- A program whose first part raises raises. -/
theorem raises_of_first {α β : Type} {first : ExecM V α} {next : α → ExecM V β}
    {trace : List (StepEvent V)} (raises : (Py.outcome first trace).toOption = none)
    : (Py.outcome (first >>= next) trace).toOption = none := by
  rw [Py.outcome_bind]
  cases ran : Py.outcome first trace with
  | error error => rfl
  | ok value =>
      rw [ran] at raises
      cases raises

omit [VersionValue V] in
/-- A program that goes on to raise raises. -/
theorem raises_bind {α β : Type} {first : ExecM V α} {next : α → ExecM V β}
    (raises : ∀ value trace, (Py.outcome (next value) trace).toOption = none)
    (trace : List (StepEvent V))
    : (Py.outcome (first >>= next) trace).toOption = none := by
  rw [Py.outcome_bind]
  cases Py.outcome first trace with
  | error error => rfl
  | ok value => exact raises value _

omit [VersionValue V] in
/-- A step whose migration returned nothing raises, whatever its scopes suppress. -/
theorem finishStep_raises (telemetry : Telemetry) (step : StepContext V) (stack : List (Nat × Scope))
    (pending : Option Raised) (trace : List (StepEvent V))
    : (Py.outcome (finishStep telemetry step stack none pending) trace).toOption = none := by
  refine raises_bind (fun left => ?_) trace
  cases left with
  | some error => exact raises_bind (fun _ _ => rfl)
  | none => exact raises_bind (fun _ _ => rfl)

section Step

variable (mode : Mode) (telemetry : Telemetry) {calls : Calls V F H} (ends : EntryEnds V) {func : F}
  (hooks : List H) (step : StepContext V)

/-- A migration that can be pickled runs as it does here. -/
theorem runStep_pickled (pickles : calls.unpicklable func = none) (data : Json)
    : runStep mode telemetry calls.inProcess ends func hooks step data
      = runStep mode telemetry calls ends func hooks step data := by
  have migrate : calls.inProcess.migrate func data = calls.migrate func data := by
    simp only [Calls.inProcess, pickles]
  simp only [runStep, migrateStep, migrate]
  rfl

/-- A migration that cannot be pickled fails its step. -/
theorem runStep_unpickled {error : Raised} (refused : calls.unpicklable func = some error)
    (data : Json) (trace : List (StepEvent V))
    : (Py.outcome (runStep mode telemetry calls.inProcess ends func hooks step data)
        trace).toOption = none := by
  have migrate : calls.inProcess.migrate func data = .error error := by
    simp only [Calls.inProcess, refused]
  refine raises_bind (fun _ => raises_bind (fun entered => ?_)) trace
  obtain ⟨stack, pending⟩ := entered
  cases pending with
  | some error => exact finishStep_raises telemetry step stack (some error)
  | none =>
      simp only [migrateStep, migrate, Except.bind, bind_assoc]
      refine raises_bind (fun _ => ?_)
      split
      · rw [bind_assoc]
        exact raises_bind (fun _ => finishStep_raises telemetry step stack _)
      · exact finishStep_raises telemetry step stack _

end Step

variable (setup : RunSetup V F H)

/-- The setup of a run whose migrations run in a pool of processes. -/
def RunSetup.inProcess : RunSetup V F H := { setup with calls := setup.calls.inProcess }

/-- Steps of which one cannot be pickled raise in processes. -/
theorem executeSteps_unpickled (mode : Mode) (ends : EntryEnds V) {steps : List (BoundStep V F H)}
    {step : BoundStep V F H} (inside : step ∈ steps) {error : Raised}
    (refused : setup.calls.unpicklable step.func = some error) (value : Json)
    (trace : List (StepEvent V))
    : (Py.outcome (executeSteps mode setup.inProcess ends steps value) trace).toOption = none := by
  induction steps generalizing value trace with
  | nil => cases inside
  | cons first rest ih =>
      rcases List.mem_cons.mp inside with rfl | later
      · exact raises_of_first (runStep_unpickled mode setup.telemetry ends step.hooks step.context
          refused value trace)
      · exact raises_bind (fun migrated => ih later _) trace

/-- Steps that can be pickled do in processes what they do here. -/
theorem executeSteps_pickled (mode : Mode) (ends : EntryEnds V) {steps : List (BoundStep V F H)}
    (pickles : ∀ step ∈ steps, setup.calls.unpicklable step.func = none) (value : Json)
    : executeSteps mode setup.inProcess ends steps value
      = executeSteps mode setup ends steps value := by
  induction steps generalizing value with
  | nil => rfl
  | cons step rest ih =>
      have same := runStep_pickled mode setup.telemetry ends step.hooks step.context
        (pickles step (by simp)) value
      have later := fun next => ih (fun other member => pickles other (List.mem_cons_of_mem _ member))
        next
      simp only [RunSetup.inProcess] at later
      simp only [executeSteps, RunSetup.inProcess, same, later]

/-- A plan with a migration that cannot be pickled ends in processes with an error. -/
theorem executeLevels_unpickled (mode : Mode) {levels : List (List (ExecutionEntry V F H))}
    (refused : ¬ ∀ level ∈ levels, ∀ entry ∈ level, ∀ step ∈ entry.boundSteps,
      setup.calls.unpicklable step.func = none)
    (data : Json)
    : (Py.outcome (executeLevels mode setup.inProcess levels data) []).toOption = none := by
  simp only [not_forall, ← ne_eq, Option.ne_none_iff_exists'] at refused
  obtain ⟨level, member, entry, inside, step, own, error, refused⟩ := refused
  rw [toOption_executeLevels]
  exact runLevels_of_refused member inside (fun value =>
    executeSteps_unpickled setup mode entry.ends own refused value []) data

/-- A plan whose migrations can be pickled ends in processes as it does here. -/
theorem executeLevels_pickled (mode : Mode) {levels : List (List (ExecutionEntry V F H))}
    (pickles : ∀ level ∈ levels, ∀ entry ∈ level, ∀ step ∈ entry.boundSteps,
      setup.calls.unpicklable step.func = none)
    (data : Json)
    : (Py.outcome (executeLevels mode setup.inProcess levels data) []).toOption
      = (Py.outcome (executeLevels mode setup levels data) []).toOption := by
  rw [toOption_executeLevels, toOption_executeLevels]
  refine runLevels_congr (List.forall₂_same.mpr (fun level member =>
    List.forall₂_same.mpr (fun entry inside => ⟨rfl, funext (fun value => ?_)⟩))) data
  have same := executeSteps_pickled setup mode entry.ends (pickles level member entry inside) value
  exact congrArg (fun program => (Py.outcome program []).toOption) same

end Processes

/-- The entries of a level of a built plan are apart. -/
theorem buildPlan_apart [DecidableEq V] {bindings : MigrationBindings V F H} {plan : PathPlan V}
    {payload : Json} {execution : ExecutionPlan V F H}
    (built : buildPlan bindings plan payload = .ok execution)
    (distinct : (plan.entries.map PathPlanEntry.path).Nodup)
    : ∀ level ∈ execution.levels,
        level.Pairwise (fun left right => left.path.Apart right.path) := by
  intro level member
  obtain ⟨_, _, bound⟩ := buildPlan_ok built
  have same : execution.levels.map (List.map ExecutionEntry.path)
      = plan.levels.map (List.map PathPlanEntry.path) := by
    rw [eq_comm, ← List.forall₂_eq_eq_eq, List.forall₂_map_left_iff, List.forall₂_map_right_iff]
    refine bound.imp (fun entries level alike => ?_)
    rw [← List.forall₂_eq_eq_eq, List.forall₂_map_left_iff, List.forall₂_map_right_iff]
    refine alike.imp (fun entry bound run => ?_)
    rw [ExecutionEntry.path, (bindEntry_ok run).1]
  obtain ⟨entries, inside, paths⟩ := List.mem_map.mp
    (same ▸ List.mem_map_of_mem (f := List.map ExecutionEntry.path) member)
  rw [← List.pairwise_map (f := ExecutionEntry.path), ← paths, List.pairwise_map]
  exact levelsFrom_apart distinct _ entries inside

section Agreement

variable [VersionValue V] [DecidableEq V] {setup : RunSetup V F H}

section Built

variable {bindings : MigrationBindings V F H} {plan : PathPlan V} {payload : Json}
  {execution : ExecutionPlan V F H}

/-- A backend that can call the migrations of a plan ends it as one sequential run does. -/
theorem Backend.ends_of_pickles (built : buildPlan bindings plan payload = .ok execution)
    (distinct : (plan.entries.map PathPlanEntry.path).Nodup)
    (synchronous : setup.calls.Synchronous) {data : Json} {backend : Backend} {out : Option Json}
    (pickles : backend.isProcess = true → execution.Pickles setup.calls)
    : backend.Ends setup execution data out
      ↔ out = (Py.outcome (executeLevels .sync setup execution.levels data) []).toOption := by
  have apart := buildPlan_apart built distinct
  have same := executeLevels_sync_eq_async synchronous execution.levels
  cases backend with
  | threaded maxWorkers =>
      by_cases pool : 1 < maxWorkers
      · rw [Ends, if_pos pool, poolRun_iff (by omega) apart]
      · rw [Ends, if_neg pool, eq_comm]
  | process maxWorkers =>
      rw [← executeLevels_pickled setup .sync (pickles rfl) data, eq_comm]
      exact Iff.rfl
  | async maxWorkers =>
      by_cases pool : 1 < maxWorkers
      · rw [Ends, if_pos pool, poolRun_iff (by omega) apart, same]
      · rw [Ends, if_neg pool, eq_comm, same]

omit [DecidableEq V] in
/-- A pool of processes that cannot be sent a migration of a plan ends it with an error. -/
theorem Backend.ends_of_unpickled {data : Json} {backend : Backend} {out : Option Json}
    (isProcess : backend.isProcess = true) (refused : ¬ execution.Pickles setup.calls)
    : backend.Ends setup execution data out ↔ out = none := by
  cases backend with
  | process maxWorkers =>
      rw [← executeLevels_unpickled setup .sync refused data, eq_comm]
      exact Iff.rfl
  | threaded maxWorkers => cases isProcess
  | async maxWorkers => cases isProcess

end Built

end Agreement

theorem Calls.ofPure_synchronous (migrate : F → Json → Except Raised Json)
    : (Calls.ofPure migrate : Calls V F H).Synchronous where
  migrate func data result returned := by
    cases ran : migrate func data with
    | error raised => simp [Calls.ofPure, ran, Except.map] at returned
    | ok value =>
        refine ⟨value, ?_⟩
        simpa [Calls.ofPure, ran, Except.map, eq_comm] using returned
  before _ _ _ _ returned := .inl (Except.ok.inj returned).symm
  after _ _ _ _ _ returned := (Except.ok.inj returned).symm
  onError _ _ _ _ _ returned := (Except.ok.inj returned).symm

/-- Two users side by side. -/
def pairPayload : Json :=
  .obj [("left", .obj [("name", .str "Ada")]), ("right", .obj [])]

/-- The migration of a user as a lambda, which cannot be pickled. -/
def lambdaCalls : Calls Release Unit Unit :=
  { Calls.ofPure countMembers with
    unpicklable := fun _ => some (.exception "PicklingError: Can't pickle <lambda>") }

end Pyverge
