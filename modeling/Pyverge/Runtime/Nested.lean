import Pyverge.Registry.Runs
import Pyverge.Runtime.Plan

/-! Migrating nested entries.
The level loop reads each level from one payload and puts all its results back. Forgetting the
trace and which error came first, it computes the recursive rewriting of the payload.
-/

namespace Pyverge

open Py (Json)

variable {V F H : Type} [VersionValue V]

-----------------------------------------------------------------------------------------
-- Outcomes of the loops
-----------------------------------------------------------------------------------------

section Outcomes

variable (mode : Mode) (setup : RunSetup V F H)

theorem executeSteps_oblivious (ends : EntryEnds V) (steps : List (BoundStep V F H)) (value : Json)
    : Py.Oblivious (executeSteps mode setup ends steps value) := by
  induction steps generalizing value with
  | nil => exact .pure _
  | cons step rest ih => exact .bind (runStep_oblivious _ _ _ _ _ _ _ _) (fun _ => ih _)

/-- What running an entry on a value returns or raises. -/
def ExecutionEntry.outcome (entry : ExecutionEntry V F H) (value : Json) : Except Raised Json :=
  Py.outcome (executeSteps mode setup entry.ends entry.boundSteps value) []

theorem ExecutionEntry.execute_oblivious (entry : ExecutionEntry V F H) (value : Json)
    : Py.Oblivious (entry.execute mode setup value) :=
  .bind (executeSteps_oblivious _ _ _ _ _) (fun _ => .pure _)

theorem runEntry_oblivious (data : Json) (entry : ExecutionEntry V F H)
    : Py.Oblivious (runEntry mode setup data entry) :=
  .bind (settled_oblivious _) (fun _ => entry.execute_oblivious mode setup _)

theorem outcome_runEntry (data : Json) (entry : ExecutionEntry V F H)
    (trace : List (StepEvent V))
    : Py.outcome (runEntry mode setup data entry) trace
      = ((entry.path.get data).bind (entry.outcome mode setup)).map
          (fun result => (entry.path, result)) := by
  have steps := executeSteps_oblivious mode setup entry.ends entry.boundSteps
  rw [runEntry, Py.outcome_bind_of_oblivious (entry.execute_oblivious mode setup),
    outcome_settled]
  cases entry.path.get data with
  | error raised => rfl
  | ok value =>
      simp only [Except.bind, ExecutionEntry.execute, ExecutionEntry.outcome]
      rw [Py.outcome_bind_of_oblivious (fun _ => .pure _), steps value trace []]
      cases Py.outcome (executeSteps mode setup entry.ends entry.boundSteps value) [] <;> rfl

theorem executeLevel_oblivious (data : Json) (level : List (ExecutionEntry V F H))
    : Py.Oblivious (executeLevel mode setup data level) :=
  .bind (.mapM (runEntry_oblivious mode setup data) level) (fun _ => settled_oblivious _)

theorem executeLevels_oblivious (levels : List (List (ExecutionEntry V F H))) (data : Json)
    : Py.Oblivious (executeLevels mode setup levels data) := by
  induction levels generalizing data with
  | nil => exact .pure _
  | cons level rest ih => exact .bind (executeLevel_oblivious _ _ _ _) (fun _ => ih _)

theorem toOption_applyResults (results : List (Path × Json)) (data : Json)
    : (applyResults data results).toOption = applyAll data results := by
  induction results generalizing data with
  | nil => rfl
  | cons result rest ih =>
      rw [applyResults, applyAll, List.foldlM_cons, List.foldlM_cons]
      cases replaceAt data result.1 result.2 with
      | error raised => rfl
      | ok next => exact ih next

/-- A level as a partial function of the payload. -/
theorem toOption_executeLevel (data : Json) (level : List (ExecutionEntry V F H))
    (trace : List (StepEvent V))
    : (Py.outcome (executeLevel mode setup data level) trace).toOption
      = runLevel ExecutionEntry.path (fun entry value => (entry.outcome mode setup value).toOption)
          data level := by
  have results : ((level.mapM (fun entry =>
        Py.outcome (runEntry mode setup data entry) trace))).toOption
      = readLevel ExecutionEntry.path
          (fun entry value => (entry.outcome mode setup value).toOption) data level := by
    induction level with
    | nil => rfl
    | cons entry rest ih =>
        rw [List.mapM_cons, readLevel, ← ih, outcome_runEntry]
        cases entry.path.get data with
        | error raised => rfl
        | ok value =>
            cases result : entry.outcome mode setup value with
            | error raised => simp [Except.bind, Except.map, Except.toOption, result, bind]
            | ok done =>
                cases rest.mapM (fun entry => Py.outcome (runEntry mode setup data entry) trace) <;>
                  simp [Except.bind, Except.map, Except.toOption, result, bind, pure, Except.pure]
  rw [executeLevel, Py.outcome_bind_of_oblivious (fun _ => settled_oblivious _),
    Py.outcome_mapM (runEntry_oblivious mode setup data), runLevel, ← results]
  cases level.mapM (fun entry => Py.outcome (runEntry mode setup data entry) trace) with
  | error raised => rfl
  | ok values =>
      simp only [Except.bind, outcome_settled, toOption_applyResults]
      rfl

/-- The level loop as a partial function of the payload, by induction over the levels. -/
theorem toOption_executeLevels (levels : List (List (ExecutionEntry V F H))) (data : Json)
    (trace : List (StepEvent V))
    : (Py.outcome (executeLevels mode setup levels data) trace).toOption
      = runLevels ExecutionEntry.path
          (fun entry value => (entry.outcome mode setup value).toOption) data levels := by
  induction levels generalizing data with
  | nil => rfl
  | cons level rest ih =>
      have first := toOption_executeLevel mode setup data level trace
      rw [executeLevels, Py.outcome_bind_of_oblivious (executeLevels_oblivious mode setup rest),
        runLevels, List.foldlM_cons, ← first]
      cases Py.outcome (executeLevel mode setup data level) trace with
      | error raised => rfl
      | ok next => exact ih next

end Outcomes

-----------------------------------------------------------------------------------------
-- Pure migrations
-----------------------------------------------------------------------------------------

/-- Callables that only compute: no hook does anything and no call is awaitable. -/
def Calls.ofPure (migrate : F → Json → Except Raised Json) : Calls V F H where
  migrate func data := (migrate func data).map .plain
  before _ _ _ := .ok (.plain .nothing)
  after _ _ _ _ := .ok (.plain ())
  onError _ _ _ _ := .ok (.plain ())

/-- One step of an entry: its migration, then the stamp of its target version. -/
def migrateThenStamp (migrate : F → Json → Except Raised Json) (property : String) (func : F)
    (target : Comparable V) (value : Json) : Option Json :=
  (migrate func value).toOption.map
    (stampVersion property (VersionValue.str target.id.version))

/-- The migrations of an entry in order. -/
def migrateEntry [DecidableEq V] (migrate : F → Json → Except Raised Json) (property : String)
    (bindings : MigrationBindings V F H) (entry : PathPlanEntry V) (value : Json) : Option Json :=
  (entry.steps.zip entry.edges).foldlM (fun current step =>
    (bindings.resolve step.2).toOption.bind (fun binding =>
      migrateThenStamp migrate property binding.func.call step.1.2 current)) value

section Nested

variable (migrate : F → Json → Except Raised Json) (telemetry : Telemetry) (property : String)

theorem toOption_executeSteps (ends : EntryEnds V) {steps : List (BoundStep V F H)}
    (bare : ∀ step ∈ steps, step.hooks = []) (value : Json) (trace : List (StepEvent V))
    : (Py.outcome (executeSteps .sync ⟨telemetry, .ofPure migrate, property⟩ ends steps value)
        trace).toOption
      = steps.foldlM (fun current step =>
          migrateThenStamp migrate property step.func step.context.target current) value := by
  induction steps generalizing value with
  | nil => rfl
  | cons step rest ih =>
      have later := ih (fun other member => bare other (List.mem_cons_of_mem step member))
      rw [executeSteps, Py.outcome_bind_of_oblivious (fun _ => executeSteps_oblivious _ _ _ _ _),
        bare step (by simp), outcome_runStep_nil, List.foldlM_cons, migrateThenStamp]
      simp only [Calls.ofPure]
      cases migrate step.func value with
      | error raised => rfl
      | ok migrated => exact later _

omit [VersionValue V] in
theorem bindSteps_bare (path : Path) (index : Nat) (steps : List (Comparable V × Comparable V))
    (edges : List (EdgeId V)) (migrations : List (MigrationBinding F))
    {hooks : List (List (HookBinding H))} (bare : ∀ bound ∈ hooks, bound = [])
    : ∀ step ∈ ExecutionEntry.bindSteps path index steps edges migrations hooks,
        step.hooks = [] := by
  induction steps generalizing index edges migrations hooks with
  | nil => simp [ExecutionEntry.bindSteps]
  | cons ends steps ih =>
      cases edges with
      | nil => simp [ExecutionEntry.bindSteps]
      | cons edge edges =>
          cases migrations with
          | nil => simp [ExecutionEntry.bindSteps]
          | cons binding migrations =>
              cases hooks with
              | nil => simp [ExecutionEntry.bindSteps]
              | cons bound hooks =>
                  intro step member
                  rcases List.mem_cons.mp member with rfl | later
                  · simp [bare bound (by simp)]
                  · exact ih (index + 1) edges migrations
                      (fun other inside => bare other (List.mem_cons_of_mem _ inside)) step later

variable [DecidableEq V]

/-- Binding the edges of an entry and then running its steps is running what is bound to
them.
-/
theorem foldlM_bindSteps (bindings : MigrationBindings V F H) (path : Path) (index : Nat)
    {steps : List (Comparable V × Comparable V)} {edges : List (EdgeId V)}
    {migrations : List (MigrationBinding F)} (aligned : steps.length = edges.length)
    (resolved : List.Forall₂ (fun edge binding => bindings.resolve edge = .ok binding)
      edges migrations)
    {hooks : List (List (HookBinding H))} (boundHooks : hooks.length = edges.length) (value : Json)
    : (ExecutionEntry.bindSteps path index steps edges migrations hooks).foldlM
        (fun current step =>
          migrateThenStamp migrate property step.func step.context.target current) value
      = (steps.zip edges).foldlM (fun current step =>
          (bindings.resolve step.2).toOption.bind (fun binding =>
            migrateThenStamp migrate property binding.func.call step.1.2 current)) value := by
  induction resolved generalizing index steps hooks value with
  | nil => cases steps <;> simp [ExecutionEntry.bindSteps]
  | @cons edge binding edges migrations own _ ih =>
      cases steps with
      | nil => simp at aligned
      | cons ends steps =>
          cases hooks with
          | nil => simp at boundHooks
          | cons bound hooks =>
              simp only [ExecutionEntry.bindSteps, List.zip_cons_cons, List.foldlM_cons, own,
                Except.toOption, Option.bind_some]
              congr 1
              funext next
              exact ih (index + 1) (by simpa using aligned) (by simpa using boundHooks) next

omit [VersionValue V] in
theorem bindEntry_ok {bindings : MigrationBindings V F H} {entry : PathPlanEntry V}
    {bound : ExecutionEntry V F H} (run : bindEntry bindings entry = .ok bound)
    : bound.plan = entry ∧ bound.hooks = entry.edges.map bindings.hooks
      ∧ List.Forall₂ (fun edge binding => bindings.resolve edge = .ok binding)
          entry.edges bound.migrations := by
  unfold bindEntry at run
  split at run
  · cases run
  · rename_i migrations resolved
    obtain rfl := Except.ok.inj run
    exact ⟨rfl, rfl, Py.mapM_eq_ok_iff.mp resolved⟩

omit [VersionValue V] in
/-- A built plan has the levels of its path plan, entry by entry. -/
theorem buildPlan_ok {bindings : MigrationBindings V F H} {plan : PathPlan V} {payload : Json}
    {execution : ExecutionPlan V F H} (built : buildPlan bindings plan payload = .ok execution)
    : execution.path = plan ∧ execution.payload = payload
      ∧ List.Forall₂ (List.Forall₂ (fun entry bound => bindEntry bindings entry = .ok bound))
          plan.levels execution.levels := by
  unfold buildPlan at built
  cases first : plan.entries.mapM (bindEntry bindings) with
  | error error => simp [first, bind, Except.bind] at built
  | ok entries =>
      cases second : plan.levels.mapM (fun level => level.mapM (bindEntry bindings)) with
      | error error => simp [first, second, bind, Except.bind] at built
      | ok levels =>
          obtain rfl : (⟨plan, payload, levels⟩ : ExecutionPlan V F H) = execution := by
            simpa [first, second, bind, Except.bind, pure, Except.pure] using built
          exact ⟨rfl, rfl, (Py.mapM_eq_ok_iff.mp second).imp
            (fun _ _ run => Py.mapM_eq_ok_iff.mp run)⟩

omit [VersionValue V] in
theorem exists_bindEntry {bindings : MigrationBindings V F H} {entry : PathPlanEntry V}
    (bound : ∀ edge ∈ entry.edges, ∃ binding, bindings.resolve edge = .ok binding)
    : ∃ result, bindEntry bindings entry = .ok result := by
  obtain ⟨migrations, resolved⟩ := Py.exists_mapM bound
  unfold bindEntry
  split
  case h_1 error failed =>
    rw [resolved] at failed
    cases failed
  case h_2 => exact ⟨_, rfl⟩

omit [VersionValue V] in
/-- A plan can be built if all its edges are bound. -/
theorem exists_buildPlan {bindings : MigrationBindings V F H} {plan : PathPlan V}
    (bound : ∀ entry ∈ plan.entries, ∀ edge ∈ entry.edges,
      ∃ binding, bindings.resolve edge = .ok binding) (payload : Json)
    : ∃ execution, buildPlan bindings plan payload = .ok execution := by
  have binds := fun entry member => exists_bindEntry (bound entry member)
  have inside : ∀ level ∈ plan.levels, ∀ entry ∈ level, entry ∈ plan.entries := by
    intro level member entry inLevel
    exact (levelsFrom_flatten_perm PathPlanEntry.path _ _ (Nat.le_refl _)).mem_iff.mp
      (List.mem_flatten.mpr ⟨level, member, inLevel⟩)
  obtain ⟨entries, all⟩ := Py.exists_mapM binds
  obtain ⟨levels, grouped⟩ := Py.exists_mapM (fun level member =>
    Py.exists_mapM (fun entry inLevel => binds entry (inside level member entry inLevel)))
  exact ⟨⟨plan, payload, levels⟩, by simp only [buildPlan, all, grouped, bind, Except.bind]; rfl⟩

omit [VersionValue V] in
/-- The levels of a built plan are those of its path plan. -/
theorem buildPlan_levels {bindings : MigrationBindings V F H} {plan : PathPlan V} {payload : Json}
    {execution : ExecutionPlan V F H} (built : buildPlan bindings plan payload = .ok execution)
    : execution.levels.map (List.map ExecutionEntry.plan) = plan.levels := by
  obtain ⟨_, _, bound⟩ := buildPlan_ok built
  rw [← List.forall₂_eq_eq_eq, List.forall₂_map_left_iff]
  refine bound.flip.imp (fun level entries alike => ?_)
  rw [← List.forall₂_eq_eq_eq, List.forall₂_map_left_iff]
  exact alike.flip.imp (fun entry planned run => (bindEntry_ok run).1)

omit [VersionValue V] in
/-- The entries of the levels of a built plan are those of its path plan. -/
theorem forall_levels_iff {bindings : MigrationBindings V F H} {plan : PathPlan V} {payload : Json}
    {execution : ExecutionPlan V F H} (built : buildPlan bindings plan payload = .ok execution)
    {Holds : PathPlanEntry V → Prop}
    : (∀ level ∈ execution.levels, ∀ entry ∈ level, Holds entry.plan)
      ↔ ∀ entry ∈ plan.entries, Holds entry := by
  have same := buildPlan_levels built
  have perm := levelsFrom_flatten_perm PathPlanEntry.path plan.entries.length plan.entries
    (Nat.le_refl _)
  have listed : ∀ entry, entry ∈ plan.entries ↔ ∃ level ∈ plan.levels, entry ∈ level := by
    intro entry
    rw [← perm.mem_iff, List.mem_flatten]
    rfl
  simp only [listed, ← same, List.mem_map]
  constructor
  · intro every entry given
    obtain ⟨_, ⟨level, member, rfl⟩, inLevel⟩ := given
    obtain ⟨bound, inside, rfl⟩ := List.mem_map.mp inLevel
    exact every level member bound inside
  · intro every level member entry inLevel
    exact every entry.plan ⟨_, ⟨level, member, rfl⟩, List.mem_map.mpr ⟨entry, inLevel, rfl⟩⟩

/-- A bound entry without hooks does what its edges are bound to. -/
theorem toOption_outcome_bindEntry {bindings : MigrationBindings V F H} {entry : PathPlanEntry V}
    {bound : ExecutionEntry V F H} (run : bindEntry bindings entry = .ok bound)
    (bare : ∀ edge ∈ entry.edges, bindings.hooks edge = []) (value : Json)
    : (bound.outcome .sync ⟨telemetry, .ofPure migrate, property⟩ value).toOption
      = migrateEntry migrate property bindings entry value := by
  obtain ⟨rfl, hooks, resolved⟩ := bindEntry_ok run
  have empty : ∀ list ∈ bound.hooks, list = [] := by
    rw [hooks]
    intro list member
    obtain ⟨edge, inside, rfl⟩ := List.mem_map.mp member
    exact bare edge inside
  rw [ExecutionEntry.outcome, ExecutionEntry.boundSteps, toOption_executeSteps migrate telemetry property _
    (bindSteps_bare _ _ _ _ _ empty)]
  exact foldlM_bindSteps migrate property bindings _ _ bound.plan.aligned resolved
    bound.boundHooks value

/-- Levels of related entries run alike, by induction over both lists. -/
theorem runLevels_congr {E B : Type} {path : E → Path} {act : E → Json → Option Json}
    {boundPath : B → Path} {boundAct : B → Json → Option Json}
    {levels : List (List E)} {boundLevels : List (List B)}
    (related : List.Forall₂ (List.Forall₂ (fun entry bound =>
      boundPath bound = path entry ∧ boundAct bound = act entry)) levels boundLevels)
    (data : Json)
    : runLevels boundPath boundAct data boundLevels = runLevels path act data levels := by
  have level : ∀ {entries : List E} {bounds : List B}, List.Forall₂ (fun entry bound =>
      boundPath bound = path entry ∧ boundAct bound = act entry) entries bounds →
      ∀ data, readLevel boundPath boundAct data bounds = readLevel path act data entries := by
    intro entries bounds alike data
    induction alike with
    | nil => rfl
    | cons own _ ih => simp only [readLevel, own.1, own.2, ih]
  induction related generalizing data with
  | nil => rfl
  | cons own _ ih =>
      simp only [runLevels, List.foldlM_cons, runLevel, level own]
      congr 1
      funext next
      exact ih next

/-- What an entry does to a value once it is bound. -/
def PathPlanEntry.acts (mode : Mode) (setup : RunSetup V F H) (bindings : MigrationBindings V F H)
    (entry : PathPlanEntry V) (value : Json) : Option Json :=
  (bindEntry bindings entry).toOption.bind (fun bound => (bound.outcome mode setup value).toOption)

/-- The level loop of a built plan, in terms of the entries of its path plan. -/
theorem toOption_executeLevels_of_buildPlan (mode : Mode) (setup : RunSetup V F H)
    {bindings : MigrationBindings V F H} {plan : PathPlan V} {payload : Json}
    {execution : ExecutionPlan V F H} (built : buildPlan bindings plan payload = .ok execution)
    (trace : List (StepEvent V))
    : (Py.outcome (executeLevels mode setup execution.levels execution.payload) trace).toOption
      = runLevels PathPlanEntry.path (PathPlanEntry.acts mode setup bindings) payload
          plan.levels := by
  obtain ⟨_, samePayload, bound⟩ := buildPlan_ok built
  have related : List.Forall₂ (List.Forall₂ (fun entry bound =>
      ExecutionEntry.path bound = entry.path
        ∧ (fun value => (bound.outcome mode setup value).toOption)
          = PathPlanEntry.acts mode setup bindings entry)) plan.levels execution.levels := by
    refine bound.imp (fun level bounds alike => alike.imp (fun entry bound run => ⟨?_, ?_⟩))
    · rw [ExecutionEntry.path, (bindEntry_ok run).1]
    · funext value
      simp only [PathPlanEntry.acts, run, Except.toOption, Option.bind_some]
  rw [samePayload, toOption_executeLevels, runLevels_congr related]

/-- The level loop computes the recursive bottom-up result and touches nothing apart from the
entries.
-/
theorem executeLevels_eq_bottomUp {bindings : MigrationBindings V F H} {plan : PathPlan V}
    {payload : Json} {execution : ExecutionPlan V F H}
    (built : buildPlan bindings plan payload = .ok execution)
    (bare : ∀ entry ∈ plan.entries, ∀ edge ∈ entry.edges, bindings.hooks edge = [])
    (wellFormed : WellFormed payload)
    (distinct : (plan.entries.map PathPlanEntry.path).Nodup)
    (resolves : ∀ entry ∈ plan.entries, IsPosition entry.path payload)
    (trace : List (StepEvent V))
    : (Py.outcome (executeLevels .sync ⟨telemetry, .ofPure migrate, property⟩ execution.levels
          execution.payload) trace).toOption
        = bottomUp (rewriting PathPlanEntry.path (migrateEntry migrate property bindings)
            plan.entries) payload
      ∧ ∀ result,
          Py.outcome (executeLevels .sync ⟨telemetry, .ofPure migrate, property⟩ execution.levels
            execution.payload) trace = .ok result →
          ∀ place, (∀ entry ∈ plan.entries, entry.path.Apart place) →
            place.get result = place.get payload := by
  have perm := levelsFrom_flatten_perm PathPlanEntry.path plan.entries.length plan.entries
    (Nat.le_refl _)
  obtain ⟨_, samePayload, bound⟩ := buildPlan_ok built
  have related : List.Forall₂ (List.Forall₂ (fun entry bound =>
      ExecutionEntry.path bound = entry.path
        ∧ (fun value => (bound.outcome .sync ⟨telemetry, .ofPure migrate, property⟩
            value).toOption) = migrateEntry migrate property bindings entry))
      plan.levels execution.levels := by
    have inside : ∀ level ∈ plan.levels, ∀ entry ∈ level, entry ∈ plan.entries := by
      intro level member entry inside
      exact perm.mem_iff.mp (List.mem_flatten.mpr ⟨level, member, inside⟩)
    have alike := (List.forall₂_and_left _ _).mpr ⟨inside, bound⟩
    refine alike.imp (fun level bounds found => ?_)
    have entries := (List.forall₂_and_left _ _).mpr found
    refine entries.imp (fun entry bound own => ?_)
    obtain ⟨member, run⟩ := own
    refine ⟨?_, funext (fun value => ?_)⟩
    · rw [ExecutionEntry.path, (bindEntry_ok run).1]
    · exact toOption_outcome_bindEntry migrate telemetry property run (bare entry member) value
  have loop := toOption_executeLevels .sync ⟨telemetry, .ofPure migrate, property⟩
    execution.levels payload trace
  rw [samePayload]
  rw [runLevels_congr related payload] at loop
  refine ⟨loop.trans (runLevels_eq_bottomUp wellFormed distinct resolves), ?_⟩
  intro result done place apart
  rw [done, PathPlan.levels, runLevels_eq_foldlM _ _ _ (levelsFrom_apart distinct _)] at loop
  exact get_foldlM_rewriteAt loop.symm (fun entry member => apart entry (perm.mem_iff.mp member))

end Nested

/-- A migration of `User` from its first to its second release at a path. -/
def userEntry (path : Path) : PathPlanEntry Release where
  path
  source := userNode 1 "UserV1"
  target := userNode 2 "UserV2"
  targetModel := ⟨"app", "UserV2"⟩
  steps := [(.versioned (.versionNode (userNode 1 "UserV1")),
    .versioned (.versionNode (userNode 2 "UserV2")))]
  edges := [userEdge]
  aligned := rfl

/-- A user inside another user. -/
def friendPayload : Json :=
  .obj [("name", .str "Ada"), ("friend", .obj [("name", .str "Grace")])]

/-- A migration that counts the members of the mapping it is given. -/
def countMembers (_ : Unit) : Json → Except Raised Json
  | .obj members => .ok (.obj (Json.setMember members "members" (.int members.length)))
  | _ => .error (.exception "not a mapping")

def userBindings : MigrationBindings Release Unit Unit where
  name := "bindings"
  migrations := (∅ : Py.Dict _ _).set userEdge
    ⟨⟨(), some "count", none, none, none, none, none⟩, ⟨"callable", "app.count"⟩, "count"⟩
  hooksByEdge := ∅

/-- Witness: the inner user is migrated and stamped before the outer one. -/
theorem executeLevels_friendPayload
    : ∃ execution,
        buildPlan userBindings ⟨[userEntry [], userEntry [.key "friend"]]⟩ friendPayload
          = .ok execution
        ∧ (Py.outcome (executeLevels .sync ⟨⟨true, true⟩, .ofPure countMembers, "version"⟩
              execution.levels execution.payload) []).toOption
          = some (.obj [("name", .str "Ada"),
              ("friend", .obj [("name", .str "Grace"), ("members", .int 1),
                ("version", .str "2.0.0")]),
              ("members", .int 2), ("version", .str "2.0.0")]) := by
  obtain ⟨execution, built⟩ : ∃ execution, buildPlan userBindings
      ⟨[userEntry [], userEntry [.key "friend"]]⟩ friendPayload = .ok execution := ⟨_, rfl⟩
  refine ⟨execution, built, ?_⟩
  have whole := executeLevels_eq_bottomUp countMembers ⟨true, true⟩ "version" built
    (by decide) ?_ (by decide) ?_ []
  · rw [whole.1]
    rfl
  · simp [friendPayload, WellFormed, WellFormedMembers]
  · intro entry member
    simp only [List.mem_cons, List.not_mem_nil, or_false] at member
    rcases member with rfl | rfl
    · trivial
    · exact ⟨_, rfl, trivial⟩

end Pyverge
