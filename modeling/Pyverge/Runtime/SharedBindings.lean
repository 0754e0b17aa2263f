import Pyverge.Runtime.Manager
import Pyverge.Py.Exhaustion
import Pyverge.Runtime.AsyncRuns

/-! What the instances of one manager class share.
An instance has the registry of its own engine. The bindings of the runtime belong to the class, and
the adapter remembers the classes that any instance has described.
-/

namespace Pyverge

open Py (Json)

variable {V M F H E : Type}

-----------------------------------------------------------------------------------------
-- Instances
-----------------------------------------------------------------------------------------

/-- The registries of the engines that instances hold, and what all instances share. -/
structure ManagerState (V M F H E : Type) where
  registries : E → Registry V
  bindings : MigrationBindings V F H
  handles : Py.Dict ModelRef M

/-- A call of an instance, and the classes that the adapter describes during it. -/
structure InstanceCall (V M F H : Type) where
  call : ManagerCall V M F H
  described : List (ModelRef × M)

/-- The options of `Manager.runtime`, and what the adapter does with models. -/
structure RuntimeOptions (V M F H : Type) where
  hasher : ContentHasher
  printable : Char → Bool
  models : ModelIdentity M
  adapter : ModelAdapter M
  validation : ValidationMode
  policy : PolicyEngine
  discriminator : String
  planCacheSize : Int
  identify : M → Except Raised Bool
  setup : RunSetup V F H

namespace ManagerState

variable [DecidableEq V] [VersionValue V]

section Calls

variable [DecidableEq E]

/-- What an instance and the class keep of a call, whether or not it raises. -/
def make (setup : ManagerSetup V M F H) (engine : E) (state : ManagerState V M F H E)
    (made : InstanceCall V M F H) : ManagerState V M F H E :=
  let stores := Py.after (made.call.run setup) ⟨state.registries engine, state.bindings⟩
  {
    registries := Function.update state.registries engine stores.registry
    bindings := stores.bindings
    handles := made.described.foldl (fun handles item => handles.setDefault item.1 item.2)
      state.handles
  }

/-- Calls of one instance, one after the other. -/
def makeAll (setup : ManagerSetup V M F H) (engine : E) (state : ManagerState V M F H E)
    (calls : List (InstanceCall V M F H)) : ManagerState V M F H E :=
  calls.foldl (make setup engine) state

end Calls

/-- `PythonModelRuntime.resolve` -/
def resolve (state : ManagerState V M F H E) (ref : ModelRef) : Except Raised M :=
  match state.handles.get? ref with
  | some model => .ok model
  | none =>
      let shown (text : String) := Py.reprStr (fun _ => true) text
      .error (.keyError (shown ("No runtime handle registered for ModelRef(provider_id="
        ++ shown ref.providerId ++ ", entity_id=" ++ shown ref.entityId ++ ")")))

/-- `RunnerFactory.create` with the bindings and the adapter of the class -/
def runnerOver (options : RuntimeOptions V M F H) (graph : MigrationGraph V)
    (state : ManagerState V M F H E) : Runner V M F H where
  coordinator := {
    printable := options.printable
    models := options.models
    adapter := options.adapter
    validation := options.validation
    finder := ⟨graph, options.policy, options.discriminator⟩
    bindings := state.bindings
  }
  identifies ref := (state.resolve ref).bind options.identify
  setup := options.setup

/-- What `runtime().runner.plan` of the instance with an engine gives: the error of the snapshot, or
the outcome of a new runner over it.
-/
def planOf (options : RuntimeOptions V M F H) (engine : E) (request : PlanRequest V M)
    (state : ManagerState V M F H E) : Except (Error V ⊕ RunError V) (ExecutionPlan V F H) := do
  let graph ← (buildGraph options.hasher (state.registries engine) none).mapError .inl
  (Py.outcome ((state.runnerOver options graph).plan request)
    (ExecutionCoordinator.start options.planCacheSize)).mapError .inr

end ManagerState

-----------------------------------------------------------------------------------------
-- Calls that leave an edge alone
-----------------------------------------------------------------------------------------

/-- Both bind the same to an edge. -/
structure MigrationBindings.SameAt [DecidableEq V] (bindings others : MigrationBindings V F H)
    (edge : EdgeId V) : Prop where
  resolve : others.resolve edge = bindings.resolve edge
  hooks : others.hooks edge = bindings.hooks edge

section Sparing

variable [DecidableEq V] [VersionValue V] (setup : ManagerSetup V M F H)

/-- The executable edge and the callable that a call of `store_migration` binds. -/
def Manager.Binds (registry : Registry V) (key : MigrationKey V M) (func : MigrationFunc F)
    (migrationId discriminator : Option String) (edge : VersionEdge V) (bound : MigrationFunc F)
    : Prop :=
  ∃ pair after, setup.pair key = .ok pair ∧ setup.identified func migrationId = .ok bound
    ∧ Registry.storeMigration setup.config (.spec {
        source := pair.1, target := pair.2, func := bound
        discriminator := key.discriminatorOf discriminator }) registry
      = .ok (.versionEdge edge) after

/-- The call does not come to an edge, or does nothing to what is bound there. -/
def ManagerCall.Spares (stores : ManagerStores V F H) (edge : EdgeId V)
    : ManagerCall V M F H → Prop
  | .storeMigration key func migrationId discriminator =>
      ∀ stored bound,
        Manager.Binds setup stores.registry key func migrationId discriminator stored bound →
        stored.id = edge → stores.bindings.resolve edge
          = .ok ⟨bound, stored.migration, bound.name.getD stored.migration.identity⟩
  | .removeMigration key =>
      ∀ entry, setup.edgeOf key = .ok entry → entry.id = edge →
        stores.bindings.migrations.get? edge = none ∧ stores.bindings.hooks edge = []
  | .addHook key _ => ∀ entry, setup.edgeOf key = .ok entry → entry.id ≠ edge
  | .attachHooks hooks =>
      hooks ≠ [] → ∀ kind ∈ stores.registry.kinds,
        ∀ own ∈ stores.registry.migrationsFor kind, own.id ≠ edge

/-- The call of an instance comes to no edge that another instance can execute, and the adapter
knows the classes already.
-/
structure InstanceCall.Apart (engine other : E) (state : ManagerState V M F H E)
    (made : InstanceCall V M F H) : Prop where
  engines : engine ≠ other
  edges : ∀ kind, ∀ edge ∈ (state.registries other).migrationsFor kind,
    made.call.Spares setup ⟨state.registries engine, state.bindings⟩ edge.id
  known : ∀ item ∈ made.described, state.handles.contains item.1 = true

/-- Each call is apart from the other instance where it is made. -/
def ManagerState.AllApart [DecidableEq E] (engine other : E)
    : ManagerState V M F H E → List (InstanceCall V M F H) → Prop
  | _, [] => True
  | state, made :: rest =>
      made.Apart setup engine other state
        ∧ AllApart engine other (state.make setup engine made) rest

end Sparing

-----------------------------------------------------------------------------------------
-- What is bound to an edge
-----------------------------------------------------------------------------------------

section Bound

variable [DecidableEq V] {bindings : MigrationBindings V F H} {edge own : EdgeId V}

namespace MigrationBindings

theorem SameAt.refl (bindings : MigrationBindings V F H) (edge : EdgeId V)
    : bindings.SameAt bindings edge :=
  ⟨rfl, rfl⟩

theorem SameAt.trans {middle others : MigrationBindings V F H} (first : bindings.SameAt middle edge)
    (second : middle.SameAt others edge)
    : bindings.SameAt others edge :=
  ⟨second.resolve.trans first.resolve, second.hooks.trans first.hooks⟩

/-- Binding another callable to an edge shows there only. -/
theorem sameAt_storeMigration {func : MigrationFunc F} {descriptor : MigrationDescriptor}
    (harmless : own = edge →
      bindings.resolve edge = .ok ⟨func, descriptor, func.name.getD descriptor.identity⟩)
    : bindings.SameAt (bindings.storeMigration own func descriptor) edge := by
  refine ⟨?_, rfl⟩
  by_cases same : own = edge
  · rw [harmless same, same, MigrationBindings.resolve, storeMigration, Py.Dict.get?_set_self]
  · rw [MigrationBindings.resolve, MigrationBindings.resolve, storeMigration,
      Py.Dict.get?_set_ne _ _ (Ne.symm same)]

theorem sameAt_addHook (hookRefs : H → HookRef) {hook : H} (apart : own ≠ edge)
    : bindings.SameAt (bindings.addHook hookRefs own hook) edge := by
  refine ⟨rfl, ?_⟩
  rw [MigrationBindings.hooks, MigrationBindings.hooks, addHook, Py.Dict.getD_set,
    if_neg (Ne.symm apart)]

/-- Unbinding an edge shows only where something was bound to it. -/
theorem sameAt_removeMigration (harmless : own = edge →
      bindings.migrations.get? edge = none ∧ bindings.hooks edge = [])
    : bindings.SameAt (bindings.removeMigration own) edge := by
  by_cases same : own = edge
  · obtain ⟨unbound, unhooked⟩ := harmless same
    constructor
    · rw [MigrationBindings.resolve, MigrationBindings.resolve, removeMigration, same,
        Py.Dict.get?_erase_self, unbound]
    · rw [unhooked, MigrationBindings.hooks, removeMigration, same, Py.Dict.getD_erase, if_pos rfl]
  · constructor
    · rw [MigrationBindings.resolve, MigrationBindings.resolve, removeMigration,
        Py.Dict.get?_erase_ne _ (Ne.symm same)]
    · rw [MigrationBindings.hooks, MigrationBindings.hooks, removeMigration, Py.Dict.getD_erase,
        if_neg (Ne.symm same)]

end MigrationBindings

end Bound

-----------------------------------------------------------------------------------------
-- One call
-----------------------------------------------------------------------------------------

section OneCall

variable [DecidableEq V] [VersionValue V] {setup : ManagerSetup V M F H} {edge : EdgeId V}

/-- A call of `store_migration` binds the edge that the engine returns, or nothing. -/
theorem Manager.bindings_storeMigration (key : MigrationKey V M) (func : MigrationFunc F)
    (migrationId discriminator : Option String) (stores : ManagerStores V F H)
    : (Py.after (storeMigration setup key func migrationId discriminator) stores).bindings
        = stores.bindings
      ∨ ∃ stored bound,
        Binds setup stores.registry key func migrationId discriminator stored bound
          ∧ (Py.after (storeMigration setup key func migrationId discriminator) stores).bindings
            = stores.bindings.storeMigration stored.id bound stored.migration := by
  cases paired : setup.pair key with
  | error error =>
      left
      simp only [storeMigration, Py.after, Py.bind_apply, Py.query_apply, paired]
  | ok pair =>
      cases identified : setup.identified func migrationId with
      | error error =>
          left
          simp only [storeMigration, Py.after, Py.bind_apply, Py.query_apply, paired, identified]
      | ok bound =>
          cases ran : Registry.storeMigration setup.config (.spec {
              source := pair.1, target := pair.2, func := bound
              discriminator := key.discriminatorOf discriminator }) stores.registry with
          | error error registry =>
              left
              simp only [storeMigration, Py.after, Py.bind_apply, Py.query_apply, paired,
                identified, onRegistry, Py.zoom, ran]
          | ok entry registry =>
              cases entry with
              | edgeKey own =>
                  left
                  simp only [storeMigration, Py.after, Py.bind_apply, Py.query_apply, paired,
                    identified, onRegistry, Py.zoom, ran, Py.pure_apply]
              | versionEdge stored =>
                  right
                  refine ⟨stored, bound, ⟨pair, registry, paired, identified, ran⟩, ?_⟩
                  simp only [storeMigration, Py.after, Py.bind_apply, Py.query_apply, paired,
                    identified, onRegistry, Py.zoom, ran, onBindings, Py.modify_apply,
                    Py.pure_apply]

/-- The edges of the registry, and what is bound to an edge. -/
def ManagerStores.Stays (stores : ManagerStores V F H) (edge : EdgeId V)
    (later : ManagerStores V F H) : Prop :=
  later.registry.migrations = stores.registry.migrations
    ∧ stores.bindings.SameAt later.bindings edge

/-- Hooks change no edge. -/
theorem Engine.addHook_keepsMigrations (config : Config V F) (key : EdgeEntry V) (hook : HookRef)
    (migrations : Py.Dict ModelKind (List (EdgeEntry V)))
    : Py.Preserves (fun registry => registry.migrations = migrations)
        (Engine.addHook config key hook) := by
  refine .bind (.query _ _) (fun found => .bind (.modify (fun _ same => same)) (fun _ => ?_))
  exact IgnoresHealth.refreshHealth (fun _ _ same => same) _ _

theorem Manager.bindHook_stays {stores : ManagerStores V F H} {own : EdgeEntry V} (hook : H)
    (apart : own.id ≠ edge)
    : Py.Preserves (stores.Stays edge) (bindHook setup own hook) := by
  refine .bind (.modify ?_) (fun _ => onRegistry_preserves ?_)
  · intro later stays
    exact ⟨stays.1, stays.2.trans (MigrationBindings.sameAt_addHook setup.hookRefs apart)⟩
  · intro later stays
    exact ⟨Engine.addHook_keepsMigrations setup.config own _ _ later.registry stays.1, stays.2⟩

/-- Hooks are attached to the edges that the registry can execute. -/
theorem Manager.attachHooks_stays {stores : ManagerStores V F H} {hooks : List H}
    (apart : hooks ≠ [] → ∀ kind ∈ stores.registry.kinds,
      ∀ own ∈ stores.registry.migrationsFor kind, own.id ≠ edge)
    : Py.Preserves (stores.Stays edge) (attachHooks setup hooks) := by
  refine .forM _ (fun hook given => .query_bind (fun later kinds stays listed => ?_))
  have present := apart (List.ne_nil_of_mem given)
  obtain rfl := Except.ok.inj listed
  refine Py.Preserves.forM _ (fun kind member => .query_bind ?_) later stays
  intro reached edges kept read
  obtain rfl := Except.ok.inj read
  refine Py.Preserves.forM _ (fun own inside => bindHook_stays hook ?_) reached kept
  rw [Registry.kinds, stays.1] at member
  rw [Registry.migrationsFor, Registry.edges, kept.1] at inside
  exact present kind member own inside

/-- A call that spares an edge leaves what is bound to it. -/
theorem ManagerCall.sameAt_of_spares {call : ManagerCall V M F H} {stores : ManagerStores V F H}
    (spares : call.Spares setup stores edge)
    : stores.bindings.SameAt (Py.after (call.run setup) stores).bindings edge := by
  cases call with
  | storeMigration key func migrationId discriminator =>
      have dropped : Py.after ((ManagerCall.storeMigration key func migrationId discriminator).run
          setup) stores
          = Py.after (Manager.storeMigration setup key func migrationId discriminator) stores :=
        Py.after_effect _ _
      rw [dropped]
      rcases @Manager.bindings_storeMigration V M F H _ _ setup key func migrationId discriminator
        stores with same | ⟨stored, bound, binds, same⟩
      · rw [same]
        exact .refl _ _
      · rw [same]
        exact MigrationBindings.sameAt_storeMigration (spares stored bound binds)
  | removeMigration key =>
      refine @Py.after_query_bind_of _ _ _ _
        (fun later => stores.bindings.SameAt later.bindings edge) _ _ stores (.refl _ _) ?_
      intro entry given
      have unbound := MigrationBindings.sameAt_removeMigration (spares entry given)
      have rest : Py.Preserves (fun later => stores.bindings.SameAt later.bindings edge)
          (Manager.onRegistry (Engine.removeMigration setup.config entry false)) :=
        Manager.onRegistry_preserves (fun _ same => same)
      refine @Py.Preserves.after_bind _ _ _ _
        (fun later => stores.bindings.SameAt later.bindings edge) _ _ stores ?_ (fun _ => rest)
      exact unbound
  | addHook key hook =>
      refine @Py.after_query_bind_of _ _ _ _
        (fun later => stores.bindings.SameAt later.bindings edge) _ _ stores (.refl _ _) ?_
      intro entry given
      exact (Manager.bindHook_stays hook (spares entry given) stores ⟨rfl, .refl _ _⟩).2
  | attachHooks hooks =>
      exact (Manager.attachHooks_stays spares stores ⟨rfl, .refl _ _⟩).2

end OneCall

-----------------------------------------------------------------------------------------
-- The plans of another instance
-----------------------------------------------------------------------------------------

section Planning

variable [DecidableEq V]

omit [DecidableEq V] in
/-- Loops that do the same with every item give the same. -/
theorem mapM_congr_mem {α β ε : Type} {first second : α → Except ε β} {items : List α}
    (same : ∀ item ∈ items, first item = second item)
    : items.mapM first = items.mapM second := by
  induction items with
  | nil => rfl
  | cons item rest ih =>
      rw [List.mapM_cons, List.mapM_cons, same item List.mem_cons_self,
        ih (fun other member => same other (List.mem_cons_of_mem _ member))]

theorem bindEntry_congr {bindings others : MigrationBindings V F H} {entry : PathPlanEntry V}
    (same : ∀ edge ∈ entry.edges, bindings.SameAt others edge)
    : bindEntry others entry = bindEntry bindings entry := by
  have resolved : entry.edges.mapM others.resolve = entry.edges.mapM bindings.resolve :=
    mapM_congr_mem (fun edge member => (same edge member).resolve)
  have hooked : entry.edges.map others.hooks = entry.edges.map bindings.hooks :=
    List.map_congr_left (fun edge member => (same edge member).hooks)
  unfold bindEntry
  split
  · rename_i error failed
    split
    · rename_i other failedAlike
      rw [resolved, failedAlike] at failed
      obtain rfl := Except.error.inj failed
      rfl
    · rename_i migrations bound
      rw [resolved, bound] at failed
      cases failed
  · rename_i migrations bound
    split
    · rename_i error failed
      rw [resolved, failed] at bound
      cases bound
    · rename_i other boundAlike
      rw [resolved, boundAlike] at bound
      obtain rfl := Except.ok.inj bound
      simp only [hooked]

omit [DecidableEq V] in
/-- The entries of the levels of a path plan are its entries. -/
theorem PathPlan.mem_of_mem_levels {plan : PathPlan V} {level : List (PathPlanEntry V)}
    (member : level ∈ plan.levels) {entry : PathPlanEntry V} (inside : entry ∈ level)
    : entry ∈ plan.entries :=
  (levelsFrom_flatten_perm PathPlanEntry.path plan.entries.length plan.entries
    (Nat.le_refl _)).mem_iff.mp (List.mem_flatten.mpr ⟨level, member, inside⟩)

/-- A plan is built alike where its edges are bound alike. -/
theorem buildPlan_congr {bindings others : MigrationBindings V F H} {path : PathPlan V}
    (same : ∀ entry ∈ path.entries, ∀ edge ∈ entry.edges, bindings.SameAt others edge)
    (payload : Json)
    : buildPlan others path payload = buildPlan bindings path payload := by
  have listed : path.entries.mapM (bindEntry others) = path.entries.mapM (bindEntry bindings) :=
    mapM_congr_mem (fun entry member => bindEntry_congr (same entry member))
  have grouped : path.levels.mapM (fun level => level.mapM (bindEntry others))
      = path.levels.mapM (fun level => level.mapM (bindEntry bindings)) :=
    mapM_congr_mem (fun level member => mapM_congr_mem (fun entry inside =>
      bindEntry_congr (same entry (PathPlan.mem_of_mem_levels member inside))))
  rw [buildPlan, buildPlan, listed, grouped]

variable [VersionValue V]

omit [DecidableEq V] [VersionValue V] in
theorem PolicyEngine.not_kept_of_violation {graph : MigrationGraph V} {layer message : String}
    {strategy : ViolationStrategy}
    : violation graph layer message strategy ≠ .ok true := by
  intro kept
  cases strategy with
  | skip => cases Except.ok.inj kept
  | raise => cases kept

/-- An entry that is kept has edges that the graph can execute. -/
theorem PolicyEngine.hasMigration_of_keeps {engine : PolicyEngine} {graph : MigrationGraph V}
    {entry : PathPlanEntry V} (kept : engine.keeps graph entry = .ok true)
    : ∀ edge ∈ entry.edges, graph.hasMigration edge = true := by
  obtain ⟨allowed, _, later⟩ := Py.ok_bind_iff.mp kept
  split at later
  · exact (not_kept_of_violation later).elim
  · split at later
    · exact (not_kept_of_violation later).elim
    · obtain ⟨moved, _, last⟩ := Py.ok_bind_iff.mp later
      split at last
      · exact (not_kept_of_violation last).elim
      · split at last
        · exact (not_kept_of_violation last).elim
        · rename_i complete
          intro edge inside
          by_contra missing
          exact complete (List.any_eq_true.mpr ⟨edge, inside, by simp [missing]⟩)

/-- The policies keep entries whose edges the graph can execute. -/
theorem PolicyEngine.hasMigration_of_keepAll {engine : PolicyEngine} {graph : MigrationGraph V}
    {entries kept : List (PathPlanEntry V)} (ran : engine.keepAll graph entries = .ok kept)
    : ∀ entry ∈ kept, ∀ edge ∈ entry.edges, graph.hasMigration edge = true := by
  induction entries generalizing kept with
  | nil =>
      obtain rfl := Except.ok.inj ran
      intro entry member
      cases member
  | cons entry rest ih =>
      obtain ⟨keeping, first, ran⟩ := Py.ok_bind_iff.mp ran
      obtain ⟨others, later, ran⟩ := Py.ok_bind_iff.mp ran
      obtain rfl := Except.ok.inj ran
      cases keeping with
      | false => exact ih later
      | true =>
          exact List.forall_mem_cons.mpr ⟨hasMigration_of_keeps first, ih later⟩

/-- What the finder finds runs along edges that the graph can execute. -/
theorem ExecutionCoordinator.hasMigration_of_found {coordinator : ExecutionCoordinator V M F H}
    {request : PlanRequest V M} {entries : List (ExtractedEntry V)} {found : FoundPlan V M}
    (finds : coordinator.found request entries = .ok found)
    : ∀ entry ∈ found.plan.entries, ∀ edge ∈ entry.edges,
        coordinator.finder.graph.hasMigration edge = true := by
  obtain ⟨resolver, _, later⟩ := Py.ok_bind_iff.mp finds
  obtain ⟨plan, walked, same⟩ := Py.ok_bind_iff.mp later
  obtain rfl := Except.ok.inj same
  obtain ⟨resolved, _, applied⟩ := Py.ok_bind_iff.mp walked
  obtain ⟨kept, ran, rfl⟩ := Py.map_eq_ok.mp applied
  exact PolicyEngine.hasMigration_of_keepAll ran

/-- The plan of a new coordinator depends on what is bound to executable edges only. -/
theorem ExecutionCoordinator.plan_congr {coordinator : ExecutionCoordinator V M F H}
    {others : MigrationBindings V F H}
    (same : ∀ edge, coordinator.finder.graph.hasMigration edge = true →
      coordinator.bindings.SameAt others edge) (size : Int) (request : PlanRequest V M)
    : Py.outcome (({ coordinator with bindings := others }).plan request) (start size)
      = Py.outcome (coordinator.plan request) (start size) := by
  have remembers : coordinator.Remembers (fun _ _ => False) size (start size) :=
    ⟨(@PathFinder.CacheReached.empty V _ _ coordinator.finder).valid, rfl,
      fun _ => Py.Lru.holds_new size⟩
  have discover : ({ coordinator with bindings := others }).extract request
      = coordinator.extract request := rfl
  have walk : ∀ entries, ({ coordinator with bindings := others }).pathPlan request entries
      = coordinator.pathPlan request entries := fun _ => rfl
  rw [plan, plan, Py.outcome_bind, Py.outcome_bind, Py.outcome_query, Py.outcome_query, discover]
  cases extracted : coordinator.extract request with
  | error error => rfl
  | ok entries =>
      change Py.outcome (_ >>= _) _ = Py.outcome (_ >>= _) _
      rw [walk, Py.outcome_bind, Py.outcome_bind]
      simp only [Py.after_query]
      cases ran : Py.outcome (coordinator.pathPlan request entries) (start size) with
      | error error => rfl
      | ok found =>
          rcases pathPlan_ok remembers ran with ⟨_, never⟩ | finds
          · exact never.elim
          · have executable := hasMigration_of_found finds
            change Py.outcome (Py.query _) _ = Py.outcome (Py.query _) _
            rw [Py.outcome_query, Py.outcome_query]
            rw [buildPlan_congr (fun entry member edge inside =>
              same edge (executable entry member edge inside))]

/-- A runner plans alike with a coordinator that plans alike. -/
theorem Runner.outcome_plan (runner : Runner V M F H) (request : PlanRequest V M)
    (state : CoordinatorState V M)
    : Py.outcome (runner.plan request) state
      = ((Py.outcome (runner.coordinator.plan request) state).mapError .planning).bind (fun plan =>
          (runner.checkModels plan.path.entries).map (fun _ => plan)) := by
  rw [Runner.plan, Py.outcome_bind, Py.outcome_zoom, id_eq]
  cases Py.outcome (runner.coordinator.plan request) state with
  | error error => rfl
  | ok plan =>
      change Py.outcome (Py.query _ >>= _) _ = (runner.checkModels plan.path.entries).map _
      rw [Py.outcome_bind, Py.outcome_query]
      cases runner.checkModels plan.path.entries <;> rfl

end Planning

-----------------------------------------------------------------------------------------
-- Runs of calls
-----------------------------------------------------------------------------------------

section Runs

variable [DecidableEq V] [VersionValue V]

omit [DecidableEq V] [VersionValue V] in
/-- Classes that are remembered already are not remembered again. -/
theorem handles_of_known {handles : Py.Dict ModelRef M} {described : List (ModelRef × M)}
    (known : ∀ item ∈ described, handles.contains item.1 = true)
    : described.foldl (fun handles item => handles.setDefault item.1 item.2) handles = handles := by
  induction described with
  | nil => rfl
  | cons item rest ih =>
      rw [List.foldl_cons, Py.Dict.setDefault, if_pos (known item List.mem_cons_self)]
      exact ih (fun other member => known other (List.mem_cons_of_mem _ member))

/-- What a graph can execute is executable in the registry it was built from. -/
theorem BuildSteps.exists_of_hasMigration {hasher : ContentHasher} {source : Registry V}
    {graph : MigrationGraph V} (steps : BuildSteps hasher source graph)
    (stores : EdgeStores source) {edge : EdgeId V} (executable : graph.hasMigration edge = true)
    : ∃ own ∈ source.migrationsFor edge.kind, own.id = edge := by
  rw [steps.hasMigration_eq stores] at executable
  cases found : (source.edges edge.kind).find? (fun entry => entry.id = edge) with
  | none =>
      rw [found] at executable
      cases executable
  | some entry =>
      rw [found] at executable
      have named : entry.id = edge := by simpa using List.find?_some found
      cases entry with
      | edgeKey pair => cases executable
      | versionEdge own =>
          exact ⟨own, List.mem_filterMap.mpr ⟨_, List.mem_of_find?_eq_some found, rfl⟩, named⟩

omit [DecidableEq V] [VersionValue V] in
/-- The check of the models asks only whether each is identified. -/
theorem Runner.checkModels_congr {first second : Runner V M F H}
    (same : ∀ ref, first.identifies ref = second.identifies ref)
    : first.checkModels = second.checkModels := by
  funext entries
  induction entries with
  | nil => rfl
  | cons entry rest ih => rw [checkModels, checkModels, same, ih]

/-- Another instance has the same registry, the same models and the same bindings of the edges that
it can execute.
-/
structure ManagerState.SameFor (state : ManagerState V M F H E) (engine : E)
    (later : ManagerState V M F H E) : Prop where
  registry : later.registries engine = state.registries engine
  handles : later.handles = state.handles
  bound : ∀ kind, ∀ edge ∈ (state.registries engine).migrationsFor kind,
    state.bindings.SameAt later.bindings edge.id

/-- An instance plans alike in states that are the same for it. -/
theorem ManagerState.SameFor.planOf {config : Config V F} {state later : ManagerState V M F H E}
    {engine : E} (same : state.SameFor engine later)
    (reached : Reachable config (state.registries engine)) (options : RuntimeOptions V M F H)
    (request : PlanRequest V M)
    : later.planOf options engine request = state.planOf options engine request := by
  unfold ManagerState.planOf
  rw [same.registry]
  cases built : buildGraph options.hasher (state.registries engine) none with
  | error error => rfl
  | ok graph =>
      have edgeStores := reached.edgeStores
      obtain ⟨steps⟩ := buildGraph_steps reached.nodeStores edgeStores built
      have plans : Py.outcome ((later.runnerOver options graph).coordinator.plan request)
            (ExecutionCoordinator.start options.planCacheSize)
          = Py.outcome ((state.runnerOver options graph).coordinator.plan request)
            (ExecutionCoordinator.start options.planCacheSize) := by
        refine @ExecutionCoordinator.plan_congr _ _ _ _ _ _
          (state.runnerOver options graph).coordinator later.bindings (fun edge executable => ?_)
          options.planCacheSize request
        obtain ⟨own, member, named⟩ := steps.exists_of_hasMigration edgeStores executable
        rw [← named]
        exact same.bound _ own member
      have checks : (later.runnerOver options graph).checkModels
          = (state.runnerOver options graph).checkModels := by
        apply Runner.checkModels_congr
        intro ref
        simp only [runnerOver, resolve, same.handles]
      change Except.mapError _ (Py.outcome _ _) = Except.mapError _ (Py.outcome _ _)
      rw [Runner.outcome_plan, Runner.outcome_plan, plans, checks]

/-- A call that is apart from another instance leaves everything as it is for that one. -/
theorem InstanceCall.Apart.sameFor [DecidableEq E] {setup : ManagerSetup V M F H}
    {engine other : E} {state : ManagerState V M F H E} {made : InstanceCall V M F H}
    (apart : made.Apart setup engine other state)
    : state.SameFor other (state.make setup engine made) where
  registry := Function.update_of_ne apart.engines.symm _ _
  handles := handles_of_known apart.known
  bound kind edge member := ManagerCall.sameAt_of_spares (apart.edges kind edge member)

/-- Calls that are apart from another instance leave its plans as they are, by induction over the
calls.
-/
theorem ManagerState.planOf_makeAll [DecidableEq E] {setup : ManagerSetup V M F H}
    {config : Config V F} {engine other : E} {state : ManagerState V M F H E}
    (reached : Reachable config (state.registries other)) {calls : List (InstanceCall V M F H)}
    (apart : state.AllApart setup engine other calls) (options : RuntimeOptions V M F H)
    (request : PlanRequest V M)
    : (state.makeAll setup engine calls).planOf options other request
      = state.planOf options other request := by
  induction calls generalizing state with
  | nil => rfl
  | cons made rest ih =>
      have same := apart.1.sameFor
      have still : Reachable config ((state.make setup engine made).registries other) := by
        rw [same.registry]
        exact reached
      exact (ih still apart.2).trans (same.planOf reached options request)

end Runs

-----------------------------------------------------------------------------------------
-- Two instances
-----------------------------------------------------------------------------------------

/-- A manager of `User` whose one kind of hook is `Audit`. -/
def userSetup : ManagerSetup Release Unit Unit Unit where
  config := plainConfig
  versionable := fun _ => .ok (userNode 1 "UserV1")
  versionKey := fun _ _ => .ok (userId 1)
  hookRefs := fun _ => ⟨"app", "Audit", [], []⟩
  setMigrationId := fun func migrationId => .ok { func with migrationId := some migrationId }

def userOptions : RuntimeOptions Release Unit Unit Unit where
  hasher := plainConfig.hasher
  printable := fun _ => true
  models := ⟨fun _ => ⟨"app", "UserV1"⟩, fun _ => "UserV1", fun _ => "app.UserV1"⟩
  adapter := ⟨"kind", "version", fun _ => true, fun _ _ => none, fun data _ _ => .ok (.ofJson data)⟩
  validation := .none
  policy := ⟨.any, .raise, .raise, -1, .raise⟩
  discriminator := defaultDiscriminator
  planCacheSize := 0
  identify := fun _ => .ok true
  setup := quietSetup

/-- An instance over the edge between the first two releases, whose migration is bound, beside an
instance over another registry.
-/
def sharedUsers (own : Registry Release) : ManagerState Release Unit Unit Unit Bool where
  registries engine := if engine then upgradedEdges else own
  bindings := (⟨"default", ∅, ∅⟩ : MigrationBindings Release Unit Unit).storeMigration userEdge
    (userSpec 1 2).func (userMigration 1 2 "UserV1" "UserV2").migration
  handles := ((∅ : Py.Dict ModelRef Unit).set ⟨"app", "UserV1"⟩ ()).set ⟨"app", "UserV2"⟩ ()

/-- The hooks that the first instance plans for the first user, entry by entry. -/
def plannedHooks (state : ManagerState Release Unit Unit Unit Bool)
    : Option (List (List (List (List (HookBinding Unit))))) :=
  (state.planOf userOptions true firstUser).toOption.map (fun plan =>
    plan.levels.map (fun level => level.map ExecutionEntry.hooks))

/-- The other instance adds a hook to an edge. -/
def hooking (edge : VersionEdge Release) : InstanceCall Release Unit Unit Unit :=
  ⟨.addHook (.edgeKey (.versionEdge edge)) (), []⟩

theorem reachable_upgradedEdges : Reachable plainConfig upgradedEdges := by
  have reached : ReachableBy (fun _ _ _ => True) (fun _ _ => True) plainConfig upgradedEdges :=
    .runAll (.new _ _ _ userEdge.named) (fun _ _ _ => trivial)
  exact reached.reachable

theorem registries_sharedUsers (own : Registry Release)
    : (sharedUsers own).registries true = upgradedEdges := by
  simp only [sharedUsers, if_true]

/-- Witness: a hook of an edge that the first instance does not have is not planned there. -/
theorem plannedHooks_apart
    : plannedHooks ((sharedUsers joinedCatalog).makeAll userSetup false
        [hooking (userMigration 1 3 "UserV1" "UserV3")]) = some [[[[]]]] := by
  have listed : upgradedEdges.migrations.items
      = [("User", [.versionEdge (userMigration 1 2 "UserV1" "UserV2")])] := by
    decide +kernel
  have only : ∀ kind, ∀ edge ∈ upgradedEdges.migrationsFor kind,
      edge = userMigration 1 2 "UserV1" "UserV2" := by
    intro kind edge member
    rw [Registry.migrationsFor, Registry.edges, Py.Dict.getD, Py.Dict.get?, listed] at member
    by_cases user : "User" = kind <;> simp [user, EdgeEntry.version?] at member
    exact member
  have spared : (sharedUsers joinedCatalog).AllApart userSetup false true
      [hooking (userMigration 1 3 "UserV1" "UserV3")] := by
    refine And.intro ?_ trivial
    refine { engines := Bool.false_ne_true, edges := ?_, known := ?_ }
    · intro kind edge member entry given
      rw [registries_sharedUsers] at member
      obtain rfl := only kind edge member
      obtain rfl := Except.ok.inj given
      decide
    · intro item none
      cases none
  have reached : Reachable plainConfig ((sharedUsers joinedCatalog).registries true) := by
    rw [registries_sharedUsers]
    exact reachable_upgradedEdges
  rw [plannedHooks, ManagerState.planOf_makeAll reached spared]
  decide +kernel

/-- Counterexample: a hook that one instance adds is planned by the other one. -/
theorem not_planOf_sharedUsers
    : ¬ ∀ (setup : ManagerSetup Release Unit Unit Unit) (config : Config Release Unit)
        (engine other : Bool) (state : ManagerState Release Unit Unit Unit Bool)
        (calls : List (InstanceCall Release Unit Unit Unit))
        (options : RuntimeOptions Release Unit Unit Unit) (request : PlanRequest Release Unit),
        engine ≠ other → Reachable config (state.registries engine)
        → Reachable config (state.registries other)
        → (state.makeAll setup engine calls).planOf options other request
          = state.planOf options other request := by
  intro claim
  have same := claim userSetup plainConfig false true (sharedUsers upgradedEdges)
    [hooking (userMigration 1 2 "UserV1" "UserV2")] userOptions firstUser Bool.false_ne_true
    reachable_upgradedEdges reachable_upgradedEdges
  have planned : plannedHooks ((sharedUsers upgradedEdges).makeAll userSetup false
      [hooking (userMigration 1 2 "UserV1" "UserV2")]) = plannedHooks (sharedUsers upgradedEdges) := by
    rw [plannedHooks, same]
    rfl
  have differ : plannedHooks ((sharedUsers upgradedEdges).makeAll userSetup false
      [hooking (userMigration 1 2 "UserV1" "UserV2")]) ≠ plannedHooks (sharedUsers upgradedEdges) := by
    decide +kernel
  exact differ planned

end Pyverge
