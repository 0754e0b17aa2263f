import Pyverge.Registry.Rollbacks
import Pyverge.Runtime.SharedBindings

/-! The registry of an engine and the bindings of the runtime, after any calls that register.
The two stores are in step as long as no call changes one of them and then fails on the other.
-/

namespace Pyverge

variable {V M F H : Type} [DecidableEq V]

-----------------------------------------------------------------------------------------
-- Stores in step
-----------------------------------------------------------------------------------------

omit [DecidableEq V] in
/-- An edge of this identity can be executed. -/
def Registry.HasExecutable (registry : Registry V) (edge : EdgeId V) : Prop :=
  ∃ kind, ∃ own ∈ registry.migrationsFor kind, own.id = edge

/-- Exactly the executable edges have a migration bound to them, and the hooks of each edge are
those that are bound to it.
-/
structure ManagerStores.InStep (stores : ManagerStores V F H) : Prop where
  bound : ∀ edge, (∃ binding, stores.bindings.migrations.get? edge = some binding)
    ↔ stores.registry.HasExecutable edge
  hooked : ∀ edge, stores.registry.getHooks edge
    = (stores.bindings.hooks edge).map HookBinding.ref

/-- Nothing is bound to the edge. -/
def MigrationBindings.Free (bindings : MigrationBindings V F H) (edge : EdgeId V) : Prop :=
  bindings.migrations.get? edge = none ∧ bindings.hooksByEdge.get? edge = none

variable [VersionValue V]

-----------------------------------------------------------------------------------------
-- Calls that can be taken back
-----------------------------------------------------------------------------------------

namespace Engine

/-- The key stands for an executable edge, and nothing is in the way of its removal. -/
structure Removes (config : Config V F) (registry : Registry V) (key : EdgeId V)
    (edge : VersionEdge V) : Prop where
  found : registry.getMigrationByEdge key = .ok edge
  adjacent : registry.Adjacent key.source key.target
  uncritical : (registry.edges key.kind).length ≤ 2
  unhooked : registry.hasHooks edge.id = false
  clean : registry.RemovesCleanly config edge

/-- The key stands for no executable edge, or the removal of its edge is refused: there it does not
join neighbours, is critical or has hooks. A kind without a bucket would get one.
-/
def RefusesRemoval (registry : Registry V) (key : EdgeId V) : Prop :=
  (∃ error, registry.getMigrationByEdge key = .error error)
    ∨ registry.byKinds.contains key.kind = true
      ∧ (¬ registry.Adjacent key.source key.target ∨ 2 < (registry.edges key.kind).length
        ∨ ∃ edge, registry.getMigrationByEdge key = .ok edge ∧ registry.hasHooks edge.id = true)

end Engine

omit [VersionValue V] in
/-- The registry with one more hook of an edge, before the edge is refreshed. -/
def Registry.withHook (registry : Registry V) (edge : EdgeId V) (hook : HookRef) : Registry V :=
  { registry with hooks := registry.hooks.set edge (registry.getHooks edge ++ [hook]) }

section Calls

variable (setup : ManagerSetup V M F H)

omit [DecidableEq V] [VersionValue V] in
/-- The hooks to attach and the edges to attach them to, in the order of `attach_hooks`. -/
def Manager.attachments (hooks : List H) (registry : Registry V) : List (H × VersionEdge V) :=
  hooks.flatMap (fun hook =>
    (registry.kinds.flatMap registry.migrationsFor).map (Prod.mk hook))

omit [VersionValue V] in
/-- No linter raises on an edge when its hooks are registered, one after the other. -/
def Manager.AttachesCleanly : List (H × VersionEdge V) → Registry V → Prop
  | [], _ => True
  | (hook, edge) :: rest, registry => ∃ final,
      refreshHealth setup.config.linters [.edge (.stored (.versionEdge edge))]
        (registry.withHook edge.id (setup.hookRefs hook)) = .ok ⟨⟩ final
      ∧ AttachesCleanly rest final

/-- The call goes through in both stores, or it fails before it has changed either. -/
def ManagerCall.Clean (stores : ManagerStores V F H) : ManagerCall V M F H → Prop
  | .storeMigration key func migrationId discriminator =>
      ∀ pair bound, setup.pair key = .ok pair → setup.identified func migrationId = .ok bound →
        (Registry.MigrationInput.spec {
          source := pair.1, target := pair.2, func := bound
          discriminator := key.discriminatorOf discriminator }).FailsEarly setup.config
            stores.registry
  | .removeMigration key =>
      ∀ entry, setup.edgeOf key = .ok entry →
        (∃ edge, Engine.Removes setup.config stores.registry entry.id edge ∧ edge.id = entry.id)
          ∨ Engine.RefusesRemoval stores.registry entry.id ∧ stores.bindings.Free entry.id
  | .addHook key hook =>
      ∀ entry, setup.edgeOf key = .ok entry →
        ∃ edge, stores.registry.getMigrationByEdge entry.id = .ok edge ∧ edge.id = entry.id
          ∧ Manager.AttachesCleanly setup [(hook, edge)] stores.registry
  | .attachHooks hooks =>
      Manager.AttachesCleanly setup (Manager.attachments hooks stores.registry) stores.registry

namespace ManagerStores

/-- The stores after calls, whether or not these raise. -/
def runAll (stores : ManagerStores V F H) (calls : List (ManagerCall V M F H))
    : ManagerStores V F H :=
  calls.foldl (fun stores call => Py.after (call.run setup) stores) stores

/-- Each call is clean where it is made. -/
def AllClean (stores : ManagerStores V F H) : List (ManagerCall V M F H) → Prop
  | [] => True
  | call :: rest => call.Clean setup stores ∧ AllClean (Py.after (call.run setup) stores) rest

end ManagerStores

end Calls

-----------------------------------------------------------------------------------------
-- Removals of the engine
-----------------------------------------------------------------------------------------

section Removing

variable {config : Config V F} {registry : Registry V} {key : EdgeId V} {edge : VersionEdge V}

omit [DecidableEq V] in
/-- The executable edge of a key is stored, and equals the key. -/
theorem EdgeStores.holds_of_getMigrationByEdge (stores : EdgeStores registry)
    (found : registry.getMigrationByEdge key = .ok edge)
    : registry.Searchable key ∧ registry.edgeIndexes.Holds edge ∧ edge.id.cmp key = .eq := by
  unfold Registry.getMigrationByEdge Registry.findEdge at found
  cases search : findEdgeIn (registry.edges key.kind) key with
  | error error => simp [search, bind, Except.bind] at found
  | ok met =>
      have searchable := stores.exists_findEdgeIn.mp ⟨met, search⟩
      have hit := findEdgeIn_of_ok (stores.sorted key.kind) search
      cases met with
      | none => simp [search, bind, Except.bind, throw, throwThe, MonadExceptOf.throw] at found
      | some entry =>
          obtain ⟨member, equal⟩ := (stores.sorted key.kind).find?_eq_some.mp hit.symm
          cases entry with
          | edgeKey pair =>
              simp [search, bind, Except.bind, pure, Except.pure, throw, throwThe,
                MonadExceptOf.throw] at found
          | versionEdge own =>
              simp [search, bind, Except.bind, pure, Except.pure] at found
              subst found
              have kind : own.id.kind = key.kind := EdgeId.kind_eq_of_cmp equal
              refine ⟨searchable, ?_, equal⟩
              change _ ∈ registry.edges own.id.kind
              rwa [kind]

omit [DecidableEq V] in
/-- A stored executable edge is found under its identity. -/
theorem EdgeStores.getMigrationByEdge_of_holds (stores : EdgeStores registry)
    (holds : registry.edgeIndexes.Holds edge)
    : registry.getMigrationByEdge edge.id = .ok edge := by
  obtain ⟨found, search⟩ := stores.exists_findEdgeIn.mpr (stores.searchable_of_holds holds)
  have hit := (stores.sorted edge.id.kind).find?_eq_some.mpr
    ⟨holds, (Std.ReflCmp.compare_self : edge.id.cmp edge.id = .eq)⟩
  obtain rfl := (findEdgeIn_of_ok (stores.sorted edge.id.kind) search).trans hit
  simp [Registry.getMigrationByEdge, Registry.findEdge, search, bind, Except.bind, pure, Except.pure]

omit [DecidableEq V] in
/-- An edge is critical where its kind has more than two edges. -/
theorem isCriticalEdge_of_holds (stores : EdgeStores registry) (searchable : registry.Searchable key)
    {entry : EdgeEntry V} (member : entry ∈ registry.edges key.kind)
    : Registry.isCriticalEdge key registry
      = .ok (decide (2 < (registry.edges key.kind).length)) registry := by
  obtain ⟨index, place⟩ := (exists_bisectEdges (stores.sorted key.kind)
    (stores.comparable key.kind)).mpr searchable
  unfold Registry.isCriticalEdge
  rw [Py.bind_eq_of_ok (Registry.touchMigrations_of_mem member), Py.query_bind_eq, place]
  simp only
  rw [Py.query_bind_eq]
  have always : (decide (2 < (registry.edges key.kind).length)
      && (decide (0 < index) || decide (index + 1 < (registry.edges key.kind).length)))
      = decide (2 < (registry.edges key.kind).length) := by
    by_cases many : 2 < (registry.edges key.kind).length
    · by_cases first : 0 < index
      · simp [many, first]
      · have inside : index + 1 < (registry.edges key.kind).length := by omega
        simp [many, inside]
    · simp [many]
  simp only [always]
  rfl

omit [DecidableEq V] in
/-- Neighbours are among the entries of their kind. -/
theorem Registry.Adjacent.touchKind (adjacent : registry.Adjacent key.source key.target)
    : Registry.touchKind key.kind registry = .ok ⟨⟩ registry := by
  obtain ⟨left, right, source, target, next⟩ := adjacent
  change bisectNodes (registry.kindEntries key.kind) key.source = .ok left at source
  change bisectNodes (registry.kindEntries key.kind) key.target = .ok right at target
  cases entries : registry.kindEntries key.kind with
  | nil =>
      rw [entries] at source target
      cases source
      cases target
      omega
  | cons entry rest =>
      exact Registry.touchKind_of_mem (entries ▸ List.mem_cons_self : entry ∈ _)

/-- The engine hands the removal of an edge over to the registry, or refuses it without a write. -/
theorem Engine.removeMigration_found (stores : EdgeStores registry) {entry : EdgeEntry V}
    (found : registry.getMigrationByEdge entry.id = .ok edge)
    (touch : Registry.touchKind entry.id.kind registry = .ok ⟨⟩ registry)
    : (registry.Adjacent entry.id.source entry.id.target
          ∧ (registry.edges entry.id.kind).length ≤ 2
          ∧ Engine.removeMigration config entry false registry
            = Registry.removeMigration config (.stored (.edgeKey edge.pair)) registry)
      ∨ ¬ (registry.Adjacent entry.id.source entry.id.target
            ∧ (registry.edges entry.id.kind).length ≤ 2)
          ∧ ∃ error, Engine.removeMigration config entry false registry = .error error registry := by
  obtain ⟨searchable, holds, equal⟩ := stores.holds_of_getMigrationByEdge found
  have kind : edge.id.kind = entry.id.kind := EdgeId.kind_eq_of_cmp equal
  have member : EdgeEntry.versionEdge edge ∈ registry.edges entry.id.kind := kind ▸ holds
  have critical := isCriticalEdge_of_holds stores searchable member
  unfold Engine.removeMigration
  rw [Py.query_bind_eq, found]
  simp only [Bool.not_false, if_true]
  rw [Py.query_bind_eq]
  simp only
  rcases Registry.isAdjacent_of_touched touch with ⟨answer, asked, adjacent⟩ | ⟨error, asked, apart⟩
  · rw [Py.bind_eq_of_ok asked]
    cases answer with
    | false =>
        refine .inr ⟨fun given => ?_, _, rfl⟩
        cases adjacent.mpr given.1
    | true =>
        simp only [Bool.not_true, Bool.false_eq_true, if_false]
        rw [Py.bind_eq_of_ok critical]
        by_cases many : 2 < (registry.edges entry.id.kind).length
        · simp only [many, decide_true, if_true]
          exact .inr ⟨fun given => absurd given.2 (by omega), _, rfl⟩
        · simp only [many, decide_false, Bool.false_eq_true, if_false]
          exact .inl ⟨adjacent.mp rfl, by omega, trivial⟩
  · rw [Py.bind_eq_of_error asked]
    exact .inr ⟨fun given => apart given.1, error, rfl⟩

/-- An edge whose removal nothing stops is alone in being gone then. -/
theorem Engine.Removes.run {entry : EdgeEntry V}
    (removes : Engine.Removes config registry entry.id edge) (stores : EdgeStores registry)
    : ∃ final, Engine.removeMigration config entry false registry = .ok ⟨⟩ final
        ∧ final.hooks = registry.hooks
        ∧ ∀ other, final.edgeIndexes.Holds other
          ↔ registry.edgeIndexes.Holds other ∧ other ≠ edge := by
  obtain ⟨_, holds, _⟩ := stores.holds_of_getMigrationByEdge removes.found
  obtain ⟨final, run, kept⟩ := removeMigration_cleanly stores holds removes.unhooked removes.clean
  rcases @Engine.removeMigration_found _ _ _ _ config _ _ stores _ removes.found
    removes.adjacent.touchKind with ⟨_, _, handed⟩ | ⟨refused, _⟩
  · exact ⟨final, handed.trans run, kept⟩
  · exact absurd ⟨removes.adjacent, removes.uncritical⟩ refused

/-- An edge that has hooks is not removed. -/
theorem removeMigration_hooked {key : Transitional V} (hooked : registry.hasHooks key.id = true)
    : ∃ error, Registry.removeMigration config key registry = .error error registry := by
  unfold Registry.removeMigration
  rw [Py.query_bind_eq]
  simp only [hooked, if_true]
  exact ⟨_, rfl⟩

/-- A removal that is refused does nothing. -/
theorem Engine.RefusesRemoval.run {entry : EdgeEntry V}
    (refuses : Engine.RefusesRemoval registry entry.id) (stores : EdgeStores registry)
    : ∃ error, Engine.removeMigration config entry false registry = .error error registry := by
  cases found : registry.getMigrationByEdge entry.id with
  | error error =>
      refine ⟨error, ?_⟩
      unfold Engine.removeMigration
      rw [Py.query_bind_eq, found]
  | ok edge =>
      rcases refuses with ⟨error, missing⟩ | ⟨bucket, reason⟩
      · cases found.symm.trans missing
      have touch : Registry.touchKind entry.id.kind registry = .ok ⟨⟩ registry := by
        simp only [Registry.touchKind, Py.modify_apply, Py.Dict.setDefault, bucket, if_true]
      rcases @Engine.removeMigration_found _ _ _ _ config _ _ stores _ found touch with
        ⟨adjacent, uncritical, handed⟩ | ⟨_, raised⟩
      · rcases reason with apart | many | ⟨other, foundAgain, hooked⟩
        · exact absurd adjacent apart
        · omega
        · obtain rfl := Except.ok.inj (found.symm.trans foundAgain)
          obtain ⟨error, raised⟩ := @removeMigration_hooked _ _ _ _ config registry
            (.stored (.edgeKey edge.pair)) hooked
          exact ⟨error, handed.trans raised⟩
      · exact raised

end Removing

-----------------------------------------------------------------------------------------
-- Changes of both stores
-----------------------------------------------------------------------------------------

section Changes

variable {registry final : Registry V} {bindings : MigrationBindings V F H}

omit [DecidableEq V] in
theorem EdgeStores.hasExecutable_iff (stores : EdgeStores registry) {edge : EdgeId V}
    : registry.HasExecutable edge ↔ ∃ own, registry.edgeIndexes.Holds own ∧ own.id = edge := by
  constructor
  · intro given
    rcases given with ⟨kind, own, member, named⟩
    have inside := mem_migrationsFor.mp member
    have filed : own.id.kind = kind := stores.filed kind _ inside
    exact ⟨own, (filed ▸ inside : .versionEdge own ∈ registry.edges own.id.kind), named⟩
  · intro given
    rcases given with ⟨own, holds, named⟩
    exact ⟨own.id.kind, own, mem_migrationsFor.mpr holds, named⟩

namespace ManagerStores

omit [VersionValue V] in
/-- A hook that is registered with an edge and bound to it. -/
theorem InStep.addHook {hookRefs : H → HookRef} {edge : EdgeId V} {hook : H}
    (inStep : InStep ⟨registry, bindings⟩) (migrations : final.migrations = registry.migrations)
    (hooks : final.hooks = (registry.withHook edge (hookRefs hook)).hooks)
    : InStep ⟨final, bindings.addHook hookRefs edge hook⟩ := by
  constructor
  · intro other
    have same : final.HasExecutable other ↔ registry.HasExecutable other := by
      simp only [Registry.HasExecutable, Registry.migrationsFor, Registry.edges, migrations]
    exact (inStep.bound other).trans same.symm
  · intro other
    have before := inStep.hooked other
    simp only [Registry.getHooks, hooks, Registry.withHook, MigrationBindings.hooks,
      MigrationBindings.addHook, Py.Dict.getD_set] at before ⊢
    split
    case isTrue same =>
      subst same
      rw [before, List.map_append]
      rfl
    case isFalse => exact before

/-- A migration that is stored and bound. -/
theorem InStep.storeMigration {own : VersionEdge V} {func : MigrationFunc F}
    {descriptor : MigrationDescriptor} (inStep : InStep ⟨registry, bindings⟩)
    (before : EdgeStores registry) (after : EdgeStores final) (hooks : final.hooks = registry.hooks)
    (held : ∀ other, final.edgeIndexes.Holds other
      ↔ other = own ∨ registry.edgeIndexes.Holds other)
    : InStep ⟨final, bindings.storeMigration own.id func descriptor⟩ := by
  constructor
  · intro edge
    have executable : final.HasExecutable edge ↔ edge = own.id ∨ registry.HasExecutable edge := by
      rw [after.hasExecutable_iff, before.hasExecutable_iff]
      simp only [held, or_and_right, exists_or, exists_eq_left]
      exact or_congr_left eq_comm
    rw [executable, ← inStep.bound edge]
    simp only [MigrationBindings.storeMigration, Py.Dict.get?_set]
    by_cases same : edge = own.id <;> simp [same]
  · intro edge
    refine Eq.trans ?_ (inStep.hooked edge)
    simp only [Registry.getHooks, hooks]

/-- A migration without hooks that is removed and unbound. -/
theorem InStep.removeMigration {own : VersionEdge V} (inStep : InStep ⟨registry, bindings⟩)
    (before : EdgeStores registry) (after : EdgeStores final) (hooks : final.hooks = registry.hooks)
    (unhooked : registry.hasHooks own.id = false) (holds : registry.edgeIndexes.Holds own)
    (held : ∀ other, final.edgeIndexes.Holds other
      ↔ registry.edgeIndexes.Holds other ∧ other ≠ own)
    : InStep ⟨final, bindings.removeMigration own.id⟩ := by
  constructor
  · intro edge
    have executable : final.HasExecutable edge ↔ registry.HasExecutable edge ∧ edge ≠ own.id := by
      rw [after.hasExecutable_iff, before.hasExecutable_iff]
      constructor
      · intro given
        rcases given with ⟨other, inside, rfl⟩
        obtain ⟨old, apart⟩ := (held other).mp inside
        refine ⟨⟨other, old, rfl⟩, fun same => apart ?_⟩
        exact EdgeEntry.versionEdge.inj (before.eq_of_id old holds same)
      · intro given
        rcases given with ⟨⟨other, old, rfl⟩, apart⟩
        exact ⟨other, (held other).mpr ⟨old, fun same => apart (congrArg VersionEdge.id same)⟩, rfl⟩
    rw [executable, ← inStep.bound edge]
    simp only [MigrationBindings.removeMigration, Py.Dict.get?_erase]
    by_cases same : edge = own.id <;> simp [same]
  · intro edge
    have was := inStep.hooked edge
    simp only [Registry.getHooks, hooks, MigrationBindings.hooks,
      MigrationBindings.removeMigration, Py.Dict.getD_erase] at was ⊢
    split
    case isTrue same =>
      have none : registry.hooks.get? edge = none := by
        simpa [Registry.hasHooks, Py.Dict.contains, same] using unhooked
      simp [Py.Dict.getD, none]
    case isFalse => exact was

end ManagerStores

end Changes

-----------------------------------------------------------------------------------------
-- One call
-----------------------------------------------------------------------------------------

section OneCall

variable {setup : ManagerSetup V M F H} {stores : ManagerStores V F H}

omit [DecidableEq V] [VersionValue V] in
theorem Manager.onRegistry_ok {α : Type} {program : RegistryM V α} {value : α}
    {final : Registry V} (run : program stores.registry = .ok value final)
    : Manager.onRegistry (H := H) program stores = .ok value { stores with registry := final } := by
  simp only [onRegistry, Py.zoom, run]

omit [DecidableEq V] [VersionValue V] in
theorem Manager.onRegistry_error {α : Type} {program : RegistryM V α} {error : Error V}
    (run : program stores.registry = .error error stores.registry)
    : Manager.onRegistry (H := H) program stores = .error error stores := by
  simp only [onRegistry, Py.zoom, run]
  rfl

omit [DecidableEq V] [VersionValue V] in
theorem Manager.onBindings_eq (update : MigrationBindings V F H → MigrationBindings V F H)
    : Manager.onBindings update stores
      = .ok ⟨⟩ { stores with bindings := update stores.bindings } := rfl

theorem Reachable.query {config : Config V F} {α : Type} {program : RegistryM V α} (op : Op V F)
    (runs : op.run config = Py.effect program)
    : Py.Preserves (Reachable config) program := by
  intro registry reached
  have next := Reachable.step op reached
  rwa [runs, Py.after_effect] at next

theorem Engine.removeMigration_reachable (config : Config V F) (key : EdgeEntry V)
    : Py.Preserves (Reachable config) (Engine.removeMigration config key false) := by
  have remove : ∀ edge : VersionEdge V, Py.Preserves (Reachable config)
      (Registry.removeMigration config (.stored (.edgeKey edge.pair))) :=
    fun edge _ reached => .step (.removeMigration _) reached
  refine .bind (.query _ _) (fun edge => .ite _ (.bind (.query _ _) (fun catalog => ?_)) (remove _))
  refine .bind (Reachable.query (.isAdjacent key.id) rfl) (fun adjacent => ?_)
  refine .ite _ (.throw_bind _ _ _) ?_
  refine .bind (Reachable.query (.isCriticalEdge key.id) rfl) (fun critical => ?_)
  exact .ite _ (.throw_bind _ _ _) (remove _)

theorem Manager.bindHook_reachable (edge : EdgeEntry V) (hook : H)
    : Py.Preserves (fun stores : ManagerStores V F H => Reachable setup.config stores.registry)
      (Manager.bindHook setup edge hook) := by
  refine .bind (.modify (fun _ reached => reached)) (fun _ => ?_)
  refine Manager.onRegistry_preserves (fun stores reached => ?_)
  have added : Py.Preserves (Reachable setup.config)
      (Engine.addHook setup.config edge (setup.hookRefs hook)) :=
    .bind (.query _ _) (fun own _ reached => .step (.addHook _ _) reached)
  exact added stores.registry reached

/-- Calls of a manager lead to registries that calls of the registry lead to. -/
theorem ManagerCall.run_reachable (setup : ManagerSetup V M F H) (call : ManagerCall V M F H)
    : Py.Preserves (fun stores => Reachable setup.config stores.registry) (call.run setup) := by
  cases call with
  | storeMigration key func migrationId discriminator =>
      refine .bind (.bind (.query _ _) (fun pair => .bind (.query _ _) (fun bound => ?_)))
        (fun _ => .pure _ _)
      have stored : ∀ input, Py.Preserves (Reachable setup.config)
          (Registry.storeMigration setup.config input) :=
        fun input => Reachable.query (.storeMigration input) rfl
      refine .bind (Manager.onRegistry_preserves (fun stores => stored _ stores.registry))
        (fun entry => ?_)
      cases entry with
      | edgeKey own => exact .bind (.pure _ _) (fun _ => .pure _ _)
      | versionEdge own => exact .bind (.modify (fun _ reached => reached)) (fun _ => .pure _ _)
  | removeMigration key =>
      refine .bind (.query _ _) (fun entry => .bind (.modify (fun _ reached => reached)) (fun _ => ?_))
      exact Manager.onRegistry_preserves
        (fun stores => Engine.removeMigration_reachable setup.config entry stores.registry)
  | addHook key hook =>
      exact .bind (.query _ _) (fun entry => Manager.bindHook_reachable entry hook)
  | attachHooks hooks =>
      refine .forM _ (fun hook _ => .bind (.query _ _) (fun kinds => .forM _ (fun kind _ => ?_)))
      exact .bind (.query _ _) (fun edges => .forM _ (fun edge _ =>
        Manager.bindHook_reachable _ hook))

/-- A hook is bound and registered where the key stands for an edge that can be refreshed. -/
theorem Manager.bindHook_run {entry : EdgeEntry V} {edge : VersionEdge V} {hook : H}
    {final : Registry V} (found : stores.registry.getMigrationByEdge entry.id = .ok edge)
    (named : edge.id = entry.id)
    (refreshed : refreshHealth setup.config.linters [.edge (.stored (.versionEdge edge))]
      (stores.registry.withHook edge.id (setup.hookRefs hook)) = .ok ⟨⟩ final)
    : Manager.bindHook setup entry hook stores
      = .ok ⟨⟩ ⟨final, stores.bindings.addHook setup.hookRefs edge.id hook⟩ := by
  have added : Engine.addHook setup.config entry (setup.hookRefs hook) stores.registry
      = .ok ⟨⟩ final := by
    unfold Engine.addHook
    rw [Py.query_bind_eq, found]
    exact refreshed
  unfold Manager.bindHook
  rw [Py.bind_eq_of_ok (Manager.onBindings_eq _), named]
  exact Manager.onRegistry_ok added

omit [VersionValue V] in
/-- The refresh of an edge leaves the edges and the hooks. -/
theorem Manager.refreshed_hook {linters : List (HealthLinter V)} {registry final : Registry V}
    {edge : EdgeId V} {hook : HookRef} {entities : List (Entity V)}
    (refreshed : refreshHealth linters entities (registry.withHook edge hook) = .ok ⟨⟩ final)
    : final.migrations = registry.migrations
      ∧ final.hooks = (registry.withHook edge hook).hooks := by
  have kept := refreshHealth_keepsEdges linters entities (registry.withHook edge hook)
  rw [Py.after_of_ok refreshed] at kept
  exact ⟨congrArg EdgeView.migrations kept, congrArg EdgeView.hooks kept⟩

theorem Manager.bindHook_keepsMigrations (entry : EdgeEntry V) (hook : H)
    : Py.Keeps (fun stores : ManagerStores V F H => stores.registry.migrations)
      (Manager.bindHook setup entry hook) := by
  refine Py.keeps_iff_preserves.mpr (fun migrations => ?_)
  refine .bind (.modify (fun _ same => same)) (fun _ => Manager.onRegistry_preserves ?_)
  intro stores same
  exact Engine.addHook_keepsMigrations setup.config entry _ migrations stores.registry same

/-- The loops of `attach_hooks` visit the edges that the registry can execute at first. -/
theorem Manager.attachHooks_eq (hooks : List H)
    : Manager.attachHooks setup hooks stores
      = (Manager.attachments hooks stores.registry).forM
        (fun visit => Manager.bindHook setup (.edgeKey visit.2.pair) visit.1) stores := by
  have steady : ∀ {γ : Type} (read : Registry V → γ) (entry : EdgeEntry V) (hook : H),
      (∀ left right : Registry V, left.migrations = right.migrations → read left = read right) →
      Py.Keeps (fun stores : ManagerStores V F H => read stores.registry)
        (Manager.bindHook setup entry hook) :=
    fun read entry hook depends stores =>
      depends _ _ (Manager.bindHook_keepsMigrations entry hook stores)
  have lists : ∀ {left right : Registry V}, left.migrations = right.migrations →
      left.migrationsFor = right.migrationsFor := by
    intro left right same
    funext kind
    simp only [Registry.migrationsFor, Registry.edges, same]
  have body : (fun hook => (do
      let kinds ← Py.query (fun stores => .ok stores.registry.kinds)
      kinds.forM (fun kind => do
        let edges ← Py.query (fun stores => .ok (stores.registry.migrationsFor kind))
        edges.forM (fun edge => Manager.bindHook setup (.edgeKey edge.pair) hook))
      : ManagerM V F H PUnit))
      = Py.visitAll (fun _ stores => stores.registry.kinds.flatMap stores.registry.migrationsFor)
        Prod.mk (fun visit => Manager.bindHook setup (.edgeKey visit.2.pair) visit.1) := by
    funext hook state
    refine (Py.query_bind_eq _ _ state).trans ?_
    refine (@Py.forM_visitAll _ _ _ _ _ (fun kind stores => stores.registry.migrationsFor kind)
      (fun _ edge => edge) (fun edge => Manager.bindHook setup (.edgeKey edge.pair) hook) ?_
      state.registry.kinds state).trans ?_
    · intro edge kind
      exact steady (fun registry => registry.migrationsFor kind) _ _
        (fun _ _ same => congrFun (lists same) kind)
    · simp only [List.map_id', Py.visitAll, Py.query_bind_eq]
  unfold Manager.attachHooks
  rw [body]
  refine Py.forM_visitAll (fun visit _ => ?_) hooks stores
  refine steady (fun registry => registry.kinds.flatMap registry.migrationsFor) _ _ ?_
  intro left right same
  simp only [Registry.kinds, same, lists same]

/-- Hooks that are attached cleanly are registered and bound, by induction over the attachments. -/
theorem Manager.attach_run {attachments : List (H × VersionEdge V)}
    (edges : EdgeStores stores.registry) (inStep : stores.InStep)
    (held : ∀ visit ∈ attachments, stores.registry.edgeIndexes.Holds visit.2)
    (clean : Manager.AttachesCleanly setup attachments stores.registry)
    : ∃ final, attachments.forM
          (fun visit => Manager.bindHook setup (.edgeKey visit.2.pair) visit.1) stores
        = .ok ⟨⟩ final ∧ final.InStep := by
  induction attachments generalizing stores with
  | nil => exact ⟨stores, rfl, inStep⟩
  | cons visit rest ih =>
      obtain ⟨hook, edge⟩ := visit
      obtain ⟨reached, refreshed, later⟩ := clean
      have holds : stores.registry.edgeIndexes.Holds edge := held _ List.mem_cons_self
      obtain ⟨migrations, hooks⟩ := Manager.refreshed_hook refreshed
      have same : reached.edges = stores.registry.edges :=
        funext (fun kind => congrArg (fun migrations => migrations.getD kind []) migrations)
      have run := @Manager.bindHook_run _ _ _ _ _ _ setup stores (.edgeKey edge.pair) edge hook
        reached (edges.getMigrationByEdge_of_holds holds) rfl refreshed
      have stillHeld : ∀ visit ∈ rest, reached.edgeIndexes.Holds visit.2 := by
        intro visit member
        have before : .versionEdge visit.2 ∈ stores.registry.edges visit.2.id.kind :=
          held visit (List.mem_cons_of_mem _ member)
        rw [← same] at before
        exact before
      obtain ⟨final, ran, stays⟩ := @ih
        ⟨reached, stores.bindings.addHook setup.hookRefs edge.id hook⟩ (edges.of_edges same)
        (inStep.addHook migrations hooks) stillHeld later
      refine ⟨final, ?_, stays⟩
      exact (@Py.forM_cons_ok _ _ _ (fun visit : H × VersionEdge V =>
        Manager.bindHook setup (.edgeKey visit.2.pair) visit.1) (hook, edge) rest _ _ run).trans ran

omit [VersionValue V] in
/-- Nothing is lost where nothing was bound. -/
theorem MigrationBindings.Free.removeMigration {bindings : MigrationBindings V F H}
    {edge : EdgeId V} (free : bindings.Free edge)
    : bindings.removeMigration edge = bindings := by
  unfold MigrationBindings.removeMigration
  rw [Py.Dict.erase_of_get?_none free.1, Py.Dict.erase_of_get?_none free.2]

/-- A clean call leaves both stores in step, or raises and leaves them as they were. -/
theorem ManagerCall.Clean.atomic {call : ManagerCall V M F H} (clean : call.Clean setup stores)
    (reached : Reachable setup.config stores.registry) (inStep : stores.InStep)
    : Py.Atomic ManagerStores.InStep (call.run setup) stores := by
  have edges := reached.edgeStores
  cases call with
  | storeMigration key func migrationId discriminator =>
      refine Py.Atomic.drop (.query_bind (fun pair paired => .query_bind (fun bound identified => ?_)))
        _
      have rollsBack := storeMigration_rollsBack reached.nodeStores edges
        (clean pair bound paired identified)
      generalize ({
        source := pair.1, target := pair.2, func := bound
        discriminator := key.discriminatorOf discriminator } : MigrationSpec V F) = spec
        at rollsBack ⊢
      cases ran : Registry.storeMigration setup.config (.spec spec) stores.registry with
      | error error registry =>
          obtain rfl := rollsBack error registry ran
          exact .inr ⟨error, Py.bind_eq_of_error (Manager.onRegistry_error ran)⟩
      | ok entry registry =>
          obtain ⟨hooks, own, rfl, held⟩ := storeMigration_returned edges ran
          have stored := storeMigration_edgeStores setup.config (.spec spec) stores.registry edges
          rw [Py.after_of_ok ran] at stored
          refine .inl ⟨bound, ⟨registry, stores.bindings.storeMigration own.id bound own.migration⟩,
            ?_, inStep.storeMigration edges stored hooks held⟩
          exact Py.bind_eq_of_ok (Manager.onRegistry_ok ran)
  | removeMigration key =>
      refine .query_bind (fun entry given => ?_)
      rcases clean entry given with ⟨edge, removes, named⟩ | ⟨refuses, free⟩
      · obtain ⟨_, holds, _⟩ := edges.holds_of_getMigrationByEdge removes.found
        obtain ⟨final, run, hooks, held⟩ := removes.run edges
        have reachedFinal := Engine.removeMigration_reachable setup.config entry stores.registry
          reached
        rw [Py.after_of_ok run] at reachedFinal
        refine .inl ⟨⟨⟩, _, ?_, inStep.removeMigration edges reachedFinal.edgeStores hooks
          removes.unhooked holds held⟩
        rw [Py.bind_eq_of_ok (Manager.onBindings_eq _), named]
        exact Manager.onRegistry_ok run
      · obtain ⟨error, refused⟩ := @Engine.RefusesRemoval.run _ _ _ _ setup.config _ _ refuses edges
        right
        refine ⟨error, ?_⟩
        rw [Py.bind_eq_of_ok (Manager.onBindings_eq _), free.removeMigration]
        exact Manager.onRegistry_error refused
  | addHook key hook =>
      refine .query_bind (fun entry given => ?_)
      obtain ⟨edge, found, named, final, refreshed, _⟩ := clean entry given
      obtain ⟨migrations, hooks⟩ := Manager.refreshed_hook refreshed
      exact .inl ⟨_, _, Manager.bindHook_run found named refreshed, inStep.addHook migrations hooks⟩
  | attachHooks hooks =>
      have held : ∀ visit ∈ Manager.attachments hooks stores.registry,
          stores.registry.edgeIndexes.Holds visit.2 := by
        intro visit member
        obtain ⟨hook, _, listed⟩ := List.mem_flatMap.mp member
        obtain ⟨edge, found, rfl⟩ := List.mem_map.mp listed
        obtain ⟨kind, _, inside⟩ := List.mem_flatMap.mp found
        have executable := mem_migrationsFor.mp inside
        have filed : edge.id.kind = kind := edges.filed kind _ executable
        exact (filed ▸ executable : .versionEdge edge ∈ stores.registry.edges edge.id.kind)
      obtain ⟨final, run, stays⟩ := Manager.attach_run edges inStep held clean
      exact .inl ⟨⟨⟩, final, (Manager.attachHooks_eq hooks).trans run, stays⟩

end OneCall

-----------------------------------------------------------------------------------------
-- Any calls
-----------------------------------------------------------------------------------------

/-- From stores in step, clean calls keep them in step, and what raises among them leaves both
stores as they were, by induction over the calls.
-/
theorem ManagerStores.inStep_of_allClean {setup : ManagerSetup V M F H}
    {start : ManagerStores V F H} (reached : Reachable setup.config start.registry)
    (inStep : start.InStep) {calls : List (ManagerCall V M F H)}
    (clean : start.AllClean setup calls) {earlier later : List (ManagerCall V M F H)}
    {call : ManagerCall V M F H} (split : calls = earlier ++ call :: later)
    : (start.runAll setup (earlier ++ [call])).InStep
      ∧ Py.RollsBack (call.run setup) (start.runAll setup earlier) := by
  subst split
  induction earlier generalizing start with
  | nil =>
      have atomic := clean.1.atomic reached inStep
      exact ⟨atomic.after inStep, atomic.rollsBack⟩
  | cons first rest ih =>
      exact ih (first.run_reachable setup start reached)
        ((clean.1.atomic reached inStep).after inStep) clean.2

-----------------------------------------------------------------------------------------
-- Calls about one edge
-----------------------------------------------------------------------------------------

/-- A manager of `User` that registers migrations. -/
def registeringSetup : ManagerSetup Release Unit Unit Unit :=
  { userSetup with config := reflectingConfig }

/-- Two releases of `User`, and nothing bound. -/
def emptyStores : ManagerStores Release Unit Unit :=
  ⟨pairedCatalog reflectingConfig, ⟨"default", ∅, ∅⟩⟩

/-- The key of the edge between two releases of `User`. -/
def userKey : MigrationKey Release Unit :=
  .edgeKey (.edgeKey (userPair (userId 1) (userId 2) userEdge.sameNamespace userEdge.sameKind))

def storeUser : ManagerCall Release Unit Unit Unit :=
  .storeMigration userKey (userSpec 1 2).func none none

theorem inStep_emptyStores : emptyStores.InStep := by
  have unfiled : (pairedCatalog reflectingConfig).migrations.items = [] := by decide +kernel
  have unhooked : (pairedCatalog reflectingConfig).hooks.items = [] := by decide +kernel
  constructor
  · intro edge
    constructor
    · intro given
      rcases given with ⟨binding, found⟩
      cases found
    · intro given
      rcases given with ⟨kind, own, member, _⟩
      simp [emptyStores, Registry.migrationsFor, Registry.edges, Py.Dict.getD, Py.Dict.get?,
        unfiled] at member
  · intro edge
    have none : (pairedCatalog reflectingConfig).getHooks edge = [] := by
      simp [Registry.getHooks, Py.Dict.getD, Py.Dict.get?, unhooked]
    exact none

/-- A request that goes through does not fail at all. -/
theorem failsEarly_of_ok {config : Config V F} {registry : Registry V}
    (reached : Reachable config registry) {spec : MigrationSpec V F}
    (ok : (Py.outcome (Registry.storeMigration config (.spec spec)) registry).isOk = true)
    : (Registry.MigrationInput.spec spec).FailsEarly config registry := by
  intro reflection port kinds
  refine (storeMigration_spec_iff port kinds reached.nodeStores reached.edgeStores).mp ?_
  intro error final raised
  rw [Py.outcome, raised] at ok
  cases ok

/-- Calls of a manager lead to registries that calls of the registry lead to. -/
theorem ManagerStores.runAll_reachable {setup : ManagerSetup V M F H} {start : ManagerStores V F H}
    (reached : Reachable setup.config start.registry) (calls : List (ManagerCall V M F H))
    : Reachable setup.config (start.runAll setup calls).registry := by
  induction calls generalizing start with
  | nil => exact reached
  | cons call rest ih => exact ih (call.run_reachable setup start reached)

/-- The stores after some calls about users. -/
def registeredUsers (calls : List (ManagerCall Release Unit Unit Unit))
    : ManagerStores Release Unit Unit :=
  emptyStores.runAll registeringSetup calls

theorem storeUser_clean (calls : List (ManagerCall Release Unit Unit Unit))
    (ok : (Py.outcome (Registry.storeMigration reflectingConfig (.spec (userSpec 1 2)))
      (registeredUsers calls).registry).isOk = true)
    : storeUser.Clean registeringSetup (registeredUsers calls) := by
  have reached : Reachable reflectingConfig (registeredUsers calls).registry :=
    @ManagerStores.runAll_reachable _ _ _ _ _ _ registeringSetup emptyStores
      (pairedCatalog_reachable reflectingConfig) calls
  intro pair bound paired identified
  obtain rfl := Except.ok.inj paired
  obtain rfl := Except.ok.inj identified
  exact failsEarly_of_ok reached ok

/-- No linter raises where the edge gets another hook. -/
theorem attachesCleanly_user (calls : List (ManagerCall Release Unit Unit Unit))
    (ok : (Py.outcome (refreshHealth reflectingConfig.linters
      [.edge (.stored (.versionEdge (userMigration 1 2 "UserV1" "UserV2")))])
      ((registeredUsers calls).registry.withHook userEdge
        (registeringSetup.hookRefs ()))).isOk = true)
    : Manager.AttachesCleanly registeringSetup [((), userMigration 1 2 "UserV1" "UserV2")]
      (registeredUsers calls).registry := by
  obtain ⟨_, final, refreshed⟩ := Py.exists_ok_of_outcome ok
  exact ⟨final, refreshed, trivial⟩

/-- Witness: an edge is stored, removed and stored again, and gets a hook in two ways. -/
theorem inStep_attachedUsers
    : (registeredUsers [storeUser, .removeMigration userKey, storeUser, .addHook userKey (),
        .attachHooks [()]]).InStep := by
  have clean : emptyStores.AllClean registeringSetup [storeUser, .removeMigration userKey,
      storeUser, .addHook userKey (), .attachHooks [()]] := by
    refine ⟨storeUser_clean [] (by decide +kernel), ?_, ?_, ?_, ?_, trivial⟩
    · intro entry given
      obtain rfl := Except.ok.inj given
      obtain ⟨_, final, refreshed⟩ := Py.exists_ok_of_outcome (show (Py.outcome
        (refreshHealth reflectingConfig.linters
          ((affectedByEdgeChange (.stored (.versionEdge (userMigration 1 2 "UserV1" "UserV2")))).filter
            (fun entity => entity.id ≠ .edge userEdge)))
        ((registeredUsers [storeUser]).registry.withoutExecutable reflectingConfig.hasher
          (userMigration 1 2 "UserV1" "UserV2"))).isOk = true by decide +kernel)
      refine .inl ⟨userMigration 1 2 "UserV1" "UserV2", ?_, rfl⟩
      refine {
        found := ?_
        adjacent := ⟨0, 1, ?_, ?_, .inr rfl⟩
        uncritical := ?_
        unhooked := ?_
        clean := ⟨?_, final, refreshed⟩ }
      · decide +kernel
      · decide +kernel
      · decide +kernel
      · decide +kernel
      · decide +kernel
      · intro indexed
        exact absurd indexed (by decide +kernel)
    · exact storeUser_clean [storeUser, .removeMigration userKey] (by decide +kernel)
    · intro entry given
      obtain rfl := Except.ok.inj given
      refine ⟨userMigration 1 2 "UserV1" "UserV2", ?_, rfl, ?_⟩
      · decide +kernel
      · exact attachesCleanly_user [storeUser, .removeMigration userKey, storeUser]
          (by decide +kernel)
    · have listed : Manager.attachments [()] (registeredUsers [storeUser,
          .removeMigration userKey, storeUser, .addHook userKey ()]).registry
          = [((), userMigration 1 2 "UserV1" "UserV2")] := by
        decide +kernel
      change Manager.AttachesCleanly registeringSetup (Manager.attachments [()] (registeredUsers
        [storeUser, .removeMigration userKey, storeUser, .addHook userKey ()]).registry) _
      rw [listed]
      exact attachesCleanly_user [storeUser, .removeMigration userKey, storeUser,
        .addHook userKey ()] (by decide +kernel)
  exact (@ManagerStores.inStep_of_allClean _ _ _ _ _ _ registeringSetup emptyStores
    (pairedCatalog_reachable reflectingConfig) inStep_emptyStores _ clean
    [storeUser, .removeMigration userKey, storeUser, .addHook userKey ()] []
    (.attachHooks [()]) rfl).1

/-- Counterexample: the migration of an edge with a hook is unbound before its removal is refused,
and the edge stays.
-/
theorem not_inStep_hookedUser
    : ¬ ∀ (setup : ManagerSetup Release Unit Unit Unit) (start : ManagerStores Release Unit Unit)
        (calls earlier later : List (ManagerCall Release Unit Unit Unit))
        (call : ManagerCall Release Unit Unit Unit),
        Reachable setup.config start.registry → start.InStep → calls = earlier ++ call :: later →
        (start.runAll setup (earlier ++ [call])).InStep
          ∧ Py.RollsBack (call.run setup) (start.runAll setup earlier) := by
  intro claim
  have inStep := (claim registeringSetup emptyStores _ [storeUser, .addHook userKey ()] []
    (.removeMigration userKey) (pairedCatalog_reachable reflectingConfig) inStep_emptyStores rfl).1
  have unbound : (emptyStores.runAll registeringSetup
      [storeUser, .addHook userKey (), .removeMigration userKey]).bindings.migrations.get? userEdge
      = none := by
    decide +kernel
  have stays : userMigration 1 2 "UserV1" "UserV2" ∈ (emptyStores.runAll registeringSetup
      [storeUser, .addHook userKey (), .removeMigration userKey]).registry.migrationsFor "User" := by
    decide +kernel
  obtain ⟨binding, found⟩ := (inStep.bound userEdge).mpr ⟨"User", _, stays, rfl⟩
  cases unbound.symm.trans found

end Pyverge
