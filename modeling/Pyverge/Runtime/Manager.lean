import Pyverge.Registry.Runs
import Pyverge.Runtime.Plan

/-! Registration through a manager: migrations and hooks under any of its keys.
The registry of an engine and the bindings of the runtime are two stores, and each method updates
one after the other.
-/

namespace Pyverge

variable {V M F H : Type}

-----------------------------------------------------------------------------------------
-- Keys
-----------------------------------------------------------------------------------------

/-- The keys of migrations: a deprecated pair of classes, a kind with two versions, or an edge. Any
other value is shown in an error.
-/
inductive MigrationKey (V M : Type) where
  | modelPair (source target : M)
  | migrationKey (kind : ModelKind) (sourceVersion targetVersion discriminator : String)
  | edgeKey (edge : EdgeEntry V)
  | unsupported (shown : String)

/-- The discriminator of a new edge. An edge key has its own, and does not take another one. -/
def MigrationKey.discriminatorOf (given : Option String) : MigrationKey V M → String
  | .modelPair _ _ => given.getD defaultDiscriminator
  | .migrationKey _ _ _ discriminator => (given.filter (· ≠ "")).getD discriminator
  | .edgeKey edge => edge.pair.discriminator
  | .unsupported _ => ""

/-- What the methods of a manager ask of the registry, the adapter and the bindings. `setMigrationId`
sets the attribute `__migration_id__`, which some callables refuse.
-/
structure ManagerSetup (V M F H : Type) where
  config : Config V F
  versionable : M → Except (Error V) (VersionNode V)
  versionKey : ModelKind → String → Except (Error V) (NodeId V)
  hookRefs : H → HookRef
  setMigrationId : MigrationFunc F → String → Except (Error V) (MigrationFunc F)

namespace ManagerSetup

variable (setup : ManagerSetup V M F H)

/-- The endpoints of a key. -/
def pair : MigrationKey V M → Except (Error V) (Comparable V × Comparable V)
  | .modelPair source target => do
      let source ← setup.versionable source
      let target ← setup.versionable target
      return (.versioned (.versionNode source), .versioned (.versionNode target))
  | .migrationKey kind sourceVersion targetVersion _ => do
      let source ← setup.versionKey kind sourceVersion
      let target ← setup.versionKey kind targetVersion
      return (.versioned (.versionKey source), .versioned (.versionKey target))
  | .edgeKey edge => .ok (edge.pair.source, edge.pair.target)
  | .unsupported shown => .error (.typeError ("Unsupported migration key: " ++ shown))

/-- The edge of a key. A pair of classes stands for the edge with the default discriminator. -/
def edgeOf (key : MigrationKey V M) : Except (Error V) (EdgeEntry V) :=
  match key with
  | .modelPair _ _ => do
      let (source, target) ← setup.pair key
      return .edgeKey (← EdgePair.fromPair source target defaultDiscriminator)
  | .migrationKey _ _ _ discriminator => do
      let (source, target) ← setup.pair key
      return .edgeKey (← EdgePair.fromPair source target discriminator)
  | .edgeKey edge => .ok edge
  | .unsupported shown => .error (.typeError ("Unsupported migration key: " ++ shown))

/-- The callable with the identity that is given for it. -/
def identified (func : MigrationFunc F) : Option String → Except (Error V) (MigrationFunc F)
  | some migrationId => setup.setMigrationId func migrationId
  | none => .ok func

end ManagerSetup

-----------------------------------------------------------------------------------------
-- The engine
-----------------------------------------------------------------------------------------

namespace Engine

variable [DecidableEq V] [VersionValue V]

/-- `Engine.remove_migration` -/
def removeMigration (config : Config V F) (key : EdgeEntry V) (force : Bool)
    : RegistryM V PUnit := do
  let edge ← Py.query (fun registry => registry.getMigrationByEdge key.id)
  if !force then
    let catalog ← Py.query (fun registry => .ok registry.nameSpace)
    let ends := key.id.source.str ++ "→" ++ key.id.target.str
    if !(← Registry.isAdjacent key.id) then
      throw (.catalogError catalog ("Cannot remove migration " ++ ends
        ++ ": it is not adjacent to any other version."))
    if ← Registry.isCriticalEdge key.id then
      throw (.catalogError catalog ("Cannot remove critical migration " ++ ends
        ++ ". It is on the critical path. Use force=True to override."))
  Registry.removeMigration config (.stored (.edgeKey edge.pair))

/-- `Engine.add_hook` -/
def addHook (config : Config V F) (key : EdgeEntry V) (hook : HookRef) : RegistryM V PUnit := do
  let edge ← Py.query (fun registry => registry.getMigrationByEdge key.id)
  Registry.addHook config (.stored (.versionEdge edge)) hook

end Engine

-----------------------------------------------------------------------------------------
-- The manager
-----------------------------------------------------------------------------------------

/-- The registry of an engine beside the bindings of the runtime. -/
structure ManagerStores (V F H : Type) where
  registry : Registry V
  bindings : MigrationBindings V F H
  deriving DecidableEq

/-- Programs over both stores. -/
abbrev ManagerM (V F H : Type) := EStateM (Error V) (ManagerStores V F H)

namespace Manager

/-- A program of the registry; the bindings stay. -/
def onRegistry {α : Type} (program : RegistryM V α) : ManagerM V F H α :=
  Py.zoom ManagerStores.registry (fun registry stores => { stores with registry }) id program

/-- A change of the bindings; the registry stays. -/
def onBindings (update : MigrationBindings V F H → MigrationBindings V F H)
    : ManagerM V F H PUnit :=
  modify (fun stores => { stores with bindings := update stores.bindings })

variable [DecidableEq V] [VersionValue V] (setup : ManagerSetup V M F H)

/-- `Manager.store_migration`: the callable is bound after the edge has been stored. -/
def storeMigration (key : MigrationKey V M) (func : MigrationFunc F) (migrationId : Option String)
    (discriminator : Option String) : ManagerM V F H (MigrationFunc F) := do
  let (source, target) ← Py.query (fun _ => setup.pair key)
  let func ← Py.query (fun _ => setup.identified func migrationId)
  let stored ← onRegistry (Registry.storeMigration setup.config (.spec {
    source, target, func, discriminator := key.discriminatorOf discriminator }))
  match stored with
  | .edgeKey _ => pure ()
  | .versionEdge edge =>
      onBindings (fun bindings => bindings.storeMigration edge.id func edge.migration)
  return func

/-- `Manager.remove_migration`: what is bound goes before the engine is asked. -/
def removeMigration (key : MigrationKey V M) : ManagerM V F H PUnit := do
  let edge ← Py.query (fun _ => setup.edgeOf key)
  onBindings (fun bindings => bindings.removeMigration edge.id)
  onRegistry (Engine.removeMigration setup.config edge false)

/-- Bind a hook, then register it with the engine. -/
def bindHook (edge : EdgeEntry V) (hook : H) : ManagerM V F H PUnit := do
  onBindings (fun bindings => bindings.addHook setup.hookRefs edge.id hook)
  onRegistry (Engine.addHook setup.config edge (setup.hookRefs hook))

/-- `Manager.add_hook` -/
def addHook (key : MigrationKey V M) (hook : H) : ManagerM V F H PUnit := do
  let edge ← Py.query (fun _ => setup.edgeOf key)
  bindHook setup edge hook

/-- `Manager.attach_hooks` -/
def attachHooks (hooks : List H) : ManagerM V F H PUnit :=
  hooks.forM (fun hook => do
    let kinds ← Py.query (fun stores => .ok stores.registry.kinds)
    kinds.forM (fun kind => do
      let edges ← Py.query (fun stores => .ok (stores.registry.migrationsFor kind))
      edges.forM (fun edge => bindHook setup (.edgeKey edge.pair) hook)))

end Manager

/-- A call of a method that registers. -/
inductive ManagerCall (V M F H : Type) where
  | storeMigration (key : MigrationKey V M) (func : MigrationFunc F) (migrationId : Option String)
      (discriminator : Option String)
  | removeMigration (key : MigrationKey V M)
  | addHook (key : MigrationKey V M) (hook : H)
  | attachHooks (hooks : List H)

/-- Run a call and drop what it returns. -/
def ManagerCall.run [DecidableEq V] [VersionValue V] (setup : ManagerSetup V M F H)
    : ManagerCall V M F H → ManagerM V F H PUnit
  | .storeMigration key func migrationId discriminator => do
      let _ ← Manager.storeMigration setup key func migrationId discriminator
  | .removeMigration key => Manager.removeMigration setup key
  | .addHook key hook => Manager.addHook setup key hook
  | .attachHooks hooks => Manager.attachHooks setup hooks

-----------------------------------------------------------------------------------------
-- Frames
-----------------------------------------------------------------------------------------

namespace Manager

section Frames

variable {α : Type} {Inv : ManagerStores V F H → Prop}

theorem onRegistry_preserves {program : RegistryM V α}
    (kept : ∀ stores, Inv stores → Inv { stores with registry := Py.after program stores.registry })
    : Py.Preserves Inv (onRegistry (F := F) (H := H) program) := by
  intro stores holds
  have reached := kept stores holds
  unfold onRegistry
  unfold Py.after at reached ⊢
  unfold Py.zoom
  cases ran : program stores.registry with
  | ok value registry =>
      rw [ran] at reached
      exact reached
  | error error registry =>
      rw [ran] at reached
      exact reached

end Frames

end Manager

end Pyverge
