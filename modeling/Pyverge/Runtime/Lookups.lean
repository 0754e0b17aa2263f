import Pyverge.Planning.Chains
import Pyverge.Py.Repr
import Pyverge.Runtime.TwoStores

/-! Lookups through a manager: `index in manager` and `manager[index]`.
A slice stands for the migrations between two versions, which a snapshot of the registry finds.
-/

namespace Pyverge

variable {V M F : Type}

-----------------------------------------------------------------------------------------
-- Indexes
-----------------------------------------------------------------------------------------

/-- What stands for one version: a kind with the text of a version, an identity, or a class. -/
inductive ModelIndex (V M : Type) where
  | named (kind : ModelKind) (version : String)
  | node (key : Comparable V)
  | model (model : M)

inductive ManagerIndex (V M : Type) where
  | model (key : ModelIndex V M)
  | edge (key : Transitional V)
  | pair (source target : Comparable V)
  | slice (start stop : ModelIndex V M)
  | unsupported (shown : String)

/-- What an index of a manager is turned into for the engine. -/
inductive EngineIndex (V : Type) where
  | node (key : NodeId V)
  | edge (key : EdgeId V)

/-- What an index stands for. -/
inductive Found (V : Type) where
  | node (entry : NodeEntry V)
  | edge (entry : EdgeEntry V)
  | path (migrations : List (VersionEdge V))

/-- The namespace and the adapter of an engine, and the hasher of its snapshots. -/
structure LookupSetup (M : Type) where
  nameSpace : String
  identifies : M → Bool
  modelRef : M → ModelRef
  shownModel : M → String
  hasher : ContentHasher
  printable : Char → Bool

/-- The errors that `Engine.__contains__` takes for an absence. -/
def Error.absentForEngine : Error V → Bool
  | .typeError _ => true
  | error => error.isCatalogError

/-- The errors that `Manager.__contains__` takes for an absence. -/
def Error.absentForManager : Error V → Bool
  | .typeError _ | .migrationPath .. | .migrationPathPair .. => true
  | error => error.isCatalogError

/-- An answer whose errors may stand for an absence. -/
def handled (absent : Error V → Bool) : Except (Error V) Bool → Except (Error V) Bool
  | .ok answer => .ok answer
  | .error error => if absent error then .ok false else .error error

/-- Whether a lookup returns, with the errors that stand for an absence. -/
def answered {α : Type} (absent : Error V → Bool) (lookup : Except (Error V) α)
    : Except (Error V) Bool :=
  handled absent (lookup.map (fun _ => true))

namespace LookupSetup

variable [DecidableEq V] [VersionValue V] (setup : LookupSetup M)

/-- `parse_version` of a text. -/
def parseVersion (text : String) : Except (Error V) V :=
  match VersionValue.parse text with
  | some version => .ok version
  | none => .error (.valueError ("Cannot parse version " ++ Py.reprStr setup.printable text
      ++ ". Expected semver (e.g. '1.0.0') or ISO date (e.g. '2024-06-01')."))

/-- `_resolve_model_key` -/
def resolveModelKey (registry : Registry V) : ModelIndex V M → Except (Error V) (NodeId V)
  | .named kind text => do
      let version ← setup.parseVersion text
      if named : setup.nameSpace = "" then
        throw (.valueError "NodeId namespace must be non-empty")
      else return ⟨setup.nameSpace, kind, version, named⟩
  | .node key => .ok key.id
  | .model model =>
      if setup.identifies model then
        (registry.getModelByRef (setup.modelRef model)).map VersionNode.id
      else .error (.modelNotFound setup.nameSpace (setup.shownModel model))

/-- `_normalize_index` of an index that is no slice. -/
def normalizeIndex (registry : Registry V) : ManagerIndex V M → Except (Error V) (EngineIndex V)
  | .model key => (setup.resolveModelKey registry key).map .node
  | .edge key => .ok (.edge key.id)
  | .pair source target =>
      (EdgePair.fromPair source target defaultDiscriminator).map (fun pair => .edge pair.id)
  | .slice _ _ => .error (.catalogError setup.nameSpace "Unsupported index type: <class 'slice'>")
  | .unsupported shown =>
      .error (.catalogError setup.nameSpace ("Unsupported index type: " ++ shown))

/-- `Engine.find_migration_path`, over a snapshot of its own. -/
def findMigrationPath (registry : Registry V) (fromVersion toVersion : NodeId V)
    : Except (Error V) (List (Comparable V × Comparable V)) := do
  let graph ← buildGraph setup.hasher registry none
  graph.migrationPath fromVersion toVersion

/-- `Engine.get_model` of what stands for a version. -/
def modelAt (registry : Registry V) (key : ModelIndex V M) : Except (Error V) (VersionNode V) := do
  registry.getModel (← setup.resolveModelKey registry key)

/-- The path between the versions of a slice. -/
def slicePath (registry : Registry V) (start stop : ModelIndex V M)
    : Except (Error V) (List (Comparable V × Comparable V)) := do
  let first ← setup.modelAt registry start
  let last ← setup.modelAt registry stop
  setup.findMigrationPath registry first.id last.id

/-- `Engine.get_migration` of the default edge between two versions. -/
def pathMigration (registry : Registry V) (ends : Comparable V × Comparable V)
    : Except (Error V) (VersionEdge V) := do
  let pair ← EdgePair.fromPair ends.1 ends.2 defaultDiscriminator
  registry.getMigrationByEdge pair.id

/-- `Registry.__getitem__` -/
def registryItem (registry : Registry V) : EngineIndex V → Except (Error V) (Found V)
  | .node key => do
      match ← registry.findEntry key with
      | some entry => return .node entry
      | none => throw (.modelNotFound registry.nameSpace (VersionValue.str key.version))
  | .edge key => (registry.findEdge key).map .edge

/-- The queries of `Registry.__contains__`. -/
def registryHolds (registry : Registry V) : EngineIndex V → Except (Error V) Bool
  | .node key => registry.hasEntry key
  | .edge key => registry.hasEdge key

/-- `Engine.__contains__` -/
def engineContains (registry : Registry V) (index : EngineIndex V) : Except (Error V) Bool :=
  handled Error.absentForEngine (registryHolds registry index)

/-- `Manager.__getitem__` -/
def getItem (registry : Registry V) : ManagerIndex V M → Except (Error V) (Found V)
  | .slice start stop => do
      let path ← setup.slicePath registry start stop
      return .path (← path.mapM (pathMigration registry))
  | index => do registryItem registry (← setup.normalizeIndex registry index)

/-- `Manager.__contains__` -/
def contains (registry : Registry V) : ManagerIndex V M → Except (Error V) Bool
  | .slice start stop => answered Error.absentForManager (setup.slicePath registry start stop)
  | index =>
      handled Error.absentForManager
        (setup.normalizeIndex registry index >>= engineContains registry)

end LookupSetup

-----------------------------------------------------------------------------------------
-- Slices
-----------------------------------------------------------------------------------------

section Slices

variable [DecidableEq V] [VersionValue V] {config : Config V F} {registry : Registry V}
  {setup : LookupSetup M}

/-- The path that a snapshot finds leads over executable edges. -/
theorem MigrationGraph.walk_of_edgePath {graph : MigrationGraph V} {discriminator : String}
    (snapshot : SnapshotOf registry graph) (stores : NodeStores registry)
    {fromVersion toVersion : NodeId V} {path : List (EdgePair V)}
    (walked : graph.edgePath fromVersion toVersion discriminator = .ok path)
    : Py.Walk (fun edge => edge.id.source) (fun edge => edge.id.target)
        (graph.Executable discriminator) fromVersion path toVersion := by
  obtain ⟨kinds, ⟨first, inFirst, rfl⟩, last, inLast, rfl⟩ :=
    MigrationGraph.ends_of_edgePath snapshot stores walked
  rw [← kinds] at inLast
  have leads := MigrationGraph.leads_of_edgePath snapshot stores inFirst inLast walked
  obtain ⟨lo, hi, atFirst, atLast, walk⟩ :=
    MigrationGraph.edgePath_eq_walkEdges snapshot stores discriminator inFirst inLast
  rw [walk] at walked
  exact leads.walk (fun edge member => MigrationGraph.mem_of_walkEdges snapshot walked member)

/-- A step of a path is found in the registry as the executable edge that the snapshot took. -/
theorem pathMigration_of_executable {graph : MigrationGraph V}
    (snapshot : SnapshotOf registry graph) (stores : EdgeStores registry) {edge : EdgePair V}
    (taken : graph.Executable defaultDiscriminator edge)
    : ∃ migration, LookupSetup.pathMigration registry (edge.source, edge.target) = .ok migration
        ∧ registry.edgeIndexes.Holds migration ∧ migration.pair = edge := by
  obtain ⟨member, label, executes⟩ := taken
  obtain ⟨migration, stored, same⟩ := (snapshot.executable _).mp executes
  obtain ⟨entry, inRegistry, shown⟩ := (snapshot.edges _).mp member
  have pair : migration.pair = edge := by
    have entries : EdgeEntry.versionEdge migration = entry :=
      stores.eq_of_id stored inRegistry (same.trans (congrArg EdgePair.id shown).symm)
    rw [← shown, ← entries]
    rfl
  have kind : edge.id.kind = migration.id.kind := congrArg EdgeId.kind same.symm
  have holds : registry.edgeIndexes.Holds migration := by
    rw [kind] at stored
    exact stored
  have built : EdgePair.fromPair edge.source edge.target defaultDiscriminator = .ok edge := by
    rw [← label, EdgePair.fromPair, dif_pos edge.named, dif_pos edge.sameNamespace,
      dif_pos edge.sameKind]
  refine ⟨migration, ?_, holds, pair⟩
  have found := stores.getMigrationByEdge_of_holds holds
  rw [same] at found
  rw [LookupSetup.pathMigration, built]
  exact found

/-- A walk of the snapshot is one of stored migrations, by induction over the walk. -/
theorem exists_pathMigrations {graph : MigrationGraph V} (snapshot : SnapshotOf registry graph)
    (stores : EdgeStores registry) {first last : NodeId V} {path : List (EdgePair V)}
    (walk : Py.Walk (fun edge => edge.id.source) (fun edge => edge.id.target)
      (graph.Executable defaultDiscriminator) first path last)
    : ∃ migrations,
        (path.map (fun edge => (edge.source, edge.target))).mapM
            (LookupSetup.pathMigration registry) = .ok migrations
        ∧ Py.Walk (fun edge => edge.source.id) (fun edge => edge.target.id)
            (fun edge => registry.edgeIndexes.Holds edge
              ∧ edge.discriminator = defaultDiscriminator)
            first migrations last := by
  induction walk with
  | stay node => exact ⟨[], rfl, .stay node⟩
  | @step first last edge rest accepted from_ _ ih =>
      obtain ⟨migration, found, holds, rfl⟩ :=
        pathMigration_of_executable snapshot stores accepted
      obtain ⟨later, foundLater, walkLater⟩ := ih
      refine ⟨migration :: later, ?_, .step ⟨holds, accepted.2.1⟩ from_ walkLater⟩
      rw [List.map_cons, List.mapM_cons, found, foundLater]
      rfl

/-- The path of a slice is a walk of stored default migrations from the one version to the other. -/
theorem Reachable.slicePath_migrations (reached : Reachable config registry)
    {start stop : ModelIndex V M} {path : List (Comparable V × Comparable V)}
    (found : setup.slicePath registry start stop = .ok path)
    : ∃ first last migrations,
        path.mapM (LookupSetup.pathMigration registry) = .ok migrations
        ∧ setup.modelAt registry start = .ok first ∧ setup.modelAt registry stop = .ok last
        ∧ Py.Walk (fun edge => edge.source.id) (fun edge => edge.target.id)
            (fun edge => registry.edgeIndexes.Holds edge
              ∧ edge.discriminator = defaultDiscriminator)
            first.id migrations last.id := by
  obtain ⟨first, isFirst, found⟩ := Py.ok_bind_iff.mp found
  obtain ⟨last, isLast, found⟩ := Py.ok_bind_iff.mp found
  obtain ⟨graph, built, found⟩ := Py.ok_bind_iff.mp found
  obtain ⟨edges, walked, rfl⟩ := Py.map_eq_ok.mp found
  have nodes := reached.nodeStores
  have snapshot := snapshotOf_buildGraph nodes reached.edgeStores built
  have walk := MigrationGraph.walk_of_edgePath snapshot nodes walked
  obtain ⟨migrations, mapped, stored⟩ :=
    exists_pathMigrations snapshot reached.edgeStores walk
  exact ⟨first, last, migrations, mapped, isFirst, isLast, stored⟩

-----------------------------------------------------------------------------------------
-- Membership and lookup agree
-----------------------------------------------------------------------------------------

omit [DecidableEq V] in
/-- The engine holds an index exactly if it finds something under it. -/
theorem engineContains_eq (index : EngineIndex V)
    : LookupSetup.engineContains registry index
      = answered Error.absentForEngine (LookupSetup.registryItem registry index) := by
  cases index with
  | node key =>
      simp only [LookupSetup.engineContains, LookupSetup.registryHolds, LookupSetup.registryItem,
        Registry.hasEntry]
      cases registry.findEntry key with
      | error error => rfl
      | ok entry => cases entry <;> rfl
  | edge key =>
      simp only [LookupSetup.engineContains, LookupSetup.registryHolds, LookupSetup.registryItem,
        Registry.hasEdge, Registry.findEdge]
      cases findEdgeIn (registry.edges key.kind) key with
      | error error => rfl
      | ok entry => cases entry <;> rfl

omit [DecidableEq V] [VersionValue V] in
/-- What the engine takes for an absence, the manager does as well. -/
theorem absentForManager_of_engine {error : Error V} (absent : error.absentForEngine = true)
    : error.absentForManager = true := by
  cases error <;> first | rfl | cases absent

omit [DecidableEq V] [VersionValue V] in
theorem handled_answered {α : Type} (result : Except (Error V) α)
    : handled Error.absentForManager (answered Error.absentForEngine result)
      = answered Error.absentForManager result := by
  cases result with
  | ok found => rfl
  | error error =>
      simp only [answered, handled, Except.map]
      cases absent : error.absentForEngine with
      | true => simp [absentForManager_of_engine absent]
      | false => simp

/-- What a manager finds under an index, it contains: other indexes raise the same error or are
absent.
-/
theorem contains_eq_of_index {index : ManagerIndex V M}
    (unsliced : ∀ start stop, index ≠ .slice start stop)
    : setup.contains registry index
      = answered Error.absentForManager (setup.getItem registry index) := by
  have item : setup.getItem registry index
      = setup.normalizeIndex registry index >>= LookupSetup.registryItem registry := by
    cases index with
    | slice start stop => exact (unsliced start stop rfl).elim
    | _ => rfl
  have held : setup.contains registry index
      = handled Error.absentForManager
        (setup.normalizeIndex registry index >>= LookupSetup.engineContains registry) := by
    cases index with
    | slice start stop => exact (unsliced start stop rfl).elim
    | _ => rfl
  rw [item, held]
  cases setup.normalizeIndex registry index with
  | error error => rfl
  | ok index =>
      change handled _ (LookupSetup.engineContains registry index)
        = answered _ (LookupSetup.registryItem registry index)
      rw [engineContains_eq, handled_answered]

/-- In every registry that can be reached, an index is contained exactly if looking it up returns:
both raise the same errors, and errors of absence are the answer no. A slice that returns is a walk
of stored default migrations between its hydrated versions.
-/
theorem Reachable.contains_getItem (reached : Reachable config registry)
    (setup : LookupSetup M) (index : ManagerIndex V M)
    : setup.contains registry index
        = answered Error.absentForManager (setup.getItem registry index)
      ∧ ∀ start stop found, setup.getItem registry (.slice start stop) = .ok found →
          ∃ first last migrations, found = .path migrations
            ∧ setup.modelAt registry start = .ok first ∧ setup.modelAt registry stop = .ok last
            ∧ Py.Walk (fun edge => edge.source.id) (fun edge => edge.target.id)
                (fun edge => registry.edgeIndexes.Holds edge
                  ∧ edge.discriminator = defaultDiscriminator)
                first.id migrations last.id := by
  constructor
  · cases index with
    | slice start stop =>
        simp only [LookupSetup.contains, LookupSetup.getItem]
        cases found : setup.slicePath registry start stop with
        | error error => rfl
        | ok path =>
            obtain ⟨first, last, migrations, mapped, _⟩ := reached.slicePath_migrations found
            change _ = answered _ (path.mapM (LookupSetup.pathMigration registry) >>= _)
            rw [mapped]
            rfl
    | _ => exact contains_eq_of_index (by simp)
  · intro start stop found got
    obtain ⟨path, isPath, got⟩ := Py.ok_bind_iff.mp got
    obtain ⟨first, last, migrations, mapped, inFirst, inLast, walk⟩ :=
      reached.slicePath_migrations isPath
    obtain ⟨shown, same, got⟩ := Py.ok_bind_iff.mp got
    obtain rfl := Except.ok.inj (same.symm.trans mapped)
    exact ⟨first, last, shown, (Except.ok.inj got).symm, inFirst, inLast, walk⟩

end Slices

/-- Lookups by texts of versions. -/
def textLookups : LookupSetup Unit where
  nameSpace := "default"
  identifies := fun _ => false
  modelRef := fun _ => ⟨"", ""⟩
  shownModel := fun _ => ""
  hasher := reflectingConfig.hasher
  printable := fun _ => true

/-- Witness: the slice between two releases that a migration joins. -/
theorem contains_getItem_joinedCatalog
    : textLookups.contains joinedCatalog (.slice (.named "User" "1.0.0") (.named "User" "3.0.0"))
        = .ok true
      ∧ textLookups.contains joinedCatalog
          (.slice (.named "User" "1.0.0") (.named "User" "3.0.0"))
        = answered Error.absentForManager (textLookups.getItem joinedCatalog
          (.slice (.named "User" "1.0.0") (.named "User" "3.0.0"))) := by
  have reached : Reachable reflectingConfig joinedCatalog := .step _ gappedCatalog_reachable
  exact ⟨by decide +kernel, (reached.contains_getItem textLookups _).1⟩

end Pyverge
