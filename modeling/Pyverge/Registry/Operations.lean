import Pyverge.Registry.Health

/-! The mutating operations of the registry.
Each is a program over the stores that keeps what it has already written when it raises.
-/

namespace Pyverge

variable {V F : Type}

-----------------------------------------------------------------------------------------
-- Collaborators
-----------------------------------------------------------------------------------------

/-- A migration callable with the attributes its identity is read from. -/
structure MigrationFunc (F : Type) where
  call : F
  name : Option String
  migrationIdentity : Option MigrationDescriptor
  migrationId : Option String
  moduleName : Option String
  qualname : Option String
  firstLine : Option Nat
  deriving DecidableEq

/-- Whether the text of a name contains `<lambda>`. -/
def isLambdaName (qualname : String) : Bool :=
  (qualname.splitOn "<lambda>").length != 1

/-- `DefaultMigrationIdentityResolver.resolve` -/
def resolveMigrationIdentity (func : MigrationFunc F) : Except (Error V) MigrationDescriptor :=
  let unstable : Except (Error V) MigrationDescriptor := .error (.valueError
    ("Plain migration callables require a stable identity; "
      ++ "set __migration_id__ or implement migration_identity"))
  match func.migrationIdentity with
  | some declared => .ok declared
  | none =>
      match func.migrationId.filter (· ≠ "") with
      | some explicit => .ok ⟨"callable", explicit⟩
      | none =>
          match func.moduleName.filter (· ≠ ""), func.qualname.filter (· ≠ "") with
          | some moduleName, some qualname =>
              match func.firstLine with
              | some line =>
                  if isLambdaName qualname then
                    .ok ⟨"callable", moduleName ++ "." ++ qualname ++ ":" ++ toString line⟩
                  else .ok ⟨"callable", moduleName ++ "." ++ qualname⟩
              | none => .ok ⟨"callable", moduleName ++ "." ++ qualname⟩
          | _, _ => unstable

/-- A normalized migration registration request. -/
structure MigrationSpec (V F : Type) where
  source : Comparable V
  target : Comparable V
  func : MigrationFunc F
  discriminator : String

/-- The reflection port: diffs between versions and nodes materialized from diffs. -/
structure ReflectionPort (V F : Type) where
  diff : VersionNode V → Comparable V → Option (MigrationFunc F) → Except (Error V) (Diff V)
  reflect : Diff V → Except (Error V) (VersionNode V)

/-- The missing-endpoint policy of the settings. -/
inductive OnMissing where
  | reconstructModel
  | reconstructMigration
  | raise
  | skip
  deriving DecidableEq

/-- The immutable collaborators of a registry. -/
structure Config (V F : Type) where
  hasher : ContentHasher
  reflection : Option (ReflectionPort V F)
  linters : List (HealthLinter V)
  onMissing : OnMissing

namespace Registry

variable [DecidableEq V] [VersionValue V]

-----------------------------------------------------------------------------------------
-- Reads that insert an empty bucket
-----------------------------------------------------------------------------------------

omit [DecidableEq V] [VersionValue V] in
/-- `self._by_kinds[kind]` -/
def touchKind (kind : ModelKind) : RegistryM V PUnit :=
  modify (fun registry => { registry with byKinds := registry.byKinds.setDefault kind [] })

omit [DecidableEq V] [VersionValue V] in
/-- `self._migrations[kind]` -/
def touchMigrations (kind : ModelKind) : RegistryM V PUnit :=
  modify (fun registry => { registry with migrations := registry.migrations.setDefault kind [] })

omit [DecidableEq V] in
def isAdjacent (key : EdgeId V) : RegistryM V Bool := do
  touchKind key.kind
  let source ← Py.query (fun registry => bisectNodes (registry.kindEntries key.kind) key.source)
  let target ← Py.query (fun registry => bisectNodes (registry.kindEntries key.kind) key.target)
  return source == target + 1 || target == source + 1

omit [DecidableEq V] in
def isCriticalEdge (key : EdgeId V) : RegistryM V Bool := do
  touchMigrations key.kind
  let index ← Py.query (fun registry => bisectEdges (registry.edges key.kind) key)
  let count ← Py.query (fun registry => .ok (registry.edges key.kind).length)
  return decide (2 < count) && (decide (0 < index) || decide (index + 1 < count))

/-- `hooks(key)` subscribes the hook map. -/
def hooksAt (key : EdgeId V) : RegistryM V (List HookRef) := do
  modify (fun registry => { registry with hooks := registry.hooks.setDefault key [] })
  Py.query (fun registry => .ok (registry.getHooks key))

-----------------------------------------------------------------------------------------
-- Node entries
-----------------------------------------------------------------------------------------

omit [DecidableEq V] [VersionValue V] in
def setKindEntries (registry : Registry V) (kind : ModelKind) (entries : List (NodeEntry V))
    : Registry V :=
  { registry with byKinds := registry.byKinds.set kind entries }

/-- Insert a new node entry; reject duplicates. -/
def store (config : Config V F) (entry : NodeEntry V) : RegistryM V (NodeEntry V) := do
  if (← Py.query (fun registry => registry.findEntry entry.id)).isSome then
    let catalog ← Py.query (fun registry => .ok registry.nameSpace)
    throw (.modelAlreadyRegistered catalog entry.id)
  let index ← Py.query (fun registry => bisectNodes registry.byVersions entry.id)
  modify (fun registry => { registry with byVersions := registry.byVersions.insertIdx index entry })
  touchKind entry.kind
  let index ← Py.query (fun registry => bisectNodes (registry.kindEntries entry.kind) entry.id)
  modify (fun registry =>
    registry.setKindEntries entry.kind ((registry.kindEntries entry.kind).insertIdx index entry))
  modify (fun registry =>
    match entry with
    | .versionKey _ => registry
    | .versionNode node => { registry with byModels := registry.byModels.set node.modelref node })
  let affected ← Py.query (fun registry => .ok (affectedByNodeChange registry entry))
  refreshHealth config.linters affected
  return entry

/-- Remove a node entry and its conditional secondary indexes. -/
def removeEntry (config : Config V F) (entry : NodeEntry V) : RegistryM V PUnit := do
  let affected ← Py.query (fun registry => .ok (affectedByNodeChange registry entry))
  if (← Py.query (fun registry => findNode registry.byVersions entry.id)).isSome then
    let index ← Py.query (fun registry => bisectNodes registry.byVersions entry.id)
    modify (fun registry => { registry with byVersions := registry.byVersions.eraseIdx index })
  touchKind entry.kind
  if (← Py.query (fun registry =>
      findNode (registry.kindEntries entry.kind) entry.id)).isSome then
    let index ← Py.query (fun registry => bisectNodes (registry.kindEntries entry.kind) entry.id)
    modify (fun registry =>
      registry.setKindEntries entry.kind ((registry.kindEntries entry.kind).eraseIdx index))
  modify (fun registry =>
    match entry with
    | .versionKey _ => registry
    | .versionNode node => { registry with byModels := registry.byModels.erase node.modelref })
  modifyHealth (fun index => index.dropEntity (.node (.versioned entry)))
  refreshHealth config.linters (affected.filter (fun entity => entity.id ≠ .node entry.id))

/-- Insert or reconcile an existing node entry. -/
def reconcile (config : Config V F) (entry : NodeEntry V) : RegistryM V (NodeEntry V) := do
  match ← Py.query (fun registry => registry.findEntry entry.id) with
  | none => store config entry
  | some existing =>
      let catalog ← Py.query (fun registry => .ok registry.nameSpace)
      if !existing.isModel && entry.isModel then
        throw (.catalogError catalog
          ("Cannot reconcile key-only entry " ++ entry.id.str ++ "; hydrate it instead"))
      match entry.reconcile existing with
      | none => throw (.modelConflict catalog entry.id existing.fields entry.fields)
      | some .existing => return existing
      | some .self =>
          removeEntry config existing
          store config entry

/-- Upgrade a key-only entry with its full version node. -/
def hydrate (config : Config V F) (entry : NodeEntry V) : RegistryM V (NodeEntry V) := do
  match entry with
  | .versionKey _ =>
      throw (.typeError "Hydration requires a VersionNode, got VersionKey")
  | .versionNode _ =>
      match ← Py.query (fun registry => registry.findEntry entry.id) with
      | none => store config entry
      | some existing =>
          if existing.isModel then reconcile config entry
          else
            removeEntry config existing
            store config entry

/-- Remove a version that no executable edge touches. -/
def removeModel (config : Config V F) (key : NodeId V) : RegistryM V PUnit := do
  let versionIndex ← Py.query (fun registry => bisectNodes registry.byVersions key)
  touchKind key.kind
  let kindIndex ← Py.query (fun registry => bisectNodes (registry.kindEntries key.kind) key)
  let catalog ← Py.query (fun registry => .ok registry.nameSpace)
  match ← Py.query (fun registry => findNode registry.byVersions key) with
  | none => throw (.catalogError catalog ("Version " ++ key.str ++ " is not registered"))
  | some version =>
      let incident ← Py.query (fun registry => .ok (registry.migrationsOf key))
      if !incident.isEmpty then
        let ordered := incident.insertionSort (fun left right => left.id.cmp right.id ≠ .gt)
        throw (.catalogError catalog
          ("Cannot remove version " ++ key.str ++ ": it is referenced by migrations: "
            ++ ", ".intercalate (ordered.map (fun edge =>
              edge.source.id.str ++ "→" ++ edge.target.id.str))))
      let affected ← Py.query (fun registry => .ok (affectedByNodeChange registry version))
      modify (fun registry =>
        registry.setKindEntries key.kind ((registry.kindEntries key.kind).eraseIdx kindIndex))
      modify (fun registry =>
        match version with
        | .versionKey _ => registry
        | .versionNode node => { registry with byModels := registry.byModels.erase node.modelref })
      modify (fun registry =>
        { registry with byVersions := registry.byVersions.eraseIdx versionIndex })
      modifyHealth (fun index => index.dropEntity (.node (.versioned version)))
      refreshHealth config.linters (affected.filter (fun entity => entity.id ≠ .node version.id))

def removeModelByRef (config : Config V F) (ref : ModelRef) : RegistryM V PUnit := do
  match ← Py.query (fun registry => .ok (registry.byModels.get? ref)) with
  | none =>
      let catalog ← Py.query (fun registry => .ok registry.nameSpace)
      throw (.modelNotFound catalog ref.entityId)
  | some node => removeModel config node.id

/-- The guard is the truth of the map itself: a kind with an empty edge list blocks it. -/
def clearModels (config : Config V F) : RegistryM V PUnit := do
  if !(← Py.query (fun registry => .ok registry.migrations.keys.isEmpty)) then
    let catalog ← Py.query (fun registry => .ok registry.nameSpace)
    throw (.catalogError catalog "Clear migrations first")
  modify (fun registry => { registry with byVersions := [], byModels := ∅, byKinds := ∅ })
  rebuildHealth config.linters

-----------------------------------------------------------------------------------------
-- Edges
-----------------------------------------------------------------------------------------

omit [VersionValue V] in
/-- `self._edges_by_version[endpoint].add(edge)`; a set keeps the equal element it has. -/
def addIncident (edge : EdgeEntry V) (edgesByVersion : Py.Dict (NodeId V) (List (EdgeEntry V)))
    (endpoint : NodeId V) : Py.Dict (NodeId V) (List (EdgeEntry V)) :=
  let bucket := edgesByVersion.getD endpoint []
  edgesByVersion.set endpoint
    (if bucket.any (fun other => other.id = edge.id) then bucket else bucket ++ [edge])

omit [VersionValue V] in
/-- Discard an edge from the set of one endpoint; an empty set is deleted. -/
def discardIncident (edge : EdgeId V) (edgesByVersion : Py.Dict (NodeId V) (List (EdgeEntry V)))
    (endpoint : NodeId V) : Py.Dict (NodeId V) (List (EdgeEntry V)) :=
  match edgesByVersion.get? endpoint with
  | none => edgesByVersion
  | some bucket =>
      let remaining := bucket.filter (fun other => other.id ≠ edge)
      if remaining.isEmpty then edgesByVersion.erase endpoint
      else edgesByVersion.set endpoint remaining

omit [VersionValue V] in
def indexEdge (registry : Registry V) (edge : EdgeEntry V) : Registry V :=
  { registry with
    edgesByVersion :=
      addIncident edge (addIncident edge registry.edgesByVersion edge.id.source) edge.id.target }

omit [VersionValue V] in
def unindexEdge (registry : Registry V) (edge : EdgeId V) : Registry V :=
  { registry with
    edgesByVersion :=
      discardIncident edge (discardIncident edge registry.edgesByVersion edge.source) edge.target }

omit [DecidableEq V] [VersionValue V] in
def setEdges (registry : Registry V) (kind : ModelKind) (paths : List (EdgeEntry V))
    : Registry V :=
  { registry with migrations := registry.migrations.set kind paths }

/-- Insert an edge that no equal edge precedes, index it and refresh what it touches. -/
def insertEdge (config : Config V F) (edge : EdgeEntry V) : RegistryM V (EdgeEntry V) := do
  let index ← Py.query (fun registry =>
    Py.bisectRight (fun other => edge.id.lt other.id) (registry.edges edge.kind))
  modify (fun registry =>
    registry.setEdges edge.kind ((registry.edges edge.kind).insertIdx index edge))
  modify (fun registry => registry.indexEdge edge)
  match edge with
  | .edgeKey _ => pure ()
  | .versionEdge version =>
      if (← Py.query (fun registry => .ok registry.digestIndex)).isSome then
        let digest ← Py.query (fun _ => version.digest config.hasher)
        modify (fun registry =>
          { registry with digestIndex := registry.digestIndex.map (·.set digest edge.id) })
  refreshHealth config.linters (affectedByEdgeChange (.stored edge))
  return edge

/-- The part of `store_migration` that files an edge: equal executable edges must have equal
content, and an executable edge replaces a key-only one.
-/
def fileEdge (config : Config V F) (edge : EdgeEntry V) : RegistryM V (EdgeEntry V) := do
  touchMigrations edge.kind
  match ← Py.query (fun registry => findEdgeIn (registry.edges edge.kind) edge.id) with
  | none => insertEdge config edge
  | some existing =>
      match edge, existing with
      | .versionEdge _, .edgeKey _ =>
          let index ← Py.query (fun registry => bisectEdges (registry.edges edge.kind) edge.id)
          modify (fun registry =>
            registry.setEdges edge.kind ((registry.edges edge.kind).eraseIdx index))
          modify (fun registry => registry.unindexEdge existing.id)
          insertEdge config edge
      | .versionEdge incoming, .versionEdge registered =>
          let registeredHash ← Py.query (fun _ => registered.digest config.hasher)
          let incomingHash ← Py.query (fun _ => incoming.digest config.hasher)
          if registeredHash ≠ incomingHash then
            let catalog ← Py.query (fun registry => .ok registry.nameSpace)
            throw (.migrationConflict catalog edge.id.source edge.id.target
              registeredHash incomingHash)
          return existing
      | .edgeKey _, _ => return existing

/-- Resolve one endpoint of a request, reconstructing it from the other one if allowed. -/
def reconstructEndpoint (config : Config V F) (reflection : ReflectionPort V F)
    (anchor : VersionNode V) (missing : Comparable V) (func : MigrationFunc F)
    : RegistryM V (VersionNode V) := do
  if config.onMissing ≠ .reconstructModel then
    let catalog ← Py.query (fun registry => .ok registry.nameSpace)
    throw (.modelNotFound catalog (VersionValue.str missing.id.version))
  let diff ← Py.query (fun _ => reflection.diff anchor missing (some func))
  let node ← Py.query (fun _ => reflection.reflect diff)
  let _ ← store config (.versionNode node)
  return node

/-- Both endpoints of a request; at least one of them has to be registered. -/
def resolveEndpoints (config : Config V F) (reflection : ReflectionPort V F)
    (spec : MigrationSpec V F) : RegistryM V (VersionNode V × VersionNode V) := do
  let resolvedFrom ← Py.query (fun registry => registry.findModel spec.source.id)
  let resolvedTo ← Py.query (fun registry => registry.findModel spec.target.id)
  match resolvedFrom, resolvedTo with
  | none, none =>
      let catalog ← Py.query (fun registry => .ok registry.nameSpace)
      throw (.modelNotFound catalog (VersionValue.str spec.source.id.version))
  | none, some target =>
      let source ← reconstructEndpoint config reflection target spec.source spec.func
      return (source, target)
  | some source, none =>
      let target ← reconstructEndpoint config reflection source spec.target spec.func
      return (source, target)
  | some source, some target => return (source, target)

/-- Reflect a registration request into an executable edge. -/
def reflectEdge (config : Config V F) (spec : MigrationSpec V F) : RegistryM V (VersionEdge V) := do
  let catalog ← Py.query (fun registry => .ok registry.nameSpace)
  match config.reflection with
  | none => throw (.catalogError catalog "Migration registration requires a reflection port")
  | some reflection =>
      if spec.source.kind ≠ spec.target.kind then
        throw (.catalogError catalog ("Cannot register migration across kinds: "
          ++ spec.source.kind ++ " != " ++ spec.target.kind))
      let (source, target) ← resolveEndpoints config reflection spec
      let pair ← Py.query (fun _ => EdgePair.fromPair (.versioned (.versionNode source))
        (.versioned (.versionNode target)) defaultDiscriminator)
      if !(← isAdjacent pair.id) then
        throw (.catalogError catalog ("Cannot register migration with skip versions: "
          ++ spec.source.id.str ++ "→" ++ spec.target.id.str))
      let migration ← Py.query (fun _ => resolveMigrationIdentity spec.func)
      let diff ← Py.query (fun _ =>
        reflection.diff source (.versioned (.versionNode target)) none)
      if named : spec.discriminator ≠ "" then
        if same : source.id.nameSpace = target.id.nameSpace ∧ source.id.kind = target.id.kind then
          return {
            source, target, diff, migration
            discriminator := spec.discriminator
            ref := ⟨migration.strategy, migration.identity⟩
            named
            sameNamespace := same.1
            sameKind := same.2
          }
        else throw (.valueError "Cross-kind edges are forbidden")
      else throw (.valueError "EdgeId discriminator must be a non-empty string")

/-- A registration request or a direct edge entry. -/
inductive MigrationInput (V F : Type) where
  | spec (spec : MigrationSpec V F)
  | edge (edge : EdgeEntry V)

/-- Store a migration request or a direct edge entry. -/
def storeMigration (config : Config V F) (input : MigrationInput V F)
    : RegistryM V (EdgeEntry V) := do
  match input with
  | .spec spec =>
      let edge ← reflectEdge config spec
      fileEdge config (.versionEdge edge)
  | .edge edge =>
      match edge with
      | .edgeKey _ => pure ()
      | .versionEdge _ =>
          let registered ← Py.query (fun registry => do
            if !(← containsNode registry.byVersions edge.id.source) then return false
            containsNode registry.byVersions edge.id.target)
          if !registered then
            let catalog ← Py.query (fun registry => .ok registry.nameSpace)
            throw (.migrationNotFound catalog edge.id.source edge.id.target)
      fileEdge config edge

/-- Remove an edge that has no hooks. Removing an absent edge still refreshes the given key. -/
def removeMigration (config : Config V F) (key : Transitional V) : RegistryM V PUnit := do
  if ← Py.query (fun registry => .ok (registry.hasHooks key.id)) then
    let catalog ← Py.query (fun registry => .ok registry.nameSpace)
    throw (.catalogError catalog ("Cannot remove migration " ++ key.id.str
      ++ ": it has registered hooks. Clear hooks first."))
  touchMigrations key.kind
  match ← Py.query (fun registry => findEdgeIn (registry.edges key.kind) key.id) with
  | none =>
      refreshHealth config.linters (affectedByEdgeChange key)
  | some existing =>
      let index ← Py.query (fun registry => bisectEdges (registry.edges key.kind) key.id)
      modify (fun registry =>
        registry.setEdges key.kind ((registry.edges key.kind).eraseIdx index))
      modify (fun registry =>
        if (registry.edges key.kind).isEmpty then
          { registry with migrations := registry.migrations.erase key.kind }
        else registry)
      match existing with
      | .edgeKey _ => pure ()
      | .versionEdge version =>
          if (← Py.query (fun registry => .ok registry.digestIndex)).isSome then
            let digest ← Py.query (fun _ => version.digest config.hasher)
            modify (fun registry =>
              { registry with digestIndex := registry.digestIndex.map (·.erase digest) })
      modify (fun registry => registry.unindexEdge key.id)
      modifyHealth (fun index => index.dropEntity (.edge (.stored existing)))
      refreshHealth config.linters
        ((affectedByEdgeChange (.stored existing)).filter
          (fun entity => entity.id ≠ .edge existing.id))

-----------------------------------------------------------------------------------------
-- Hooks
-----------------------------------------------------------------------------------------

def addHook (config : Config V F) (key : Transitional V) (hook : HookRef) : RegistryM V PUnit := do
  modify (fun registry =>
    { registry with hooks := registry.hooks.set key.id (registry.getHooks key.id ++ [hook]) })
  refreshHealth config.linters [.edge key]

private def noHooks (catalog : String) (key : EdgeId V) : Error V :=
  .catalogError catalog ("No hooks registered for migration " ++ key.str)

/-- Remove one hook, or all hooks of the edge when none is named. -/
def removeHook (config : Config V F) (key : Transitional V) (hook : Option HookRef)
    : RegistryM V PUnit := do
  if !(← Py.query (fun registry => .ok (registry.hasHooks key.id))) then
    let catalog ← Py.query (fun registry => .ok registry.nameSpace)
    throw (noHooks catalog key.id)
  match hook with
  | none => modify (fun registry => { registry with hooks := registry.hooks.erase key.id })
  | some hook =>
      let registered ← Py.query (fun registry => .ok (registry.getHooks key.id))
      if !registered.any (·.eq hook) then
        throw (.valueError ("Hook " ++ hook.entityId ++ " is not registered for migration "
          ++ key.id.str))
      let remaining := registered.eraseP (·.eq hook)
      modify (fun registry =>
        { registry with
          hooks := if remaining.isEmpty then registry.hooks.erase key.id
            else registry.hooks.set key.id remaining })
  refreshHealth config.linters [.edge key]

def clearHooks (key : Option (EdgeId V)) : RegistryM V PUnit := do
  match key with
  | none => modify (fun registry => { registry with hooks := ∅ })
  | some key =>
      if !(← Py.query (fun registry => .ok (registry.hasHooks key))) then
        let catalog ← Py.query (fun registry => .ok registry.nameSpace)
        throw (noHooks catalog key)
      modify (fun registry => { registry with hooks := registry.hooks.erase key })

-----------------------------------------------------------------------------------------
-- Bulk operations
-----------------------------------------------------------------------------------------

def clearMigrations (config : Config V F) : RegistryM V PUnit := do
  clearHooks none
  modify (fun registry =>
    { registry with
      migrations := ∅
      edgesByVersion := ∅
      digestIndex := registry.digestIndex.map (fun _ => ∅) })
  rebuildHealth config.linters

/-- The keys that `remove_migration_range` removes: consecutive hydrated versions in the range
that a migration joins. The index may run past the last version.
-/
def rangeKeys (versions : List (VersionNode V)) : List Nat → RegistryM V (List (EdgePair V))
  | [] => return []
  | index :: rest => do
      match versions[index]?, versions[index + 1]? with
      | some source, some target =>
          let pair ← Py.query (fun _ => EdgePair.fromPair (.versioned (.versionNode source))
            (.versioned (.versionNode target)) defaultDiscriminator)
          if !(← Py.query (fun registry => registry.hasMigration pair.id)) then
            rangeKeys versions rest
          else
            let catalog ← Py.query (fun registry => .ok registry.nameSpace)
            if ← isAdjacent pair.id then
              throw (.catalogError catalog ("Cannot remove critical migration "
                ++ pair.id.source.str ++ "→" ++ pair.id.target.str ++ " in range. "
                ++ "Remove it individually with force=True or remove hooks first."))
            if ← Py.query (fun registry => .ok (registry.hasHooks pair.id)) then
              throw (.catalogError catalog ("Cannot remove migration "
                ++ pair.id.source.str ++ "→" ++ pair.id.target.str ++ ". Remove hooks first."))
            let later ← rangeKeys versions rest
            return pair :: later
      | _, _ => throw (.raised "IndexError: list index out of range")

def removeMigrationRange (config : Config V F) (fromVersion toVersion : NodeId V)
    : RegistryM V PUnit := do
  let versions ← Py.query (fun registry => .ok (registry.kindVersions fromVersion.kind))
  let lo ← Py.query (fun _ => Py.bisectLeft (fun version => version.id.lt fromVersion) versions)
  let hi ← Py.query (fun _ => Py.bisectLeft (fun version => version.id.lt toVersion) versions)
  let keys ← rangeKeys versions (List.range' lo (hi - lo))
  keys.forM (fun pair => removeMigration config (.stored (.edgeKey pair)))

/-- Refuse to delete a kind that an edge to a version outside it touches. -/
def checkOwnEdges (kind : ModelKind) (versions : List (VersionNode V)) (edge : VersionEdge V)
    : RegistryM V PUnit := do
  if !(versions.any (fun version => version.id = edge.source.id)
      && versions.any (fun version => version.id = edge.target.id)) then
    let catalog ← Py.query (fun registry => .ok registry.nameSpace)
    throw (.catalogError catalog ("Cannot delete kind " ++ EdgePair.quoted kind
      ++ ": version is referenced by cross-kind migration "
      ++ edge.source.id.str ++ "→" ++ edge.target.id.str))

/-- Remove one executable edge of a kind together with its hooks. -/
def removeOwnEdge (config : Config V F) (versions : List (VersionNode V)) (edge : VersionEdge V)
    : RegistryM V PUnit := do
  if versions.any (fun version => version.id = edge.source.id)
      && versions.any (fun version => version.id = edge.target.id) then
    if ← Py.query (fun registry => .ok (registry.hasHooks edge.id)) then
      clearHooks (some edge.id)
    removeMigration config (.stored (.edgeKey edge.pair))

def deleteKind (config : Config V F) (kind : ModelKind) : RegistryM V PUnit := do
  let versions ← Py.query (fun registry => .ok (registry.kindVersions kind))
  if versions.isEmpty then return ()
  versions.forM (fun version => do
    let incident ← Py.query (fun registry => .ok (registry.migrationsOf version.id))
    incident.forM (checkOwnEdges kind versions))
  versions.forM (fun version => do
    let incident ← Py.query (fun registry => .ok (registry.migrationsOf version.id))
    incident.forM (removeOwnEdge config versions))
  versions.reverse.forM (fun version =>
    tryCatch (removeModel config version.id)
      (fun error => if error.isCatalogError then pure () else throw error))

/-- Replace the stores with a copy of another registry; its digest index only if it has one. -/
def copyFrom (source : Registry V) : RegistryM V PUnit :=
  modify (fun registry =>
    { source with
      nameSpace := registry.nameSpace
      digestIndex := source.digestIndex.orElse (fun _ => registry.digestIndex) })

end Registry

end Pyverge
