import Pyverge.Registry.State

/-! Health linters and the maps that cache their findings.
A linter reads the registry and one entity. The cache is refreshed entity by entity, so it is
right only if every mutation names all entities whose findings it may change.
-/

namespace Pyverge

variable {V : Type}

-----------------------------------------------------------------------------------------
-- Linters
-----------------------------------------------------------------------------------------

/-- A callable health rule applied to one entity of a catalog. -/
abbrev HealthLinter (V : Type) :=
  Registry V → Entity V → Except (Error V) (List (HealthIssue V))

section Linters

variable [DecidableEq V] [VersionValue V]

/-- Report the references of an entity that the local namespace does not hold. -/
def missingReferencesOver (registry : Registry V) (entity : NodeId V)
    : List (NodeId V) → Except (Error V) (List (HealthIssue V))
  | [] => .ok []
  | reference :: rest => do
      let isLocal := reference.nameSpace == registry.nameSpace
      let present ← if isLocal then registry.hasModel reference else .ok false
      let later ← missingReferencesOver registry entity rest
      if present then return later
      return {
        code := if isLocal then "reference.missing.local" else "reference.missing.namespaced"
        severity := .error
        entity := .node entity
        message := entity.str ++ " references missing version " ++ reference.str
        details := .reference reference
      } :: later

def missingReferencesLinter : HealthLinter V := fun registry entity =>
  match entity with
  | .node value =>
      if value.isVersionKey then missingReferencesOver registry value.id value.references
      else .ok []
  | .edge _ => .ok []

/-- The finding for one endpoint of an edge, if any. -/
def endpointIssue (registry : Registry V) (edge : EdgeId V) (endpoint : NodeId V)
    : Except (Error V) (List (HealthIssue V)) := do
  if endpoint.nameSpace ≠ registry.nameSpace then
    return [{
      code := "namespace.unresolved"
      severity := .error
      entity := .edge edge
      message := edge.str ++ " endpoint " ++ endpoint.str ++ " is outside "
        ++ EdgePair.quoted registry.nameSpace
      details := .endpoint endpoint
    }]
  if ← registry.hasEntry endpoint then return []
  return [{
    code := "edge.endpoint.missing"
    severity := .error
    entity := .edge edge
    message := edge.str ++ " endpoint " ++ endpoint.str ++ " is not registered"
    details := .endpoint endpoint
  }]

def missingEdgeEndpointsLinter : HealthLinter V := fun registry entity =>
  match entity with
  | .node _ => .ok []
  | .edge value =>
      if value.isEdgeKey then do
        let source ← endpointIssue registry value.id value.id.source
        let target ← endpointIssue registry value.id value.id.target
        return source ++ target
      else .ok []

/-- Search the adjacent pairs of a kind for the one that starts at the entity. -/
def missingMigrationsOver (registry : Registry V) (entity : NodeId V)
    : List (VersionNode V) → Except (Error V) (List (HealthIssue V))
  | source :: target :: rest => do
      let same ← source.id.eq entity
      if !same || source.id.nameSpace ≠ target.id.nameSpace then
        missingMigrationsOver registry entity (target :: rest)
      else
        let edge ← EdgePair.fromPair (.versioned (.versionNode source))
          (.versioned (.versionNode target)) defaultDiscriminator
        if ← registry.hasMigration edge.id then return []
        return [{
          code := "migration.missing"
          severity := .error
          entity := .edge edge.id
          message := source.id.kind ++ ": missing migration " ++ VersionValue.str source.id.version
            ++ " -> " ++ VersionValue.str target.id.version
          details := .pair source.id target.id
        }]
  | _ => .ok []

def missingMigrationsLinter : HealthLinter V := fun registry entity =>
  match entity with
  | .node value =>
      if value.isVersionKey then
        missingMigrationsOver registry value.id (registry.kindVersions value.kind)
      else .ok []
  | .edge _ => .ok []

def defaultHealthLinters : List (HealthLinter V) :=
  [missingReferencesLinter, missingEdgeEndpointsLinter, missingMigrationsLinter]

end Linters

/-- The findings of all linters for one entity, in the order of the linters. -/
def lint (linters : List (HealthLinter V)) (registry : Registry V) (entity : Entity V)
    : Except (Error V) (List (HealthIssue V)) :=
  match linters with
  | [] => .ok []
  | linter :: rest => do
      let issues ← linter registry entity
      let later ← lint rest registry entity
      return issues ++ later

-----------------------------------------------------------------------------------------
-- Health index
-----------------------------------------------------------------------------------------

namespace HealthIndex

variable [DecidableEq V]

/-- Forget that `entity` refers to `reference`; an empty bucket is deleted. -/
def discardReference (entity : EntityId V) (referencesTo : Py.Dict (NodeId V) (List (Entity V)))
    (reference : NodeId V) : Py.Dict (NodeId V) (List (Entity V)) :=
  match referencesTo.get? reference with
  | none => referencesTo
  | some bucket =>
      let remaining := bucket.filter (fun other => other.id ≠ entity)
      if remaining.isEmpty then referencesTo.erase reference
      else referencesTo.set reference remaining

/-- Record that `entity` refers to `reference`. -/
def addReference (entity : Entity V) (referencesTo : Py.Dict (NodeId V) (List (Entity V)))
    (reference : NodeId V) : Py.Dict (NodeId V) (List (Entity V)) :=
  let bucket := referencesTo.getD reference []
  referencesTo.set reference
    (if bucket.any (fun other => other.id = entity.id) then bucket else bucket ++ [entity])

/-- `_set_references` -/
def setReferences (index : HealthIndex V) (entity : Entity V) (references : List (NodeId V))
    : HealthIndex V :=
  let old := index.referencesByEntity.getD entity.id []
  let cleared := old.foldl (discardReference entity.id) index.referencesTo
  let byEntity := index.referencesByEntity.erase entity.id
  if references.isEmpty then
    { index with referencesTo := cleared, referencesByEntity := byEntity }
  else
    {
      index with
      referencesTo := references.foldl (addReference entity) cleared
      referencesByEntity := byEntity.set entity.id references
    }

/-- Take an entity out of its namespace bucket; an empty bucket is deleted. -/
def discardIssue (issuesByNamespace : Py.Dict String (List (EntityId V))) (entity : EntityId V)
    : Py.Dict String (List (EntityId V)) :=
  match issuesByNamespace.get? entity.nameSpace with
  | none => issuesByNamespace
  | some bucket =>
      let remaining := bucket.filter (· ≠ entity)
      if remaining.isEmpty then issuesByNamespace.erase entity.nameSpace
      else issuesByNamespace.set entity.nameSpace remaining

/-- `_set_health` -/
def setHealth (index : HealthIndex V) (entity : EntityId V) (issues : List (HealthIssue V))
    : HealthIndex V :=
  let discarded := discardIssue index.issuesByNamespace entity
  if issues.isEmpty then
    {
      index with
      issuesByNamespace := discarded
      healthIssues := index.healthIssues.erase entity
    }
  else
    {
      index with
      healthIssues := index.healthIssues.set entity issues
      issuesByNamespace := discarded.set entity.nameSpace
        (discarded.getD entity.nameSpace [] ++ [entity])
    }

/-- `_drop_entity` -/
def dropEntity (index : HealthIndex V) (entity : Entity V) : HealthIndex V :=
  (index.setHealth entity.id []).setReferences entity []

end HealthIndex

-----------------------------------------------------------------------------------------
-- Refreshing
-----------------------------------------------------------------------------------------

abbrev RegistryM (V : Type) := EStateM (Error V) (Registry V)

section Refresh

variable [DecidableEq V]

def modifyHealth (update : HealthIndex V → HealthIndex V) : RegistryM V PUnit :=
  modify (fun registry => { registry with health := update registry.health })

/-- The body of `_refresh_health` for one entity: references are replaced before the linters
run, so a linter that raises leaves the new references and the old findings.
-/
def refreshEntity (linters : List (HealthLinter V)) (entity : Entity V) : RegistryM V PUnit := do
  modifyHealth (fun index => index.setReferences entity entity.references)
  let issues ← Py.query (fun registry => lint linters registry entity)
  modifyHealth (fun index => index.setHealth entity.id issues)

/-- `_refresh_health` -/
def refreshHealth (linters : List (HealthLinter V)) (entities : List (Entity V))
    : RegistryM V PUnit :=
  (Entity.distinct entities).forM (refreshEntity linters)

/-- `_affected_by_node_change`: the entity, its referrers and its incident edges. -/
def affectedByNodeChange (registry : Registry V) (entity : NodeEntry V) : List (Entity V) :=
  Entity.distinct (.node (.versioned entity)
    :: registry.health.referencesTo.getD entity.id []
    ++ (registry.edgesByVersion.getD entity.id []).map (fun edge => .edge (.stored edge)))

/-- `_affected_by_edge_change`: the edge and both endpoint values it holds. -/
def affectedByEdgeChange (entity : Transitional V) : List (Entity V) :=
  Entity.distinct [.edge entity, .node entity.pair.source, .node entity.pair.target]

/-- Every stored entity, in the order `_rebuild_health` lists them. -/
def Registry.allEntities (registry : Registry V) : List (Entity V) :=
  registry.byVersions.map (fun entry => .node (.versioned entry))
    ++ registry.migrations.values.flatten.map (fun edge => .edge (.stored edge))

/-- `_rebuild_health` -/
def rebuildHealth (linters : List (HealthLinter V)) : RegistryM V PUnit := do
  modifyHealth (fun _ => .empty)
  let entities ← Py.query (fun registry => .ok registry.allEntities)
  refreshHealth linters entities

end Refresh

end Pyverge
