import Pyverge.Py.Bisect
import Pyverge.Py.Effects
import Pyverge.Versioning.Edges

/-! The in-memory registry: its stores and the queries that only read them.
Node entries live in two sorted lists, one for the whole registry and one per kind; edges live
in a sorted list per kind and in a set per endpoint.
-/

namespace Pyverge

variable {V : Type}

-----------------------------------------------------------------------------------------
-- Health findings
-----------------------------------------------------------------------------------------

/-- The identity under which a node or an edge is a key of the health maps. -/
inductive EntityId (V : Type) where
  | node (id : NodeId V)
  | edge (id : EdgeId V)
  deriving DecidableEq

/-- A graph entity handed to the linters. -/
inductive Entity (V : Type) where
  | node (value : Comparable V)
  | edge (value : Transitional V)
  deriving DecidableEq

namespace EntityId

def nameSpace : EntityId V → String
  | .node id => id.nameSpace
  | .edge id => id.nameSpace

def str [VersionValue V] : EntityId V → String
  | .node id => id.str
  | .edge id => id.str

end EntityId

namespace Entity

def id : Entity V → EntityId V
  | .node value => .node value.id
  | .edge value => .edge value.id

/-- `getattr(entity, "references", ())` -/
def references [DecidableEq V] : Entity V → List (NodeId V)
  | .node value => value.references
  | .edge _ => []

/-- The set of the given entities; of equal ones the first is kept. -/
def distinct [DecidableEq V] : List (Entity V) → List (Entity V)
  | [] => []
  | entity :: rest => entity :: (distinct rest).filter (fun other => other.id ≠ entity.id)

end Entity

inductive HealthSeverity where
  | info
  | warning
  | error
  deriving DecidableEq

inductive HealthDetails (V : Type) where
  | reference (id : NodeId V)
  | endpoint (id : NodeId V)
  | pair (source target : NodeId V)
  deriving DecidableEq

structure HealthIssue (V : Type) where
  code : String
  severity : HealthSeverity
  entity : EntityId V
  message : String
  details : HealthDetails V
  deriving DecidableEq

/-- The incrementally maintained health maps. -/
structure HealthIndex (V : Type) where
  healthIssues : Py.Dict (EntityId V) (List (HealthIssue V))
  issuesByNamespace : Py.Dict String (List (EntityId V))
  referencesTo : Py.Dict (NodeId V) (List (Entity V))
  referencesByEntity : Py.Dict (EntityId V) (List (NodeId V))
  deriving DecidableEq

def HealthIndex.empty : HealthIndex V := ⟨∅, ∅, ∅, ∅⟩

-----------------------------------------------------------------------------------------
-- Registry stores
-----------------------------------------------------------------------------------------

structure Registry (V : Type) where
  nameSpace : String
  byVersions : List (NodeEntry V)
  byKinds : Py.Dict ModelKind (List (NodeEntry V))
  byModels : Py.Dict ModelRef (VersionNode V)
  migrations : Py.Dict ModelKind (List (EdgeEntry V))
  edgesByVersion : Py.Dict (NodeId V) (List (EdgeEntry V))
  hooks : Py.Dict (EdgeId V) (List HookRef)
  digestIndex : Option (Py.Dict String (EdgeId V))
  health : HealthIndex V
  deriving DecidableEq

/-- The stores of a new registry; a digest index exists only on request. -/
def Registry.new (nameSpace : String) (indexDigests : Bool) : Registry V where
  nameSpace
  byVersions := []
  byKinds := ∅
  byModels := ∅
  migrations := ∅
  edgesByVersion := ∅
  hooks := ∅
  digestIndex := if indexDigests then some ∅ else none
  health := .empty

-----------------------------------------------------------------------------------------
-- Bisected lookups
-----------------------------------------------------------------------------------------

section Bisected

variable [VersionValue V]

def bisectNodes (entries : List (NodeEntry V)) (key : NodeId V) : Except (Error V) Nat :=
  Py.bisectLeft (fun entry => entry.id.lt key) entries

/-- The entry at the bisected index if it equals the key. -/
def findNode (entries : List (NodeEntry V)) (key : NodeId V)
    : Except (Error V) (Option (NodeEntry V)) := do
  let index ← bisectNodes entries key
  match entries[index]? with
  | none => return none
  | some entry => if ← entry.id.eq key then return some entry else return none

def bisectEdges (paths : List (EdgeEntry V)) (key : EdgeId V) : Except (Error V) Nat :=
  Py.bisectLeft (fun edge => edge.id.lt key) paths

def findEdgeIn (paths : List (EdgeEntry V)) (key : EdgeId V)
    : Except (Error V) (Option (EdgeEntry V)) := do
  let index ← bisectEdges paths key
  match paths[index]? with
  | none => return none
  | some edge => if ← edge.id.eq key then return some edge else return none

/-- `key in entries`, a linear scan. -/
def containsNode (entries : List (NodeEntry V)) (key : NodeId V) : Except (Error V) Bool :=
  match entries with
  | [] => .ok false
  | entry :: rest => do
      if ← entry.id.eq key then return true
      containsNode rest key

end Bisected

-----------------------------------------------------------------------------------------
-- Queries
-----------------------------------------------------------------------------------------

namespace Registry

def versions (registry : Registry V) : List (VersionNode V) :=
  registry.byVersions.filterMap NodeEntry.node?

def entries (registry : Registry V) : List (NodeEntry V) := registry.byVersions

def kinds (registry : Registry V) : List ModelKind := registry.migrations.keys

def kindEntries (registry : Registry V) (kind : ModelKind) : List (NodeEntry V) :=
  registry.byKinds.getD kind []

def kindVersions (registry : Registry V) (kind : ModelKind) : List (VersionNode V) :=
  (registry.kindEntries kind).filterMap NodeEntry.node?

def entities (registry : Registry V) : List ModelKind :=
  ((registry.byKinds.items.filter (fun item => !item.2.isEmpty)).map Prod.fst).insertionSort
    (· ≤ ·)

def edges (registry : Registry V) (kind : ModelKind) : List (EdgeEntry V) :=
  registry.migrations.getD kind []

/-- The executable edges of a kind; the method `migrations` of the registry. -/
def migrationsFor (registry : Registry V) (kind : ModelKind) : List (VersionEdge V) :=
  (registry.edges kind).filterMap EdgeEntry.version?

def edgesOf [DecidableEq V] (registry : Registry V) (key : NodeId V) : List (EdgeEntry V) :=
  registry.edgesByVersion.getD key []

def migrationsOf [DecidableEq V] (registry : Registry V) (key : NodeId V) : List (VersionEdge V) :=
  (registry.edgesOf key).filterMap EdgeEntry.version?

def hasHooks [DecidableEq V] (registry : Registry V) (key : EdgeId V) : Bool :=
  registry.hooks.contains key

def getHooks [DecidableEq V] (registry : Registry V) (key : EdgeId V) : List HookRef :=
  registry.hooks.getD key []

/-- The edge indexed under a digest; without an index there is none. -/
def findEdgeByDigest (registry : Registry V) (value : String) : Option (EdgeId V) :=
  registry.digestIndex.bind (fun index => index.get? value)

def latest (registry : Registry V) (kind : ModelKind) : Except (Error V) (VersionNode V) :=
  match (registry.kindVersions kind).getLast? with
  | some version => .ok version
  | none => .error (.catalogError registry.nameSpace "No versions registered")

def earliest (registry : Registry V) (kind : ModelKind) : Except (Error V) (VersionNode V) :=
  match (registry.kindVersions kind).head? with
  | some version => .ok version
  | none => .error (.catalogError registry.nameSpace "No versions registered")

variable [VersionValue V]

def findEntry (registry : Registry V) (key : NodeId V) : Except (Error V) (Option (NodeEntry V)) :=
  findNode registry.byVersions key

def hasEntry (registry : Registry V) (key : NodeId V) : Except (Error V) Bool :=
  (registry.findEntry key).map Option.isSome

/-- `has_model` repeats the bisection and does not ask for a hydrated entry. -/
def hasModel (registry : Registry V) (key : NodeId V) : Except (Error V) Bool :=
  (findNode registry.byVersions key).map Option.isSome

def findModel (registry : Registry V) (key : NodeId V)
    : Except (Error V) (Option (VersionNode V)) :=
  (registry.findEntry key).map (fun found => found.bind NodeEntry.node?)

def getModel (registry : Registry V) (key : NodeId V) : Except (Error V) (VersionNode V) := do
  match ← registry.findModel key with
  | some node => return node
  | none => throw (.modelNotFound registry.nameSpace (VersionValue.str key.version))

def getModelByRef (registry : Registry V) (ref : ModelRef) : Except (Error V) (VersionNode V) :=
  match registry.byModels.get? ref with
  | some node => .ok node
  | none => .error (.modelNotFound registry.nameSpace ref.entityId)

def findEdge (registry : Registry V) (key : EdgeId V) : Except (Error V) (EdgeEntry V) := do
  match ← findEdgeIn (registry.edges key.kind) key with
  | some edge => return edge
  | none => throw (.migrationNotFound registry.nameSpace key.source key.target)

def hasEdge (registry : Registry V) (key : EdgeId V) : Except (Error V) Bool :=
  (findEdgeIn (registry.edges key.kind) key).map Option.isSome

/-- A missing edge counts as not executable; other errors escape. -/
def hasMigration (registry : Registry V) (key : EdgeId V) : Except (Error V) Bool :=
  (findEdgeIn (registry.edges key.kind) key).map
    (fun found => (found.map EdgeEntry.isExecutable).getD false)

def getMigrationByEdge (registry : Registry V) (key : EdgeId V)
    : Except (Error V) (VersionEdge V) := do
  match ← registry.findEdge key with
  | .versionEdge edge => return edge
  | .edgeKey _ => throw (.migrationNotFound registry.nameSpace key.source key.target)

end Registry

end Pyverge
