import Pyverge.Py.Sorted
import Pyverge.Registry.State

/-! Immutable graph snapshots: the indexed backend and its compilation from a registry.
A snapshot holds edge identities only; what an edge runs is bound later.
-/

namespace Pyverge

variable {V : Type}

/-- The manifest-wide identity of one locked graph. -/
structure Revision where
  versionStrategy : String
  versions : Py.Dict ModelKind (List String)
  contentDigest : String
  deriving DecidableEq

/-- `Revision.__eq__` -/
def Revision.eq (left right : Revision) : Bool :=
  left.versionStrategy == right.versionStrategy && left.versions.sameMapping right.versions
    && left.contentDigest == right.contentDigest

/-- The dependency-free backend: sorted entries and the maps derived from them. -/
structure IndexedBackend (V : Type) where
  name : String
  nameSpace : String
  nodes : List (NodeEntry V)
  edges : List (EdgePair V)
  nodesById : Py.Dict (NodeId V) (NodeEntry V)
  edgesById : Py.Dict (EdgeId V) (EdgePair V)
  nodesByKind : Py.Dict ModelKind (List (NodeEntry V))
  edgesByKind : Py.Dict ModelKind (List (EdgePair V))
  edgesByEndpoint : Py.Dict (NodeId V) (List (EdgePair V))
  edgesByPair : Py.Dict (NodeId V × NodeId V) (List (EdgePair V))
  nodePositions : Py.Dict (NodeId V) Nat
  edgeIds : List (EdgeId V)
  modelsByRef : Py.Dict ModelRef (VersionNode V)
  executableEdgeIds : List (EdgeId V)
  edgeMetadata : Py.Dict (EdgeId V) MigrationDescriptor
  digests : Py.Dict String (EdgeId V)
  nodeDigests : Py.Dict (NodeId V) String
  edgeDigests : Py.Dict (EdgeId V) String
  hookSpecs : Py.Dict (EdgeId V) (List HookRef)
  deriving DecidableEq

structure MigrationGraph (V : Type) where
  backend : IndexedBackend V
  revision : Revision
  manifestDigest : String
  deriving DecidableEq

section Building

variable [VersionValue V]

/-- The strategy shared by all values; a graph without values has none. -/
def versionStrategy (values : List V) : Except (Error V) String :=
  let types := (values.map (fun value =>
    (VersionValue.strategy value, VersionValue.strategyName value))).dedup
  match types with
  | [] => .ok "none"
  | [type] => .ok type.2
  | _ => .error (.versionStrategyMismatch (types.map Prod.snd))

def NodeEntry.digest [DecidableEq V] (entry : NodeEntry V) (hasher : ContentHasher)
    : Except (Error V) String :=
  match entry with
  | .versionKey id => .ok (id.digest hasher)
  | .versionNode node => node.digest hasher

def EdgeEntry.digest [DecidableEq V] (entry : EdgeEntry V) (hasher : ContentHasher)
    : Except (Error V) String :=
  match entry with
  | .edgeKey pair => .ok (pair.id.digest hasher)
  | .versionEdge edge => edge.digest hasher

/-- What the builder collects about the edges of its source. -/
structure EdgeScan (V : Type) where
  edgesById : Py.Dict (EdgeId V) (EdgePair V)
  edgeDigests : Py.Dict (EdgeId V) String
  hookSpecs : Py.Dict (EdgeId V) (List HookRef)
  executableEdgeIds : List (EdgeId V)
  edgeMetadata : Py.Dict (EdgeId V) MigrationDescriptor

def EdgeScan.empty : EdgeScan V := ⟨∅, ∅, ∅, [], ∅⟩

variable [DecidableEq V]

/-- The body of the builder's loop over the stored edges. -/
def EdgeScan.add (hasher : ContentHasher) (source : Registry V) (scan : EdgeScan V)
    (entry : EdgeEntry V) : Except (Error V) (EdgeScan V) := do
  let digest ← entry.digest hasher
  let hooks := source.getHooks entry.id
  return {
    edgesById := scan.edgesById.set entry.id entry.pair
    edgeDigests := scan.edgeDigests.set entry.id digest
    hookSpecs :=
      if hooks.isEmpty then scan.hookSpecs
      else scan.hookSpecs.set entry.id
        (hooks.insertionSort (fun left right => left.digest hasher ≤ right.digest hasher))
    executableEdgeIds :=
      if entry.isExecutable then scan.executableEdgeIds ++ [entry.id]
      else scan.executableEdgeIds
    edgeMetadata :=
      match entry with
      | .edgeKey _ => scan.edgeMetadata
      | .versionEdge edge => scan.edgeMetadata.set entry.id edge.migration
  }

/-- The kinds of the entries and of the edges, each once; the list fixes one iteration order of
the set.
-/
def Registry.snapshotKinds (source : Registry V) : List ModelKind :=
  (source.entities ++ source.kinds).dedup

omit [VersionValue V] in
/-- Add an edge to the set of one of its endpoints. -/
def fileEndpoint (edge : EdgePair V) (index : Py.Dict (NodeId V) (List (EdgePair V)))
    (endpoint : NodeId V) : Py.Dict (NodeId V) (List (EdgePair V)) :=
  let bucket := index.getD endpoint []
  index.set endpoint (if edge ∈ bucket then bucket else bucket ++ [edge])

omit [VersionValue V] in
/-- The edges at each endpoint. -/
def endpointIndex (edges : List (EdgePair V)) : Py.Dict (NodeId V) (List (EdgePair V)) :=
  edges.foldl (fun index edge => [edge.id.source, edge.id.target].foldl (fileEndpoint edge) index) ∅

omit [VersionValue V] in
/-- Note the length of the bucket of its kind as the position of an entry, then add the entry. -/
def filePosition (state : Py.Dict ModelKind (List (NodeEntry V)) × Py.Dict (NodeId V) Nat)
    (entry : NodeEntry V) : Py.Dict ModelKind (List (NodeEntry V)) × Py.Dict (NodeId V) Nat :=
  let bucket := state.1.getD entry.kind []
  (state.1.set entry.kind (bucket ++ [entry]), state.2.set entry.id bucket.length)

omit [VersionValue V] in
/-- The index of each entry in the bucket of its kind. -/
def positionIndex (nodes : List (NodeEntry V)) : Py.Dict (NodeId V) Nat :=
  (nodes.foldl filePosition (∅, ∅)).2

/-- `IndexedBackend.build` sorts what it is given and derives the maps. -/
def IndexedBackend.build (source : Registry V) (nodes : List (NodeEntry V)) (scan : EdgeScan V)
    (edges : List (EdgePair V)) (nodeDigests : Py.Dict (NodeId V) String)
    : Except (Error V) (IndexedBackend V) := do
  let nodes ← Py.sorted (fun left right => left.id.lt right.id) nodes
  let edges ← Py.sorted (fun left right => left.id.lt right.id) edges
  let hookSpecs ← Py.sorted (fun left right => left.1.lt right.1) scan.hookSpecs.items
  return {
    name := source.nameSpace
    nameSpace := source.nameSpace
    nodes, edges, nodeDigests
    nodesById := .indexBy NodeEntry.id nodes
    edgesById := .indexBy EdgePair.id edges
    nodesByKind := .groupBy NodeEntry.kind nodes
    edgesByKind := .groupBy (fun edge => edge.id.kind) edges
    edgesByEndpoint := endpointIndex edges
    edgesByPair := .groupBy (fun edge => (edge.id.source, edge.id.target)) edges
    nodePositions := positionIndex nodes
    edgeIds := edges.map EdgePair.id
    modelsByRef := source.byModels
    executableEdgeIds := scan.executableEdgeIds
    edgeMetadata := scan.edgeMetadata
    digests := source.digestIndex.getD ∅
    edgeDigests := scan.edgeDigests
    hookSpecs := .ofItems hookSpecs
  }

/-- Hash graph content without revision metadata. The `id` of a hydrated node is the node itself,
so that its content is hashed a second time.
-/
def IndexedBackend.contentDigest (backend : IndexedBackend V) (hasher : ContentHasher)
    : Except (Error V) String := do
  let nodes : List Py.Json ← backend.nodes.mapM (fun node => do
    return .arr [.str (← node.digest hasher), .str (backend.nodeDigests.getD node.id "")])
  return hasher.digest (.obj [
    ("namespace", .str backend.nameSpace),
    ("nodes", .arr nodes),
    ("edges", .arr (backend.edges.map (fun edge => .arr [
      .str (edge.id.digest hasher),
      .str (backend.edgeDigests.getD edge.id ""),
      .bool (backend.executableEdgeIds.contains edge.id)]))),
    ("hooks", .arr (backend.hookSpecs.items.map (fun spec => .arr [
      .str (spec.1.digest hasher),
      .arr (spec.2.map (fun hook => .str (hook.digest hasher)))])))])

/-- `VersionVectorRevisionPolicy.derive` -/
def IndexedBackend.derive (backend : IndexedBackend V) (hasher : ContentHasher)
    : Except (Error V) Revision := do
  let strategy ← versionStrategy (backend.nodes.map (fun node => node.id.version))
  let contentDigest ← backend.contentDigest hasher
  return {
    versionStrategy := strategy
    contentDigest
    versions := .ofItems (backend.nodesByKind.items.map (fun item =>
      (item.1, item.2.map (fun node => VersionValue.str node.id.version))))
  }

/-- Hash the complete locked manifest, including its revision. -/
def IndexedBackend.manifestDigest (backend : IndexedBackend V) (revision : Revision)
    (hasher : ContentHasher) : String :=
  hasher.digest (.obj [
    ("namespace", .str backend.nameSpace),
    ("revision", .obj [
      ("version_strategy", .str revision.versionStrategy),
      ("versions", .obj ((revision.versions.items.insertionSort
        (fun left right => left.1 ≤ right.1)).map
        (fun item => (item.1, .arr (item.2.map .str))))),
      ("content_digest", .str revision.contentDigest)])])

/-- How a sorted set of names reads in a message. -/
def quotedNames (names : List String) : String :=
  "[" ++ ", ".intercalate ((names.insertionSort (· ≤ ·)).map EdgePair.quoted) ++ "]"

/-- Refuse entries of more than one namespace. -/
def checkNamespaces (source : Registry V) (nodes : List (NodeEntry V)) (edges : List (EdgePair V))
    : Except (Error V) PUnit :=
  let namespaces := (nodes.map (fun node => node.id.nameSpace)
    ++ edges.map (fun edge => edge.id.nameSpace)).dedup
  if 1 < namespaces.length then
    .error (.catalogError source.nameSpace
      ("Graph cannot mix namespaces: " ++ quotedNames namespaces))
  else .ok ⟨⟩

omit [VersionValue V] [DecidableEq V] in
/-- Refuse a graph that is not the requested one. -/
def checkRevision (requested : Option Revision) (derived : Revision) : Except (Error V) PUnit :=
  match requested with
  | none => .ok ⟨⟩
  | some expected =>
      if expected.eq derived then .ok ⟨⟩
      else .error (.revisionMismatch expected.contentDigest derived.contentDigest)

/-- `GraphBuilder.build` over the default backend, with the set of kinds iterated in this order. -/
def buildGraphOver (hasher : ContentHasher) (source : Registry V) (kinds : List ModelKind)
    (revision : Option Revision) : Except (Error V) (MigrationGraph V) := do
  let _ ← versionStrategy (source.entries.map (fun entry => entry.id.version))
  let nodes ← Py.sorted (fun left right => left.id.lt right.id) source.entries
  let digests ← nodes.mapM (fun node => do return (node.id, ← node.digest hasher))
  let scan ← (kinds.flatMap source.edges).foldlM (EdgeScan.add hasher source) .empty
  let edges ← Py.sorted (fun left right => left.id.lt right.id) scan.edgesById.values
  checkNamespaces source nodes edges
  let backend ← IndexedBackend.build source nodes scan edges (.ofItems digests)
  let derived ← backend.derive hasher
  checkRevision revision derived
  return { backend, revision := derived, manifestDigest := backend.manifestDigest derived hasher }

/-- `GraphBuilder.build` with one order of the kinds. -/
def buildGraph (hasher : ContentHasher) (source : Registry V) (revision : Option Revision)
    : Except (Error V) (MigrationGraph V) :=
  buildGraphOver hasher source source.snapshotKinds revision

end Building

namespace MigrationGraph

def name (graph : MigrationGraph V) : String := graph.backend.name

def nameSpace (graph : MigrationGraph V) : String := graph.backend.nameSpace

def kindEntries (graph : MigrationGraph V) (kind : ModelKind) : List (NodeEntry V) :=
  graph.backend.nodesByKind.getD kind []

def kindVersions (graph : MigrationGraph V) (kind : ModelKind) : List (VersionNode V) :=
  (graph.kindEntries kind).filterMap NodeEntry.node?

def latest (graph : MigrationGraph V) (kind : ModelKind) : Except (Error V) (VersionNode V) :=
  match (graph.kindVersions kind).getLast? with
  | some version => .ok version
  | none => .error (.catalogError graph.name "No versions registered")

def earliest (graph : MigrationGraph V) (kind : ModelKind) : Except (Error V) (VersionNode V) :=
  match (graph.kindVersions kind).head? with
  | some version => .ok version
  | none => .error (.catalogError graph.name "No versions registered")

def getModelByRef (graph : MigrationGraph V) (ref : ModelRef)
    : Except (Error V) (VersionNode V) :=
  match graph.backend.modelsByRef.get? ref with
  | some node => .ok node
  | none => .error (.modelNotFound graph.name ref.entityId)

variable [DecidableEq V]

def findEntry (graph : MigrationGraph V) (key : NodeId V) : Option (NodeEntry V) :=
  graph.backend.nodesById.get? key

def findModel (graph : MigrationGraph V) (key : NodeId V) : Option (VersionNode V) :=
  (graph.findEntry key).bind NodeEntry.node?

def hasModel (graph : MigrationGraph V) (key : NodeId V) : Bool := (graph.findModel key).isSome

def hasEntry (graph : MigrationGraph V) (key : NodeId V) : Bool := (graph.findEntry key).isSome

def getModel [VersionValue V] (graph : MigrationGraph V) (key : NodeId V)
    : Except (Error V) (VersionNode V) :=
  match graph.findModel key with
  | some node => .ok node
  | none => .error (.modelNotFound graph.name (VersionValue.str key.version))

def isExecutable (graph : MigrationGraph V) (edge : EdgeId V) : Bool :=
  graph.backend.executableEdgeIds.contains edge

def hasMigration (graph : MigrationGraph V) (key : EdgeId V) : Bool :=
  match graph.backend.edgesById.get? key with
  | some edge => graph.isExecutable edge.id
  | none => false

def hasEdge (graph : MigrationGraph V) (key : EdgeId V) : Bool := graph.backend.edgeIds.contains key

omit [DecidableEq V] in
def edges (graph : MigrationGraph V) (kind : ModelKind) : List (EdgePair V) :=
  graph.backend.edgesByKind.getD kind []

/-- The executable edges of a kind; the method `migrations` of the graph. -/
def migrationsFor (graph : MigrationGraph V) (kind : ModelKind) : List (EdgePair V) :=
  (graph.edges kind).filter (fun edge => graph.isExecutable edge.id)

def edgesOf (graph : MigrationGraph V) (key : NodeId V) : List (EdgePair V) :=
  graph.backend.edgesByEndpoint.getD key []

def migrationsOf (graph : MigrationGraph V) (key : NodeId V) : List (EdgePair V) :=
  (graph.edgesOf key).filter (fun edge => graph.isExecutable edge.id)

def isAdjacent (graph : MigrationGraph V) (key : EdgeId V) : Bool :=
  match graph.backend.nodePositions.get? key.source, graph.backend.nodePositions.get? key.target with
  | some source, some target => source == target + 1 || target == source + 1
  | _, _ => false

def edgesBetween (graph : MigrationGraph V) (source target : NodeId V) : List (EdgePair V) :=
  graph.backend.edgesByPair.getD (source, target) []

/-- `_find_edge`: the first edge between two nodes with the discriminator. -/
def findEdge (graph : MigrationGraph V) (source target : NodeId V) (discriminator : String)
    : Except (Error V) (EdgePair V) :=
  match (graph.edgesBetween source target).find? (fun edge => edge.discriminator = discriminator) with
  | some edge => .ok edge
  | none => .error (.migrationNotFound graph.name source target)

variable [VersionValue V]

omit [DecidableEq V] in
/-- The index of the first edge that compares equal to the key. -/
def indexOfEdge (key : EdgeId V) : List (EdgePair V) → Except (Error V) (Option Nat)
  | [] => .ok none
  | edge :: rest => do
      if ← edge.id.eq key then return some 0
      return (← indexOfEdge key rest).map (· + 1)

omit [DecidableEq V] in
def isCriticalEdge (graph : MigrationGraph V) (key : EdgeId V) : Except (Error V) Bool := do
  let edges := graph.edges key.kind
  match ← indexOfEdge key edges with
  | none => return false
  | some index =>
      return decide (2 < edges.length) && (decide (0 < index) || decide (index + 1 < edges.length))

/-- One step of the walk: a missing edge and a key-only one fail alike. -/
def stepEdge (graph : MigrationGraph V) (current target : VersionNode V) (discriminator : String)
    : Except (Error V) (EdgePair V) :=
  let unresolved : Except (Error V) (EdgePair V) :=
    .error (.migrationPath graph.name current.id target.id
      ("No migration key is found (" ++ current.id.str ++ ", " ++ target.id.str ++ ")"))
  match graph.findEdge current.id target.id discriminator with
  | .error _ => unresolved
  | .ok edge => if graph.isExecutable edge.id then .ok edge else unresolved

/-- The loop of `edge_path`: `count` steps of one direction from the index `lo`. -/
def walkEdges (graph : MigrationGraph V) (versions : List (VersionNode V)) (discriminator : String)
    (up : Bool) : Nat → Nat → Except (Error V) (List (EdgePair V))
  | 0, _ => .ok []
  | count + 1, lo =>
      let next := if up then lo + 1 else lo - 1
      match versions[lo]?, versions[next]? with
      | some current, some target => do
          let edge ← graph.stepEdge current target discriminator
          return edge :: (← walkEdges graph versions discriminator up count next)
      | _, _ => .error (.raised "IndexError: list index out of range")

/-- The index of an identity among the hydrated versions of a kind. -/
def positionOf (versions : List (VersionNode V)) (key : NodeId V) : Option Nat :=
  ((Py.Dict.indexBy (fun item : VersionNode V × Nat => item.1.id) versions.zipIdx).get? key).map
    Prod.snd

/-- Resolve the adjacent edge walk between two graph versions. -/
def edgePath (graph : MigrationGraph V) (fromVersion toVersion : NodeId V) (discriminator : String)
    : Except (Error V) (List (EdgePair V)) :=
  if fromVersion.kind ≠ toVersion.kind then
    .error (.catalogError graph.name ("Cannot find path across kinds: "
      ++ fromVersion.kind ++ " != " ++ toVersion.kind))
  else
    let versions := graph.kindVersions fromVersion.kind
    match positionOf versions fromVersion, positionOf versions toVersion with
    | none, _ =>
        .error (.migrationPath graph.name fromVersion toVersion
          ("Version " ++ fromVersion.str ++ " is not registered"))
    | some _, none => .error (.migrationPathPair graph.name (fromVersion, toVersion))
    | some lo, some hi =>
        graph.walkEdges versions discriminator (lo < hi) ((hi - lo) + (lo - hi)) lo

/-- The endpoints of the edges of the default walk. -/
def migrationPath (graph : MigrationGraph V) (fromVersion toVersion : NodeId V)
    : Except (Error V) (List (Comparable V × Comparable V)) :=
  (graph.edgePath fromVersion toVersion defaultDiscriminator).map
    (fun edges => edges.map (fun edge => (edge.source, edge.target)))

end MigrationGraph

end Pyverge
