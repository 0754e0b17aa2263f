import Pyverge.Graph.ContentDigest

/-! Export of a catalog as a JSON graph document.
Nodes go into a dictionary by their texts, edges into a list. An edge is shown with its ends, its
kind and its migration, but not with its discriminator.
-/

namespace Pyverge

open Py (Json)

variable {V : Type}

-----------------------------------------------------------------------------------------
-- What is exported
-----------------------------------------------------------------------------------------

/-- An edge that a catalog lists, with the `migration` attribute if it has one. -/
structure ListedEdge (V : Type) where
  id : EdgeId V
  migration : Option MigrationDescriptor
  deriving DecidableEq

/-- What the exporter reads of a catalog. Only snapshots have an `edge_metadata` attribute. -/
structure GraphExportSource (V : Type) where
  nameSpace : String
  versions : List (VersionNode V)
  kinds : List ModelKind
  edges : ModelKind → List (ListedEdge V)
  edgeMetadata : EdgeId V → Option MigrationDescriptor

def EdgeEntry.listed : EdgeEntry V → ListedEdge V
  | .edgeKey pair => ⟨pair.id, none⟩
  | .versionEdge edge => ⟨edge.id, some edge.migration⟩

/-- A registry lists its kinds in the order in which their first edges came. -/
def Registry.exportSource (registry : Registry V) : GraphExportSource V where
  nameSpace := registry.nameSpace
  versions := registry.versions
  kinds := registry.kinds
  edges kind := (registry.edges kind).map EdgeEntry.listed
  edgeMetadata _ := none

namespace MigrationGraph

def versions (graph : MigrationGraph V) : List (VersionNode V) :=
  graph.backend.nodes.filterMap NodeEntry.node?

/-- The kinds of a snapshot are sorted. -/
def kinds (graph : MigrationGraph V) : List ModelKind :=
  (graph.backend.nodesByKind.keys ++ graph.backend.edgesByKind.keys).dedup.insertionSort (· ≤ ·)

/-- The edges of a snapshot have no migrations of their own. -/
def exportSource [DecidableEq V] (graph : MigrationGraph V) : GraphExportSource V where
  nameSpace := graph.nameSpace
  versions := graph.versions
  kinds := graph.kinds
  edges kind := (graph.edges kind).map (fun edge => ⟨edge.id, none⟩)
  edgeMetadata edge := graph.backend.edgeMetadata.get? edge

end MigrationGraph

-----------------------------------------------------------------------------------------
-- Documents
-----------------------------------------------------------------------------------------

/-- A JGF node projected from a materialized version. -/
structure JgfNode where
  id : String
  label : String
  metadata : List (String × Json)

/-- A JGF edge projected from a migration edge. -/
structure JgfEdge where
  id : String
  source : String
  target : String
  directed : Bool
  metadata : List (String × Json)

/-- A JGF v2 graph envelope. -/
structure JgfGraph where
  id : String
  directed : Bool
  nodes : List JgfNode
  edges : List JgfEdge
  metadata : List (String × Json)

/-- The namespace as a member, unless it is empty. -/
def namespaceMember (nameSpace : String) : List (String × Json) :=
  if nameSpace = "" then [] else [("namespace", .str nameSpace)]

def sortedTexts (texts : List String) : Json :=
  .arr ((texts.insertionSort (· ≤ ·)).map .str)

/-- The rendered ends of an edge, which is also the `id` of its JGF edge. -/
def EdgeId.ends [VersionValue V] (edge : EdgeId V) : String :=
  edge.source.str ++ "->" ++ edge.target.str

/-- `JgfNode.from_version` -/
def JgfNode.fromVersion [DecidableEq V] [VersionValue V] (hasher : ContentHasher)
    (node : VersionNode V) : JgfNode :=
  let references := sortedTexts (node.references.map NodeId.str)
  let content := Json.obj [
    ("id", .str node.id.str),
    ("model", .str node.modelId),
    ("fields", sortedTexts node.fields),
    ("references", references)]
  {
    id := node.id.str
    label := node.id.str
    metadata := namespaceMember node.id.nameSpace ++ [
      ("kind", .str node.id.kind),
      ("version", .str (VersionValue.str node.id.version)),
      ("model", .str node.modelId),
      ("fields", sortedTexts node.fields),
      ("references", references),
      ("schema_hash", .str (hasher.digest content))]
  }

def JgfNode.toDict (node : JgfNode) : Json :=
  .obj [("label", .str node.label), ("metadata", .obj node.metadata)]

/-- Assign the two members that show a migration. -/
def setMigration (metadata : List (String × Json)) (migration : MigrationDescriptor)
    : List (String × Json) :=
  Json.setMember (Json.setMember metadata "strategy" (.str migration.strategy)) "migration_id"
    (.str migration.identity)

/-- `JgfEdge.from_edge_key`: the migration of the edge, overwritten by that of the metadata. -/
def JgfEdge.fromEdgeKey [VersionValue V] (edge : ListedEdge V)
    (metadata : Option MigrationDescriptor) : JgfEdge :=
  let ends := namespaceMember edge.id.nameSpace ++ [
    ("kind", .str edge.id.kind),
    ("source_version", .str (VersionValue.str edge.id.source.version)),
    ("target_version", .str (VersionValue.str edge.id.target.version))]
  let own := edge.migration.elim ends (setMigration ends)
  {
    id := edge.id.ends
    source := edge.id.source.str
    target := edge.id.target.str
    directed := true
    metadata := metadata.elim own (setMigration own)
  }

def JgfEdge.toDict (edge : JgfEdge) : Json :=
  .obj [("id", .str edge.id), ("source", .str edge.source), ("target", .str edge.target),
    ("directed", .bool edge.directed), ("metadata", .obj edge.metadata)]

def JgfGraph.fromVersions [DecidableEq V] [VersionValue V] (hasher : ContentHasher) (id : String)
    (directed : Bool) (versions : List (VersionNode V)) (edges : List (ListedEdge V))
    (edgeMetadata : EdgeId V → Option MigrationDescriptor) : JgfGraph where
  id
  directed
  nodes := versions.map (JgfNode.fromVersion hasher)
  edges := edges.map (fun edge => JgfEdge.fromEdgeKey edge (edgeMetadata edge.id))
  metadata := []

/-- The members of the graph in `to_dict`. Of nodes with one text the last is kept. -/
def JgfGraph.members (graph : JgfGraph) : List (String × Json) :=
  [("id", .str graph.id), ("directed", .bool graph.directed),
    ("nodes", .obj (Py.Dict.ofItems (graph.nodes.map (fun node => (node.id, node.toDict)))).items),
    ("edges", .arr (graph.edges.map JgfEdge.toDict))]
    ++ if graph.metadata.isEmpty then [] else [("metadata", .obj graph.metadata)]

def JgfGraph.toDict (graph : JgfGraph) : Json := .obj [("graph", .obj graph.members)]

-----------------------------------------------------------------------------------------
-- Exporters
-----------------------------------------------------------------------------------------

namespace GraphExportSource

variable [DecidableEq V] [VersionValue V]

omit [DecidableEq V] [VersionValue V] in
/-- The edges in the order of export. -/
def listed (source : GraphExportSource V) : List (ListedEdge V) := source.kinds.flatMap source.edges

/-- `JgfExporter.export_graph` -/
def exportGraph (source : GraphExportSource V) (hasher : ContentHasher) (id : Option String)
    : JgfGraph :=
  .fromVersions hasher (if id.getD "" = "" then source.nameSpace else id.getD "") true
    source.versions source.listed source.edgeMetadata

/-- `JgfExporter.export_digest` -/
def exportDigest (source : GraphExportSource V) (hasher : ContentHasher) (id : Option String)
    : String :=
  hasher.digest (source.exportGraph hasher id).toDict

end GraphExportSource

/-- Supported manifest contract versions. -/
inductive ManifestVersion where
  | v1
  deriving DecidableEq

def ManifestVersion.value : ManifestVersion → String
  | .v1 => "1.0"

/-- Required manifest identity and version contract. -/
structure ManifestSpec where
  graphId : String
  label : String
  manifestVersion : ManifestVersion
  toolVersion : String

namespace ManifestSpec

variable [DecidableEq V] [VersionValue V]

/-- The graph that the digest of a manifest is taken of. -/
def graphMembers (spec : ManifestSpec) (hasher : ContentHasher) (source : GraphExportSource V)
    (manager : String) (metadata : List (String × Json)) : List (String × Json) :=
  (source.exportGraph hasher (some spec.graphId)).members ++ [
    ("label", .str spec.label),
    ("type", .str "directed"),
    ("metadata", .obj ([
      ("manifest_version", .str spec.manifestVersion.value),
      ("pyverge_version", .str spec.toolVersion),
      ("manager", .str manager)] ++ metadata))]

/-- The `digest` of an exported manifest. -/
def manifestDigest (spec : ManifestSpec) (hasher : ContentHasher) (source : GraphExportSource V)
    (manager : String) : String :=
  hasher.digest (.obj (spec.graphMembers hasher source manager []))

/-- `ManifestExporter.export`; the time of generation is a text in ISO format. -/
def exportManifest (spec : ManifestSpec) (hasher : ContentHasher) (source : GraphExportSource V)
    (manager : String) (generatedAt : Option String) : Json :=
  let digest := spec.manifestDigest hasher source manager
  let generated := generatedAt.elim [] (fun text => [("generated_at", .str text)])
  .obj [("graph", .obj (spec.graphMembers hasher source manager
    (generated ++ [("digest", .str digest)])))]

end ManifestSpec

end Pyverge
