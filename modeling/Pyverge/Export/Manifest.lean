import Pyverge.Export.Changes

/-! Comparing exported manifests.
Nodes are compared by their texts and edges by the texts of their ends, so parallel edges fall
together and a discriminator is never seen.
-/

namespace Pyverge

open Py (Json)

variable {V U : Type}

-----------------------------------------------------------------------------------------
-- Comparing documents
-----------------------------------------------------------------------------------------

/-- Semantic difference between two JGF documents. -/
structure ManifestDiff where
  nodes : ChangeSet
  edges : ChangeSet
  manifestVersionChanged : Bool
  deriving DecidableEq

/-- `document["graph"]`; `none` stands for what raises on a document of another shape. -/
def graphOf : Json → Option (List (String × Json))
  | .obj members =>
      match Json.getMember members "graph" with
      | some (.obj graph) => some graph
      | _ => none
  | _ => none

/-- `graph.get(key, {})` for a mapping -/
def mappingAt (graph : List (String × Json)) (key : String) : Option (List (String × Json)) :=
  match Json.getMember graph key with
  | none => some []
  | some (.obj members) => some members
  | some _ => none

/-- An edge with its `id`. -/
def edgeItem (edge : Json) : Option (String × Json) :=
  match edge with
  | .obj members =>
      match Json.getMember members "id" with
      | some (.str id) => some (id, edge)
      | _ => none
  | _ => none

/-- The edges by their `id`; of parallel edges the last is kept. -/
def edgesById (graph : List (String × Json)) : Option (Py.Dict String Json) :=
  match Json.getMember graph "edges" with
  | none => some ∅
  | some (.arr edges) => (edges.mapM edgeItem).map Py.Dict.ofItems
  | some _ => none

/-- `ManifestDiff.compare` -/
def ManifestDiff.compare (left right : Json) : Option ManifestDiff := do
  let leftGraph ← graphOf left
  let rightGraph ← graphOf right
  let leftNodes ← mappingAt leftGraph "nodes"
  let rightNodes ← mappingAt rightGraph "nodes"
  let leftEdges ← edgesById leftGraph
  let rightEdges ← edgesById rightGraph
  let leftMeta ← mappingAt leftGraph "metadata"
  let rightMeta ← mappingAt rightGraph "metadata"
  return {
    nodes := .between (.ofItems leftNodes) (.ofItems rightNodes)
    edges := .between leftEdges rightEdges
    manifestVersionChanged :=
      (Json.getMember leftMeta "manifest_version").map Json.canonical
        ≠ (Json.getMember rightMeta "manifest_version").map Json.canonical
  }

variable [DecidableEq V] [VersionValue V]

-----------------------------------------------------------------------------------------
-- What exported documents show
-----------------------------------------------------------------------------------------

omit [DecidableEq V] [VersionValue V] in
/-- The edges in the order of export, each with the migration that is shown. -/
def GraphExportSource.exported (source : GraphExportSource V) : List (ListedEdge V) :=
  source.listed.map (fun edge => ⟨edge.id, (source.edgeMetadata edge.id).or edge.migration⟩)

/-- The document of a node. -/
def nodeDocument (hasher : ContentHasher) (node : VersionNode V) : Json :=
  (JgfNode.fromVersion hasher node).toDict

omit [DecidableEq V] in
/-- The document of an edge with its own migration. -/
def edgeDocument (edge : ListedEdge V) : Json := (JgfEdge.fromEdgeKey edge none).toDict

omit [DecidableEq V] [VersionValue V] in
/-- Identities have namespaces, so they are shown. -/
theorem namespaceMember_eq (id : NodeId V)
    : namespaceMember id.nameSpace = [("namespace", .str id.nameSpace)] :=
  if_neg id.named

/-- The members of an edge without its migration. -/
def endMembers (edge : EdgeId V) : List (String × Json) :=
  [("namespace", .str edge.nameSpace), ("kind", .str edge.kind),
    ("source_version", .str (VersionValue.str edge.source.version)),
    ("target_version", .str (VersionValue.str edge.target.version))]

/-- The members that show a migration. -/
def migrationMembers : Option MigrationDescriptor → List (String × Json)
  | none => []
  | some migration =>
      [("strategy", .str migration.strategy), ("migration_id", .str migration.identity)]

omit [DecidableEq V] in
theorem setMigration_endMembers (edge : EdgeId V) (old : Option MigrationDescriptor)
    (migration : MigrationDescriptor)
    : setMigration (endMembers edge ++ migrationMembers old) migration
      = endMembers edge ++ migrationMembers (some migration) := by
  cases old <;> simp [setMigration, endMembers, migrationMembers, Json.setMember]

omit [DecidableEq V] in
/-- The metadata of an edge show the migration of the catalog, else that of the edge. -/
theorem metadata_fromEdgeKey (edge : ListedEdge V) (metadata : Option MigrationDescriptor)
    : (JgfEdge.fromEdgeKey edge metadata).metadata
      = endMembers edge.id ++ migrationMembers (metadata.or edge.migration) := by
  have ends : namespaceMember edge.id.nameSpace ++ [
      ("kind", .str edge.id.kind),
      ("source_version", .str (VersionValue.str edge.id.source.version)),
      ("target_version", .str (VersionValue.str edge.id.target.version))]
      = endMembers edge.id ++ migrationMembers none := by
    rw [EdgeId.nameSpace, namespaceMember_eq]
    rfl
  have own : edge.migration.elim (endMembers edge.id ++ migrationMembers none)
      (setMigration (endMembers edge.id ++ migrationMembers none))
      = endMembers edge.id ++ migrationMembers edge.migration := by
    cases edge.migration with
    | none => rfl
    | some migration => exact setMigration_endMembers edge.id none migration
  simp only [JgfEdge.fromEdgeKey, ends, own]
  cases metadata with
  | none => rfl
  | some migration => exact setMigration_endMembers edge.id edge.migration migration

omit [DecidableEq V] in
/-- Metadata overwrite the migration of the edge. -/
theorem fromEdgeKey_eq (edge : ListedEdge V) (metadata : Option MigrationDescriptor)
    : JgfEdge.fromEdgeKey edge metadata
      = JgfEdge.fromEdgeKey ⟨edge.id, metadata.or edge.migration⟩ none := by
  have shown := metadata_fromEdgeKey edge metadata
  have merged := metadata_fromEdgeKey ⟨edge.id, metadata.or edge.migration⟩ none
  rw [Option.none_or] at merged
  have same := shown.trans merged.symm
  unfold JgfEdge.fromEdgeKey at same ⊢
  simp only [JgfEdge.mk.injEq, true_and]
  exact same

omit [DecidableEq V] in
/-- The edges of a graph document by their `id`. -/
theorem mapM_edgeItem (edges : List (ListedEdge V))
    : (edges.map edgeDocument).mapM edgeItem
      = some (edges.map (fun edge => (edge.id.ends, edgeDocument edge))) := by
  induction edges with
  | nil => rfl
  | cons edge rest ih =>
      have first : edgeItem (edgeDocument edge) = some (edge.id.ends, edgeDocument edge) := by
        simp [edgeItem, edgeDocument, JgfEdge.toDict, JgfEdge.fromEdgeKey, Json.getMember]
      simp only [List.map_cons, List.mapM_cons, first, ih]
      rfl

theorem edges_exportGraph (source : GraphExportSource V) (hasher : ContentHasher)
    (id : Option String)
    : (source.exportGraph hasher id).edges.map JgfEdge.toDict
      = source.exported.map edgeDocument := by
  simp only [GraphExportSource.exportGraph, JgfGraph.fromVersions, GraphExportSource.exported,
    List.map_map]
  apply List.map_congr_left
  intro edge _
  exact congrArg JgfEdge.toDict (fromEdgeKey_eq edge (source.edgeMetadata edge.id))

theorem nodes_exportGraph (source : GraphExportSource V) (hasher : ContentHasher)
    (id : Option String)
    : Py.Dict.ofItems ((source.exportGraph hasher id).nodes.map (fun node => (node.id, node.toDict)))
      = documents (fun node => node.id.str) (nodeDocument hasher) source.versions := by
  simp only [GraphExportSource.exportGraph, JgfGraph.fromVersions, List.map_map]
  rfl

/-- The parts of a manifest that `compare` reads. -/
theorem read_exportManifest (spec : ManifestSpec) (hasher : ContentHasher)
    (source : GraphExportSource V) (manager : String) (generatedAt : Option String)
    : ∃ graph metadata, graphOf (spec.exportManifest hasher source manager generatedAt) = some graph
      ∧ mappingAt graph "nodes"
        = some (documents (fun node => node.id.str) (nodeDocument hasher) source.versions).items
      ∧ edgesById graph = some (documents (fun edge => edge.id.ends) edgeDocument source.exported)
      ∧ mappingAt graph "metadata" = some metadata
      ∧ Json.getMember metadata "manifest_version" = some (.str spec.manifestVersion.value) := by
  refine ⟨_, _, rfl, ?_, ?_, rfl, ?_⟩
  · rw [← nodes_exportGraph source hasher (some spec.graphId)]
    rfl
  · have edges := mapM_edgeItem source.exported
    rw [← edges_exportGraph source hasher (some spec.graphId)] at edges
    change (((source.exportGraph hasher (some spec.graphId)).edges.map JgfEdge.toDict).mapM
      edgeItem).map Py.Dict.ofItems = _
    rw [edges]
    rfl
  · rfl

/-- What `compare` makes of two manifests of one specification. -/
theorem compare_exportManifest (spec : ManifestSpec) (hasher : ContentHasher)
    (left right : GraphExportSource V) (manager otherManager : String)
    (generatedAt otherGeneratedAt : Option String)
    : ManifestDiff.compare (spec.exportManifest hasher left manager generatedAt)
        (spec.exportManifest hasher right otherManager otherGeneratedAt)
      = some {
        nodes := .between
          (documents (fun node => node.id.str) (nodeDocument hasher) left.versions)
          (documents (fun node => node.id.str) (nodeDocument hasher) right.versions)
        edges := .between
          (documents (fun edge => edge.id.ends) edgeDocument left.exported)
          (documents (fun edge => edge.id.ends) edgeDocument right.exported)
        manifestVersionChanged := false
      } := by
  obtain ⟨leftGraph, leftMeta, leftRead, leftNodes, leftEdges, leftMetadata, leftVersion⟩ :=
    read_exportManifest spec hasher left manager generatedAt
  obtain ⟨rightGraph, rightMeta, rightRead, rightNodes, rightEdges, rightMetadata, rightVersion⟩ :=
    read_exportManifest spec hasher right otherManager otherGeneratedAt
  simp only [ManifestDiff.compare, leftRead, rightRead, leftNodes, rightNodes, leftEdges,
    rightEdges, leftMetadata, rightMetadata, leftVersion, rightVersion, Py.Dict.ofItems_items,
    Option.bind_eq_bind, Option.bind_some, ne_eq, not_true_eq_false, decide_false]
  rfl

-----------------------------------------------------------------------------------------
-- When documents are equal
-----------------------------------------------------------------------------------------

/-- The documents of nodes with one text are equal exactly if the nodes are alike in text. -/
theorem nodeDocument_eq_iff (texts : VersionTexts V) (hasher : ContentHasher)
    {left right : VersionNode V} (same : left.id.str = right.id.str)
    : (nodeDocument hasher left).canonical = (nodeDocument hasher right).canonical
      ↔ left.Alike SameReferenceTexts right := by
  have shown : ∀ node : VersionNode V, nodeDocument hasher node
      = .obj [("label", .str node.id.str), ("metadata", .obj [
        ("namespace", .str node.id.nameSpace),
        ("kind", .str node.id.kind),
        ("version", .str (VersionValue.str node.id.version)),
        ("model", .str node.modelId),
        ("fields", sortedTexts node.fields),
        ("references", sortedTexts (node.references.map NodeId.str)),
        ("schema_hash", .str (hasher.digest (.obj [
          ("id", .str node.id.str),
          ("model", .str node.modelId),
          ("fields", sortedTexts node.fields),
          ("references", sortedTexts (node.references.map NodeId.str))])))])] := by
    intro node
    simp only [nodeDocument, JgfNode.toDict, JgfNode.fromVersion, namespaceMember_eq,
      List.singleton_append]
  have sorted : ∀ first second : List String,
      sortedTexts first = sortedTexts second ↔ first.Perm second := by
    intro first second
    rw [← Py.insertionSort_eq_iff, sortedTexts, sortedTexts, Json.arr.injEq,
      List.map_inj_right (fun _ _ => Json.str.inj)]
  have sortedCanonical : ∀ first second : List String,
      (sortedTexts first).canonical = (sortedTexts second).canonical ↔ first.Perm second := by
    intro first second
    rw [← Py.insertionSort_eq_iff, sortedTexts, sortedTexts, canonical_texts]
  rw [shown, shown]
  refine Iff.trans (Json.canonical_obj_inj rfl (by simp)) ?_
  simp only [List.map_cons, List.map_nil, List.cons.injEq, and_true, same, true_and]
  refine Iff.trans (Json.canonical_obj_inj rfl (by simp)) ?_
  simp only [List.map_cons, List.map_nil, List.cons.injEq, and_true, Json.canonical_str_inj,
    sortedCanonical]
  have fields : left.fields.Perm right.fields
      ↔ ∀ name, name ∈ left.fields ↔ name ∈ right.fields :=
    List.perm_ext_iff_of_nodup left.descriptor.fields.nodup right.descriptor.fields.nodup
  constructor
  · intro given
    obtain ⟨names, kinds, versions, models, sameFields, references, _⟩ := given
    exact ⟨NodeId.SameText.eq texts ⟨names, kinds, versions⟩, models, fields.mp sameFields,
      references⟩
  · intro alike
    obtain ⟨ids, models, sameFields, references⟩ := alike
    have permuted := fields.mpr sameFields
    refine ⟨by rw [ids], by rw [ids], by rw [ids], models, permuted, references, ?_⟩
    rw [(sorted _ _).mpr permuted, (sorted _ _).mpr references, models]

omit [DecidableEq V] in
/-- The members of the document of an edge. -/
theorem edgeDocument_eq (edge : ListedEdge V)
    : edgeDocument edge
      = .obj [("id", .str edge.id.ends), ("source", .str edge.id.source.str),
        ("target", .str edge.id.target.str), ("directed", .bool true),
        ("metadata", .obj (endMembers edge.id ++ migrationMembers edge.migration))] := by
  have metadata := metadata_fromEdgeKey edge none
  rw [Option.none_or] at metadata
  rw [edgeDocument, JgfEdge.toDict, metadata]
  rfl

omit [DecidableEq V] in
/-- Edges that differ in nothing but their discriminators. -/
def ListedEdge.ShownAlike (left right : ListedEdge V) : Prop :=
  left.id.source = right.id.source ∧ left.id.target = right.id.target
    ∧ left.migration = right.migration

omit [DecidableEq V] in
/-- The documents of edges with one text are equal exactly if the edges differ in nothing but
their discriminators.
-/
theorem edgeDocument_eq_iff (texts : VersionTexts V) {left right : ListedEdge V}
    (same : left.id.ends = right.id.ends)
    : (edgeDocument left).canonical = (edgeDocument right).canonical ↔ left.ShownAlike right := by
  have ends : left.id.nameSpace = right.id.nameSpace → left.id.kind = right.id.kind →
      VersionValue.str left.id.source.version = VersionValue.str right.id.source.version →
      VersionValue.str left.id.target.version = VersionValue.str right.id.target.version →
      left.id.source = right.id.source ∧ left.id.target = right.id.target := by
    intro names kinds sources targets
    refine ⟨NodeId.SameText.eq texts ⟨names, kinds, sources⟩,
      NodeId.SameText.eq texts ⟨?_, ?_, targets⟩⟩
    · rw [← left.id.sameNamespace, ← right.id.sameNamespace]
      exact names
    · rw [← left.id.sameKind, ← right.id.sameKind]
      exact kinds
  have metadata : (Json.obj (endMembers left.id ++ migrationMembers left.migration)).canonical
        = (Json.obj (endMembers right.id ++ migrationMembers right.migration)).canonical
      ↔ left.ShownAlike right := by
    obtain ⟨leftId, leftMigration⟩ := left
    obtain ⟨rightId, rightMigration⟩ := right
    -- Members that show a migration are more than members that show none.
    cases leftMigration with
    | none =>
        cases rightMigration with
        | none =>
            refine Iff.trans (Json.canonical_obj_inj rfl (by simp [endMembers, migrationMembers])) ?_
            simp only [endMembers, migrationMembers, List.append_nil, List.map_cons, List.map_nil,
              List.cons.injEq, and_true, Json.canonical_str_inj, ListedEdge.ShownAlike]
            constructor
            · intro given
              exact ends given.1 given.2.1 given.2.2.1 given.2.2.2
            · intro alike
              simp only [EdgeId.nameSpace, EdgeId.kind, alike.1, alike.2, true_and]
        | some migration =>
            refine iff_of_false ?_ (by simp [ListedEdge.ShownAlike])
            intro equal
            have lengths := Json.length_eq_of_canonical_obj equal
            simp [endMembers, migrationMembers] at lengths
    | some migration =>
        cases rightMigration with
        | none =>
            refine iff_of_false ?_ (by simp [ListedEdge.ShownAlike])
            intro equal
            have lengths := Json.length_eq_of_canonical_obj equal
            simp [endMembers, migrationMembers] at lengths
        | some other =>
            refine Iff.trans (Json.canonical_obj_inj rfl (by simp [endMembers, migrationMembers])) ?_
            simp only [endMembers, migrationMembers, List.cons_append, List.nil_append,
              List.map_cons, List.map_nil, List.cons.injEq, and_true, Json.canonical_str_inj,
              ListedEdge.ShownAlike, Option.some.injEq]
            constructor
            · intro given
              obtain ⟨names, kinds, sources, targets, strategies, identities⟩ := given
              obtain ⟨sameSource, sameTarget⟩ := ends names kinds sources targets
              refine ⟨sameSource, sameTarget, ?_⟩
              cases migration
              cases other
              simp only [MigrationDescriptor.mk.injEq]
              exact ⟨strategies, identities⟩
            · intro alike
              simp only [EdgeId.nameSpace, EdgeId.kind, alike.1, alike.2.1, alike.2.2, true_and]
  rw [edgeDocument_eq, edgeDocument_eq]
  refine Iff.trans (Json.canonical_obj_inj rfl (by simp)) ?_
  simp only [List.map_cons, List.map_nil, List.cons.injEq, and_true, same, true_and, metadata,
    Json.canonical_str_inj]
  constructor
  · intro given
    exact given.2.2
  · intro alike
    exact ⟨by rw [alike.1], by rw [alike.2.1], alike⟩

-----------------------------------------------------------------------------------------
-- What a comparison tells of catalogs
-----------------------------------------------------------------------------------------

/-- The catalogs that can be exported: reachable registries and the snapshots built from them. -/
inductive Exports : GraphExportSource V → Prop where
  | registry {U : Type} {config : Config V U} {registry : Registry V}
      (reached : Reachable config registry) : Exports registry.exportSource
  | snapshot {U : Type} {config : Config V U} {registry : Registry V}
      (reached : Reachable config registry) {hasher : ContentHasher} {revision : Option Revision}
      {graph : MigrationGraph V} (built : buildGraph hasher registry revision = .ok graph)
      : Exports graph.exportSource

omit [DecidableEq V] in
/-- The hydrated versions of a registry are in strict order. -/
theorem NodeStores.sorted_versions {registry : Registry V} (stores : NodeStores registry)
    : Py.SortedBy VersionNode.id NodeId.cmp registry.versions := by
  unfold Registry.versions Py.SortedBy
  rw [List.pairwise_filterMap]
  refine stores.sorted.imp ?_
  intro left right lt leftNode isLeft rightNode isRight
  cases left <;> cases right <;> simp_all [NodeEntry.node?, NodeEntry.id]

theorem Exports.sorted {source : GraphExportSource V} (exports : Exports source)
    : Py.SortedBy VersionNode.id NodeId.cmp source.versions := by
  cases exports with
  | registry reached => exact reached.nodeStores.sorted_versions
  | snapshot reached built =>
      have snapshot := snapshotOf_buildGraph reached.nodeStores reached.edgeStores built
      simp only [MigrationGraph.exportSource, MigrationGraph.versions, snapshot.nodes]
      exact reached.nodeStores.sorted_versions

/-- The catalogs have the same hydrated nodes and the same edges, each with its migration. -/
def SameExports (left right : GraphExportSource V) : Prop :=
  SameItems (VersionNode.Alike SameReferences) left.versions right.versions
    ∧ SameItems Eq left.exported right.exported

/-- No change of a node or an edge is reported exactly if the catalogs have the same nodes and
edges, and each node and edge that was added, removed or altered is reported.
-/
structure ManifestDiff.Tells (diff : ManifestDiff) (left right : GraphExportSource V) : Prop where
  unchanged : diff.nodes.changed = false ∧ diff.edges.changed = false ↔ SameExports left right
  nodes : diff.nodes.Reports (fun node => node.id.str) VersionNode.id
    (VersionNode.Alike SameReferences) left.versions right.versions
  edges : diff.edges.Reports (fun edge => edge.id.ends) ListedEdge.id Eq left.exported
    right.exported

/-- The texts of nodes and of the ends of edges do not hide what differs. Catalogs with the same
nodes and edges can only differ in the order of kinds, which matters where edges of two kinds read
alike.
-/
structure TextsTell (left right : GraphExportSource V) : Prop where
  nodes : KeysReport (fun node => node.id.str) VersionNode.id (VersionNode.Alike SameReferences)
    (VersionNode.Alike SameReferenceTexts) left.versions right.versions
  edges : KeysReport (fun edge => edge.id.ends) ListedEdge.id Eq ListedEdge.ShownAlike
    left.exported right.exported
  order : SameExports left right →
    LastAlike (fun edge => edge.id.ends) ListedEdge.ShownAlike left.exported right.exported

/-- Nodes with the same references have references that read the same. -/
theorem VersionNode.Alike.texts {left right : VersionNode V}
    (alike : left.Alike SameReferences right)
    : left.Alike SameReferenceTexts right := by
  obtain ⟨ids, models, fields, references⟩ := alike
  have permuted : left.references.Perm right.references :=
    (List.perm_ext_iff_of_nodup (List.nodup_dedup _) (List.nodup_dedup _)).mpr references
  exact ⟨ids, models, fields, permuted.map _⟩

/-- For any two registries or snapshots, the comparison of their manifests tells what differs
exactly if the texts do not hide it: nodes of one text and edges with ends of one text are in both
catalogs or in one of them, and where one of several such edges is altered, the last of them is.
-/
theorem Exports.tells_iff (texts : VersionTexts V) {left right : GraphExportSource V}
    (leftExports : Exports left) (rightExports : Exports right) (spec : ManifestSpec)
    (hasher : ContentHasher) (manager otherManager : String)
    (generatedAt otherGeneratedAt : Option String)
    : ∃ diff, ManifestDiff.compare (spec.exportManifest hasher left manager generatedAt)
        (spec.exportManifest hasher right otherManager otherGeneratedAt) = some diff
      ∧ (diff.Tells left right ↔ TextsTell left right) := by
  refine ⟨_, compare_exportManifest spec hasher left right manager otherManager generatedAt
    otherGeneratedAt, ?_⟩
  have nodesReported := @reports_iff (VersionNode V) (NodeId V) (fun node => node.id.str)
    (nodeDocument hasher) left.versions right.versions VersionNode.id
    (VersionNode.Alike SameReferences) (VersionNode.Alike SameReferenceTexts)
    (fun _ _ same => congrArg NodeId.str same)
    (fun _ _ same => nodeDocument_eq_iff texts hasher same)
  have edgesReported := @reports_iff (ListedEdge V) (EdgeId V) (fun edge => edge.id.ends)
    edgeDocument left.exported right.exported ListedEdge.id Eq ListedEdge.ShownAlike
    (fun _ _ same => congrArg EdgeId.ends same) (fun _ _ same => edgeDocument_eq_iff texts same)
  have nodesUnchanged := @unchanged_iff_lastAlike (VersionNode V) (NodeId V)
    (fun node => node.id.str) (nodeDocument hasher) left.versions right.versions VersionNode.id
    (VersionNode.Alike SameReferences) (VersionNode.Alike SameReferenceTexts)
    (fun _ _ same => congrArg NodeId.str same)
    (fun _ _ same => nodeDocument_eq_iff texts hasher same) (fun _ _ alike => alike.1)
  have edgesUnchanged := @unchanged_iff_lastAlike (ListedEdge V) (EdgeId V)
    (fun edge => edge.id.ends) edgeDocument left.exported right.exported ListedEdge.id Eq
    ListedEdge.ShownAlike (fun _ _ same => congrArg EdgeId.ends same)
    (fun _ _ same => edgeDocument_eq_iff texts same) (fun _ _ same => congrArg ListedEdge.id same)
  -- Versions are listed in order, so the same nodes are the same lists of nodes.
  have nodesInOrder : SameItems (VersionNode.Alike SameReferences) left.versions right.versions →
      LastAlike (fun node => node.id.str) (VersionNode.Alike SameReferenceTexts) left.versions
        right.versions := by
    intro same
    have listed := (Py.SortedBy.forall₂_iff (fun _ _ alike => alike.1) leftExports.sorted
      rightExports.sorted).mpr same
    exact lastAlike_of_forall₂ (fun _ _ alike => congrArg NodeId.str alike.1)
      (listed.imp (fun _ _ alike => alike.texts))
  constructor
  · intro tells
    refine ⟨nodesReported.mp tells.nodes, edgesReported.mp tells.edges, ?_⟩
    intro same
    exact (edgesUnchanged same.2).mp (tells.unchanged.mpr same).2
  · intro tell
    refine ⟨⟨?_, ?_⟩, nodesReported.mpr tell.nodes, edgesReported.mpr tell.edges⟩
    · intro unchanged
      exact ⟨sameItems_of_unchanged (nodesReported.mpr tell.nodes) unchanged.1,
        sameItems_of_unchanged (edgesReported.mpr tell.edges) unchanged.2⟩
    · intro same
      exact ⟨(nodesUnchanged same.1).mpr (nodesInOrder same.1),
        (edgesUnchanged same.2).mpr (tell.order same)⟩

/-- One of two key-only edges from the first to the second release of `User`. -/
def parallelEdge (second : Bool) : EdgePair Version where
  source := .nodeId (semverUser 1)
  target := .nodeId (semverUser 2)
  discriminator := if second then "second" else defaultDiscriminator
  named := by cases second <;> decide
  sameNamespace := userEdge.sameNamespace
  sameKind := userEdge.sameKind

/-- The two releases of `User` with edges between them. -/
def joinedUsers (edges : List (EdgePair Version)) : Registry Version :=
  Registry.runAll versionConfig
    ([.store (referringUser 1 (semverUser 2)), .store (referringUser 2 (semverUser 1))]
      ++ edges.map (fun edge => .storeMigration (.edge (.edgeKey edge))))
    (Registry.new "default" false)

theorem exports_joinedUsers (edges : List (EdgePair Version))
    : Exports (joinedUsers edges).exportSource := by
  have reached : ReachableBy (fun _ _ _ => True) (fun _ _ => True) versionConfig
      (joinedUsers edges) :=
    .runAll (.new _ _ _ (semverUser 1).named) (fun _ _ _ => trivial)
  exact .registry reached.reachable

/-- The parallel edge, as it is listed. -/
def listedEdge (second : Bool) : ListedEdge Version := ⟨(parallelEdge second).id, none⟩

theorem exported_joinedUsers
    : (joinedUsers [parallelEdge false]).exportSource.exported
      = [listedEdge false] := by
  decide +kernel

def plainSpec : ManifestSpec := ⟨"pyverge", "pyverge migration graph", .v1, "1.0.0"⟩

/-- Witness: the removal of the only edge between two releases is told. -/
theorem tells_removedEdge
    : ∃ diff, ManifestDiff.compare
        (plainSpec.exportManifest plainConfig.hasher
          (joinedUsers [parallelEdge false]).exportSource "app" none)
        (plainSpec.exportManifest plainConfig.hasher (joinedUsers []).exportSource "app" none)
          = some diff
      ∧ diff.Tells (joinedUsers [parallelEdge false]).exportSource
        (joinedUsers []).exportSource := by
  have kept : (joinedUsers [parallelEdge false]).exportSource.versions
      = (joinedUsers []).exportSource.versions := by
    decide +kernel
  have removed : (joinedUsers []).exportSource.exported = [] := by
    decide +kernel
  have distinct : ∀ item ∈ (joinedUsers []).exportSource.versions,
      ∀ other ∈ (joinedUsers []).exportSource.versions,
        (item.id.str = other.id.str → item = other) ∧ (item.id = other.id → item = other) := by
    decide +kernel
  obtain ⟨diff, compared, tells⟩ := Exports.tells_iff versionTexts (exports_joinedUsers _)
    (exports_joinedUsers _) plainSpec plainConfig.hasher "app" "app" none none
  refine ⟨diff, compared, tells.mpr ⟨?_, ?_, ?_⟩⟩
  · rw [kept]
    refine ⟨?_, ?_⟩
    · intro item inItems other inOthers same
      obtain rfl := (distinct item inItems other inOthers).1 same
      exact ⟨⟨item, inItems, rfl⟩, item, inItems, rfl⟩
    · intro item inItems other inOthers same altered
      obtain rfl := (distinct item inItems other inOthers).2 same
      exact (altered item.alike_self).elim
  · rw [removed]
    exact ⟨fun _ _ _ inOthers => (List.not_mem_nil inOthers).elim,
      fun _ _ _ inOthers => (List.not_mem_nil inOthers).elim⟩
  · intro _
    rw [removed]
    intro text before after _ second
    cases second

/-- Counterexample: a second edge beside the first is not reported. -/
theorem not_tells_parallelEdge
    : ¬ ∀ (left right : GraphExportSource Version) (spec : ManifestSpec) (hasher : ContentHasher)
        (manager : String),
        Exports left → Exports right
        → ∃ diff, ManifestDiff.compare (spec.exportManifest hasher left manager none)
            (spec.exportManifest hasher right manager none) = some diff
          ∧ diff.Tells left right := by
  intro claim
  have listed : (joinedUsers [parallelEdge false, parallelEdge true]).exportSource.exported
      = [listedEdge false, listedEdge true] := by
    decide +kernel
  obtain ⟨diff, compared, tells⟩ := claim
    (joinedUsers [parallelEdge false]).exportSource
    (joinedUsers [parallelEdge false, parallelEdge true]).exportSource plainSpec
    plainConfig.hasher "app"
    (exports_joinedUsers _) (exports_joinedUsers _)
  rw [compare_exportManifest] at compared
  obtain rfl := Option.some.inj compared
  have added := tells.edges.added (listedEdge true) (by rw [listed]; simp) (by
    rw [exported_joinedUsers]
    decide +kernel)
  refine (mem_added.mp added).2 (listedEdge false) ?_ rfl
  rw [exported_joinedUsers]
  exact List.mem_singleton_self _

end Pyverge
