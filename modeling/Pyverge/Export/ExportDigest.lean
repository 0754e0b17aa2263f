import Pyverge.Export.Manifest
import Pyverge.Graph.Queries

/-! Digests of exported documents.
The edges of a document are laid out kind by kind. A registry lists its kinds in the order in which
their first edges came, a snapshot lists them sorted, and the digest shows that order.
-/

namespace Pyverge

open Py (Json)

variable {V F : Type} [DecidableEq V] [VersionValue V]

-----------------------------------------------------------------------------------------
-- What a digest shows
-----------------------------------------------------------------------------------------

/-- The `id` of an exported graph. -/
def GraphExportSource.graphId (source : GraphExportSource V) (id : Option String) : String :=
  if id.getD "" = "" then source.nameSpace else id.getD ""

theorem members_exportGraph (source : GraphExportSource V) (hasher : ContentHasher)
    (id : Option String)
    : (source.exportGraph hasher id).members
      = [("id", .str (source.graphId id)), ("directed", .bool true),
        ("nodes", .obj (documents (fun node => node.id.str) (nodeDocument hasher)
          source.versions).items),
        ("edges", .arr (source.exported.map edgeDocument))] := by
  rw [JgfGraph.members, nodes_exportGraph, edges_exportGraph]
  rfl

section Documents

variable {hasher : ContentHasher} (faithful : hasher.Faithful) {left right : GraphExportSource V}
  (versions : left.versions = right.versions)

include faithful versions

/-- Catalogs with the same nodes have one digest exactly if their names and edges show alike. -/
theorem exportDigest_eq_iff (id : Option String)
    : left.exportDigest hasher id = right.exportDigest hasher id
      ↔ left.graphId id = right.graphId id
        ∧ left.exported.map (fun edge => (edgeDocument edge).canonical)
          = right.exported.map (fun edge => (edgeDocument edge).canonical) := by
  rw [GraphExportSource.exportDigest, GraphExportSource.exportDigest, faithful, JgfGraph.toDict,
    JgfGraph.toDict, members_exportGraph, members_exportGraph, versions]
  refine Iff.trans (Json.canonical_obj_inj rfl (by simp)) ?_
  simp only [List.map_cons, List.map_nil, List.cons.injEq, and_true]
  refine Iff.trans (Json.canonical_obj_inj rfl (by simp)) ?_
  simp only [List.map_cons, List.map_nil, List.cons.injEq, and_true, true_and,
    Json.canonical_str_inj, Json.canonical_arr_inj, List.map_map, Function.comp_def]

/-- The digest of a manifest shows no more than that of its graph. -/
theorem manifestDigest_eq_iff (spec : ManifestSpec) (manager : String)
    : spec.manifestDigest hasher left manager = spec.manifestDigest hasher right manager
      ↔ left.graphId (some spec.graphId) = right.graphId (some spec.graphId)
        ∧ left.exported.map (fun edge => (edgeDocument edge).canonical)
          = right.exported.map (fun edge => (edgeDocument edge).canonical) := by
  rw [ManifestSpec.manifestDigest, ManifestSpec.manifestDigest, faithful,
    ManifestSpec.graphMembers, ManifestSpec.graphMembers, members_exportGraph,
    members_exportGraph, versions]
  refine Iff.trans (Json.canonical_obj_inj rfl (by simp)) ?_
  simp only [List.cons_append, List.nil_append, List.map_cons, List.map_nil, List.cons.injEq,
    and_true, true_and, Json.canonical_str_inj, Json.canonical_arr_inj, List.map_map,
    Function.comp_def]

end Documents

omit [DecidableEq V] in
/-- Edge documents that are equal are those of edges of one kind. -/
theorem kind_eq_of_edgeDocument {left right : ListedEdge V}
    (same : (edgeDocument left).canonical = (edgeDocument right).canonical)
    : left.id.kind = right.id.kind := by
  have keys : ∀ edge : ListedEdge V,
      ((endMembers edge.id ++ migrationMembers edge.migration).map Prod.fst).Nodup := by
    intro edge
    cases edge.migration <;> simp [endMembers, migrationMembers]
  rw [edgeDocument_eq, edgeDocument_eq] at same
  have metadata := Option.some.inj (Json.getMember_canonical (by simp) (by simp) same "metadata")
  have kinds := Json.getMember_canonical (keys left) (keys right) metadata "kind"
  simpa [Json.getMember_append, endMembers, Json.getMember, Json.canonical] using kinds

omit [DecidableEq V] in
/-- Groups of edges, each of one kind and not empty, show in which order the kinds come. -/
theorem edgeDocuments_eq_iff {group : ModelKind → List (ListedEdge V)}
    (tagged : ∀ kind, ∀ edge ∈ group kind, edge.id.kind = kind) {left right : List ModelKind}
    (leftFull : ∀ kind ∈ left, group kind ≠ []) (rightFull : ∀ kind ∈ right, group kind ≠ [])
    : (left.flatMap group).map (fun edge => (edgeDocument edge).canonical)
        = (right.flatMap group).map (fun edge => (edgeDocument edge).canonical)
      ↔ left = right := by
  constructor
  · intro same
    refine Py.keys_eq_of_flatMap tagged leftFull rightFull ?_
    generalize left.flatMap group = first at same ⊢
    generalize right.flatMap group = second at same ⊢
    have alike := List.forall₂_map_left_iff.mp (List.forall₂_map_right_iff.mp
      (List.forall₂_eq_eq_eq ▸ same : List.Forall₂ Eq _ _))
    exact List.forall₂_eq_eq_eq ▸ List.forall₂_map_left_iff.mpr (List.forall₂_map_right_iff.mpr
      (alike.imp (fun _ _ one => kind_eq_of_edgeDocument one)))
  · intro same
    rw [same]

-----------------------------------------------------------------------------------------
-- What registries and snapshots list
-----------------------------------------------------------------------------------------

namespace Registry

omit [DecidableEq V] [VersionValue V] in
/-- The kinds that have edges, in the order in which the registry lists them. -/
def edgeKinds (registry : Registry V) : List ModelKind :=
  registry.kinds.filter (fun kind => !(registry.edges kind).isEmpty)

/-- The edges of a kind as they are exported. -/
def listedEdges (registry : Registry V) (kind : ModelKind) : List (ListedEdge V) :=
  (registry.edges kind).map EdgeEntry.listed

end Registry

omit [DecidableEq V] [VersionValue V] in
theorem mem_edgeKinds {registry : Registry V} {kind : ModelKind}
    : kind ∈ registry.edgeKinds ↔ registry.edges kind ≠ [] := by
  simp only [Registry.edgeKinds, List.mem_filter, Bool.not_eq_true', List.isEmpty_eq_false_iff]
  refine and_iff_right_of_imp (fun full => ?_)
  by_contra absent
  have none := Py.Dict.get?_eq_none.mpr absent
  exact full (by simp [Registry.edges, Py.Dict.getD, none])

omit [DecidableEq V] [VersionValue V] in
theorem exported_registry (registry : Registry V)
    : registry.exportSource.exported = registry.edgeKinds.flatMap registry.listedEdges := by
  have full := @Py.flatMap_filter_full _ _ registry.listedEdges registry.kinds
  simp only [Registry.listedEdges, List.isEmpty_map] at full
  simp only [GraphExportSource.exported, GraphExportSource.listed, Registry.exportSource,
    Option.none_or, Registry.edgeKinds, full]
  exact List.map_id _

omit [DecidableEq V] in
/-- The edges of a kind carry the kind. -/
theorem EdgeStores.kind_of_listed {registry : Registry V} (stores : EdgeStores registry)
    (kind : ModelKind) {edge : ListedEdge V} (member : edge ∈ registry.listedEdges kind)
    : edge.id.kind = kind := by
  obtain ⟨entry, stored, rfl⟩ := List.mem_map.mp member
  have filed := stores.filed kind entry stored
  cases entry <;> exact filed

section Snapshots

variable {hasher : ContentHasher} {source : Registry V} {graph : MigrationGraph V}
  (steps : BuildSteps hasher source graph) (stores : EdgeStores source)

include steps stores

/-- A snapshot keeps the migration of each executable edge apart from the edge. -/
theorem BuildSteps.edgeMetadata_eq {kind : ModelKind} {entry : EdgeEntry V}
    (stored : entry ∈ source.edges kind)
    : graph.backend.edgeMetadata.get? entry.id = entry.listed.migration := by
  have metadata : graph.backend.edgeMetadata = .ofItems
      (((steps.kinds.flatMap source.edges).filterMap EdgeEntry.version?).map
        (fun edge => (edge.id, edge.migration))) := by
    rw [steps.backend]
    exact (EdgeScan.foldlM_add steps.scanned).metadata
  have scanned : ∀ other : VersionEdge V,
      other ∈ (steps.kinds.flatMap source.edges).filterMap EdgeEntry.version?
        ↔ EdgeEntry.versionEdge other ∈ source.edges other.id.kind := by
    intro other
    rw [List.mem_filterMap]
    constructor
    · intro given
      obtain ⟨found, member, executes⟩ := given
      cases found with
      | edgeKey pair => cases executes
      | versionEdge version =>
          obtain rfl := Option.some.inj executes
          exact (stores.mem_snapshotEdges steps.listed).mp member
    · intro member
      exact ⟨_, (stores.mem_snapshotEdges steps.listed).mpr member, rfl⟩
  rw [metadata]
  apply Option.ext
  intro migration
  rw [Py.Dict.get?_ofItems]
  · simp only [List.mem_map, Prod.mk.injEq, scanned]
    cases entry with
    | edgeKey pair =>
        refine iff_of_false ?_ (by simp [EdgeEntry.listed])
        intro given
        obtain ⟨other, member, same, _⟩ := given
        cases stores.eq_of_id member stored same
    | versionEdge version =>
        constructor
        · intro given
          obtain ⟨other, member, same, rfl⟩ := given
          cases stores.eq_of_id member stored same
          rfl
        · intro found
          obtain rfl := Option.some.inj found
          have filed : version.id.kind = kind := stores.filed kind _ stored
          exact ⟨version, filed.symm ▸ stored, rfl, rfl⟩
  · intro left inLeft right inRight same
    simp only [List.mem_map, scanned] at inLeft inRight
    obtain ⟨first, inFirst, rfl⟩ := inLeft
    obtain ⟨second, inSecond, rfl⟩ := inRight
    cases stores.eq_of_id inFirst inSecond same
    rfl

/-- A snapshot shows the edges of the registry, kind by kind in the order of the kinds. -/
theorem BuildSteps.exported_eq
    : graph.exportSource.exported
      = (graph.kinds.filter (fun kind => !(source.edges kind).isEmpty)).flatMap
          source.listedEdges := by
  have full := @Py.flatMap_filter_full _ _ source.listedEdges graph.kinds
  have empty : ∀ kind, (source.listedEdges kind).isEmpty = (source.edges kind).isEmpty :=
    fun kind => List.isEmpty_map
  simp only [empty] at full
  rw [full, GraphExportSource.exported, GraphExportSource.listed, List.map_flatMap]
  refine List.flatMap_congr (fun kind _ => ?_)
  have listed : graph.exportSource.edges kind
      = (source.edges kind).map (fun entry => ⟨entry.id, none⟩) := by
    change (graph.edges kind).map _ = _
    rw [steps.edges_eq stores, List.map_map]
    exact List.map_congr_left (fun entry _ => by cases entry <;> rfl)
  rw [listed, List.map_map]
  refine List.map_congr_left (fun entry stored => ?_)
  have metadata := steps.edgeMetadata_eq stores stored
  change (⟨entry.id, (graph.backend.edgeMetadata.get? entry.id).or none⟩ : ListedEdge V) = _
  rw [metadata, Option.or_none]
  cases entry <;> rfl

/-- The kinds of a snapshot that have edges are those of the registry, sorted. -/
theorem BuildSteps.edgeKinds_eq_iff
    : source.edgeKinds = graph.kinds.filter (fun kind => !(source.edges kind).isEmpty)
      ↔ source.edgeKinds.Pairwise (· ≤ ·) := by
  have sorted : (graph.kinds.filter (fun kind => !(source.edges kind).isEmpty)).Pairwise
      (· ≤ ·) :=
    (List.pairwise_insertionSort _ _).filter _
  have nodup : graph.kinds.Nodup :=
    (List.perm_insertionSort _ _).nodup_iff.mpr (List.nodup_dedup _)
  constructor
  · intro same
    rw [same]
    exact sorted
  · intro ordered
    refine List.Perm.eq_of_pairwise' ordered sorted ?_
    have distinct : source.edgeKinds.Nodup := source.migrations.nodup.filter _
    refine (List.perm_ext_iff_of_nodup distinct (nodup.filter _)).mpr (fun kind => ?_)
    rw [mem_edgeKinds, List.mem_filter]
    simp only [Bool.not_eq_true', List.isEmpty_eq_false_iff]
    refine (and_iff_right_of_imp (fun full => ?_)).symm
    have listed : kind ∈ graph.backend.edgesByKind.keys := by
      by_contra absent
      have none := Py.Dict.get?_eq_none.mpr absent
      have empty : graph.edges kind = [] := by
        simp [MigrationGraph.edges, Py.Dict.getD, none]
      rw [steps.edges_eq stores, List.map_eq_nil_iff] at empty
      exact full empty
    exact (List.perm_insertionSort _ _).mem_iff.mpr
      (List.mem_dedup.mpr (List.mem_append_right _ listed))

end Snapshots

-----------------------------------------------------------------------------------------
-- Equal digests
-----------------------------------------------------------------------------------------

omit [VersionValue V] in
/-- The registries hold the same entries and the same edges. -/
structure SameStored (left right : Registry V) : Prop where
  entries : ∀ entry, entry ∈ left.entries ↔ entry ∈ right.entries
  edges : ∀ kind edge, edge ∈ left.edges kind ↔ edge ∈ right.edges kind

/-- The exports of both registries and of the snapshots of the first have equal digests. -/
structure ExportsAgree (hasher : ContentHasher) (left right : Registry V) : Prop where
  digests : ∀ id,
    left.exportSource.exportDigest hasher id = right.exportSource.exportDigest hasher id
  manifests : ∀ (spec : ManifestSpec) (manager : String),
    spec.manifestDigest hasher left.exportSource manager
      = spec.manifestDigest hasher right.exportSource manager
  snapshots : ∀ (builder : ContentHasher) (revision : Option Revision) (graph : MigrationGraph V),
    buildGraph builder left revision = .ok graph → ∀ id,
      left.exportSource.exportDigest hasher id = graph.exportSource.exportDigest hasher id

section Agreement

variable {config other : Config V F} {left right : Registry V}
  (leftReached : Reachable config left) (rightReached : Reachable other right)

include leftReached rightReached in
/-- Stores are sorted, so the same members are the same lists. -/
theorem SameStored.lists (same : SameStored left right)
    : left.versions = right.versions ∧ left.edges = right.edges := by
  have entries : left.byVersions = right.byVersions :=
    leftReached.nodeStores.sorted.eq_of_mem rightReached.nodeStores.sorted same.entries
  refine ⟨congrArg (List.filterMap NodeEntry.node?) entries, funext (fun kind => ?_)⟩
  exact (leftReached.edgeStores.sorted kind).eq_of_mem (rightReached.edgeStores.sorted kind)
    (same.edges kind)

variable {hasher : ContentHasher} (faithful : hasher.Faithful)

include leftReached faithful

include rightReached in
theorem registryDigests_iff (same : SameStored left right) (id : Option String)
    : left.exportSource.exportDigest hasher id = right.exportSource.exportDigest hasher id
      ↔ left.exportSource.graphId id = right.exportSource.graphId id
        ∧ left.edgeKinds = right.edgeKinds := by
  obtain ⟨versions, edges⟩ := same.lists leftReached rightReached
  have groups : right.listedEdges = left.listedEdges := by
    funext kind
    rw [Registry.listedEdges, Registry.listedEdges, edges]
  refine (exportDigest_eq_iff faithful versions id).trans (and_congr_right (fun _ => ?_))
  rw [exported_registry, exported_registry, groups]
  refine edgeDocuments_eq_iff
    (fun kind _ member => leftReached.edgeStores.kind_of_listed kind member) ?_ ?_
  · intro kind member
    exact mt List.map_eq_nil_iff.mp (mem_edgeKinds.mp member)
  · intro kind member
    rw [← groups]
    exact mt List.map_eq_nil_iff.mp (mem_edgeKinds.mp member)

theorem snapshotDigest_iff {builder : ContentHasher} {revision : Option Revision}
    {graph : MigrationGraph V} (built : buildGraph builder left revision = .ok graph)
    (id : Option String)
    : left.exportSource.exportDigest hasher id = graph.exportSource.exportDigest hasher id
      ↔ left.edgeKinds.Pairwise (· ≤ ·) := by
  have stores := leftReached.edgeStores
  obtain ⟨steps⟩ := buildGraph_steps leftReached.nodeStores stores built
  have snapshot := snapshotOf_buildGraph leftReached.nodeStores stores built
  have versions : left.exportSource.versions = graph.exportSource.versions := by
    simp only [MigrationGraph.exportSource, MigrationGraph.versions, snapshot.nodes]
    rfl
  have names : graph.exportSource.nameSpace = left.nameSpace := by
    change graph.backend.nameSpace = _
    rw [steps.backend]
  have ids : left.exportSource.graphId id = graph.exportSource.graphId id := by
    rw [GraphExportSource.graphId, GraphExportSource.graphId, names]
    rfl
  rw [exportDigest_eq_iff faithful versions id, and_iff_right ids, exported_registry,
    steps.exported_eq stores, ← steps.edgeKinds_eq_iff stores]
  refine edgeDocuments_eq_iff (fun kind _ member => stores.kind_of_listed kind member) ?_ ?_
  · intro kind member
    exact mt List.map_eq_nil_iff.mp (mem_edgeKinds.mp member)
  · intro kind member
    simp only [List.mem_filter, Bool.not_eq_true', List.isEmpty_eq_false_iff] at member
    exact mt List.map_eq_nil_iff.mp member.2

include rightReached in
theorem exportsAgree_iff (same : SameStored left right)
    : ExportsAgree hasher left right
      ↔ left.nameSpace = right.nameSpace ∧ left.edgeKinds = right.edgeKinds
        ∧ ((∃ builder revision graph, buildGraph builder left revision = .ok graph) →
          left.edgeKinds.Pairwise (· ≤ ·)) := by
  have agree := registryDigests_iff leftReached rightReached faithful same
  constructor
  · intro agrees
    obtain ⟨names, kinds⟩ := (agree none).mp (agrees.digests none)
    refine ⟨names, kinds, fun possible => ?_⟩
    obtain ⟨builder, revision, graph, built⟩ := possible
    exact (snapshotDigest_iff leftReached faithful built none).mp
      (agrees.snapshots builder revision graph built none)
  · intro given
    obtain ⟨names, kinds, sorted⟩ := given
    have ids : ∀ id, left.exportSource.graphId id = right.exportSource.graphId id := by
      intro id
      rw [GraphExportSource.graphId, GraphExportSource.graphId]
      change (if id.getD "" = "" then left.nameSpace else _) = _
      rw [names]
      rfl
    refine ⟨fun id => (agree id).mpr ⟨ids id, kinds⟩, fun spec manager => ?_, ?_⟩
    · obtain ⟨versions, _⟩ := same.lists leftReached rightReached
      have shown := (exportDigest_eq_iff faithful versions none).mp ((agree none).mpr
        ⟨ids none, kinds⟩)
      exact (manifestDigest_eq_iff faithful versions spec manager).mpr
        ⟨ids (some spec.graphId), shown.2⟩
    · intro builder revision graph built id
      exact (snapshotDigest_iff leftReached faithful built id).mpr
        (sorted ⟨builder, revision, graph, built⟩)

end Agreement

/-- The edge of a kind from one release to the next. -/
def kindEdge (kind : ModelKind) (major : Nat) : EdgePair Version where
  source := .nodeId { semverUser major with kind }
  target := .nodeId { semverUser (major + 1) with kind }
  discriminator := defaultDiscriminator
  named := userEdge.named
  sameNamespace := rfl
  sameKind := rfl

/-- A registry that stores edges of these kinds and releases one after the other. -/
def edgesOfKinds (steps : List (ModelKind × Nat)) : Registry Version :=
  Registry.runAll versionConfig
    (steps.map (fun step => .storeMigration (.edge (.edgeKey (kindEdge step.1 step.2)))))
    (Registry.new "default" false)

theorem reachable_edgesOfKinds (steps : List (ModelKind × Nat))
    : Reachable versionConfig (edgesOfKinds steps) := by
  have reached : ReachableBy (fun _ _ _ => True) (fun _ _ => True) versionConfig
      (edgesOfKinds steps) :=
    .runAll (.new _ _ _ (semverUser 1).named) (fun _ _ _ => trivial)
  exact reached.reachable

/-- Witness: where the kinds come in one order, the order of the edges of a kind does not matter. -/
theorem exportsAgree_ordered
    : ExportsAgree canonicalHasher (edgesOfKinds [("Order", 1), ("User", 1), ("User", 2)])
        (edgesOfKinds [("Order", 1), ("User", 2), ("User", 1)]) := by
  have kinds : (edgesOfKinds [("Order", 1), ("User", 1), ("User", 2)]).edgeKinds
      = ["Order", "User"] := by
    decide +kernel
  have same : SameStored (edgesOfKinds [("Order", 1), ("User", 1), ("User", 2)])
      (edgesOfKinds [("Order", 1), ("User", 2), ("User", 1)]) := by
    have entries : (edgesOfKinds [("Order", 1), ("User", 1), ("User", 2)]).entries
        = (edgesOfKinds [("Order", 1), ("User", 2), ("User", 1)]).entries := by
      decide +kernel
    have migrations : (edgesOfKinds [("Order", 1), ("User", 1), ("User", 2)]).migrations
        = (edgesOfKinds [("Order", 1), ("User", 2), ("User", 1)]).migrations := by
      decide +kernel
    refine ⟨fun entry => by rw [entries], fun kind edge => ?_⟩
    rw [Registry.edges, Registry.edges, migrations]
  refine (exportsAgree_iff (reachable_edgesOfKinds _) (reachable_edgesOfKinds _)
    canonicalHasher_faithful same).mpr ⟨?_, ?_, fun _ => ?_⟩
  · decide +kernel
  · decide +kernel
  · rw [kinds]
    decide

/-- Counterexample: the edges of two kinds, stored in either order, give two digests. -/
theorem not_exportsAgree_kinds
    : ¬ ∀ left right : Registry Version, Reachable versionConfig left →
        Reachable versionConfig right → SameStored left right →
          ExportsAgree canonicalHasher left right := by
  intro agree
  have same : SameStored (edgesOfKinds [("Order", 1), ("User", 1)]) (edgesOfKinds [("User", 1), ("Order", 1)]) := by
    have none : (edgesOfKinds [("Order", 1), ("User", 1)]).entries
        = (edgesOfKinds [("User", 1), ("Order", 1)]).entries := by
      decide +kernel
    refine ⟨fun entry => by rw [none], fun kind edge => ?_⟩
    have first : (edgesOfKinds [("Order", 1), ("User", 1)]).migrations
        = ((∅ : Py.Dict _ _).set "Order" [.edgeKey (kindEdge "Order" 1)]).set "User"
          [.edgeKey (kindEdge "User" 1)] := rfl
    have second : (edgesOfKinds [("User", 1), ("Order", 1)]).migrations
        = ((∅ : Py.Dict _ _).set "User" [.edgeKey (kindEdge "User" 1)]).set "Order"
          [.edgeKey (kindEdge "Order" 1)] := rfl
    rw [Registry.edges, Registry.edges, first, second, Py.Dict.getD_set, Py.Dict.getD_set,
      Py.Dict.getD_set, Py.Dict.getD_set]
    by_cases order : kind = "Order"
    · subst order
      simp
    · simp [order]
  have agrees := agree _ _ (reachable_edgesOfKinds _) (reachable_edgesOfKinds _) same
  have kinds := ((registryDigests_iff (reachable_edgesOfKinds _) (reachable_edgesOfKinds _)
    canonicalHasher_faithful same none).mp (agrees.digests none)).2
  exact absurd kinds (by decide +kernel)

end Pyverge
