import Mathlib.Data.List.Dedup
import Pyverge.Graph.Snapshot
import Pyverge.Registry.EdgeOrder

/-! What a snapshot holds: the nodes and edges of the registry it was built from.
The builder scans the edges kind by kind into a map, which loses none of them because stored
edges differ in their identities.
-/

namespace Pyverge

variable {V : Type} [DecidableEq V] [VersionValue V]

/-- The digest of an edge whose content can be hashed. -/
def EdgeEntry.digestText (entry : EdgeEntry V) (hasher : ContentHasher) : String :=
  (entry.digest hasher).toOption.getD ""

/-- The hooks of an edge in the order of their digests. -/
def Registry.sortedHooks (source : Registry V) (hasher : ContentHasher) (key : EdgeId V)
    : List HookRef :=
  (source.getHooks key).insertionSort (fun left right => left.digest hasher ≤ right.digest hasher)

/-- What scanning a list of edges adds to each part of a scan. -/
structure EdgeScan.Adds (hasher : ContentHasher) (source : Registry V)
    (entries : List (EdgeEntry V)) (start scan : EdgeScan V) : Prop where
  edgesById : scan.edgesById
    = start.edgesById.update (entries.map (fun entry => (entry.id, entry.pair)))
  executable : scan.executableEdgeIds
    = start.executableEdgeIds ++ (entries.filter EdgeEntry.isExecutable).map EdgeEntry.id
  digests : scan.edgeDigests
    = start.edgeDigests.update (entries.map (fun entry => (entry.id, entry.digestText hasher)))
  hooks : scan.hookSpecs = start.hookSpecs.update
    ((entries.filter (fun entry => !(source.getHooks entry.id).isEmpty)).map
      (fun entry => (entry.id, source.sortedHooks hasher entry.id)))
  metadata : scan.edgeMetadata = start.edgeMetadata.update
    ((entries.filterMap EdgeEntry.version?).map (fun edge => (edge.id, edge.migration)))
  hashed : ∀ entry ∈ entries, entry.digest hasher = .ok (entry.digestText hasher)

/-- The scan of a list of edges, by list induction. -/
theorem EdgeScan.foldlM_add {hasher : ContentHasher} {source : Registry V}
    {entries : List (EdgeEntry V)} {start scan : EdgeScan V}
    (run : entries.foldlM (EdgeScan.add hasher source) start = .ok scan)
    : EdgeScan.Adds hasher source entries start scan := by
  induction entries generalizing start with
  | nil =>
      obtain rfl := Except.ok.inj run
      constructor <;> simp [Py.Dict.update]
  | cons entry rest ih =>
      rw [List.foldlM_cons] at run
      obtain ⟨next, added, later⟩ := Py.ok_bind_iff.mp run
      obtain ⟨digest, found, built⟩ := Py.ok_bind_iff.mp added
      obtain rfl := Except.ok.inj built
      have text : entry.digestText hasher = digest := by
        simp [EdgeEntry.digestText, found, Except.toOption]
      obtain ⟨edges, executable, digests, hooks, metadata, hashed⟩ := ih later
      refine ⟨edges, executable.trans ?_, digests.trans ?_, hooks.trans ?_, metadata.trans ?_, ?_⟩
      · cases executes : entry.isExecutable <;> simp [executes]
      · rw [List.map_cons, text]
        rfl
      · cases unhooked : (source.getHooks entry.id).isEmpty with
        | true => simp [unhooked]
        | false =>
            simp only [unhooked, Bool.false_eq_true, if_false, Bool.not_false, List.filter_cons,
              if_true, List.map_cons]
            rfl
      · cases entry <;> rfl
      · intro other member
        rcases List.mem_cons.mp member with rfl | old
        · rw [text, found]
        · exact hashed other old

omit [DecidableEq V] in
/-- The scanned kinds cover all stored edges. -/
theorem EdgeStores.mem_snapshotEdges {source : Registry V} (stores : EdgeStores source)
    {kinds : List ModelKind} (listed : kinds.Perm source.snapshotKinds) {entry : EdgeEntry V}
    : entry ∈ kinds.flatMap source.edges ↔ entry ∈ source.edges entry.kind := by
  rw [List.mem_flatMap]
  constructor
  · rintro ⟨kind, _, member⟩
    rwa [stores.filed kind entry member]
  · intro member
    refine ⟨entry.kind, ?_, member⟩
    have present : entry.kind ∈ source.kinds := by
      by_contra absent
      have none := Py.Dict.get?_eq_none.mpr absent
      simp [Registry.edges, Py.Dict.getD, none] at member
    exact listed.mem_iff.mpr (List.mem_dedup.mpr (List.mem_append_right _ present))

omit [DecidableEq V] in
/-- No identity is scanned with two different edges. -/
theorem EdgeStores.scan_functional {source : Registry V} (stores : EdgeStores source)
    {kinds : List ModelKind} (listed : kinds.Perm source.snapshotKinds)
    {left right : EdgeId V × EdgePair V}
    (inLeft : left ∈ (kinds.flatMap source.edges).map (fun entry => (entry.id, entry.pair)))
    (inRight : right ∈ (kinds.flatMap source.edges).map (fun entry => (entry.id, entry.pair)))
    (same : left.1 = right.1)
    : left = right := by
  obtain ⟨first, inFirst, rfl⟩ := List.mem_map.mp inLeft
  obtain ⟨second, inSecond, rfl⟩ := List.mem_map.mp inRight
  rw [stores.eq_of_id ((stores.mem_snapshotEdges listed).mp inFirst)
    ((stores.mem_snapshotEdges listed).mp inSecond) same]

/-- The scan of all kinds holds every stored edge. -/
theorem EdgeStores.mem_scanned {hasher : ContentHasher} {source : Registry V}
    (stores : EdgeStores source) {kinds : List ModelKind}
    (listed : kinds.Perm source.snapshotKinds) {scan : EdgeScan V}
    (run : (kinds.flatMap source.edges).foldlM (EdgeScan.add hasher source) .empty = .ok scan) {pair : EdgePair V}
    : pair ∈ scan.edgesById.values ↔ ∃ entry ∈ source.edges pair.id.kind, entry.pair = pair := by
  have scanned : scan.edgesById = .ofItems ((kinds.flatMap source.edges).map
      (fun entry => (entry.id, entry.pair))) := (EdgeScan.foldlM_add run).edgesById
  rw [scanned, Py.Dict.mem_values]
  simp only [Py.Dict.get?_ofItems
      (fun _ inLeft _ inRight => stores.scan_functional listed inLeft inRight),
    List.mem_map, Prod.mk.injEq, stores.mem_snapshotEdges listed]
  constructor
  · rintro ⟨_, entry, member, _, rfl⟩
    exact ⟨entry, member, rfl⟩
  · rintro ⟨entry, member, rfl⟩
    exact ⟨entry.id, entry, member, rfl, rfl⟩

/-- A snapshot of a registry: its entries and its edges, nothing else. -/
structure SnapshotOf (source : Registry V) (graph : MigrationGraph V) : Prop where
  nodes : graph.backend.nodes = source.byVersions
  kindEntries : ∀ kind, graph.kindEntries kind = source.kindEntries kind
  edges : ∀ pair, pair ∈ graph.backend.edges
    ↔ ∃ entry ∈ source.edges pair.id.kind, entry.pair = pair
  between : ∀ from_ to_, graph.edgesBetween from_ to_
    = graph.backend.edges.filter (fun edge => (edge.id.source, edge.id.target) = (from_, to_))
  executable : ∀ id, graph.isExecutable id
    ↔ ∃ edge, .versionEdge edge ∈ source.edges id.kind ∧ edge.id = id

omit [DecidableEq V] in
theorem NodeStores.eq_of_id {registry : Registry V} (stores : NodeStores registry)
    {left right : NodeEntry V} (inLeft : left ∈ registry.byVersions)
    (inRight : right ∈ registry.byVersions) (same : left.id = right.id)
    : left = right := by
  refine stores.sorted.eq_of_cmp_eq inLeft inRight ?_
  rw [same]
  exact Std.ReflCmp.compare_self

omit [DecidableEq V] in
/-- The entries of a registry are sorted already. -/
theorem NodeStores.sorted_entries {source : Registry V} (stores : NodeStores source)
    : Py.sorted (fun left right => left.id.lt right.id) source.byVersions
      = .ok source.byVersions := by
  refine Py.sorted_of_pairwise (List.Pairwise.imp_of_mem ?_ stores.sorted)
  intro left right inLeft inRight lt
  rw [NodeId.lt, if_pos (stores.uniform left inLeft right inRight)]
  have gt : right.id.cmp left.id = .gt := Std.OrientedCmp.gt_of_lt lt
  simp [gt]

/-- The namespaces of the nodes and edges of a graph. -/
def MigrationGraph.namespaces (graph : MigrationGraph V) : List String :=
  graph.backend.nodes.map (fun node => node.id.nameSpace)
    ++ graph.backend.edges.map (fun edge => edge.id.nameSpace)

omit [VersionValue V] [DecidableEq V] in
/-- The check passes only for entries of one namespace. -/
theorem checkNamespaces_eq_ok {source : Registry V} {nodes : List (NodeEntry V)}
    {edges : List (EdgePair V)} (checked : checkNamespaces source nodes edges = .ok ⟨⟩)
    {left right : String}
    (inLeft : left ∈ nodes.map (fun node => node.id.nameSpace)
      ++ edges.map (fun edge => edge.id.nameSpace))
    (inRight : right ∈ nodes.map (fun node => node.id.nameSpace)
      ++ edges.map (fun edge => edge.id.nameSpace))
    : left = right := by
  unfold checkNamespaces at checked
  simp only at checked
  split at checked
  · cases checked
  case isFalse few =>
    rw [← List.mem_dedup] at inLeft inRight
    generalize (nodes.map (fun node => node.id.nameSpace)
      ++ edges.map (fun edge => edge.id.nameSpace)).dedup = names at *
    cases names with
    | nil => cases inLeft
    | cons first rest =>
        cases rest with
        | nil => simp_all
        | cons second more => simp at few

theorem EdgeStores.nodup_scanned {hasher : ContentHasher} {source : Registry V}
    (stores : EdgeStores source) {kinds : List ModelKind}
    (listed : kinds.Perm source.snapshotKinds) {scan : EdgeScan V}
    (run : (kinds.flatMap source.edges).foldlM (EdgeScan.add hasher source) .empty = .ok scan)
    : scan.edgesById.values.Nodup := by
  refine Py.Dict.nodup_values EdgePair.id ?_
  intro item member
  have scanned : scan.edgesById = .ofItems ((kinds.flatMap source.edges).map
      (fun entry => (entry.id, entry.pair))) := (EdgeScan.foldlM_add run).edgesById
  rw [← Py.Dict.get?_eq_some, scanned, Py.Dict.get?_ofItems
    (fun _ inLeft _ inRight => stores.scan_functional listed inLeft inRight)] at member
  obtain ⟨entry, _, same⟩ := List.mem_map.mp member
  obtain ⟨id, pair⟩ := Prod.mk.inj same
  rw [← id, ← pair]
  rfl

/-- Sorting the scanned edges puts them in strict order, since stored edges differ. -/
theorem EdgeStores.sorted_scanned {hasher : ContentHasher} {source : Registry V}
    (stores : EdgeStores source) {kinds : List ModelKind}
    (listed : kinds.Perm source.snapshotKinds) {scan : EdgeScan V}
    (run : (kinds.flatMap source.edges).foldlM (EdgeScan.add hasher source) .empty = .ok scan)
    {items edges : List (EdgePair V)} (permuted : items.Perm scan.edgesById.values)
    (sorted : Py.sorted (fun left right => left.id.lt right.id) items = .ok edges)
    : Py.SortedBy EdgePair.id EdgeId.cmp edges := by
  have distinct : items.Nodup := permuted.nodup_iff.mpr (stores.nodup_scanned listed run)
  refine Py.sortedBy_of_sorted (fun _ _ _ asked => EdgeId.lt_agrees asked) distinct ?_ sorted
  intro left inLeft right inRight equal
  obtain ⟨first, inFirst, rfl⟩ := (stores.mem_scanned listed run).mp (permuted.mem_iff.mp inLeft)
  obtain ⟨second, inSecond, rfl⟩ := (stores.mem_scanned listed run).mp (permuted.mem_iff.mp inRight)
  exact congrArg EdgeEntry.pair (stores.eq_of_cmp inFirst inSecond equal)

/-- The intermediate values of a successful build. -/
structure BuildSteps (hasher : ContentHasher) (source : Registry V) (graph : MigrationGraph V)
    where
  kinds : List ModelKind
  digests : List (NodeId V × String)
  scan : EdgeScan V
  edges : List (EdgePair V)
  specs : List (EdgeId V × List HookRef)
  digested : source.byVersions.mapM (fun node => do return (node.id, ← node.digest hasher))
    = .ok digests
  listed : kinds.Perm source.snapshotKinds
  scanned : (kinds.flatMap source.edges).foldlM (EdgeScan.add hasher source) .empty = .ok scan
  permuted : edges.Perm scan.edgesById.values
  sorted : Py.SortedBy EdgePair.id EdgeId.cmp edges
  specsSorted : Py.sorted (fun left right => left.1.lt right.1) scan.hookSpecs.items = .ok specs
  oneNamespace : ∀ left ∈ graph.namespaces, ∀ right ∈ graph.namespaces, left = right
  backend : graph.backend = {
    name := source.nameSpace
    nameSpace := source.nameSpace
    nodes := source.byVersions
    edges
    nodesById := .indexBy NodeEntry.id source.byVersions
    edgesById := .indexBy EdgePair.id edges
    nodesByKind := .groupBy NodeEntry.kind source.byVersions
    edgesByKind := .groupBy (fun edge => edge.id.kind) edges
    edgesByEndpoint := endpointIndex edges
    edgesByPair := .groupBy (fun edge => (edge.id.source, edge.id.target)) edges
    nodePositions := positionIndex source.byVersions
    edgeIds := edges.map EdgePair.id
    modelsByRef := source.byModels
    executableEdgeIds := scan.executableEdgeIds
    edgeMetadata := scan.edgeMetadata
    digests := source.digestIndex.getD ∅
    nodeDigests := .ofItems digests
    edgeDigests := scan.edgeDigests
    hookSpecs := .ofItems specs
  }
  derived : graph.backend.derive hasher = .ok graph.revision
  manifest : graph.manifestDigest = graph.backend.manifestDigest graph.revision hasher

/-- A successful build, step by step. -/
theorem buildGraphOver_steps {hasher : ContentHasher} {source : Registry V}
    {kinds : List ModelKind} {revision : Option Revision} {graph : MigrationGraph V}
    (nodeStores : NodeStores source) (edgeStores : EdgeStores source)
    (listed : kinds.Perm source.snapshotKinds)
    (built : buildGraphOver hasher source kinds revision = .ok graph)
    : Nonempty (BuildSteps hasher source graph) := by
  obtain ⟨_, _, built⟩ := Py.ok_bind_iff.mp built
  obtain ⟨nodes, sortedNodes, built⟩ := Py.ok_bind_iff.mp built
  obtain rfl := Except.ok.inj (sortedNodes.symm.trans nodeStores.sorted_entries)
  obtain ⟨digests, digested, built⟩ := Py.ok_bind_iff.mp built
  obtain ⟨scan, scanned, built⟩ := Py.ok_bind_iff.mp built
  obtain ⟨collected, sortedEdges, built⟩ := Py.ok_bind_iff.mp built
  obtain ⟨_, checked, built⟩ := Py.ok_bind_iff.mp built
  obtain ⟨backend, indexed, built⟩ := Py.ok_bind_iff.mp built
  obtain ⟨revision, derived, built⟩ := Py.ok_bind_iff.mp built
  obtain ⟨_, _, built⟩ := Py.ok_bind_iff.mp built
  obtain rfl := Except.ok.inj built
  obtain ⟨again, sortedAgain, indexed⟩ := Py.ok_bind_iff.mp indexed
  obtain rfl := Except.ok.inj (sortedAgain.symm.trans nodeStores.sorted_entries)
  obtain ⟨edges, sortedOrdered, indexed⟩ := Py.ok_bind_iff.mp indexed
  obtain ⟨specs, specsSorted, indexed⟩ := Py.ok_bind_iff.mp indexed
  obtain rfl := Except.ok.inj indexed
  have permuted := (Py.perm_of_sorted sortedOrdered).trans (Py.perm_of_sorted sortedEdges)
  have sorted := edgeStores.sorted_scanned listed scanned (Py.perm_of_sorted sortedEdges) sortedOrdered
  -- The edges were sorted before the check, so that both sorts return the same list.
  have same : edges = collected :=
    sorted.eq_of_mem (edgeStores.sorted_scanned listed scanned .rfl sortedEdges)
      (fun _ => (Py.perm_of_sorted sortedOrdered).mem_iff)
  subst same
  exact ⟨{
    kinds, digests, scan, edges, specs, digested, listed, scanned, permuted, sorted, specsSorted
    derived
    oneNamespace := fun _ inLeft _ inRight => checkNamespaces_eq_ok checked inLeft inRight
    backend := rfl
    manifest := rfl
  }⟩

theorem buildGraph_steps {hasher : ContentHasher} {source : Registry V}
    {revision : Option Revision} {graph : MigrationGraph V} (nodeStores : NodeStores source)
    (edgeStores : EdgeStores source) (built : buildGraph hasher source revision = .ok graph)
    : Nonempty (BuildSteps hasher source graph) :=
  buildGraphOver_steps nodeStores edgeStores .rfl built

theorem snapshotOf_buildGraph {hasher : ContentHasher} {source : Registry V}
    {revision : Option Revision} {graph : MigrationGraph V} (nodeStores : NodeStores source)
    (edgeStores : EdgeStores source) (built : buildGraph hasher source revision = .ok graph)
    : SnapshotOf source graph := by
  obtain ⟨steps⟩ := buildGraph_steps nodeStores edgeStores built
  have executable := (EdgeScan.foldlM_add steps.scanned).executable
  refine {
    nodes := by rw [steps.backend]
    kindEntries := fun kind => ?_
    edges := fun pair => ?_
    between := fun _ _ => ?_
    executable := fun id => ?_
  }
  · rw [nodeStores.grouped, MigrationGraph.kindEntries, steps.backend]
    exact Py.Dict.getD_groupBy _ _ _
  · rw [steps.backend, steps.permuted.mem_iff, edgeStores.mem_scanned steps.listed steps.scanned]
  · rw [MigrationGraph.edgesBetween, steps.backend]
    exact Py.Dict.getD_groupBy _ _ _
  · simp only [MigrationGraph.isExecutable, steps.backend, executable, EdgeScan.empty,
      List.nil_append, List.contains_iff_mem, List.mem_map, List.mem_filter,
      edgeStores.mem_snapshotEdges steps.listed]
    constructor
    · rintro ⟨entry, ⟨member, executes⟩, rfl⟩
      cases entry with
      | edgeKey pair => cases executes
      | versionEdge edge => exact ⟨edge, member, rfl⟩
    · rintro ⟨edge, member, rfl⟩
      exact ⟨.versionEdge edge, ⟨member, rfl⟩, rfl⟩

end Pyverge
