import Pyverge.Graph.Contents
import Pyverge.Versioning.Versions

/-! What the content digest of a snapshot says about its registry.
The digest covers sorted lists only, so the order of calls and of sets leaves no trace in it.
References enter it by their text, which different references may share.
-/

namespace Pyverge

variable {V F : Type} [DecidableEq V] [VersionValue V] {hasher : ContentHasher}

-----------------------------------------------------------------------------------------
-- The payload of the digest
-----------------------------------------------------------------------------------------

def NodeEntry.digestText (entry : NodeEntry V) (hasher : ContentHasher) : String :=
  (entry.digest hasher).toOption.getD ""

/-- The hashed content of a registry, with its edges in the order of the snapshot. -/
def Registry.contentPayload (source : Registry V) (hasher : ContentHasher)
    (entries : List (EdgeEntry V)) : Py.Json :=
  .obj [
    ("namespace", .str source.nameSpace),
    ("nodes", .arr (source.byVersions.map (fun node => .arr [
      .str (node.digestText hasher), .str (node.digestText hasher)]))),
    ("edges", .arr (entries.map (fun edge => .arr [
      .str (edge.id.digest hasher), .str (edge.digestText hasher), .bool edge.isExecutable]))),
    ("hooks", .arr ((entries.filter (fun edge => !(source.getHooks edge.id).isEmpty)).map
      (fun edge => .arr [
        .str (edge.id.digest hasher),
        .arr ((source.sortedHooks hasher edge.id).map (fun hook => .str (hook.digest hasher)))])))]

/-- The stored edges in the order of the snapshot. -/
structure StoredEdges (source : Registry V) (edges : List (EdgePair V))
    (entries : List (EdgeEntry V)) : Prop where
  sorted : Py.SortedBy EdgeEntry.id EdgeId.cmp entries
  stored : ∀ entry, entry ∈ entries ↔ entry ∈ source.edges entry.kind
  pairs : edges = entries.map EdgeEntry.pair

theorem BuildSteps.exists_storedEdges {source : Registry V} {graph : MigrationGraph V}
    (steps : BuildSteps hasher source graph) (stores : EdgeStores source)
    : ∃ entries, StoredEdges source steps.edges entries := by
  have mem : ∀ pair, pair ∈ steps.edges
      ↔ ∃ entry ∈ source.edges pair.id.kind, entry.pair = pair := by
    intro pair
    rw [steps.permuted.mem_iff, stores.mem_scanned steps.listed steps.scanned]
  obtain ⟨entries, pairs, inStore⟩ := Py.exists_map_eq EdgeEntry.pair
    (fun entry => entry ∈ source.edges entry.kind)
    (fun pair member => by
      obtain ⟨entry, inStore, rfl⟩ := (mem pair).mp member
      exact ⟨entry, inStore, rfl⟩)
  refine ⟨entries, ?_, fun entry => ⟨inStore entry, fun stored => ?_⟩, pairs.symm⟩
  · have sorted := steps.sorted
    rw [← pairs] at sorted
    exact List.pairwise_map.mp sorted
  · have listed : entry.pair ∈ steps.edges := (mem entry.pair).mpr ⟨entry, stored, rfl⟩
    rw [← pairs] at listed
    obtain ⟨other, inList, same⟩ := List.mem_map.mp listed
    have equal : other = entry :=
      stores.eq_of_id (inStore other inList) stored (congrArg EdgePair.id same)
    exact equal ▸ inList

namespace BuildSteps

variable {source : Registry V} {graph : MigrationGraph V} (steps : BuildSteps hasher source graph)

/-- Every node was hashed under its identity. -/
theorem digests_eq
    : steps.digests = source.byVersions.map (fun node => (node.id, node.digestText hasher))
      ∧ ∀ node ∈ source.byVersions, node.digest hasher = .ok (node.digestText hasher) := by
  obtain ⟨listed, calls⟩ := Py.mapM_eq_map
    (fun node : NodeEntry V => (node.id, node.digestText hasher)) (fun node value run => by
      obtain ⟨digest, found, built⟩ := Py.ok_bind_iff.mp run
      obtain rfl := Except.ok.inj built
      simp [NodeEntry.digestText, found, Except.toOption]) steps.digested
  refine ⟨listed, fun node member => ?_⟩
  obtain ⟨digest, found, _⟩ := Py.ok_bind_iff.mp (calls node member)
  simp [NodeEntry.digestText, found, Except.toOption]

include steps in
theorem nodeDigests_getD (stores : NodeStores source) {node : NodeEntry V}
    (member : node ∈ source.byVersions)
    : graph.backend.nodeDigests.getD node.id "" = node.digestText hasher := by
  have found : (Py.Dict.ofItems steps.digests).get? node.id = some (node.digestText hasher) := by
    rw [steps.digests_eq.1, Py.Dict.get?_ofItems]
    · exact List.mem_map_of_mem member
    · intro left inLeft right inRight same
      obtain ⟨first, inFirst, rfl⟩ := List.mem_map.mp inLeft
      obtain ⟨second, inSecond, rfl⟩ := List.mem_map.mp inRight
      rw [stores.eq_of_id inFirst inSecond same]
  rw [steps.backend]
  simp [Py.Dict.getD, found]

section Edges

variable {entries : List (EdgeEntry V)} (edgeStores : EdgeStores source)
  (storedEdges : StoredEdges source steps.edges entries) {entry : EdgeEntry V}
  (member : entry ∈ entries)

include steps edgeStores storedEdges member

theorem mem_scannedEdges : entry ∈ steps.kinds.flatMap source.edges :=
  (edgeStores.mem_snapshotEdges steps.listed).mpr ((storedEdges.stored entry).mp member)

theorem edgeDigests_getD
    : graph.backend.edgeDigests.getD entry.id "" = entry.digestText hasher := by
  have scanned := steps.mem_scannedEdges edgeStores storedEdges member
  have found : steps.scan.edgeDigests.get? entry.id = some (entry.digestText hasher) := by
    rw [(EdgeScan.foldlM_add steps.scanned).digests]
    refine (Py.Dict.get?_ofItems ?_).mpr (List.mem_map_of_mem scanned)
    intro left inLeft right inRight same
    obtain ⟨first, inFirst, rfl⟩ := List.mem_map.mp inLeft
    obtain ⟨second, inSecond, rfl⟩ := List.mem_map.mp inRight
    rw [edgeStores.eq_of_id ((edgeStores.mem_snapshotEdges steps.listed).mp inFirst)
      ((edgeStores.mem_snapshotEdges steps.listed).mp inSecond) same]
  rw [steps.backend]
  simp [Py.Dict.getD, found]

theorem executableEdgeIds_contains
    : graph.backend.executableEdgeIds.contains entry.id = entry.isExecutable := by
  have scanned := steps.mem_scannedEdges edgeStores storedEdges member
  rw [steps.backend, Bool.eq_iff_iff]
  simp only [(EdgeScan.foldlM_add steps.scanned).executable, EdgeScan.empty, List.nil_append,
    List.contains_iff_mem, List.mem_map, List.mem_filter]
  constructor
  · rintro ⟨other, ⟨otherScanned, executes⟩, same⟩
    have equal : other = entry :=
      edgeStores.eq_of_id ((edgeStores.mem_snapshotEdges steps.listed).mp otherScanned)
        ((storedEdges.stored entry).mp member) same
    exact equal ▸ executes
  · intro executes
    exact ⟨entry, ⟨scanned, executes⟩, rfl⟩

end Edges

/-- The hook specifications follow the edges of the snapshot. -/
theorem specs_eq {entries : List (EdgeEntry V)} (edgeStores : EdgeStores source)
    (storedEdges : StoredEdges source steps.edges entries)
    : steps.specs = (entries.filter (fun edge => !(source.getHooks edge.id).isEmpty)).map
        (fun edge => (edge.id, source.sortedHooks hasher edge.id)) := by
  have items : ∀ item, item ∈ steps.scan.hookSpecs.items
      ↔ ∃ edge ∈ entries, (source.getHooks edge.id).isEmpty = false
        ∧ (edge.id, source.sortedHooks hasher edge.id) = item := by
    intro item
    rw [← Py.Dict.get?_eq_some, (EdgeScan.foldlM_add steps.scanned).hooks]
    refine (Py.Dict.get?_ofItems ?_).trans ?_
    · intro left inLeft right inRight same
      obtain ⟨first, inFirst, rfl⟩ := List.mem_map.mp inLeft
      obtain ⟨second, inSecond, rfl⟩ := List.mem_map.mp inRight
      have equal : first.id = second.id := same
      rw [equal]
    · simp only [Prod.mk.eta, List.mem_map, List.mem_filter, Bool.not_eq_true', and_assoc,
        edgeStores.mem_snapshotEdges steps.listed, storedEdges.stored]
  have sorted : Py.SortedBy Prod.fst EdgeId.cmp steps.specs := by
    refine Py.sortedBy_of_sorted (fun _ _ _ asked => EdgeId.lt_agrees asked)
      (List.Nodup.of_map _ steps.scan.hookSpecs.nodup) ?_ steps.specsSorted
    intro left inLeft right inRight equal
    obtain ⟨first, inFirst, _, rfl⟩ := (items left).mp inLeft
    obtain ⟨second, inSecond, _, rfl⟩ := (items right).mp inRight
    rw [storedEdges.sorted.eq_of_cmp_eq inFirst inSecond equal]
  refine sorted.eq_of_mem (List.pairwise_map.mpr (storedEdges.sorted.filter _)) (fun item => ?_)
  rw [(Py.perm_of_sorted steps.specsSorted).mem_iff, items]
  simp only [List.mem_map, List.mem_filter, Bool.not_eq_true', and_assoc]

/-- The content digest of a snapshot, from its registry. -/
theorem contentDigest_eq {entries : List (EdgeEntry V)} (nodeStores : NodeStores source)
    (edgeStores : EdgeStores source) (storedEdges : StoredEdges source steps.edges entries)
    : graph.revision.contentDigest = hasher.digest (source.contentPayload hasher entries) := by
  obtain ⟨_, _, derived⟩ := Py.ok_bind_iff.mp steps.derived
  obtain ⟨digest, hashed, derived⟩ := Py.ok_bind_iff.mp derived
  obtain ⟨nodes, listed, hashed⟩ := Py.ok_bind_iff.mp hashed
  have nodeList : nodes = source.byVersions.map (fun node => .arr [
      .str (node.digestText hasher), .str (node.digestText hasher)]) := by
    refine (Py.mapM_eq_map (fun node : NodeEntry V => Py.Json.arr [
      .str (node.digestText hasher), .str (graph.backend.nodeDigests.getD node.id "")]) ?_
      listed).1.trans ?_
    · intro node value run
      obtain ⟨found, hashedNode, built⟩ := Py.ok_bind_iff.mp run
      obtain rfl := Except.ok.inj built
      simp [NodeEntry.digestText, hashedNode, Except.toOption]
    · have nodes : graph.backend.nodes = source.byVersions := by rw [steps.backend]
      rw [nodes]
      refine List.map_congr_left (fun node member => ?_)
      rw [steps.nodeDigests_getD nodeStores member]
  have edgeList : graph.backend.edges.map (fun edge => Py.Json.arr [
        .str (edge.id.digest hasher),
        .str (graph.backend.edgeDigests.getD edge.id ""),
        .bool (graph.backend.executableEdgeIds.contains edge.id)])
      = entries.map (fun edge => .arr [
        .str (edge.id.digest hasher), .str (edge.digestText hasher), .bool edge.isExecutable]) := by
    have edges : graph.backend.edges = entries.map EdgeEntry.pair := by
      rw [← storedEdges.pairs, steps.backend]
    rw [edges, List.map_map]
    refine List.map_congr_left (fun edge member => ?_)
    have digest := steps.edgeDigests_getD edgeStores storedEdges member
    have executes := steps.executableEdgeIds_contains edgeStores storedEdges member
    simp only [EdgeEntry.id] at digest executes
    simp only [Function.comp_apply, digest, executes, EdgeEntry.id]
  have hookList : graph.backend.hookSpecs.items = steps.specs := by
    have nodup : (steps.specs.map Prod.fst).Nodup :=
      ((Py.perm_of_sorted steps.specsSorted).map Prod.fst).nodup_iff.mpr
        steps.scan.hookSpecs.nodup
    rw [steps.backend]
    exact Py.Dict.items_ofItems nodup
  rw [← Except.ok.inj derived, ← Except.ok.inj hashed, Registry.contentPayload]
  simp only [nodeList, edgeList, hookList, steps.specs_eq edgeStores storedEdges, List.map_map]
  rw [steps.backend]
  rfl

end BuildSteps

-----------------------------------------------------------------------------------------
-- Comparing contents
-----------------------------------------------------------------------------------------

/-- The same references, as sets of identities. -/
def SameReferences (left right : List (NodeId V)) : Prop :=
  ∀ reference, reference ∈ left ↔ reference ∈ right

/-- References that read the same, with the same repetitions. -/
def SameReferenceTexts (left right : List (NodeId V)) : Prop :=
  (left.map NodeId.str).Perm (right.map NodeId.str)

section Alike

-- How references are compared is the only point where the digest and the content differ.
variable (References : List (NodeId V) → List (NodeId V) → Prop)

/-- Two hydrated nodes with one identity, one model, the same fields and the same references. -/
def VersionNode.Alike (left right : VersionNode V) : Prop :=
  left.id = right.id ∧ left.modelId = right.modelId
    ∧ (∀ name, name ∈ left.fields ↔ name ∈ right.fields)
    ∧ References left.references right.references

/-- Two entries of one identity that are both key-only or hydrated alike. -/
def NodeEntry.Alike : NodeEntry V → NodeEntry V → Prop
  | .versionKey left, .versionKey right => left = right
  | .versionNode left, .versionNode right => left.Alike References right
  | _, _ => False

/-- Two edges of one identity that are both key-only or execute the same migration between
endpoints that are alike.
-/
def EdgeEntry.Alike : EdgeEntry V → EdgeEntry V → Prop
  | .edgeKey left, .edgeKey right => left.id = right.id
  | .versionEdge left, .versionEdge right =>
      left.id = right.id
        ∧ left.source.Alike References right.source ∧ left.target.Alike References right.target
        ∧ left.diff.fingerprintPayload.canonical = right.diff.fingerprintPayload.canonical
        ∧ left.migration = right.migration
  | _, _ => False

/-- The same entries, the same edges and, for every edge, the same multiset of hooks. -/
structure Registry.Agrees (left right : Registry V) : Prop where
  nodes : (∀ entry ∈ left.byVersions, ∃ other ∈ right.byVersions, entry.Alike References other)
    ∧ ∀ other ∈ right.byVersions, ∃ entry ∈ left.byVersions, entry.Alike References other
  edges : (∀ kind, ∀ entry ∈ left.edges kind, ∃ other ∈ right.edges kind,
      entry.Alike References other)
    ∧ ∀ kind, ∀ other ∈ right.edges kind, ∃ entry ∈ left.edges kind, entry.Alike References other
  hooks : ∀ kind, ∀ entry ∈ left.edges kind,
    ((left.getHooks entry.id).map HookRef.content).Perm
      ((right.getHooks entry.id).map HookRef.content)

variable {References}

omit [VersionValue V] in
theorem NodeEntry.Alike.id_eq {left right : NodeEntry V} (alike : left.Alike References right)
    : left.id = right.id := by
  cases left with
  | versionKey leftId =>
      cases right with
      | versionKey rightId => exact alike
      | versionNode node => exact alike.elim
  | versionNode leftNode =>
      cases right with
      | versionKey rightId => exact alike.elim
      | versionNode rightNode => exact alike.1

omit [VersionValue V] in
theorem EdgeEntry.Alike.id_eq {left right : EdgeEntry V} (alike : left.Alike References right)
    : left.id = right.id := by
  cases left with
  | edgeKey leftPair =>
      cases right with
      | edgeKey rightPair => exact alike
      | versionEdge edge => exact alike.elim
  | versionEdge leftEdge =>
      cases right with
      | edgeKey pair => exact alike.elim
      | versionEdge rightEdge => exact alike.1

end Alike

/-- Nodes of one identity have the same content exactly if they are alike in text. -/
theorem VersionNode.sameContent_iff {left right : VersionNode V} (same : left.id = right.id)
    : left.SameContent right ↔ left.Alike SameReferenceTexts right := by
  have fields : left.fields.Perm right.fields
      ↔ ∀ name, name ∈ left.fields ↔ name ∈ right.fields :=
    List.perm_ext_iff_of_nodup left.descriptor.fields.nodup right.descriptor.fields.nodup
  simp only [VersionNode.SameContent, VersionNode.Alike, same, true_and, fields]
  rfl

/-- Entries of one namespace have equal digests exactly if they are alike in text. -/
theorem NodeEntry.digest_eq_iff (faithful : hasher.Faithful) (texts : VersionTexts V)
    {left right : NodeEntry V} (names : left.id.nameSpace = right.id.nameSpace)
    {first second : String} (leftDigest : left.digest hasher = .ok first)
    (rightDigest : right.digest hasher = .ok second)
    : first = second ↔ left.Alike SameReferenceTexts right := by
  have apart : ∀ {id : NodeId V} {node : VersionNode V} {digest : String},
      node.digest hasher = .ok digest → id.digest hasher ≠ digest := by
    intro id node digest hashed same
    unfold VersionNode.digest VersionNode.contentPayload at hashed
    split at hashed
    · cases hashed
    · rw [← Except.ok.inj hashed, NodeId.digest, faithful] at same
      have lengths := Py.Json.length_eq_of_canonical_obj same
      simp at lengths
  cases left with
  | versionKey leftId =>
      obtain rfl := Except.ok.inj leftDigest
      cases right with
      | versionKey rightId =>
          obtain rfl := Except.ok.inj rightDigest
          rw [NodeId.digest_eq_iff faithful]
          refine ⟨fun same => same.eq texts, fun same => ?_⟩
          obtain rfl : leftId = rightId := same
          exact ⟨rfl, rfl, rfl⟩
      | versionNode node => exact iff_of_false (apart rightDigest) not_false
  | versionNode leftNode =>
      cases right with
      | versionKey rightId =>
          obtain rfl := Except.ok.inj rightDigest
          exact iff_of_false (fun same => apart leftDigest same.symm) not_false
      | versionNode rightNode =>
          rw [VersionNode.digest_eq_iff faithful leftDigest rightDigest]
          constructor
          · intro content
            exact (VersionNode.sameContent_iff (NodeId.eq_of_str texts names content.1)).mp content
          · intro alike
            exact (VersionNode.sameContent_iff alike.1).mpr alike

/-- Edges have equal identities, equal digests and equal flags exactly if they are alike in text. -/
theorem EdgeEntry.digest_eq_iff (faithful : hasher.Faithful) (texts : VersionTexts V)
    {left right : EdgeEntry V} {first second : String}
    (leftDigest : left.digest hasher = .ok first) (rightDigest : right.digest hasher = .ok second)
    : (left.id.digest hasher = right.id.digest hasher ∧ first = second
        ∧ left.isExecutable = right.isExecutable)
      ↔ left.Alike SameReferenceTexts right := by
  have identity : left.id.digest hasher = right.id.digest hasher ↔ left.id = right.id := by
    rw [EdgeId.digest_eq_iff faithful]
    refine ⟨fun same => same.eq texts, fun same => ?_⟩
    rw [same]
    exact ⟨⟨rfl, rfl, rfl⟩, ⟨rfl, rfl, rfl⟩, rfl⟩
  rw [identity]
  cases left with
  | edgeKey leftPair =>
      obtain rfl := Except.ok.inj leftDigest
      cases right with
      | edgeKey rightPair =>
          obtain rfl := Except.ok.inj rightDigest
          refine ⟨And.left, fun same => ⟨same, ?_, rfl⟩⟩
          exact congrArg (fun id : EdgeId V => id.digest hasher) same
      | versionEdge edge => exact ⟨fun parts => (by cases parts.2.2), False.elim⟩
  | versionEdge leftEdge =>
      cases right with
      | edgeKey pair => exact ⟨fun parts => (by cases parts.2.2), False.elim⟩
      | versionEdge rightEdge =>
          rw [VersionEdge.digest_eq_iff faithful leftDigest rightDigest]
          constructor
          · rintro ⟨same, ⟨_, source, target, _, diff, migration⟩, _⟩
            have sources : leftEdge.source.id = rightEdge.source.id := congrArg EdgeId.source same
            have targets : leftEdge.target.id = rightEdge.target.id := congrArg EdgeId.target same
            exact ⟨same, (VersionNode.sameContent_iff sources).mp source,
              (VersionNode.sameContent_iff targets).mp target, diff, migration⟩
          · rintro ⟨same, source, target, diff, migration⟩
            exact ⟨same, ⟨congrArg EdgeId.str same,
              (VersionNode.sameContent_iff source.1).mpr source,
              (VersionNode.sameContent_iff target.1).mpr target,
              congrArg EdgeId.discriminator same, diff, migration⟩, rfl⟩

-----------------------------------------------------------------------------------------
-- Equal payloads
-----------------------------------------------------------------------------------------

/-- A registry all of whose contents were hashed, with its edges in order. -/
structure HashedContent (hasher : ContentHasher) (registry : Registry V)
    (entries : List (EdgeEntry V)) : Prop where
  nodeStores : NodeStores registry
  sorted : Py.SortedBy EdgeEntry.id EdgeId.cmp entries
  stored : ∀ entry, entry ∈ entries ↔ entry ∈ registry.edges entry.kind
  filed : ∀ kind, ∀ entry ∈ registry.edges kind, entry.kind = kind
  nodeHashed : ∀ node ∈ registry.byVersions, node.digest hasher = .ok (node.digestText hasher)
  edgeHashed : ∀ entry ∈ entries, entry.digest hasher = .ok (entry.digestText hasher)

theorem BuildSteps.hashedContent {source : Registry V} {graph : MigrationGraph V}
    (steps : BuildSteps hasher source graph) (nodeStores : NodeStores source)
    (edgeStores : EdgeStores source) {entries : List (EdgeEntry V)}
    (storedEdges : StoredEdges source steps.edges entries)
    : HashedContent hasher source entries where
  nodeStores := nodeStores
  sorted := storedEdges.sorted
  stored := storedEdges.stored
  filed := edgeStores.filed
  nodeHashed := steps.digests_eq.2
  edgeHashed _ member := (EdgeScan.foldlM_add steps.scanned).hashed _
    (steps.mem_scannedEdges edgeStores storedEdges member)

namespace HashedContent

variable {left right : Registry V} {leftEntries rightEntries : List (EdgeEntry V)}
  (leftContent : HashedContent hasher left leftEntries)
  (rightContent : HashedContent hasher right rightEntries)

include leftContent in
/-- A property of all listed edges is one of all stored edges. -/
theorem forall_stored {P : EdgeEntry V → Prop}
    : (∀ entry ∈ leftEntries, P entry) ↔ ∀ kind, ∀ entry ∈ left.edges kind, P entry := by
  constructor
  · intro all kind entry member
    refine all entry ((leftContent.stored entry).mpr ?_)
    rwa [leftContent.filed kind entry member]
  · intro all entry member
    exact all entry.kind entry ((leftContent.stored entry).mp member)

include leftContent in
theorem exists_stored {P : EdgeEntry V → Prop} {kind : ModelKind}
    (kinds : ∀ entry, P entry → entry.kind = kind)
    : (∃ entry ∈ leftEntries, P entry) ↔ ∃ entry ∈ left.edges kind, P entry := by
  constructor
  · rintro ⟨entry, member, holds⟩
    exact ⟨entry, kinds entry holds ▸ (leftContent.stored entry).mp member, holds⟩
  · rintro ⟨entry, member, holds⟩
    refine ⟨entry, (leftContent.stored entry).mpr ?_, holds⟩
    rwa [kinds entry holds]

include leftContent rightContent

/-- The listed nodes have equal digests exactly if the registries have the same entries. -/
theorem nodes_iff (faithful : hasher.Faithful) (texts : VersionTexts V)
    (names : ∀ node ∈ left.byVersions, ∀ other ∈ right.byVersions,
      node.id.nameSpace = other.id.nameSpace)
    : left.byVersions.map (fun node => node.digestText hasher)
        = right.byVersions.map (fun node => node.digestText hasher)
      ↔ (∀ entry ∈ left.byVersions, ∃ other ∈ right.byVersions,
          entry.Alike SameReferenceTexts other)
        ∧ ∀ other ∈ right.byVersions, ∃ entry ∈ left.byVersions,
          entry.Alike SameReferenceTexts other := by
  rw [Py.map_eq_map_iff, Py.forall₂_congr_mem (fun node inLeft other inRight =>
    NodeEntry.digest_eq_iff faithful texts (names node inLeft other inRight)
      (leftContent.nodeHashed node inLeft) (rightContent.nodeHashed other inRight))]
  exact Py.SortedBy.forall₂_iff (fun _ _ alike => alike.id_eq) leftContent.nodeStores.sorted
    rightContent.nodeStores.sorted

/-- The listed edges have equal digests exactly if the registries have the same edges. -/
theorem edges_iff (faithful : hasher.Faithful) (texts : VersionTexts V)
    : leftEntries.map (fun edge =>
          (edge.id.digest hasher, edge.digestText hasher, edge.isExecutable))
        = rightEntries.map (fun edge =>
          (edge.id.digest hasher, edge.digestText hasher, edge.isExecutable))
      ↔ List.Forall₂ (EdgeEntry.Alike SameReferenceTexts) leftEntries rightEntries := by
  rw [Py.map_eq_map_iff]
  refine Py.forall₂_congr_mem (fun edge inLeft other inRight => ?_)
  rw [← EdgeEntry.digest_eq_iff faithful texts (leftContent.edgeHashed edge inLeft)
    (rightContent.edgeHashed other inRight)]
  simp only [Prod.mk.injEq]

theorem sameEdges_iff
    : List.Forall₂ (EdgeEntry.Alike SameReferenceTexts) leftEntries rightEntries
      ↔ (∀ kind, ∀ entry ∈ left.edges kind, ∃ other ∈ right.edges kind,
          entry.Alike SameReferenceTexts other)
        ∧ ∀ kind, ∀ other ∈ right.edges kind, ∃ entry ∈ left.edges kind,
          entry.Alike SameReferenceTexts other := by
  rw [Py.SortedBy.forall₂_iff (fun _ _ alike => alike.id_eq) leftContent.sorted
    rightContent.sorted, leftContent.forall_stored, rightContent.forall_stored]
  have kinds : ∀ {entry other : EdgeEntry V}, entry.Alike SameReferenceTexts other →
      entry.kind = other.kind := fun alike => congrArg EdgeId.kind alike.id_eq
  refine and_congr (forall_congr' fun kind => forall₂_congr fun entry member => ?_)
    (forall_congr' fun kind => forall₂_congr fun entry member => ?_)
  · refine rightContent.exists_stored (fun other alike => ?_)
    rw [← kinds alike, leftContent.filed kind entry member]
  · refine leftContent.exists_stored (fun other alike => ?_)
    rw [kinds alike, rightContent.filed kind entry member]

end HashedContent

omit [VersionValue V] in
/-- The sorted digests of hooks are equal exactly if the hooks have the same contents. -/
theorem sortedHooks_eq_iff (faithful : hasher.Faithful) (left right : Registry V) (key : EdgeId V)
    : (left.sortedHooks hasher key).map (fun hook => hook.digest hasher)
        = (right.sortedHooks hasher key).map (fun hook => hook.digest hasher)
      ↔ ((left.getHooks key).map HookRef.content).Perm
        ((right.getHooks key).map HookRef.content) := by
  have sorted : ∀ registry : Registry V,
      (registry.sortedHooks hasher key).map (fun hook => hook.digest hasher)
        = ((registry.getHooks key).map (fun hook => hook.digest hasher)).insertionSort (· ≤ ·) :=
    fun registry => List.map_insertionSort _ _ _ _ (fun _ _ _ _ => Iff.rfl)
  rw [sorted, sorted, Py.insertionSort_eq_iff]
  exact Py.perm_map_iff (fun _ _ => HookRef.digest_eq_iff faithful)

omit [VersionValue V] in
theorem sortedHooks_eq_nil (registry : Registry V) (key : EdgeId V)
    : (!(registry.getHooks key).isEmpty) = false
      ↔ (registry.sortedHooks hasher key).map (fun hook => hook.digest hasher) = [] := by
  rw [List.map_eq_nil_iff, ← List.length_eq_zero_iff, Registry.sortedHooks,
    List.length_insertionSort, List.length_eq_zero_iff, Bool.not_eq_false', List.isEmpty_iff]

/-- The hook lists over the same edges are equal exactly if every edge has the same hooks. -/
theorem hookLists_eq_iff (faithful : hasher.Faithful) (texts : VersionTexts V)
    (left right : Registry V) (ids : List (EdgeId V))
    : (Py.Json.arr ((ids.filter (fun id => !(left.getHooks id).isEmpty)).map (fun id => .arr [
          .str (id.digest hasher),
          .arr ((left.sortedHooks hasher id).map
            (fun hook => .str (hook.digest hasher)))]))).canonical
        = (Py.Json.arr ((ids.filter (fun id => !(right.getHooks id).isEmpty)).map (fun id => .arr [
          .str (id.digest hasher),
          .arr ((right.sortedHooks hasher id).map
            (fun hook => .str (hook.digest hasher)))]))).canonical
      ↔ ∀ id ∈ ids, ((left.getHooks id).map HookRef.content).Perm
        ((right.getHooks id).map HookRef.content) := by
  have hookPair : ∀ one other : String × List String,
      (Py.Json.arr [.str one.1, .arr (one.2.map .str)]).canonical
        = (Py.Json.arr [.str other.1, .arr (other.2.map .str)]).canonical →
      one = other := by
    rintro ⟨_, one⟩ ⟨_, other⟩ same
    simp only [Py.Json.canonical_arr_inj, List.map_cons, List.map_nil, List.cons.injEq,
      Py.Json.canonical_str_inj, and_true] at same
    rw [same.1, canonical_texts.mp (Py.Json.canonical_arr_inj.mpr same.2)]
  have digests : ∀ hooks : List HookRef,
      hooks.map (fun hook => Py.Json.str (hook.digest hasher))
        = (hooks.map (fun hook => hook.digest hasher)).map .str :=
    fun hooks => by rw [List.map_map]; rfl
  have tags : ∀ one ∈ ids, ∀ other ∈ ids, one.digest hasher = other.digest hasher →
      one = other :=
    fun one _ other _ same => ((EdgeId.digest_eq_iff faithful).mp same).eq texts
  simp only [digests]
  refine (Py.Json.canonical_arr_map_inj hookPair).trans
    ((Py.filter_map_eq_iff tags (sortedHooks_eq_nil left) (sortedHooks_eq_nil right)).trans ?_)
  exact forall₂_congr (fun id _ => sortedHooks_eq_iff faithful left right id)

/-- Registries of one namespace have equal payloads exactly if they agree in text. -/
theorem contentPayload_eq_iff (faithful : hasher.Faithful) (texts : VersionTexts V)
    {left right : Registry V} {leftEntries rightEntries : List (EdgeEntry V)}
    (leftContent : HashedContent hasher left leftEntries)
    (rightContent : HashedContent hasher right rightEntries)
    (nameSpaces : left.nameSpace = right.nameSpace)
    (names : ∀ node ∈ left.byVersions, ∀ other ∈ right.byVersions,
      node.id.nameSpace = other.id.nameSpace)
    : (left.contentPayload hasher leftEntries).canonical
        = (right.contentPayload hasher rightEntries).canonical
      ↔ left.Agrees SameReferenceTexts right := by
  have nodePair : ∀ one other : String, (Py.Json.arr [.str one, .str one]).canonical
      = (Py.Json.arr [.str other, .str other]).canonical → one = other := by
    intro one other same
    simpa using same
  have edgeTriple : ∀ one other : String × String × Bool,
      (Py.Json.arr [.str one.1, .str one.2.1, .bool one.2.2]).canonical
        = (Py.Json.arr [.str other.1, .str other.2.1, .bool other.2.2]).canonical →
      one = other := by
    rintro ⟨_, _, _⟩ ⟨_, _, _⟩ same
    simpa using same
  have nodes := (Py.Json.canonical_arr_map_inj nodePair).trans
    (leftContent.nodes_iff rightContent faithful texts names)
  have edges := (Py.Json.canonical_arr_map_inj edgeTriple).trans
    (leftContent.edges_iff rightContent faithful texts)
  -- The hook lists are selections from the identities of the edges.
  have selected : ∀ (registry : Registry V) (entries : List (EdgeEntry V)),
      (entries.filter (fun edge => !(registry.getHooks edge.id).isEmpty)).map
          (fun edge => Py.Json.arr [.str (edge.id.digest hasher),
            .arr ((registry.sortedHooks hasher edge.id).map
              (fun hook => .str (hook.digest hasher)))])
        = ((entries.map EdgeEntry.id).filter (fun id => !(registry.getHooks id).isEmpty)).map
          (fun id => .arr [.str (id.digest hasher),
            .arr ((registry.sortedHooks hasher id).map
              (fun hook => .str (hook.digest hasher)))]) := by
    intro registry entries
    rw [List.filter_map, List.map_map]
    rfl
  have ids : List.Forall₂ (EdgeEntry.Alike SameReferenceTexts) leftEntries rightEntries →
      leftEntries.map EdgeEntry.id = rightEntries.map EdgeEntry.id :=
    fun alike => Py.map_eq_map_iff.mpr (alike.imp (fun _ _ same => same.id_eq))
  refine Iff.trans (Py.Json.canonical_obj_inj rfl (by simp)) ?_
  simp only [List.map_cons, List.map_nil, List.cons.injEq, and_true, nameSpaces, true_and,
    selected]
  rw [nodes, edges]
  constructor
  · rintro ⟨sameNodes, sameEdges, sameHooks⟩
    rw [← ids sameEdges, hookLists_eq_iff faithful texts, List.forall_mem_map] at sameHooks
    exact ⟨sameNodes, (leftContent.sameEdges_iff rightContent).mp sameEdges,
      leftContent.forall_stored.mp sameHooks⟩
  · intro agrees
    have sameEdges := (leftContent.sameEdges_iff rightContent).mpr agrees.edges
    refine ⟨agrees.nodes, sameEdges, ?_⟩
    rw [← ids sameEdges, hookLists_eq_iff faithful texts, List.forall_mem_map]
    exact leftContent.forall_stored.mpr agrees.hooks

-----------------------------------------------------------------------------------------
-- Equal digests
-----------------------------------------------------------------------------------------

/-- The version texts of each kind, from the identities of the nodes. -/
def versionVector (ids : List (NodeId V)) : Py.Dict ModelKind (List String) :=
  .ofItems ((Py.Dict.groupBy NodeId.kind ids).items.map (fun item =>
    (item.1, item.2.map (fun id => VersionValue.str id.version))))

/-- Strategy and versions of a revision depend on the identities of the nodes only. -/
theorem BuildSteps.revision_eq {source : Registry V} {graph : MigrationGraph V}
    (steps : BuildSteps hasher source graph)
    : versionStrategy ((source.byVersions.map NodeEntry.id).map NodeId.version)
        = .ok graph.revision.versionStrategy
      ∧ graph.revision.versions = versionVector (source.byVersions.map NodeEntry.id) := by
  obtain ⟨strategy, named, derived⟩ := Py.ok_bind_iff.mp steps.derived
  obtain ⟨digest, _, derived⟩ := Py.ok_bind_iff.mp derived
  have grouped : graph.backend.nodesByKind.items.map (fun item =>
        (item.1, item.2.map (fun node => VersionValue.str node.id.version)))
      = (Py.Dict.groupBy NodeId.kind (source.byVersions.map NodeEntry.id)).items.map (fun item =>
        (item.1, item.2.map (fun id => VersionValue.str id.version))) := by
    rw [Py.Dict.groupBy_map, steps.backend]
    simp only [Py.Dict.mapValues, List.map_map, Function.comp_def]
    rfl
  rw [← Except.ok.inj derived]
  constructor
  · rw [steps.backend] at named
    rw [List.map_map]
    exact named
  · rw [versionVector, ← grouped]

/-- Two builds over one hasher, of registries of one namespace that is also that of their
entries.
-/
structure Comparing (hasher : ContentHasher) (left right : Registry V)
    (leftGraph rightGraph : MigrationGraph V) where
  leftSteps : BuildSteps hasher left leftGraph
  rightSteps : BuildSteps hasher right rightGraph
  leftNodes : NodeStores left
  rightNodes : NodeStores right
  leftEdges : EdgeStores left
  rightEdges : EdgeStores right
  nameSpaces : left.nameSpace = right.nameSpace
  leftOwn : ∀ entry ∈ left.byVersions, entry.id.nameSpace = left.nameSpace
  rightOwn : ∀ entry ∈ right.byVersions, entry.id.nameSpace = right.nameSpace

namespace Comparing

variable {left right : Registry V} {leftGraph rightGraph : MigrationGraph V}
  (comparing : Comparing hasher left right leftGraph rightGraph)

include comparing in
/-- Snapshots have one content digest exactly if their registries agree in text. -/
theorem contentDigest_iff (faithful : hasher.Faithful) (texts : VersionTexts V)
    : leftGraph.revision.contentDigest = rightGraph.revision.contentDigest
      ↔ left.Agrees SameReferenceTexts right := by
  obtain ⟨leftEntries, leftStored⟩ := comparing.leftSteps.exists_storedEdges comparing.leftEdges
  obtain ⟨rightEntries, rightStored⟩ :=
    comparing.rightSteps.exists_storedEdges comparing.rightEdges
  rw [comparing.leftSteps.contentDigest_eq comparing.leftNodes comparing.leftEdges leftStored,
    comparing.rightSteps.contentDigest_eq comparing.rightNodes comparing.rightEdges rightStored,
    faithful]
  refine contentPayload_eq_iff faithful texts
    (comparing.leftSteps.hashedContent comparing.leftNodes comparing.leftEdges leftStored)
    (comparing.rightSteps.hashedContent comparing.rightNodes comparing.rightEdges rightStored)
    comparing.nameSpaces (fun node inLeft other inRight => ?_)
  rw [comparing.leftOwn node inLeft, comparing.rightOwn other inRight, comparing.nameSpaces]

include comparing in
/-- Registries that agree in text have snapshots of one revision and one manifest. -/
theorem revision_eq (agrees : left.Agrees SameReferenceTexts right)
    (digests : leftGraph.revision.contentDigest = rightGraph.revision.contentDigest)
    : leftGraph.manifestDigest = rightGraph.manifestDigest
      ∧ leftGraph.revision = rightGraph.revision := by
  have ids : left.byVersions.map NodeEntry.id = right.byVersions.map NodeEntry.id := by
    have alike := (Py.SortedBy.forall₂_iff (fun _ _ alike => alike.id_eq)
      comparing.leftNodes.sorted comparing.rightNodes.sorted).mpr agrees.nodes
    exact Py.map_eq_map_iff.mpr (alike.imp (fun _ _ same => same.id_eq))
  obtain ⟨leftStrategy, leftVersions⟩ := comparing.leftSteps.revision_eq
  obtain ⟨rightStrategy, rightVersions⟩ := comparing.rightSteps.revision_eq
  have strategies : leftGraph.revision.versionStrategy = rightGraph.revision.versionStrategy := by
    rw [ids] at leftStrategy
    exact Except.ok.inj (leftStrategy.symm.trans rightStrategy)
  have versions : leftGraph.revision.versions = rightGraph.revision.versions := by
    rw [leftVersions, rightVersions, ids]
  have revisions : leftGraph.revision = rightGraph.revision := by
    cases one : leftGraph.revision
    cases other : rightGraph.revision
    simp_all
  refine ⟨?_, revisions⟩
  have names : leftGraph.backend.nameSpace = rightGraph.backend.nameSpace := by
    rw [comparing.leftSteps.backend, comparing.rightSteps.backend]
    exact comparing.nameSpaces
  rw [comparing.leftSteps.manifest, comparing.rightSteps.manifest, revisions,
    IndexedBackend.manifestDigest, IndexedBackend.manifestDigest, names]

end Comparing

/-- Equal references read the same. -/
theorem Registry.Agrees.texts {left right : Registry V} (agrees : left.Agrees SameReferences right)
    : left.Agrees SameReferenceTexts right := by
  have node : ∀ {one other : VersionNode V}, one.Alike SameReferences other →
      one.Alike SameReferenceTexts other := by
    rintro one other ⟨ids, models, fields, references⟩
    refine ⟨ids, models, fields, List.Perm.map _ ?_⟩
    exact (List.perm_ext_iff_of_nodup (List.nodup_dedup _) (List.nodup_dedup _)).mpr references
  have nodes : ∀ {one other : NodeEntry V}, one.Alike SameReferences other →
      one.Alike SameReferenceTexts other := by
    intro one other alike
    cases one <;> cases other
    · exact alike
    · exact alike.elim
    · exact alike.elim
    · exact node alike
  have edges : ∀ {one other : EdgeEntry V}, one.Alike SameReferences other →
      one.Alike SameReferenceTexts other := by
    intro one other alike
    cases one <;> cases other
    · exact alike
    · exact alike.elim
    · exact alike.elim
    · exact ⟨alike.1, node alike.2.1, node alike.2.2.1, alike.2.2.2⟩
  refine ⟨⟨fun entry member => ?_, fun other member => ?_⟩,
    ⟨fun kind entry member => ?_, fun kind other member => ?_⟩, agrees.hooks⟩
  · obtain ⟨other, inside, alike⟩ := agrees.nodes.1 entry member
    exact ⟨other, inside, nodes alike⟩
  · obtain ⟨entry, inside, alike⟩ := agrees.nodes.2 other member
    exact ⟨entry, inside, nodes alike⟩
  · obtain ⟨other, inside, alike⟩ := agrees.edges.1 kind entry member
    exact ⟨other, inside, edges alike⟩
  · obtain ⟨entry, inside, alike⟩ := agrees.edges.2 kind other member
    exact ⟨entry, inside, edges alike⟩

/-- The digests of two snapshots say whether their registries agree, and then agree themselves. -/
structure DigestsTellContent (left right : Registry V) (leftGraph rightGraph : MigrationGraph V)
    : Prop where
  content : leftGraph.revision.contentDigest = rightGraph.revision.contentDigest
    ↔ left.Agrees SameReferences right
  manifest : leftGraph.revision.contentDigest = rightGraph.revision.contentDigest →
    leftGraph.manifestDigest = rightGraph.manifestDigest
  revision : leftGraph.revision.contentDigest = rightGraph.revision.contentDigest →
    leftGraph.revision = rightGraph.revision

/-- Digests tell contents apart, in whatever order the calls were made and the kinds are read,
exactly unless the registries differ in nothing but references that read the same.
-/
theorem Reachable.digestsTellContent_iff (faithful : hasher.Faithful) (texts : VersionTexts V)
    {leftConfig rightConfig : Config V F} {left right : Registry V}
    (leftReached : Reachable leftConfig left) (rightReached : Reachable rightConfig right)
    (nameSpaces : left.nameSpace = right.nameSpace)
    (leftOwn : ∀ entry ∈ left.byVersions, entry.id.nameSpace = left.nameSpace)
    (rightOwn : ∀ entry ∈ right.byVersions, entry.id.nameSpace = right.nameSpace)
    {leftKinds rightKinds : List ModelKind} (leftOrder : leftKinds.Perm left.snapshotKinds)
    (rightOrder : rightKinds.Perm right.snapshotKinds)
    {leftRequest rightRequest : Option Revision} {leftGraph rightGraph : MigrationGraph V}
    (leftBuilt : buildGraphOver hasher left leftKinds leftRequest = .ok leftGraph)
    (rightBuilt : buildGraphOver hasher right rightKinds rightRequest = .ok rightGraph)
    : DigestsTellContent left right leftGraph rightGraph
      ↔ (left.Agrees SameReferenceTexts right → left.Agrees SameReferences right) := by
  obtain ⟨leftSteps⟩ := buildGraphOver_steps leftReached.nodeStores leftReached.edgeStores
    leftOrder leftBuilt
  obtain ⟨rightSteps⟩ := buildGraphOver_steps rightReached.nodeStores rightReached.edgeStores
    rightOrder rightBuilt
  have comparing : Comparing hasher left right leftGraph rightGraph := {
    leftSteps, rightSteps, nameSpaces, leftOwn, rightOwn
    leftNodes := leftReached.nodeStores
    rightNodes := rightReached.nodeStores
    leftEdges := leftReached.edgeStores
    rightEdges := rightReached.edgeStores
  }
  have digests := comparing.contentDigest_iff faithful texts
  constructor
  · intro tell agrees
    exact tell.content.mp (digests.mpr agrees)
  · intro condition
    refine ⟨⟨fun same => condition (digests.mp same), fun agrees => digests.mpr agrees.texts⟩, ?_,
      ?_⟩
    · intro same
      exact (comparing.revision_eq (digests.mp same) same).1
    · intro same
      exact (comparing.revision_eq (digests.mp same) same).2

/-- Collaborators over semantic versions and dates with a faithful hasher. -/
def versionConfig : Config Version Unit where
  hasher := canonicalHasher
  reflection := none
  linters := defaultHealthLinters
  onMissing := .raise

/-- A hydrated release of `User` with one field that refers to another identity. -/
def referringUser (major : Nat) (reference : NodeId Version) : NodeEntry Version :=
  .versionNode {
    id := semverUser major
    descriptor := ⟨⟨"app", "User"⟩, (∅ : Py.Dict _ _).set "owner"
      { name := "owner", typeRef := .obj [("kind", .str "any")], references := [reference] }⟩
  }

/-- A registry that has stored the entries in this order. -/
def storedEntries (entries : List (NodeEntry Version)) : Registry Version :=
  Registry.runAll versionConfig (entries.map .store) (Registry.new "default" false)

theorem reachable_storedEntries (entries : List (NodeEntry Version))
    : Reachable versionConfig (storedEntries entries) := by
  have reached : ReachableBy (fun _ _ _ => True) (fun _ _ => True) versionConfig
      (storedEntries entries) :=
    .runAll (.new _ _ _ (by decide)) (fun _ _ _ => trivial)
  exact reached.reachable

omit [DecidableEq V] [VersionValue V] in
theorem exists_of_isOk {ε α : Type} {result : Except ε α} (ok : result.isOk = true)
    : ∃ value, result = .ok value := by
  cases result with
  | ok value => exact ⟨value, rfl⟩
  | error error => cases ok

omit [VersionValue V] in
theorem VersionNode.alike_self (node : VersionNode V) : node.Alike SameReferences node :=
  ⟨rfl, rfl, fun _ => Iff.rfl, fun _ => Iff.rfl⟩

omit [VersionValue V] in
/-- Registries without edges that list the same entries agree. -/
theorem Registry.Agrees.of_entries {left right : Registry V}
    (entries : left.byVersions = right.byVersions) (leftNone : left.migrations = ∅)
    (rightNone : right.migrations = ∅)
    : left.Agrees SameReferences right := by
  have self : ∀ entry : NodeEntry V, entry.Alike SameReferences entry := by
    intro entry
    cases entry with
    | versionKey id => exact rfl
    | versionNode node => exact node.alike_self
  have none : ∀ {registry : Registry V}, registry.migrations = ∅ → ∀ kind entry,
      entry ∉ registry.edges kind := by
    intro registry empty kind entry member
    rw [Registry.edges, empty] at member
    exact List.not_mem_nil member
  refine ⟨⟨fun entry member => ⟨entry, entries ▸ member, self entry⟩,
    fun other member => ⟨other, entries ▸ member, self other⟩⟩,
    ⟨fun kind entry member => (none leftNone kind entry member).elim,
      fun kind other member => (none rightNone kind other member).elim⟩,
    fun kind entry member => (none leftNone kind entry member).elim⟩

/-- Witness: two releases stored in either order lead to one revision. -/
theorem digestsTellContent_orders
    : ∃ leftGraph rightGraph,
        buildGraph canonicalHasher
          (storedEntries [referringUser 1 (semverUser 2), referringUser 2 (semverUser 1)]) none
          = .ok leftGraph
        ∧ buildGraph canonicalHasher
          (storedEntries [referringUser 2 (semverUser 1), referringUser 1 (semverUser 2)]) none
          = .ok rightGraph
        ∧ leftGraph.revision = rightGraph.revision := by
  obtain ⟨leftGraph, leftBuilt⟩ := exists_of_isOk (show (buildGraph canonicalHasher
    (storedEntries [referringUser 1 (semverUser 2), referringUser 2 (semverUser 1)])
    none).isOk = true from by decide +kernel)
  obtain ⟨rightGraph, rightBuilt⟩ := exists_of_isOk (show (buildGraph canonicalHasher
    (storedEntries [referringUser 2 (semverUser 1), referringUser 1 (semverUser 2)])
    none).isOk = true from by decide +kernel)
  have agrees : (storedEntries [referringUser 1 (semverUser 2),
      referringUser 2 (semverUser 1)]).Agrees SameReferences
      (storedEntries [referringUser 2 (semverUser 1), referringUser 1 (semverUser 2)]) :=
    .of_entries (by decide +kernel) (by decide +kernel) (by decide +kernel)
  have tell := (Reachable.digestsTellContent_iff canonicalHasher_faithful versionTexts
    (reachable_storedEntries _) (reachable_storedEntries _) (by decide +kernel) (by decide +kernel)
    (by decide +kernel) .rfl .rfl leftBuilt rightBuilt).mpr (fun _ => agrees)
  exact ⟨leftGraph, rightGraph, leftBuilt, rightBuilt, tell.revision (tell.content.mpr agrees)⟩

/-- The identities `a:b` / `c` and `a` / `b:c` of one version, which read the same. -/
def ambiguousReference (split : Bool) : NodeId Version where
  nameSpace := if split then "a:b" else "a"
  kind := if split then "c" else "b:c"
  version := (semverUser 1).version
  named := by cases split <;> decide

/-- Counterexample: the same node with either of two references that read the same has one
content digest.
-/
theorem not_digestsTellContent_ambiguous
    : ∃ leftGraph rightGraph,
        buildGraph canonicalHasher (storedEntries [referringUser 1 (ambiguousReference true)]) none
          = .ok leftGraph
        ∧ buildGraph canonicalHasher
          (storedEntries [referringUser 1 (ambiguousReference false)]) none = .ok rightGraph
        ∧ ¬ DigestsTellContent (storedEntries [referringUser 1 (ambiguousReference true)])
          (storedEntries [referringUser 1 (ambiguousReference false)]) leftGraph rightGraph := by
  obtain ⟨leftGraph, leftBuilt⟩ := exists_of_isOk (show (buildGraph canonicalHasher
    (storedEntries [referringUser 1 (ambiguousReference true)]) none).isOk = true from by
      decide +kernel)
  obtain ⟨rightGraph, rightBuilt⟩ := exists_of_isOk (show (buildGraph canonicalHasher
    (storedEntries [referringUser 1 (ambiguousReference false)]) none).isOk = true from by
      decide +kernel)
  refine ⟨leftGraph, rightGraph, leftBuilt, rightBuilt, fun tell => ?_⟩
  have leftReached := reachable_storedEntries [referringUser 1 (ambiguousReference true)]
  have rightReached := reachable_storedEntries [referringUser 1 (ambiguousReference false)]
  obtain ⟨leftSteps⟩ := buildGraph_steps leftReached.nodeStores leftReached.edgeStores leftBuilt
  obtain ⟨rightSteps⟩ := buildGraph_steps rightReached.nodeStores rightReached.edgeStores rightBuilt
  have comparing : Comparing canonicalHasher _ _ leftGraph rightGraph := {
    leftSteps, rightSteps
    nameSpaces := by decide +kernel
    leftOwn := by decide +kernel
    rightOwn := by decide +kernel
    leftNodes := leftReached.nodeStores
    rightNodes := rightReached.nodeStores
    leftEdges := leftReached.edgeStores
    rightEdges := rightReached.edgeStores
  }
  have entries : ∀ split, (storedEntries [referringUser 1 (ambiguousReference split)]).byVersions
      = [referringUser 1 (ambiguousReference split)] := by
    decide +kernel
  have none : ∀ split kind entry,
      entry ∉ (storedEntries [referringUser 1 (ambiguousReference split)]).edges kind := by
    intro split kind entry member
    have empty : (storedEntries [referringUser 1 (ambiguousReference split)]).migrations = ∅ := by
      cases split <;> decide +kernel
    rw [Registry.edges, empty] at member
    exact List.not_mem_nil member
  have alike : (referringUser 1 (ambiguousReference true)).Alike SameReferenceTexts
      (referringUser 1 (ambiguousReference false)) :=
    ⟨rfl, rfl, fun _ => Iff.rfl, by unfold SameReferenceTexts; decide +kernel⟩
  have reads : (storedEntries [referringUser 1 (ambiguousReference true)]).Agrees
      SameReferenceTexts (storedEntries [referringUser 1 (ambiguousReference false)]) := by
    refine ⟨⟨?_, ?_⟩, ⟨fun kind entry member => (none _ kind entry member).elim,
      fun kind entry member => (none _ kind entry member).elim⟩,
      fun kind entry member => (none _ kind entry member).elim⟩
    · rw [entries, entries]
      simpa using alike
    · rw [entries, entries]
      simpa using alike
  have agrees := tell.content.mp
    ((comparing.contentDigest_iff canonicalHasher_faithful versionTexts).mpr reads)
  have nodes := agrees.nodes.1
  rw [entries, entries] at nodes
  obtain ⟨other, member, same⟩ := nodes _ (List.mem_singleton_self _)
  obtain rfl := List.mem_singleton.mp member
  have listed := (same.2.2.2 (ambiguousReference true)).mp (by decide +kernel)
  have absent : ambiguousReference true ∉ [ambiguousReference false] := by decide +kernel
  exact absent listed

end Pyverge
