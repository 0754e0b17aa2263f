import Pyverge.Graph.Contents

/-! Namespaces of a snapshot, and what payload discovery finds in it.
The builder refuses entries of more than one namespace, but it takes the namespace of the graph
from the registry. A registry accepts entries of any namespace, so the two may differ.
-/

namespace Pyverge

variable {V F : Type} [DecidableEq V] [VersionValue V]

/-- `PayloadWalker._match`: the hydrated node that a mapping names by its kind and its version.
The key is built in the namespace of the graph; what cannot be parsed names nothing.
-/
def MigrationGraph.matchPayload (graph : MigrationGraph V) (kindProperty versionProperty : String)
    (value : Py.Json) : Option (VersionNode V) :=
  match value with
  | .obj members =>
      match Py.Json.getMember members kindProperty, Py.Json.getMember members versionProperty with
      | some (.str kind), some (.str text) => do
          let version ← VersionValue.parse text
          if named : ¬ graph.nameSpace = "" then
            let key : NodeId V := ⟨graph.nameSpace, kind, version, named⟩
            if graph.hasModel key then (graph.getModel key).toOption else none
          else none
      | _, _ => none
  | _ => none

/-- All of a graph lies in its own namespace, where discovery looks. -/
structure MigrationGraph.Namespaced (graph : MigrationGraph V) : Prop where
  nodes : ∀ node ∈ graph.backend.nodes, node.id.nameSpace = graph.nameSpace
  edges : ∀ edge ∈ graph.backend.edges, edge.id.nameSpace = graph.nameSpace
  discovered : ∀ node, NodeEntry.versionNode node ∈ graph.backend.nodes →
    ∀ kindProperty versionProperty members text,
      Py.Json.getMember members kindProperty = some (.str node.id.kind) →
      Py.Json.getMember members versionProperty = some (.str text) →
      VersionValue.parse text = some node.id.version →
      graph.matchPayload kindProperty versionProperty (.obj members) = some node

/-- Some stored entry or edge carries the namespace of the registry. -/
def Registry.UsesOwnNamespace (registry : Registry V) : Prop :=
  (∃ entry ∈ registry.byVersions, entry.id.nameSpace = registry.nameSpace)
    ∨ ∃ kind, ∃ edge ∈ registry.edges kind, edge.id.nameSpace = registry.nameSpace

/-- A snapshot finds a node by its identity exactly if the registry stores it. -/
theorem BuildSteps.findEntry_eq_some {hasher : ContentHasher} {source : Registry V}
    {graph : MigrationGraph V} (steps : BuildSteps hasher source graph)
    (stores : NodeStores source) {key : NodeId V} {entry : NodeEntry V}
    : graph.findEntry key = some entry ↔ entry ∈ source.byVersions ∧ entry.id = key := by
  rw [MigrationGraph.findEntry, steps.backend]
  exact Py.Dict.get?_indexBy (fun _ inLeft _ inRight same => stores.eq_of_id inLeft inRight same)

theorem BuildSteps.findModel_eq_some {hasher : ContentHasher} {source : Registry V}
    {graph : MigrationGraph V} (steps : BuildSteps hasher source graph)
    (stores : NodeStores source) {key : NodeId V} {node : VersionNode V}
    : graph.findModel key = some node
      ↔ NodeEntry.versionNode node ∈ source.byVersions ∧ node.id = key := by
  simp only [MigrationGraph.findModel, Option.bind_eq_some_iff, steps.findEntry_eq_some stores]
  constructor
  · rintro ⟨entry, ⟨member, same⟩, isNode⟩
    cases entry with
    | versionKey id => cases isNode
    | versionNode stored =>
        obtain rfl := Option.some.inj isNode
        exact ⟨member, same⟩
  · rintro ⟨member, same⟩
    exact ⟨.versionNode node, ⟨member, same⟩, rfl⟩

/-- Discovery finds a stored node of the graph's own namespace. -/
theorem BuildSteps.matchPayload_eq {hasher : ContentHasher} {source : Registry V}
    {graph : MigrationGraph V} (steps : BuildSteps hasher source graph)
    (stores : NodeStores source) {node : VersionNode V}
    (member : NodeEntry.versionNode node ∈ source.byVersions)
    (own : node.id.nameSpace = graph.nameSpace) {kindProperty versionProperty text : String}
    {members : List (String × Py.Json)}
    (kind : Py.Json.getMember members kindProperty = some (.str node.id.kind))
    (version : Py.Json.getMember members versionProperty = some (.str text))
    (parsed : VersionValue.parse text = some node.id.version)
    : graph.matchPayload kindProperty versionProperty (.obj members) = some node := by
  have named : ¬ graph.nameSpace = "" := own ▸ node.id.named
  have key : (⟨graph.nameSpace, node.id.kind, node.id.version, named⟩ : NodeId V) = node.id := by
    obtain ⟨⟨nameSpace, _, _, _⟩, _⟩ := node
    obtain rfl : nameSpace = graph.nameSpace := own
    rfl
  have found : graph.findModel node.id = some node :=
    (steps.findModel_eq_some stores).mpr ⟨member, rfl⟩
  simp only [MigrationGraph.matchPayload, kind, version, parsed, Option.bind_eq_bind,
    Option.bind_some, dif_pos named, key, MigrationGraph.hasModel, MigrationGraph.getModel, found,
    Option.isSome_some, if_true, Except.toOption]

/-- What discovery finds is a stored node of the graph's own namespace that the mapping names. -/
theorem BuildSteps.of_matchPayload {hasher : ContentHasher} {source : Registry V}
    {graph : MigrationGraph V} (steps : BuildSteps hasher source graph)
    (stores : NodeStores source) {kindProperty versionProperty : String} {value : Py.Json}
    {node : VersionNode V} (hit : graph.matchPayload kindProperty versionProperty value = some node)
    : NodeEntry.versionNode node ∈ source.byVersions ∧ node.id.nameSpace = graph.nameSpace
      ∧ ∃ members text, value = .obj members
        ∧ Py.Json.getMember members kindProperty = some (.str node.id.kind)
        ∧ Py.Json.getMember members versionProperty = some (.str text)
        ∧ VersionValue.parse text = some node.id.version := by
  unfold MigrationGraph.matchPayload at hit
  split at hit
  case h_1 members =>
    split at hit
    case h_1 kind text named told =>
      obtain ⟨version, parsed, hit⟩ := Option.bind_eq_some_iff.mp hit
      split at hit
      case isTrue owned =>
        simp only at hit
        split at hit
        · unfold MigrationGraph.getModel at hit
          split at hit
          case h_1 found stored =>
            obtain rfl := Option.some.inj hit
            obtain ⟨member, same⟩ := (steps.findModel_eq_some stores).mp stored
            have spaces : found.id.nameSpace = graph.nameSpace := congrArg NodeId.nameSpace same
            have kinds : found.id.kind = kind := congrArg NodeId.kind same
            have versions : found.id.version = version := congrArg NodeId.version same
            rw [kinds, versions]
            exact ⟨member, spaces, members, text, rfl, named, told, parsed⟩
          case h_2 => cases hit
        · cases hit
      case isFalse => cases hit
    case h_2 => cases hit
  case h_2 => cases hit

omit [DecidableEq V] [VersionValue V] in
theorem mem_namespaces {graph : MigrationGraph V} {name : String}
    : name ∈ graph.namespaces
      ↔ (∃ node ∈ graph.backend.nodes, node.id.nameSpace = name)
        ∨ ∃ edge ∈ graph.backend.edges, edge.id.nameSpace = name := by
  simp [MigrationGraph.namespaces]

/-- The registry uses its own namespace exactly if the snapshot lists it. -/
theorem SnapshotOf.usesOwnNamespace_iff {source : Registry V} {graph : MigrationGraph V}
    (snapshot : SnapshotOf source graph) (stores : EdgeStores source)
    : source.UsesOwnNamespace ↔ source.nameSpace ∈ graph.namespaces := by
  rw [Registry.UsesOwnNamespace, mem_namespaces, snapshot.nodes]
  simp only [snapshot.edges]
  constructor
  · rintro (entry | ⟨kind, edge, member, own⟩)
    · exact .inl entry
    · have filed := stores.filed kind edge member
      rw [← filed] at member
      exact .inr ⟨edge.pair, ⟨edge, member, rfl⟩, own⟩
  · rintro (entry | ⟨pair, ⟨edge, member, rfl⟩, own⟩)
    · exact .inl entry
    · exact .inr ⟨edge.pair.id.kind, edge, member, own⟩

/-- A nonempty snapshot lies in its own namespace exactly if the registry stores something of
that namespace: the builder has made sure that all of the graph agrees with it.
-/
theorem Reachable.namespaced_iff {config : Config V F} {source : Registry V}
    (reached : Reachable config source) {hasher : ContentHasher} {revision : Option Revision}
    {graph : MigrationGraph V} (built : buildGraph hasher source revision = .ok graph)
    (nonempty : graph.backend.nodes ≠ [] ∨ graph.backend.edges ≠ [])
    : graph.Namespaced ↔ source.UsesOwnNamespace := by
  have nodeStores := reached.nodeStores
  have edgeStores := reached.edgeStores
  have snapshot := snapshotOf_buildGraph nodeStores edgeStores built
  obtain ⟨steps⟩ := buildGraph_steps nodeStores edgeStores built
  have own : graph.nameSpace = source.nameSpace := by
    rw [MigrationGraph.nameSpace, steps.backend]
  rw [snapshot.usesOwnNamespace_iff edgeStores, mem_namespaces, ← own]
  constructor
  · intro namespaced
    rcases nonempty with nodes | edges
    · obtain ⟨node, member⟩ := List.exists_mem_of_ne_nil _ nodes
      exact .inl ⟨node, member, namespaced.nodes node member⟩
    · obtain ⟨edge, member⟩ := List.exists_mem_of_ne_nil _ edges
      exact .inr ⟨edge, member, namespaced.edges edge member⟩
  · intro used
    have listed := mem_namespaces.mpr used
    have nodes : ∀ node ∈ graph.backend.nodes, node.id.nameSpace = graph.nameSpace :=
      fun node member =>
        steps.oneNamespace _ (mem_namespaces.mpr (.inl ⟨node, member, rfl⟩)) _ listed
    refine ⟨nodes, ?_, ?_⟩
    · intro edge member
      exact steps.oneNamespace _ (mem_namespaces.mpr (.inr ⟨edge, member, rfl⟩)) _ listed
    · intro node member kindProperty versionProperty members text kind version parsed
      have stored := snapshot.nodes ▸ member
      exact steps.matchPayload_eq nodeStores stored (nodes _ member) kind version parsed

/-- A registry of another namespace that holds one release of `User`. -/
def userCatalogIn (nameSpace : String) : Registry Release :=
  Py.after ((Op.store (.versionNode (userNode 1 "UserV1"))).run plainConfig)
    (Registry.new nameSpace false)

/-- Witness: the release in its own namespace is discovered. -/
theorem namespaced_default
    : ∃ graph, buildGraph plainConfig.hasher (userCatalogIn "default") none = .ok graph
        ∧ graph.backend.nodes = [.versionNode (userNode 1 "UserV1")]
        ∧ graph.Namespaced := by
  have nodes : (buildGraph plainConfig.hasher (userCatalogIn "default") none).map
      (fun graph => graph.backend.nodes) = .ok [.versionNode (userNode 1 "UserV1")] := by
    decide +kernel
  cases built : buildGraph plainConfig.hasher (userCatalogIn "default") none with
  | error error => simp [built, Except.map] at nodes
  | ok graph =>
      have listed : graph.backend.nodes = [.versionNode (userNode 1 "UserV1")] := by
        simpa [built, Except.map] using nodes
      refine ⟨graph, rfl, listed, ?_⟩
      have reached : Reachable plainConfig (userCatalogIn "default") :=
        .step _ (.new plainConfig "default" false (by decide))
      refine (reached.namespaced_iff built (.inl (by simp [listed]))).mpr (.inl ?_)
      exact ⟨.versionNode (userNode 1 "UserV1"), by decide +kernel, rfl⟩

/-- Counterexample: a registry named `orders` whose only entry is in `default`. -/
theorem not_namespaced_orders
    : ¬ ∀ (config : Config Release Unit) (source : Registry Release)
        (graph : MigrationGraph Release),
        Reachable config source
        → buildGraph config.hasher source none = .ok graph
        → (graph.backend.nodes ≠ [] ∨ graph.backend.edges ≠ [])
        → graph.Namespaced := by
  intro claim
  have nodes : (buildGraph plainConfig.hasher (userCatalogIn "orders") none).map
      (fun graph => (graph.backend.nodes, graph.nameSpace))
      = .ok ([.versionNode (userNode 1 "UserV1")], "orders") := by
    decide +kernel
  cases built : buildGraph plainConfig.hasher (userCatalogIn "orders") none with
  | error error => simp [built, Except.map] at nodes
  | ok graph =>
      have listed : (graph.backend.nodes, graph.nameSpace)
          = ([.versionNode (userNode 1 "UserV1")], "orders") := by
        simpa [built, Except.map] using nodes
      obtain ⟨stored, name⟩ := Prod.mk.inj listed
      have namespaced := claim plainConfig (userCatalogIn "orders") graph
        (.step _ (.new plainConfig "orders" false (by decide))) built (.inl (by simp [stored]))
      have own := namespaced.nodes (.versionNode (userNode 1 "UserV1")) (by simp [stored])
      rw [name] at own
      exact absurd own (by decide)

end Pyverge
