import Pyverge.Graph.Native
import Pyverge.Graph.Paths
import Pyverge.Py.TopologicalSort

/-! Topological sorting of the indexed backend.
In-degrees are kept for the nodes of the graph, while its edges may have ends that are not nodes.
-/

namespace Pyverge

variable {V F : Type} [DecidableEq V] [VersionValue V]

def graphCycleError : Error V := .raised "GraphCycleError: Graph contains a cycle"

namespace IndexedBackend

/-- The edges of a node in the order in which they are taken along. -/
def sortedOutgoing (backend : IndexedBackend V) (node : NodeId V)
    : Except (Error V) (List (EdgePair V)) :=
  Py.sorted (fun left right => left.id.lt right.id) (backend.outgoing node)

/-- The identities of the nodes, each with no edge counted yet. -/
def zeroed (backend : IndexedBackend V) : Py.Dict (NodeId V) Int :=
  .ofItems (backend.nodes.map (fun entry => (entry.id, 0)))

/-- Every turn of the loop puts out another node. -/
def topologicalSort (backend : IndexedBackend V) : Except (Error V) (List (NodeId V)) := do
  let indegree ← Py.tally (.raised "KeyError") (fun edge => edge.id.target) backend.edges
    backend.zeroed
  let ids ← Py.sorted NodeId.lt indegree.keys
  let ordered ← Py.drain backend.sortedOutgoing (fun edge => edge.id.target) (.raised "KeyError")
    (.raised "out of fuel") backend.nodes.length indegree
    (ids.filter (fun node => indegree.get? node = some 0)) []
  if ordered.length = indegree.keys.length then return ordered
  throw graphCycleError

/-- Some edges between nodes of the graph make a directed cycle. -/
abbrev Cyclic (backend : IndexedBackend V) : Prop :=
  Py.Cyclic (backend.nodes.map NodeEntry.id) backend.edges (fun edge => edge.id.source)
    (fun edge => edge.id.target)

/-- The sort returns every node once, with sources before targets, or raises that there is a cycle;
the latter exactly if there is one.
-/
def SortsTopologically (backend : IndexedBackend V) : Prop :=
  ((∃ ordered, backend.topologicalSort = .ok ordered
        ∧ ordered.Perm (backend.nodes.map NodeEntry.id)
        ∧ ∀ edge ∈ backend.edges, backend.Holds edge.id.source → backend.Holds edge.id.target →
            ordered.idxOf edge.id.source < ordered.idxOf edge.id.target)
      ∨ backend.topologicalSort = .error graphCycleError)
    ∧ (backend.topologicalSort = .error graphCycleError ↔ backend.Cyclic)

variable {backend : IndexedBackend V}

omit [DecidableEq V] [VersionValue V] in
theorem holds_iff {id : NodeId V} : backend.Holds id ↔ id ∈ backend.nodes.map NodeEntry.id :=
  List.mem_map.symm

section Start

variable (distinct : (backend.nodes.map NodeEntry.id).Nodup)
include distinct

omit [VersionValue V] in
theorem keys_zeroed : backend.zeroed.keys = backend.nodes.map NodeEntry.id := by
  rw [zeroed, Py.Dict.keys, Py.Dict.items_ofItems] <;> simp [Function.comp_def, distinct]

omit [VersionValue V] in
theorem get?_zeroed {id : NodeId V} (holds : backend.Holds id)
    : backend.zeroed.get? id = some 0 := by
  obtain ⟨entry, member, rfl⟩ := holds
  rw [Py.Dict.get?_eq_some, zeroed, Py.Dict.items_ofItems (by simpa [Function.comp_def])]
  exact List.mem_map.mpr ⟨entry, member, rfl⟩

/-- An edge that enters no node is looked up in vain. -/
theorem topologicalSort_of_unknown {edge : EdgePair V} (member : edge ∈ backend.edges)
    (unknown : ¬ backend.Holds edge.id.target)
    : backend.topologicalSort = .error (.raised "KeyError") := by
  have counting := @Py.tally_spec (Error V) _ _ _ (fun edge : EdgePair V => edge.id.target)
    (.raised "KeyError") backend.edges backend.zeroed
  rcases counting with ⟨failed, _⟩ | ⟨_, _, inside, _⟩
  · rw [topologicalSort, failed]
    rfl
  · have known := inside edge member
    rw [keys_zeroed distinct, ← holds_iff] at known
    exact absurd known unknown

/-- Where all edges enter nodes, the loops come to an end. -/
theorem Built.kahn (built : backend.Built) (unique : (backend.edges.map EdgePair.id).Nodup)
    (known : ∀ edge ∈ backend.edges, backend.Holds edge.id.target)
    : ∃ ordered indegree, backend.topologicalSort
          = (if ordered.length = backend.nodes.length then .ok ordered
              else .error graphCycleError)
        ∧ Py.Kahn (backend.nodes.map NodeEntry.id) backend.edges (fun edge => edge.id.source)
            (fun edge => edge.id.target) ordered [] [] indegree := by
  have counting := @Py.tally_spec (Error V) _ _ _ (fun edge : EdgePair V => edge.id.target)
    (.raised "KeyError") backend.edges backend.zeroed
  rw [keys_zeroed distinct] at counting
  rcases counting with ⟨_, edge, member, unknown⟩ | ⟨counted, counts, _, keys, count⟩
  · exact absurd (holds_iff.mp (known edge member)) unknown
  · obtain ⟨ids, idsSorted⟩ : ∃ ids, Py.sorted NodeId.lt counted.keys = .ok ids := by
      refine Py.exists_sorted (fun left inLeft right inRight => ⟨_, if_pos ?_⟩)
      rw [keys, ← holds_iff] at inLeft inRight
      exact built.strategy_eq inLeft inRight
    have idsPerm : ids.Perm (backend.nodes.map NodeEntry.id) :=
      keys ▸ Py.perm_of_sorted idsSorted
    have start : Py.Kahn (backend.nodes.map NodeEntry.id) backend.edges
        (fun edge => edge.id.source) (fun edge => edge.id.target) []
        (ids.filter (fun node => counted.get? node = some 0)) [] counted := by
      refine Py.Kahn.start ?_ ((idsPerm.nodup_iff.mpr distinct).filter _) ?_
      · intro node member
        rw [count node, get?_zeroed distinct (holds_iff.mpr member)]
        simp
      · intro node
        rw [List.mem_filter, idsPerm.mem_iff, decide_eq_true_eq]
    have expands : ∀ node, ∃ out, backend.sortedOutgoing node = .ok out ∧ out.Nodup
        ∧ ∀ edge, edge ∈ out ↔ edge ∈ backend.edges ∧ edge.id.source = node := by
      intro node
      have filed : backend.outgoing node
          = backend.edges.filter (fun edge => edge.id.source = node) := endIndex_eq unique node
      have inside : ∀ edge ∈ backend.outgoing node, edge ∈ backend.edges :=
        fun edge member => (mem_of_endIndex member).1
      obtain ⟨out, sorts⟩ := Py.exists_sorted (fun left inLeft right inRight =>
        EdgeId.exists_lt.mpr (built.compares left (inside left inLeft) right
          (inside right inRight)))
      refine ⟨out, sorts, ?_, ?_⟩
      · rw [(Py.perm_of_sorted sorts).nodup_iff, filed]
        exact (List.Nodup.of_map _ unique).filter _
      · intro edge
        rw [(Py.perm_of_sorted sorts).mem_iff, filed, List.mem_filter,
          decide_eq_true_eq]
    obtain ⟨ordered, indegree, drained, done⟩ : ∃ ordered indegree,
        Py.drain backend.sortedOutgoing (fun edge => edge.id.target) (.raised "KeyError")
            (.raised "out of fuel") backend.nodes.length counted
            (ids.filter (fun node => counted.get? node = some 0)) [] = .ok ordered
          ∧ Py.Kahn (backend.nodes.map NodeEntry.id) backend.edges (fun edge => edge.id.source)
            (fun edge => edge.id.target) ordered [] [] indegree :=
      start.drain (List.Nodup.of_map _ unique) expands
        (fun edge member => holds_iff.mp (known edge member)) (by simp)
    refine ⟨ordered, indegree, ?_, done⟩
    rw [topologicalSort, counts]
    simp only [bind, Except.bind, idsSorted, drained]
    rw [keys, List.length_map]
    rfl

/-- Counting in-degrees and putting out the free nodes sorts the nodes exactly if the ends of all
edges are nodes; sources need not be if there is a cycle anyway.
-/
theorem Built.sorts_iff_acyclic (built : backend.Built)
    (unique : (backend.edges.map EdgePair.id).Nodup)
    : backend.SortsTopologically
      ↔ (∀ edge ∈ backend.edges, backend.Holds edge.id.target)
        ∧ ((∀ edge ∈ backend.edges, backend.Holds edge.id.source) ∨ backend.Cyclic) := by
  by_cases known : ∀ edge ∈ backend.edges, backend.Holds edge.id.target
  case neg =>
    obtain ⟨edge, member, unknown⟩ : ∃ edge ∈ backend.edges, ¬ backend.Holds edge.id.target := by
      simpa using known
    have failed := topologicalSort_of_unknown distinct member unknown
    refine iff_of_false ?_ (fun given => known given.1)
    intro sorts
    rcases sorts.1 with ⟨ordered, run, _⟩ | run
    · rw [failed] at run
      cases run
    · rw [failed] at run
      simp [graphCycleError] at run
  case pos =>
    obtain ⟨ordered, indegree, run, done⟩ := built.kahn distinct unique known
    rw [and_iff_right known, SortsTopologically, run]
    by_cases complete : ordered.length = backend.nodes.length
    · have perm := done.perm (complete.trans (List.length_map _).symm)
      have acyclic : ¬ backend.Cyclic := done.acyclic perm
      rw [if_pos complete]
      refine iff_of_true ⟨.inl ⟨ordered, rfl, perm, ?_⟩, iff_of_false (by simp) acyclic⟩ ?_
      · intro edge member _ target
        exact done.before edge member (perm.mem_iff.mpr (holds_iff.mp target))
      · refine .inl (fun edge member => holds_iff.mpr ?_)
        exact done.source_mem perm member (holds_iff.mp (known edge member))
    · rw [if_neg complete]
      constructor
      · intro sorts
        exact .inr (sorts.2.mp rfl)
      · intro given
        refine ⟨.inr rfl, iff_of_true rfl ?_⟩
        rcases given with sources | cyclic
        · refine done.cyclic distinct (fun same => complete (same.trans (List.length_map _))) ?_
          exact fun edge member => holds_iff.mp (sources edge member)
        · exact cyclic

end Start

end IndexedBackend

-----------------------------------------------------------------------------------------
-- Snapshots
-----------------------------------------------------------------------------------------

theorem built_of_buildGraph {hasher : ContentHasher} {source : Registry V}
    {revision : Option Revision} {graph : MigrationGraph V}
    (built : buildGraph hasher source revision = .ok graph)
    : graph.backend.Built := by
  obtain ⟨_, _, built⟩ := Py.ok_bind_iff.mp built
  obtain ⟨nodes, _, built⟩ := Py.ok_bind_iff.mp built
  obtain ⟨digests, _, built⟩ := Py.ok_bind_iff.mp built
  obtain ⟨scan, _, built⟩ := Py.ok_bind_iff.mp built
  obtain ⟨edges, _, built⟩ := Py.ok_bind_iff.mp built
  obtain ⟨_, _, built⟩ := Py.ok_bind_iff.mp built
  obtain ⟨backend, indexed, built⟩ := Py.ok_bind_iff.mp built
  obtain ⟨revision, _, built⟩ := Py.ok_bind_iff.mp built
  obtain ⟨_, _, built⟩ := Py.ok_bind_iff.mp built
  obtain rfl := Except.ok.inj built
  exact IndexedBackend.built_of_build indexed

/-- A snapshot is sorted as it should be exactly if its edges end at stored nodes and start at
stored nodes; the latter need not be if stored nodes make a cycle.
-/
theorem Reachable.sortsTopologically_iff {config : Config V F} {source : Registry V}
    (reached : Reachable config source) {hasher : ContentHasher} {revision : Option Revision}
    {graph : MigrationGraph V} (built : buildGraph hasher source revision = .ok graph)
    : graph.backend.SortsTopologically
      ↔ (∀ edge ∈ graph.backend.edges, graph.backend.Holds edge.id.target)
        ∧ ((∀ edge ∈ graph.backend.edges, graph.backend.Holds edge.id.source)
          ∨ graph.backend.Cyclic) := by
  have nodes := reached.nodeStores
  obtain ⟨steps⟩ := buildGraph_steps nodes reached.edgeStores built
  refine IndexedBackend.Built.sorts_iff_acyclic ?_ (built_of_buildGraph built) ?_
  · rw [steps.backend]
    exact nodes.sorted.nodup_keys
  · rw [steps.backend]
    exact steps.sorted.nodup_keys

/-- Witness: two releases and an edge between them. -/
theorem sortsTopologically_joinedCatalog
    : ∃ graph, buildGraph reflectingConfig.hasher joinedCatalog none = .ok graph
        ∧ graph.backend.SortsTopologically := by
  have shown : (buildGraph reflectingConfig.hasher joinedCatalog none).map (fun graph =>
      (graph.backend.nodes.map NodeEntry.id, graph.backend.edges.map EdgePair.id))
      = .ok ([userId 1, userId 3], [(userMigration 1 3 "UserV1" "UserV3").id]) := by
    decide +kernel
  cases built : buildGraph reflectingConfig.hasher joinedCatalog none with
  | error error => simp [built, Except.map] at shown
  | ok graph =>
      obtain ⟨nodes, edges⟩ : graph.backend.nodes.map NodeEntry.id = [userId 1, userId 3]
          ∧ graph.backend.edges.map EdgePair.id
            = [(userMigration 1 3 "UserV1" "UserV3").id] := by
        simpa [built, Except.map] using shown
      have each : ∀ edge ∈ graph.backend.edges,
          edge.id = (userMigration 1 3 "UserV1" "UserV3").id := by
        intro edge member
        have listed := List.mem_map_of_mem (f := EdgePair.id) member
        rw [edges] at listed
        exact List.mem_singleton.mp listed
      have reached : Reachable reflectingConfig joinedCatalog := .step _ gappedCatalog_reachable
      refine ⟨graph, rfl, (reached.sortsTopologically_iff built).mpr ⟨?_, .inl ?_⟩⟩
      · intro edge member
        rw [IndexedBackend.holds_iff, nodes, each edge member]
        decide
      · intro edge member
        rw [IndexedBackend.holds_iff, nodes, each edge member]
        decide

/-- Counterexample: a key-only edge enters a release that is not stored. -/
theorem not_sortsTopologically_keyOnly
    : ¬ ∀ (config : Config Release Unit) (source : Registry Release), Reachable config source →
        ∀ (hasher : ContentHasher) (revision : Option Revision) (graph : MigrationGraph Release),
          buildGraph hasher source revision = .ok graph → graph.backend.SortsTopologically := by
  intro claim
  let source : Registry Release := Py.after ((Op.storeMigration
      (.edge (.edgeKey (userPair (userId 1) (userId 2) rfl rfl)))).run reflectingConfig)
    (Registry.new "default" false)
  have reached : Reachable reflectingConfig source :=
    .step _ (.new reflectingConfig "default" false (by decide))
  have raised : (buildGraph reflectingConfig.hasher source none).map (fun graph =>
      graph.backend.topologicalSort) = .ok (.error (.raised "KeyError")) := by
    decide +kernel
  cases built : buildGraph reflectingConfig.hasher source none with
  | error error => simp [built, Except.map] at raised
  | ok graph =>
      have failed : graph.backend.topologicalSort = .error (.raised "KeyError") := by
        simpa [built, Except.map] using raised
      rcases (claim _ source reached _ _ graph built).1 with ⟨ordered, run, _⟩ | run
      · rw [failed] at run
        cases run
      · rw [failed] at run
        simp [graphCycleError] at run

end Pyverge
