import Mathlib.Data.List.Find
import Mathlib.Data.List.Induction
import Pyverge.Graph.ContentDigest
import Pyverge.Graph.Discovery
import Pyverge.Registry.EdgeIndex

/-! Queries that a registry and its snapshot share.
The registry searches sorted lists and refuses keys of another version strategy, the snapshot
looks keys up in its maps. Beyond that they differ in three answers: what counts as a model,
where an unregistered endpoint stands, and whether an absent edge is critical.
-/

namespace Pyverge

variable {V F : Type} [DecidableEq V] [VersionValue V] {hasher : ContentHasher}

-----------------------------------------------------------------------------------------
-- Nodes
-----------------------------------------------------------------------------------------

omit [DecidableEq V] in
/-- An entry that compares equal to the key is one with the key's very identity. -/
def Registry.TellsNode (registry : Registry V) (key : NodeId V) : Prop :=
  ∀ entry ∈ registry.byVersions, entry.id.cmp key = .eq → entry.id = key

omit [DecidableEq V] in
/-- A stored edge that compares equal to the key is the one with the key's very identity. -/
def Registry.TellsEdge (registry : Registry V) (key : EdgeId V) : Prop :=
  ∀ edge ∈ registry.edges key.kind, edge.id.cmp key = .eq → edge.id = key

section Nodes

variable {source : Registry V} {graph : MigrationGraph V} (steps : BuildSteps hasher source graph)
  (stores : NodeStores source)

include steps stores

/-- Keys of the entries' strategy are found in both. -/
theorem BuildSteps.findEntry_eq {key : NodeId V} (tells : source.TellsNode key)
    (same : SameStrategy source.byVersions key)
    : source.findEntry key = .ok (graph.findEntry key) := by
  rw [Registry.findEntry, findNode_eq stores.sorted same]
  apply congrArg Except.ok
  rw [Option.ext_iff]
  intro entry
  rw [steps.findEntry_eq_some stores]
  rw [stores.sorted.find?_eq_some]
  constructor
  · intro found
    rcases found with ⟨member, equal⟩
    exact ⟨member, tells entry member equal⟩
  · intro given
    rcases given with ⟨member, told⟩
    refine ⟨member, ?_⟩
    rw [told]
    exact Std.ReflCmp.compare_self

theorem BuildSteps.findEntry_iff {key : NodeId V} (tells : source.TellsNode key)
    : source.findEntry key = .ok (graph.findEntry key) ↔ SameStrategy source.byVersions key := by
  constructor
  · intro found
    exact sameStrategy_of_findNode stores.uniform found
  · intro same
    exact steps.findEntry_eq stores tells same

/-- What is read off a found entry agrees as far as the search does. -/
theorem BuildSteps.map_findEntry_iff {key : NodeId V} (tells : source.TellsNode key) {α : Type}
    (read : Option (NodeEntry V) → α)
    : (source.findEntry key).map read = .ok (read (graph.findEntry key))
      ↔ SameStrategy source.byVersions key := by
  constructor
  · intro answer
    cases found : source.findEntry key with
    | error error => simp [found, Except.map] at answer
    | ok entry => exact sameStrategy_of_findNode stores.uniform found
  · intro same
    rw [steps.findEntry_eq stores tells same]
    rfl

/-- `has_model` agrees for keys of the entries' strategy that no key-only entry has. -/
theorem BuildSteps.hasModel_iff {key : NodeId V} (tells : source.TellsNode key)
    : source.hasModel key = .ok (graph.hasModel key)
      ↔ SameStrategy source.byVersions key ∧ NodeEntry.versionKey key ∉ source.byVersions := by
  have answer := steps.map_findEntry_iff stores tells Option.isSome
  have stored := fun entry => @BuildSteps.findEntry_eq_some _ _ _ _ _ _ steps stores key entry
  constructor
  · intro same
    have strategies : SameStrategy source.byVersions key := by
      cases found : source.findEntry key with
      | error error =>
          rw [Registry.findEntry] at found
          simp [Registry.hasModel, found, Except.map] at same
      | ok result => exact sameStrategy_of_findNode stores.uniform found
    refine ⟨strategies, fun member => ?_⟩
    have found : graph.findEntry key = some (.versionKey key) := (stored _).mpr ⟨member, rfl⟩
    have registryFound := answer.mpr strategies
    rw [Registry.findEntry] at registryFound
    rw [Registry.hasModel, registryFound] at same
    simp [MigrationGraph.hasModel, MigrationGraph.findModel, found, NodeEntry.node?] at same
  · intro given
    rcases given with ⟨strategies, hydrated⟩
    have registryFound := answer.mpr strategies
    rw [Registry.findEntry] at registryFound
    rw [Registry.hasModel, registryFound, MigrationGraph.hasModel, MigrationGraph.findModel]
    cases found : graph.findEntry key with
    | none => rfl
    | some entry =>
        cases entry with
        | versionNode node => rfl
        | versionKey id =>
            obtain ⟨member, same⟩ := (stored _).mp found
            have told : id = key := same
            exact absurd (told ▸ member) hydrated

theorem BuildSteps.kindEntries_eq (kind : ModelKind)
    : graph.kindEntries kind = source.kindEntries kind := by
  rw [stores.grouped, MigrationGraph.kindEntries, steps.backend]
  exact Py.Dict.getD_groupBy _ _ _

theorem BuildSteps.kindVersions_eq (kind : ModelKind)
    : graph.kindVersions kind = source.kindVersions kind := by
  rw [MigrationGraph.kindVersions, steps.kindEntries_eq stores, Registry.kindVersions]

omit stores in
theorem BuildSteps.name_eq : graph.name = source.nameSpace := by
  rw [MigrationGraph.name, steps.backend]

theorem BuildSteps.latest_eq (kind : ModelKind) : graph.latest kind = source.latest kind := by
  rw [MigrationGraph.latest, steps.kindVersions_eq stores, steps.name_eq]
  rfl

theorem BuildSteps.earliest_eq (kind : ModelKind)
    : graph.earliest kind = source.earliest kind := by
  rw [MigrationGraph.earliest, steps.kindVersions_eq stores, steps.name_eq]
  rfl

omit stores in
theorem BuildSteps.getModelByRef_eq (ref : ModelRef)
    : graph.getModelByRef ref = source.getModelByRef ref := by
  rw [MigrationGraph.getModelByRef, steps.name_eq, steps.backend]
  rfl

end Nodes

-----------------------------------------------------------------------------------------
-- Neighbours
-----------------------------------------------------------------------------------------

omit [VersionValue V] in
/-- The buckets that the positions are read off group the entries by kind. -/
theorem positionBuckets_eq (nodes : List (NodeEntry V)) (kind : ModelKind)
    : (nodes.foldl filePosition (∅, ∅)).1.getD kind []
      = nodes.filter (fun entry => entry.kind = kind) := by
  induction nodes using List.reverseRecOn with
  | nil => rfl
  | append_singleton nodes entry ih =>
      rw [List.foldl_append, List.foldl_cons, List.foldl_nil, List.filter_append]
      simp only [filePosition, Py.Dict.getD_set]
      by_cases same : kind = entry.kind
      · subst same
        simp [ih]
      · rw [if_neg same, ih]
        simp [Ne.symm same]

omit [VersionValue V] in
/-- The map of positions tells the place of an identity in the bucket of its kind, by induction
on the entries.
-/
theorem positionIndex_get? {nodes : List (NodeEntry V)}
    (distinct : (nodes.map NodeEntry.id).Nodup) {key : NodeId V} {index : Nat}
    : (positionIndex nodes).get? key = some index
      ↔ ∃ entry, (nodes.filter (fun entry => entry.kind = key.kind))[index]? = some entry
        ∧ entry.id = key := by
  induction nodes using List.reverseRecOn with
  | nil => simp [positionIndex]
  | append_singleton nodes entry ih =>
      rw [List.map_append, List.nodup_append] at distinct
      have fresh : ∀ other ∈ nodes, other.id ≠ entry.id := fun other member =>
        distinct.2.2 _ (List.mem_map_of_mem member) _ (by simp)
      have bucket := positionBuckets_eq nodes entry.kind
      have kind : entry.kind = entry.id.kind := rfl
      unfold positionIndex at ih ⊢
      rw [List.foldl_append, List.foldl_cons, List.foldl_nil, List.filter_append, filePosition,
        bucket, kind]
      by_cases same : key = entry.id
      · subst same
        rw [Py.Dict.get?_set_self, Option.some.injEq]
        have kinds : [entry].filter (fun other => other.kind = entry.id.kind) = [entry] := by
          simp [kind]
        rw [kinds]
        constructor
        · intro here
          refine ⟨entry, ?_, rfl⟩
          rw [← here, List.getElem?_append_right (Nat.le_refl _)]
          simp
        · intro given
          rcases given with ⟨other, place, same⟩
          rcases Nat.lt_or_ge index
              (nodes.filter (fun other => other.kind = entry.id.kind)).length with inside | beyond
          · rw [List.getElem?_append_left inside] at place
            exact absurd same (fresh other (List.mem_of_mem_filter (List.mem_of_getElem? place)))
          · rw [List.getElem?_append_right beyond, List.getElem?_singleton] at place
            split at place
            · omega
            · cases place
      · rw [Py.Dict.get?_set_ne _ _ same, ih distinct.1]
        constructor
        · intro given
          rcases given with ⟨other, place, told⟩
          have inside := (List.getElem?_eq_some_iff.mp place).1
          exact ⟨other, by rwa [List.getElem?_append_left inside], told⟩
        · intro given
          rcases given with ⟨other, place, told⟩
          rcases Nat.lt_or_ge index
              (nodes.filter (fun other => other.kind = key.kind)).length with inside | beyond
          · rw [List.getElem?_append_left inside] at place
            exact ⟨other, place, told⟩
          · rw [List.getElem?_append_right beyond] at place
            have last := List.mem_of_mem_filter (List.mem_of_getElem? place)
            rw [List.mem_singleton.mp last] at told
            exact absurd told.symm same

omit [DecidableEq V] in
/-- The positions of the endpoints, as the registry bisects them. -/
theorem outcome_isAdjacent (key : EdgeId V) (registry : Registry V)
    : Py.outcome (Registry.isAdjacent key) registry
      = (bisectNodes (registry.kindEntries key.kind) key.source).bind (fun source =>
        (bisectNodes (registry.kindEntries key.kind) key.target).bind (fun target =>
          .ok (source == target + 1 || target == source + 1))) := by
  obtain ⟨next, reached⟩ : ∃ next, Py.after (Registry.touchKind key.kind) registry = next := ⟨_, rfl⟩
  have touched : next.kindEntries key.kind = registry.kindEntries key.kind := by
    rw [← reached]
    exact Py.Dict.getD_setDefault ..
  have first : Py.outcome (Registry.touchKind key.kind) registry = .ok PUnit.unit := rfl
  rw [Registry.isAdjacent, Py.outcome_bind, first, reached, Except.bind, Py.outcome_bind,
    Py.outcome_query, touched]
  congr 1
  funext source
  rw [Py.after_query, Py.outcome_bind, Py.outcome_query, touched]
  rfl

section Neighbours

omit [DecidableEq V] in
/-- The number of stored entries of the kind below an identity. -/
def Registry.countBelow (registry : Registry V) (key : NodeId V) : Nat :=
  (registry.kindEntries key.kind).countP (fun entry => entry.id.cmp key == .lt)

omit [DecidableEq V] in
/-- Both endpoints are registered, or they do not bound exactly one entry. -/
def Registry.PlacesEndpoints (registry : Registry V) (key : EdgeId V) : Prop :=
  ((∃ entry ∈ registry.byVersions, entry.id = key.source)
      ∧ ∃ entry ∈ registry.byVersions, entry.id = key.target)
    ∨ ¬ (registry.countBelow key.source = registry.countBelow key.target + 1
      ∨ registry.countBelow key.target = registry.countBelow key.source + 1)

variable {source : Registry V} {graph : MigrationGraph V} (steps : BuildSteps hasher source graph)
  (stores : NodeStores source)

include stores in
omit [DecidableEq V] in
theorem NodeStores.bisect_kindEntries {key : NodeId V}
    (same : SameStrategy (source.kindEntries key.kind) key)
    : bisectNodes (source.kindEntries key.kind) key = .ok (source.countBelow key) := by
  rw [bisectNodes_eq (stores.sortedKind key.kind) same, nodeIndex,
    (stores.sortedKind key.kind).lowerBound_eq_countP]
  rfl

include steps stores

theorem BuildSteps.nodePositions_eq_some {key : NodeId V} {index : Nat}
    : graph.backend.nodePositions.get? key = some index
      ↔ ∃ entry, (source.kindEntries key.kind)[index]? = some entry ∧ entry.id = key := by
  rw [steps.backend, stores.grouped]
  exact positionIndex_get? stores.sorted.nodup_keys

/-- The position of a registered identity counts the entries below it. -/
theorem BuildSteps.nodePositions_of_mem {entry : NodeEntry V} (member : entry ∈ source.byVersions)
    : graph.backend.nodePositions.get? entry.id = some (source.countBelow entry.id) := by
  have listed : entry ∈ source.kindEntries entry.id.kind := by
    rw [stores.grouped]
    exact List.mem_filter.mpr ⟨member, by simp [NodeEntry.kind]⟩
  obtain ⟨index, place⟩ := List.mem_iff_getElem?.mp listed
  have sorted := stores.sortedKind entry.id.kind
  have count : source.countBelow entry.id = index := by
    rw [Registry.countBelow, ← sorted.lowerBound_eq_countP]
    exact sorted.lowerBound_of_getElem? place
  rw [count]
  exact (steps.nodePositions_eq_some stores).mpr ⟨entry, place, rfl⟩

theorem BuildSteps.nodePositions_of_absent {key : NodeId V}
    (absent : ¬ ∃ entry ∈ source.byVersions, entry.id = key)
    : graph.backend.nodePositions.get? key = none := by
  cases found : graph.backend.nodePositions.get? key with
  | none => rfl
  | some index =>
      obtain ⟨entry, place, same⟩ := (steps.nodePositions_eq_some stores).mp found
      have listed := List.mem_of_getElem? place
      rw [stores.grouped] at listed
      exact absurd ⟨entry, List.mem_of_mem_filter listed, same⟩ absent

/-- `is_adjacent` agrees for endpoints of the entries' strategy that are both registered or do
not bound exactly one entry.
-/
theorem BuildSteps.isAdjacent_iff (key : EdgeId V)
    : Py.outcome (Registry.isAdjacent key) source = .ok (graph.isAdjacent key)
      ↔ SameStrategy (source.kindEntries key.kind) key.source
        ∧ SameStrategy (source.kindEntries key.kind) key.target
        ∧ source.PlacesEndpoints key := by
  have uniform : OneStrategy (source.kindEntries key.kind) := by
    rw [stores.grouped]
    intro entry member
    exact (stores.uniform entry (List.mem_of_mem_filter member)).filter _
  have kinds : key.kind = key.target.kind := key.sameKind
  have returns : ∀ answer, SameStrategy (source.kindEntries key.kind) key.source →
      SameStrategy (source.kindEntries key.kind) key.target →
      (Py.outcome (Registry.isAdjacent key) source = .ok answer
        ↔ (source.countBelow key.source == source.countBelow key.target + 1
          || source.countBelow key.target == source.countBelow key.source + 1) = answer) := by
    intro answer sources targets
    have atSource : bisectNodes (source.kindEntries key.kind) key.source
        = .ok (source.countBelow key.source) := stores.bisect_kindEntries sources
    have atTarget : bisectNodes (source.kindEntries key.kind) key.target
        = .ok (source.countBelow key.target) := by
      rw [kinds] at targets ⊢
      exact stores.bisect_kindEntries targets
    rw [outcome_isAdjacent, atSource, atTarget]
    exact ⟨fun same => Except.ok.inj same, fun same => congrArg Except.ok same⟩
  -- Without both endpoints the snapshot denies; with both it counts as the registry does.
  have snapshot : graph.isAdjacent key
      = (decide ((∃ entry ∈ source.byVersions, entry.id = key.source)
          ∧ ∃ entry ∈ source.byVersions, entry.id = key.target)
        && (source.countBelow key.source == source.countBelow key.target + 1
          || source.countBelow key.target == source.countBelow key.source + 1)) := by
    unfold MigrationGraph.isAdjacent
    by_cases atSource : ∃ entry ∈ source.byVersions, entry.id = key.source
    · by_cases atTarget : ∃ entry ∈ source.byVersions, entry.id = key.target
      · obtain ⟨first, inFirst, isFirst⟩ := id atSource
        obtain ⟨second, inSecond, isSecond⟩ := id atTarget
        have one := steps.nodePositions_of_mem stores inFirst
        have two := steps.nodePositions_of_mem stores inSecond
        rw [isFirst] at one
        rw [isSecond] at two
        simp only [one, two]
        rw [decide_eq_true ⟨atSource, atTarget⟩, Bool.true_and]
      · rw [steps.nodePositions_of_absent stores atTarget,
          decide_eq_false (fun both => atTarget both.2), Bool.false_and]
        cases graph.backend.nodePositions.get? key.source <;> rfl
    · rw [steps.nodePositions_of_absent stores atSource,
        decide_eq_false (fun both => atSource both.1), Bool.false_and]
  constructor
  · intro answer
    have run := answer
    rw [outcome_isAdjacent] at run
    obtain ⟨_, foundSource, run⟩ := Py.ok_bind_iff.mp run
    obtain ⟨_, foundTarget, _⟩ := Py.ok_bind_iff.mp run
    have sources := sameStrategy_of_bisectNodes uniform foundSource
    have targets := sameStrategy_of_bisectNodes uniform foundTarget
    refine ⟨sources, targets, ?_⟩
    have same := (returns _ sources targets).mp answer
    rw [snapshot] at same
    by_cases both : (∃ entry ∈ source.byVersions, entry.id = key.source)
        ∧ ∃ entry ∈ source.byVersions, entry.id = key.target
    · exact .inl both
    · rw [decide_eq_false both, Bool.false_and] at same
      refine .inr (fun apart => ?_)
      rw [Bool.or_eq_false_iff, beq_eq_false_iff_ne, beq_eq_false_iff_ne] at same
      exact apart.elim same.1 same.2
  · intro given
    rcases given with ⟨sources, targets, places⟩
    rw [returns _ sources targets, snapshot]
    rcases places with both | near
    · rw [decide_eq_true both, Bool.true_and]
    · have apart : (source.countBelow key.source == source.countBelow key.target + 1
          || source.countBelow key.target == source.countBelow key.source + 1) = false := by
        simpa [not_or] using near
      rw [apart, Bool.and_false]

end Neighbours

-----------------------------------------------------------------------------------------
-- Edges
-----------------------------------------------------------------------------------------

/-- The search finds the stored edge with the key's identity. -/
theorem EdgeStores.findEdgeIn_eq {source : Registry V} (stores : EdgeStores source)
    {key : EdgeId V} (tells : source.TellsEdge key)
    (searchable : source.Searchable key)
    : findEdgeIn (source.edges key.kind) key
      = .ok ((source.edges key.kind).find? (fun edge => edge.id = key)) := by
  obtain ⟨found, run⟩ := stores.exists_findEdgeIn.mpr searchable
  rw [run, findEdgeIn_of_ok (stores.sorted key.kind) run]
  apply congrArg Except.ok
  refine List.find?_congr (fun edge member => ?_)
  rw [Bool.eq_iff_iff, beq_iff_eq, decide_eq_true_eq]
  constructor
  · exact tells edge member
  · intro same
    rw [same]
    exact Std.ReflCmp.compare_self

omit [DecidableEq V] [VersionValue V] in
theorem map_id_executable (entries : List (EdgeEntry V))
    : (entries.filter EdgeEntry.isExecutable).map EdgeEntry.id
      = (entries.filterMap EdgeEntry.version?).map VersionEdge.id := by
  induction entries with
  | nil => rfl
  | cons entry rest ih =>
      cases entry with
      | edgeKey pair => exact ih
      | versionEdge edge => exact congrArg (edge.id :: ·) ih

section Edges

variable {source : Registry V} {graph : MigrationGraph V} (steps : BuildSteps hasher source graph)
  (stores : EdgeStores source)

include steps stores

theorem BuildSteps.mem_edges {pair : EdgePair V}
    : pair ∈ steps.edges ↔ ∃ entry ∈ source.edges pair.id.kind, entry.pair = pair := by
  rw [steps.permuted.mem_iff, stores.mem_scanned steps.listed steps.scanned]

/-- The snapshot lists the edges of a kind in the registry's order. -/
theorem BuildSteps.edges_eq (kind : ModelKind)
    : graph.edges kind = (source.edges kind).map EdgeEntry.pair := by
  have grouped : graph.edges kind = steps.edges.filter (fun edge => edge.id.kind = kind) := by
    rw [MigrationGraph.edges, steps.backend]
    exact Py.Dict.getD_groupBy _ _ _
  rw [grouped]
  refine (steps.sorted.filter _).eq_of_mem (List.pairwise_map.mpr (stores.sorted kind)) ?_
  intro pair
  rw [List.mem_filter, steps.mem_edges stores, List.mem_map, decide_eq_true_eq]
  constructor
  · intro given
    rcases given with ⟨⟨entry, member, same⟩, filed⟩
    exact ⟨entry, filed ▸ member, same⟩
  · intro given
    rcases given with ⟨entry, member, same⟩
    have filed : pair.id.kind = kind := by
      rw [← same]
      exact stores.filed kind entry member
    exact ⟨⟨entry, filed.symm ▸ member, same⟩, filed⟩

theorem BuildSteps.hasEdge_eq (key : EdgeId V)
    : graph.hasEdge key = ((source.edges key.kind).find? (fun edge => edge.id = key)).isSome := by
  rw [MigrationGraph.hasEdge, steps.backend, Bool.eq_iff_iff, List.contains_iff_mem,
    List.find?_isSome]
  simp only [List.mem_map, steps.mem_edges stores, decide_eq_true_eq]
  constructor
  · intro given
    rcases given with ⟨pair, ⟨entry, member, same⟩, told⟩
    have id : entry.id = key := (congrArg EdgePair.id same).trans told
    rw [told] at member
    exact ⟨entry, member, id⟩
  · intro given
    rcases given with ⟨entry, member, told⟩
    have id : entry.pair.id = key := told
    exact ⟨entry.pair, ⟨entry, id.symm ▸ member, rfl⟩, id⟩

theorem BuildSteps.isExecutable_eq {entry : EdgeEntry V} (member : entry ∈ source.edges entry.kind)
    : graph.isExecutable entry.id = entry.isExecutable := by
  obtain ⟨entries, storedEdges⟩ := steps.exists_storedEdges stores
  exact steps.executableEdgeIds_contains stores storedEdges ((storedEdges.stored entry).mpr member)

theorem BuildSteps.hasMigration_eq (key : EdgeId V)
    : graph.hasMigration key
      = (((source.edges key.kind).find? (fun edge => edge.id = key)).map
        EdgeEntry.isExecutable).getD false := by
  have lookup : ∀ pair, graph.backend.edgesById.get? key = some pair
      ↔ pair ∈ steps.edges ∧ pair.id = key := by
    intro pair
    rw [steps.backend]
    refine Py.Dict.get?_indexBy (fun _ inLeft _ inRight same => ?_)
    exact steps.sorted.eq_of_cmp_eq inLeft inRight (same ▸ Std.ReflCmp.compare_self)
  unfold MigrationGraph.hasMigration
  cases found : (source.edges key.kind).find? (fun edge => edge.id = key) with
  | none =>
      have absent : graph.backend.edgesById.get? key = none := by
        cases listed : graph.backend.edgesById.get? key with
        | none => rfl
        | some pair =>
            obtain ⟨member, told⟩ := (lookup pair).mp listed
            obtain ⟨entry, stored, same⟩ := (steps.mem_edges stores).mp member
            rw [told] at stored
            have id : entry.id = key := (congrArg EdgePair.id same).trans told
            exact absurd id (by simpa using List.find?_eq_none.mp found entry stored)
      rw [absent]
      rfl
  | some entry =>
      have told : entry.id = key := by simpa using List.find?_some found
      have stored := List.mem_of_find?_eq_some found
      have listed : graph.backend.edgesById.get? key = some entry.pair := by
        refine (lookup entry.pair).mpr ⟨(steps.mem_edges stores).mpr ⟨entry, ?_, rfl⟩, told⟩
        have id : entry.pair.id = key := told
        rwa [id]
      have filed : entry.kind = key.kind := congrArg EdgeId.kind told
      rw [listed]
      exact steps.isExecutable_eq stores (filed.symm ▸ stored)

/-- Searching by bisection and by hash agree for keys that the stored edges can be compared with. -/
theorem BuildSteps.hasEdge_iff {key : EdgeId V} (tells : source.TellsEdge key)
    : source.hasEdge key = .ok (graph.hasEdge key) ↔ source.Searchable key := by
  constructor
  · intro answer
    cases run : findEdgeIn (source.edges key.kind) key with
    | error error => simp [Registry.hasEdge, run, Except.map] at answer
    | ok found => exact stores.exists_findEdgeIn.mp ⟨found, run⟩
  · intro searchable
    rw [Registry.hasEdge, stores.findEdgeIn_eq tells searchable, steps.hasEdge_eq stores]
    rfl

theorem BuildSteps.hasMigration_iff {key : EdgeId V} (tells : source.TellsEdge key)
    : source.hasMigration key = .ok (graph.hasMigration key) ↔ source.Searchable key := by
  constructor
  · intro answer
    cases run : findEdgeIn (source.edges key.kind) key with
    | error error => simp [Registry.hasMigration, run, Except.map] at answer
    | ok found => exact stores.exists_findEdgeIn.mp ⟨found, run⟩
  · intro searchable
    rw [Registry.hasMigration, stores.findEdgeIn_eq tells searchable,
      steps.hasMigration_eq stores]
    rfl

/-- The executable edges of a kind have the same identities in the same order. -/
theorem BuildSteps.migrationsFor_eq (kind : ModelKind)
    : (graph.migrationsFor kind).map EdgePair.id
      = (source.migrationsFor kind).map VersionEdge.id := by
  have executes : ∀ entry ∈ source.edges kind,
      graph.isExecutable entry.pair.id = entry.isExecutable := by
    intro entry member
    exact steps.isExecutable_eq stores ((stores.filed kind entry member).symm ▸ member)
  have selected : (source.edges kind).filter
        ((fun edge : EdgePair V => graph.isExecutable edge.id) ∘ EdgeEntry.pair)
      = (source.edges kind).filter EdgeEntry.isExecutable :=
    List.filter_congr (fun entry member => executes entry member)
  rw [MigrationGraph.migrationsFor, steps.edges_eq stores, Registry.migrationsFor,
    List.filter_map, List.map_map, selected, ← map_id_executable]
  rfl

end Edges

section Critical

open MigrationGraph

omit [DecidableEq V] in
/-- A scan of comparable edges finds the first equal one, by list induction. -/
theorem indexOfEdge_of_compares {key : EdgeId V} {edges : List (EdgePair V)}
    (compares : ∀ edge ∈ edges, edge.id.Compares key)
    : indexOfEdge key edges = .ok (edges.findIdx? (fun edge => edge.id.cmp key == .eq)) := by
  induction edges with
  | nil => rfl
  | cons edge rest ih =>
      have first := EdgeId.eq_of_compares (compares edge (List.mem_cons_self ..))
      have later := ih (fun other member => compares other (List.mem_cons_of_mem _ member))
      rw [indexOfEdge, first, later, List.findIdx?_cons]
      cases edge.id.cmp key == .eq <;> rfl

omit [DecidableEq V] in
/-- A scan that returns has compared all edges, or those up to an equal one. -/
theorem asked_of_indexOfEdge {key : EdgeId V} {edges : List (EdgePair V)} {found : Option Nat}
    (run : indexOfEdge key edges = .ok found)
    : (∀ edge ∈ edges, edge.id.Compares key) ∨ ∃ edge ∈ edges, edge.id.eq key = .ok true := by
  induction edges generalizing found with
  | nil => exact .inl (fun _ member => absurd member List.not_mem_nil)
  | cons edge rest ih =>
      obtain ⟨answer, asked, run⟩ := Py.ok_bind_iff.mp run
      cases answer with
      | true => exact .inr ⟨edge, List.mem_cons_self .., asked⟩
      | false =>
          obtain ⟨later, scanned, _⟩ := Py.ok_bind_iff.mp run
          rcases ih scanned with all | ⟨other, member, equal⟩
          · left
            intro other member
            rcases List.mem_cons.mp member with rfl | inRest
            · exact EdgeId.exists_eq.mp ⟨false, asked⟩
            · exact all other inRest
          · exact .inr ⟨other, List.mem_cons_of_mem _ member, equal⟩

omit [DecidableEq V] in
/-- What compares with an edge compares with every key that is equal to it. -/
theorem EdgeId.Compares.of_eq {one edge key : EdgeId V} (compares : one.Compares edge)
    (equal : edge.eq key = .ok true)
    : one.Compares key := by
  have near := EdgeId.exists_eq.mp ⟨true, equal⟩
  have order : edge.cmp key = .eq := by simpa using EdgeId.eq_agrees equal
  have sources : edge.source.cmp key.source = .eq := by
    simp only [EdgeId.cmp, compareLex_eq_eq] at order
    exact order.1
  refine ⟨compares.1.trans near.1, fun same => ?_⟩
  rw [← Std.TransCmp.congr_right sources] at same
  exact (compares.2 same).trans (near.2 sources)

omit [DecidableEq V] in
theorem outcome_isCriticalEdge (key : EdgeId V) (registry : Registry V)
    : Py.outcome (Registry.isCriticalEdge key) registry
      = (bisectEdges (registry.edges key.kind) key).bind (fun index =>
        .ok (decide (2 < (registry.edges key.kind).length)
          && (decide (0 < index) || decide (index + 1 < (registry.edges key.kind).length)))) := by
  obtain ⟨next, reached⟩ : ∃ next, Py.after (Registry.touchMigrations key.kind) registry = next :=
    ⟨_, rfl⟩
  have touched : next.edges key.kind = registry.edges key.kind := by
    rw [← reached]
    exact Py.Dict.getD_setDefault ..
  have first : Py.outcome (Registry.touchMigrations key.kind) registry = .ok PUnit.unit := rfl
  rw [Registry.isCriticalEdge, Py.outcome_bind, first, reached, Except.bind, Py.outcome_bind,
    Py.outcome_query, touched]
  congr 1
  funext index
  rw [Py.after_query, Py.outcome_bind, Py.outcome_query, touched]
  rfl

variable {source : Registry V} {graph : MigrationGraph V} (steps : BuildSteps hasher source graph)
  (stores : EdgeStores source)

include steps stores

/-- `is_critical_edge` agrees if both raise, at most two edges are stored, or the edge is. -/
theorem BuildSteps.isCriticalEdge_iff {key : EdgeId V} (tells : source.TellsEdge key)
    : (Py.outcome (Registry.isCriticalEdge key) source).toOption
        = (graph.isCriticalEdge key).toOption
      ↔ ¬ source.Searchable key ∨ (source.edges key.kind).length ≤ 2
        ∨ ∃ edge ∈ source.edges key.kind, edge.id = key := by
  have search : (∃ index, bisectEdges (source.edges key.kind) key = .ok index)
      ↔ source.Searchable key :=
    exists_bisectEdges (stores.sorted key.kind) (stores.comparable key.kind)
  have edges := steps.edges_eq stores key.kind
  by_cases searchable : source.Searchable key
  · obtain ⟨index, bisected⟩ := search.mpr searchable
    have scanned : indexOfEdge key (graph.edges key.kind)
        = .ok ((source.edges key.kind).findIdx? (fun edge => edge.id.cmp key == .eq)) := by
      rw [edges, indexOfEdge_of_compares (List.forall_mem_map.mpr searchable),
        List.findIdx?_map]
      rfl
    have registryAnswer : Py.outcome (Registry.isCriticalEdge key) source
        = .ok (decide (2 < (source.edges key.kind).length)) := by
      rw [outcome_isCriticalEdge, bisected]
      apply congrArg Except.ok
      rw [Bool.eq_iff_iff]
      simp only [Bool.and_eq_true, Bool.or_eq_true, decide_eq_true_eq]
      omega
    have found : ∀ edge ∈ source.edges key.kind, edge.id.cmp key = .eq ↔ edge.id = key := by
      intro edge member
      constructor
      · exact tells edge member
      · intro same
        rw [same]
        exact Std.ReflCmp.compare_self
    rw [registryAnswer, MigrationGraph.isCriticalEdge, scanned]
    cases place : (source.edges key.kind).findIdx? (fun edge => edge.id.cmp key == .eq) with
    | none =>
        have absent : ¬ ∃ edge ∈ source.edges key.kind, edge.id = key := by
          intro given
          rcases given with ⟨edge, member, same⟩
          have missing := List.findIdx?_eq_none_iff.mp place edge member
          simp [(found edge member).mpr same] at missing
        change some (decide (2 < (source.edges key.kind).length)) = some false ↔ _
        simp [searchable, absent]
    | some at_ =>
        have present : ∃ edge ∈ source.edges key.kind, edge.id = key := by
          obtain ⟨bound, equal, _⟩ := List.findIdx?_eq_some_iff_getElem.mp place
          have member := List.getElem_mem bound
          exact ⟨_, member, (found _ member).mp (by simpa using equal)⟩
        have length : (graph.edges key.kind).length = (source.edges key.kind).length := by
          rw [edges, List.length_map]
        refine ⟨fun _ => .inr (.inr present), fun _ => ?_⟩
        apply congrArg some
        rw [Bool.eq_iff_iff]
        simp only [Bool.and_eq_true, Bool.or_eq_true, decide_eq_true_eq, length]
        omega
  · refine ⟨fun _ => .inl searchable, fun _ => ?_⟩
    have registryRaises : (Py.outcome (Registry.isCriticalEdge key) source).toOption = none := by
      rw [outcome_isCriticalEdge]
      cases bisected : bisectEdges (source.edges key.kind) key with
      | ok index => exact absurd (search.mp ⟨index, bisected⟩) searchable
      | error error => rfl
    have graphRaises : (graph.isCriticalEdge key).toOption = none := by
      rw [MigrationGraph.isCriticalEdge]
      cases scanned : indexOfEdge key (graph.edges key.kind) with
      | error error => rfl
      | ok found =>
          exfalso
          apply searchable
          rw [edges] at scanned
          rcases asked_of_indexOfEdge scanned with all | ⟨pair, member, equal⟩
          · exact List.forall_mem_map.mp all
          · obtain ⟨edge, stored, rfl⟩ := List.mem_map.mp member
            intro other inStore
            exact (stores.comparable key.kind other inStore edge stored).of_eq equal
    rw [registryRaises, graphRaises]

end Critical

section Incident

omit [VersionValue V] in
theorem mem_fileEndpoint {edge pair : EdgePair V} {index : Py.Dict (NodeId V) (List (EdgePair V))}
    {endpoint node : NodeId V}
    : pair ∈ (fileEndpoint edge index endpoint).getD node []
      ↔ pair ∈ index.getD node [] ∨ (pair = edge ∧ node = endpoint) := by
  rw [fileEndpoint, Py.Dict.getD_set]
  by_cases here : node = endpoint
  · subst here
    by_cases old : edge ∈ index.getD node []
    · simp only [old, if_true]
      constructor
      · exact .inl
      · intro either
        rcases either with before | ⟨same, _⟩
        · exact before
        · exact same ▸ old
    · simp [old]
  · simp [here]

omit [VersionValue V] in
/-- The index of endpoints holds the edges under both of their ends, by induction on the edges. -/
theorem mem_endpointIndex {edges : List (EdgePair V)} {pair : EdgePair V} {node : NodeId V}
    : pair ∈ (endpointIndex edges).getD node []
      ↔ pair ∈ edges ∧ (pair.id.source = node ∨ pair.id.target = node) := by
  induction edges using List.reverseRecOn with
  | nil => simp [endpointIndex, Py.Dict.getD]
  | append_singleton edges edge ih =>
      unfold endpointIndex at ih ⊢
      rw [List.foldl_append]
      simp only [List.foldl_cons, List.foldl_nil] at ih ⊢
      rw [mem_fileEndpoint, mem_fileEndpoint, ih, List.mem_append, List.mem_singleton]
      constructor
      · intro either
        rcases either with (⟨old, ends⟩ | ⟨rfl, rfl⟩) | ⟨rfl, rfl⟩
        · exact ⟨.inl old, ends⟩
        · exact ⟨.inr rfl, .inl rfl⟩
        · exact ⟨.inr rfl, .inr rfl⟩
      · intro given
        rcases given with ⟨either, ends⟩
        rcases either with old | rfl
        · exact .inl (.inl ⟨old, ends⟩)
        · rcases ends with rfl | rfl
          · exact .inl (.inr ⟨rfl, rfl⟩)
          · exact .inr ⟨rfl, rfl⟩

variable {source : Registry V} {graph : MigrationGraph V} (steps : BuildSteps hasher source graph)
  (indexed : EdgesIndexed source)

include steps indexed

/-- Where the registry's index is exact, both list the same edges at a node. -/
theorem BuildSteps.mem_edgesOf {key : NodeId V} {pair : EdgePair V}
    : pair ∈ graph.edgesOf key ↔ ∃ edge ∈ source.edgesOf key, edge.pair = pair := by
  have listed : pair ∈ graph.edgesOf key
      ↔ pair ∈ steps.edges ∧ (pair.id.source = key ∨ pair.id.target = key) := by
    rw [MigrationGraph.edgesOf, steps.backend]
    exact mem_endpointIndex
  rw [listed, steps.mem_edges indexed.stores]
  constructor
  · intro given
    rcases given with ⟨⟨entry, member, same⟩, ends⟩
    subst same
    exact ⟨entry, (indexed.exact.incident key entry).mpr ⟨member, ends⟩, rfl⟩
  · intro given
    rcases given with ⟨entry, member, same⟩
    subst same
    obtain ⟨stored, ends⟩ := (indexed.exact.incident key entry).mp member
    exact ⟨⟨entry, stored, rfl⟩, ends⟩

theorem BuildSteps.edgesOf_ids (key : NodeId V) (id : EdgeId V)
    : id ∈ (graph.edgesOf key).map EdgePair.id ↔ id ∈ (source.edgesOf key).map EdgeEntry.id := by
  simp only [List.mem_map, steps.mem_edgesOf indexed]
  constructor
  · intro given
    rcases given with ⟨pair, ⟨edge, member, same⟩, told⟩
    exact ⟨edge, member, (congrArg EdgePair.id same).trans told⟩
  · intro given
    rcases given with ⟨edge, member, told⟩
    exact ⟨edge.pair, ⟨edge, member, rfl⟩, told⟩

theorem BuildSteps.migrationsOf_ids (key : NodeId V) (id : EdgeId V)
    : id ∈ (graph.migrationsOf key).map EdgePair.id
      ↔ id ∈ (source.migrationsOf key).map VersionEdge.id := by
  have executes : ∀ edge ∈ source.edgesOf key,
      graph.isExecutable edge.pair.id = edge.isExecutable := by
    intro edge member
    exact steps.isExecutable_eq indexed.stores ((indexed.exact.incident key edge).mp member).1
  rw [Registry.migrationsOf, ← map_id_executable]
  simp only [MigrationGraph.migrationsOf, List.mem_map, List.mem_filter,
    steps.mem_edgesOf indexed]
  constructor
  · intro given
    rcases given with ⟨pair, ⟨⟨edge, member, same⟩, executable⟩, told⟩
    subst same
    exact ⟨edge, ⟨member, (executes edge member) ▸ executable⟩, told⟩
  · intro given
    rcases given with ⟨edge, ⟨member, executable⟩, told⟩
    exact ⟨edge.pair, ⟨⟨edge, member, rfl⟩, (executes edge member).trans executable⟩, told⟩

end Incident

-----------------------------------------------------------------------------------------
-- All shared queries
-----------------------------------------------------------------------------------------

/-- Where a snapshot answers like the registry, for every query the two share. -/
structure SnapshotAnswers (registry : Registry V) (graph : MigrationGraph V) : Prop where
  findEntry : ∀ key, registry.TellsNode key →
    (registry.findEntry key = .ok (graph.findEntry key) ↔ SameStrategy registry.byVersions key)
  hasEntry : ∀ key, registry.TellsNode key →
    (registry.hasEntry key = .ok (graph.hasEntry key) ↔ SameStrategy registry.byVersions key)
  findModel : ∀ key, registry.TellsNode key →
    (registry.findModel key = .ok (graph.findModel key) ↔ SameStrategy registry.byVersions key)
  hasModel : ∀ key, registry.TellsNode key →
    (registry.hasModel key = .ok (graph.hasModel key)
      ↔ SameStrategy registry.byVersions key ∧ NodeEntry.versionKey key ∉ registry.byVersions)
  getModelByRef : ∀ ref, registry.getModelByRef ref = graph.getModelByRef ref
  kindVersions : ∀ kind, registry.kindVersions kind = graph.kindVersions kind
  latest : ∀ kind, registry.latest kind = graph.latest kind
  earliest : ∀ kind, registry.earliest kind = graph.earliest kind
  hasEdge : ∀ key, registry.TellsEdge key →
    (registry.hasEdge key = .ok (graph.hasEdge key) ↔ registry.Searchable key)
  hasMigration : ∀ key, registry.TellsEdge key →
    (registry.hasMigration key = .ok (graph.hasMigration key) ↔ registry.Searchable key)
  isAdjacent : ∀ key,
    (Py.outcome (Registry.isAdjacent key) registry = .ok (graph.isAdjacent key)
      ↔ SameStrategy (registry.kindEntries key.kind) key.source
        ∧ SameStrategy (registry.kindEntries key.kind) key.target
        ∧ registry.PlacesEndpoints key)
  isCriticalEdge : ∀ key, registry.TellsEdge key →
    ((Py.outcome (Registry.isCriticalEdge key) registry).toOption
        = (graph.isCriticalEdge key).toOption
      ↔ ¬ registry.Searchable key ∨ (registry.edges key.kind).length ≤ 2
        ∨ ∃ edge ∈ registry.edges key.kind, edge.id = key)
  edges : ∀ kind, (registry.edges kind).map EdgeEntry.id = (graph.edges kind).map EdgePair.id
  migrations : ∀ kind,
    (registry.migrationsFor kind).map VersionEdge.id = (graph.migrationsFor kind).map EdgePair.id
  edgesOf : ∀ key id,
    id ∈ (registry.edgesOf key).map EdgeEntry.id ↔ id ∈ (graph.edgesOf key).map EdgePair.id
  migrationsOf : ∀ key id,
    id ∈ (registry.migrationsOf key).map VersionEdge.id
      ↔ id ∈ (graph.migrationsOf key).map EdgePair.id

/-- After a run whose removals meet their conditions, every snapshot answers like the registry
where the two can agree.
-/
theorem ReachableBy.snapshotAnswers {config : Config V F} {registry : Registry V}
    (reached : ReachableBy (fun _ registry op => op.KeepsEdgeIndex registry)
      (fun _ _ => True) config registry)
    {revision : Option Revision} {graph : MigrationGraph V}
    (built : buildGraph hasher registry revision = .ok graph)
    : SnapshotAnswers registry graph := by
  have nodes := reached.reachable.nodeStores
  have indexed := reached.edgesIndexed
  obtain ⟨steps⟩ := buildGraph_steps nodes indexed.stores built
  exact {
    findEntry := fun key tells => steps.findEntry_iff nodes tells
    hasEntry := fun key tells => steps.map_findEntry_iff nodes tells Option.isSome
    findModel := fun key tells =>
      steps.map_findEntry_iff nodes tells (fun found => found.bind NodeEntry.node?)
    hasModel := fun key tells => steps.hasModel_iff nodes tells
    getModelByRef := fun ref => (steps.getModelByRef_eq ref).symm
    kindVersions := fun kind => (steps.kindVersions_eq nodes kind).symm
    latest := fun kind => (steps.latest_eq nodes kind).symm
    earliest := fun kind => (steps.earliest_eq nodes kind).symm
    hasEdge := fun key tells => steps.hasEdge_iff indexed.stores tells
    hasMigration := fun key tells => steps.hasMigration_iff indexed.stores tells
    isAdjacent := fun key => steps.isAdjacent_iff nodes key
    isCriticalEdge := fun key tells => steps.isCriticalEdge_iff indexed.stores tells
    edges := fun kind => by rw [steps.edges_eq indexed.stores, List.map_map]; rfl
    migrations := fun kind => (steps.migrationsFor_eq indexed.stores kind).symm
    edgesOf := fun key id => (steps.edgesOf_ids indexed key id).symm
    migrationsOf := fun key id => (steps.migrationsOf_ids indexed key id).symm
  }

/-- Witness: two releases and their edge are found in the registry and in its snapshot. -/
theorem snapshotAnswers_upgradedEdges
    : ∃ graph, buildGraph plainConfig.hasher upgradedEdges none = .ok graph
        ∧ upgradedEdges.hasModel (userId 1) = .ok (graph.hasModel (userId 1))
        ∧ upgradedEdges.hasMigration userEdge = .ok (graph.hasMigration userEdge)
        ∧ Py.outcome (Registry.isAdjacent userEdge) upgradedEdges
          = .ok (graph.isAdjacent userEdge) := by
  obtain ⟨graph, built⟩ := exists_of_isOk (show (buildGraph plainConfig.hasher upgradedEdges
    none).isOk = true from by decide +kernel)
  have reached : ReachableBy (fun _ registry op => Op.KeepsEdgeIndex registry op)
      (fun _ _ => True) plainConfig upgradedEdges :=
    .runAll (.new _ _ _ (by decide)) (by simp [Op.KeepsEdgeIndex])
  have answers := reached.snapshotAnswers built
  have nodes : upgradedEdges.byVersions
      = [.versionNode (userNode 1 "UserV1"), .versionNode (userNode 2 "UserV2")] := by
    decide +kernel
  have kindNodes : upgradedEdges.kindEntries "User"
      = [.versionNode (userNode 1 "UserV1"), .versionNode (userNode 2 "UserV2")] := by
    decide +kernel
  have edges : upgradedEdges.edges userEdge.kind
      = [.versionEdge (userMigration 1 2 "UserV1" "UserV2")] := by
    decide +kernel
  refine ⟨graph, built, (answers.hasModel _ ?_).mpr ⟨?_, ?_⟩, (answers.hasMigration _ ?_).mpr ?_,
    (answers.isAdjacent _).mpr ⟨?_, ?_, .inl ⟨?_, ?_⟩⟩⟩
  · rw [Registry.TellsNode, nodes]
    decide +kernel
  · rw [SameStrategy, nodes]
    decide +kernel
  · rw [nodes]
    decide +kernel
  · rw [Registry.TellsEdge, edges]
    decide +kernel
  · rw [Registry.Searchable, edges]
    intro edge member
    rw [List.mem_singleton.mp member]
    exact ⟨rfl, fun _ => rfl⟩
  · rw [SameStrategy, show userEdge.kind = "User" from rfl, kindNodes]
    decide +kernel
  · rw [SameStrategy, show userEdge.kind = "User" from rfl, kindNodes]
    decide +kernel
  · rw [nodes]
    decide +kernel
  · rw [nodes]
    decide +kernel

/-- A registry with the first release of `User` as a key only. -/
def keyedUser : Registry Release :=
  Registry.runAll plainConfig [.store (.versionKey (userId 1))] (Registry.new "default" false)

/-- Counterexample: the registry calls a key-only entry a model and an unregistered release its
neighbour; the snapshot does neither.
-/
theorem not_snapshotAnswers_keyedUser
    : keyedUser.hasModel (userId 1) = .ok true
      ∧ Py.outcome (Registry.isAdjacent userEdge) keyedUser = .ok true
      ∧ ∃ graph, buildGraph plainConfig.hasher keyedUser none = .ok graph
        ∧ graph.hasModel (userId 1) = false ∧ graph.isAdjacent userEdge = false := by
  have answers : (buildGraph plainConfig.hasher keyedUser none).map
      (fun graph => (graph.hasModel (userId 1), graph.isAdjacent userEdge))
      = .ok (false, false) := by
    decide +kernel
  refine ⟨by decide +kernel, by decide +kernel, ?_⟩
  cases built : buildGraph plainConfig.hasher keyedUser none with
  | error error => simp [built, Except.map] at answers
  | ok graph =>
      simp only [built, Except.map, Except.ok.injEq, Prod.mk.injEq] at answers
      exact ⟨graph, rfl, answers⟩

end Pyverge
