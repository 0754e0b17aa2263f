import Pyverge.Graph.Contents

/-! When the snapshot walk between the endpoints of a stored edge is that edge.
Registration counts positions among all entries of a kind, the walk counts them among the
hydrated ones of a later state.
-/

namespace Pyverge

variable {V F : Type} [DecidableEq V] [VersionValue V]

theorem MigrationGraph.length_walkEdges {graph : MigrationGraph V} {versions : List (VersionNode V)}
    {discriminator : String} {up : Bool} {count lo : Nat} {path : List (EdgePair V)}
    (walked : graph.walkEdges versions discriminator up count lo = .ok path)
    : path.length = count := by
  induction count generalizing lo path with
  | zero =>
      obtain rfl := Except.ok.inj walked
      rfl
  | succ count ih =>
      simp only [MigrationGraph.walkEdges] at walked
      generalize (if up = true then lo + 1 else lo - 1) = next at walked
      split at walked
      · obtain ⟨edge, _, walked⟩ := Py.ok_bind_iff.mp walked
        obtain ⟨later, rest, walked⟩ := Py.ok_bind_iff.mp walked
        obtain rfl := Except.ok.inj walked
        rw [List.length_cons, ih rest]
      · cases walked

/-- Hydrated versions of a kind are found at their places. -/
theorem MigrationGraph.positionOf_eq_some {versions : List (VersionNode V)}
    (sorted : Py.SortedBy VersionNode.id NodeId.cmp versions) {key : NodeId V} {index : Nat}
    : MigrationGraph.positionOf versions key = some index
      ↔ ∃ node, versions[index]? = some node ∧ node.id = key := by
  have injective : ∀ left ∈ versions.zipIdx, ∀ right ∈ versions.zipIdx,
      left.1.id = right.1.id → left = right := by
    rintro ⟨left, i⟩ inLeft ⟨right, j⟩ inRight same
    have atLeft := List.mem_zipIdx_iff_getElem?.mp inLeft
    have atRight := List.mem_zipIdx_iff_getElem?.mp inRight
    have below := sorted.lt_iff atLeft atRight
    have above := sorted.lt_iff atRight atLeft
    have reflexive : left.id.cmp right.id = .eq ∧ right.id.cmp left.id = .eq := by
      simp only at same
      rw [same]
      exact ⟨Std.ReflCmp.compare_self, Std.ReflCmp.compare_self⟩
    rw [reflexive.1] at below
    rw [reflexive.2] at above
    obtain rfl : i = j := by
      simp only [reduceCtorEq, false_iff, Nat.not_lt] at below above
      omega
    obtain rfl : left = right := Option.some.inj (atLeft.symm.trans atRight)
    rfl
  simp only [MigrationGraph.positionOf, Option.map_eq_some_iff, Py.Dict.get?_indexBy injective,
    Prod.exists, List.mem_zipIdx_iff_getElem?]
  constructor
  · rintro ⟨node, place, ⟨at_, same⟩, rfl⟩
    exact ⟨node, at_, same⟩
  · rintro ⟨node, at_, same⟩
    exact ⟨node, index, ⟨at_, same⟩, rfl⟩

/-- The walk takes a stored executable edge for a step between its endpoints. -/
theorem SnapshotOf.stepEdge_eq {source : Registry V} {graph : MigrationGraph V}
    (snapshot : SnapshotOf source graph) (stores : EdgeStores source) {edge : VersionEdge V}
    (stored : .versionEdge edge ∈ source.edges edge.id.kind) {current target : VersionNode V}
    (fromSource : current.id = edge.source.id) (toTarget : target.id = edge.target.id)
    : graph.stepEdge current target edge.discriminator = .ok edge.pair := by
  have inGraph : edge.pair ∈ graph.backend.edges := (snapshot.edges _).mpr ⟨_, stored, rfl⟩
  have executes : graph.isExecutable edge.pair.id = true :=
    (snapshot.executable _).mpr ⟨edge, stored, rfl⟩
  have found : graph.findEdge current.id target.id edge.discriminator = .ok edge.pair := by
    unfold MigrationGraph.findEdge
    rw [snapshot.between, fromSource, toTarget]
    cases hit : (graph.backend.edges.filter (fun other => (other.id.source, other.id.target)
        = (edge.source.id, edge.target.id))).find?
        (fun other => other.discriminator = edge.discriminator) with
    | none =>
        have miss := List.find?_eq_none.mp hit edge.pair
          (List.mem_filter.mpr ⟨inGraph, decide_eq_true rfl⟩)
        simp [VersionEdge.pair] at miss
    | some other =>
        have label : other.discriminator = edge.discriminator := by
          simpa using List.find?_some hit
        obtain ⟨member, ends⟩ := List.mem_filter.mp (List.mem_of_find?_eq_some hit)
        obtain ⟨entry, inSource, rfl⟩ := (snapshot.edges other).mp member
        obtain ⟨sources, targets⟩ := Prod.mk.inj (of_decide_eq_true ends)
        have same : entry.id = (EdgeEntry.versionEdge edge).id :=
          EdgeId.eq_of_parts sources targets label
        rw [stores.eq_of_id inSource stored same]
        rfl
  unfold MigrationGraph.stepEdge
  rw [found]
  simp [executes]

/-- A hydrated entry of the registry has the identity. -/
def Registry.HydratedAt (registry : Registry V) (key : NodeId V) : Prop :=
  ∃ node, registry.Hydrated key.kind node ∧ node.id = key

/-- Both identities are hydrated and no hydrated version of the kind lies strictly between
them. Key-only entries do not count.
-/
structure Registry.Neighbours (registry : Registry V) (source target : NodeId V) : Prop where
  hydratedSource : registry.HydratedAt source
  hydratedTarget : registry.HydratedAt target
  noneAbove : ∀ node, registry.Hydrated source.kind node →
    ¬ (source.cmp node.id = .lt ∧ node.id.cmp target = .lt)
  noneBelow : ∀ node, registry.Hydrated source.kind node →
    ¬ (target.cmp node.id = .lt ∧ node.id.cmp source = .lt)

omit [VersionValue V] in
theorem SnapshotOf.kindVersions {source : Registry V} {graph : MigrationGraph V}
    (snapshot : SnapshotOf source graph) (kind : ModelKind)
    : graph.kindVersions kind = source.kindVersions kind := by
  rw [MigrationGraph.kindVersions, snapshot.kindEntries, Registry.kindVersions]

omit [DecidableEq V] in
/-- A hydrated identity has a place among the versions of its kind. -/
theorem NodeStores.hydratedAt_iff {registry : Registry V} (stores : NodeStores registry)
    {key : NodeId V}
    : registry.HydratedAt key
      ↔ ∃ (index : Nat) (node : VersionNode V),
          (registry.kindVersions key.kind)[index]? = some node ∧ node.id = key := by
  constructor
  · rintro ⟨node, hydrated, same⟩
    obtain ⟨index, at_⟩ := List.mem_iff_getElem?.mp (stores.mem_kindVersions.mpr hydrated)
    exact ⟨index, node, at_, same⟩
  · rintro ⟨index, node, at_, same⟩
    exact ⟨node, stores.mem_kindVersions.mp (List.mem_of_getElem? at_), same⟩

omit [DecidableEq V] in
/-- Neighbours are hydrated versions at distance one: no version above the lower one and below
the other, and none the other way round since the order has no cycles.
-/
theorem NodeStores.neighbours_iff {registry : Registry V} (stores : NodeStores registry)
    {kind : ModelKind} {lo hi : Nat} {first last : VersionNode V}
    (atFirst : (registry.kindVersions kind)[lo]? = some first)
    (atLast : (registry.kindVersions kind)[hi]? = some last) (apart : lo ≠ hi)
    : registry.Neighbours first.id last.id ↔ (hi - lo) + (lo - hi) = 1 := by
  have sorted := stores.sorted_kindVersions kind
  have firstHydrated := stores.mem_kindVersions.mp (List.mem_of_getElem? atFirst)
  have lastHydrated := stores.mem_kindVersions.mp (List.mem_of_getElem? atLast)
  obtain rfl : first.id.kind = kind := firstHydrated.2
  constructor
  · intro neighbours
    rcases Nat.lt_or_gt_of_ne apart with before | after
    · have next := (sorted.succ_iff atFirst atLast before).mpr (fun node member =>
        neighbours.noneAbove node (stores.mem_kindVersions.mp member))
      omega
    · have next := (sorted.succ_iff atLast atFirst after).mpr (fun node member =>
        neighbours.noneBelow node (stores.mem_kindVersions.mp member))
      omega
  · intro distance
    refine {
      hydratedSource := ⟨first, firstHydrated, rfl⟩
      hydratedTarget := ⟨last, ⟨lastHydrated.1, rfl⟩, rfl⟩
      noneAbove := fun node hydrated strictly => ?_
      noneBelow := fun node hydrated strictly => ?_
    }
    · have before := (sorted.lt_iff atFirst atLast).mp (Std.TransCmp.lt_trans strictly.1 strictly.2)
      exact (sorted.succ_iff atFirst atLast before).mp (by omega) node
        (stores.mem_kindVersions.mpr hydrated) strictly
    · have before := (sorted.lt_iff atLast atFirst).mp (Std.TransCmp.lt_trans strictly.1 strictly.2)
      exact (sorted.succ_iff atLast atFirst before).mp (by omega) node
        (stores.mem_kindVersions.mpr hydrated) strictly

/-- The walk between the endpoints of a stored edge is that edge exactly if they are
neighbours: a walk has one edge per position it moves.
-/
theorem SnapshotOf.edgePath_eq_iff {source : Registry V} {graph : MigrationGraph V}
    (snapshot : SnapshotOf source graph) (nodeStores : NodeStores source)
    (edgeStores : EdgeStores source) {edge : VersionEdge V}
    (stored : .versionEdge edge ∈ source.edges edge.id.kind)
    (apart : edge.source.id ≠ edge.target.id)
    : graph.edgePath edge.source.id edge.target.id edge.discriminator = .ok [edge.pair]
      ↔ source.Neighbours edge.source.id edge.target.id := by
  have sorted := nodeStores.sorted_kindVersions edge.source.id.kind
  unfold MigrationGraph.edgePath
  rw [if_neg (not_not.mpr edge.sameKind)]
  simp only [snapshot.kindVersions]
  cases atSource : MigrationGraph.positionOf (source.kindVersions edge.source.id.kind)
      edge.source.id with
  | none =>
      simp only [reduceCtorEq, false_iff]
      intro neighbours
      obtain ⟨index, found⟩ := nodeStores.hydratedAt_iff.mp neighbours.hydratedSource
      simp [(MigrationGraph.positionOf_eq_some sorted).mpr found] at atSource
  | some lo =>
      cases atTarget : MigrationGraph.positionOf (source.kindVersions edge.source.id.kind)
          edge.target.id with
      | none =>
          simp only [reduceCtorEq, false_iff]
          intro neighbours
          obtain ⟨index, found⟩ := nodeStores.hydratedAt_iff.mp neighbours.hydratedTarget
          rw [← edge.sameKind] at found
          simp [(MigrationGraph.positionOf_eq_some sorted).mpr found] at atTarget
      | some hi =>
          obtain ⟨first, firstAt, isSource⟩ := (MigrationGraph.positionOf_eq_some sorted).mp atSource
          obtain ⟨last, lastAt, isTarget⟩ := (MigrationGraph.positionOf_eq_some sorted).mp atTarget
          have moved : lo ≠ hi := by
            rintro rfl
            obtain rfl := Option.some.inj (firstAt.symm.trans lastAt)
            exact apart (isSource.symm.trans isTarget)
          rw [← isSource, ← isTarget, nodeStores.neighbours_iff firstAt lastAt moved]
          constructor
          · intro walked
            simpa using (MigrationGraph.length_walkEdges walked).symm
          · intro distance
            have next : (if lo < hi then lo + 1 else lo - 1) = hi := by split <;> omega
            simp only [distance, MigrationGraph.walkEdges, decide_eq_true_eq, next, isSource,
              firstAt, lastAt, snapshot.stepEdge_eq edgeStores stored isSource isTarget]
            rfl

omit [DecidableEq V] in
/-- Versions counted as adjacent differ in precedence, since equal ones share their index. -/
theorem isAdjacent_apart {registry reached : Registry V} (stores : NodeStores registry)
    {key : EdgeId V} (adjacent : Registry.isAdjacent key registry = .ok true reached)
    : key.source.cmp key.target ≠ .eq := by
  intro equal
  have touchedStores := nodeStores_of_keeps (touchKind_keepsNodes key.kind) registry stores
  have counted := Py.modify_bind_ok.mp adjacent
  obtain ⟨source, sourceFound, counted⟩ := Py.query_bind_ok.mp counted
  obtain ⟨target, targetFound, counted⟩ := Py.query_bind_ok.mp counted
  have sorted := touchedStores.sortedKind key.kind
  have same : source = target := by
    rw [bisectNodes_of_ok sorted sourceFound, bisectNodes_of_ok sorted targetFound]
    exact Py.lowerBound_congr equal _
  subst same
  simp [Py.pure_apply] at counted

/-- A request that is reflected into an edge has endpoints of different precedence. -/
theorem reflectEdge_apart {config : Config V F} {spec : MigrationSpec V F}
    {registry reached : Registry V} (stores : NodeStores registry) {edge : VersionEdge V}
    (run : Registry.reflectEdge config spec registry = .ok edge reached)
    : edge.source.id.cmp edge.target.id ≠ .eq := by
  obtain ⟨catalog, _, run⟩ := Py.query_bind_ok.mp run
  cases port : config.reflection with
  | none => simp [port, Py.throw_apply] at run
  | some reflection =>
      simp only [port] at run
      split at run
      · simp [Py.bind_apply, Py.throw_apply] at run
      obtain ⟨⟨source, target⟩, resolved, resolve, run⟩ := Py.bind_ok.mp run
      have resolvedStores : NodeStores resolved := by
        have kept := resolveEndpoints_nodeStores config reflection spec _ stores
        rwa [Py.after_of_ok resolve] at kept
      obtain ⟨pair, paired, run⟩ := Py.query_bind_ok.mp run
      obtain ⟨adjacent, touched, adjacentRun, run⟩ := Py.bind_ok.mp run
      cases adjacent with
      | false => simp [Py.bind_apply, Py.throw_apply] at run
      | true =>
          have apart := isAdjacent_apart resolvedStores adjacentRun
          simp only [Bool.not_true, Bool.false_eq_true, if_false] at run
          obtain ⟨migration, _, run⟩ := Py.query_bind_ok.mp run
          obtain ⟨diff, _, run⟩ := Py.query_bind_ok.mp run
          split at run
          · split at run
            · obtain ⟨rfl, _⟩ := EStateM.Result.ok.inj run
              obtain ⟨sources, targets, _⟩ := EdgePair.eq_of_fromPair paired
              simpa [EdgePair.id, sources, targets, Comparable.id, NodeEntry.id] using apart
            · cases run
          · cases run

theorem eq_of_insertEdge {config : Config V F} {edge result : EdgeEntry V}
    {registry reached : Registry V}
    (run : Registry.insertEdge config edge registry = .ok result reached)
    : result = edge := by
  have returned : ∀ state, (do
      refreshHealth config.linters (affectedByEdgeChange (.stored edge))
      return edge : RegistryM V (EdgeEntry V)) state = .ok result reached → result = edge := by
    intro state run
    obtain ⟨_, _, _, run⟩ := Py.bind_ok.mp run
    exact (EStateM.Result.ok.inj run).1.symm
  obtain ⟨index, _, run⟩ := Py.query_bind_ok.mp run
  have filed := Py.modify_bind_ok.mp run
  have indexed := Py.modify_bind_ok.mp filed
  cases edge with
  | edgeKey pair => exact returned _ indexed
  | versionEdge version =>
      obtain ⟨_, _, indexed⟩ := Py.query_bind_ok.mp indexed
      split at indexed
      · obtain ⟨_, _, indexed⟩ := Py.query_bind_ok.mp indexed
        exact returned _ indexed
      · exact returned _ indexed

/-- Filing an edge returns it or the stored edge that compares equal to it. -/
theorem fileEdge_equal {config : Config V F} {edge result : EdgeEntry V}
    {registry reached : Registry V} (stores : EdgeStores registry)
    (run : Registry.fileEdge config edge registry = .ok result reached)
    : result.id.cmp edge.id = .eq := by
  have inserted : ∀ state, Registry.insertEdge config edge state = .ok result reached
      → result.id.cmp edge.id = .eq := by
    intro state run
    rw [eq_of_insertEdge run]
    exact Std.ReflCmp.compare_self
  have touched := edgeStores_of_keeps (touchMigrations_keepsPaths edge.kind) registry stores
  obtain ⟨found, search, run⟩ := Py.query_bind_ok.mp (Py.modify_bind_ok.mp run)
  have met := findEdgeIn_of_ok (touched.sorted edge.kind) search
  cases found with
  | none => exact inserted _ run
  | some existing =>
      have equal : existing.id.cmp edge.id = .eq := by
        simpa using List.find?_some met.symm
      cases edge with
      | edgeKey pair =>
          obtain ⟨rfl, _⟩ := EStateM.Result.ok.inj run
          exact equal
      | versionEdge incoming =>
          cases existing with
          | edgeKey pair =>
              obtain ⟨_, _, run⟩ := Py.query_bind_ok.mp run
              exact inserted _ run
          | versionEdge registered =>
              obtain ⟨_, _, run⟩ := Py.query_bind_ok.mp run
              obtain ⟨_, _, run⟩ := Py.query_bind_ok.mp run
              split at run
              · obtain ⟨_, _, run⟩ := Py.query_bind_ok.mp run
                simp [Py.bind_apply, Py.throw_apply] at run
              · obtain ⟨rfl, _⟩ := EStateM.Result.ok.inj run
                exact equal

/-- The edge an accepted request leads to joins two different identities. -/
theorem storeMigration_apart {config : Config V F} {spec : MigrationSpec V F}
    {registry accepted : Registry V} (nodeStores : NodeStores registry)
    (edgeStores : EdgeStores registry) {edge : VersionEdge V}
    (run : Registry.storeMigration config (.spec spec) registry = .ok (.versionEdge edge) accepted)
    : edge.source.id ≠ edge.target.id := by
  intro same
  obtain ⟨incoming, reflected, reflect, run⟩ := Py.bind_ok.mp run
  have reflectedStores : EdgeStores reflected := by
    have kept := edgeStores_of_keeps (keepsEdges_paths (reflectEdge_keepsEdges config spec))
      registry edgeStores
    rwa [Py.after_of_ok reflect] at kept
  have equal := fileEdge_equal reflectedStores run
  simp only [EdgeId.cmp, compareLex_eq_eq] at equal
  obtain ⟨sources, targets, _⟩ := equal
  have ends : edge.source.id.cmp incoming.target.id = .eq := same ▸ targets
  exact reflectEdge_apart nodeStores reflect
    (Std.TransCmp.eq_trans (Std.OrientedCmp.eq_symm sources) ends)

/-- Of an edge accepted from a request and still stored in a later state, the snapshot of that
state walks exactly this edge if and only if both its endpoints are still hydrated and no
hydrated version of the kind lies strictly between them.
-/
theorem Reachable.edgePath_accepted {config : Config V F} {before accepted later : Registry V}
    {spec : MigrationSpec V F} {edge : VersionEdge V} {graph : MigrationGraph V}
    (reached : Reachable config before)
    (stored : Registry.storeMigration config (.spec spec) before
      = .ok (.versionEdge edge) accepted)
    (continued : Continues config accepted later)
    (kept : .versionEdge edge ∈ later.edges edge.id.kind)
    (built : buildGraph config.hasher later none = .ok graph)
    : graph.edgePath edge.source.id edge.target.id edge.discriminator = .ok [edge.pair]
      ↔ later.Neighbours edge.source.id edge.target.id := by
  have apart := storeMigration_apart reached.nodeStores reached.edgeStores stored
  have acceptedReached : Reachable config accepted := by
    have step : Reachable config _ := .step (.storeMigration (.spec spec)) reached
    have ran : (Op.storeMigration (.spec spec)).run config before = .ok ⟨⟩ accepted := by
      simp only [Op.run, Py.bind_apply, stored, Py.pure_apply]
    rwa [Py.after_of_ok ran] at step
  have laterReached := acceptedReached.continues continued
  have snapshot := snapshotOf_buildGraph laterReached.nodeStores laterReached.edgeStores built
  exact snapshot.edgePath_eq_iff laterReached.nodeStores laterReached.edgeStores kept apart

/-- The first and the third release of `User`. -/
def gappedCatalog : Registry Release :=
  Py.after ((Op.store (.versionNode (userNode 3 "UserV3"))).run reflectingConfig)
    (Py.after ((Op.store (.versionNode (userNode 1 "UserV1"))).run reflectingConfig)
      (Registry.new "default" false))

/-- The two releases are adjacent, so a migration between them is accepted. -/
def joinedCatalog : Registry Release :=
  Py.after ((Op.storeMigration (.spec (userSpec 1 3))).run reflectingConfig) gappedCatalog

theorem gappedCatalog_reachable : Reachable reflectingConfig gappedCatalog :=
  .step _ (.step _ (.new reflectingConfig "default" false (by decide)))

theorem storeMigration_gappedCatalog
    : Registry.storeMigration reflectingConfig (.spec (userSpec 1 3)) gappedCatalog
      = .ok (.versionEdge (userMigration 1 3 "UserV1" "UserV3")) joinedCatalog := by
  rfl

/-- Witness: a key-only entry between the endpoints leaves the walk as it is. -/
theorem edgePath_around_key
    : let later := Py.after ((Op.store (.versionKey (userId 2))).run reflectingConfig)
        joinedCatalog;
      ∃ graph, buildGraph reflectingConfig.hasher later none = .ok graph
        ∧ graph.edgePath (userId 1) (userId 3) defaultDiscriminator
          = .ok [(userMigration 1 3 "UserV1" "UserV3").pair]
        ∧ later.Neighbours (userId 1) (userId 3) := by
  intro later
  have walked : (buildGraph reflectingConfig.hasher later none).map
      (fun graph => graph.edgePath (userId 1) (userId 3) defaultDiscriminator)
      = .ok (.ok [(userMigration 1 3 "UserV1" "UserV3").pair]) := by
    decide +kernel
  cases built : buildGraph reflectingConfig.hasher later none with
  | error error => simp [built, Except.map] at walked
  | ok graph =>
      have path : graph.edgePath (userId 1) (userId 3) defaultDiscriminator
          = .ok [(userMigration 1 3 "UserV1" "UserV3").pair] := by
        simpa [built, Except.map] using walked
      refine ⟨graph, rfl, path, ?_⟩
      exact (gappedCatalog_reachable.edgePath_accepted storeMigration_gappedCatalog
        (.step _ .refl) (by decide +kernel) built).mp path

/-- Counterexample: the second release, stored after the migration that skips it was accepted,
takes the walk apart.
-/
theorem not_edgePath_around_release
    : ¬ ∀ (config : Config Release Unit) (before accepted later : Registry Release)
        (spec : MigrationSpec Release Unit) (edge : VersionEdge Release)
        (graph : MigrationGraph Release),
        Reachable config before
        → Registry.storeMigration config (.spec spec) before = .ok (.versionEdge edge) accepted
        → Continues config accepted later
        → .versionEdge edge ∈ later.edges edge.id.kind
        → buildGraph config.hasher later none = .ok graph
        → graph.edgePath edge.source.id edge.target.id edge.discriminator = .ok [edge.pair] := by
  intro claim
  have walked : (buildGraph reflectingConfig.hasher
      (Py.after ((Op.store (.versionNode (userNode 2 "UserV2"))).run reflectingConfig)
        joinedCatalog) none).map
      (fun graph => (graph.edgePath (userId 1) (userId 3) defaultDiscriminator).toOption)
      = .ok none := by
    decide +kernel
  cases built : buildGraph reflectingConfig.hasher
      (Py.after ((Op.store (.versionNode (userNode 2 "UserV2"))).run reflectingConfig)
        joinedCatalog) none with
  | error error => simp [built, Except.map] at walked
  | ok graph =>
      have path := claim reflectingConfig gappedCatalog joinedCatalog _ (userSpec 1 3) _ graph
        gappedCatalog_reachable storeMigration_gappedCatalog (.step _ .refl) (by decide +kernel)
        built
      have none : (graph.edgePath (userId 1) (userId 3) defaultDiscriminator).toOption = none := by
        simpa [built, Except.map] using walked
      have some := congrArg Except.toOption path
      exact absurd (some.symm.trans none) (by simp [Except.toOption])

end Pyverge
