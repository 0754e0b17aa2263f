import Pyverge.Planning.Moves
import Pyverge.Runtime.PlanTable
import Pyverge.Runtime.Runner

/-! Running a payload to the latest versions.
Each step rewrites one mapping and stamps its version. Where the migrations keep the mappings
that are found below, the finds of the result are those of the payload at the latest versions,
and running the result again has nothing to do.
-/

namespace Pyverge

open Py (Json)

variable {V M F H U α : Type} [DecidableEq V] [VersionValue V]

-----------------------------------------------------------------------------------------
-- Values that keep what is found below them
-----------------------------------------------------------------------------------------

/-- The result keeps the kind of the value and, in place, every value below it in which something
is found; nothing else is found below it.
-/
structure KeepsFinds (matched : Json → Option α) (kindProperty : String) (value result : Json)
    : Prop where
  wellFormed : WellFormed result
  kind : at? [.key kindProperty] result = at? [.key kindProperty] value
  kept : ∀ path found, path ≠ [] → at? path value = some found →
    finds true matched found ≠ [] → at? path result = some found
  noneNew : ∀ path find, path ≠ [] → foundAt matched result path = some find →
    foundAt matched value path ≠ none

omit [DecidableEq V] [VersionValue V] in
/-- The same is found below both. -/
theorem KeepsFinds.foundAt {matched : Json → Option α} {kindProperty : String}
    {value result : Json} (keeps : KeepsFinds matched kindProperty value result)
    (step : PathStep) (path : Path)
    : foundAt matched result (step :: path) = foundAt matched value (step :: path) := by
  cases before : Pyverge.foundAt matched value (step :: path) with
  | some find =>
      obtain ⟨found, position, hit⟩ := Option.bind_eq_some_iff.mp before
      have something : finds true matched found ≠ [] :=
        List.ne_nil_of_mem (mem_finds_nil.mpr hit)
      have same := keeps.kept _ found (by simp) position something
      rw [Pyverge.foundAt, same, Option.bind_some, hit]
  | none =>
      cases now : Pyverge.foundAt matched result (step :: path) with
      | none => rfl
      | some find => exact (keeps.noneNew _ find (by simp) now before).elim

-----------------------------------------------------------------------------------------
-- Runners whose migrations keep what is found
-----------------------------------------------------------------------------------------

/-- The runner takes every direction and depth, its graph has an executable migration from each
hydrated version to the next, and each migration is bound to a pure function that, with the
version stamp that ends its step, keeps what is found below the mapping it is given.
-/
structure Runner.Upgrades (runner : Runner V M F H) (mode : Mode)
    (migrate : F → Json → Except Raised Json) : Prop where
  anyDirection : runner.coordinator.finder.policy.direction = .any
  noDepthLimit : runner.coordinator.finder.policy.depthLimit < 0
  complete : ∀ (kind : ModelKind) (index : Nat) (lower upper : VersionNode V),
    (runner.coordinator.finder.graph.kindVersions kind)[index]? = some lower →
    (runner.coordinator.finder.graph.kindVersions kind)[index + 1]? = some upper →
    runner.coordinator.finder.graph.Executes runner.coordinator.finder.discriminator
      lower.id upper.id
  bound : ∀ edge, runner.coordinator.finder.graph.isExecutable edge = true →
    ∃ binding, runner.coordinator.bindings.resolve edge = .ok binding
  identified : ∀ kind, ∀ node ∈ runner.coordinator.finder.graph.kindVersions kind,
    runner.identifies node.descriptor.ref = .ok true
  readsBack : ∀ kind, ∀ node ∈ runner.coordinator.finder.graph.kindVersions kind,
    VersionValue.parse (VersionValue.str node.id.version) = some node.id.version
  oneAdapter : runner.setup.versionProperty = runner.coordinator.adapter.versionProperty
  quiet : runner.setup.calls.Quiet mode
  pure : ∀ func data, runner.setup.calls.migrate func data = (migrate func data).map .plain
  keeps : ∀ edge binding, runner.coordinator.finder.graph.isExecutable edge = true →
    runner.coordinator.bindings.resolve edge = .ok binding →
    ∀ value node, WellFormed value → runner.matched value = some node → node.id = edge.source →
      ∃ migrated, migrate binding.func.call value = .ok migrated
        ∧ KeepsFinds runner.matched runner.coordinator.adapter.kindProperty value
          (stampVersion runner.coordinator.adapter.versionProperty
            (VersionValue.str edge.target.version) migrated)

/-- The latest hydrated version of the kind of a node. -/
def MigrationGraph.latestOf (graph : MigrationGraph V) (node : VersionNode V) : VersionNode V :=
  ((graph.kindVersions node.id.kind).getLast?).getD node

/-- The entry is planned along a walk to the latest version of its kind. -/
def PathFinder.ToLatest (finder : PathFinder V) (entry : ExtractedEntry V)
    (planned : PathPlanEntry V) : Prop :=
  ∃ path, finder.graph.edgePath entry.node.id (finder.graph.latestOf entry.node).id
      finder.discriminator = .ok path
    ∧ planned = entry.planned (finder.graph.latestOf entry.node) (.ofEdges path)

section Upgrading

variable {runner : Runner V M F H} {mode : Mode} {migrate : F → Json → Except Raised Json}
  {hasher : ContentHasher} {source : Registry V}

/-- A stamped mapping that has kept its kind is matched to the version of the stamp. -/
theorem Runner.Upgrades.matched_stamp (upgrades : runner.Upgrades mode migrate)
    (steps : BuildSteps hasher source runner.coordinator.finder.graph)
    (stores : NodeStores source) {value migrated : Json} {node next : VersionNode V}
    (hit : runner.matched value = some node)
    (hydrated : next ∈ runner.coordinator.finder.graph.kindVersions node.id.kind)
    (kept : at? [.key runner.coordinator.adapter.kindProperty]
        (stampVersion runner.coordinator.adapter.versionProperty
          (VersionValue.str next.id.version) migrated)
      = at? [.key runner.coordinator.adapter.kindProperty] value)
    : runner.matched (stampVersion runner.coordinator.adapter.versionProperty
        (VersionValue.str next.id.version) migrated) = some next := by
  obtain ⟨stored, own, members, text, rfl, named, _⟩ := steps.of_matchPayload stores hit
  have told : at? [.key runner.coordinator.adapter.kindProperty] (.obj members)
      = some (.str node.id.kind) := by
    simp [at?, item?, named]
  rw [told] at kept
  have readsBack := upgrades.readsBack node.id.kind next hydrated
  rw [steps.kindVersions_eq stores] at hydrated
  obtain ⟨storedNext, sameKind⟩ := stores.mem_kindVersions.mp hydrated
  have listed : ∀ other, NodeEntry.versionNode other ∈ source.byVersions →
      other.id.nameSpace ∈ runner.coordinator.finder.graph.namespaces := by
    intro other member
    refine mem_namespaces.mpr (.inl ⟨.versionNode other, ?_, rfl⟩)
    rw [steps.backend]
    exact member
  have ownNext : next.id.nameSpace = runner.coordinator.finder.graph.nameSpace :=
    (steps.oneNamespace _ (listed next storedNext) _ (listed node stored)).trans own
  cases migrated with
  | obj others =>
      refine steps.matchPayload_eq stores storedNext ownNext ?_ ?_ readsBack
      · rw [sameKind]
        simpa [stampVersion, at?, item?] using kept
      · simp [Json.getMember_setMember]
  | arr | null | bool | int | float | str => simp [stampVersion, at?, item?] at kept

/-- Running edges that lead from one version to another takes a mapping from one to the other, by
induction over the edges.
-/
theorem Runner.Upgrades.executeSteps_yields (upgrades : runner.Upgrades mode migrate)
    (steps : BuildSteps hasher source runner.coordinator.finder.graph)
    (stores : NodeStores source) (ends : EntryEnds V) (place : Path) {kind : ModelKind}
    {first last : VersionNode V} {path : List (EdgePair V)}
    (leads : runner.coordinator.finder.graph.Leads
      (runner.coordinator.finder.graph.kindVersions kind) first path last)
    (sameKind : first.id.kind = kind) (index : Nat) {migrations : List (MigrationBinding F)}
    (resolved : List.Forall₂ (fun edge binding =>
      runner.coordinator.bindings.resolve edge = .ok binding) (path.map EdgePair.id) migrations)
    {hooks : List (List (HookBinding H))} (boundHooks : hooks.length = path.length)
    {value : Json} (wellFormed : WellFormed value) (hit : runner.matched value = some first)
    : Py.Yields (fun result => WellFormed result ∧ runner.matched result = some last
        ∧ ∀ step rest, foundAt runner.matched result (step :: rest)
          = foundAt runner.matched value (step :: rest))
      (executeSteps mode runner.setup ends (ExecutionEntry.bindSteps place index
        (path.map (fun edge => (edge.source, edge.target))) (path.map EdgePair.id) migrations hooks)
        value) := by
  induction leads generalizing index migrations hooks value with
  | stay node => exact .pure ⟨wellFormed, hit, fun _ _ => rfl⟩
  | @step current next last edge rest inVersions fromCurrent toNext executes _ ih =>
      cases resolved with
      | @cons _ binding _ later own others =>
          cases hooks with
          | nil => simp at boundHooks
          | cons hook hooks =>
              obtain ⟨migrated, returned, keeps⟩ := upgrades.keeps edge.id binding executes own value
                current wellFormed hit fromCurrent.symm
              rw [toNext] at keeps
              have text : VersionValue.str edge.target.id.version
                  = VersionValue.str next.id.version :=
                congrArg (fun id => VersionValue.str (NodeId.version id)) toNext
              have stamped := upgrades.matched_stamp steps stores hit
                (sameKind.symm ▸ inVersions) keeps.kind
              have migrates : (runner.setup.calls.migrate binding.func.call value).bind
                  (mode.settle "coroutine migration requires async backend") = .ok migrated := by
                rw [upgrades.pure, returned]
                rfl
              have nextKind : next.id.kind = kind := by
                rw [steps.kindVersions_eq stores] at inVersions
                exact (stores.mem_kindVersions.mp inVersions).2
              refine .bind (runStep_yields upgrades.quiet _ ends _ _ migrates)
                (fun result same => ?_)
              subst same
              simp only [upgrades.oneAdapter, text]
              refine Py.Yields.imp (ih nextKind (index + 1) others (by simpa using boundHooks)
                keeps.wellFormed stamped) ?_
              intro result told
              refine ⟨told.1, told.2.1, fun step below => ?_⟩
              exact (told.2.2 step below).trans (keeps.foundAt step below)

/-- An entry that is walked to a version of its kind takes the mapping at it there. -/
theorem Runner.Upgrades.acts_movesRoot (upgrades : runner.Upgrades mode migrate)
    (steps : BuildSteps hasher source runner.coordinator.finder.graph)
    (snapshot : SnapshotOf source runner.coordinator.finder.graph) (stores : NodeStores source)
    {entry : ExtractedEntry V} {path : List (EdgePair V)} (move : VersionNode V → VersionNode V)
    (hydrated : entry.node ∈ runner.coordinator.finder.graph.kindVersions entry.node.id.kind)
    (target : move entry.node ∈ runner.coordinator.finder.graph.kindVersions entry.node.id.kind)
    (walked : runner.coordinator.finder.graph.edgePath entry.node.id (move entry.node).id
      runner.coordinator.finder.discriminator = .ok path)
    : MovesRoot runner.matched move entry.node
        (PathPlanEntry.acts mode runner.setup runner.coordinator.bindings
          (entry.planned (move entry.node) (.ofEdges path))) := by
  intro value wellFormed hit
  have leads := MigrationGraph.leads_of_edgePath snapshot stores hydrated target walked
  have executable : ∀ edge ∈ path.map EdgePair.id,
      ∃ binding, runner.coordinator.bindings.resolve edge = .ok binding := by
    intro edge member
    obtain ⟨pair, inPath, rfl⟩ := List.mem_map.mp member
    exact upgrades.bound _ (leads.isExecutable inPath)
  obtain ⟨bound, run⟩ := @exists_bindEntry _ _ _ _ _
    (entry.planned (move entry.node) (.ofEdges path)) executable
  obtain ⟨samePlan, hooks, resolved⟩ := bindEntry_ok run
  have boundHooks : bound.hooks.length = path.length := by
    simp [hooks, ExtractedEntry.planned, ResolvedPath.ofEdges]
  have yields := upgrades.executeSteps_yields steps stores bound.ends bound.path leads rfl 0
    resolved boundHooks wellFormed hit
  obtain ⟨result, ran, told⟩ := yields.outcome []
  refine ⟨result, ?_, told⟩
  simp only [PathPlanEntry.acts, run, Except.toOption, Option.bind_some, ExecutionEntry.outcome,
    ExecutionEntry.boundSteps, samePlan]
  exact congrArg Except.toOption ran

omit [DecidableEq V] [VersionValue V] in
/-- The latest version of the kind of a hydrated version is one of its kind. -/
theorem latestOf_spec {graph : MigrationGraph V} {node : VersionNode V}
    (hydrated : node ∈ graph.kindVersions node.id.kind)
    : graph.latest node.id.kind = .ok (graph.latestOf node)
      ∧ graph.latestOf node ∈ graph.kindVersions node.id.kind := by
  unfold MigrationGraph.latest MigrationGraph.latestOf
  cases last : (graph.kindVersions node.id.kind).getLast? with
  | none =>
      rw [List.getLast?_eq_none_iff.mp last] at hydrated
      cases hydrated
  | some latest => exact ⟨rfl, List.mem_of_getLast? last⟩

/-- Complete chains connect every version to the latest. -/
theorem Runner.Upgrades.connects_latest (upgrades : runner.Upgrades mode migrate)
    (snapshot : SnapshotOf source runner.coordinator.finder.graph) (stores : NodeStores source)
    {node : VersionNode V}
    (hydrated : node ∈ runner.coordinator.finder.graph.kindVersions node.id.kind)
    : runner.coordinator.finder.graph.Connects runner.coordinator.finder.discriminator node.id
        (runner.coordinator.finder.graph.latestOf node).id where
  upward := fun index lower upper atLower atUpper _ _ =>
    upgrades.complete node.id.kind index lower upper atLower atUpper
  downward := by
    intro index lower upper atLower atUpper fromLatest _
    have sorted : Py.SortedBy VersionNode.id NodeId.cmp
        (runner.coordinator.finder.graph.kindVersions node.id.kind) := by
      rw [snapshot.kindVersions]
      exact stores.sorted_kindVersions node.id.kind
    -- The latest version is at the last place, so nothing stands above it.
    have atLatest : (runner.coordinator.finder.graph.kindVersions node.id.kind)[
        (runner.coordinator.finder.graph.kindVersions node.id.kind).length - 1]?
        = some (runner.coordinator.finder.graph.latestOf node) := by
      rw [← List.getLast?_eq_getElem?, MigrationGraph.latestOf]
      cases last : (runner.coordinator.finder.graph.kindVersions node.id.kind).getLast? with
      | none =>
          rw [List.getLast?_eq_none_iff.mp last] at hydrated
          cases hydrated
      | some latest => rfl
    have below := (MigrationGraph.isLE_iff_le sorted atLatest atLower).mp fromLatest
    have inside := (List.getElem?_eq_some_iff.mp atUpper).1
    omega

-----------------------------------------------------------------------------------------
-- The plan of a payload
-----------------------------------------------------------------------------------------

/-- Every hydrated version is planned along a walk to the latest of its kind. -/
theorem Runner.Upgrades.exists_plan (upgrades : runner.Upgrades mode migrate)
    (steps : BuildSteps hasher source runner.coordinator.finder.graph)
    (snapshot : SnapshotOf source runner.coordinator.finder.graph) (nodeStores : NodeStores source)
    (edgeStores : EdgeStores source) {entries : List (ExtractedEntry V)}
    (hydrated : ∀ entry ∈ entries,
      entry.node ∈ runner.coordinator.finder.graph.kindVersions entry.node.id.kind)
    : ∃ plan, runner.coordinator.finder.found entries
          (latestTargetResolver runner.coordinator.finder.graph) = .ok plan
        ∧ List.Forall₂ runner.coordinator.finder.ToLatest entries plan.entries := by
  have aimed : ∀ entry ∈ entries,
      latestTargetResolver runner.coordinator.finder.graph entry.node
        = .ok (some (runner.coordinator.finder.graph.latestOf entry.node)) := by
    intro entry member
    rw [latestTargetResolver, (latestOf_spec (hydrated entry member)).1]
    rfl
  obtain ⟨plans, planned, along⟩ := PathFinder.planned_of_walks (fun entry member => by
    have own := hydrated entry member
    obtain ⟨path, walked⟩ := (MigrationGraph.exists_edgePath snapshot nodeStores own
      (latestOf_spec own).2).mpr (upgrades.connects_latest snapshot nodeStores own)
    exact ⟨_, path, aimed entry member, walked⟩)
  have walks : List.Forall₂ runner.coordinator.finder.ToLatest entries plans := by
    refine ((List.forall₂_and_left _ _).mpr ⟨aimed, along⟩).imp (fun entry plan both => ?_)
    obtain ⟨latest, target, path, resolved, walked, rfl⟩ := both
    obtain rfl := Option.some.inj (Except.ok.inj (latest.symm.trans resolved))
    exact ⟨path, walked, rfl⟩
  have kept : runner.coordinator.finder.policy.keepAll runner.coordinator.finder.graph plans
      = .ok plans := by
    refine PolicyEngine.keepAll_of_alike true (fun plan member => ?_)
    obtain ⟨entry, inEntries, path, walked, rfl⟩ := Py.exists_of_forall₂_right walks member
    have own := hydrated entry inEntries
    have hasPath := PathFinder.hasPath_of_edgePath steps snapshot nodeStores edgeStores own
      (latestOf_spec own).2 walked
    refine PolicyEngine.keeps_of_admits hasPath ?_
    simp [PolicyEngine.admits, upgrades.anyDirection, Direction.admits, PolicyEngine.admitsDepth,
      upgrades.noDepthLimit]
  refine ⟨⟨plans⟩, ?_, walks⟩
  simp only [PathFinder.found, planned, bind, Except.bind, PolicyEngine.apply, kept, Except.map]

/-- A plan along walks to the latest versions acts on what is found in the payload, and takes it
there.
-/
theorem Runner.Upgrades.rewritesFinds (upgrades : runner.Upgrades mode migrate)
    (steps : BuildSteps hasher source runner.coordinator.finder.graph)
    (snapshot : SnapshotOf source runner.coordinator.finder.graph) (stores : NodeStores source)
    {payload : Json} (wellFormed : WellFormed payload) {plan : PathPlan V}
    (walks : List.Forall₂ runner.coordinator.finder.ToLatest
      (Runner.entriesOf (finds true runner.matched payload)) plan.entries)
    (distinct : (plan.entries.map PathPlanEntry.path).Nodup)
    : RewritesFinds runner.matched runner.coordinator.finder.graph.latestOf
        (rewriting PathPlanEntry.path
          (PathPlanEntry.acts mode runner.setup runner.coordinator.bindings) plan.entries)
        payload where
  alone := by
    intro path _ nothing
    refine rewriting_of_absent (fun planned member same => ?_)
    obtain ⟨entry, inEntries, _, _, rfl⟩ := Py.exists_of_forall₂_right walks member
    obtain ⟨find, listed, rfl⟩ := List.mem_map.mp inEntries
    obtain rfl : find.1 = path := same
    rw [(mem_finds_iff_foundAt wellFormed).mp listed] at nothing
    cases nothing
  moved := by
    intro path find found
    have listed := (mem_finds_iff_foundAt wellFormed).mpr found
    obtain ⟨planned, member, edges, walked, rfl⟩ := Py.exists_of_forall₂_left walks
      (List.mem_map.mpr ⟨(path, find), listed, rfl⟩)
    obtain ⟨value, hit⟩ := matched_of_mem_finds listed
    have hydrated := steps.hydrated_of_matchPayload stores hit
    rw [show path = ((⟨path, find⟩ : ExtractedEntry V).planned _ (.ofEdges edges)).path from rfl,
      rewriting_of_mem distinct member]
    exact upgrades.acts_movesRoot steps snapshot stores _ hydrated (latestOf_spec hydrated).2 walked

omit [DecidableEq V] [VersionValue V] in
theorem Runner.checkModels_ok {entries : List (PathPlanEntry V)}
    (known : ∀ entry ∈ entries, runner.identifies entry.targetModel = .ok true)
    : runner.checkModels entries = .ok ⟨⟩ := by
  induction entries with
  | nil => rfl
  | cons entry rest ih =>
      simp only [checkModels, known entry List.mem_cons_self, Except.mapError, bind, Except.bind,
        if_true]
      exact ih (fun other member => known other (List.mem_cons_of_mem _ member))

/-- The answer to a request, put together from what its parts return. -/
theorem Runner.ran_of_plan {request : PlanRequest V M} {entries : List (ExtractedEntry V)}
    (extracted : runner.coordinator.extract request = .ok entries)
    (latest : request.target = .text "latest") {plan : PathPlan V}
    (found : runner.coordinator.finder.found entries
      (latestTargetResolver runner.coordinator.finder.graph) = .ok plan)
    {execution : ExecutionPlan V F H}
    (built : buildPlan runner.coordinator.bindings plan request.payload = .ok execution)
    (known : ∀ entry ∈ plan.entries, runner.identifies entry.targetModel = .ok true)
    {result : Json} (executed : runner.execute mode execution = .ok result)
    : runner.ran mode request = .ok result := by
  have checked := Runner.checkModels_ok known
  rw [← (buildPlan_ok built).1] at checked
  simp only [ran, planned, extracted, ExecutionCoordinator.found, latest, compile, if_true, found,
    built, checked, executed, bind, Except.bind, Except.mapError, pure, Except.pure, if_false,
    String.reduceEq]

/-- What planning a payload gives: all that is found in it, each walked to its latest version. -/
structure Runner.PlansPayload (runner : Runner V M F H) (payload : Json) (plan : PathPlan V)
    : Prop where
  found : runner.coordinator.finder.found (Runner.entriesOf (finds true runner.matched payload))
    (latestTargetResolver runner.coordinator.finder.graph) = .ok plan
  walks : List.Forall₂ runner.coordinator.finder.ToLatest
    (Runner.entriesOf (finds true runner.matched payload)) plan.entries
  distinct : (plan.entries.map PathPlanEntry.path).Nodup
  positions : ∀ entry ∈ plan.entries, IsPosition entry.path payload
  known : ∀ entry ∈ plan.entries, runner.identifies entry.targetModel = .ok true
  bound : ∀ entry ∈ plan.entries, ∀ edge ∈ entry.edges,
    ∃ binding, runner.coordinator.bindings.resolve edge = .ok binding

theorem Runner.Upgrades.exists_plansPayload (upgrades : runner.Upgrades mode migrate)
    (steps : BuildSteps hasher source runner.coordinator.finder.graph)
    (snapshot : SnapshotOf source runner.coordinator.finder.graph) (nodeStores : NodeStores source)
    (edgeStores : EdgeStores source) {payload : Json} (wellFormed : WellFormed payload)
    : ∃ plan, runner.PlansPayload payload plan := by
  have hydrated : ∀ entry ∈ Runner.entriesOf (finds true runner.matched payload),
      entry.node ∈ runner.coordinator.finder.graph.kindVersions entry.node.id.kind := by
    intro entry member
    obtain ⟨find, listed, rfl⟩ := List.mem_map.mp member
    obtain ⟨value, hit⟩ := matched_of_mem_finds listed
    exact steps.hydrated_of_matchPayload nodeStores hit
  obtain ⟨plan, found, walks⟩ :=
    upgrades.exists_plan steps snapshot nodeStores edgeStores hydrated
  have paths : (Runner.entriesOf (finds true runner.matched payload)).map ExtractedEntry.path
      = plan.entries.map PathPlanEntry.path := by
    refine Py.map_eq_map_iff.mpr (walks.imp (fun entry planned toLatest => ?_))
    obtain ⟨_, _, rfl⟩ := toLatest
    rfl
  refine ⟨plan, found, walks, ?_, ?_, ?_, ?_⟩
  · have listed : (Runner.entriesOf (finds true runner.matched payload)).map ExtractedEntry.path
        = (finds true runner.matched payload).map Prod.fst := by
      simp [Runner.entriesOf]
    rw [← paths, listed]
    exact nodup_finds wellFormed
  · intro planned member
    obtain ⟨entry, inEntries, _, _, rfl⟩ := Py.exists_of_forall₂_right walks member
    obtain ⟨find, listed, rfl⟩ := List.mem_map.mp inEntries
    obtain ⟨value, position, _⟩ :=
      Option.bind_eq_some_iff.mp ((mem_finds_iff_foundAt wellFormed).mp listed)
    exact isPosition_iff.mpr ⟨value, position⟩
  · intro planned member
    obtain ⟨entry, inEntries, _, _, rfl⟩ := Py.exists_of_forall₂_right walks member
    exact upgrades.identified _ _ (latestOf_spec (hydrated entry inEntries)).2
  · intro planned member edge inEdges
    obtain ⟨entry, inEntries, path, walked, rfl⟩ := Py.exists_of_forall₂_right walks member
    obtain ⟨pair, inPath, rfl⟩ := List.mem_map.mp inEdges
    have own := hydrated entry inEntries
    exact upgrades.bound _ ((MigrationGraph.leads_of_edgePath snapshot nodeStores own
      (latestOf_spec own).2 walked).isExecutable inPath)

/-- Running a payload takes all that is found in it to the latest versions. -/
theorem Runner.Upgrades.ran_moves (upgrades : runner.Upgrades mode migrate)
    (steps : BuildSteps hasher source runner.coordinator.finder.graph)
    (snapshot : SnapshotOf source runner.coordinator.finder.graph) (nodeStores : NodeStores source)
    (edgeStores : EdgeStores source) {request : PlanRequest V M}
    (noModel : request.sourceModel = none) (unlimited : request.maxDepth < 0)
    (latest : request.target = .text "latest") (wellFormed : WellFormed request.payload)
    : ∃ result, runner.ran mode request = .ok result
        ∧ Moves runner.matched runner.coordinator.finder.graph.latestOf request.payload result := by
  obtain ⟨plan, plans⟩ :=
    upgrades.exists_plansPayload steps snapshot nodeStores edgeStores wellFormed
  obtain ⟨execution, built⟩ := exists_buildPlan plans.bound request.payload
  have rewrites := upgrades.rewritesFinds steps snapshot nodeStores wellFormed plans.walks
    plans.distinct
  obtain ⟨result, rewritten, moves⟩ := bottomUp_moves
    (runner.coordinator.finder.graph.matchesTexts _ _) request.payload _ wellFormed rewrites
  have executed : runner.execute mode execution = .ok result := by
    have ran := toOption_executeLevels_of_buildPlan mode runner.setup built []
    rw [PathPlan.levels, runLevels_eq_bottomUp wellFormed plans.distinct plans.positions,
      rewritten] at ran
    unfold Runner.execute
    cases outcome : Py.outcome (executeLevels mode runner.setup execution.levels
        execution.payload) [] with
    | error raised => simp [outcome, Except.toOption] at ran
    | ok value => simpa [outcome, Except.toOption] using ran
  exact ⟨result, Runner.ran_of_plan (Runner.extract_of_containerless noModel unlimited) latest
    plans.found built plans.known executed, moves⟩

/-- A payload whose finds are all at the latest versions comes back unchanged. -/
theorem Runner.Upgrades.ran_unchanged (upgrades : runner.Upgrades mode migrate)
    (steps : BuildSteps hasher source runner.coordinator.finder.graph)
    (snapshot : SnapshotOf source runner.coordinator.finder.graph) (nodeStores : NodeStores source)
    (edgeStores : EdgeStores source) {request : PlanRequest V M}
    (noModel : request.sourceModel = none) (unlimited : request.maxDepth < 0)
    (latest : request.target = .text "latest") (wellFormed : WellFormed request.payload)
    (atLatest : ∀ path node, foundAt runner.matched request.payload path = some node →
      runner.coordinator.finder.graph.latestOf node = node)
    : runner.ran mode request = .ok request.payload := by
  obtain ⟨plan, plans⟩ :=
    upgrades.exists_plansPayload steps snapshot nodeStores edgeStores wellFormed
  have stands : ∀ entry ∈ plan.entries, entry.Stands := by
    intro planned member
    obtain ⟨entry, inEntries, path, walked, rfl⟩ := Py.exists_of_forall₂_right plans.walks member
    obtain ⟨find, listed, rfl⟩ := List.mem_map.mp inEntries
    have same := atLatest find.1 find.2 ((mem_finds_iff_foundAt wellFormed).mp listed)
    obtain ⟨value, hit⟩ := matched_of_mem_finds listed
    have stays := MigrationGraph.edgePath_self snapshot nodeStores
      runner.coordinator.finder.discriminator (steps.hydrated_of_matchPayload nodeStores hit)
    simp only [same] at walked ⊢
    obtain rfl := Except.ok.inj (stays.symm.trans walked)
    exact ⟨rfl, rfl, rfl⟩
  obtain ⟨execution, built, returned⟩ := (exists_execution_iff mode runner.setup
    runner.coordinator.bindings stands request.payload).mpr plans.positions
  exact Runner.ran_of_plan (Runner.extract_of_containerless noModel unlimited) latest plans.found
    built plans.known returned

end Upgrading

-----------------------------------------------------------------------------------------
-- Tables of plans
-----------------------------------------------------------------------------------------

/-- A request for the latest versions of all that is found in a payload. -/
structure PlanRequest.IsUpgrade (request : PlanRequest V M) : Prop where
  latest : request.target = .text "latest"
  noModel : request.sourceModel = none
  unlimited : request.maxDepth < 0

namespace ExecutionCoordinator

variable {coordinator : ExecutionCoordinator V M F H} {hasher : ContentHasher} {source : Registry V}

/-- The plan is what is found for every request to the latest versions with the key. -/
def LatestPlan (coordinator : ExecutionCoordinator V M F H) (key : PlanKey)
    (plan : FoundPlan V M) : Prop :=
  ∀ request entries, request.IsUpgrade → coordinator.extract request = .ok entries →
    coordinator.key request entries = some key → coordinator.found request entries = .ok plan

/-- Whatever request a plan is found for, it is right for the requests to the latest versions of
the same key: no other target has their key.
-/
theorem latestPlan_of_found (steps : BuildSteps hasher source coordinator.finder.graph)
    (stores : NodeStores source) (texts : VersionTexts V) {request : PlanRequest V M}
    {entries : List (ExtractedEntry V)} (discovered : coordinator.extract request = .ok entries)
    {key : PlanKey} (keyed : coordinator.key request entries = some key) {plan : FoundPlan V M}
    (found : coordinator.found request entries = .ok plan)
    : coordinator.LatestPlan key plan := by
  intro other others upgrade otherDiscovered otherKeyed
  obtain rfl := entries_of_key steps stores texts discovered otherDiscovered keyed otherKeyed
  obtain ⟨_, target, rfl⟩ := Option.map_eq_some_iff.mp keyed
  obtain ⟨_, otherTarget, same⟩ := Option.map_eq_some_iff.mp otherKeyed
  obtain ⟨targets, models, _⟩ := PlanKey.mk.inj same
  have aim : request.target = .text "latest" := by
    apply TargetPolicy.eq_text_of_key
    rw [target, ← upgrade.latest, otherTarget, targets]
  have model : request.sourceModel = none := by
    rw [upgrade.noModel] at models
    exact Option.map_eq_none_iff.mp models.symm
  unfold ExecutionCoordinator.found at found ⊢
  rw [upgrade.latest, upgrade.noModel, ← aim, ← model]
  exact found

/-- Whatever was planned before, the table has the right plans for requests to the latest versions,
by induction on the earlier requests.
-/
theorem planAll_latestPlan (steps : BuildSteps hasher source coordinator.finder.graph)
    (stores : NodeStores source) (texts : VersionTexts V) (size : Int)
    (earlier : List (PlanRequest V M)) {state : CoordinatorState V M}
    (remembers : coordinator.Remembers coordinator.LatestPlan size state)
    : coordinator.Remembers coordinator.LatestPlan size (coordinator.planAll state earlier) := by
  induction earlier generalizing state with
  | nil => exact remembers
  | cons request rest ih =>
      refine ih (plan_preserves ?_ state remembers)
      exact fun _ entries key plan discovered keyed found =>
        latestPlan_of_found steps stores texts discovered keyed found

end ExecutionCoordinator

/-- A request to the latest versions is answered as it is by itself, whatever was planned before. -/
theorem Runner.run_answers_of_isUpgrade {runner : Runner V M F H} {hasher : ContentHasher}
    {source : Registry V} (steps : BuildSteps hasher source runner.coordinator.finder.graph)
    (stores : NodeStores source) (texts : VersionTexts V) (size : Int) (mode : Mode)
    {request : PlanRequest V M} (upgrade : request.IsUpgrade)
    : Py.Answers (runner.coordinator.Remembers runner.coordinator.LatestPlan size)
        (runner.run mode request) (runner.ran mode request) := by
  refine Runner.run_answers_of mode (Runner.plan_answers_of ?_ ?_)
  · exact fun _ entries key plan discovered keyed right =>
      right request entries upgrade discovered keyed
  · exact fun _ entries key plan discovered keyed found =>
      ExecutionCoordinator.latestPlan_of_found steps stores texts discovered keyed found

-----------------------------------------------------------------------------------------
-- Migrations that set a member
-----------------------------------------------------------------------------------------

section Members

variable {matched : Json → Option α} {kp : String}

omit [DecidableEq V] [VersionValue V] in
theorem KeepsFinds.trans {value middle result : Json} (first : KeepsFinds matched kp value middle)
    (second : KeepsFinds matched kp middle result)
    : KeepsFinds matched kp value result where
  wellFormed := second.wellFormed
  kind := second.kind.trans first.kind
  kept := by
    intro path found below position something
    exact second.kept path found below (first.kept path found below position something) something
  noneNew := by
    intro path find below now
    obtain ⟨earlier, held⟩ := Option.ne_none_iff_exists'.mp (second.noneNew path find below now)
    exact first.noneNew path earlier below held

theorem wellFormed_setMember {members : List (String × Json)} {value : Json}
    (wellFormed : WellFormed (.obj members)) (name : String) (wellFormedValue : WellFormed value)
    : WellFormed (.obj (Json.setMember members name value)) := by
  have names : ∀ members : List (String × Json), ∀ key,
      key ∈ (Json.setMember members name value).map Prod.fst →
      key = name ∨ key ∈ members.map Prod.fst := by
    intro members
    induction members with
    | nil => simp [Json.setMember]
    | cons head rest ih =>
        intro key member
        by_cases hit : head.1 = name
        · simp only [Json.setMember, if_pos hit, List.map_cons, List.mem_cons] at member ⊢
          tauto
        · simp only [Json.setMember, if_neg hit, List.map_cons, List.mem_cons] at member ⊢
          have := ih key
          tauto
  obtain ⟨distinct, values⟩ := wellFormed
  induction members with
  | nil => simp [Json.setMember, WellFormed, WellFormedMembers, wellFormedValue]
  | cons head rest ih =>
      obtain ⟨fresh, others⟩ := List.nodup_cons.mp distinct
      by_cases hit : head.1 = name
      · simp only [Json.setMember, if_pos hit]
        refine ⟨List.nodup_cons.mpr ⟨?_, others⟩, wellFormedValue, values.2⟩
        exact hit ▸ fresh
      · obtain ⟨laterDistinct, laterValues⟩ := ih others values.2
        simp only [Json.setMember, if_neg hit]
        refine ⟨List.nodup_cons.mpr ⟨?_, laterDistinct⟩, values.1, laterValues⟩
        intro member
        rcases names rest head.1 member with same | old
        · exact hit same
        · exact fresh old

omit [DecidableEq V] [VersionValue V] in
/-- Nothing is found below a value in which nothing is found. -/
theorem finds_at?_eq_nil {value found : Json} (wellFormed : WellFormed value)
    (nothing : finds true matched value = []) {path : Path}
    (position : at? path value = some found)
    : finds true matched found = [] := by
  rw [List.eq_nil_iff_forall_not_mem]
  intro find member
  have inside := (mem_finds_iff_foundAt (wellFormed.at? position)).mp member
  have whole : foundAt matched value (path ++ find.1) = some find.2 := by
    rw [foundAt, at?_append, position]
    exact inside
  have listed := (mem_finds_iff_foundAt wellFormed).mpr whole
  rw [nothing] at listed
  cases listed

omit [DecidableEq V] [VersionValue V] in
/-- Setting a member that is not the kind keeps what is found, if nothing is found in the member
before and after.
-/
theorem keepsFinds_setMember {members : List (String × Json)}
    (wellFormed : WellFormed (.obj members)) {name : String} {value : Json} (other : name ≠ kp)
    (wellFormedValue : WellFormed value)
    (before : ∀ old, Json.getMember members name = some old → finds true matched old = [])
    (after : finds true matched value = [])
    : KeepsFinds matched kp (.obj members) (.obj (Json.setMember members name value)) where
  wellFormed := wellFormed_setMember wellFormed name wellFormedValue
  kind := by simp [at?, item?, Json.getMember_setMember, other]
  kept := by
    intro path found below position something
    cases path with
    | nil => exact (below rfl).elim
    | cons step rest =>
        obtain ⟨child, here, inner⟩ := Option.bind_eq_some_iff.mp position
        cases step with
        | index place => cases here
        | key key =>
            by_cases hit : name = key
            · subst hit
              exact (something (finds_at?_eq_nil (wellFormed.item here) (before child here)
                inner)).elim
            · have held : Json.getMember members key = some child := here
              simp [at?, item?, Json.getMember_setMember, hit, held, inner]
  noneNew := by
    intro path find below now
    cases path with
    | nil => exact (below rfl).elim
    | cons step rest =>
        rw [foundAt_cons] at now ⊢
        cases step with
        | index place => cases now
        | key key =>
            simp only [item?, Json.getMember_setMember] at now ⊢
            by_cases hit : name = key
            · rw [if_pos hit, Option.bind_some] at now
              have listed := (mem_finds_iff_foundAt wellFormedValue).mpr now
              rw [after] at listed
              cases listed
            · rw [if_neg hit] at now
              rw [now]
              exact Option.some_ne_none _

end Members

-----------------------------------------------------------------------------------------
-- Upgrading a payload
-----------------------------------------------------------------------------------------

/-- The result of a run has entries at the same paths as its payload, each at the latest hydrated
version of its kind.
-/
def ExecutionCoordinator.Upgraded (coordinator : ExecutionCoordinator V M F H)
    (request : PlanRequest V M) (result : Json) : Prop :=
  ∃ before after, coordinator.extract request = .ok before
    ∧ coordinator.extract { request with payload := result } = .ok after
    ∧ ∀ entry, entry ∈ after ↔ ∃ old ∈ before, old.path = entry.path
        ∧ coordinator.finder.graph.latest old.node.id.kind = .ok entry.node

/-- Where the finds of the result are those of the payload at their latest versions, so are the
entries.
-/
theorem Runner.upgraded_of_moves {runner : Runner V M F H} {hasher : ContentHasher}
    {source : Registry V} (steps : BuildSteps hasher source runner.coordinator.finder.graph)
    (stores : NodeStores source) {request : PlanRequest V M} (upgrade : request.IsUpgrade)
    (wellFormed : WellFormed request.payload) {result : Json}
    (moves : Moves runner.matched runner.coordinator.finder.graph.latestOf request.payload result)
    : runner.coordinator.Upgraded request result := by
  refine ⟨_, _, Runner.extract_of_containerless upgrade.noModel upgrade.unlimited,
    @Runner.extract_of_containerless _ _ _ _ _ _ _ { request with payload := result }
      upgrade.noModel upgrade.unlimited, ?_⟩
  have latest : ∀ path node, foundAt runner.matched request.payload path = some node →
      runner.coordinator.finder.graph.latest node.id.kind
        = .ok (runner.coordinator.finder.graph.latestOf node) := by
    intro path node found
    obtain ⟨value, _, hit⟩ := Option.bind_eq_some_iff.mp found
    exact (latestOf_spec (steps.hydrated_of_matchPayload stores hit)).1
  intro entry
  constructor
  · intro member
    obtain ⟨⟨path, node⟩, listed, rfl⟩ := List.mem_map.mp member
    have now := (mem_finds_iff_foundAt moves.wellFormed).mp listed
    rw [moves.found] at now
    obtain ⟨old, before, rfl⟩ := Option.map_eq_some_iff.mp now
    refine ⟨⟨path, old⟩, List.mem_map.mpr ⟨(path, old), ?_, rfl⟩, rfl, latest path old before⟩
    exact (mem_finds_iff_foundAt wellFormed).mpr before
  · intro given
    obtain ⟨old, member, samePath, isLatest⟩ := given
    obtain ⟨⟨path, node⟩, listed, rfl⟩ := List.mem_map.mp member
    have before := (mem_finds_iff_foundAt wellFormed).mp listed
    obtain ⟨place, target⟩ := entry
    obtain rfl : path = place := samePath
    obtain rfl := Except.ok.inj ((latest path node before).symm.trans isLatest)
    refine List.mem_map.mpr ⟨(path, runner.coordinator.finder.graph.latestOf node),
      (mem_finds_iff_foundAt moves.wellFormed).mpr ?_, rfl⟩
    rw [moves.found, before, Option.map_some]

/-- The latest version of a kind is its own latest version. -/
theorem BuildSteps.latestOf_latestOf {hasher : ContentHasher} {source : Registry V}
    {graph : MigrationGraph V} (steps : BuildSteps hasher source graph) (stores : NodeStores source)
    {node : VersionNode V} (hydrated : node ∈ graph.kindVersions node.id.kind)
    : graph.latestOf (graph.latestOf node) = graph.latestOf node := by
  have latest := latestOf_spec hydrated
  have sameKind : (graph.latestOf node).id.kind = node.id.kind := by
    have member := latest.2
    rw [steps.kindVersions_eq stores] at member
    exact (stores.mem_kindVersions.mp member).2
  have again := latestOf_spec (sameKind.symm ▸ latest.2)
  rw [sameKind] at again
  exact Except.ok.inj (again.1.symm.trans latest.1)

/-- Over a graph with complete chains and with migrations that keep what is found below, running a
payload to the latest versions returns a payload with the same paths at the latest versions, and
running that again returns it unchanged. It does not matter what was planned before.
-/
theorem Reachable.run_upgrades {config : Config V U} {source : Registry V}
    (reached : Reachable config source) {hasher : ContentHasher} {revision : Option Revision}
    {runner : Runner V M F H}
    (built : buildGraph hasher source revision = .ok runner.coordinator.finder.graph)
    (texts : VersionTexts V) {mode : Mode} {migrate : F → Json → Except Raised Json}
    (upgrades : runner.Upgrades mode migrate) {request : PlanRequest V M}
    (upgrade : request.IsUpgrade) (wellFormed : WellFormed request.payload) (size : Int)
    (earlier : List (PlanRequest V M))
    : let state := runner.coordinator.planAll (ExecutionCoordinator.start size) earlier;
      ∃ result, Py.outcome (runner.run mode request) state = .ok result
        ∧ runner.coordinator.Upgraded request result
        ∧ Py.outcome (runner.run mode { request with payload := result })
            (Py.after (runner.run mode request) state) = .ok result := by
  intro state
  have nodeStores := reached.nodeStores
  have edgeStores := reached.edgeStores
  have snapshot := snapshotOf_buildGraph nodeStores edgeStores built
  obtain ⟨steps⟩ := buildGraph_steps nodeStores edgeStores built
  have remembers : runner.coordinator.Remembers runner.coordinator.LatestPlan size state := by
    refine ExecutionCoordinator.planAll_latestPlan steps nodeStores texts size earlier ?_
    exact ⟨(@PathFinder.CacheReached.empty V _ _ runner.coordinator.finder).valid, rfl,
      fun _ => Py.Lru.holds_new size⟩
  obtain ⟨result, ran, moves⟩ := upgrades.ran_moves steps snapshot nodeStores edgeStores
    upgrade.noModel upgrade.unlimited upgrade.latest wellFormed
  obtain ⟨answered, kept⟩ :=
    Runner.run_answers_of_isUpgrade steps nodeStores texts size mode upgrade state remembers
  have again : PlanRequest.IsUpgrade { request with payload := result } :=
    ⟨upgrade.latest, upgrade.noModel, upgrade.unlimited⟩
  have unchanged := upgrades.ran_unchanged steps snapshot nodeStores edgeStores again.noModel
    again.unlimited again.latest moves.wellFormed (by
      intro path node found
      rw [moves.found] at found
      obtain ⟨old, before, rfl⟩ := Option.map_eq_some_iff.mp found
      obtain ⟨value, _, hit⟩ := Option.bind_eq_some_iff.mp before
      exact steps.latestOf_latestOf nodeStores (steps.hydrated_of_matchPayload nodeStores hit))
  refine ⟨result, answered.trans ran, ?_, ?_⟩
  · exact Runner.upgraded_of_moves steps nodeStores upgrade wellFormed moves
  · exact (Runner.run_answers_of_isUpgrade steps nodeStores texts size mode again _ kept).1.trans
      unchanged

/-- A hydrated release of `User` over semantic versions. -/
def semverNode (major : Nat) : VersionNode Version :=
  ⟨semverUser major, ⟨⟨"app", "User"⟩, ∅⟩⟩

/-- An executable migration between the first two releases. -/
def semverMigration : VersionEdge Version where
  source := semverNode 1
  target := semverNode 2
  discriminator := defaultDiscriminator
  ref := ⟨"callable", "upgrade"⟩
  diff := {
    source := semverNode 1
    target := .versioned (.versionNode (semverNode 2))
    fields := ∅
    origin := .schema
  }
  migration := ⟨"callable", "upgrade"⟩
  named := userEdge.named
  sameNamespace := userEdge.sameNamespace
  sameKind := userEdge.sameKind

/-- Two releases of `User` and the migration between them. -/
def upgradableUsers : Registry Version :=
  Registry.runAll versionConfig
    [.store (.versionNode (semverNode 1)), .store (.versionNode (semverNode 2)),
      .storeMigration (.edge (.versionEdge semverMigration))]
    (Registry.new "default" false)

theorem reachable_upgradableUsers : Reachable versionConfig upgradableUsers := by
  have reached : ReachableBy (fun _ _ _ => True) (fun _ _ => True) versionConfig upgradableUsers :=
    .runAll (.new _ _ _ (semverUser 1).named) (fun _ _ _ => trivial)
  exact reached.reachable

/-- Mark a mapping as migrated, unless it has the mark. -/
def markMigrated (_ : Unit) : Json → Except Raised Json
  | .obj members =>
      .ok (.obj (if (Json.getMember members "migrated").isSome then members
        else Json.setMember members "migrated" (.bool true)))
  | value => .ok value

/-- A runner with the migration of `User` bound. -/
def upgradingRunner (graph : MigrationGraph Version) : Runner Version Unit Unit Unit where
  coordinator := { versionCoordinator graph with
    bindings := {
      name := "bindings"
      migrations := (∅ : Py.Dict _ _).set semverMigration.id
        ⟨⟨(), some "mark", none, none, none, none, none⟩, ⟨"callable", "app.mark"⟩, "mark"⟩
      hooksByEdge := ∅
    } }
  identifies := fun _ => .ok true
  setup := ⟨⟨false, false⟩, .ofPure markMigrated, "version"⟩

/-- A user with a friend, both at the first release. -/
def userWithFriend : PlanRequest Version Unit where
  payload := .obj [("kind", .str "User"), ("version", .str "1.0.0"),
    ("friend", .obj [("kind", .str "User"), ("version", .str "1.0.0")])]
  target := .text "latest"
  sourceModel := none
  maxDepth := -1

/-- Marking a user and stamping its version keeps what is found below it. -/
theorem markMigrated_keepsFinds {graph : MigrationGraph Version} {value : Json}
    {node : VersionNode Version} (wellFormed : WellFormed value)
    (hit : (upgradingRunner graph).matched value = some node) (text : String)
    : ∃ migrated, markMigrated () value = .ok migrated
        ∧ KeepsFinds (upgradingRunner graph).matched "kind" value
          (stampVersion "version" text migrated) := by
  obtain ⟨members, rfl⟩ := (graph.matchesTexts "kind" "version").mapping _ _ hit
  have scalar : ∀ text, finds true (upgradingRunner graph).matched (.str text) = [] := fun _ => rfl
  have versioned : ∀ old, Json.getMember members "version" = some old →
      finds true (upgradingRunner graph).matched old = [] := by
    intro old held
    cases told : (Json.getMember members "version").bind textOf with
    | none =>
        have missed := @MigrationGraph.matchPayload_eq_none _ _ _ graph "kind" _ _ (.inr told)
        cases hit.symm.trans missed
    | some stamp =>
        obtain rfl := Option.some.inj (held.symm.trans (bind_textOf_eq_some.mp told))
        exact scalar stamp
  refine ⟨_, rfl, ?_⟩
  split
  case isTrue => exact keepsFinds_setMember wellFormed (by decide) trivial versioned (scalar text)
  case isFalse unmarked =>
    have mark : KeepsFinds (upgradingRunner graph).matched "kind" (.obj members)
        (.obj (Json.setMember members "migrated" (.bool true))) := by
      refine keepsFinds_setMember wellFormed (by decide) trivial ?_ rfl
      intro old held
      simp [held] at unmarked
    refine mark.trans (keepsFinds_setMember mark.wellFormed (by decide) trivial ?_ (scalar text))
    intro old held
    rw [Json.getMember_setMember, if_neg (by decide)] at held
    exact versioned old held

theorem upgradingRunner_upgrades {graph : MigrationGraph Version}
    (built : buildGraph plainConfig.hasher upgradableUsers none = .ok graph)
    : (upgradingRunner graph).Upgrades .sync markMigrated := by
  have reached := reachable_upgradableUsers
  have snapshot := snapshotOf_buildGraph reached.nodeStores reached.edgeStores built
  have shown : (buildGraph plainConfig.hasher upgradableUsers none).map (fun graph =>
      (graph.kindVersions "User", graph.backend.edges, graph.backend.executableEdgeIds))
      = .ok ([semverNode 1, semverNode 2], [semverMigration.pair], [semverMigration.id]) := by
    decide +kernel
  have nodes : upgradableUsers.byVersions
      = [.versionNode (semverNode 1), .versionNode (semverNode 2)] := by
    decide +kernel
  simp only [built, Except.map, Except.ok.injEq, Prod.mk.injEq] at shown
  obtain ⟨versions, edges, executable⟩ := shown
  have executes : ∀ edge, graph.isExecutable edge = true → edge = semverMigration.id := by
    intro edge holds
    simpa [MigrationGraph.isExecutable, executable] using holds
  have listed : ∀ kind, ∀ node ∈ graph.kindVersions kind,
      kind = "User" ∧ (node = semverNode 1 ∨ node = semverNode 2) := by
    intro kind node member
    rw [snapshot.kindVersions] at member
    obtain ⟨stored, rfl⟩ := reached.nodeStores.mem_kindVersions.mp member
    rw [nodes] at stored
    simp only [List.mem_cons, NodeEntry.versionNode.injEq, List.not_mem_nil, or_false] at stored
    rcases stored with rfl | rfl
    · exact ⟨rfl, .inl rfl⟩
    · exact ⟨rfl, .inr rfl⟩
  exact {
    anyDirection := rfl
    noDepthLimit := show (-1 : Int) < 0 from by decide
    complete := by
      intro kind index lower upper atLower atUpper
      obtain ⟨rfl, _⟩ := listed kind lower (List.mem_of_getElem? atLower)
      have both : graph.kindVersions "User" = [semverNode 1, semverNode 2] := versions
      change (graph.kindVersions "User")[index]? = some lower at atLower
      change (graph.kindVersions "User")[index + 1]? = some upper at atUpper
      rw [both] at atLower atUpper
      obtain rfl : index = 0 := by
        have inside := (List.getElem?_eq_some_iff.mp atUpper).1
        simp only [List.length_cons, List.length_nil] at inside
        omega
      obtain rfl := Option.some.inj atLower
      obtain rfl := Option.some.inj atUpper
      refine ⟨semverMigration.pair, ?_, rfl, rfl, rfl, ?_⟩
      · change semverMigration.pair ∈ graph.backend.edges
        rw [edges]
        exact List.mem_singleton_self _
      · change graph.isExecutable semverMigration.id = true
        simp [MigrationGraph.isExecutable, executable]
    bound := by
      intro edge holds
      obtain rfl := executes edge holds
      exact ⟨_, rfl⟩
    identified := fun _ _ _ => rfl
    readsBack := by
      intro kind node member
      rcases (listed kind node member).2 with rfl | rfl
      · decide +kernel
      · decide +kernel
    oneAdapter := rfl
    quiet := {
      before := fun _ _ _ => ⟨_, _, rfl, rfl, trivial⟩
      after := fun _ _ _ _ => ⟨_, rfl, rfl⟩
    }
    pure := fun _ _ => rfl
    keeps := by
      intro edge binding holds resolved value node wellFormed hit _
      exact markMigrated_keepsFinds wellFormed hit _
  }

/-- Witness: a user and the friend inside of it are both taken to the second release. -/
theorem run_upgrades_userWithFriend
    : ∃ graph, buildGraph plainConfig.hasher upgradableUsers none = .ok graph
        ∧ ∃ result, Py.outcome ((upgradingRunner graph).run .sync userWithFriend)
            (ExecutionCoordinator.start 0) = .ok result
          ∧ (upgradingRunner graph).coordinator.Upgraded userWithFriend result
          ∧ Py.outcome ((upgradingRunner graph).run .sync { userWithFriend with payload := result })
              (Py.after ((upgradingRunner graph).run .sync userWithFriend)
                (ExecutionCoordinator.start 0)) = .ok result := by
  obtain ⟨graph, built⟩ := exists_of_isOk (show (buildGraph plainConfig.hasher upgradableUsers
    none).isOk = true from by decide +kernel)
  refine ⟨graph, built, ?_⟩
  refine Reachable.run_upgrades reachable_upgradableUsers built versionTexts
    (upgradingRunner_upgrades built) ⟨rfl, rfl, by decide⟩ ?_ 0 []
  simp [userWithFriend, WellFormed, WellFormedMembers]

end Pyverge
