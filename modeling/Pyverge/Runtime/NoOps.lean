import Pyverge.Planning.MissingPaths
import Pyverge.Runtime.Coordinator
import Pyverge.Runtime.Nested

/-! Entries that are at their targets already.
Such an entry has no steps. The direction policies compare strictly, so all but one of them
reject it.
-/

namespace Pyverge

open Py (Json)

variable {V M F H U : Type} [DecidableEq V] [VersionValue V]

-----------------------------------------------------------------------------------------
-- Discovered nodes
-----------------------------------------------------------------------------------------

/-- What a mapping is matched to is a hydrated version of the graph. -/
theorem BuildSteps.hydrated_of_matchPayload {hasher : ContentHasher} {source : Registry V}
    {graph : MigrationGraph V} (steps : BuildSteps hasher source graph)
    (stores : NodeStores source) {kp vp : String} {value : Json} {node : VersionNode V}
    (hit : graph.matchPayload kp vp value = some node)
    : node ∈ graph.kindVersions node.id.kind := by
  obtain ⟨stored, _⟩ := steps.of_matchPayload stores hit
  rw [steps.kindVersions_eq stores]
  exact stores.mem_kindVersions.mpr ⟨stored, rfl⟩

namespace ExecutionCoordinator

variable {coordinator : ExecutionCoordinator V M F H}

/-- Discovered entries are hydrated versions of the graph. -/
theorem hydrated_of_extract {hasher : ContentHasher} {source : Registry V}
    (steps : BuildSteps hasher source coordinator.finder.graph) (stores : NodeStores source)
    {request : PlanRequest V M} {entries : List (ExtractedEntry V)}
    (discovered : coordinator.extract request = .ok entries)
    : ∀ entry ∈ entries, entry.node ∈ coordinator.finder.graph.kindVersions entry.node.id.kind := by
  intro entry member
  unfold extract at discovered
  cases extracted : Pyverge.extract coordinator.finder.graph coordinator.adapter
      coordinator.validation request.payload request.sourceModel request.maxDepth with
  | error error => simp [extracted, Except.map, Except.mapError] at discovered
  | ok yields =>
      rw [extracted] at discovered
      obtain rfl := Except.ok.inj discovered
      obtain ⟨found, discovers, rfl⟩ := extract_of_ok extracted
      obtain ⟨yielded, inYields, rfl⟩ := List.mem_map.mp member
      obtain ⟨find, listed, rfl⟩ := List.mem_map.mp inYields
      obtain ⟨value, hit⟩ := discovers.matched find listed
      exact steps.hydrated_of_matchPayload stores hit

end ExecutionCoordinator

-----------------------------------------------------------------------------------------
-- Standing entries
-----------------------------------------------------------------------------------------

/-- Each entry has no target, or is at it. -/
def AtTargets (resolver : TargetResolver V) (entries : List (ExtractedEntry V)) : Prop :=
  ∀ entry ∈ entries, resolver entry.node = .ok none
    ∨ ∃ target, resolver entry.node = .ok (some target) ∧ target.id = entry.node.id

/-- The entry has a target. -/
def Aimed (resolver : TargetResolver V) (entry : ExtractedEntry V) : Prop :=
  ∃ target, resolver entry.node = .ok (some target)

/-- The plan entry of an entry that is at its target. -/
def ExtractedEntry.standing (resolver : TargetResolver V) (entry : ExtractedEntry V)
    : Option (PathPlanEntry V) :=
  match resolver entry.node with
  | .ok (some target) => some (entry.planned target (.ofEdges []))
  | _ => none

/-- A plan entry without steps between equal identities. -/
structure PathPlanEntry.Stands (entry : PathPlanEntry V) : Prop where
  same : entry.source.id = entry.target.id
  noSteps : entry.steps = []
  noEdges : entry.edges = []

/-- The walk from a hydrated version to itself has no edges. -/
theorem MigrationGraph.edgePath_self {source : Registry V} {graph : MigrationGraph V}
    (snapshot : SnapshotOf source graph) (stores : NodeStores source) (discriminator : String)
    {node : VersionNode V} (hydrated : node ∈ graph.kindVersions node.id.kind)
    : graph.edgePath node.id node.id discriminator = .ok [] := by
  obtain ⟨lo, hi, atFirst, atLast, walk⟩ :=
    edgePath_eq_walkEdges snapshot stores discriminator hydrated hydrated
  have sorted : Py.SortedBy VersionNode.id NodeId.cmp (graph.kindVersions node.id.kind) := by
    rw [snapshot.kindVersions]
    exact stores.sorted_kindVersions node.id.kind
  have equal : node.id.cmp node.id = .eq := Std.ReflCmp.compare_self
  have reflexive : (node.id.cmp node.id).isLE := by
    rw [equal]
    rfl
  have below := (isLE_iff_le sorted atFirst atLast).mp reflexive
  have above := (isLE_iff_le sorted atLast atFirst).mp reflexive
  obtain rfl : lo = hi := Nat.le_antisymm below above
  rw [walk, Nat.sub_self]
  rfl

/-- The plan of entries at their targets has those with a target, without steps. -/
theorem PathFinder.planned_standing {finder : PathFinder V} {source : Registry V}
    (snapshot : SnapshotOf source finder.graph) (stores : NodeStores source)
    {entries : List (ExtractedEntry V)} {resolver : TargetResolver V}
    (hydrated : ∀ entry ∈ entries, entry.node ∈ finder.graph.kindVersions entry.node.id.kind)
    (atTargets : AtTargets resolver entries)
    : finder.planned resolver entries
      = .ok (entries.filterMap (ExtractedEntry.standing resolver)) := by
  induction entries with
  | nil => rfl
  | cons entry rest ih =>
      have later := ih (fun other member => hydrated other (List.mem_cons_of_mem _ member))
        (fun other member => atTargets other (List.mem_cons_of_mem _ member))
      rcases atTargets entry List.mem_cons_self with skipped | ⟨target, aimed, same⟩
      · have nothing : entry.standing resolver = none := by
          simp only [ExtractedEntry.standing, skipped]
        rw [List.filterMap_cons_none nothing, ← later]
        simp only [planned, skipped, bind, Except.bind]
      · have stands : entry.standing resolver = some (entry.planned target (.ofEdges [])) := by
          simp only [ExtractedEntry.standing, aimed]
        have walked := MigrationGraph.edgePath_self snapshot stores finder.discriminator
          (hydrated entry List.mem_cons_self)
        rw [List.filterMap_cons_some stands]
        simp only [planned, aimed, resolved, same, walked, later, bind, Except.bind, Except.map]
        rfl

omit [DecidableEq V] [VersionValue V] in
theorem stands_of_standing {entries : List (ExtractedEntry V)} {resolver : TargetResolver V}
    (atTargets : AtTargets resolver entries)
    : ∀ result ∈ entries.filterMap (ExtractedEntry.standing resolver), result.Stands := by
  intro result member
  obtain ⟨entry, inEntries, stands⟩ := List.mem_filterMap.mp member
  rcases atTargets entry inEntries with skipped | ⟨target, aimed, same⟩
  · simp [ExtractedEntry.standing, skipped] at stands
  · simp only [ExtractedEntry.standing, aimed, Option.some.injEq] at stands
    subst stands
    exact ⟨same.symm, rfl, rfl⟩

namespace PolicyEngine

variable {engine : PolicyEngine} {graph : MigrationGraph V}

/-- Only the policy that allows every direction keeps a standing entry. -/
theorem keeps_standing {entry : PathPlanEntry V} (stands : entry.Stands)
    : (engine.direction = .any → engine.keeps graph entry = .ok true)
      ∧ (engine.direction ≠ .any → ∃ message, engine.keeps graph entry
          = violation graph "direction" message engine.onDirectionViolation) := by
  have equal : entry.source.id.cmp entry.target.id = .eq := by
    rw [stands.same]
    exact Std.ReflCmp.compare_self
  have hasPath : entry.HasPath graph := {
    strategy := by rw [stands.same]
    moves := .inl equal
    executable := by simp [stands.noEdges]
  }
  constructor
  · intro any
    refine keeps_of_admits hasPath ?_
    simp only [admits, any, Direction.admits, Bool.true_and, admitsDepth, stands.noSteps,
      List.length_nil, Bool.or_eq_true, decide_eq_true_eq]
    omega
  · intro strict
    have refused : engine.direction.admits entry.source.id entry.target.id = false := by
      cases direction : engine.direction with
      | any => exact (strict direction).elim
      | forward => simp [Direction.admits, equal]
      | backward => simp [Direction.admits, equal]
    unfold keeps
    simp only [Direction.allows_eq hasPath.strategy, refused, bind, Except.bind, Bool.not_false,
      if_true]
    exact ⟨_, rfl⟩

/-- Entries that are treated alike are all kept or all dropped. -/
theorem keepAll_of_alike {entries : List (PathPlanEntry V)} (kept : Bool)
    (alike : ∀ entry ∈ entries, engine.keeps graph entry = .ok kept)
    : engine.keepAll graph entries = .ok (if kept then entries else []) := by
  induction entries with
  | nil => cases kept <;> rfl
  | cons entry rest ih =>
      have later := ih (fun other member => alike other (List.mem_cons_of_mem _ member))
      simp only [keepAll, alike entry List.mem_cons_self, later, bind, Except.bind]
      cases kept <;> rfl

/-- What the policies make of standing entries. -/
theorem keepAll_standing {entries : List (PathPlanEntry V)}
    (stands : ∀ entry ∈ entries, entry.Stands)
    : (engine.direction = .any → engine.keepAll graph entries = .ok entries)
      ∧ (engine.direction ≠ .any → engine.onDirectionViolation = .skip →
          engine.keepAll graph entries = .ok [])
      ∧ (engine.direction ≠ .any → engine.onDirectionViolation = .raise → entries ≠ [] →
          ∃ error, engine.keepAll graph entries = .error error) := by
  refine ⟨?_, ?_, ?_⟩
  · intro any
    exact keepAll_of_alike true (fun entry member => (keeps_standing (stands entry member)).1 any)
  · intro strict skips
    refine keepAll_of_alike false (fun entry member => ?_)
    obtain ⟨message, refused⟩ := (@keeps_standing _ _ _ _ graph _ (stands entry member)).2 strict
    rw [refused, skips]
    rfl
  · intro strict raises nonempty
    cases entries with
    | nil => exact (nonempty rfl).elim
    | cons entry rest =>
        obtain ⟨message, refused⟩ :=
          (@keeps_standing _ _ _ _ graph _ (stands entry List.mem_cons_self)).2 strict
        refine ⟨.catalogError graph.nameSpace ("direction" ++ " policy: " ++ message), ?_⟩
        simp only [keepAll, refused, raises, violation, bind, Except.bind]

end PolicyEngine

-----------------------------------------------------------------------------------------
-- Running standing entries
-----------------------------------------------------------------------------------------

/-- Running a plan without steps returns its payload exactly if its entries are positions of it. -/
theorem executeLevels_standing (mode : Mode) (setup : RunSetup V F H)
    {bindings : MigrationBindings V F H} {plan : PathPlan V} {payload : Json}
    {execution : ExecutionPlan V F H} (built : buildPlan bindings plan payload = .ok execution)
    (noSteps : ∀ entry ∈ plan.entries, entry.steps = [])
    : Py.outcome (executeLevels mode setup execution.levels execution.payload) [] = .ok payload
      ↔ ∀ entry ∈ plan.entries, IsPosition entry.path payload := by
  obtain ⟨_, samePayload, _⟩ := buildPlan_ok built
  have idle : ∀ level ∈ execution.levels, ∀ entry ∈ level, ∀ value,
      (entry.outcome mode setup value).toOption = some value := by
    intro level member entry inLevel value
    have empty := (forall_levels_iff built).mpr noSteps level member entry inLevel
    have bare : entry.boundSteps = [] := by
      rw [ExecutionEntry.boundSteps, empty]
      rfl
    rw [ExecutionEntry.outcome, bare]
    rfl
  have positions : (∀ level ∈ execution.levels, ∀ entry ∈ level, IsPosition entry.path payload)
      ↔ ∀ entry ∈ plan.entries, IsPosition entry.path payload :=
    @forall_levels_iff _ _ _ _ _ _ _ _ built (fun entry => IsPosition entry.path payload)
  have returned : ∀ outcome : Except Raised Json,
      outcome = .ok payload ↔ outcome.toOption = some payload := by
    intro outcome
    cases outcome <;> simp [Except.toOption]
  rw [returned, samePayload, toOption_executeLevels, runLevels_unchanged_iff idle, positions]
  exact and_iff_left rfl

-----------------------------------------------------------------------------------------
-- Payloads at their targets
-----------------------------------------------------------------------------------------

/-- Planning the entries of a request raises nothing, and running the plan returns the payload. -/
def ExecutionCoordinator.Unchanged (coordinator : ExecutionCoordinator V M F H) (mode : Mode)
    (setup : RunSetup V F H) (payload : Json) (entries : List (ExtractedEntry V))
    (resolver : TargetResolver V) (cache : PathCache V) : Prop :=
  ∃ plan execution, Py.outcome (coordinator.finder.find entries resolver) cache = .ok plan
    ∧ buildPlan coordinator.bindings plan payload = .ok execution
    ∧ Py.outcome (executeLevels mode setup execution.levels execution.payload) [] = .ok payload

/-- A plan of standing entries leaves the payload unchanged exactly if they are positions of it. -/
theorem exists_execution_iff (mode : Mode) (setup : RunSetup V F H)
    (bindings : MigrationBindings V F H) {plan : PathPlan V}
    (stands : ∀ entry ∈ plan.entries, entry.Stands) (payload : Json)
    : (∃ execution, buildPlan bindings plan payload = .ok execution
        ∧ Py.outcome (executeLevels mode setup execution.levels execution.payload) []
          = .ok payload)
      ↔ ∀ entry ∈ plan.entries, IsPosition entry.path payload := by
  have run := fun execution (built : buildPlan bindings plan payload = .ok execution) =>
    executeLevels_standing mode setup built (fun entry member => (stands entry member).noSteps)
  constructor
  · intro given
    obtain ⟨execution, built, returned⟩ := given
    exact (run execution built).mp returned
  · intro positions
    have bound : ∀ entry ∈ plan.entries, ∀ edge ∈ entry.edges,
        ∃ binding, bindings.resolve edge = .ok binding := by
      intro entry member edge inside
      rw [(stands entry member).noEdges] at inside
      cases inside
    obtain ⟨execution, built⟩ := exists_buildPlan bound payload
    exact ⟨execution, built, (run execution built).mpr positions⟩

omit [DecidableEq V] [VersionValue V] in
theorem standing_eq_nil_iff {entries : List (ExtractedEntry V)} {resolver : TargetResolver V}
    : entries.filterMap (ExtractedEntry.standing resolver) = []
      ↔ ∀ entry ∈ entries, ¬ Aimed resolver entry := by
  simp only [List.filterMap_eq_nil_iff]
  constructor
  · intro none entry member aimed
    obtain ⟨target, aimed⟩ := aimed
    simpa [ExtractedEntry.standing, aimed] using none entry member
  · intro unaimed entry member
    unfold ExtractedEntry.standing
    split
    case h_1 target aimed => exact (unaimed entry member ⟨target, aimed⟩).elim
    case h_2 => rfl

omit [DecidableEq V] [VersionValue V] in
/-- The plan entries stand at the paths of the entries with a target. -/
theorem forall_standing_iff {entries : List (ExtractedEntry V)} {resolver : TargetResolver V}
    {payload : Json}
    : (∀ result ∈ entries.filterMap (ExtractedEntry.standing resolver),
        IsPosition result.path payload)
      ↔ ∀ entry ∈ entries, Aimed resolver entry → IsPosition entry.path payload := by
  constructor
  · intro every entry member aimed
    obtain ⟨target, aimed⟩ := aimed
    refine every (entry.planned target (.ofEdges [])) (List.mem_filterMap.mpr ⟨entry, member, ?_⟩)
    simp [ExtractedEntry.standing, aimed]
  · intro every result member
    obtain ⟨entry, inEntries, stands⟩ := List.mem_filterMap.mp member
    unfold ExtractedEntry.standing at stands
    split at stands
    case h_1 target aimed =>
      obtain rfl := Option.some.inj stands
      exact every entry inEntries ⟨target, aimed⟩
    case h_2 => cases stands

/-- A payload whose discovered entries are at their targets passes planning and comes back
unchanged exactly if there is nothing to plan, or the direction policy drops the entries, or it
allows every direction and the entries are positions of the payload. A strict direction policy
that raises takes them for violations.
-/
theorem Reachable.unchanged_iff {config : Config V U} {source : Registry V}
    (reached : Reachable config source) {hasher : ContentHasher} {revision : Option Revision}
    {coordinator : ExecutionCoordinator V M F H}
    (built : buildGraph hasher source revision = .ok coordinator.finder.graph)
    {cache : PathCache V} (cached : coordinator.finder.CacheReached cache)
    {request : PlanRequest V M} {entries : List (ExtractedEntry V)}
    (discovered : coordinator.extract request = .ok entries) {resolver : TargetResolver V}
    (atTargets : AtTargets resolver entries) (mode : Mode) (setup : RunSetup V F H)
    : coordinator.Unchanged mode setup request.payload entries resolver cache
      ↔ (∀ entry ∈ entries, ¬ Aimed resolver entry)
        ∨ (coordinator.finder.policy.direction ≠ .any
          ∧ coordinator.finder.policy.onDirectionViolation = .skip)
        ∨ (coordinator.finder.policy.direction = .any
          ∧ ∀ entry ∈ entries, Aimed resolver entry → IsPosition entry.path request.payload) := by
  have snapshot := snapshotOf_buildGraph reached.nodeStores reached.edgeStores built
  obtain ⟨steps⟩ := buildGraph_steps reached.nodeStores reached.edgeStores built
  have hydrated := ExecutionCoordinator.hydrated_of_extract steps reached.nodeStores discovered
  have planned := PathFinder.planned_standing snapshot reached.nodeStores hydrated atTargets
  have stands := stands_of_standing atTargets
  have found : Py.outcome (coordinator.finder.find entries resolver) cache
      = (coordinator.finder.policy.keepAll coordinator.finder.graph
          (entries.filterMap (ExtractedEntry.standing resolver))).map PathPlan.mk := by
    rw [cached.outcome_find]
    simp only [PathFinder.found, planned, bind, Except.bind, PolicyEngine.apply]
  obtain ⟨keepsAll, dropsAll, raises⟩ := @PolicyEngine.keepAll_standing _ _ _
    coordinator.finder.policy coordinator.finder.graph _ stands
  -- A returned plan decides the question by its positions.
  have returned : ∀ kept : List (PathPlanEntry V), (∀ entry ∈ kept, entry.Stands) →
      coordinator.finder.policy.keepAll coordinator.finder.graph
        (entries.filterMap (ExtractedEntry.standing resolver)) = .ok kept →
      (coordinator.Unchanged mode setup request.payload entries resolver cache
        ↔ ∀ entry ∈ kept, IsPosition entry.path request.payload) := by
    intro kept keptStand kept_eq
    have decided := @exists_execution_iff _ _ _ _ _ mode setup coordinator.bindings ⟨kept⟩
      keptStand request.payload
    simp only [← decided, ExecutionCoordinator.Unchanged, found, kept_eq, Except.map, Except.ok.injEq,
      exists_and_left, exists_eq_left']
  by_cases any : coordinator.finder.policy.direction = .any
  · rw [returned _ stands (keepsAll any), forall_standing_iff]
    constructor
    · intro positions
      exact .inr (.inr ⟨any, positions⟩)
    · intro given
      rcases given with none | ⟨strict, _⟩ | ⟨_, positions⟩
      · exact fun entry member aimed => (none entry member aimed).elim
      · exact (strict any).elim
      · exact positions
  · cases strategy : coordinator.finder.policy.onDirectionViolation with
    | skip =>
        refine iff_of_true ?_ (.inr (.inl ⟨any, rfl⟩))
        exact (returned [] (by simp) (dropsAll any strategy)).mpr (by simp)
    | raise =>
        by_cases empty : entries.filterMap (ExtractedEntry.standing resolver) = []
        · refine iff_of_true ?_ (.inl (standing_eq_nil_iff.mp empty))
          exact (returned [] (by simp) (by rw [empty]; rfl)).mpr (by simp)
        · refine iff_of_false ?_ ?_
          · intro unchanged
            obtain ⟨plan, _, planning, _⟩ := unchanged
            obtain ⟨error, raised⟩ := raises any strategy empty
            rw [found, raised] at planning
            cases planning
          · intro given
            rcases given with none | ⟨_, skips⟩ | ⟨always, _⟩
            · exact empty (standing_eq_nil_iff.mpr none)
            · cases skips
            · exact any always

/-- A coordinator without bindings that takes mappings with `kind` and `version` for entries. -/
def plainCoordinator (graph : MigrationGraph Release) (direction : Direction)
    : ExecutionCoordinator Release Unit Unit Unit where
  printable := fun _ => true
  models := ⟨fun _ => ⟨"app", "UserV1"⟩, fun _ => "UserV1", fun _ => "app.UserV1"⟩
  adapter := ⟨"kind", "version", fun _ => true, fun _ _ => none, fun data _ _ => .ok (.ofJson data)⟩
  validation := .none
  finder := ⟨graph, ⟨direction, .raise, .raise, -1, .raise⟩, defaultDiscriminator⟩
  bindings := ⟨"default", ∅, ∅⟩

/-- A payload at the first release of `User`, to be taken to the latest. -/
def firstUser : PlanRequest Release Unit where
  payload := .obj [("kind", .str "User"), ("version", .str "1.0.0")]
  target := .text "latest"
  sourceModel := none
  maxDepth := -1

def quietSetup : RunSetup Release Unit Unit := ⟨⟨false, false⟩, .ofPure (fun _ => .ok), "version"⟩

theorem atTargets_firstUser {graph : MigrationGraph Release}
    (latest : latestTargetResolver graph (userNode 1 "UserV1")
      = .ok (some (userNode 1 "UserV1")))
    : AtTargets (latestTargetResolver graph) [⟨[], userNode 1 "UserV1"⟩] := by
  intro entry member
  obtain rfl := List.mem_singleton.mp member
  exact .inr ⟨_, latest, rfl⟩

/-- Two users in a list, next to what is no user. -/
def listedUsers : PlanRequest Release Unit where
  payload := .obj [("total", .int 2), ("users", .arr [firstUser.payload, firstUser.payload])]
  target := .text "latest"
  sourceModel := none
  maxDepth := -1

theorem wellFormed_listedUsers : WellFormed listedUsers.payload := by
  simp [listedUsers, firstUser, WellFormed, WellFormedItems, WellFormedMembers]

/-- The entries of two users in a list. -/
def listedEntries : List (ExtractedEntry Release) :=
  [⟨[.key "users", .index 0], userNode 1 "UserV1"⟩, ⟨[.key "users", .index 1], userNode 1 "UserV1"⟩]

/-- Witness: with every direction allowed, two users at the only release come back unchanged. -/
theorem unchanged_listedUsers
    : ∃ graph, buildGraph plainConfig.hasher (userCatalogIn "default") none = .ok graph
        ∧ (plainCoordinator graph .any).Unchanged .sync quietSetup listedUsers.payload
          listedEntries (latestTargetResolver graph) ∅ := by
  have shown : (buildGraph plainConfig.hasher (userCatalogIn "default") none).map (fun graph =>
      ((plainCoordinator graph .any).extract listedUsers,
        latestTargetResolver graph (userNode 1 "UserV1")))
      = .ok (.ok listedEntries, .ok (some (userNode 1 "UserV1"))) := by
    decide +kernel
  have reached : Reachable plainConfig (userCatalogIn "default") :=
    .step _ (.new plainConfig "default" false (by decide))
  cases built : buildGraph plainConfig.hasher (userCatalogIn "default") none with
  | error error => simp [built, Except.map] at shown
  | ok graph =>
      simp only [built, Except.map, Except.ok.injEq, Prod.mk.injEq] at shown
      obtain ⟨discovered, latest⟩ := shown
      have atTargets : AtTargets (latestTargetResolver graph) listedEntries := by
        intro entry member
        simp only [listedEntries, List.mem_cons, List.not_mem_nil, or_false] at member
        rcases member with rfl | rfl
        · exact .inr ⟨_, latest, rfl⟩
        · exact .inr ⟨_, latest, rfl⟩
      refine ⟨graph, rfl, ?_⟩
      refine (Reachable.unchanged_iff reached built .empty discovered atTargets
        .sync quietSetup).mpr (.inr (.inr ⟨rfl, ?_⟩))
      intro entry member _
      simp only [listedEntries, List.mem_cons, List.not_mem_nil, or_false] at member
      rcases member with rfl | rfl
      · exact ⟨_, rfl, _, rfl, trivial⟩
      · exact ⟨_, rfl, _, rfl, trivial⟩

/-- Counterexample: the forward direction policy raises for a payload at its target. -/
theorem not_unchanged_firstUser
    : ¬ ∀ (config : Config Release Unit) (source : Registry Release)
        (coordinator : ExecutionCoordinator Release Unit Unit Unit)
        (request : PlanRequest Release Unit) (entries : List (ExtractedEntry Release))
        (resolver : TargetResolver Release),
        Reachable config source
        → buildGraph config.hasher source none = .ok coordinator.finder.graph
        → coordinator.extract request = .ok entries
        → AtTargets resolver entries
        → coordinator.Unchanged .sync quietSetup request.payload entries resolver ∅ := by
  intro claim
  have shown : (buildGraph plainConfig.hasher (userCatalogIn "default") none).map (fun graph =>
      ((plainCoordinator graph .forward).extract firstUser,
        latestTargetResolver graph (userNode 1 "UserV1"),
        Py.outcome ((plainCoordinator graph .forward).finder.find [⟨[], userNode 1 "UserV1"⟩]
          (latestTargetResolver graph)) ∅))
      = .ok (.ok [⟨[], userNode 1 "UserV1"⟩], .ok (some (userNode 1 "UserV1")),
        .error (.catalogError "default" ("direction policy: direction policy rejected "
          ++ "default:User@1.0.0 -> default:User@1.0.0"))) := by
    decide +kernel
  have reached : Reachable plainConfig (userCatalogIn "default") :=
    .step _ (.new plainConfig "default" false (by decide))
  cases built : buildGraph plainConfig.hasher (userCatalogIn "default") none with
  | error error => simp [built, Except.map] at shown
  | ok graph =>
      simp only [built, Except.map, Except.ok.injEq, Prod.mk.injEq] at shown
      obtain ⟨discovered, latest, raised⟩ := shown
      obtain ⟨plan, _, planned, _⟩ := claim plainConfig _ (plainCoordinator graph .forward)
        firstUser _ (latestTargetResolver graph) reached built discovered
        (atTargets_firstUser latest)
      cases raised.symm.trans planned

end Pyverge
