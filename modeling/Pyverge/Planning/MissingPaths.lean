import Pyverge.Planning.Chains
import Pyverge.Planning.Finder

/-! Missing paths and the missing-path policy.
The finder walks the graph before the policies are asked, so the walk raises where no edge is
found, whatever strategy is configured. What the walk returns never lacks an edge.
-/

namespace Pyverge

variable {V F : Type} [DecidableEq V] [VersionValue V]

omit [DecidableEq V] [VersionValue V] in
/-- Errors that report a missing path: those of the walk and those of the missing-path policy. -/
inductive Error.IsMissingPath : Error V → Prop where
  | walk (name : String) (source target : NodeId V) (reason : String)
      : IsMissingPath (.migrationPath name source target reason)
  | pair (name : String) (ends : NodeId V × NodeId V) : IsMissingPath (.migrationPathPair name ends)
  | policy (name message : String)
      : IsMissingPath (.catalogError name ("missing path" ++ " policy: " ++ message))

-----------------------------------------------------------------------------------------
-- What the policies keep
-----------------------------------------------------------------------------------------

omit [DecidableEq V] in
/-- The direction policies between versions of one strategy, where comparing raises nothing. -/
def Direction.admits (direction : Direction) (source target : NodeId V) : Bool :=
  match direction with
  | .any => true
  | .forward => source.cmp target == .lt
  | .backward => source.cmp target == .gt

/-- Whether the steps are within the limit; a negative limit is none. -/
def PolicyEngine.admitsDepth (engine : PolicyEngine) (steps : Nat) : Bool :=
  decide (engine.depthLimit < 0) || decide (steps ≤ engine.depthLimit)

omit [DecidableEq V] in
def PolicyEngine.admits (engine : PolicyEngine) (entry : PathPlanEntry V) : Bool :=
  engine.direction.admits entry.source.id entry.target.id && engine.admitsDepth entry.steps.length

omit [DecidableEq V] in
theorem Direction.allows_eq {direction : Direction} {source target : VersionNode V}
    (same : source.id.strategy = target.id.strategy)
    : direction.allows source target = .ok (direction.admits source.id target.id) := by
  cases direction with
  | any => rfl
  | forward => simp [Direction.allows, Direction.admits, NodeId.lt, same]
  | backward => simp [Direction.allows, Direction.admits, NodeId.gt, same]

/-- An entry that has a path is dropped for its direction or its depth only. -/
structure PathPlanEntry.HasPath (graph : MigrationGraph V) (entry : PathPlanEntry V) : Prop where
  strategy : entry.source.id.strategy = entry.target.id.strategy
  moves : entry.source.id.cmp entry.target.id = .eq ∨ entry.steps ≠ []
  executable : ∀ edge ∈ entry.edges, graph.hasMigration edge = true

namespace PolicyEngine

variable {engine : PolicyEngine} {graph : MigrationGraph V}

theorem keeps_of_admits {entry : PathPlanEntry V} (hasPath : entry.HasPath graph)
    (admitted : engine.admits entry = true)
    : engine.keeps graph entry = .ok true := by
  obtain ⟨directed, shallow⟩ := Bool.and_eq_true_iff.mp admitted
  have within : ¬ (0 ≤ engine.depthLimit ∧ engine.depthLimit < entry.steps.length) := by
    simp only [admitsDepth, Bool.or_eq_true, decide_eq_true_eq] at shallow
    omega
  have moves : (!(entry.source.id.cmp entry.target.id == .eq) && entry.steps.isEmpty) = false := by
    rcases hasPath.moves with same | steps
    · simp [same]
    · simp [steps]
  have complete : entry.edges.any (fun edge => !graph.hasMigration edge) = false := by
    rw [List.any_eq_false]
    intro edge member
    simp [hasPath.executable edge member]
  unfold keeps
  simp only [Direction.allows_eq hasPath.strategy, directed, bind, Except.bind, Bool.not_true,
    Bool.false_eq_true, if_false, if_neg within, NodeId.eq, if_pos hasPath.strategy, moves, complete]
  rfl

/-- An entry with a path that is not admitted violates the direction or the depth policy. -/
theorem keeps_of_not_admits {entry : PathPlanEntry V} (hasPath : entry.HasPath graph)
    (refused : engine.admits entry = false)
    : (∃ message, engine.keeps graph entry
        = violation graph "direction" message engine.onDirectionViolation)
      ∨ ∃ message, engine.keeps graph entry
        = violation graph "depth" message engine.onDepthViolation := by
  unfold keeps
  simp only [Direction.allows_eq hasPath.strategy, bind, Except.bind]
  cases directed : engine.direction.admits entry.source.id entry.target.id with
  | false => exact .inl ⟨_, rfl⟩
  | true =>
      have deep : 0 ≤ engine.depthLimit ∧ engine.depthLimit < entry.steps.length := by
        simp only [admits, directed, Bool.true_and, admitsDepth, Bool.or_eq_false_iff,
          decide_eq_false_iff_not] at refused
        omega
      right
      simp only [Bool.not_true, Bool.false_eq_true, if_false, if_pos deep]
      exact ⟨_, rfl⟩

omit [DecidableEq V] [VersionValue V] in
/-- The direction and depth policies do not report missing paths. -/
theorem not_isMissingPath_of_violation {layer message : String} {strategy : ViolationStrategy}
    {error : Error V} (other : layer = "direction" ∨ layer = "depth")
    (raised : violation graph layer message strategy = .error error)
    : ¬ error.IsMissingPath := by
  cases strategy with
  | skip => cases raised
  | raise =>
      obtain rfl := Except.error.inj raised
      intro missing
      generalize text : layer ++ " policy: " ++ message = reported at missing
      cases missing with
      | policy name told =>
          have letters := congrArg String.toList text
          rcases other with rfl | rfl
          · simp [String.toList_append] at letters
          · simp [String.toList_append] at letters

/-- Over entries that have a path, strategies that skip leave a filter. -/
theorem keepAll_of_skip (skipsDirection : engine.onDirectionViolation = .skip)
    (skipsDepth : engine.onDepthViolation = .skip) {entries : List (PathPlanEntry V)}
    (hasPaths : ∀ entry ∈ entries, entry.HasPath graph)
    : engine.keepAll graph entries = .ok (entries.filter engine.admits) := by
  induction entries with
  | nil => rfl
  | cons entry rest ih =>
      have later := ih (fun other member => hasPaths other (List.mem_cons_of_mem _ member))
      have hasPath := hasPaths entry List.mem_cons_self
      cases admitted : engine.admits entry with
      | true =>
          simp only [keepAll, keeps_of_admits hasPath admitted, later, bind, Except.bind,
            List.filter_cons, admitted, if_true]
          rfl
      | false =>
          have dropped : engine.keeps graph entry = .ok false := by
            rcases keeps_of_not_admits hasPath admitted with ⟨message, kept⟩ | ⟨message, kept⟩
            · rw [kept, skipsDirection]
              rfl
            · rw [kept, skipsDepth]
              rfl
          simp only [keepAll, dropped, later, bind, Except.bind, List.filter_cons, admitted,
            Bool.false_eq_true, if_false]
          rfl

/-- Over entries that have a path, no policy reports a missing one. -/
theorem keepAll_error {entries : List (PathPlanEntry V)}
    (hasPaths : ∀ entry ∈ entries, entry.HasPath graph) {error : Error V}
    (raised : engine.keepAll graph entries = .error error)
    : ¬ error.IsMissingPath := by
  induction entries with
  | nil => cases raised
  | cons entry rest ih =>
      have hasPath := hasPaths entry List.mem_cons_self
      cases kept : engine.keeps graph entry with
      | error violated =>
          simp only [keepAll, kept, bind, Except.bind] at raised
          obtain rfl := Except.error.inj raised
          cases admitted : engine.admits entry with
          | true =>
              rw [keeps_of_admits hasPath admitted] at kept
              cases kept
          | false =>
              rcases keeps_of_not_admits hasPath admitted with ⟨message, same⟩ | ⟨message, same⟩
              · exact not_isMissingPath_of_violation (.inl rfl) (same.symm.trans kept)
              · exact not_isMissingPath_of_violation (.inr rfl) (same.symm.trans kept)
      | ok keeping =>
          cases others : engine.keepAll graph rest with
          | ok remaining =>
              simp only [keepAll, kept, others, bind, Except.bind] at raised
              cases raised
          | error violated =>
              simp only [keepAll, kept, others, bind, Except.bind] at raised
              obtain rfl := Except.error.inj raised
              exact ih (fun other member => hasPaths other (List.mem_cons_of_mem _ member)) others

end PolicyEngine

-----------------------------------------------------------------------------------------
-- What the walks of a plan return
-----------------------------------------------------------------------------------------

namespace PathFinder

/-- Some entry with a target has a pair of consecutive versions on its way that no executable
edge of the discriminator joins.
-/
def Lacks (finder : PathFinder V) (entries : List (ExtractedEntry V)) (resolver : TargetResolver V)
    : Prop :=
  ∃ entry ∈ entries, ∃ target, resolver entry.node = .ok (some target)
    ∧ ¬ finder.graph.Connects finder.discriminator entry.node.id target.id

/-- The entries are of the graph, and each is resolved to a hydrated version of its kind or to
nothing.
-/
structure Resolves (finder : PathFinder V) (entries : List (ExtractedEntry V))
    (resolver : TargetResolver V) : Prop where
  extracted : ∀ entry ∈ entries, entry.node ∈ finder.graph.kindVersions entry.node.id.kind
  resolved : ∀ entry ∈ entries, resolver entry.node = .ok none
    ∨ ∃ target ∈ finder.graph.kindVersions entry.node.id.kind,
        resolver entry.node = .ok (some target)

open Classical in
/-- The plan entry of an entry whose versions are connected to its target. -/
noncomputable def connected (finder : PathFinder V) (resolver : TargetResolver V)
    (entry : ExtractedEntry V) : Option (PathPlanEntry V) :=
  match resolver entry.node with
  | .ok (some target) =>
      if finder.graph.Connects finder.discriminator entry.node.id target.id then
        (finder.resolved entry target).toOption
      else none
  | _ => none

variable {finder : PathFinder V} {source : Registry V} {hasher : ContentHasher}

/-- An executable edge of the graph is a migration of it. -/
theorem hasMigration_of_isExecutable (steps : BuildSteps hasher source finder.graph)
    (snapshot : SnapshotOf source finder.graph) (stores : EdgeStores source) {key : EdgeId V}
    (executes : finder.graph.isExecutable key = true)
    : finder.graph.hasMigration key = true := by
  obtain ⟨edge, stored, rfl⟩ := (snapshot.executable key).mp executes
  rw [steps.hasMigration_eq stores]
  cases found : (source.edges edge.id.kind).find? (fun other => other.id = edge.id) with
  | none =>
      have miss := List.find?_eq_none.mp found _ stored
      simp [EdgeEntry.id, EdgeEntry.pair, VersionEdge.id] at miss
  | some other =>
      have told : other.id = edge.id := by simpa using List.find?_some found
      have member := List.mem_of_find?_eq_some found
      have filed : other.kind = edge.id.kind := congrArg EdgeId.kind told
      obtain rfl := stores.eq_of_id (filed.symm ▸ member) stored told
      rfl

/-- What the walk between hydrated versions returns has a path. -/
theorem hasPath_of_edgePath (steps : BuildSteps hasher source finder.graph)
    (snapshot : SnapshotOf source finder.graph) (nodeStores : NodeStores source)
    (edgeStores : EdgeStores source) {entry : ExtractedEntry V} {target : VersionNode V}
    (inSource : entry.node ∈ finder.graph.kindVersions entry.node.id.kind)
    (inTarget : target ∈ finder.graph.kindVersions entry.node.id.kind)
    {path : List (EdgePair V)}
    (walked : finder.graph.edgePath entry.node.id target.id finder.discriminator = .ok path)
    : (entry.planned target (.ofEdges path)).HasPath finder.graph := by
  obtain ⟨lo, hi, atSource, atTarget, walk⟩ := MigrationGraph.edgePath_eq_walkEdges snapshot
    nodeStores finder.discriminator inSource inTarget
  rw [walk] at walked
  rw [snapshot.kindVersions] at inSource inTarget
  refine {
    strategy := nodeStores.uniform _ (nodeStores.mem_kindVersions.mp inTarget).1 _
      (nodeStores.mem_kindVersions.mp inSource).1
    moves := ?_
    executable := ?_
  }
  · have length := MigrationGraph.length_walkEdges walked
    by_cases same : lo = hi
    · subst same
      obtain rfl := Option.some.inj (atSource.symm.trans atTarget)
      exact .inl Std.ReflCmp.compare_self
    · right
      intro none
      have empty : path = [] := List.map_eq_nil_iff.mp none
      rw [empty, List.length_nil] at length
      omega
  · intro key member
    obtain ⟨edge, inPath, rfl⟩ := List.mem_map.mp member
    exact hasMigration_of_isExecutable steps snapshot edgeStores
      (MigrationGraph.mem_of_walkEdges snapshot walked inPath).2.2

/-- An entry is resolved exactly if it is connected to its target. -/
theorem resolved_cases (snapshot : SnapshotOf source finder.graph) (stores : NodeStores source)
    {entry : ExtractedEntry V} {target : VersionNode V}
    (inSource : entry.node ∈ finder.graph.kindVersions entry.node.id.kind)
    (inTarget : target ∈ finder.graph.kindVersions entry.node.id.kind)
    : (finder.graph.Connects finder.discriminator entry.node.id target.id
        ∧ ∃ path, finder.graph.edgePath entry.node.id target.id finder.discriminator = .ok path
          ∧ finder.resolved entry target = .ok (entry.planned target (.ofEdges path)))
      ∨ (¬ finder.graph.Connects finder.discriminator entry.node.id target.id
        ∧ ∃ error, finder.resolved entry target = .error error ∧ error.IsMissingPath) := by
  rw [← MigrationGraph.exists_edgePath snapshot stores inSource inTarget]
  unfold resolved
  cases walked : finder.graph.edgePath entry.node.id target.id finder.discriminator with
  | ok path => exact .inl ⟨⟨path, rfl⟩, path, rfl, rfl⟩
  | error error =>
      right
      obtain ⟨_, _, _, rfl⟩ := MigrationGraph.edgePath_error snapshot stores inSource inTarget walked
      refine ⟨?_, _, rfl, .walk _ _ _ _⟩
      intro found
      obtain ⟨path, found⟩ := found
      cases found

theorem lacks_cons_of_none {entry : ExtractedEntry V} {rest : List (ExtractedEntry V)}
    {resolver : TargetResolver V} (skipped : resolver entry.node = .ok none)
    : finder.Lacks (entry :: rest) resolver ↔ finder.Lacks rest resolver := by
  simp [Lacks, skipped]

theorem lacks_cons_of_some {entry : ExtractedEntry V} {rest : List (ExtractedEntry V)}
    {resolver : TargetResolver V} {target : VersionNode V}
    (aimed : resolver entry.node = .ok (some target))
    : finder.Lacks (entry :: rest) resolver
      ↔ ¬ finder.graph.Connects finder.discriminator entry.node.id target.id
        ∨ finder.Lacks rest resolver := by
  simp [Lacks, aimed]

omit [DecidableEq V] [VersionValue V] in
theorem Resolves.tail {entry : ExtractedEntry V} {rest : List (ExtractedEntry V)}
    {resolver : TargetResolver V} (resolves : finder.Resolves (entry :: rest) resolver)
    : finder.Resolves rest resolver where
  extracted := fun other member => resolves.extracted other (List.mem_cons_of_mem _ member)
  resolved := fun other member => resolves.resolved other (List.mem_cons_of_mem _ member)

/-- The walks of a plan all succeed, or one of them raises for want of an edge. -/
theorem planned_cases (snapshot : SnapshotOf source finder.graph) (stores : NodeStores source)
    {entries : List (ExtractedEntry V)} {resolver : TargetResolver V}
    (resolves : finder.Resolves entries resolver)
    : (¬ finder.Lacks entries resolver
        ∧ finder.planned resolver entries = .ok (entries.filterMap (finder.connected resolver)))
      ∨ (finder.Lacks entries resolver
        ∧ ∃ error, finder.planned resolver entries = .error error ∧ error.IsMissingPath) := by
  induction entries with
  | nil =>
      left
      simp [Lacks, planned]
  | cons entry rest ih =>
      have later := ih resolves.tail
      have inSource := resolves.extracted entry List.mem_cons_self
      rcases resolves.resolved entry List.mem_cons_self with skipped | ⟨target, inTarget, aimed⟩
      · have unchanged : finder.planned resolver (entry :: rest) = finder.planned resolver rest := by
          simp only [planned, skipped, bind, Except.bind]
        have nothing : finder.connected resolver entry = none := by simp [connected, skipped]
        rwa [unchanged, List.filterMap_cons_none nothing, lacks_cons_of_none skipped]
      · rw [lacks_cons_of_some aimed]
        rcases resolved_cases snapshot stores inSource inTarget with
          ⟨connects, path, _, resolvedTo⟩ | ⟨apart, error, failed, missing⟩
        · have first : finder.connected resolver entry
              = some (entry.planned target (.ofEdges path)) := by
            simp only [connected, aimed, if_pos connects, resolvedTo, Except.toOption]
          rcases later with ⟨complete, others⟩ | ⟨lacks, error, failed, missing⟩
          · left
            refine ⟨not_or.mpr ⟨not_not.mpr connects, complete⟩, ?_⟩
            rw [List.filterMap_cons_some first]
            simp only [planned, aimed, resolvedTo, others, bind, Except.bind]
            rfl
          · right
            refine ⟨.inr lacks, error, ?_, missing⟩
            simp only [planned, aimed, resolvedTo, failed, bind, Except.bind]
        · right
          refine ⟨.inl apart, error, ?_, missing⟩
          simp only [planned, aimed, failed, bind, Except.bind]

/-- The entries of a plan whose walks succeeded have paths. -/
theorem hasPath_of_connected (steps : BuildSteps hasher source finder.graph)
    (snapshot : SnapshotOf source finder.graph) (nodeStores : NodeStores source)
    (edgeStores : EdgeStores source) {entries : List (ExtractedEntry V)}
    {resolver : TargetResolver V} (resolves : finder.Resolves entries resolver)
    : ∀ entry ∈ entries.filterMap (finder.connected resolver), entry.HasPath finder.graph := by
  intro result member
  obtain ⟨entry, inEntries, found⟩ := List.mem_filterMap.mp member
  have inSource := resolves.extracted entry inEntries
  rcases resolves.resolved entry inEntries with skipped | ⟨target, inTarget, aimed⟩
  · simp [connected, skipped] at found
  · rcases resolved_cases snapshot nodeStores inSource inTarget with
      ⟨connects, path, walked, resolvedTo⟩ | ⟨apart, _⟩
    · simp only [connected, aimed, if_pos connects, resolvedTo, Except.toOption] at found
      obtain rfl := Option.some.inj found
      exact hasPath_of_edgePath steps snapshot nodeStores edgeStores inSource inTarget walked
    · simp [connected, aimed, apart] at found

/-- What the missing-path policy promises of a find. Set to skip, no missing path is reported, and
where the other policies skip too the plan has, in order, the entries with a path that they
admit. Set to raise, a missing path is reported exactly if some entry lacks one.
-/
structure HonorsMissingPath (finder : PathFinder V) (entries : List (ExtractedEntry V))
    (resolver : TargetResolver V) (outcome : Except (Error V) (PathPlan V)) : Prop where
  neverReports : finder.policy.onMissingPath = .skip →
    ∀ error, outcome = .error error → ¬ error.IsMissingPath
  omits : finder.policy.onMissingPath = .skip → finder.policy.onDirectionViolation = .skip →
    finder.policy.onDepthViolation = .skip →
    outcome = .ok ⟨(entries.filterMap (finder.connected resolver)).filter finder.policy.admits⟩
  reports : finder.policy.onMissingPath = .raise →
    ((∃ error, outcome = .error error ∧ error.IsMissingPath) ↔ finder.Lacks entries resolver)
  raises : finder.policy.onMissingPath = .raise → finder.policy.onDirectionViolation = .skip →
    finder.policy.onDepthViolation = .skip →
    ((∃ error, outcome = .error error) ↔ finder.Lacks entries resolver)

/-- Where no entry lacks a path, the policies see entries with paths only. -/
theorem honorsMissingPath_of_complete (steps : BuildSteps hasher source finder.graph)
    (snapshot : SnapshotOf source finder.graph) (nodeStores : NodeStores source)
    (edgeStores : EdgeStores source) {entries : List (ExtractedEntry V)}
    {resolver : TargetResolver V} (resolves : finder.Resolves entries resolver)
    (complete : ¬ finder.Lacks entries resolver)
    (planned : finder.planned resolver entries
      = .ok (entries.filterMap (finder.connected resolver)))
    : finder.HonorsMissingPath entries resolver (finder.found entries resolver) := by
  have hasPaths := hasPath_of_connected steps snapshot nodeStores edgeStores resolves
  have applied : finder.found entries resolver
      = (finder.policy.keepAll finder.graph (entries.filterMap (finder.connected resolver))).map
          PathPlan.mk := by
    simp only [found, planned, bind, Except.bind, PolicyEngine.apply]
  have never : ∀ error, finder.found entries resolver = .error error → ¬ error.IsMissingPath := by
    intro error raised
    rw [applied] at raised
    cases kept : finder.policy.keepAll finder.graph
        (entries.filterMap (finder.connected resolver)) with
    | ok remaining =>
        rw [kept] at raised
        cases raised
    | error violated =>
        rw [kept] at raised
        obtain rfl := Except.error.inj raised
        exact PolicyEngine.keepAll_error hasPaths kept
  have filtered : finder.policy.onDirectionViolation = .skip →
      finder.policy.onDepthViolation = .skip → finder.found entries resolver
        = .ok ⟨(entries.filterMap (finder.connected resolver)).filter finder.policy.admits⟩ := by
    intro skipsDirection skipsDepth
    rw [applied, PolicyEngine.keepAll_of_skip skipsDirection skipsDepth hasPaths]
    rfl
  refine ⟨fun _ => never, fun _ => filtered, fun _ => ?_, fun _ skipsDirection skipsDepth => ?_⟩
  · refine iff_of_false ?_ complete
    intro given
    obtain ⟨error, raised, missing⟩ := given
    exact never error raised missing
  · refine iff_of_false ?_ complete
    intro given
    obtain ⟨error, raised⟩ := given
    cases (filtered skipsDirection skipsDepth).symm.trans raised

end PathFinder

/-- Over a snapshot of any reachable catalog and after any earlier finds, a find treats missing
paths as the policy says exactly if none is missing where the policy says to skip them: the walk
raises before the policy is asked.
-/
theorem Reachable.honorsMissingPath_iff {config : Config V F} {source : Registry V}
    (reached : Reachable config source) {hasher : ContentHasher} {revision : Option Revision}
    {finder : PathFinder V} (built : buildGraph hasher source revision = .ok finder.graph)
    {cache : PathCache V} (cached : finder.CacheReached cache)
    {entries : List (ExtractedEntry V)} {resolver : TargetResolver V}
    (resolves : finder.Resolves entries resolver)
    : finder.HonorsMissingPath entries resolver (Py.outcome (finder.find entries resolver) cache)
      ↔ (finder.policy.onMissingPath = .skip → ∀ entry ∈ entries, ∀ target,
          resolver entry.node = .ok (some target) →
          finder.graph.Connects finder.discriminator entry.node.id target.id) := by
  have snapshot := snapshotOf_buildGraph reached.nodeStores reached.edgeStores built
  obtain ⟨steps⟩ := buildGraph_steps reached.nodeStores reached.edgeStores built
  rw [cached.outcome_find]
  rcases PathFinder.planned_cases snapshot reached.nodeStores resolves with
    ⟨complete, planned⟩ | ⟨lacks, error, failed, missing⟩
  · refine iff_of_true ?_ ?_
    · exact PathFinder.honorsMissingPath_of_complete steps snapshot reached.nodeStores
        reached.edgeStores resolves complete planned
    · intro _ entry member target aimed
      by_contra apart
      exact complete ⟨entry, member, target, aimed, apart⟩
  · have raised : finder.found entries resolver = .error error := by
      simp only [PathFinder.found, failed, bind, Except.bind]
    rw [raised]
    constructor
    · intro honors skips
      exact (honors.neverReports skips error rfl missing).elim
    · intro connected
      have notSkip : ¬ finder.policy.onMissingPath = .skip := by
        intro skips
        obtain ⟨entry, member, target, aimed, apart⟩ := lacks
        exact apart (connected skips entry member target aimed)
      exact {
        neverReports := fun skips => (notSkip skips).elim
        omits := fun skips => (notSkip skips).elim
        reports := fun _ => iff_of_true ⟨error, rfl, missing⟩ lacks
        raises := fun _ _ _ => iff_of_true ⟨error, rfl⟩ lacks
      }

/-- A finder that takes any direction and depth. -/
def finderOver (graph : MigrationGraph Release) (onMissingPath : ViolationStrategy)
    : PathFinder Release where
  graph
  policy := ⟨.any, .skip, onMissingPath, -1, .skip⟩
  discriminator := defaultDiscriminator

/-- The first release of `User` at the root of a payload. -/
def firstRelease : ExtractedEntry Release := ⟨[], userNode 1 "UserV1"⟩

/-- Every entry goes to the third release of `User`. -/
def toThirdRelease : TargetResolver Release := fun _ => .ok (some (userNode 3 "UserV3"))

theorem finderOver_resolves {graph : MigrationGraph Release} {onMissingPath : ViolationStrategy}
    (versions : graph.kindVersions "User" = [userNode 1 "UserV1", userNode 3 "UserV3"])
    : (finderOver graph onMissingPath).Resolves [firstRelease] toThirdRelease where
  extracted := by
    intro entry member
    rw [List.mem_singleton.mp member]
    exact versions ▸ List.mem_cons_self
  resolved := by
    intro entry member
    rw [List.mem_singleton.mp member]
    exact .inr ⟨_, versions ▸ List.mem_cons_of_mem _ List.mem_cons_self, rfl⟩

/-- Witness: with a migration between the releases, the plan keeps the entry. -/
theorem honorsMissingPath_joinedCatalog
    : ∃ graph, buildGraph reflectingConfig.hasher joinedCatalog none = .ok graph
        ∧ (finderOver graph .skip).HonorsMissingPath [firstRelease] toThirdRelease
          (Py.outcome ((finderOver graph .skip).find [firstRelease] toThirdRelease) ∅) := by
  have shown : (buildGraph reflectingConfig.hasher joinedCatalog none).map
      (fun graph => (graph.kindVersions "User",
        graph.edgePath (userId 1) (userId 3) defaultDiscriminator))
      = .ok ([userNode 1 "UserV1", userNode 3 "UserV3"],
        .ok [(userMigration 1 3 "UserV1" "UserV3").pair]) := by
    decide +kernel
  have reached : Reachable reflectingConfig joinedCatalog := .step _ gappedCatalog_reachable
  cases built : buildGraph reflectingConfig.hasher joinedCatalog none with
  | error error => simp [built, Except.map] at shown
  | ok graph =>
      simp only [built, Except.map, Except.ok.injEq, Prod.mk.injEq] at shown
      obtain ⟨versions, walked⟩ := shown
      have snapshot := snapshotOf_buildGraph reached.nodeStores reached.edgeStores built
      have resolves := @finderOver_resolves graph .skip versions
      refine ⟨graph, rfl, ?_⟩
      refine (Reachable.honorsMissingPath_iff reached built .empty resolves).mpr ?_
      intro _ entry member target aimed
      obtain rfl := List.mem_singleton.mp member
      obtain rfl := Option.some.inj (Except.ok.inj aimed)
      refine (MigrationGraph.exists_edgePath snapshot reached.nodeStores ?_ ?_).mp ⟨_, walked⟩
      · exact resolves.extracted firstRelease List.mem_cons_self
      · exact versions ▸ List.mem_cons_of_mem _ List.mem_cons_self

/-- Counterexample: no migration joins the releases, and the finder raises although it is told to
skip.
-/
theorem not_honorsMissingPath_gappedCatalog
    : ¬ ∀ (config : Config Release Unit) (source : Registry Release) (finder : PathFinder Release)
        (entries : List (ExtractedEntry Release)) (resolver : TargetResolver Release),
        Reachable config source
        → buildGraph config.hasher source none = .ok finder.graph
        → finder.Resolves entries resolver
        → finder.HonorsMissingPath entries resolver
          (Py.outcome (finder.find entries resolver) ∅) := by
  intro claim
  have shown : (buildGraph reflectingConfig.hasher gappedCatalog none).map
      (fun graph => (graph.kindVersions "User",
        Py.outcome ((finderOver graph .skip).find [firstRelease] toThirdRelease) ∅))
      = .ok ([userNode 1 "UserV1", userNode 3 "UserV3"],
        .error (.migrationPath "default" (userId 1) (userId 3)
          "No migration key is found (default:User@1.0.0, default:User@3.0.0)")) := by
    decide +kernel
  cases built : buildGraph reflectingConfig.hasher gappedCatalog none with
  | error error => simp [built, Except.map] at shown
  | ok graph =>
      simp only [built, Except.map, Except.ok.injEq, Prod.mk.injEq] at shown
      obtain ⟨versions, raised⟩ := shown
      have honors := claim reflectingConfig gappedCatalog (finderOver graph .skip) [firstRelease]
        toThirdRelease gappedCatalog_reachable built (finderOver_resolves versions)
      exact honors.neverReports rfl _ raised (.walk _ _ _ _)

end Pyverge
