import Pyverge.Graph.Paths
import Pyverge.Runtime.NoOps
import Pyverge.Runtime.Runner

/-! Guided discovery, compared with the containerless one and with the payload that is executed.
A guided walk stops at each entry, so it misses what is nested in one. It looks at the validated
copy of the payload, while the plan runs on the payload as it was given.
-/

namespace Pyverge

open Py (Json)

variable {V M F H : Type} [DecidableEq V] [VersionValue V]

-----------------------------------------------------------------------------------------
-- The two discovery modes
-----------------------------------------------------------------------------------------

namespace Runner

omit [DecidableEq V] [VersionValue V] in
theorem entriesOf_inj {left right : List (Path × VersionNode V)}
    : entriesOf left = entriesOf right ↔ left = right := by
  refine ⟨fun same => ?_, congrArg entriesOf⟩
  refine List.map_injective_iff.mpr ?_ same
  intro one other equal
  simp only [ExtractedEntry.mk.injEq] at equal
  exact Prod.ext equal.1 equal.2

variable {runner : Runner V M F H}

theorem extract_of_guided {request : PlanRequest V M} {model : M}
    (guide : request.sourceModel = some model)
    (handles : runner.coordinator.adapter.canHandle model = true)
    (unvalidated : runner.coordinator.validation = .none) (unlimited : request.maxDepth < 0)
    : runner.coordinator.extract request
      = .ok (entriesOf (finds false runner.matched request.payload)) := by
  simp only [ExecutionCoordinator.extract, guide, unvalidated, extract_guided _ handles unlimited,
    Except.map, Except.mapError, List.map_map, entriesOf, matched]
  congr 1

/-- The answer to a request depends on its source model by its entries only. -/
theorem ran_congr {mode : Mode} {request : PlanRequest V M} {model : Option M}
    (same : runner.coordinator.extract { request with sourceModel := model }
      = runner.coordinator.extract request)
    : runner.ran mode { request with sourceModel := model } = runner.ran mode request := by
  unfold ran planned
  rw [same]
  cases runner.coordinator.extract request with
  | error error => rfl
  | ok entries =>
      simp only [ExecutionCoordinator.found, bind, Except.bind]
      cases compile runner.coordinator.printable runner.coordinator.finder.graph
          runner.coordinator.models request.target with
      | error error => rfl
      | ok resolver =>
          simp only
          cases runner.coordinator.finder.found entries resolver <;> rfl

/-- With a source model and without one, a payload has the same entries and is migrated to the
same payload, whatever the target.
-/
structure DiscoversAlike (runner : Runner V M F H) (model : M) (payload : Json) : Prop where
  entries : ∀ target, runner.coordinator.extract ⟨payload, target, some model, -1⟩
    = runner.coordinator.extract ⟨payload, target, none, -1⟩
  runs : ∀ mode target state, runner.Uncached state →
    Py.outcome (runner.run mode ⟨payload, target, some model, -1⟩) state
      = Py.outcome (runner.run mode ⟨payload, target, none, -1⟩) state

end Runner

/-- Without validation and without a limit, the two discovery modes agree on a payload exactly if
no entry of it is nested in another one.
-/
theorem discoversAlike_iff {runner : Runner V M F H} {model : M}
    (handles : runner.coordinator.adapter.canHandle model = true)
    (unvalidated : runner.coordinator.validation = .none) {payload : Json}
    (wellFormed : WellFormed payload)
    : runner.DiscoversAlike model payload
      ↔ ¬ HasNested (runner.coordinator.finder.graph.matchPayload
            runner.coordinator.adapter.kindProperty runner.coordinator.adapter.versionProperty)
          payload := by
  have unlimited : (-1 : Int) < 0 := by decide
  have alike : ∀ target, runner.coordinator.extract ⟨payload, target, some model, -1⟩
        = runner.coordinator.extract ⟨payload, target, none, -1⟩
      ↔ finds false runner.matched payload = finds true runner.matched payload := by
    intro target
    rw [Runner.extract_of_guided rfl handles unvalidated unlimited,
      Runner.extract_of_containerless rfl unlimited, Except.ok.injEq, Runner.entriesOf_inj]
  have nested := @finds_eq_iff _ runner.matched payload wellFormed
  constructor
  · intro both
    exact nested.mp ((alike .nothing).mp (both.entries .nothing))
  · intro flat
    have entries := fun target => (alike target).mpr (nested.mpr flat)
    refine ⟨entries, ?_⟩
    intro mode target state uncached
    rw [(Runner.run_answers mode _ state uncached).1, (Runner.run_answers mode _ state uncached).1]
    exact @Runner.ran_congr _ _ _ _ _ _ _ mode ⟨payload, target, none, -1⟩ (some model)
      (entries target)

/-- A runner over a graph, with an adapter that handles every model and validates nothing. -/
def plainRunner (graph : MigrationGraph Release) : Runner Release Unit Unit Unit where
  coordinator := plainCoordinator graph .any
  identifies := fun _ => .ok true
  setup := quietSetup

/-- Witness: two users in a list are discovered alike. -/
theorem discoversAlike_listedUsers
    : ∃ graph, buildGraph plainConfig.hasher (userCatalogIn "default") none = .ok graph
        ∧ (plainRunner graph).DiscoversAlike () listedUsers.payload := by
  have shown : (buildGraph plainConfig.hasher (userCatalogIn "default") none).map (fun graph =>
      (finds false (graph.matchPayload "kind" "version") listedUsers.payload,
        finds true (graph.matchPayload "kind" "version") listedUsers.payload))
      = .ok (listedEntries.map (fun entry => (entry.path, entry.node)),
        listedEntries.map (fun entry => (entry.path, entry.node))) := by
    decide +kernel
  cases built : buildGraph plainConfig.hasher (userCatalogIn "default") none with
  | error error => simp [built, Except.map] at shown
  | ok graph =>
      simp only [built, Except.map, Except.ok.injEq, Prod.mk.injEq] at shown
      obtain ⟨outermost, all⟩ := shown
      refine ⟨graph, rfl, (discoversAlike_iff rfl rfl wellFormed_listedUsers).mpr ?_⟩
      exact (finds_eq_iff wellFormed_listedUsers).mp (outermost.trans all.symm)

/-- A user in a user. -/
def nestedUsers : Json :=
  .obj [("kind", .str "User"), ("version", .str "1.0.0"),
    ("friend", .obj [("kind", .str "User"), ("version", .str "1.0.0")])]

/-- Counterexample: the guided walk stops at the outer user and misses the inner one. -/
theorem not_discoversAlike_nestedUsers
    : ¬ ∀ (runner : Runner Release Unit Unit Unit) (model : Unit) (payload : Json),
        runner.coordinator.adapter.canHandle model = true
        → runner.coordinator.validation = .none
        → WellFormed payload
        → runner.DiscoversAlike model payload := by
  intro claim
  have shown : (buildGraph plainConfig.hasher (userCatalogIn "default") none).map (fun graph =>
      ((plainRunner graph).coordinator.extract ⟨nestedUsers, .nothing, some (), -1⟩,
        (plainRunner graph).coordinator.extract ⟨nestedUsers, .nothing, none, -1⟩))
      = .ok (.ok [⟨[], userNode 1 "UserV1"⟩],
        .ok [⟨[], userNode 1 "UserV1"⟩, ⟨[.key "friend"], userNode 1 "UserV1"⟩]) := by
    decide +kernel
  cases built : buildGraph plainConfig.hasher (userCatalogIn "default") none with
  | error error => simp [built, Except.map] at shown
  | ok graph =>
      simp only [built, Except.map, Except.ok.injEq, Prod.mk.injEq] at shown
      obtain ⟨guided, all⟩ := shown
      have alike := claim (plainRunner graph) () nestedUsers rfl rfl
        (by simp [nestedUsers, WellFormed, WellFormedMembers])
      have same := alike.entries .nothing
      rw [guided, all] at same
      simp at same

-----------------------------------------------------------------------------------------
-- The validated copy and the payload
-----------------------------------------------------------------------------------------

omit [DecidableEq V] in
/-- The value is a mapping whose kind and version are those of the node. -/
def Names (kindProperty versionProperty : String) (node : VersionNode V) (value : Json) : Prop :=
  ∃ members text, value = .obj members
    ∧ Json.getMember members kindProperty = some (.str node.id.kind)
    ∧ Json.getMember members versionProperty = some (.str text)
    ∧ VersionValue.parse text = some node.id.version

/-- Every entry resolves in the payload to a mapping of its version. Whatever the target, a run of
the plan reads each entry and reads it at the version that it is planned from.
-/
structure ExecutionCoordinator.ReadsPlanned (coordinator : ExecutionCoordinator V M F H)
    (payload : Json) (entries : List (ExtractedEntry V)) : Prop where
  paths : ∀ entry ∈ entries, ∃ value, entry.path.get payload = .ok value
    ∧ Names coordinator.adapter.kindProperty coordinator.adapter.versionProperty entry.node value
  reads : ∀ (cache : PathCache V) (resolver : TargetResolver V) (plan : PathPlan V)
    (execution : ExecutionPlan V F H) (mode : Mode) (setup : RunSetup V F H),
    coordinator.finder.CacheReached cache →
    Py.outcome (coordinator.finder.find entries resolver) cache = .ok plan →
    buildPlan coordinator.bindings plan payload = .ok execution →
    ∀ (place : Nat) (level : List (ExecutionEntry V F H)) (entry : ExecutionEntry V F H)
      (data : Json), execution.levels[place]? = some level → entry ∈ level →
      Py.outcome (executeLevels mode setup (execution.levels.take place) payload) [] = .ok data →
      ∃ value, entry.path.get data = .ok value
        ∧ Names coordinator.adapter.kindProperty coordinator.adapter.versionProperty
            entry.plan.source value

/-- A level of a plan whose entries are apart reads what the payload had. -/
theorem get_before_level {bindings : MigrationBindings V F H} {plan : PathPlan V} {payload : Json}
    {execution : ExecutionPlan V F H} (built : buildPlan bindings plan payload = .ok execution)
    (apart : plan.entries.Pairwise (fun left right => left.path.Apart right.path))
    {mode : Mode} {setup : RunSetup V F H} {place : Nat} {level : List (ExecutionEntry V F H)}
    {entry : ExecutionEntry V F H} {data : Json} (here : execution.levels[place]? = some level)
    (inLevel : entry ∈ level)
    (ran : Py.outcome (executeLevels mode setup (execution.levels.take place) payload) []
      = .ok data)
    : entry.path.get data = entry.path.get payload := by
  have perm := levelsFrom_flatten_perm PathPlanEntry.path plan.entries.length plan.entries
    (Nat.le_refl _)
  -- All entries of the levels are apart, since the levels hold the entries of the plan.
  have whole : execution.levels.flatten.Pairwise (fun left right => left.path.Apart right.path) := by
    have plans : (execution.levels.flatten.map ExecutionEntry.plan).Pairwise
        (fun left right => left.path.Apart right.path) := by
      rw [List.map_flatten, buildPlan_levels built]
      exact (perm.pairwise_iff (fun away => away.symm)).mpr apart
    rw [List.pairwise_map] at plans
    exact plans
  have split : execution.levels.flatten
      = (execution.levels.take place).flatten ++ (execution.levels.drop place).flatten := by
    rw [← List.flatten_append, List.take_append_drop]
  rw [split, List.pairwise_append] at whole
  obtain ⟨before, _, across⟩ := whole
  have later : entry ∈ (execution.levels.drop place).flatten := by
    refine List.mem_flatten.mpr ⟨level, ?_, inLevel⟩
    refine List.mem_of_getElem? (i := 0) ?_
    rw [List.getElem?_drop]
    exact here
  have loop := toOption_executeLevels mode setup (execution.levels.take place) payload []
  rw [ran, runLevels_eq_foldlM _ _ _ (List.pairwise_flatten.mp before).1] at loop
  exact get_foldlM_rewriteAt loop.symm (fun other member => across other member entry later)

/-- Guided entries are the outermost finds of the validated copy. -/
theorem ExecutionCoordinator.extract_guided_ok {coordinator : ExecutionCoordinator V M F H}
    {request : PlanRequest V M} {model : M} (guide : request.sourceModel = some model)
    {entries : List (ExtractedEntry V)} (discovered : coordinator.extract request = .ok entries)
    : ∃ seen, coordinator.adapter.canHandle model = true
        ∧ validatedPayload coordinator.adapter coordinator.validation request.payload model
          = .ok seen
        ∧ entries = Runner.entriesOf (seen.outermost (coordinator.finder.graph.matchDumped
            coordinator.adapter.kindProperty coordinator.adapter.versionProperty)) := by
  obtain ⟨payload, target, sourceModel, maxDepth⟩ := request
  obtain rfl : sourceModel = some model := guide
  obtain ⟨yields, extracted, rfl⟩ := Py.map_eq_ok.mp (Py.mapError_eq_ok.mp discovered)
  obtain ⟨found, discovers, rfl⟩ := extract_of_ok extracted
  cases discovers with
  | guided handles validated =>
      refine ⟨_, handles, validated, ?_⟩
      simp only [List.map_map, Runner.entriesOf]
      rfl

/-- Entries that resolve in the payload are read as planned, because guided entries are apart. -/
theorem ExecutionCoordinator.readsPlanned_of_paths {coordinator : ExecutionCoordinator V M F H}
    {payload : Json} {entries : List (ExtractedEntry V)}
    (apart : entries.Pairwise (fun left right => left.path.Apart right.path))
    (paths : ∀ entry ∈ entries, ∃ value, entry.path.get payload = .ok value
      ∧ Names coordinator.adapter.kindProperty coordinator.adapter.versionProperty entry.node value)
    : coordinator.ReadsPlanned payload entries := by
  refine ⟨paths, ?_⟩
  intro cache resolver plan execution mode setup cached found built place level entry data here
    inLevel ran
  rw [cached.outcome_find] at found
  have sublist := PathFinder.found_sublist found
  have planApart : plan.entries.Pairwise (fun left right => left.path.Apart right.path) := by
    have pairs : (entries.map (fun entry => (entry.path, entry.node))).Pairwise
        (fun left right => left.1.Apart right.1) := List.pairwise_map.mpr apart
    have kept := pairs.sublist sublist
    rw [List.pairwise_map] at kept
    exact kept
  have member : entry.plan ∈ plan.entries := by
    have every := @forall_levels_iff _ _ _ _ _ _ _ _ built (fun result => result ∈ plan.entries)
    exact every.mpr (fun _ listed => listed) level (List.mem_of_getElem? here) entry inLevel
  have listed := sublist.subset (List.mem_map.mpr ⟨entry.plan, member, rfl⟩)
  obtain ⟨origin, inEntries, same⟩ := List.mem_map.mp listed
  obtain ⟨samePath, sameNode⟩ := Prod.mk.inj same
  rw [get_before_level built planApart here inLevel ran, ← sameNode]
  have path : entry.path = origin.path := samePath.symm
  rw [path]
  exact paths origin inEntries

/-- For every target and every limit, a guided discovery that returns is read as it is planned. -/
def ExecutionCoordinator.ReadsGuided (coordinator : ExecutionCoordinator V M F H) (model : M)
    (payload : Json) : Prop :=
  ∀ target maxDepth entries,
    coordinator.extract ⟨payload, target, some model, maxDepth⟩ = .ok entries →
    coordinator.ReadsPlanned payload entries

/-- Copy and payload are walked side by side, down to what the copy finds: there the payload has a
mapping that names the same version.
-/
def ExecutionCoordinator.Keeps (coordinator : ExecutionCoordinator V M F H) (seen : Dumped)
    (payload : Json) : Prop :=
  let adapter := coordinator.adapter
  let graph := coordinator.finder.graph
  seen.Follows (graph.matchDumped adapter.kindProperty adapter.versionProperty)
    (fun node value =>
      graph.matchPayload adapter.kindProperty adapter.versionProperty value = some node)
    (some payload)

/-- The coordinator with another normaliser of payloads. -/
def ExecutionCoordinator.normalisedBy (coordinator : ExecutionCoordinator V M F H)
    (validate : Json → M → Bool → Except Raised Dumped) : ExecutionCoordinator V M F H :=
  { coordinator with adapter := { coordinator.adapter with validate } }

omit [DecidableEq V] [VersionValue V] in
/-- What validation dumps has every key once, as mappings do. -/
def ModelAdapter.DumpsMappings (adapter : ModelAdapter M) : Prop :=
  ∀ data model strict seen, adapter.validate data model strict = .ok seen → seen.WellFormed

/-- No mapping names a version of the graph. -/
def MigrationGraph.Nameless (graph : MigrationGraph V) (kindProperty versionProperty : String)
    : Prop :=
  ∀ kind text, graph.matchPayload kindProperty versionProperty
    (.obj [(kindProperty, .str kind), (versionProperty, .str text)]) = none

omit [DecidableEq V] [VersionValue V] in
theorem ModelAdapter.DumpsMappings.wellFormed {adapter : ModelAdapter M}
    (dumps : adapter.DumpsMappings) {mode : ValidationMode} {payload : Json}
    (wellFormed : WellFormed payload) {model : M} {seen : Dumped}
    (validated : validatedPayload adapter mode payload model = .ok seen)
    : seen.WellFormed := by
  unfold validatedPayload at validated
  split at validated
  case isTrue =>
    obtain rfl := Except.ok.inj validated
    exact Dumped.wellFormed_ofJson wellFormed
  case isFalse =>
    split at validated
    case h_1 copy dumped =>
      obtain rfl := Except.ok.inj validated
      exact dumps _ _ _ _ dumped
    case h_2 => split at validated <;> cases validated

/-- Of what names a node of a snapshot, exactly what is matched to it has its kind and version. -/
theorem Reachable.names_iff {config : Config V F} {source : Registry V}
    (reached : Reachable config source) {hasher : ContentHasher} {revision : Option Revision}
    {graph : MigrationGraph V} (built : buildGraph hasher source revision = .ok graph)
    {kp vp : String} {node : VersionNode V} {other : Json}
    (named : graph.matchPayload kp vp other = some node) {value : Json}
    : Names kp vp node value ↔ graph.matchPayload kp vp value = some node := by
  have stores := reached.nodeStores
  obtain ⟨steps⟩ := buildGraph_steps stores reached.edgeStores built
  obtain ⟨stored, own, _⟩ := steps.of_matchPayload stores named
  constructor
  · rintro ⟨members, text, rfl, kind, version, parsed⟩
    exact steps.matchPayload_eq stores stored own kind version parsed
  · intro hit
    exact (steps.of_matchPayload stores hit).2.2

/-- A payload that is walked as it is keeps what is found. -/
theorem ExecutionCoordinator.keeps_ofJson {coordinator : ExecutionCoordinator V M F H}
    {payload : Json} (wellFormed : WellFormed payload)
    : coordinator.Keeps (.ofJson payload) payload := by
  refine Dumped.follows_iff.mp ?_
  intro find member
  rw [outermost_ofJson] at member
  obtain ⟨⟨value, position, named⟩, _⟩ := (mem_finds wellFormed).mp member
  exact ⟨value, Dumped.reads?_some.mpr (get_of_at? position), named⟩

/-- What finds nothing is kept by every payload. -/
theorem ExecutionCoordinator.keeps_of_nameless {coordinator : ExecutionCoordinator V M F H}
    (nameless : coordinator.finder.graph.Nameless coordinator.adapter.kindProperty
      coordinator.adapter.versionProperty)
    {seen : Dumped} {payload : Json}
    : coordinator.Keeps seen payload := by
  refine Dumped.follows_iff.mp ?_
  intro find member
  obtain ⟨copied, hit⟩ := Dumped.matched_of_mem_outermost member
  obtain ⟨_, kind, text, _, _, _, named⟩ := MigrationGraph.matchDumped_eq_some.mp hit
  rw [nameless kind text] at named
  cases named

section Validation

variable {config : Config V F} {source : Registry V} (reached : Reachable config source)
  {hasher : ContentHasher} {revision : Option Revision}
  {coordinator : ExecutionCoordinator V M F H}
  (built : buildGraph hasher source revision = .ok coordinator.finder.graph)
include reached built

/-- What the copy finds resolves in the payload exactly if the payload keeps it. -/
theorem Reachable.keeps_iff {seen : Dumped} {payload : Json}
    : (∀ find ∈ seen.outermost (coordinator.finder.graph.matchDumped
          coordinator.adapter.kindProperty coordinator.adapter.versionProperty),
        ∃ value, find.1.get payload = .ok value
          ∧ Names coordinator.adapter.kindProperty coordinator.adapter.versionProperty find.2 value)
      ↔ coordinator.Keeps seen payload := by
  refine Iff.trans ?_ Dumped.follows_iff
  refine forall₂_congr (fun find member => exists_congr (fun value => and_congr ?_ ?_))
  · exact Dumped.reads?_some.symm
  · obtain ⟨copied, hit⟩ := Dumped.matched_of_mem_outermost member
    obtain ⟨_, _, _, _, _, _, named⟩ := MigrationGraph.matchDumped_eq_some.mp hit
    exact reached.names_iff built named

/-- The plans of a guided discovery are read as planned exactly if the payload keeps what the
validated copy finds.
-/
theorem Reachable.readsGuided_iff (dumps : coordinator.adapter.DumpsMappings) {payload : Json}
    (wellFormed : WellFormed payload) {model : M}
    : coordinator.ReadsGuided model payload
      ↔ (coordinator.adapter.canHandle model = true → ∀ seen,
          validatedPayload coordinator.adapter coordinator.validation payload model = .ok seen →
          coordinator.Keeps seen payload) := by
  constructor
  · intro reads handles seen validated
    refine (reached.keeps_iff built).mp ?_
    intro find member
    have unlimited : (-1 : Int) < 0 := by decide
    obtain ⟨yields, discovered⟩ : ∃ yields,
        coordinator.extract ⟨payload, .nothing, some model, -1⟩ = .ok yields := by
      rw [ExecutionCoordinator.extract, extract_validated handles validated unlimited]
      exact ⟨_, rfl⟩
    obtain ⟨copy, _, again, rfl⟩ := ExecutionCoordinator.extract_guided_ok rfl discovered
    obtain rfl := Except.ok.inj (validated.symm.trans again)
    exact (reads .nothing (-1) _ discovered).paths ⟨find.1, find.2⟩
      (List.mem_map.mpr ⟨find, member, rfl⟩)
  · intro keeps target maxDepth entries discovered
    obtain ⟨seen, handles, validated, rfl⟩ := ExecutionCoordinator.extract_guided_ok rfl discovered
    refine ExecutionCoordinator.readsPlanned_of_paths ?_ ?_
    · rw [Runner.entriesOf, List.pairwise_map]
      exact Dumped.outermost_apart (dumps.wellFormed wellFormed validated)
    · intro entry member
      obtain ⟨find, inFinds, rfl⟩ := List.mem_map.mp member
      exact (reached.keeps_iff built).mpr (keeps handles seen validated) find inFinds

/-- A normaliser that adds a version under a fresh key breaks a plan. -/
theorem Reachable.exists_breaking {payload : Json} (wellFormed : WellFormed payload) {model : M}
    (validates : coordinator.validation ≠ .none)
    (handles : coordinator.adapter.canHandle model = true)
    (nameable : ¬ coordinator.finder.graph.Nameless coordinator.adapter.kindProperty
      coordinator.adapter.versionProperty)
    : ∃ validate, (coordinator.normalisedBy validate).adapter.DumpsMappings
        ∧ ¬ (coordinator.normalisedBy validate).ReadsGuided model payload := by
  simp only [MigrationGraph.Nameless, not_forall] at nameable
  obtain ⟨kind, text, nameable⟩ := nameable
  obtain ⟨node, named⟩ := Option.ne_none_iff_exists'.mp nameable
  obtain ⟨added, keyed, hit⟩ := MigrationGraph.exists_matchPayload named
  obtain ⟨name, fresh⟩ := Dumped.exists_step?_none payload
  let other := coordinator.normalisedBy (fun _ _ _ =>
    .ok (.dict [(.key name, .ofJson (.obj added))]))
  have snapshot : buildGraph hasher source revision = .ok other.finder.graph := built
  have dumps : other.adapter.DumpsMappings := by
    intro data model strict seen validated
    obtain rfl := Except.ok.inj validated
    exact ⟨List.nodup_singleton _, Dumped.wellFormed_ofJson keyed, trivial⟩
  refine ⟨_, dumps, ?_⟩
  intro reads
  have keeps := (reached.readsGuided_iff snapshot dumps wellFormed).mp reads handles
    (.dict [(.key name, .ofJson (.obj added))]) (if_neg validates)
  exact Dumped.not_follows_added (MigrationGraph.matchDumped_nested _ _)
    ((MigrationGraph.matchDumped_ofJson (.obj added)).trans hit) fresh keeps

end Validation

/-- In a snapshot of a reachable registry, plans of a guided discovery are read as planned for every
normaliser exactly if nothing is validated, the source model is refused or no mapping names a
version. For a given normaliser they are exactly if the payload keeps what its copy finds.
-/
theorem readsPlanned_iff {config : Config V F} {source : Registry V}
    (reached : Reachable config source) {hasher : ContentHasher} {revision : Option Revision}
    {coordinator : ExecutionCoordinator V M F H}
    (built : buildGraph hasher source revision = .ok coordinator.finder.graph) {payload : Json}
    (wellFormed : WellFormed payload) (model : M)
    : ((∀ validate, (coordinator.normalisedBy validate).adapter.DumpsMappings →
          (coordinator.normalisedBy validate).ReadsGuided model payload)
        ↔ coordinator.validation = .none ∨ coordinator.adapter.canHandle model = false
          ∨ coordinator.finder.graph.Nameless coordinator.adapter.kindProperty
              coordinator.adapter.versionProperty)
      ∧ (coordinator.adapter.DumpsMappings →
          (coordinator.ReadsGuided model payload
            ↔ (coordinator.adapter.canHandle model = true → ∀ seen,
                validatedPayload coordinator.adapter coordinator.validation payload model
                  = .ok seen → coordinator.Keeps seen payload))) := by
  refine ⟨⟨?_, ?_⟩, fun dumps => reached.readsGuided_iff built dumps wellFormed⟩
  · intro reads
    by_contra free
    obtain ⟨validates, handles, nameable⟩ :
        coordinator.validation ≠ .none ∧ coordinator.adapter.canHandle model = true
          ∧ ¬ coordinator.finder.graph.Nameless coordinator.adapter.kindProperty
              coordinator.adapter.versionProperty := by
      simpa [not_or] using free
    obtain ⟨validate, dumps, breaks⟩ := reached.exists_breaking built wellFormed validates handles
      nameable
    exact breaks (reads validate dumps)
  · intro free validate dumps
    have snapshot : buildGraph hasher source revision
        = .ok (coordinator.normalisedBy validate).finder.graph := built
    refine (reached.readsGuided_iff snapshot dumps wellFormed).mpr ?_
    intro handles seen validated
    rcases free with unvalidated | refused | nameless
    · obtain rfl := Except.ok.inj (validated.symm.trans (if_pos unvalidated))
      exact ExecutionCoordinator.keeps_ofJson wellFormed
    · exact Bool.noConfusion (refused.symm.trans handles)
    · exact ExecutionCoordinator.keeps_of_nameless nameless

/-- An adapter whose models have two fields with defaults, `item` with the first release of `User`
and `slots` with an integer for a key, and ignore all that a payload has.
-/
def defaultingCoordinator (graph : MigrationGraph Release) (validation : ValidationMode)
    : ExecutionCoordinator Release Unit Unit Unit :=
  { plainCoordinator graph .any with
    validation
    adapter := ⟨"kind", "version", fun _ => true, fun _ _ => none, fun _ _ _ =>
      .ok (.dict [(.key "item", .ofJson firstUser.payload),
        (.key "slots", .dict [(.index 0, .leaf .null)])])⟩ }

theorem dumpsMappings_defaulting (graph : MigrationGraph Release) (validation : ValidationMode)
    : (defaultingCoordinator graph validation).adapter.DumpsMappings := by
  intro data model strict seen validated
  obtain rfl := Except.ok.inj validated
  simp [firstUser, Dumped.ofJson, Dumped.ofMembers, Dumped.WellFormed, Dumped.WellFormedMembers]

/-- Witness: the field is in the payload already; and nothing is validated. -/
theorem readsPlanned_given
    : ∃ graph, buildGraph plainConfig.hasher (userCatalogIn "default") none = .ok graph
        ∧ (defaultingCoordinator graph .lax).ReadsGuided ()
          (.obj [("item", firstUser.payload), ("extra", .int 1)])
        ∧ ((defaultingCoordinator graph .none).normalisedBy
            (defaultingCoordinator graph .lax).adapter.validate).ReadsGuided () listedUsers.payload := by
  have shown : (buildGraph plainConfig.hasher (userCatalogIn "default") none).map (fun graph =>
      (Dumped.dict [(.key "item", .ofJson firstUser.payload),
        (.key "slots", .dict [(.index 0, .leaf .null)])]).outermost
          (graph.matchDumped "kind" "version"))
      = .ok [([.key "item"], userNode 1 "UserV1")] := by
    decide +kernel
  have named : (buildGraph plainConfig.hasher (userCatalogIn "default") none).map (fun graph =>
      graph.matchPayload "kind" "version" firstUser.payload)
      = .ok (some (userNode 1 "UserV1")) := by
    decide +kernel
  have reached : Reachable plainConfig (userCatalogIn "default") :=
    .step _ (.new plainConfig "default" false (by decide))
  cases built : buildGraph plainConfig.hasher (userCatalogIn "default") none with
  | error error => simp [built, Except.map] at shown
  | ok graph =>
      simp only [built, Except.map, Except.ok.injEq] at shown named
      refine ⟨graph, rfl, ?_, ?_⟩
      · have wellFormed : WellFormed (.obj [("item", firstUser.payload), ("extra", .int 1)]) := by
          simp [firstUser, WellFormed, WellFormedMembers]
        have given := @readsPlanned_iff _ _ _ _ _ _ _ _ reached _ _
          (defaultingCoordinator graph .lax) built _ wellFormed ()
        refine (given.2 (dumpsMappings_defaulting graph .lax)).mpr ?_
        intro _ seen validated
        obtain rfl := Except.ok.inj validated
        refine Dumped.follows_iff.mp ?_
        intro find member
        obtain rfl := List.mem_singleton.mp (shown ▸ member)
        exact ⟨firstUser.payload, rfl, named⟩
      · have given := @readsPlanned_iff _ _ _ _ _ _ _ _ reached _ _
          (defaultingCoordinator graph .none) built _ wellFormed_listedUsers ()
        exact given.1.mpr (.inl rfl) _ (dumpsMappings_defaulting graph .lax)

/-- Counterexample: the field is filled in by the validation, and the payload has nothing there. -/
theorem not_readsPlanned_defaulted
    : ¬ ∀ (registry : Registry Release), Reachable plainConfig registry →
        ∀ (coordinator : ExecutionCoordinator Release Unit Unit Unit),
        buildGraph plainConfig.hasher registry none = .ok coordinator.finder.graph →
        coordinator.adapter.DumpsMappings →
        ∀ (model : Unit) (payload : Json), WellFormed payload →
          coordinator.ReadsGuided model payload := by
  intro claim
  have shown : (buildGraph plainConfig.hasher (userCatalogIn "default") none).map (fun graph =>
      (defaultingCoordinator graph .lax).extract ⟨.obj [], .nothing, some (), -1⟩)
      = .ok (.ok [⟨[.key "item"], userNode 1 "UserV1"⟩]) := by
    decide +kernel
  have reached : Reachable plainConfig (userCatalogIn "default") :=
    .step _ (.new plainConfig "default" false (by decide))
  cases built : buildGraph plainConfig.hasher (userCatalogIn "default") none with
  | error error => simp [built, Except.map] at shown
  | ok graph =>
      simp only [built, Except.map, Except.ok.injEq] at shown
      have reads := claim _ reached (defaultingCoordinator graph .lax) built
        (dumpsMappings_defaulting graph .lax) () (.obj []) ⟨List.nodup_nil, trivial⟩
      obtain ⟨value, read, _⟩ := (reads _ _ _ shown).paths _ List.mem_cons_self
      cases read

end Pyverge
