import Pyverge.Registry.ModelIndex
import Pyverge.Registry.Refusals

/-! Removals that return: what each takes out of the stores where no linter raises. -/

namespace Pyverge

variable {V F : Type} [DecidableEq V] [VersionValue V]

-----------------------------------------------------------------------------------------
-- Linters that answer
-----------------------------------------------------------------------------------------

/-- No linter raises on a registry whose stores are in order. -/
def LintsOrdered (linters : List (HealthLinter V)) : Prop :=
  ∀ registry, NodeStores registry → EdgeStores registry →
    ∀ entity, ∃ issues, lint linters registry entity = .ok issues

section Defaults

variable (uniform : ∀ left right : V, VersionValue.strategy left = VersionValue.strategy right)
  {registry : Registry V} (nodes : NodeStores registry) (edges : EdgeStores registry)

include uniform

omit [DecidableEq V] in
include nodes in
theorem exists_findEntry (key : NodeId V) : ∃ found, registry.findEntry key = .ok found :=
  ⟨_, findNode_eq nodes.sorted (fun _ _ => uniform _ _)⟩

include edges in
omit [DecidableEq V] in
theorem exists_hasMigration (key : EdgeId V)
    : ∃ answer, registry.hasMigration key = .ok answer := by
  obtain ⟨found, run⟩ := edges.exists_findEdgeIn.mpr
    (fun _ _ => ⟨uniform _ _, fun _ => uniform _ _⟩ : registry.Searchable key)
  exact ⟨_, by rw [Registry.hasMigration, run]; rfl⟩

include nodes in
omit [DecidableEq V] in
theorem exists_missingReferencesOver (entity : NodeId V) (references : List (NodeId V))
    : ∃ issues, missingReferencesOver registry entity references = .ok issues := by
  induction references with
  | nil => exact ⟨[], rfl⟩
  | cons reference rest ih =>
      obtain ⟨later, run⟩ := ih
      obtain ⟨found, search⟩ := exists_findEntry uniform nodes reference
      have model : registry.hasModel reference = .ok found.isSome := by
        rw [Registry.hasModel, ← Registry.findEntry, search]
        rfl
      unfold missingReferencesOver
      rw [model, run]
      cases reference.nameSpace == registry.nameSpace <;> cases found.isSome <;>
        exact ⟨_, rfl⟩

include nodes in
omit [DecidableEq V] in
theorem exists_endpointIssue (edge : EdgeId V) (endpoint : NodeId V)
    : ∃ issues, endpointIssue registry edge endpoint = .ok issues := by
  obtain ⟨found, search⟩ := exists_findEntry uniform nodes endpoint
  unfold endpointIssue
  rw [Registry.hasEntry, search]
  by_cases outside : endpoint.nameSpace ≠ registry.nameSpace
  · exact ⟨_, if_pos outside⟩
  · rw [if_neg outside]
    cases found <;> exact ⟨_, rfl⟩

include edges in
omit [DecidableEq V] in
theorem exists_missingMigrationsOver (entity : NodeId V) {versions : List (VersionNode V)}
    {kind : ModelKind} (own : ∀ version ∈ versions, version.id.kind = kind)
    : ∃ issues, missingMigrationsOver registry entity versions = .ok issues := by
  induction versions with
  | nil => exact ⟨[], rfl⟩
  | cons source rest ih =>
      obtain ⟨issues, run⟩ := ih (fun version member => own version (List.mem_cons_of_mem _ member))
      cases rest with
      | nil => exact ⟨[], rfl⟩
      | cons target others =>
          have compared : source.id.eq entity = .ok (source.id.cmp entity == .eq) :=
            if_pos (uniform _ _)
          unfold missingMigrationsOver
          rw [compared]
          simp only [bind, Except.bind]
          split
          · exact ⟨issues, run⟩
          · have inside : source.id.nameSpace = target.id.nameSpace := by
              by_contra apart
              simp_all
            have same : source.id.kind = target.id.kind :=
              (own source (by simp)).trans (own target (by simp)).symm
            obtain ⟨pair, built⟩ := EdgePair.exists_fromPair.mpr
              (⟨by decide, inside, same⟩ : defaultDiscriminator ≠ ""
                ∧ (Comparable.versioned (.versionNode source)).id.nameSpace
                  = (Comparable.versioned (.versionNode target)).id.nameSpace
                ∧ (Comparable.versioned (.versionNode source)).kind
                  = (Comparable.versioned (.versionNode target)).kind)
            obtain ⟨joined, search⟩ := exists_hasMigration uniform edges pair.id
            rw [built]
            simp only [search]
            cases joined <;> exact ⟨_, rfl⟩

/-- The default linters do not raise where versions have one strategy. -/
theorem defaultHealthLinters_lintsOrdered : LintsOrdered (defaultHealthLinters (V := V)) := by
  intro registry nodes edges entity
  have references : ∃ issues, missingReferencesLinter registry entity = .ok issues := by
    cases entity with
    | edge value => exact ⟨[], rfl⟩
    | node value =>
        unfold missingReferencesLinter
        simp only
        split
        · exact exists_missingReferencesOver uniform nodes _ _
        · exact ⟨[], rfl⟩
  have endpoints : ∃ issues, missingEdgeEndpointsLinter registry entity = .ok issues := by
    cases entity with
    | node value => exact ⟨[], rfl⟩
    | edge value =>
        obtain ⟨source, first⟩ := exists_endpointIssue uniform nodes value.id value.id.source
        obtain ⟨target, second⟩ := exists_endpointIssue uniform nodes value.id value.id.target
        unfold missingEdgeEndpointsLinter
        simp only [first, second]
        split
        · exact ⟨_, rfl⟩
        · exact ⟨[], rfl⟩
  have migrations : ∃ issues, missingMigrationsLinter registry entity = .ok issues := by
    cases entity with
    | edge value => exact ⟨[], rfl⟩
    | node value =>
        unfold missingMigrationsLinter
        simp only
        split
        · exact exists_missingMigrationsOver uniform edges _
            (fun version member => (nodes.mem_kindVersions.mp member).2)
        · exact ⟨[], rfl⟩
  obtain ⟨first, references⟩ := references
  obtain ⟨second, endpoints⟩ := endpoints
  obtain ⟨third, migrations⟩ := migrations
  refine ⟨first ++ (second ++ (third ++ [])), ?_⟩
  simp only [defaultHealthLinters, lint, references, endpoints, migrations]
  rfl

end Defaults

-----------------------------------------------------------------------------------------
-- Removing one edge
-----------------------------------------------------------------------------------------

section Removal

variable {config : Config V F} (lints : LintsOrdered config.linters) {registry : Registry V}

include lints

theorem LintsOrdered.refresh (registry : Registry V) (nodes : NodeStores registry)
    (edges : EdgeStores registry) (entities : List (Entity V))
    : ∃ final, refreshHealth config.linters entities registry = .ok ⟨⟩ final
        ∧ final.edgeIndexes = registry.edgeIndexes := by
  suffices returned : ∃ final, refreshHealth config.linters entities registry = .ok ⟨⟩ final by
    obtain ⟨final, run⟩ := returned
    have kept := refreshHealth_keepsIndexes config.linters entities registry
    rw [Py.after_of_ok run] at kept
    exact ⟨final, run, kept⟩
  unfold refreshHealth
  induction Entity.distinct entities generalizing registry with
  | nil => exact ⟨registry, rfl⟩
  | cons entity rest ih =>
      have keepsNodes : ∀ health, NodeStores { registry with health } :=
        fun _ => ⟨nodes.sorted, nodes.uniform, nodes.grouped⟩
      have keepsEdges : ∀ health, EdgeStores { registry with health } :=
        fun _ => ⟨edges.sorted, edges.filed, edges.comparable⟩
      let referred := registry.health.setReferences entity entity.references
      obtain ⟨issues, found⟩ := lints _ (keepsNodes referred) (keepsEdges referred) entity
      let told := referred.setHealth entity.id issues
      obtain ⟨final, run⟩ := ih _ (keepsNodes told) (keepsEdges told)
      refine ⟨final, (Py.forM_cons_ok ?_).trans run⟩
      simp only [refreshEntity, modifyHealth, Py.bind_apply, Py.modify_apply, Py.query_apply]
      rw [found]

omit lints

/-- What a removal of an edge that returns has done to the stores. -/
structure Registry.CutFrom (registry : Registry V) (key : EdgeId V) (final : Registry V)
    : Prop where
  nodes : final.nodeView = registry.nodeView
  hooks : final.hooks = registry.hooks
  paths : final.edges = (registry.edgeIndexes.cut key).paths
  digests : final.digestIndex.isSome = registry.digestIndex.isSome

omit [DecidableEq V] in
/-- Nothing is cut where no edge equals the key. -/
theorem cut_of_absent {key : EdgeId V}
    (absent : ∀ edge ∈ registry.edges key.kind, edge.id.cmp key ≠ .eq)
    : (registry.edgeIndexes.cut key).paths = registry.edges := by
  funext kind
  change (if kind = key.kind then _ else _) = _
  split
  case isFalse => rfl
  case isTrue same =>
    subst same
    exact List.filter_eq_self.mpr (fun edge member => by simp [absent edge member])

/-- The registry without the edges that equal the key, before any index is told. -/
def Registry.withoutKey (registry : Registry V) (key : EdgeId V) : Registry V :=
  let cut := registry.setEdges key.kind
    ((registry.edges key.kind).filter (fun edge => !(edge.id.cmp key == .eq)))
  if (cut.edges key.kind).isEmpty then { cut with migrations := cut.migrations.erase key.kind }
  else cut

omit [DecidableEq V] in
theorem edgeIndexes_withoutKey (registry : Registry V) (key : EdgeId V)
    : (registry.withoutKey key).edgeIndexes = registry.edgeIndexes.cut key := by
  unfold Registry.withoutKey
  rw [edgeIndexes_forget, edgeIndexes_setEdges]
  rfl

omit [DecidableEq V] in
theorem nodeStores_withoutKey (nodes : NodeStores registry) (key : EdgeId V)
    : NodeStores (registry.withoutKey key) := by
  refine nodes.of_nodeView ?_
  unfold Registry.withoutKey
  simp only
  split <;> rfl

omit [DecidableEq V] in
theorem edgeStores_withoutKey (edges : EdgeStores registry) (key : EdgeId V)
    : EdgeStores (registry.withoutKey key) := by
  have fewer : EdgeStores (registry.setEdges key.kind
      ((registry.edges key.kind).filter (fun edge => !(edge.id.cmp key == .eq)))) :=
    edges.sublist List.filter_sublist
  refine fewer.of_edges ?_
  exact (EdgeIndexes.mk.inj (edgeIndexes_forget (registry.setEdges key.kind _) key.kind)).1

/-- The rest of `remove_migration` once the edge is out of its list. -/
def Registry.removeFound (config : Config V F) (key : Transitional V) (existing : EdgeEntry V)
    : RegistryM V PUnit := do
  match existing with
  | .edgeKey _ => pure ()
  | .versionEdge version =>
      if (← Py.query (fun registry => .ok registry.digestIndex)).isSome then
        let digest ← Py.query (fun _ => version.digest config.hasher)
        modify (fun registry =>
          { registry with digestIndex := registry.digestIndex.map (·.erase digest) })
  modify (fun registry => registry.unindexEdge key.id)
  modifyHealth (fun index => index.dropEntity (.edge (.stored existing)))
  refreshHealth config.linters
    ((affectedByEdgeChange (.stored existing)).filter
      (fun entity => entity.id ≠ .edge existing.id))

section Search

variable {key : Transitional V} (edges : EdgeStores registry)
  (unhooked : registry.hasHooks key.id = false) (searchable : registry.Searchable key.id)

include edges unhooked searchable

/-- Removing an absent edge refreshes what it touches. -/
theorem removeMigration_absent
    (absent : ∀ edge ∈ registry.edges key.kind, edge.id.cmp key.id ≠ .eq)
    : Registry.removeMigration config key registry
      = refreshHealth config.linters (affectedByEdgeChange key) (registry.touched key.kind) := by
  have touch : Registry.touchMigrations key.kind registry
      = .ok ⟨⟩ (registry.touched key.kind) := rfl
  obtain ⟨found, search⟩ := edges.exists_findEdgeIn.mpr searchable
  have met := findEdgeIn_of_ok (edges.sorted key.kind) search
  have none : (registry.edges key.kind).find? (fun edge => edge.id.cmp key.id == .eq) = none :=
    List.find?_eq_none.mpr (fun edge member => by simp [absent edge member])
  obtain rfl := met.trans none
  change findEdgeIn (registry.edges key.kind) key.id = _ at search
  unfold Registry.removeMigration
  rw [Py.query_bind_eq]
  simp only [unhooked, Bool.false_eq_true, if_false]
  rw [Py.bind_eq_of_ok touch, Py.query_bind_eq, Registry.edges_touched, search]

/-- Removing a stored edge takes it out of its list before anything can raise. -/
theorem removeMigration_found {existing : EdgeEntry V} (stored : existing ∈ registry.edges key.kind)
    (equal : existing.id.cmp key.id = .eq)
    : Registry.removeMigration config key registry
      = Registry.removeFound config key existing (registry.withoutKey key.id) := by
  obtain ⟨found, search⟩ := edges.exists_findEdgeIn.mpr searchable
  have met := findEdgeIn_of_ok (edges.sorted key.kind) search
  have hit : (registry.edges key.kind).find? (fun edge => edge.id.cmp key.id == .eq)
      = some existing :=
    (edges.sorted key.kind).find?_eq_some.mpr ⟨stored, equal⟩
  obtain rfl := met.trans hit
  obtain ⟨index, place⟩ := (exists_bisectEdges (edges.sorted key.kind)
    (edges.comparable key.kind)).mpr searchable
  have erased : (registry.edges key.kind).eraseIdx index = _ :=
    bisectEdges_of_ok (edges.sorted key.kind) place
      ▸ eraseIdx_edgeIndex (edges.sorted key.kind) hit
  change findEdgeIn (registry.edges key.kind) key.id = _ at search
  unfold Registry.removeMigration
  rw [Py.query_bind_eq]
  simp only [unhooked, Bool.false_eq_true, if_false]
  rw [Py.bind_eq_of_ok (Registry.touchMigrations_of_mem stored), Py.query_bind_eq, search]
  simp only
  rw [Py.query_bind_eq, place]
  simp only
  rw [Py.bind_eq_of_ok (Py.modify_apply _ _), Py.bind_eq_of_ok (Py.modify_apply _ _), erased]
  rfl

end Search

include lints in
/-- Where no hook, no comparison and no digest stops it, a removal returns. -/
theorem removeMigration_returns (nodes : NodeStores registry) (edges : EdgeStores registry)
    {key : Transitional V} (unhooked : registry.hasHooks key.id = false)
    (searchable : registry.Searchable key.id)
    (hashable : registry.digestIndex.isSome → ∀ edge ∈ registry.edges key.kind,
      edge.id.cmp key.id = .eq → edge.Hashable)
    : ∃ final, Registry.removeMigration config key registry = .ok ⟨⟩ final
        ∧ registry.CutFrom key.id final := by
  suffices returned : ∃ final, Registry.removeMigration config key registry = .ok ⟨⟩ final
      ∧ final.edges = (registry.edgeIndexes.cut key.id).paths
      ∧ final.digestIndex.isSome = registry.digestIndex.isSome by
    obtain ⟨final, run, paths, digests⟩ := returned
    have kept := removeMigration_keepsNodes config key registry
    have hooks := @removeMigration_keeps _ _ _ _ _ Registry.hooks (fun _ _ _ _ _ => rfl) config key
      registry
    rw [Py.after_of_ok run] at kept hooks
    exact ⟨final, run, kept, hooks, paths, digests⟩
  by_cases absent : ∀ edge ∈ registry.edges key.kind, edge.id.cmp key.id ≠ .eq
  · obtain ⟨final, run, kept⟩ := lints.refresh (registry.touched key.kind)
      (nodes.of_nodeView rfl) (edges.of_edges (Registry.edges_touched registry key.kind))
      (affectedByEdgeChange key)
    obtain ⟨paths, _, digests⟩ := EdgeIndexes.mk.inj kept
    rw [removeMigration_absent edges unhooked searchable absent]
    refine ⟨final, run, ?_, congrArg Option.isSome digests⟩
    rw [cut_of_absent absent, paths, Registry.edges_touched]
  · simp only [not_forall, not_not] at absent
    obtain ⟨existing, stored, equal⟩ := absent
    obtain ⟨paths, _, digests⟩ := EdgeIndexes.mk.inj (edgeIndexes_withoutKey registry key.id)
    have reachedNodes := nodeStores_withoutKey nodes key.id
    have reachedEdges := edgeStores_withoutKey edges key.id
    have finish : ∀ state : Registry V, NodeStores state → EdgeStores state →
        ∃ final, (do
          modify (fun registry => registry.unindexEdge key.id)
          modifyHealth (fun index => index.dropEntity (.edge (.stored existing)))
          refreshHealth config.linters
            ((affectedByEdgeChange (.stored existing)).filter
              (fun entity => entity.id ≠ .edge existing.id)) : RegistryM V PUnit) state
            = .ok ⟨⟩ final
          ∧ final.edges = state.edges ∧ final.digestIndex = state.digestIndex := by
      intro state nodes edges
      obtain ⟨final, run, kept⟩ := lints.refresh
        { state.unindexEdge key.id with
          health := state.health.dropEntity (.edge (.stored existing)) }
        ⟨nodes.sorted, nodes.uniform, nodes.grouped⟩
        ⟨edges.sorted, edges.filed, edges.comparable⟩
        ((affectedByEdgeChange (.stored existing)).filter
          (fun entity => entity.id ≠ .edge existing.id))
      obtain ⟨paths, _, digests⟩ := EdgeIndexes.mk.inj kept
      exact ⟨final, run, paths, digests⟩
    rw [removeMigration_found edges unhooked searchable stored equal]
    change (registry.withoutKey key.id).digestIndex = registry.digestIndex at digests
    cases existing with
    | edgeKey pair =>
        obtain ⟨final, run, samePaths, sameDigests⟩ := finish _ reachedNodes reachedEdges
        exact ⟨final, run, samePaths.trans paths, by rw [sameDigests, digests]⟩
    | versionEdge version =>
        unfold Registry.removeFound
        simp only
        rw [Py.query_bind_eq]
        simp only [digests]
        cases indexed : registry.digestIndex with
        | none =>
            obtain ⟨final, run, samePaths, sameDigests⟩ := finish _ reachedNodes reachedEdges
            exact ⟨final, run, samePaths.trans paths, by rw [sameDigests, digests, indexed]⟩
        | some index =>
            have hashes : version.Hashable := hashable (by simp [indexed]) _ stored equal
            obtain ⟨digest, hashed⟩ :=
              (@VersionEdge.exists_digest _ _ _ version config.hasher).mpr hashes
            obtain ⟨final, run, samePaths, sameDigests⟩ := finish
              { registry.withoutKey key.id with
                digestIndex := (registry.withoutKey key.id).digestIndex.map (·.erase digest) }
              ⟨reachedNodes.sorted, reachedNodes.uniform, reachedNodes.grouped⟩
              ⟨reachedEdges.sorted, reachedEdges.filed, reachedEdges.comparable⟩
            simp only [Option.isSome_some, if_true]
            rw [Py.query_bind_eq, hashed]
            refine ⟨final, run, samePaths.trans paths, ?_⟩
            rw [sameDigests, digests, indexed]
            rfl

/-- Where the digest of the edge is to be forgotten and raises, the edge is gone already. -/
theorem removeMigration_unhashed (edges : EdgeStores registry) {key : Transitional V}
    (unhooked : registry.hasHooks key.id = false) (searchable : registry.Searchable key.id)
    {version : VersionEdge V} (stored : .versionEdge version ∈ registry.edges key.kind)
    (equal : version.id.cmp key.id = .eq) (indexed : registry.digestIndex.isSome)
    (unhashed : ¬ version.Hashable)
    : ∃ error final, Registry.removeMigration config key registry = .error error final
        ∧ final.edges = (registry.edgeIndexes.cut key.id).paths := by
  obtain ⟨paths, _, digests⟩ := EdgeIndexes.mk.inj (edgeIndexes_withoutKey registry key.id)
  change (registry.withoutKey key.id).digestIndex = registry.digestIndex at digests
  rw [removeMigration_found edges unhooked searchable stored equal, Registry.removeFound]
  cases hashed : version.digest config.hasher with
  | ok digest => exact absurd (VersionEdge.exists_digest.mp ⟨digest, hashed⟩) unhashed
  | error error =>
      refine ⟨error, registry.withoutKey key.id, ?_, paths⟩
      simp only
      rw [Py.query_bind_eq]
      simp only [digests, indexed, if_true]
      rw [Py.query_bind_eq]

end Removal

end Pyverge
