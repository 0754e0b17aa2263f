import Pyverge.Registry.HealthMaps
import Pyverge.Registry.Removals

/-! Rebuilding the health maps: what a refresh caches, and that clearing a catalog leaves exactly
what the linters find in what is left of it.
-/

namespace Pyverge

variable {V F : Type} [DecidableEq V]

-----------------------------------------------------------------------------------------
-- Exact caches
-----------------------------------------------------------------------------------------

/-- The linters read the stores of a catalog, not what is cached about them. -/
def LintsStores (linters : List (HealthLinter V)) : Prop :=
  ∀ (registry : Registry V) health entity,
    lint linters { registry with health } entity = lint linters registry entity

/-- The findings and the references of an entity are cached as they are now. -/
structure Registry.Caches (linters : List (HealthLinter V)) (registry : Registry V)
    (health : HealthIndex V) (entity : Entity V) : Prop where
  issues : lint linters registry entity = .ok (health.healthIssues.getD entity.id [])
  references : health.referencesByEntity.getD entity.id [] = entity.references

/-- Nothing is cached about the identity. -/
structure HealthIndex.Forgets (health : HealthIndex V) (entity : EntityId V) : Prop where
  issues : health.healthIssues.getD entity [] = []
  references : health.referencesByEntity.getD entity [] = []

/-- What is cached is what the linters find for the stored entities now, and nothing else. -/
structure Registry.HealthExact (linters : List (HealthLinter V)) (registry : Registry V)
    : Prop where
  stored : ∀ entity ∈ registry.allEntities, registry.Caches linters registry.health entity
  others : ∀ id, (∀ entity ∈ registry.allEntities, entity.id ≠ id) → registry.health.Forgets id

/-- Two caches have the same to say about an identity. -/
structure HealthIndex.SameAbout (before after : HealthIndex V) (entity : EntityId V) : Prop where
  issues : after.healthIssues.getD entity [] = before.healthIssues.getD entity []
  references : after.referencesByEntity.getD entity [] = before.referencesByEntity.getD entity []

-----------------------------------------------------------------------------------------
-- One entity
-----------------------------------------------------------------------------------------

namespace HealthIndex

variable (index : HealthIndex V)

theorem referencesByEntity_setReferences (entity : Entity V) (references : List (NodeId V))
    (other : EntityId V)
    : (index.setReferences entity references).referencesByEntity.getD other []
      = if other = entity.id then references else index.referencesByEntity.getD other [] := by
  unfold setReferences
  split
  case isTrue none =>
    rw [Py.Dict.getD_erase, List.isEmpty_iff.mp none]
  case isFalse =>
    rw [Py.Dict.getD_set, Py.Dict.getD_erase]
    split <;> rfl

theorem healthIssues_setReferences (entity : Entity V) (references : List (NodeId V))
    : (index.setReferences entity references).healthIssues = index.healthIssues := by
  unfold setReferences
  split <;> rfl

theorem healthIssues_setHealth (entity other : EntityId V) (issues : List (HealthIssue V))
    : (index.setHealth entity issues).healthIssues.getD other []
      = if other = entity then issues else index.healthIssues.getD other [] := by
  unfold setHealth
  split
  case isTrue none => rw [Py.Dict.getD_erase, List.isEmpty_iff.mp none]
  case isFalse => rw [Py.Dict.getD_set]

theorem referencesByEntity_setHealth (entity : EntityId V) (issues : List (HealthIssue V))
    : (index.setHealth entity issues).referencesByEntity = index.referencesByEntity := by
  unfold setHealth
  split <;> rfl

/-- The cache after the refresh of one entity. -/
def refreshed (entity : Entity V) (issues : List (HealthIssue V)) : HealthIndex V :=
  (index.setReferences entity entity.references).setHealth entity.id issues

variable {index}

theorem refreshed_issues (entity : Entity V) (issues : List (HealthIssue V)) (other : EntityId V)
    : (index.refreshed entity issues).healthIssues.getD other []
      = if other = entity.id then issues else index.healthIssues.getD other [] := by
  rw [refreshed, healthIssues_setHealth, healthIssues_setReferences]

theorem refreshed_references (entity : Entity V) (issues : List (HealthIssue V))
    (other : EntityId V)
    : (index.refreshed entity issues).referencesByEntity.getD other []
      = if other = entity.id then entity.references
        else index.referencesByEntity.getD other [] := by
  rw [refreshed, referencesByEntity_setHealth, referencesByEntity_setReferences]

theorem SameAbout.refreshed {entity : Entity V} {issues : List (HealthIssue V)}
    {other : EntityId V} (apart : other ≠ entity.id)
    : index.SameAbout (index.refreshed entity issues) other :=
  ⟨by rw [refreshed_issues, if_neg apart], by rw [refreshed_references, if_neg apart]⟩

theorem SameAbout.trans {first second third : HealthIndex V} {entity : EntityId V}
    (left : first.SameAbout second entity) (right : second.SameAbout third entity)
    : first.SameAbout third entity :=
  ⟨right.issues.trans left.issues, right.references.trans left.references⟩

theorem SameAbout.dropEntity {entity : Entity V} {other : EntityId V} (apart : other ≠ entity.id)
    : index.SameAbout (index.dropEntity entity) other := by
  constructor
  · rw [HealthIndex.dropEntity, healthIssues_setReferences, healthIssues_setHealth, if_neg apart]
  · rw [HealthIndex.dropEntity, referencesByEntity_setReferences, if_neg apart,
      referencesByEntity_setHealth]

end HealthIndex

variable {linters : List (HealthLinter V)}

/-- The refresh of one entity returns exactly if the linters do, and only writes to the cache. -/
theorem refreshEntity_ok (reads : LintsStores linters) {entity : Entity V}
    {registry final : Registry V} {value : PUnit}
    : refreshEntity linters entity registry = .ok value final
      ↔ ∃ issues, lint linters registry entity = .ok issues
        ∧ final = { registry with health := registry.health.refreshed entity issues } := by
  simp only [refreshEntity, modifyHealth, Py.bind_apply, Py.modify_apply, Py.query_apply]
  rw [reads]
  cases lint linters registry entity with
  | error error => simp
  | ok issues =>
      simp only [EStateM.Result.ok.injEq, true_and, Except.ok.injEq, exists_eq_left']
      exact eq_comm

-----------------------------------------------------------------------------------------
-- Several entities
-----------------------------------------------------------------------------------------

namespace Entity

theorem mem_of_distinct {entities : List (Entity V)} {entity : Entity V}
    (member : entity ∈ distinct entities)
    : entity ∈ entities := by
  induction entities with
  | nil => exact member
  | cons first rest ih =>
      rcases List.mem_cons.mp member with same | later
      · exact same ▸ List.mem_cons_self
      · exact List.mem_cons_of_mem _ (ih (List.mem_of_mem_filter later))

/-- Every identity is kept once. -/
theorem nodup_distinct (entities : List (Entity V))
    : ((distinct entities).map id).Nodup := by
  induction entities with
  | nil => exact List.nodup_nil
  | cons first rest ih =>
      rw [distinct, List.map_cons, List.nodup_cons]
      refine ⟨?_, ih.sublist (List.filter_sublist.map id)⟩
      intro again
      obtain ⟨other, member, same⟩ := List.mem_map.mp again
      exact of_decide_eq_true (List.mem_filter.mp member).2 same

theorem exists_distinct {entities : List (Entity V)} {entity : Entity V}
    (member : entity ∈ entities)
    : ∃ kept ∈ distinct entities, kept.id = entity.id := by
  induction entities with
  | nil => cases member
  | cons first rest ih =>
      rcases List.mem_cons.mp member with same | later
      · exact ⟨first, List.mem_cons_self, by rw [same]⟩
      · obtain ⟨kept, listed, same⟩ := ih later
        by_cases first_ : kept.id = first.id
        · exact ⟨first, List.mem_cons_self, first_.symm.trans same⟩
        · exact ⟨kept, List.mem_cons_of_mem _ (List.mem_filter.mpr ⟨listed, by simpa⟩), same⟩

/-- Entities with an identity of their own are all kept. -/
theorem mem_distinct_of_nodup {entities : List (Entity V)} (own : (entities.map id).Nodup)
    {entity : Entity V} (member : entity ∈ entities)
    : entity ∈ distinct entities := by
  obtain ⟨kept, listed, same⟩ := exists_distinct member
  obtain rfl := List.inj_on_of_nodup_map own (mem_of_distinct listed) member same
  exact listed

end Entity

/-- What a refresh that returns has done: the stores stay, the given entities are cached as they
are, and what is cached about others stays.
-/
structure Registry.Refreshed (linters : List (HealthLinter V)) (registry : Registry V)
    (entities : List (Entity V)) (final : Registry V) : Prop where
  stores : final = { registry with health := final.health }
  cached : ∀ entity ∈ Entity.distinct entities, registry.Caches linters final.health entity
  spared : ∀ id, (∀ entity ∈ entities, entity.id ≠ id) → registry.health.SameAbout final.health id

/-- The loop over entities with an identity of their own, by list induction. -/
theorem forM_refreshEntity (reads : LintsStores linters) {entities : List (Entity V)}
    (own : (entities.map Entity.id).Nodup) {registry final : Registry V}
    (run : entities.forM (refreshEntity linters) registry = .ok ⟨⟩ final)
    : final = { registry with health := final.health }
      ∧ (∀ entity ∈ entities, registry.Caches linters final.health entity)
      ∧ ∀ id, (∀ entity ∈ entities, entity.id ≠ id) →
          registry.health.SameAbout final.health id := by
  induction entities generalizing registry with
  | nil =>
      obtain rfl : registry = final := by injection run
      exact ⟨rfl, fun _ member => (List.not_mem_nil member).elim, fun _ _ => ⟨rfl, rfl⟩⟩
  | cons first rest ih =>
      obtain ⟨fresh, ownRest⟩ := List.nodup_cons.mp own
      obtain ⟨⟨⟩, middle, started, later⟩ := Py.bind_ok.mp run
      obtain ⟨issues, found, rfl⟩ := (refreshEntity_ok reads).mp started
      obtain ⟨stores, cached, spared⟩ := ih ownRest later
      have kept := spared first.id (fun entity member same =>
        fresh (List.mem_map.mpr ⟨entity, member, same⟩))
      refine ⟨stores, ?_, ?_⟩
      · intro entity member
        rcases List.mem_cons.mp member with rfl | listed
        · constructor
          · rw [kept.issues, HealthIndex.refreshed_issues, if_pos rfl]
            exact found
          · rw [kept.references, HealthIndex.refreshed_references, if_pos rfl]
        · have told := cached entity listed
          exact ⟨(reads registry _ entity).symm.trans told.issues, told.references⟩
      · intro id apart
        exact HealthIndex.SameAbout.trans
          (.refreshed (fun same => apart first List.mem_cons_self same.symm))
          (spared id (fun entity member => apart entity (List.mem_cons_of_mem _ member)))

theorem refreshHealth_refreshed (reads : LintsStores linters) {entities : List (Entity V)}
    {registry final : Registry V} {value : PUnit}
    (run : refreshHealth linters entities registry = .ok value final)
    : registry.Refreshed linters entities final := by
  obtain ⟨stores, cached, spared⟩ := forM_refreshEntity reads (Entity.nodup_distinct entities) run
  exact ⟨stores, cached, fun id apart => spared id
    (fun entity member => apart entity (Entity.mem_of_distinct member))⟩

/-- A rebuild that returns leaves an exact cache, whatever was cached before. -/
theorem rebuildHealth_exact (reads : LintsStores linters) {registry final : Registry V}
    {value : PUnit} (own : (registry.allEntities.map Entity.id).Nodup)
    (run : rebuildHealth linters registry = .ok value final)
    : final.HealthExact linters ∧ final = { registry with health := final.health } := by
  have later : refreshHealth linters registry.allEntities { registry with health := .empty }
      = .ok value final := by
    rw [← run]
    rfl
  have refreshed := refreshHealth_refreshed reads later
  have stores : final = { registry with health := final.health } := refreshed.stores
  have entities : final.allEntities = registry.allEntities := by rw [stores]; rfl
  refine ⟨⟨?_, ?_⟩, stores⟩
  · intro entity member
    rw [entities] at member
    have told := refreshed.cached entity (Entity.mem_distinct_of_nodup own member)
    refine ⟨?_, told.references⟩
    have read := reads registry final.health entity
    rw [← stores] at read
    rw [read, ← reads registry .empty entity]
    exact told.issues
  · intro id apart
    rw [entities] at apart
    have kept := refreshed.spared id apart
    exact ⟨kept.issues, kept.references⟩

-----------------------------------------------------------------------------------------
-- Clearing a catalog
-----------------------------------------------------------------------------------------

section Defaults

variable [VersionValue V]

omit [DecidableEq V] in
theorem missingReferencesOver_stores (registry : Registry V) (health : HealthIndex V)
    (entity : NodeId V) (references : List (NodeId V))
    : missingReferencesOver { registry with health } entity references
      = missingReferencesOver registry entity references := by
  induction references with
  | nil => rfl
  | cons reference rest ih =>
      unfold missingReferencesOver
      rw [ih]
      rfl

omit [DecidableEq V] in
theorem missingMigrationsOver_stores (registry : Registry V) (health : HealthIndex V)
    (entity : NodeId V) (versions : List (VersionNode V))
    : missingMigrationsOver { registry with health } entity versions
      = missingMigrationsOver registry entity versions := by
  induction versions with
  | nil => rfl
  | cons source rest ih =>
      cases rest with
      | nil => rfl
      | cons target others =>
          unfold missingMigrationsOver
          rw [ih]
          rfl

theorem defaultHealthLinters_lintsStores : LintsStores (defaultHealthLinters (V := V)) := by
  intro registry health entity
  have references : missingReferencesLinter { registry with health } entity
      = missingReferencesLinter registry entity := by
    unfold missingReferencesLinter
    simp only [missingReferencesOver_stores]
  have migrations : missingMigrationsLinter { registry with health } entity
      = missingMigrationsLinter registry entity := by
    unfold missingMigrationsLinter
    simp only [missingMigrationsOver_stores]
    rfl
  have endpoints : missingEdgeEndpointsLinter { registry with health } entity
      = missingEdgeEndpointsLinter registry entity := rfl
  simp only [defaultHealthLinters, lint, references, migrations, endpoints]

end Defaults

section Clearing

variable [VersionValue V] {config : Config V F} {registry final : Registry V}

omit [DecidableEq V] in
/-- Stored entities have identities of their own: nodes and the edges of a kind are sorted, and
edges of two kinds differ in their kind.
-/
theorem nodup_allEntities (nodes : NodeStores registry) (edges : EdgeStores registry)
    : (registry.allEntities.map Entity.id).Nodup := by
  have named : (registry.byVersions.map NodeEntry.id).Nodup := nodes.sorted.nodup_keys
  have listed : (registry.migrations.values.flatten.map EdgeEntry.id).Nodup := by
    rw [List.map_flatten, List.nodup_flatten]
    have paths : ∀ item ∈ registry.migrations.items, registry.edges item.1 = item.2 := by
      intro item member
      rw [Registry.edges, Py.Dict.getD, Py.Dict.get?_eq_some.mpr member]
      rfl
    constructor
    · intro ids member
      obtain ⟨values, inside, rfl⟩ := List.mem_map.mp member
      obtain ⟨item, stored, rfl⟩ := List.mem_map.mp inside
      rw [← paths item stored]
      exact (edges.sorted item.1).nodup_keys
    · rw [Py.Dict.values, List.map_map, List.pairwise_map]
      have apart : registry.migrations.items.Pairwise (fun left right => left.1 ≠ right.1) :=
        List.pairwise_map.mp registry.migrations.nodup
      refine apart.imp_of_mem (fun {left right} inLeft inRight different => ?_)
      intro id first second
      obtain ⟨edge, held, rfl⟩ := List.mem_map.mp first
      obtain ⟨other, heldToo, same⟩ := List.mem_map.mp second
      rw [← paths left inLeft] at held
      rw [← paths right inRight] at heldToo
      have kind := edges.filed left.1 edge held
      have kindToo := edges.filed right.1 other heldToo
      apply different
      rw [← kind, ← kindToo, EdgeEntry.kind, EdgeEntry.kind, same]
  rw [Registry.allEntities, List.map_append, List.map_map, List.map_map, List.nodup_append]
  have nodeIds := named.map (fun left right same => EntityId.node.inj same)
  have edgeIds := listed.map (fun left right same => EntityId.edge.inj same)
  rw [List.map_map] at nodeIds edgeIds
  refine ⟨nodeIds, edgeIds, ?_⟩
  · intro node first edge second same
    obtain ⟨_, _, rfl⟩ := List.mem_map.mp first
    obtain ⟨_, _, rfl⟩ := List.mem_map.mp second
    cases same

/-- Clearing the models or the migrations of any reachable catalog leaves an exact cache, also
where earlier refreshes missed an entity or were cut short by a linter that raised.
-/
theorem Reachable.clear_healthExact (reached : Reachable config registry)
    (reads : LintsStores config.linters) {op : Op V F}
    (clears : op = .clearModels ∨ op = .clearMigrations)
    (returned : op.run config registry = .ok ⟨⟩ final)
    : final.HealthExact config.linters := by
  have rebuilt : ∀ middle : Registry V, NodeStores middle → EdgeStores middle →
      rebuildHealth config.linters middle = .ok ⟨⟩ final → final.HealthExact config.linters :=
    fun middle nodes edges run =>
      (rebuildHealth_exact reads (nodup_allEntities nodes edges) run).1
  have nodes := reached.nodeStores
  have edges := reached.edgeStores
  rcases clears with rfl | rfl
  · change Registry.clearModels config registry = .ok ⟨⟩ final at returned
    simp only [Registry.clearModels, Py.bind_apply, Py.query_apply] at returned
    split at returned
    case isTrue => cases returned
    case isFalse =>
      refine rebuilt _ ?_ ?_ returned
      · exact ⟨List.Pairwise.nil, fun _ member => (List.not_mem_nil member).elim, fun _ => rfl⟩
      · exact edges.of_edges rfl
  · change Registry.clearMigrations config registry = .ok ⟨⟩ final at returned
    refine rebuilt _ ?_ ?_ returned
    · exact nodes.of_nodeView rfl
    · exact .of_empty (fun _ => rfl)

/-- Witness: storing two releases in rising order leaves the gap between them unnoticed, and
clearing the migrations finds it.
-/
theorem clear_healthExact_userCatalog
    : let registry := Registry.runAll plainConfig
        [.store (.versionNode (userNode 1 "UserV1")), .store (.versionNode (userNode 2 "UserV2"))]
        (Registry.new "default" false);
      registry.health.healthIssues.keys = []
        ∧ ∃ final, Registry.clearMigrations plainConfig registry = .ok ⟨⟩ final
          ∧ final.HealthExact plainConfig.linters
          ∧ final.health.healthIssues.keys = [.node (userId 1)] := by
  intro registry
  have reached : Reachable plainConfig registry :=
    .runAll (.new plainConfig "default" false (by decide)) _
  have found : (Py.after (Registry.clearMigrations plainConfig) registry).health.healthIssues.keys
      = [.node (userId 1)] := by
    decide +kernel
  have returns : (Py.outcome (Registry.clearMigrations plainConfig) registry).isOk = true := by
    decide +kernel
  refine ⟨by decide +kernel, ?_⟩
  cases run : Registry.clearMigrations plainConfig registry with
  | error error final =>
      rw [Py.outcome, run] at returns
      cases returns
  | ok value final =>
      rw [Py.after_of_ok run] at found
      exact ⟨final, rfl, reached.clear_healthExact defaultHealthLinters_lintsStores (.inr rfl) run,
        found⟩

end Clearing

end Pyverge
