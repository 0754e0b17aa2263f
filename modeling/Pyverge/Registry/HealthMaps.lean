import Pyverge.Py.Buckets
import Pyverge.Registry.NodeOrder

/-! The four health maps of a registry belong together: two of them are indexes of the other two.
That holds in every state, also after an operation that raised between two writes.
-/

namespace Pyverge

variable {V F : Type}

-----------------------------------------------------------------------------------------
-- Maps that belong together
-----------------------------------------------------------------------------------------

/-- Findings are grouped by the namespace of their entity, references are stored both ways, and
no map holds an empty value.
-/
structure HealthIndex.Indexed [DecidableEq V] (index : HealthIndex V) : Prop where
  findings : ∀ entity, index.healthIssues.get? entity ≠ some []
  byNamespace : index.issuesByNamespace.Files id
    (fun nameSpace entity => entity.nameSpace = nameSpace ∧ entity ∈ index.healthIssues.keys)
  referring : ∀ entity, index.referencesByEntity.get? entity ≠ some []
  inverse : index.referencesTo.Files Entity.id
    (fun reference entity => reference ∈ index.referencesByEntity.getD entity [])

namespace HealthIndex

variable [DecidableEq V] {index : HealthIndex V}

theorem discardReference_eq (entity : EntityId V)
    : discardReference entity = Py.Dict.discardIn Entity.id entity := by
  funext referencesTo reference
  unfold discardReference Py.Dict.discardIn
  cases referencesTo.get? reference <;> rfl

theorem addReference_eq (entity : Entity V)
    : addReference entity = Py.Dict.addIn Entity.id entity := rfl

theorem discardIssue_eq (issuesByNamespace : Py.Dict String (List (EntityId V)))
    (entity : EntityId V)
    : discardIssue issuesByNamespace entity
      = issuesByNamespace.discardIn id entity entity.nameSpace := by
  unfold discardIssue Py.Dict.discardIn
  cases issuesByNamespace.get? entity.nameSpace <;> rfl

theorem Indexed.empty : (HealthIndex.empty : HealthIndex V).Indexed where
  findings := fun _ found => by cases found
  byNamespace := (Py.Dict.Files.empty id).congr (fun _ _ => by simp [HealthIndex.empty,
    ← Py.Dict.contains_iff, Py.Dict.contains])
  referring := fun _ found => by cases found
  inverse := (Py.Dict.Files.empty Entity.id).congr (fun _ _ => by simp [HealthIndex.empty,
    Py.Dict.getD])

/-- The old references of the entity are discarded from the inverse before the new ones enter. -/
theorem Indexed.setReferences (indexed : index.Indexed) (entity : Entity V)
    (references : List (NodeId V))
    : (index.setReferences entity references).Indexed := by
  have cleared := indexed.inverse.discardAll entity.id
    (index.referencesByEntity.getD entity.id [])
  rw [HealthIndex.setReferences, discardReference_eq, addReference_eq]
  split
  case isTrue none =>
    refine ⟨indexed.findings, indexed.byNamespace, ?_, cleared.congr (fun reference other => ?_)⟩
    · intro other
      rw [Py.Dict.get?_erase]
      split
      · simp
      · exact indexed.referring other
    · rw [Py.Dict.getD_erase]
      by_cases same : other = entity.id
      · subst same
        simp
      · simp [same]
  case isFalse some =>
    refine ⟨indexed.findings, indexed.byNamespace, ?_,
      (cleared.addAll entity references).congr (fun reference other => ?_)⟩
    · intro other
      rw [Py.Dict.get?_set, Py.Dict.get?_erase]
      split
      · intro empty
        rw [Option.some.inj empty] at some
        exact some rfl
      · exact indexed.referring other
    · rw [Py.Dict.getD_set, Py.Dict.getD_erase]
      by_cases same : other = entity.id
      · subst same
        simp
      · simp [same]

/-- The entity leaves the bucket of its namespace and comes back if it has findings. -/
theorem Indexed.setHealth (indexed : index.Indexed) (entity : EntityId V)
    (issues : List (HealthIssue V))
    : (index.setHealth entity issues).Indexed := by
  have discarded := indexed.byNamespace.discardIn entity entity.nameSpace
  have absent : ¬ ((index.issuesByNamespace.discardIn id entity entity.nameSpace).getD
      entity.nameSpace []).any (fun other => id other = id entity) = true := by
    intro present
    obtain ⟨other, member, same⟩ := List.any_eq_true.mp present
    have under := (discarded.listed entity.nameSpace entity).mp
      (List.mem_map.mpr ⟨other, member, by simpa using same⟩)
    exact under.2 ⟨rfl, rfl⟩
  rw [HealthIndex.setHealth, discardIssue_eq]
  split
  case isTrue none =>
    refine ⟨?_, discarded.congr (fun nameSpace other => ?_), indexed.referring, indexed.inverse⟩
    · intro other
      rw [Py.Dict.get?_erase]
      split
      · simp
      · exact indexed.findings other
    · rw [Py.Dict.mem_keys_erase]
      constructor
      · intro held
        exact ⟨held.1.1, fun same => held.2 ⟨same ▸ held.1.1.symm, same⟩, held.1.2⟩
      · intro held
        exact ⟨⟨held.1, held.2.2⟩, fun gone => held.2.1 gone.2⟩
  case isFalse some =>
    have added := discarded.addIn entity entity.nameSpace
    rw [Py.Dict.addIn, if_neg absent] at added
    refine ⟨?_, added.congr (fun nameSpace other => ?_), indexed.referring, indexed.inverse⟩
    · intro other
      rw [Py.Dict.get?_set]
      split
      · intro empty
        rw [Option.some.inj empty] at some
        exact some rfl
      · exact indexed.findings other
    · rw [Py.Dict.mem_keys_set, id_eq]
      by_cases same : other = entity
      · subst same
        constructor
        · intro held
          rcases held with held | held
          · exact ⟨held.1.1, .inl rfl⟩
          · exact ⟨held.1.symm, .inl rfl⟩
        · intro held
          exact .inr ⟨held.1.symm, rfl⟩
      · simp [same]

theorem Indexed.dropEntity (indexed : index.Indexed) (entity : Entity V)
    : (index.dropEntity entity).Indexed :=
  (indexed.setHealth entity.id []).setReferences entity []

end HealthIndex

-----------------------------------------------------------------------------------------
-- Operations
-----------------------------------------------------------------------------------------

/-- The health maps of a registry belong together. -/
def Registry.HealthIndexed [DecidableEq V] (registry : Registry V) : Prop :=
  registry.health.Indexed

variable [DecidableEq V]

theorem modifyHealth_healthIndexed {update : HealthIndex V → HealthIndex V}
    (kept : ∀ index, index.Indexed → (update index).Indexed)
    : Py.Preserves Registry.HealthIndexed (modifyHealth update) :=
  .modify (fun _ indexed => kept _ indexed)

/-- A linter that raises leaves new references and old findings, which belong together too. -/
theorem refreshHealth_healthIndexed (linters : List (HealthLinter V)) (entities : List (Entity V))
    : Py.Preserves Registry.HealthIndexed (refreshHealth linters entities) := by
  refine .forM _ (fun entity _ => ?_)
  refine .bind (modifyHealth_healthIndexed (fun _ indexed => indexed.setReferences _ _)) ?_
  intro _
  refine .bind (.query _ _) (fun issues => ?_)
  exact modifyHealth_healthIndexed (fun _ indexed => indexed.setHealth _ _)

theorem rebuildHealth_healthIndexed (linters : List (HealthLinter V))
    : Py.Preserves Registry.HealthIndexed (rebuildHealth linters) := by
  refine .bind (modifyHealth_healthIndexed (fun _ _ => .empty)) (fun _ => ?_)
  exact .bind (.query _ _) (fun _ => refreshHealth_healthIndexed _ _)

/-- A write to the other stores keeps the health maps. -/
theorem spared_healthIndexed {update : Registry V → Registry V}
    (spared : ∀ registry, (update registry).health = registry.health)
    : Py.Preserves Registry.HealthIndexed (modify update : RegistryM V PUnit) := by
  apply Py.Preserves.modify
  intro registry indexed
  rw [Registry.HealthIndexed, spared]
  exact indexed

section Nodes

variable [VersionValue V] (config : Config V F)

theorem store_healthIndexed (entry : NodeEntry V)
    : Py.Preserves Registry.HealthIndexed (Registry.store config entry) := by
  refine .bind (.query _ _) (fun _ => .ite _ (.bind (.query _ _) (fun _ => .throw_bind _ _ _)) ?_)
  refine .bind (.query _ _) (fun _ => .bind (spared_healthIndexed (fun _ => rfl)) (fun _ => ?_))
  refine .bind (spared_healthIndexed (fun _ => rfl)) (fun _ => .bind (.query _ _) (fun _ => ?_))
  refine .bind (spared_healthIndexed (fun _ => rfl)) (fun _ => ?_)
  refine .bind (spared_healthIndexed (fun _ => by cases entry <;> rfl)) (fun _ => ?_)
  exact .bind (.query _ _) (fun _ => .bind (refreshHealth_healthIndexed _ _) (fun _ => .pure _ _))

theorem removeEntry_healthIndexed (entry : NodeEntry V)
    : Py.Preserves Registry.HealthIndexed (Registry.removeEntry config entry) := by
  -- Both stores may or may not hold the entry; what follows is the same.
  refine .bind (.query _ _) (fun _ => .bind (.query _ _) (fun _ => .ite _
    (.bind (.query _ _) (fun _ => .bind (spared_healthIndexed (fun _ => rfl)) (fun _ => ?_))) ?_))
  all_goals refine .bind (spared_healthIndexed (fun _ => rfl)) (fun _ => ?_)
  all_goals refine .bind (.query _ _) (fun _ => .ite _
    (.bind (.query _ _) (fun _ => .bind (spared_healthIndexed (fun _ => rfl)) (fun _ => ?_))) ?_)
  all_goals refine .bind (spared_healthIndexed (fun _ => by cases entry <;> rfl)) (fun _ => ?_)
  all_goals
    exact .bind (modifyHealth_healthIndexed (fun _ indexed => indexed.dropEntity _))
      (fun _ => refreshHealth_healthIndexed _ _)

theorem reconcile_healthIndexed (entry : NodeEntry V)
    : Py.Preserves Registry.HealthIndexed (Registry.reconcile config entry) := by
  refine .bind (.query _ _) (fun found => ?_)
  cases found with
  | none => exact store_healthIndexed config entry
  | some existing =>
      refine .bind (.query _ _) (fun _ => .ite _ (.throw_bind _ _ _) ?_)
      cases entry.reconcile existing with
      | none => exact .throw _ _
      | some resolved =>
          cases resolved with
          | existing => exact .pure _ _
          | self =>
              exact .bind (removeEntry_healthIndexed config existing)
                (fun _ => store_healthIndexed config entry)

theorem hydrate_healthIndexed (entry : NodeEntry V)
    : Py.Preserves Registry.HealthIndexed (Registry.hydrate config entry) := by
  cases entry with
  | versionKey id => exact .throw _ _
  | versionNode node =>
      refine .bind (.query _ _) (fun found => ?_)
      cases found with
      | none => exact store_healthIndexed config _
      | some existing =>
          refine .ite _ (reconcile_healthIndexed config _) ?_
          exact .bind (removeEntry_healthIndexed config existing)
            (fun _ => store_healthIndexed config _)

theorem removeModel_healthIndexed (key : NodeId V)
    : Py.Preserves Registry.HealthIndexed (Registry.removeModel config key) := by
  refine .bind (.query _ _) (fun _ => .bind (spared_healthIndexed (fun _ => rfl)) (fun _ => ?_))
  refine .bind (.query _ _) (fun _ => .bind (.query _ _) (fun _ => .bind (.query _ _) ?_))
  intro found
  cases found with
  | none => exact .throw _ _
  | some version =>
      refine .bind (.query _ _) (fun _ => .ite _ (.throw_bind _ _ _) ?_)
      refine .bind (.query _ _) (fun _ => .bind (spared_healthIndexed (fun _ => rfl)) (fun _ => ?_))
      refine .bind (spared_healthIndexed (fun _ => by cases version <;> rfl)) (fun _ => ?_)
      refine .bind (spared_healthIndexed (fun _ => rfl)) (fun _ => ?_)
      exact .bind (modifyHealth_healthIndexed (fun _ indexed => indexed.dropEntity _))
        (fun _ => refreshHealth_healthIndexed _ _)

theorem removeModelByRef_healthIndexed (ref : ModelRef)
    : Py.Preserves Registry.HealthIndexed (Registry.removeModelByRef config ref) := by
  refine .bind (.query _ _) (fun found => ?_)
  cases found with
  | none => exact .bind (.query _ _) (fun _ => .throw _ _)
  | some node => exact removeModel_healthIndexed config node.id

omit [VersionValue V] in
theorem clearModels_healthIndexed
    : Py.Preserves Registry.HealthIndexed (Registry.clearModels config) := by
  refine .bind (.query _ _) (fun _ => .ite _ (.bind (.query _ _) (fun _ => .throw_bind _ _ _)) ?_)
  exact .bind (spared_healthIndexed (fun _ => rfl)) (fun _ => rebuildHealth_healthIndexed _)

end Nodes

section Edges

variable [VersionValue V] (config : Config V F)

theorem insertEdge_healthIndexed (edge : EdgeEntry V)
    : Py.Preserves Registry.HealthIndexed (Registry.insertEdge config edge) := by
  have finish : Py.Preserves Registry.HealthIndexed (do
      refreshHealth config.linters (affectedByEdgeChange (.stored edge))
      return edge : RegistryM V (EdgeEntry V)) :=
    .bind (refreshHealth_healthIndexed _ _) (fun _ => .pure _ _)
  refine .bind (.query _ _) (fun _ => .bind (spared_healthIndexed (fun _ => rfl)) (fun _ => ?_))
  refine .bind (spared_healthIndexed (fun _ => rfl)) (fun _ => ?_)
  cases edge with
  | edgeKey pair => exact finish
  | versionEdge version =>
      refine .bind (.query _ _) (fun _ => .ite _ (.bind (.query _ _) (fun _ => ?_)) finish)
      exact .bind (spared_healthIndexed (fun _ => rfl)) (fun _ => finish)

theorem fileEdge_healthIndexed (edge : EdgeEntry V)
    : Py.Preserves Registry.HealthIndexed (Registry.fileEdge config edge) := by
  have insert := insertEdge_healthIndexed config edge
  refine .bind (spared_healthIndexed (fun _ => rfl)) (fun _ => .bind (.query _ _) ?_)
  intro found
  cases found with
  | none => exact insert
  | some existing =>
      cases edge with
      | edgeKey pair => exact .pure _ _
      | versionEdge incoming =>
        cases existing with
        | edgeKey pair =>
            refine .bind (.query _ _) (fun _ => ?_)
            refine .bind (spared_healthIndexed (fun _ => rfl)) (fun _ => ?_)
            exact .bind (spared_healthIndexed (fun _ => rfl)) (fun _ => insert)
        | versionEdge registered =>
            refine .bind (.query _ _) (fun _ => .bind (.query _ _) (fun _ => ?_))
            exact .ite _ (.bind (.query _ _) (fun _ => .throw_bind _ _ _)) (.pure _ _)

theorem isAdjacent_healthIndexed (key : EdgeId V)
    : Py.Preserves Registry.HealthIndexed (Registry.isAdjacent key) :=
  .bind (spared_healthIndexed (fun _ => rfl)) (fun _ =>
    .bind (.query _ _) (fun _ => .bind (.query _ _) (fun _ => .pure _ _)))

theorem storeMigration_healthIndexed (input : Registry.MigrationInput V F)
    : Py.Preserves Registry.HealthIndexed (Registry.storeMigration config input) := by
  have file := fun edge => fileEdge_healthIndexed config edge
  cases input with
  | spec spec =>
      refine .bind (.bind (.query _ _) (fun _ => ?_)) (fun _ => file _)
      cases config.reflection with
      | none => exact .throw _ _
      | some reflection =>
          refine .ite _ (.throw_bind _ _ _) ?_
          refine .bind (resolveEndpoints_preserves (store_healthIndexed config) reflection spec) ?_
          intro _
          refine .bind (.query _ _) (fun _ => .bind (isAdjacent_healthIndexed _) (fun _ => ?_))
          refine .ite _ (.throw_bind _ _ _) (.bind (.query _ _) (fun _ => ?_))
          refine .bind (.query _ _) (fun _ => ?_)
          split
          · split
            · exact .pure _ _
            · exact .throw _ _
          · exact .throw _ _
  | edge edge =>
      cases edge with
      | edgeKey pair => exact file _
      | versionEdge version =>
          refine .bind (.query _ _) (fun _ => .ite _ ?_ (file _))
          exact .bind (.query _ _) (fun _ => .throw_bind _ _ _)

theorem removeMigration_healthIndexed (key : Transitional V)
    : Py.Preserves Registry.HealthIndexed (Registry.removeMigration config key) := by
  refine .bind (.query _ _) (fun _ => .ite _ (.bind (.query _ _) (fun _ => .throw_bind _ _ _)) ?_)
  refine .bind (spared_healthIndexed (fun _ => rfl)) (fun _ => .bind (.query _ _) ?_)
  intro found
  cases found with
  | none => exact refreshHealth_healthIndexed _ _
  | some existing =>
      refine .bind (.query _ _) (fun _ => .bind (spared_healthIndexed (fun _ => rfl)) (fun _ => ?_))
      refine .bind (spared_healthIndexed (fun registry => ?_)) (fun _ => ?_)
      · split <;> rfl
      have finish : Py.Preserves Registry.HealthIndexed (do
          modify (fun registry => registry.unindexEdge key.id)
          modifyHealth (fun index => index.dropEntity (.edge (.stored existing)))
          refreshHealth config.linters
            ((affectedByEdgeChange (.stored existing)).filter
              (fun entity => entity.id ≠ .edge existing.id)) : RegistryM V PUnit) := by
        refine .bind (spared_healthIndexed (fun _ => rfl)) (fun _ => ?_)
        exact .bind (modifyHealth_healthIndexed (fun _ indexed => indexed.dropEntity _))
          (fun _ => refreshHealth_healthIndexed _ _)
      cases existing with
      | edgeKey pair => exact finish
      | versionEdge version =>
          refine .bind (.query _ _) (fun _ => .ite _ (.bind (.query _ _) (fun _ => ?_)) finish)
          exact .bind (spared_healthIndexed (fun _ => rfl)) (fun _ => finish)

theorem clearHooks_healthIndexed (key : Option (EdgeId V))
    : Py.Preserves Registry.HealthIndexed (Registry.clearHooks key) := by
  cases key with
  | none => exact spared_healthIndexed (fun _ => rfl)
  | some key =>
      refine .bind (.query _ _)
        (fun _ => .ite _ (.bind (.query _ _) (fun _ => .throw_bind _ _ _)) ?_)
      exact spared_healthIndexed (fun _ => rfl)

theorem removeHook_healthIndexed (key : Transitional V) (hook : Option HookRef)
    : Py.Preserves Registry.HealthIndexed (Registry.removeHook config key hook) := by
  have finish := refreshHealth_healthIndexed config.linters [.edge key]
  refine .bind (.query _ _) (fun _ => .ite _ (.bind (.query _ _) (fun _ => .throw_bind _ _ _)) ?_)
  cases hook with
  | none => exact .bind (spared_healthIndexed (fun _ => rfl)) (fun _ => finish)
  | some hook =>
      refine .bind (.query _ _) (fun _ => .ite _ (.throw_bind _ _ _) ?_)
      exact .bind (spared_healthIndexed (fun _ => rfl)) (fun _ => finish)

theorem rangeKeys_healthIndexed (versions : List (VersionNode V)) (indices : List Nat)
    : Py.Preserves Registry.HealthIndexed (Registry.rangeKeys versions indices) := by
  induction indices with
  | nil => exact .pure _ _
  | cons index rest ih =>
      unfold Registry.rangeKeys
      split
      · refine .bind (.query _ _) (fun _ => .bind (.query _ _) (fun _ => .ite _ ih ?_))
        refine .bind (.query _ _) (fun _ => .bind (isAdjacent_healthIndexed _) (fun _ => ?_))
        refine .ite _ (.throw_bind _ _ _) (.bind (.query _ _) (fun _ => ?_))
        exact .ite _ (.throw_bind _ _ _) (.bind ih (fun _ => .pure _ _))
      · exact .throw _ _

theorem removeMigrationRange_healthIndexed (fromVersion toVersion : NodeId V)
    : Py.Preserves Registry.HealthIndexed
        (Registry.removeMigrationRange config fromVersion toVersion) := by
  refine .bind (.query _ _) (fun _ => .bind (.query _ _) (fun _ => .bind (.query _ _) ?_))
  intro _
  refine .bind (rangeKeys_healthIndexed _ _) (fun keys => ?_)
  exact .forM _ (fun pair _ => removeMigration_healthIndexed config _)

theorem clearMigrations_healthIndexed
    : Py.Preserves Registry.HealthIndexed (Registry.clearMigrations config) :=
  .bind (clearHooks_healthIndexed none) (fun _ =>
    .bind (spared_healthIndexed (fun _ => rfl)) (fun _ => rebuildHealth_healthIndexed _))

theorem deleteKind_healthIndexed (kind : ModelKind)
    : Py.Preserves Registry.HealthIndexed (Registry.deleteKind config kind) := by
  refine deleteKind_preserves (fun versions edge => ?_) (removeModel_healthIndexed config) kind
  exact removeOwnEdge_preserves clearHooks_healthIndexed (removeMigration_healthIndexed config _)
    versions

/-- Every operation keeps the health maps together, also when it raises. -/
theorem Op.run_healthIndexed (op : Op V F)
    : Py.Preserves Registry.HealthIndexed (op.run config) := by
  cases op with
  | store entry => exact .bind (store_healthIndexed config entry) (fun _ => .pure _ _)
  | hydrate entry => exact .bind (hydrate_healthIndexed config entry) (fun _ => .pure _ _)
  | reconcile entry => exact .bind (reconcile_healthIndexed config entry) (fun _ => .pure _ _)
  | removeEntry entry => exact removeEntry_healthIndexed config entry
  | removeModel key => exact removeModel_healthIndexed config key
  | removeModelByRef ref => exact removeModelByRef_healthIndexed config ref
  | clearModels => exact clearModels_healthIndexed config
  | deleteKind kind => exact deleteKind_healthIndexed config kind
  | storeMigration input =>
      exact .bind (storeMigration_healthIndexed config input) (fun _ => .pure _ _)
  | removeMigration key => exact removeMigration_healthIndexed config key
  | removeMigrationRange fromVersion toVersion =>
      exact removeMigrationRange_healthIndexed config fromVersion toVersion
  | clearMigrations => exact clearMigrations_healthIndexed config
  | addHook key hook =>
      exact .bind (spared_healthIndexed (fun _ => rfl)) (fun _ => refreshHealth_healthIndexed _ _)
  | removeHook key hook => exact removeHook_healthIndexed config key hook
  | clearHooks key => exact clearHooks_healthIndexed key
  | isAdjacent key => exact .bind (isAdjacent_healthIndexed key) (fun _ => .pure _ _)
  | isCriticalEdge key =>
      refine .bind (.bind (spared_healthIndexed (fun _ => rfl)) (fun _ => ?_)) (fun _ => .pure _ _)
      exact .bind (.query _ _) (fun _ => .bind (.query _ _) (fun _ => .pure _ _))
  | hooks key =>
      refine .bind (.bind (spared_healthIndexed (fun _ => rfl)) (fun _ => ?_)) (fun _ => .pure _ _)
      exact .query _ _

/-- In every reachable registry the health maps belong together, whichever linters it has and
whichever of its operations raised.
-/
theorem Reachable.healthIndexed {config : Config V F} {registry : Registry V}
    (reached : Reachable config registry)
    : registry.health.Indexed := by
  induction reached with
  | new config nameSpace indexDigests _ => exact .empty
  | step op _ ih => exact op.run_healthIndexed _ _ ih
  | copyFrom _ _ _ ih => exact ih

/-- Witness: two releases without a migration, where storing the first again raises. -/
theorem healthIndexed_userCatalog
    : let registry := Registry.runAll plainConfig
        [.store (.versionNode (userNode 2 "UserV2")), .store (.versionNode (userNode 1 "UserV1")),
          .store (.versionNode (userNode 1 "UserV1"))]
        (Registry.new "default" false);
      registry.health.Indexed
        ∧ registry.health.issuesByNamespace.items = [("default", [.node (userId 1)])] := by
  intro registry
  have reached : Reachable plainConfig registry :=
    .runAll (.new plainConfig "default" false (by decide)) _
  exact ⟨reached.healthIndexed, by decide +kernel⟩

end Edges

end Pyverge
