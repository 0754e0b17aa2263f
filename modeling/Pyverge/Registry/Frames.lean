import Pyverge.Registry.Runs

/-! Frame lemmas: which operations leave the node stores or the edge stores as they are.
They hold on the error path too, so a failed edge operation never disturbs a node.
-/

namespace Pyverge

variable {V F : Type}

-----------------------------------------------------------------------------------------
-- Views of the stores
-----------------------------------------------------------------------------------------

/-- What the node stores hold, with an absent kind read as an empty one. -/
structure NodeView (V : Type) where
  byVersions : List (NodeEntry V)
  kindEntries : ModelKind → List (NodeEntry V)
  byModels : Py.Dict ModelRef (VersionNode V)

def Registry.nodeView (registry : Registry V) : NodeView V where
  byVersions := registry.byVersions
  kindEntries := registry.kindEntries
  byModels := registry.byModels

theorem refreshHealth_keepsNodes [DecidableEq V] (linters : List (HealthLinter V))
    (entities : List (Entity V))
    : Py.Keeps Registry.nodeView (refreshHealth linters entities) :=
  Py.keeps_iff_preserves.mpr (fun _ => IgnoresHealth.refreshHealth (fun _ _ same => same) _ _)

theorem touchKind_keepsNodes (kind : ModelKind)
    : Py.Keeps Registry.nodeView (Registry.touchKind kind : RegistryM V PUnit) := by
  refine .modify (fun registry => ?_)
  have same : { registry with byKinds := registry.byKinds.setDefault kind [] }.kindEntries
      = registry.kindEntries :=
    funext (fun other => Py.Dict.getD_setDefault _ _ _ _)
  rw [Registry.nodeView, same]
  rfl

-----------------------------------------------------------------------------------------
-- Edge operations keep the nodes and the hooks
-----------------------------------------------------------------------------------------

variable [DecidableEq V] [VersionValue V]

section Edges

-- A view of the registry without its edges, their indexes and the health maps.
variable {τ : Type} {view : Registry V → τ}
  (spared : ∀ (registry : Registry V) migrations edgesByVersion digestIndex health,
    view { registry with migrations, edgesByVersion, digestIndex, health } = view registry)

include spared

omit [VersionValue V] in
theorem refreshHealth_keeps (linters : List (HealthLinter V)) (entities : List (Entity V))
    : Py.Keeps view (refreshHealth linters entities) :=
  Py.keeps_iff_preserves.mpr (fun _ => IgnoresHealth.refreshHealth
    (fun registry _ same => (spared registry _ _ _ _).trans same) _ _)

theorem insertEdge_keeps (config : Config V F) (edge : EdgeEntry V)
    : Py.Keeps view (Registry.insertEdge config edge) := by
  unfold Registry.insertEdge
  refine .bind (.query _ _) (fun index => ?_)
  refine .bind (.modify (fun registry => spared registry _ _ _ _)) (fun _ => ?_)
  refine .bind (.modify (fun registry => spared registry _ _ _ _)) (fun _ => ?_)
  have finish := refreshHealth_keeps spared config.linters (affectedByEdgeChange (.stored edge))
  cases edge with
  | edgeKey pair => exact .bind finish (fun _ => .pure _ _)
  | versionEdge version =>
      refine .bind (.query _ _) (fun indexed => .ite _ ?_ (.bind finish (fun _ => .pure _ _)))
      refine .bind (.query _ _) (fun _ => ?_)
      refine .bind (.modify (fun registry => spared registry _ _ _ _)) (fun _ => ?_)
      exact .bind finish (fun _ => .pure _ _)

theorem fileEdge_keeps (config : Config V F) (edge : EdgeEntry V)
    : Py.Keeps view (Registry.fileEdge config edge) := by
  have insert := insertEdge_keeps spared config edge
  unfold Registry.fileEdge
  refine .bind (.modify (fun registry => spared registry _ _ _ _)) (fun _ => ?_)
  refine .bind (.query _ _) (fun found => ?_)
  cases found with
  | none => exact insert
  | some existing =>
      cases edge with
      | edgeKey pair => exact .pure _ _
      | versionEdge incoming =>
        cases existing with
        | edgeKey pair =>
            refine .bind (.query _ _) (fun _ => ?_)
            refine .bind (.modify (fun registry => spared registry _ _ _ _)) (fun _ => ?_)
            exact .bind (.modify (fun registry => spared registry _ _ _ _)) (fun _ => insert)
        | versionEdge registered =>
            refine .bind (.query _ _) (fun _ => .bind (.query _ _) (fun _ => ?_))
            exact .ite _ (.bind (.query _ _) (fun _ => .bind (.throw _ _) (fun _ => .pure _ _)))
              (.pure _ _)

theorem removeMigration_keeps (config : Config V F) (key : Transitional V)
    : Py.Keeps view (Registry.removeMigration config key) := by
  have refresh := refreshHealth_keeps spared config.linters
  unfold Registry.removeMigration
  refine .bind (.query _ _) (fun _ => .ite _ (.bind (.query _ _) (fun _ => .throw_bind _ _ _)) ?_)
  refine .bind (.modify (fun registry => spared registry _ _ _ _)) (fun _ => ?_)
  refine .bind (.query _ _) (fun found => ?_)
  cases found with
  | none => exact refresh _
  | some existing =>
      refine .bind (.query _ _) (fun _ => ?_)
      refine .bind (.modify (fun registry => spared registry _ _ _ _)) (fun _ => ?_)
      refine .bind (.modify (fun registry => ?_)) (fun _ => ?_)
      · split
        · exact spared registry _ _ _ _
        · rfl
      have finish : Py.Keeps view (do
          modify (fun registry => registry.unindexEdge key.id)
          modifyHealth (fun index => index.dropEntity (.edge (.stored existing)))
          refreshHealth config.linters
            ((affectedByEdgeChange (.stored existing)).filter
              (fun entity => entity.id ≠ .edge existing.id)) : RegistryM V PUnit) :=
        .bind (.modify (fun registry => spared registry _ _ _ _)) (fun _ =>
          .bind (.modify (fun registry => spared registry _ _ _ _)) (fun _ => refresh _))
      cases existing with
      | edgeKey pair => exact finish
      | versionEdge version =>
          refine .bind (.query _ _) (fun _ => .ite _ (.bind (.query _ _) (fun _ => ?_)) finish)
          exact .bind (.modify (fun registry => spared registry _ _ _ _)) (fun _ => finish)

end Edges

theorem fileEdge_keepsNodes (config : Config V F) (edge : EdgeEntry V)
    : Py.Keeps Registry.nodeView (Registry.fileEdge config edge) :=
  fileEdge_keeps (fun _ _ _ _ _ => rfl) config edge

theorem removeMigration_keepsNodes (config : Config V F) (key : Transitional V)
    : Py.Keeps Registry.nodeView (Registry.removeMigration config key) :=
  removeMigration_keeps (fun _ _ _ _ _ => rfl) config key

omit [VersionValue V] in
theorem addHook_keepsNodes (config : Config V F) (key : Transitional V) (hook : HookRef)
    : Py.Keeps Registry.nodeView (Registry.addHook config key hook) :=
  .bind (.modify (fun _ => rfl)) (fun _ => refreshHealth_keepsNodes _ _)

theorem removeHook_keepsNodes (config : Config V F) (key : Transitional V) (hook : Option HookRef)
    : Py.Keeps Registry.nodeView (Registry.removeHook config key hook) := by
  have finish := refreshHealth_keepsNodes config.linters [.edge key]
  unfold Registry.removeHook
  refine .bind (.query _ _) (fun _ => .ite _ (.bind (.query _ _) (fun _ => .throw_bind _ _ _)) ?_)
  cases hook with
  | none => exact .bind (.modify (fun _ => rfl)) (fun _ => finish)
  | some hook =>
      refine .bind (.query _ _) (fun _ => .ite _ (.throw_bind _ _ _) ?_)
      exact .bind (.modify (fun _ => rfl)) (fun _ => finish)

theorem clearHooks_keepsNodes (key : Option (EdgeId V))
    : Py.Keeps Registry.nodeView (Registry.clearHooks key) := by
  cases key with
  | none => exact .modify (fun _ => rfl)
  | some key =>
      refine .bind (.query _ _)
        (fun _ => .ite _ (.bind (.query _ _) (fun _ => .throw_bind _ _ _)) ?_)
      exact .modify (fun _ => rfl)

omit [DecidableEq V] in
theorem isAdjacent_keepsNodes (key : EdgeId V)
    : Py.Keeps Registry.nodeView (Registry.isAdjacent key) :=
  .bind (touchKind_keepsNodes _) (fun _ => .bind (.query _ _) (fun _ =>
    .bind (.query _ _) (fun _ => .pure _ _)))

omit [DecidableEq V] in
theorem isCriticalEdge_keepsNodes (key : EdgeId V)
    : Py.Keeps Registry.nodeView (Registry.isCriticalEdge key) :=
  .bind (.modify (fun _ => rfl)) (fun _ => .bind (.query _ _) (fun _ =>
    .bind (.query _ _) (fun _ => .pure _ _)))

omit [VersionValue V] in
theorem hooksAt_keepsNodes (key : EdgeId V)
    : Py.Keeps Registry.nodeView (Registry.hooksAt key) :=
  .bind (.modify (fun _ => rfl)) (fun _ => .query _ _)

theorem clearMigrations_keepsNodes (config : Config V F)
    : Py.Keeps Registry.nodeView (Registry.clearMigrations config) := by
  refine .bind (clearHooks_keepsNodes none) (fun _ => .bind (.modify (fun _ => rfl)) (fun _ => ?_))
  exact .bind (.modify (fun _ => rfl))
    (fun _ => .bind (.query _ _) (fun _ => refreshHealth_keepsNodes _ _))

theorem rangeKeys_keepsNodes (versions : List (VersionNode V)) (indices : List Nat)
    : Py.Keeps Registry.nodeView (Registry.rangeKeys versions indices) := by
  induction indices with
  | nil => exact .pure _ _
  | cons index rest ih =>
      unfold Registry.rangeKeys
      split
      · refine .bind (.query _ _) (fun _ => .bind (.query _ _) (fun _ => .ite _ ih ?_))
        refine .bind (.query _ _) (fun _ => .bind (isAdjacent_keepsNodes _) (fun _ => ?_))
        refine .ite _ (.throw_bind _ _ _) (.bind (.query _ _) (fun _ => ?_))
        exact .ite _ (.throw_bind _ _ _) (.bind ih (fun _ => .pure _ _))
      · exact .throw _ _

theorem removeMigrationRange_keepsNodes (config : Config V F) (fromVersion toVersion : NodeId V)
    : Py.Keeps Registry.nodeView (Registry.removeMigrationRange config fromVersion toVersion) := by
  refine .bind (.query _ _) (fun _ => .bind (.query _ _) (fun _ => ?_))
  refine .bind (.query _ _) (fun _ => ?_)
  refine .bind (rangeKeys_keepsNodes _ _) (fun keys => ?_)
  exact .forM _ (fun pair _ => removeMigration_keepsNodes config _)

-----------------------------------------------------------------------------------------
-- The loops of `delete_kind` and `remove_migration_range`
-----------------------------------------------------------------------------------------

/-- The last loop of `delete_kind`: a version that cannot be removed is skipped. -/
def removeVersions (config : Config V F) (versions : List (VersionNode V)) : RegistryM V PUnit :=
  versions.forM (fun version =>
    tryCatch (Registry.removeModel config version.id)
      (fun error => if error.isCatalogError then pure () else throw error))

/-- The shape of the first two loops of `delete_kind`: visit the executable edges of versions. -/
def forIncident (scanned : List (VersionNode V)) (body : VersionEdge V → RegistryM V PUnit)
    : RegistryM V PUnit :=
  scanned.forM (fun version => do
    let incident ← Py.query (fun registry => .ok (registry.migrationsOf version.id))
    incident.forM body)

/-- The three loops of `delete_kind`. -/
theorem deleteKind_eq (config : Config V F) (kind : ModelKind)
    : Registry.deleteKind config kind = (do
        let versions ← Py.query (fun registry => .ok (registry.kindVersions kind))
        if versions.isEmpty then return ()
        forIncident versions (Registry.checkOwnEdges kind versions)
        forIncident versions (Registry.removeOwnEdge config versions)
        removeVersions config versions.reverse : RegistryM V PUnit) := rfl

theorem checkOwnEdges_preserves (Inv : Registry V → Prop) (kind : ModelKind)
    (versions : List (VersionNode V)) (edge : VersionEdge V)
    : Py.Preserves Inv (Registry.checkOwnEdges kind versions edge) :=
  .ite _ (.bind (.query _ _) (fun _ => .throw _ _)) (.pure _ _)

omit [VersionValue V] in
theorem forIncident_preserves {Inv : Registry V → Prop} {body : VersionEdge V → RegistryM V PUnit}
    (kept : ∀ edge, Py.Preserves Inv (body edge)) (scanned : List (VersionNode V))
    : Py.Preserves Inv (forIncident scanned body) :=
  .forM _ (fun _ _ => .bind (.query _ _) (fun _ => .forM _ (fun edge _ => kept edge)))

theorem removeVersions_preserves {Inv : Registry V → Prop} {config : Config V F}
    {versions : List (VersionNode V)}
    (removed : ∀ version ∈ versions, Py.Preserves Inv (Registry.removeModel config version.id))
    : Py.Preserves Inv (removeVersions config versions) :=
  .forM _ (fun version member => .tryCatch (removed version member)
    (fun _ => .ite _ (.pure _ _) (.throw _ _)))

/-- Deleting a kind keeps what its single removals keep. -/
theorem deleteKind_preserves {Inv : Registry V → Prop} {config : Config V F}
    (removedEdge : ∀ versions edge, Py.Preserves Inv (Registry.removeOwnEdge config versions edge))
    (removedModel : ∀ key, Py.Preserves Inv (Registry.removeModel config key)) (kind : ModelKind)
    : Py.Preserves Inv (Registry.deleteKind config kind) := by
  rw [deleteKind_eq]
  refine .bind (.query _ _) (fun versions => .ite _ (.pure _ _) ?_)
  refine .bind (forIncident_preserves (checkOwnEdges_preserves Inv kind versions) _) (fun _ => ?_)
  refine .bind (forIncident_preserves (removedEdge versions) _) (fun _ => ?_)
  exact removeVersions_preserves (fun version _ => removedModel version.id)

theorem removeOwnEdge_preserves {Inv : Registry V → Prop} {config : Config V F}
    {edge : VersionEdge V} (cleared : ∀ key, Py.Preserves Inv (Registry.clearHooks (V := V) key))
    (removed : Py.Preserves Inv (Registry.removeMigration config (.stored (.edgeKey edge.pair))))
    (versions : List (VersionNode V))
    : Py.Preserves Inv (Registry.removeOwnEdge config versions edge) := by
  refine .ite _ (.bind (.query _ _) (fun _ => .ite _ ?_ removed)) (.pure _ _)
  exact .bind (cleared _) (fun _ => removed)

/-- The part of `remove_migration_range` that collects the keys. -/
def rangeScan (fromVersion toVersion : NodeId V) : RegistryM V (List (EdgePair V)) := do
  let versions ← Py.query (fun registry => .ok (registry.kindVersions fromVersion.kind))
  let lo ← Py.query (fun _ => Py.bisectLeft (fun version => version.id.lt fromVersion) versions)
  let hi ← Py.query (fun _ => Py.bisectLeft (fun version => version.id.lt toVersion) versions)
  Registry.rangeKeys versions (List.range' lo (hi - lo))

/-- All keys are collected before the first edge is removed. -/
theorem removeMigrationRange_eq (config : Config V F) (fromVersion toVersion : NodeId V)
    : Registry.removeMigrationRange config fromVersion toVersion = (do
        let keys ← rangeScan fromVersion toVersion
        keys.forM (fun pair => Registry.removeMigration config (.stored (.edgeKey pair)))) := by
  simp only [Registry.removeMigrationRange, rangeScan, bind_assoc]

-----------------------------------------------------------------------------------------
-- Node operations keep the edges
-----------------------------------------------------------------------------------------

/-- What the edge stores hold. -/
structure EdgeView (V : Type) where
  migrations : Py.Dict ModelKind (List (EdgeEntry V))
  edgesByVersion : Py.Dict (NodeId V) (List (EdgeEntry V))
  hooks : Py.Dict (EdgeId V) (List HookRef)
  digestIndex : Option (Py.Dict String (EdgeId V))

def Registry.edgeView (registry : Registry V) : EdgeView V where
  migrations := registry.migrations
  edgesByVersion := registry.edgesByVersion
  hooks := registry.hooks
  digestIndex := registry.digestIndex

omit [VersionValue V] in
theorem refreshHealth_keepsEdges (linters : List (HealthLinter V)) (entities : List (Entity V))
    : Py.Keeps Registry.edgeView (refreshHealth linters entities) :=
  Py.keeps_iff_preserves.mpr (fun _ => IgnoresHealth.refreshHealth (fun _ _ same => same) _ _)

omit [VersionValue V] in
theorem rebuildHealth_keepsEdges (linters : List (HealthLinter V))
    : Py.Keeps Registry.edgeView (rebuildHealth linters) :=
  Py.keeps_iff_preserves.mpr (fun _ => IgnoresHealth.rebuildHealth (fun _ _ same => same) _)

theorem store_keepsEdges (config : Config V F) (entry : NodeEntry V)
    : Py.Keeps Registry.edgeView (Registry.store config entry) := by
  unfold Registry.store Registry.touchKind
  refine .bind (.query _ _) (fun _ => .ite _ (.bind (.query _ _) (fun _ => .throw_bind _ _ _)) ?_)
  refine .bind (.query _ _) (fun _ => .bind (.modify (fun _ => rfl)) (fun _ => ?_))
  refine .bind (.modify (fun _ => rfl)) (fun _ => .bind (.query _ _) (fun _ => ?_))
  refine .bind (.modify (fun _ => rfl)) (fun _ => ?_)
  refine .bind (.modify (fun _ => by cases entry <;> rfl)) (fun _ => .bind (.query _ _) (fun _ => ?_))
  exact .bind (refreshHealth_keepsEdges _ _) (fun _ => .pure _ _)

theorem removeEntry_keepsEdges (config : Config V F) (entry : NodeEntry V)
    : Py.Keeps Registry.edgeView (Registry.removeEntry config entry) := by
  unfold Registry.removeEntry Registry.touchKind
  refine .bind (.query _ _) (fun affected => .bind (.query _ _) (fun _ => .ite _
    (.bind (.query _ _) (fun _ => .bind (.modify (fun _ => rfl)) (fun _ => ?_))) ?_))
  all_goals
    refine .bind (.modify (fun _ => rfl)) (fun _ => .bind (.query _ _) (fun _ => .ite _
      (.bind (.query _ _) (fun _ => .bind (.modify (fun _ => rfl)) (fun _ => ?_))) ?_))
  all_goals
    refine .bind (.modify (fun _ => by cases entry <;> rfl)) (fun _ => ?_)
    exact .bind (.modify (fun _ => rfl)) (fun _ => refreshHealth_keepsEdges _ _)

theorem reconcile_keepsEdges (config : Config V F) (entry : NodeEntry V)
    : Py.Keeps Registry.edgeView (Registry.reconcile config entry) := by
  unfold Registry.reconcile
  refine .bind (.query _ _) (fun found => ?_)
  cases found with
  | none => exact store_keepsEdges config entry
  | some existing =>
      refine .bind (.query _ _) (fun catalog => .ite _ (.throw_bind _ _ _) ?_)
      cases entry.reconcile existing with
      | none => exact .throw _ _
      | some resolved =>
          cases resolved with
          | existing => exact .pure _ _
          | self =>
              exact .bind (removeEntry_keepsEdges config existing)
                (fun _ => store_keepsEdges config entry)

theorem hydrate_keepsEdges (config : Config V F) (entry : NodeEntry V)
    : Py.Keeps Registry.edgeView (Registry.hydrate config entry) := by
  cases entry with
  | versionKey id => exact .throw _ _
  | versionNode node =>
      refine .bind (.query _ _) (fun found => ?_)
      cases found with
      | none => exact store_keepsEdges config _
      | some existing =>
          refine .ite _ (reconcile_keepsEdges config _) ?_
          exact .bind (removeEntry_keepsEdges config existing) (fun _ => store_keepsEdges config _)

theorem removeModel_keepsEdges (config : Config V F) (key : NodeId V)
    : Py.Keeps Registry.edgeView (Registry.removeModel config key) := by
  unfold Registry.removeModel Registry.touchKind
  refine .bind (.query _ _) (fun _ => .bind (.modify (fun _ => rfl)) (fun _ => ?_))
  refine .bind (.query _ _) (fun _ => .bind (.query _ _) (fun _ => .bind (.query _ _) ?_))
  intro found
  cases found with
  | none => exact .throw _ _
  | some version =>
      refine .bind (.query _ _) (fun _ => .ite _ (.throw_bind _ _ _) ?_)
      refine .bind (.query _ _) (fun _ => .bind (.modify (fun _ => rfl)) (fun _ => ?_))
      refine .bind (.modify (fun _ => by cases version <;> rfl)) (fun _ => ?_)
      refine .bind (.modify (fun _ => rfl)) (fun _ => .bind (.modify (fun _ => rfl)) (fun _ => ?_))
      exact refreshHealth_keepsEdges _ _

theorem removeModelByRef_keepsEdges (config : Config V F) (ref : ModelRef)
    : Py.Keeps Registry.edgeView (Registry.removeModelByRef config ref) := by
  refine .bind (.query _ _) (fun found => ?_)
  cases found with
  | none => exact .bind (.query _ _) (fun _ => .throw _ _)
  | some node => exact removeModel_keepsEdges config node.id

omit [VersionValue V] in
theorem clearModels_keepsEdges (config : Config V F)
    : Py.Keeps Registry.edgeView (Registry.clearModels config) := by
  unfold Registry.clearModels
  refine .bind (.query _ _) (fun _ => .ite _ (.bind (.query _ _) (fun _ => .throw_bind _ _ _)) ?_)
  exact .bind (.modify (fun _ => rfl)) (fun _ => rebuildHealth_keepsEdges _)

omit [DecidableEq V] in
theorem isAdjacent_keepsEdges (key : EdgeId V)
    : Py.Keeps Registry.edgeView (Registry.isAdjacent key) :=
  .bind (.modify (fun _ => rfl)) (fun _ => .bind (.query _ _) (fun _ =>
    .bind (.query _ _) (fun _ => .pure _ _)))

theorem resolveEndpoints_keepsEdges (config : Config V F) (reflection : ReflectionPort V F)
    (spec : MigrationSpec V F)
    : Py.Keeps Registry.edgeView (Registry.resolveEndpoints config reflection spec) := by
  have reconstruct : ∀ anchor missing, Py.Keeps Registry.edgeView
      (Registry.reconstructEndpoint config reflection anchor missing spec.func) := by
    intro anchor missing
    unfold Registry.reconstructEndpoint
    refine .ite _ (.bind (.query _ _) (fun _ => .throw_bind _ _ _)) ?_
    refine .bind (.query _ _) (fun _ => .bind (.query _ _) (fun _ => ?_))
    exact .bind (store_keepsEdges config _) (fun _ => .pure _ _)
  refine .bind (.query _ _) (fun source => .bind (.query _ _) (fun target => ?_))
  cases source <;> cases target
  · exact .bind (.query _ _) (fun _ => .throw _ _)
  · exact .bind (reconstruct _ _) (fun _ => .pure _ _)
  · exact .bind (reconstruct _ _) (fun _ => .pure _ _)
  · exact .pure _ _

/-- A rejected request may leave a reconstructed endpoint behind, but never touches an edge. -/
theorem reflectEdge_keepsEdges (config : Config V F) (spec : MigrationSpec V F)
    : Py.Keeps Registry.edgeView (Registry.reflectEdge config spec) := by
  refine .bind (.query _ _) (fun catalog => ?_)
  cases config.reflection with
  | none => exact .throw _ _
  | some reflection =>
      refine .ite _ (.throw_bind _ _ _) ?_
      refine .bind (resolveEndpoints_keepsEdges config reflection spec) (fun endpoints => ?_)
      refine .bind (.query _ _) (fun pair => .bind (isAdjacent_keepsEdges _) (fun adjacent => ?_))
      refine .ite _ (.throw_bind _ _ _) (.bind (.query _ _) (fun _ => ?_))
      refine .bind (.query _ _) (fun _ => ?_)
      split
      · split
        · exact .pure _ _
        · exact .throw _ _
      · exact .throw _ _

theorem rangeKeys_keepsEdges (versions : List (VersionNode V)) (indices : List Nat)
    : Py.Keeps Registry.edgeView (Registry.rangeKeys versions indices) := by
  induction indices with
  | nil => exact .pure _ _
  | cons index rest ih =>
      unfold Registry.rangeKeys
      split
      · refine .bind (.query _ _) (fun _ => .bind (.query _ _) (fun _ => .ite _ ih ?_))
        refine .bind (.query _ _) (fun _ => .bind (isAdjacent_keepsEdges _) (fun _ => ?_))
        refine .ite _ (.throw_bind _ _ _) (.bind (.query _ _) (fun _ => ?_))
        exact .ite _ (.throw_bind _ _ _) (.bind ih (fun _ => .pure _ _))
      · exact .throw _ _

theorem rangeScan_keepsEdges (fromVersion toVersion : NodeId V)
    : Py.Keeps Registry.edgeView (rangeScan fromVersion toVersion) :=
  .bind (.query _ _) (fun _ => .bind (.query _ _) (fun _ => .bind (.query _ _) (fun _ =>
    rangeKeys_keepsEdges _ _)))

-----------------------------------------------------------------------------------------
-- Hook operations keep the edge lists and their indexes
-----------------------------------------------------------------------------------------

/-- The edge lists and the two indexes of edges, with an absent kind read as an empty one. -/
structure EdgeIndexes (V : Type) where
  paths : ModelKind → List (EdgeEntry V)
  incident : Py.Dict (NodeId V) (List (EdgeEntry V))
  digests : Option (Py.Dict String (EdgeId V))

def Registry.edgeIndexes (registry : Registry V) : EdgeIndexes V where
  paths := registry.edges
  incident := registry.edgesByVersion
  digests := registry.digestIndex

omit [DecidableEq V] [VersionValue V] in
theorem keepsEdges_indexes {α : Type} {program : RegistryM V α}
    (kept : Py.Keeps Registry.edgeView program)
    : Py.Keeps Registry.edgeIndexes program := by
  intro registry
  obtain ⟨migrations, incident, _, digests⟩ := EdgeView.mk.inj (kept registry)
  have paths : (Py.after program registry).edges = registry.edges :=
    funext (fun kind => congrArg (fun migrations => migrations.getD kind []) migrations)
  rw [Registry.edgeIndexes, paths, incident, digests]
  rfl

omit [DecidableEq V] [VersionValue V] in
theorem keepsIndexes_paths {α : Type} {program : RegistryM V α}
    (kept : Py.Keeps Registry.edgeIndexes program)
    : Py.Keeps Registry.edges program :=
  fun registry => (EdgeIndexes.mk.inj (kept registry)).1

omit [DecidableEq V] [VersionValue V] in
theorem touchMigrations_keepsIndexes (kind : ModelKind)
    : Py.Keeps Registry.edgeIndexes (Registry.touchMigrations kind : RegistryM V PUnit) := by
  refine .modify (fun registry => ?_)
  have paths : { registry with migrations := registry.migrations.setDefault kind [] }.edges
      = registry.edges :=
    funext (fun other => Py.Dict.getD_setDefault _ _ _ _)
  rw [Registry.edgeIndexes, paths]
  rfl

omit [VersionValue V] in
theorem refreshHealth_keepsIndexes (linters : List (HealthLinter V)) (entities : List (Entity V))
    : Py.Keeps Registry.edgeIndexes (refreshHealth linters entities) :=
  keepsEdges_indexes (refreshHealth_keepsEdges linters entities)

omit [VersionValue V] in
theorem addHook_keepsIndexes (config : Config V F) (key : Transitional V) (hook : HookRef)
    : Py.Keeps Registry.edgeIndexes (Registry.addHook config key hook) :=
  .bind (.modify (fun _ => rfl)) (fun _ => refreshHealth_keepsIndexes _ _)

theorem removeHook_keepsIndexes (config : Config V F) (key : Transitional V)
    (hook : Option HookRef)
    : Py.Keeps Registry.edgeIndexes (Registry.removeHook config key hook) := by
  have finish := refreshHealth_keepsIndexes config.linters [.edge key]
  unfold Registry.removeHook
  refine .bind (.query _ _) (fun _ => .ite _ (.bind (.query _ _) (fun _ => .throw_bind _ _ _)) ?_)
  cases hook with
  | none => exact .bind (.modify (fun _ => rfl)) (fun _ => finish)
  | some hook =>
      refine .bind (.query _ _) (fun _ => .ite _ (.throw_bind _ _ _) ?_)
      exact .bind (.modify (fun _ => rfl)) (fun _ => finish)

theorem clearHooks_keepsIndexes (key : Option (EdgeId V))
    : Py.Keeps Registry.edgeIndexes (Registry.clearHooks key) := by
  cases key with
  | none => exact .modify (fun _ => rfl)
  | some key =>
      refine .bind (.query _ _)
        (fun _ => .ite _ (.bind (.query _ _) (fun _ => .throw_bind _ _ _)) ?_)
      exact .modify (fun _ => rfl)

omit [DecidableEq V] in
theorem isCriticalEdge_keepsIndexes (key : EdgeId V)
    : Py.Keeps Registry.edgeIndexes (Registry.isCriticalEdge key) :=
  .bind (touchMigrations_keepsIndexes _) (fun _ => .bind (.query _ _) (fun _ =>
    .bind (.query _ _) (fun _ => .pure _ _)))

omit [VersionValue V] in
theorem hooksAt_keepsIndexes (key : EdgeId V)
    : Py.Keeps Registry.edgeIndexes (Registry.hooksAt key) :=
  .bind (.modify (fun _ => rfl)) (fun _ => .query _ _)

section Filing

-- Filing and removing are the only effects on the edges; the rest of a call keeps them.
variable {Inv : Registry V → Prop} {config : Config V F}
  (kept : ∀ {α : Type} {program : RegistryM V α}, Py.Keeps Registry.edgeIndexes program →
    Py.Preserves Inv program)
  (filed : ∀ edge, Py.Preserves Inv (Registry.fileEdge config edge))

include kept filed in
theorem storeMigration_preservesEdges (input : Registry.MigrationInput V F)
    : Py.Preserves Inv (Registry.storeMigration config input) := by
  cases input with
  | spec spec =>
      exact .bind (kept (keepsEdges_indexes (reflectEdge_keepsEdges config spec)))
        (fun _ => filed _)
  | edge edge =>
      cases edge with
      | edgeKey pair => exact filed _
      | versionEdge edge =>
          refine .bind (.query _ _) (fun _ => .ite _ ?_ (filed _))
          exact .bind (.query _ _) (fun _ => .throw_bind _ _ _)

include kept in
/-- A call keeps a property of the edges if, where it files or removes edges, it does. -/
theorem Op.after_edges {registry : Registry V} (op : Op V F) (holds : Inv registry)
    (stored : ∀ input, op = .storeMigration input →
      Inv (Py.after (Registry.storeMigration config input) registry))
    (cleared : Py.Preserves Inv (Registry.clearMigrations config))
    (removed : ∀ key, op = .removeMigration key →
      Inv (Py.after (Registry.removeMigration config key) registry))
    (removedRange : ∀ fromVersion toVersion, op = .removeMigrationRange fromVersion toVersion →
      Inv (Py.after (Registry.removeMigrationRange config fromVersion toVersion) registry))
    (deleted : ∀ kind, op = .deleteKind kind →
      Inv (Py.after (Registry.deleteKind config kind) registry))
    : Inv (Py.after (op.run config) registry) := by
  have nodes : ∀ {α : Type} {program : RegistryM V α}, Py.Keeps Registry.edgeView program →
      Inv (Py.after program registry) :=
    fun keep => kept (keepsEdges_indexes keep) registry holds
  have keep : ∀ {α : Type} {program : RegistryM V α}, Py.Keeps Registry.edgeIndexes program →
      Inv (Py.after program registry) :=
    fun keep => kept keep registry holds
  cases op with
  | store entry => exact nodes (.bind (store_keepsEdges config entry) (fun _ => .pure _ _))
  | hydrate entry => exact nodes (.bind (hydrate_keepsEdges config entry) (fun _ => .pure _ _))
  | reconcile entry =>
      exact nodes (.bind (reconcile_keepsEdges config entry) (fun _ => .pure _ _))
  | removeEntry entry => exact nodes (removeEntry_keepsEdges config entry)
  | removeModel key => exact nodes (removeModel_keepsEdges config key)
  | removeModelByRef ref => exact nodes (removeModelByRef_keepsEdges config ref)
  | clearModels => exact nodes (clearModels_keepsEdges config)
  | deleteKind kind => exact deleted kind rfl
  | storeMigration input =>
      exact Py.Preserves.after_bind (stored input rfl) (fun _ => .pure _ _)
  | removeMigration key => exact removed key rfl
  | removeMigrationRange fromVersion toVersion => exact removedRange fromVersion toVersion rfl
  | clearMigrations => exact cleared registry holds
  | addHook key hook => exact keep (addHook_keepsIndexes config key hook)
  | removeHook key hook => exact keep (removeHook_keepsIndexes config key hook)
  | clearHooks key => exact keep (clearHooks_keepsIndexes key)
  | isAdjacent key => exact nodes (.bind (isAdjacent_keepsEdges key) (fun _ => .pure _ _))
  | isCriticalEdge key => exact keep (.bind (isCriticalEdge_keepsIndexes key) (fun _ => .pure _ _))
  | hooks key => exact keep (.bind (hooksAt_keepsIndexes key) (fun _ => .pure _ _))

end Filing

end Pyverge
