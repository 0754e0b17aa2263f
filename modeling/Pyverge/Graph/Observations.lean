import Pyverge.Graph.Discovery
import Pyverge.Py.Lists
import Pyverge.Py.Respects
import Pyverge.Registry.EdgeIndex

/-! What queries change for later observations.
The maps of the registry insert an empty bucket when they are subscripted. An empty bucket of nodes
shows nowhere; one of edges is a kind, and one of hooks counts as hooks.
-/

namespace Pyverge

variable {V F : Type}

-----------------------------------------------------------------------------------------
-- Observations
-----------------------------------------------------------------------------------------

/-- The order of the severities. -/
def HealthSeverity.rank : HealthSeverity → Nat
  | .info => 0
  | .warning => 1
  | .error => 2

def HealthIssue.blocks (issue : HealthIssue V) (failLevel : HealthSeverity) : Bool :=
  decide (failLevel.rank ≤ issue.severity.rank)

namespace Registry

section Health

variable [VersionValue V]

/-- All issues, sorted by the texts of their entities and their codes. -/
def healthIssues (registry : Registry V) : List (HealthIssue V) :=
  registry.health.healthIssues.values.flatten.insertionSort (fun left right =>
    left.entity.str < right.entity.str
      ∨ (left.entity.str = right.entity.str ∧ left.code ≤ right.code))

/-- `Registry.health`; a level that never fails is absent. -/
def issuesOf [DecidableEq V] (registry : Registry V) (entity : Option (EntityId V))
    (failLevel : Option HealthSeverity) : Except (Error V) (List (HealthIssue V)) :=
  let issues := match entity with
    | none => registry.healthIssues
    | some entity => registry.health.healthIssues.getD entity []
  if failLevel.any (fun level => issues.any (fun issue => issue.blocks level)) then
    .error (.raised "HealthValidationError")
  else .ok issues

end Health

variable [DecidableEq V] [VersionValue V]

/-- What is seen of a registry without changing it. -/
structure ObservedAlike (left right : Registry V) : Prop where
  kinds : left.kinds = right.kinds
  entities : left.entities = right.entities
  hasHooks : ∀ key, left.hasHooks key = right.hasHooks key
  healthIssues : left.healthIssues = right.healthIssues
  snapshot : ∀ hasher revision, buildGraph hasher left revision = buildGraph hasher right revision

/-- Whatever operations follow, the same is seen, and each ends alike. -/
def Unobserved (config : Config V F) (before after : Registry V) : Prop :=
  ∀ later : List (Op V F),
    (runAll config later before).ObservedAlike (runAll config later after)
      ∧ ∀ op : Op V F, Py.outcome (op.run config) (runAll config later before)
        = Py.outcome (op.run config) (runAll config later after)

end Registry

-----------------------------------------------------------------------------------------
-- Queries
-----------------------------------------------------------------------------------------

/-- A query, or the removal of what is not there. -/
inductive RegistryQuery (V : Type) where
  | isAdjacent (key : EdgeId V)
  | isCriticalEdge (key : EdgeId V)
  | hooks (key : EdgeId V)
  | getHooks (key : EdgeId V)
  | hasHooks (key : EdgeId V)
  | hasMigration (key : EdgeId V)
  | hasModel (key : NodeId V)
  | findEntry (key : NodeId V)
  | edges (kind : ModelKind)
  | migrationsOf (key : NodeId V)
  | latest (kind : ModelKind)
  | health (entity : Option (EntityId V)) (failLevel : Option HealthSeverity)
  | removeMigration (key : Transitional V)
  | removeModel (key : NodeId V)

namespace RegistryQuery

variable [DecidableEq V] [VersionValue V]

/-- Ask a query and drop the answer. -/
def run (config : Config V F) : RegistryQuery V → RegistryM V PUnit
  | .isAdjacent key => do let _ ← Registry.isAdjacent key
  | .isCriticalEdge key => do let _ ← Registry.isCriticalEdge key
  | .hooks key => do let _ ← Registry.hooksAt key
  | .getHooks key => do let _ ← Py.query (fun registry => .ok (registry.getHooks key))
  | .hasHooks key => do let _ ← Py.query (fun registry => .ok (registry.hasHooks key))
  | .hasMigration key => do let _ ← Py.query (fun registry => registry.hasMigration key)
  | .hasModel key => do let _ ← Py.query (fun registry => registry.hasModel key)
  | .findEntry key => do let _ ← Py.query (fun registry => registry.findEntry key)
  | .edges kind => do let _ ← Py.query (fun registry => .ok (registry.edges kind))
  | .migrationsOf key => do let _ ← Py.query (fun registry => .ok (registry.migrationsOf key))
  | .latest kind => do let _ ← Py.query (fun registry => registry.latest kind)
  | .health entity failLevel => do
      let _ ← Py.query (fun registry => registry.issuesOf entity failLevel)
  | .removeMigration key => Registry.removeMigration config key
  | .removeModel key => Registry.removeModel config key

/-- What is to be removed is not there. -/
def Absent (registry : Registry V) : RegistryQuery V → Prop
  | .removeMigration key =>
      ∀ edge, findEdgeIn (registry.edges key.kind) key.id ≠ .ok (some edge)
  | .removeModel key => ∀ entry, findNode registry.byVersions key ≠ .ok (some entry)
  | _ => True

end RegistryQuery

/-- The health maps hold of an entity what a refresh would write. -/
structure Registry.Settled [DecidableEq V] (linters : List (HealthLinter V)) (registry : Registry V)
    (entity : Entity V) : Prop where
  references : registry.health.setReferences entity entity.references = registry.health
  issues : ∃ issues, lint linters registry entity = .ok issues
    ∧ registry.health.setHealth entity.id issues = registry.health

namespace RegistryQuery

variable [DecidableEq V] [VersionValue V]

/-- The bucket that a query subscripts is there, and a refresh writes what is there already. -/
def Quiet (config : Config V F) (registry : Registry V) : RegistryQuery V → Prop
  | .isCriticalEdge key => key.kind ∈ registry.kinds
  | .hooks key => registry.hasHooks key = true
  | .removeMigration key => registry.hasHooks key.id = true
      ∨ key.kind ∈ registry.kinds ∧ (findEdgeIn (registry.edges key.kind) key.id = .ok none →
          ∀ entity ∈ affectedByEdgeChange key, registry.Settled config.linters entity)
  | _ => True

end RegistryQuery

namespace Registry

variable [DecidableEq V] [VersionValue V]

/-- Queries, one after the other. -/
def askAll (config : Config V F) (registry : Registry V) (queries : List (RegistryQuery V))
    : Registry V :=
  queries.foldl (fun registry query => Py.after (query.run config) registry) registry

/-- Each query is quiet where it is asked. -/
def AllQuiet (config : Config V F) : Registry V → List (RegistryQuery V) → Prop
  | _, [] => True
  | registry, query :: rest =>
      query.Absent registry ∧ query.Quiet config registry
        ∧ AllQuiet config (Py.after (query.run config) registry) rest

end Registry

-----------------------------------------------------------------------------------------
-- Registries that differ in empty kinds
-----------------------------------------------------------------------------------------

/-- The right registry differs at most in kinds under which no node is filed. -/
def Registry.Alike (left right : Registry V) : Prop :=
  ∃ byKinds, right = { left with byKinds }
    ∧ ∀ kind, byKinds.getD kind [] = left.byKinds.getD kind []

/-- A linter that reads the nodes of a kind through the queries of the registry. -/
def HealthLinter.Blind (linter : HealthLinter V) : Prop :=
  ∀ left right : Registry V, left.Alike right → linter left = linter right

namespace Registry

variable {left right : Registry V}

theorem Alike.refl (registry : Registry V) : registry.Alike registry :=
  ⟨registry.byKinds, rfl, fun _ => rfl⟩

theorem Alike.trans {middle : Registry V} (first : left.Alike middle) (second : middle.Alike right)
    : left.Alike right := by
  obtain ⟨_, rfl, same⟩ := first
  obtain ⟨byKinds, rfl, again⟩ := second
  exact ⟨byKinds, rfl, fun kind => (again kind).trans (same kind)⟩

theorem Alike.kindEntries (alike : left.Alike right) (kind : ModelKind)
    : left.kindEntries kind = right.kindEntries kind := by
  obtain ⟨_, rfl, same⟩ := alike
  exact (same kind).symm

/-- The kinds of the nodes are those of the nonempty buckets. -/
theorem mem_filter_kinds {registry : Registry V} {kind : ModelKind}
    : kind ∈ (registry.byKinds.items.filter (fun item => !item.2.isEmpty)).map Prod.fst
      ↔ registry.kindEntries kind ≠ [] := by
  rw [Registry.kindEntries, Py.Dict.getD]
  constructor
  · intro listed
    obtain ⟨item, member, rfl⟩ := List.mem_map.mp listed
    obtain ⟨stored, filled⟩ := List.mem_filter.mp member
    rw [Py.Dict.get?_eq_some.mpr stored]
    intro empty
    rw [Option.getD_some] at empty
    simp [empty] at filled
  · intro filled
    cases found : registry.byKinds.get? kind with
    | none =>
        rw [found] at filled
        exact (filled rfl).elim
    | some bucket =>
        rw [found, Option.getD_some] at filled
        refine List.mem_map.mpr ⟨(kind, bucket), List.mem_filter.mpr ⟨?_, ?_⟩, rfl⟩
        · exact Py.Dict.get?_eq_some.mp found
        · simpa using filled

theorem Alike.entities (alike : left.Alike right) : left.entities = right.entities := by
  rw [Registry.entities, Registry.entities, Py.insertionSort_eq_iff]
  have distinct : ∀ registry : Registry V,
      ((registry.byKinds.items.filter (fun item => !item.2.isEmpty)).map Prod.fst).Nodup :=
    fun registry => registry.byKinds.nodup.sublist (List.filter_sublist.map Prod.fst)
  refine (List.perm_ext_iff_of_nodup (distinct left) (distinct right)).mpr (fun kind => ?_)
  rw [mem_filter_kinds, mem_filter_kinds, alike.kindEntries]

end Registry

-----------------------------------------------------------------------------------------
-- No operation tells them apart
-----------------------------------------------------------------------------------------

section Respecting

open Registry (Alike)

/-- A read of what is not filed by kind. -/
theorem respects_read {α : Type} {read : Registry V → Except (Error V) α}
    (ignores : ∀ registry byKinds, read { registry with byKinds } = read registry)
    : Py.Respects Alike (Py.query read) := by
  refine .query (fun left right alike => ?_)
  obtain ⟨byKinds, rfl, _⟩ := alike
  exact (ignores left byKinds).symm

/-- A write to what is not filed by kind. -/
theorem respects_write {update : Registry V → Registry V}
    (frame : ∀ registry byKinds,
      update { registry with byKinds } = { update registry with byKinds })
    (kept : ∀ registry, (update registry).byKinds = registry.byKinds)
    : Py.Respects Alike (modify update : RegistryM V PUnit) := by
  refine .modify (fun left right alike => ?_)
  obtain ⟨byKinds, rfl, same⟩ := alike
  refine ⟨byKinds, frame left byKinds, fun kind => ?_⟩
  rw [kept, same]

theorem touchKind_respects (kind : ModelKind)
    : Py.Respects Alike (Registry.touchKind kind : RegistryM V PUnit) := by
  refine .modify (fun left right alike => ?_)
  obtain ⟨byKinds, rfl, same⟩ := alike
  refine ⟨byKinds.setDefault kind [], rfl, fun other => ?_⟩
  rw [Py.Dict.getD_setDefault, Py.Dict.getD_setDefault, same]

/-- A change of the entries of a kind. -/
theorem setKindEntries_respects (kind : ModelKind)
    (change : List (NodeEntry V) → List (NodeEntry V))
    : Py.Respects Alike (modify (fun registry =>
        registry.setKindEntries kind (change (registry.kindEntries kind))) : RegistryM V PUnit) := by
  refine .modify (fun left right alike => ?_)
  have entries := alike.kindEntries kind
  obtain ⟨byKinds, rfl, same⟩ := alike
  rw [← entries]
  refine ⟨byKinds.set kind (change (left.kindEntries kind)), rfl, fun other => ?_⟩
  rw [Registry.setKindEntries, Py.Dict.getD_set, Py.Dict.getD_set, same]

variable {config : Config V F} (blind : ∀ linter ∈ config.linters, HealthLinter.Blind linter)

theorem modifyHealth_respects (update : HealthIndex V → HealthIndex V)
    : Py.Respects Alike (modifyHealth update) :=
  respects_write (fun _ _ => rfl) (fun _ => rfl)

/-- Blind linters find the same, by list induction. -/
theorem lint_alike {linters : List (HealthLinter V)}
    (blind : ∀ linter ∈ linters, HealthLinter.Blind linter) {left right : Registry V}
    (alike : left.Alike right) (entity : Entity V)
    : lint linters left entity = lint linters right entity := by
  induction linters with
  | nil => rfl
  | cons linter rest ih =>
      rw [lint, lint, blind linter List.mem_cons_self left right alike,
        ih (fun other member => blind other (List.mem_cons_of_mem _ member))]

variable [DecidableEq V]

include blind in
theorem refreshHealth_respects (entities : List (Entity V))
    : Py.Respects Alike (refreshHealth config.linters entities) := by
  refine .forM _ (fun entity => .bind (modifyHealth_respects _) (fun _ => .bind (.query ?_) ?_))
  · exact fun _ _ alike => lint_alike blind alike entity
  · exact fun _ => modifyHealth_respects _

include blind in
theorem rebuildHealth_respects : Py.Respects Alike (rebuildHealth config.linters) :=
  .bind (modifyHealth_respects _) (fun _ => .bind (respects_read (fun _ _ => rfl))
    (fun _ => refreshHealth_respects blind _))

variable [VersionValue V]

omit [DecidableEq V] in
/-- The entries of a kind are read alike. -/
theorem bisectKind_respects (kind : ModelKind) (key : NodeId V)
    : Py.Respects Alike (Py.query (fun registry =>
        bisectNodes (registry.kindEntries kind) key) : RegistryM V Nat) :=
  .query (fun _ _ alike => congrArg (bisectNodes · key) (alike.kindEntries kind))

include blind in
theorem store_respects (entry : NodeEntry V)
    : Py.Respects Alike (Registry.store config entry) := by
  unfold Registry.store
  refine .bind (respects_read (fun _ _ => rfl)) (fun _ => .ite _ (.bind (respects_read
    (fun _ _ => rfl)) (fun _ => .throw_bind _ _)) ?_)
  refine .bind (respects_read (fun _ _ => rfl)) (fun index => ?_)
  refine .bind (respects_write (fun _ _ => rfl) (fun _ => rfl)) (fun _ => ?_)
  refine .bind (touchKind_respects _) (fun _ => .bind (bisectKind_respects _ _) (fun index => ?_))
  refine .bind (setKindEntries_respects _ (fun entries => entries.insertIdx index entry))
    (fun _ => ?_)
  refine .bind ?_ (fun _ => .bind (respects_read (fun _ _ => rfl)) (fun _ =>
    .bind (refreshHealth_respects blind _) (fun _ => .pure _)))
  cases entry with
  | versionKey id => exact respects_write (fun _ _ => rfl) (fun _ => rfl)
  | versionNode node => exact respects_write (fun _ _ => rfl) (fun _ => rfl)

include blind in
theorem removeEntry_respects (entry : NodeEntry V)
    : Py.Respects Alike (Registry.removeEntry config entry) := by
  unfold Registry.removeEntry
  refine .bind (respects_read (fun _ _ => rfl)) (fun affected => ?_)
  refine .bind (respects_read (fun _ _ => rfl)) (fun _ => .ite _ (.bind (respects_read
    (fun _ _ => rfl)) (fun _ => .bind (respects_write (fun _ _ => rfl) (fun _ => rfl))
    (fun _ => ?_))) ?_)
  all_goals
    refine .bind (touchKind_respects _) (fun _ => .bind (.query (fun _ _ alike =>
      congrArg (findNode · entry.id) (alike.kindEntries _))) (fun _ => .ite _ (.bind
      (bisectKind_respects _ _) (fun index => .bind (setKindEntries_respects _
        (fun entries => entries.eraseIdx index)) (fun _ => ?_))) ?_))
  all_goals
    refine .bind ?_ (fun _ => .bind (modifyHealth_respects _) (fun _ =>
      refreshHealth_respects blind _))
    cases entry with
    | versionKey id => exact respects_write (fun _ _ => rfl) (fun _ => rfl)
    | versionNode node => exact respects_write (fun _ _ => rfl) (fun _ => rfl)

include blind in
theorem reconcile_respects (entry : NodeEntry V)
    : Py.Respects Alike (Registry.reconcile config entry) := by
  unfold Registry.reconcile
  refine .bind (respects_read (fun _ _ => rfl)) (fun found => ?_)
  cases found with
  | none => exact store_respects blind entry
  | some existing =>
      refine .bind (respects_read (fun _ _ => rfl)) (fun catalog => .ite _ (.throw_bind _ _) ?_)
      cases entry.reconcile existing with
      | none => exact .throw _
      | some resolved =>
          cases resolved with
          | existing => exact .pure _
          | self =>
              exact .bind (removeEntry_respects blind existing)
                (fun _ => store_respects blind entry)

include blind in
theorem hydrate_respects (entry : NodeEntry V)
    : Py.Respects Alike (Registry.hydrate config entry) := by
  cases entry with
  | versionKey id => exact .throw _
  | versionNode node =>
      refine .bind (respects_read (fun _ _ => rfl)) (fun found => ?_)
      cases found with
      | none => exact store_respects blind _
      | some existing =>
          refine .ite _ (reconcile_respects blind _) ?_
          exact .bind (removeEntry_respects blind existing) (fun _ => store_respects blind _)

include blind in
theorem removeModel_respects (key : NodeId V)
    : Py.Respects Alike (Registry.removeModel config key) := by
  unfold Registry.removeModel
  refine .bind (respects_read (fun _ _ => rfl)) (fun versionIndex => .bind (touchKind_respects _)
    (fun _ => .bind (bisectKind_respects _ _) (fun kindIndex => ?_)))
  refine .bind (respects_read (fun _ _ => rfl)) (fun catalog => .bind (respects_read
    (fun _ _ => rfl)) (fun found => ?_))
  cases found with
  | none => exact .throw _
  | some version =>
      refine .bind (respects_read (fun _ _ => rfl)) (fun incident => .ite _ (.throw_bind _ _) ?_)
      refine .bind (respects_read (fun _ _ => rfl)) (fun affected => .bind
        (setKindEntries_respects _ (fun entries => entries.eraseIdx kindIndex)) (fun _ => ?_))
      refine .bind ?_ (fun _ => .bind (respects_write (fun _ _ => rfl) (fun _ => rfl)) (fun _ =>
        .bind (modifyHealth_respects _) (fun _ => refreshHealth_respects blind _)))
      cases version with
      | versionKey id => exact respects_write (fun _ _ => rfl) (fun _ => rfl)
      | versionNode node => exact respects_write (fun _ _ => rfl) (fun _ => rfl)

include blind in
theorem removeModelByRef_respects (ref : ModelRef)
    : Py.Respects Alike (Registry.removeModelByRef config ref) := by
  refine .bind (respects_read (fun _ _ => rfl)) (fun found => ?_)
  cases found with
  | none => exact .bind (respects_read (fun _ _ => rfl)) (fun _ => .throw _)
  | some node => exact removeModel_respects blind node.id

omit [VersionValue V] in
include blind in
theorem clearModels_respects : Py.Respects Alike (Registry.clearModels config) := by
  unfold Registry.clearModels
  refine .bind (respects_read (fun _ _ => rfl)) (fun _ => .ite _ (.bind (respects_read
    (fun _ _ => rfl)) (fun _ => .throw_bind _ _)) ?_)
  refine .bind (.modify (fun left right alike => ?_)) (fun _ => rebuildHealth_respects blind)
  obtain ⟨byKinds, rfl, _⟩ := alike
  exact Alike.refl _

omit [DecidableEq V] in
theorem isAdjacent_respects (key : EdgeId V) : Py.Respects Alike (Registry.isAdjacent key) :=
  .bind (touchKind_respects _) (fun _ => .bind (bisectKind_respects _ _) (fun _ =>
    .bind (bisectKind_respects _ _) (fun _ => .pure _)))

omit [DecidableEq V] in
theorem isCriticalEdge_respects (key : EdgeId V)
    : Py.Respects Alike (Registry.isCriticalEdge key) :=
  .bind (respects_write (fun _ _ => rfl) (fun _ => rfl)) (fun _ => .bind (respects_read
    (fun _ _ => rfl)) (fun _ => .bind (respects_read (fun _ _ => rfl)) (fun _ => .pure _)))

omit [VersionValue V] in
theorem hooksAt_respects (key : EdgeId V) : Py.Respects Alike (Registry.hooksAt key) :=
  .bind (respects_write (fun _ _ => rfl) (fun _ => rfl)) (fun _ => respects_read (fun _ _ => rfl))

include blind in
theorem insertEdge_respects (edge : EdgeEntry V)
    : Py.Respects Alike (Registry.insertEdge config edge) := by
  unfold Registry.insertEdge
  refine .bind (respects_read (fun _ _ => rfl)) (fun index => ?_)
  refine .bind (respects_write (fun _ _ => rfl) (fun _ => rfl)) (fun _ => ?_)
  refine .bind (respects_write (fun _ _ => rfl) (fun _ => rfl)) (fun _ => ?_)
  have finish := refreshHealth_respects blind (affectedByEdgeChange (.stored edge))
  cases edge with
  | edgeKey pair => exact .bind finish (fun _ => .pure _)
  | versionEdge version =>
      refine .bind (respects_read (fun _ _ => rfl)) (fun indexed => .ite _ ?_
        (.bind finish (fun _ => .pure _)))
      refine .bind (.const _) (fun _ => .bind (respects_write (fun _ _ => rfl) (fun _ => rfl))
        (fun _ => ?_))
      exact .bind finish (fun _ => .pure _)

include blind in
theorem fileEdge_respects (edge : EdgeEntry V)
    : Py.Respects Alike (Registry.fileEdge config edge) := by
  have insert := insertEdge_respects blind edge
  unfold Registry.fileEdge
  refine .bind (respects_write (fun _ _ => rfl) (fun _ => rfl)) (fun _ => .bind (respects_read
    (fun _ _ => rfl)) (fun found => ?_))
  cases found with
  | none => exact insert
  | some existing =>
      cases edge with
      | edgeKey pair => exact .pure _
      | versionEdge incoming =>
          cases existing with
          | edgeKey pair =>
              refine .bind (respects_read (fun _ _ => rfl)) (fun _ => .bind (respects_write
                (fun _ _ => rfl) (fun _ => rfl)) (fun _ => ?_))
              exact .bind (respects_write (fun _ _ => rfl) (fun _ => rfl)) (fun _ => insert)
          | versionEdge registered =>
              refine .bind (.const _) (fun _ => .bind (.const _) (fun _ => ?_))
              exact .ite _ (.bind (respects_read (fun _ _ => rfl)) (fun _ => .throw_bind _ _))
                (.pure _)

include blind in
theorem resolveEndpoints_respects (reflection : ReflectionPort V F) (spec : MigrationSpec V F)
    : Py.Respects Alike (Registry.resolveEndpoints config reflection spec) := by
  have reconstruct : ∀ anchor missing, Py.Respects Alike
      (Registry.reconstructEndpoint config reflection anchor missing spec.func) := by
    intro anchor missing
    unfold Registry.reconstructEndpoint
    refine .ite _ (.bind (respects_read (fun _ _ => rfl)) (fun _ => .throw_bind _ _)) ?_
    refine .bind (.const _) (fun _ => .bind (.const _) (fun _ => ?_))
    exact .bind (store_respects blind _) (fun _ => .pure _)
  refine .bind (respects_read (fun _ _ => rfl)) (fun source => .bind (respects_read
    (fun _ _ => rfl)) (fun target => ?_))
  cases source <;> cases target
  · exact .bind (respects_read (fun _ _ => rfl)) (fun _ => .throw _)
  · exact .bind (reconstruct _ _) (fun _ => .pure _)
  · exact .bind (reconstruct _ _) (fun _ => .pure _)
  · exact .pure _

include blind in
theorem storeMigration_respects (input : Registry.MigrationInput V F)
    : Py.Respects Alike (Registry.storeMigration config input) := by
  cases input with
  | spec spec =>
      refine .bind (.bind (respects_read (fun _ _ => rfl)) (fun catalog => ?_))
        (fun edge => fileEdge_respects blind _)
      cases config.reflection with
      | none => exact .throw _
      | some reflection =>
          refine .ite _ (.throw_bind _ _) ?_
          refine .bind (resolveEndpoints_respects blind reflection spec) (fun endpoints => ?_)
          refine .bind (.const _) (fun pair => .bind (isAdjacent_respects _) (fun adjacent => ?_))
          refine .ite _ (.throw_bind _ _) (.bind (.const _) (fun _ => .bind (.const _)
            (fun _ => ?_)))
          split
          · split
            · exact .pure _
            · exact .throw _
          · exact .throw _
  | edge edge =>
      cases edge with
      | edgeKey pair => exact fileEdge_respects blind _
      | versionEdge version =>
          refine .bind (respects_read (fun _ _ => rfl)) (fun registered => .ite _ ?_
            (fileEdge_respects blind _))
          exact .bind (respects_read (fun _ _ => rfl)) (fun _ => .throw_bind _ _)

include blind in
theorem removeMigration_respects (key : Transitional V)
    : Py.Respects Alike (Registry.removeMigration config key) := by
  have refresh := refreshHealth_respects (V := V) blind
  unfold Registry.removeMigration
  refine .bind (respects_read (fun _ _ => rfl)) (fun _ => .ite _ (.bind (respects_read
    (fun _ _ => rfl)) (fun _ => .throw_bind _ _)) ?_)
  refine .bind (respects_write (fun _ _ => rfl) (fun _ => rfl)) (fun _ => .bind (respects_read
    (fun _ _ => rfl)) (fun found => ?_))
  cases found with
  | none => exact refresh _
  | some existing =>
      refine .bind (respects_read (fun _ _ => rfl)) (fun _ => .bind (respects_write
        (fun _ _ => rfl) (fun _ => rfl)) (fun _ => ?_))
      refine .bind (respects_write (fun registry byKinds => ?_) (fun registry => ?_)) (fun _ => ?_)
      · by_cases last : (registry.migrations.getD key.kind []).isEmpty <;>
          simp [Registry.edges, last]
      · split <;> rfl
      have finish : Py.Respects Alike (do
          modify (fun registry => registry.unindexEdge key.id)
          modifyHealth (fun index => index.dropEntity (.edge (.stored existing)))
          refreshHealth config.linters
            ((affectedByEdgeChange (.stored existing)).filter
              (fun entity => entity.id ≠ .edge existing.id)) : RegistryM V PUnit) :=
        .bind (respects_write (fun _ _ => rfl) (fun _ => rfl)) (fun _ =>
          .bind (modifyHealth_respects _) (fun _ => refresh _))
      cases existing with
      | edgeKey pair => exact finish
      | versionEdge version =>
          refine .bind (respects_read (fun _ _ => rfl)) (fun _ => .ite _ ?_ finish)
          exact .bind (.const _) (fun _ => .bind (respects_write (fun _ _ => rfl) (fun _ => rfl))
            (fun _ => finish))

omit [VersionValue V] in
include blind in
theorem addHook_respects (key : Transitional V) (hook : HookRef)
    : Py.Respects Alike (Registry.addHook config key hook) :=
  .bind (respects_write (fun _ _ => rfl) (fun _ => rfl)) (fun _ => refreshHealth_respects blind _)

include blind in
theorem removeHook_respects (key : Transitional V) (hook : Option HookRef)
    : Py.Respects Alike (Registry.removeHook config key hook) := by
  have finish := refreshHealth_respects blind [.edge key]
  unfold Registry.removeHook
  refine .bind (respects_read (fun _ _ => rfl)) (fun _ => .ite _ (.bind (respects_read
    (fun _ _ => rfl)) (fun _ => .throw_bind _ _)) ?_)
  cases hook with
  | none => exact .bind (respects_write (fun _ _ => rfl) (fun _ => rfl)) (fun _ => finish)
  | some hook =>
      refine .bind (respects_read (fun _ _ => rfl)) (fun _ => .ite _ (.throw_bind _ _) ?_)
      exact .bind (respects_write (fun _ _ => rfl) (fun _ => rfl)) (fun _ => finish)

theorem clearHooks_respects (key : Option (EdgeId V))
    : Py.Respects Alike (Registry.clearHooks key) := by
  cases key with
  | none => exact respects_write (fun _ _ => rfl) (fun _ => rfl)
  | some key =>
      refine .bind (respects_read (fun _ _ => rfl)) (fun _ => .ite _ (.bind (respects_read
        (fun _ _ => rfl)) (fun _ => .throw_bind _ _)) ?_)
      exact respects_write (fun _ _ => rfl) (fun _ => rfl)

include blind in
theorem clearMigrations_respects : Py.Respects Alike (Registry.clearMigrations config) :=
  .bind (clearHooks_respects none) (fun _ => .bind (respects_write (fun _ _ => rfl)
    (fun _ => rfl)) (fun _ => rebuildHealth_respects blind))

theorem rangeKeys_respects (versions : List (VersionNode V)) (indices : List Nat)
    : Py.Respects Alike (Registry.rangeKeys versions indices) := by
  induction indices with
  | nil => exact .pure _
  | cons index rest ih =>
      unfold Registry.rangeKeys
      split
      · refine .bind (.const _) (fun _ => .bind (respects_read (fun _ _ => rfl)) (fun _ =>
          .ite _ ih ?_))
        refine .bind (respects_read (fun _ _ => rfl)) (fun _ => .bind (isAdjacent_respects _)
          (fun _ => ?_))
        refine .ite _ (.throw_bind _ _) (.bind (respects_read (fun _ _ => rfl)) (fun _ => ?_))
        exact .ite _ (.throw_bind _ _) (.bind ih (fun _ => .pure _))
      · exact .throw _

omit [DecidableEq V] [VersionValue V] in
theorem kindVersions_respects (kind : ModelKind)
    : Py.Respects Alike (Py.query (fun registry => .ok (registry.kindVersions kind))
        : RegistryM V (List (VersionNode V))) :=
  .query (fun _ _ alike => congrArg (fun entries => Except.ok (entries.filterMap NodeEntry.node?))
    (alike.kindEntries kind))

include blind in
theorem removeMigrationRange_respects (fromVersion toVersion : NodeId V)
    : Py.Respects Alike (Registry.removeMigrationRange config fromVersion toVersion) := by
  refine .bind (kindVersions_respects _) (fun _ => .bind (.const _) (fun _ => ?_))
  refine .bind (.const _) (fun _ => .bind (rangeKeys_respects _ _) (fun keys => ?_))
  exact .forM _ (fun pair => removeMigration_respects blind _)

include blind in
theorem removeOwnEdge_respects (versions : List (VersionNode V)) (edge : VersionEdge V)
    : Py.Respects Alike (Registry.removeOwnEdge config versions edge) := by
  have removed := removeMigration_respects blind (.stored (.edgeKey edge.pair))
  refine .ite _ (.bind (respects_read (fun _ _ => rfl)) (fun _ => .ite _ ?_ removed)) (.pure _)
  exact .bind (clearHooks_respects _) (fun _ => removed)

omit [VersionValue V] in
/-- A loop over the executable edges of versions. -/
theorem forIncident_respects {body : VersionEdge V → RegistryM V PUnit}
    (each : ∀ edge, Py.Respects Alike (body edge)) (scanned : List (VersionNode V))
    : Py.Respects Alike (forIncident scanned body) :=
  .forM _ (fun _ => .bind (respects_read (fun _ _ => rfl)) (fun _ => .forM _ each))

include blind in
theorem deleteKind_respects (kind : ModelKind)
    : Py.Respects Alike (Registry.deleteKind config kind) := by
  rw [deleteKind_eq]
  refine .bind (kindVersions_respects kind) (fun versions => .ite _ (.pure _) ?_)
  refine .bind (forIncident_respects (fun edge => .ite _ (.bind (respects_read (fun _ _ => rfl))
    (fun _ => .throw _)) (.pure _)) _) (fun _ => ?_)
  refine .bind (forIncident_respects (removeOwnEdge_respects blind versions) _) (fun _ => ?_)
  exact .forM _ (fun version => .tryCatch (removeModel_respects blind _) (fun _ =>
    .ite _ (.pure _) (.throw _)))

include blind in
/-- No operation tells registries apart that differ in empty kinds. -/
theorem Op.respects (op : Op V F) : Py.Respects Alike (op.run config) := by
  cases op with
  | store entry => exact .bind (store_respects blind entry) (fun _ => .pure _)
  | hydrate entry => exact .bind (hydrate_respects blind entry) (fun _ => .pure _)
  | reconcile entry => exact .bind (reconcile_respects blind entry) (fun _ => .pure _)
  | removeEntry entry => exact removeEntry_respects blind entry
  | removeModel key => exact removeModel_respects blind key
  | removeModelByRef ref => exact removeModelByRef_respects blind ref
  | clearModels => exact clearModels_respects blind
  | deleteKind kind => exact deleteKind_respects blind kind
  | storeMigration input => exact .bind (storeMigration_respects blind input) (fun _ => .pure _)
  | removeMigration key => exact removeMigration_respects blind key
  | removeMigrationRange fromVersion toVersion =>
      exact removeMigrationRange_respects blind fromVersion toVersion
  | clearMigrations => exact clearMigrations_respects blind
  | addHook key hook => exact addHook_respects blind key hook
  | removeHook key hook => exact removeHook_respects blind key hook
  | clearHooks key => exact clearHooks_respects key
  | isAdjacent key => exact .bind (isAdjacent_respects key) (fun _ => .pure _)
  | isCriticalEdge key => exact .bind (isCriticalEdge_respects key) (fun _ => .pure _)
  | hooks key => exact .bind (hooksAt_respects key) (fun _ => .pure _)

end Respecting

-----------------------------------------------------------------------------------------
-- Queries leave registries that differ in empty kinds
-----------------------------------------------------------------------------------------

section Asking

open Registry (Alike)

variable [DecidableEq V] [VersionValue V] {config : Config V F}

omit [VersionValue V] in
/-- A refresh of settled entities writes nothing, by list induction. -/
theorem after_refreshEntities {linters : List (HealthLinter V)} {entities : List (Entity V)}
    {registry : Registry V} (settled : ∀ entity ∈ entities, registry.Settled linters entity)
    : entities.forM (refreshEntity linters) registry = .ok ⟨⟩ registry := by
  induction entities with
  | nil => rfl
  | cons entity rest ih =>
      obtain ⟨⟨references, issues, found, health⟩, others⟩ := List.forall_mem_cons.mp settled
      have first : refreshEntity linters entity registry = .ok ⟨⟩ registry := by
        simp only [refreshEntity, modifyHealth, Py.bind_apply, Py.modify_apply, references,
          Py.query_apply, found, health]
      exact (Py.bind_eq_of_ok first).trans (ih others)

omit [VersionValue V] in
theorem Entity.mem_of_mem_distinct {entities : List (Entity V)} {entity : Entity V}
    (member : entity ∈ Entity.distinct entities)
    : entity ∈ entities := by
  induction entities with
  | nil => exact member
  | cons first rest ih =>
      rcases List.mem_cons.mp member with rfl | later
      · exact List.mem_cons_self
      · exact List.mem_cons_of_mem _ (ih (List.mem_filter.mp later).1)

omit [VersionValue V] in
theorem after_refreshHealth {linters : List (HealthLinter V)} {entities : List (Entity V)}
    {registry : Registry V} (settled : ∀ entity ∈ entities, registry.Settled linters entity)
    : Py.after (refreshHealth linters entities) registry = registry :=
  Py.after_of_ok (after_refreshEntities (fun entity member =>
    settled entity (Entity.mem_of_mem_distinct member)))

/-- A subscript inserts nothing where the key is there. -/
theorem setDefault_of_mem {κ ν : Type} [DecidableEq κ] {dict : Py.Dict κ ν} {key : κ} (default : ν)
    (present : key ∈ dict.keys)
    : dict.setDefault key default = dict :=
  if_pos (Py.Dict.contains_iff.mpr present)

omit [DecidableEq V] [VersionValue V] in
/-- An empty bucket of nodes makes no difference. -/
theorem touchKind_alike (registry : Registry V) (kind : ModelKind)
    : Py.Preserves registry.Alike (Registry.touchKind kind : RegistryM V PUnit) := by
  refine .modify (fun later alike => alike.trans ?_)
  exact ⟨_, rfl, fun other => Py.Dict.getD_setDefault _ _ _ _⟩

omit [DecidableEq V] [VersionValue V] in
theorem touchMigrations_same {registry : Registry V} {kind : ModelKind}
    (present : kind ∈ registry.kinds)
    : Py.Preserves (· = registry) (Registry.touchMigrations kind : RegistryM V PUnit) := by
  refine .modify (fun later same => ?_)
  rw [same, setDefault_of_mem [] present]

/-- Removing an edge that is not there only refreshes it and its endpoints. -/
theorem removeMigration_same {registry : Registry V} {key : Transitional V}
    (absent : (RegistryQuery.removeMigration key).Absent registry)
    (quiet : (RegistryQuery.removeMigration key).Quiet config registry)
    : Py.after (Registry.removeMigration config key) registry = registry := by
  refine @Py.after_query_bind_of _ _ _ _ (· = registry) _ _ registry rfl (fun hooked read => ?_)
  obtain rfl := Except.ok.inj read
  rcases quiet with refused | ⟨present, settled⟩
  · rw [if_pos refused]
    rfl
  · by_cases refused : registry.hasHooks key.id = true
    · rw [if_pos refused]
      rfl
    · rw [if_neg refused]
      refine Py.Preserves.bind (touchMigrations_same present) (fun _ => .query_bind ?_) registry rfl
      intro later found same searched
      rw [same] at searched
      cases found with
      | some edge => exact (absent edge searched).elim
      | none =>
          rw [same]
          exact after_refreshHealth (settled searched)

/-- Removing a version that is not there leaves at most an empty kind behind. -/
theorem removeModel_alike {registry : Registry V} {key : NodeId V}
    (absent : (RegistryQuery.removeModel key).Absent registry)
    : registry.Alike (Py.after (Registry.removeModel config key) registry) := by
  have kept : Py.Preserves registry.Alike (Registry.removeModel config key) := by
    refine .bind (.query _ _) (fun _ => .bind (touchKind_alike registry key.kind) (fun _ => ?_))
    refine .bind (.query _ _) (fun _ => .bind (.query _ _) (fun _ => .query_bind ?_))
    intro later found alike searched
    have same : later.byVersions = registry.byVersions := by
      obtain ⟨_, rfl, _⟩ := alike
      rfl
    rw [same] at searched
    cases found with
    | none => exact alike
    | some entry => exact (absent entry searched).elim
  exact kept registry (.refl registry)

/-- A quiet query leaves a registry that differs at most in empty kinds. -/
theorem RegistryQuery.alike_of_quiet {registry : Registry V} {query : RegistryQuery V}
    (absent : query.Absent registry) (quiet : query.Quiet config registry)
    : registry.Alike (Py.after (query.run config) registry) := by
  have reads : ∀ {α : Type} (read : Registry V → Except (Error V) α),
      registry.Alike (Py.after (do let _ ← Py.query read : RegistryM V PUnit) registry) := by
    intro α read
    exact Py.Preserves.bind (.query registry.Alike read) (fun _ => .pure _ _) registry
      (.refl registry)
  cases query with
  | isAdjacent key =>
      have kept : Py.Preserves registry.Alike
          ((RegistryQuery.isAdjacent key).run config) :=
        .bind (.bind (touchKind_alike registry key.kind) (fun _ => .bind (.query _ _) (fun _ =>
          .bind (.query _ _) (fun _ => .pure _ _)))) (fun _ => .pure _ _)
      exact kept registry (.refl registry)
  | isCriticalEdge key =>
      have kept : Py.Preserves (· = registry) ((RegistryQuery.isCriticalEdge key).run config) :=
        .bind (.bind (touchMigrations_same quiet) (fun _ => .bind (.query _ _) (fun _ =>
          .bind (.query _ _) (fun _ => .pure _ _)))) (fun _ => .pure _ _)
      rw [kept registry rfl]
      exact .refl registry
  | hooks key =>
      have touched : Py.Preserves (· = registry) (Registry.hooksAt key) := by
        refine .bind (.modify (fun later same => ?_)) (fun _ => .query _ _)
        rw [same, setDefault_of_mem [] (Py.Dict.contains_iff.mp quiet)]
      have kept : Py.Preserves (· = registry) ((RegistryQuery.hooks key).run config) :=
        .bind touched (fun _ => .pure _ _)
      rw [kept registry rfl]
      exact .refl registry
  | removeMigration key =>
      change registry.Alike (Py.after (Registry.removeMigration config key) registry)
      rw [removeMigration_same absent quiet]
      exact .refl registry
  | removeModel key => exact removeModel_alike absent
  | getHooks key => exact reads _
  | hasHooks key => exact reads _
  | hasMigration key => exact reads _
  | hasModel key => exact reads _
  | findEntry key => exact reads _
  | edges kind => exact reads _
  | migrationsOf key => exact reads _
  | latest kind => exact reads _
  | health entity failLevel => exact reads _

/-- Quiet queries in turn, by list induction. -/
theorem Registry.alike_askAll {registry : Registry V} {queries : List (RegistryQuery V)}
    (quiet : registry.AllQuiet config queries)
    : registry.Alike (registry.askAll config queries) := by
  induction queries generalizing registry with
  | nil => exact .refl registry
  | cons query rest ih =>
      obtain ⟨absent, first, later⟩ := quiet
      exact (query.alike_of_quiet absent first).trans (ih later)

end Asking

-----------------------------------------------------------------------------------------
-- What is observed
-----------------------------------------------------------------------------------------

section Observing

variable [DecidableEq V] [VersionValue V] {config : Config V F}

/-- Nothing that is seen of a registry shows its empty kinds. -/
theorem Registry.Alike.observedAlike {left right : Registry V} (alike : left.Alike right)
    : left.ObservedAlike right := by
  have entities := alike.entities
  have kinds : left.kinds = right.kinds := by
    obtain ⟨_, rfl, _⟩ := alike
    rfl
  refine { kinds, entities, hasHooks := ?_, healthIssues := ?_, snapshot := ?_ }
  · obtain ⟨_, rfl, _⟩ := alike
    exact fun _ => rfl
  · obtain ⟨_, rfl, _⟩ := alike
    rfl
  · intro hasher revision
    have listed : left.snapshotKinds = right.snapshotKinds := by
      rw [Registry.snapshotKinds, Registry.snapshotKinds, entities, kinds]
    rw [buildGraph, buildGraph, listed]
    obtain ⟨_, rfl, _⟩ := alike
    rfl

/-- Operations keep registries alike, by induction over them. -/
theorem Registry.Alike.runAll (blind : ∀ linter ∈ config.linters, HealthLinter.Blind linter)
    {left right : Registry V} (alike : left.Alike right) (later : List (Op V F))
    : (Registry.runAll config later left).Alike (Registry.runAll config later right) := by
  induction later generalizing left right with
  | nil => exact alike
  | cons op rest ih => exact ih (op.respects blind left right alike).2

/-- Quiet queries change no later observation, whatever operations follow. -/
theorem Registry.unobserved_of_quiet
    (blind : ∀ linter ∈ config.linters, HealthLinter.Blind linter) {registry : Registry V}
    {queries : List (RegistryQuery V)} (quiet : registry.AllQuiet config queries)
    : registry.Unobserved config (registry.askAll config queries) := by
  intro later
  have alike := (alike_askAll quiet).runAll blind later
  exact ⟨alike.observedAlike, fun op => (op.respects blind _ _ alike).1⟩

end Observing

-----------------------------------------------------------------------------------------
-- The default linters
-----------------------------------------------------------------------------------------

section Defaults

variable [DecidableEq V] [VersionValue V]

theorem missingReferencesLinter_blind : HealthLinter.Blind (missingReferencesLinter (V := V)) := by
  intro left right alike
  obtain ⟨byKinds, rfl, _⟩ := alike
  have each : ∀ (entity : NodeId V) (references : List (NodeId V)),
      missingReferencesOver left entity references
        = missingReferencesOver { left with byKinds } entity references := by
    intro entity references
    induction references with
    | nil => rfl
    | cons reference rest ih =>
        rw [missingReferencesOver, missingReferencesOver, ih]
        rfl
  funext entity
  cases entity with
  | node value => simp only [missingReferencesLinter, each]
  | edge value => rfl

omit [DecidableEq V] in
theorem missingEdgeEndpointsLinter_blind
    : HealthLinter.Blind (missingEdgeEndpointsLinter (V := V)) := by
  intro left right alike
  obtain ⟨byKinds, rfl, _⟩ := alike
  rfl

omit [DecidableEq V] in
theorem missingMigrationsLinter_blind : HealthLinter.Blind (missingMigrationsLinter (V := V)) := by
  intro left right alike
  have versions : left.kindVersions = right.kindVersions := by
    funext kind
    rw [Registry.kindVersions, Registry.kindVersions, alike.kindEntries]
  have each : ∀ (entity : NodeId V) (nodes : List (VersionNode V)),
      missingMigrationsOver left entity nodes = missingMigrationsOver right entity nodes := by
    obtain ⟨byKinds, rfl, _⟩ := alike
    intro entity nodes
    induction nodes with
    | nil => rfl
    | cons source rest ih =>
        cases rest with
        | nil => rfl
        | cons target others =>
            rw [missingMigrationsOver, missingMigrationsOver, ih]
            rfl
  funext entity
  cases entity with
  | node value => simp only [missingMigrationsLinter, versions, each]
  | edge value => rfl

/-- The default linters read the nodes of a kind through the queries of the registry. -/
theorem defaultHealthLinters_blind
    : ∀ linter ∈ defaultHealthLinters (V := V), HealthLinter.Blind linter := by
  intro linter member
  rcases List.mem_cons.mp member with rfl | member
  · exact missingReferencesLinter_blind
  · rcases List.mem_cons.mp member with rfl | member
    · exact missingEdgeEndpointsLinter_blind
    · obtain rfl := List.mem_singleton.mp member
      exact missingMigrationsLinter_blind

end Defaults

-----------------------------------------------------------------------------------------
-- Queries of two releases
-----------------------------------------------------------------------------------------

/-- The identity of a release of `Group`. -/
def groupId (major : Nat) : NodeId Release := { userId major with kind := "Group" }

/-- The identity of an edge between two releases of a kind that is not registered. -/
def groupEdge : EdgeId Release where
  source := groupId 1
  target := groupId 2
  discriminator := defaultDiscriminator
  named := userEdge.named
  sameNamespace := rfl
  sameKind := rfl

/-- Queries of an edge that is there, and of a kind and a version that are not. -/
def userQueries : List (RegistryQuery Release) := [
  .isAdjacent groupEdge,
  .isCriticalEdge userEdge,
  .latest "Group",
  .removeModel (userId 3)]

/-- Witness: the queries insert an empty kind, which no later operation shows. -/
theorem unobserved_userQueries
    : upgradedEdges.Unobserved plainConfig (upgradedEdges.askAll plainConfig userQueries) := by
  have quiet : upgradedEdges.AllQuiet plainConfig userQueries := by
    have kind : userEdge.kind ∈ (Py.after ((RegistryQuery.isAdjacent groupEdge).run plainConfig)
        upgradedEdges).kinds := by
      decide +kernel
    have missing : findNode (upgradedEdges.askAll plainConfig
        [.isAdjacent groupEdge, .isCriticalEdge userEdge, .latest "Group"]).byVersions (userId 3)
        = .ok none := by
      decide +kernel
    refine ⟨trivial, trivial, trivial, kind, trivial, trivial, fun entry found => ?_, trivial,
      trivial⟩
    have same := missing.symm.trans found
    cases same
  exact Registry.unobserved_of_quiet defaultHealthLinters_blind quiet

/-- Counterexample: asking for a critical edge makes a kind, which keeps the models from being
cleared.
-/
theorem not_unobserved_userCatalog
    : ¬ ∀ (config : Config Release Unit) (registry : Registry Release)
        (query : RegistryQuery Release),
        Reachable config registry → query.Absent registry
        → registry.Unobserved config (Py.after (query.run config) registry) := by
  intro claim
  have reached : Reachable plainConfig (userCatalogIn "default") :=
    .step _ (.new plainConfig "default" false userEdge.named)
  have observed := claim plainConfig (userCatalogIn "default") (.isCriticalEdge userEdge) reached
    trivial
  have same := (observed []).2 .clearModels
  have differ : (Py.outcome ((Op.clearModels : Op Release Unit).run plainConfig)
        (userCatalogIn "default")).isOk
      ≠ (Py.outcome ((Op.clearModels : Op Release Unit).run plainConfig)
        (Py.after ((RegistryQuery.isCriticalEdge userEdge).run plainConfig)
          (userCatalogIn "default"))).isOk := by
    decide +kernel
  exact differ (congrArg Except.isOk same)

end Pyverge
