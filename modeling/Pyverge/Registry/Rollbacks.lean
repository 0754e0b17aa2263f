import Pyverge.Py.Rollback
import Pyverge.Registry.DigestIndex
import Pyverge.Registry.Removals

/-! What a caller has after a migration was stored or removed, or the call was refused.
A refused call has either written something that shows, or nothing at all.
-/

namespace Pyverge

variable {V F : Type} [DecidableEq V] [VersionValue V]

-----------------------------------------------------------------------------------------
-- Refused migrations
-----------------------------------------------------------------------------------------

section Refused

variable {config : Config V F} {reflection : ReflectionPort V F} {spec : MigrationSpec V F}
  {registry final : Registry V} {error : Error V}

/-- Filing an edge that raises has stored the edge, or has done nothing. -/
theorem fileEdge_raised (stores : EdgeStores registry) {edge : EdgeEntry V}
    (run : Registry.fileEdge config edge registry = .error error final)
    : final = registry ∨ final.edges ≠ registry.edges := by
  by_cases inserts : registry.Inserts edge
  · right
    rcases fileEdge_of_inserts config stores inserts with
      ⟨_, result, reached, returned⟩ | ⟨_, raised, reached, again, member⟩
    · cases returned.symm.trans run
    · obtain ⟨_, rfl⟩ := EStateM.Result.error.inj (again.symm.trans run)
      intro same
      rw [same] at member
      exact inserts.not_mem member
  · left
    rcases fileEdge_of_not_inserts config stores inserts with
      ⟨_, other, _, _, returned⟩ | ⟨_, raised, again⟩
    · cases returned.symm.trans run
    · exact (EStateM.Result.error.inj (again.symm.trans run)).2.symm

/-- The endpoints of a request are found, or not found without a write, or one of them has been
stored.
-/
theorem resolveEndpoints_cases (nodeStores : NodeStores registry)
    : (∃ source target,
          Registry.resolveEndpoints config reflection spec registry = .ok (source, target) registry
          ∧ NodeEntry.versionNode source ∈ registry.byVersions)
      ∨ (∃ error, Registry.resolveEndpoints config reflection spec registry = .error error registry)
      ∨ (Py.after (Registry.resolveEndpoints config reflection spec) registry).byVersions
        ≠ registry.byVersions := by
  have resolve : Registry.resolveEndpoints config reflection spec registry = _ :=
    Py.query_bind_eq _ _ _
  simp only [Py.query_bind_eq] at resolve
  -- A made-up endpoint has been stored, whatever the linters then raise.
  have reconstructed : ∀ (anchor : VersionNode V) (missing : Comparable V)
      (ends : VersionNode V → VersionNode V × VersionNode V),
      Registry.resolveEndpoints config reflection spec registry
        = (do
            let node ← Registry.reconstructEndpoint config reflection anchor missing spec.func
            return ends node : RegistryM V _) registry →
      (∃ error, Registry.resolveEndpoints config reflection spec registry = .error error registry)
        ∨ (Py.after (Registry.resolveEndpoints config reflection spec) registry).byVersions
          ≠ registry.byVersions := by
    intro anchor missing ends run
    rcases reconstructEndpoint_cases config reflection nodeStores anchor missing spec.func with
      ⟨node, _, _, _, made⟩ | ⟨_, error, unmade⟩
    · right
      rw [Py.after_eq run]
      have kept : ∀ {α : Type} (value : α),
          Py.Preserves (fun state : Registry V => state.byVersions ≠ registry.byVersions)
            (pure value : RegistryM V α) :=
        fun value => .pure _ value
      refine Py.Preserves.after_bind ?_ (fun _ => kept _)
      rw [Py.after_eq made]
      refine Py.Preserves.after_bind ?_ (fun _ => kept _)
      have stored := congrArg NodeView.byVersions (refreshHealth_keepsNodes config.linters
        (affectedByNodeChange (registry.insertNode (.versionNode node)) (.versionNode node))
        (registry.insertNode (.versionNode node)))
      exact fun same => insertNode_grows registry _ (stored.symm.trans same)
    · exact .inl ⟨error, run.trans (Py.bind_eq_of_error unmade)⟩
  cases source : registry.findModel spec.source.id with
  | error error =>
      rw [source] at resolve
      exact .inr (.inl ⟨error, resolve⟩)
  | ok foundSource =>
      cases target : registry.findModel spec.target.id with
      | error error =>
          rw [source, target] at resolve
          exact .inr (.inl ⟨error, resolve⟩)
      | ok foundTarget =>
          rw [source, target] at resolve
          cases foundSource with
          | none =>
              cases foundTarget with
              | none => exact .inr (.inl ⟨_, resolve⟩)
              | some known => exact .inr (reconstructed known spec.source (·, known) resolve)
          | some known =>
              cases foundTarget with
              | none => exact .inr (reconstructed known spec.target (known, ·) resolve)
              | some other =>
                  exact .inl ⟨known, other, resolve, mem_of_findModel nodeStores source⟩

/-- A request that is refused has changed something that shows, or has done nothing. -/
theorem storeMigration_raised (nodeStores : NodeStores registry) (edgeStores : EdgeStores registry)
    (port : config.reflection = some reflection) (kinds : spec.source.kind = spec.target.kind)
    (run : Registry.storeMigration config (.spec spec) registry = .error error final)
    : final = registry ∨ ¬ registry.Unchanged final := by
  have same : ∀ {raised}, Registry.reflectEdge config spec registry = .error raised registry →
      final = registry :=
    fun refused =>
      (EStateM.Result.error.inj (run.symm.trans (Py.bind_eq_of_error refused))).2
  rcases @resolveEndpoints_cases _ _ _ _ config reflection spec _ nodeStores with
    ⟨source, target, resolve, member⟩ | ⟨raised, resolve⟩ | changed
  · have present : NodeEntry.versionNode source ∈ registry.kindEntries source.id.kind := by
      rw [nodeStores.grouped, List.mem_filter]
      exact ⟨member, by simp [NodeEntry.kind, NodeEntry.id]⟩
    rcases reflectEdge_resolved port kinds resolve present with
      ⟨edge, _, _, _, reflected⟩ | ⟨_, raised, refused⟩
    · have filing : Registry.fileEdge config (.versionEdge edge) registry = .error error final :=
        (Py.bind_eq_of_ok reflected).symm.trans run
      rcases fileEdge_raised edgeStores filing with unchanged | changed
      · exact .inl unchanged
      · exact .inr (fun unchanged => changed unchanged.edges)
    · exact .inl (same refused)
  · exact .inl (same (reflectEdge_unresolved port kinds resolve))
  · right
    intro unchanged
    apply changed
    have nodes := congrArg NodeView.byVersions
      (@storeMigration_keepsResolved _ _ _ _ config reflection spec registry port kinds)
    rw [Py.after_of_error run] at nodes
    exact nodes.symm.trans unchanged.entries

/-- A request that fails before anything is written leaves nothing behind. -/
theorem storeMigration_rollsBack (nodeStores : NodeStores registry)
    (edgeStores : EdgeStores registry)
    (early : (Registry.MigrationInput.spec spec).FailsEarly config registry)
    : Py.RollsBack (Registry.storeMigration config (.spec spec)) registry := by
  have refused : ∀ {raised}, Registry.reflectEdge config spec registry = .error raised registry →
      Py.RollsBack (Registry.storeMigration config (.spec spec)) registry :=
    fun reflected => .of_error (Py.bind_eq_of_error reflected)
  cases port : config.reflection with
  | none =>
      obtain ⟨raised, reflected⟩ : ∃ raised, Registry.reflectEdge config spec registry
          = .error raised registry := by
        simp only [Registry.reflectEdge, Py.query_bind_eq, port]
        exact ⟨_, rfl⟩
      exact refused reflected
  | some reflection =>
      by_cases kinds : spec.source.kind = spec.target.kind
      · intro error final run
        have leaves := (storeMigration_spec_iff port kinds nodeStores edgeStores).mpr
          (early reflection port kinds)
        rcases storeMigration_raised nodeStores edgeStores port kinds run with same | changed
        · exact same
        · exact absurd (leaves error final run) changed
      · obtain ⟨raised, reflected⟩ : ∃ raised, Registry.reflectEdge config spec registry
            = .error raised registry := by
          simp only [Registry.reflectEdge, Py.query_bind_eq, port, ne_eq, kinds, not_false_eq_true,
            if_true]
          exact ⟨_, rfl⟩
        exact refused reflected

end Refused
-----------------------------------------------------------------------------------------
-- Stored migrations
-----------------------------------------------------------------------------------------

section Stored

variable {config : Config V F} {registry final : Registry V} {edge : VersionEdge V}
  {result : EdgeEntry V}

theorem insertEdge_result {entry : EdgeEntry V}
    (run : Registry.insertEdge config entry registry = .ok result final)
    : result = entry := by
  have finish : ∀ {state : Registry V}, (do
      refreshHealth config.linters (affectedByEdgeChange (.stored entry))
      return entry : RegistryM V (EdgeEntry V)) state = .ok result final → result = entry := by
    intro state ran
    obtain ⟨_, _, _, returned⟩ := Py.bind_ok.mp ran
    exact (EStateM.Result.ok.inj returned).1.symm
  unfold Registry.insertEdge at run
  obtain ⟨index, _, run⟩ := Py.query_bind_ok.mp run
  rw [Py.modify_bind_ok, Py.modify_bind_ok] at run
  cases entry with
  | edgeKey pair => exact finish run
  | versionEdge version =>
      obtain ⟨digests, _, run⟩ := Py.query_bind_ok.mp run
      split at run
      · obtain ⟨digest, _, run⟩ := Py.query_bind_ok.mp run
        rw [Py.modify_bind_ok] at run
        exact finish run
      · exact finish run

/-- What filing an executable edge returns can be executed then, and nothing else comes or goes. -/
theorem fileEdge_returned (stores : EdgeStores registry)
    (run : Registry.fileEdge config (.versionEdge edge) registry = .ok result final)
    : ∃ own, result = .versionEdge own ∧ ∀ other,
      final.edgeIndexes.Holds other ↔ other = own ∨ registry.edgeIndexes.Holds other := by
  by_cases inserts : registry.Inserts (.versionEdge edge)
  · obtain ⟨base, filing, sorted, absent, compares, _, _⟩ :=
      fileEdge_inserts config stores inserts
    have member := mem_after_insertEdge config sorted absent compares
    rw [← Py.after_eq filing, Py.after_of_ok run] at member
    have held : final.edgeIndexes.Holds edge := member
    refine ⟨edge, insertEdge_result (filing.symm.trans run), fun other => ?_⟩
    have indexes := fileEdge_indexes config (.versionEdge edge) stores
    rw [Py.after_of_ok run] at indexes
    rcases indexes with same | ⟨_, added⟩ | ⟨pair, _, _, gone | replaced⟩
    · rw [same] at held
      exact absurd held inserts.not_mem
    · rw [added, EdgeIndexes.holds_add, EdgeEntry.versionEdge.injEq]
    · rw [gone] at held
      exact absurd Std.ReflCmp.compare_self (EdgeIndexes.holds_cut.mp held).2
    · -- No executable edge equals the one that replaces a key-only edge.
      rw [replaced, EdgeIndexes.holds_add, EdgeEntry.versionEdge.injEq]
      refine or_congr_right (EdgeIndexes.holds_cut.trans (and_iff_left_of_imp ?_))
      intro holds equal
      have kind : other.id.kind = edge.id.kind := EdgeId.kind_eq_of_cmp equal
      have inside : .versionEdge other ∈ registry.edges edge.id.kind := kind ▸ holds
      cases (inserts.2 _ inside equal).2
  · rcases fileEdge_of_not_inserts config stores inserts with
      ⟨_, own, member, executable, answered⟩ | ⟨_, error, raised⟩
    · obtain ⟨rfl, rfl⟩ := EStateM.Result.ok.inj (answered.symm.trans run)
      cases own with
      | edgeKey pair => cases executable rfl
      | versionEdge own =>
          refine ⟨own, rfl, fun other => (or_iff_right_of_imp ?_).symm⟩
          intro same
          subst same
          have kind := stores.filed _ _ member
          change .versionEdge other ∈ registry.edges (EdgeEntry.versionEdge other).kind
          rwa [kind]
    · cases raised.symm.trans run

/-- A request that returns gives an edge that can be executed then; the others and the hooks stay. -/
theorem storeMigration_returned {spec : MigrationSpec V F} (stores : EdgeStores registry)
    (run : Registry.storeMigration config (.spec spec) registry = .ok result final)
    : final.hooks = registry.hooks ∧ ∃ own, result = .versionEdge own ∧ ∀ other,
      final.edgeIndexes.Holds other ↔ other = own ∨ registry.edgeIndexes.Holds other := by
  obtain ⟨edge, reached, reflected, filed⟩ := Py.bind_ok.mp run
  have reflectKeeps := reflectEdge_keepsEdges config spec registry
  rw [Py.after_of_ok reflected] at reflectKeeps
  have fileKeeps := @fileEdge_keeps _ _ _ _ _ Registry.hooks (fun _ _ _ _ _ => rfl) config
    (.versionEdge edge) reached
  rw [Py.after_of_ok filed] at fileKeeps
  have indexes := keepsEdges_indexes (reflectEdge_keepsEdges config spec) registry
  rw [Py.after_of_ok reflected] at indexes
  obtain ⟨own, same, held⟩ := fileEdge_returned (stores.of_edges (EdgeIndexes.mk.inj indexes).1)
    filed
  refine ⟨fileKeeps.trans (congrArg EdgeView.hooks reflectKeeps), own, same, fun other => ?_⟩
  rw [held, indexes]

end Stored

-----------------------------------------------------------------------------------------
-- Removed migrations
-----------------------------------------------------------------------------------------

namespace Registry

/-- The registry without an executable edge, before what the edge touches is refreshed. -/
def withoutExecutable (registry : Registry V) (hasher : ContentHasher) (edge : VersionEdge V)
    : Registry V :=
  let cut := registry.withoutKey edge.id
  let forgotten : Registry V := { cut with digestIndex := cut.digestIndex.map (fun index =>
    ((edge.digest hasher).toOption.map (fun digest => index.erase digest)).getD index) }
  let unindexed := forgotten.unindexEdge edge.id
  { unindexed with health := unindexed.health.dropEntity (.edge (.stored (.versionEdge edge))) }

/-- The digest of the edge can be forgotten, and no linter raises on what the edge touches. -/
def RemovesCleanly (config : Config V F) (registry : Registry V) (edge : VersionEdge V) : Prop :=
  (registry.digestIndex.isSome → edge.Hashable)
    ∧ ∃ final, refreshHealth config.linters
      ((affectedByEdgeChange (.stored (.versionEdge edge))).filter
        (fun entity => entity.id ≠ .edge edge.id))
      (registry.withoutExecutable config.hasher edge) = .ok ⟨⟩ final

end Registry

section Removed

variable {config : Config V F} {registry : Registry V} {edge : VersionEdge V}

omit [DecidableEq V] in
theorem EdgeStores.searchable_of_holds (stores : EdgeStores registry)
    (holds : registry.edgeIndexes.Holds edge)
    : registry.Searchable edge.id :=
  fun other member => stores.comparable edge.id.kind other member _ holds

/-- The rest of a removal is the refresh of what the edge touched. -/
theorem removeFound_cleanly (clean : registry.RemovesCleanly config edge)
    : Registry.removeFound config (.stored (.edgeKey edge.pair)) (.versionEdge edge)
        (registry.withoutKey edge.id)
      = refreshHealth config.linters
        ((affectedByEdgeChange (.stored (.versionEdge edge))).filter
          (fun entity => entity.id ≠ .edge edge.id))
        (registry.withoutExecutable config.hasher edge) := by
  have digests : (registry.withoutKey edge.id).digestIndex = registry.digestIndex :=
    (EdgeIndexes.mk.inj (edgeIndexes_withoutKey registry edge.id)).2.2
  unfold Registry.removeFound Registry.withoutExecutable
  simp only
  rw [Py.query_bind_eq]
  simp only [digests]
  cases indexed : registry.digestIndex with
  | none =>
      have same : { registry.withoutKey edge.id with digestIndex := none }
          = registry.withoutKey edge.id := by
        rw [← indexed, ← digests]
      simp only [Option.map_none, same, Option.isSome_none, Bool.false_eq_true, if_false]
      rfl
  | some index =>
      obtain ⟨digest, hashed⟩ := (@VersionEdge.exists_digest _ _ _ edge config.hasher).mpr
        (clean.1 (by simp [indexed]))
      simp only [Option.isSome_some, if_true]
      rw [Py.query_bind_eq, hashed]
      simp only [modifyHealth, Py.bind_apply, Py.modify_apply, digests, indexed, Option.map_some,
        Except.toOption, Option.getD_some]
      rfl

/-- Where nothing stops the removal of an executable edge, it alone is gone then. -/
theorem removeMigration_cleanly (stores : EdgeStores registry)
    (holds : registry.edgeIndexes.Holds edge) (unhooked : registry.hasHooks edge.id = false)
    (clean : registry.RemovesCleanly config edge)
    : ∃ final, Registry.removeMigration config (.stored (.edgeKey edge.pair)) registry
          = .ok ⟨⟩ final
        ∧ final.hooks = registry.hooks
        ∧ ∀ other, final.edgeIndexes.Holds other
          ↔ registry.edgeIndexes.Holds other ∧ other ≠ edge := by
  have equal : (EdgeEntry.versionEdge edge).id.cmp edge.id = .eq := Std.ReflCmp.compare_self
  have found := @removeMigration_found _ _ _ _ config _ (.stored (.edgeKey edge.pair)) stores
    unhooked (stores.searchable_of_holds holds) (.versionEdge edge) holds equal
  obtain ⟨final, refreshed⟩ := clean.2
  have run := (found.trans (removeFound_cleanly clean)).trans refreshed
  have hooks := @removeMigration_keeps _ _ _ _ _ Registry.hooks (fun _ _ _ _ _ => rfl) config
    (.stored (.edgeKey edge.pair)) registry
  rw [Py.after_of_ok run] at hooks
  have paths : final.edges = (registry.edgeIndexes.cut edge.id).paths := by
    rw [← Py.after_of_ok refreshed, refreshHealth_keepsPaths]
    exact (EdgeIndexes.mk.inj (edgeIndexes_withoutKey registry edge.id)).1
  refine ⟨final, run, hooks, fun other => ?_⟩
  have cut : final.edgeIndexes.Holds other ↔ (registry.edgeIndexes.cut edge.id).Holds other := by
    unfold EdgeIndexes.Holds
    rw [← paths]
    rfl
  rw [cut, EdgeIndexes.holds_cut]
  refine and_congr_right (fun inside => not_congr ?_)
  constructor
  · intro same
    exact EdgeEntry.versionEdge.inj (stores.eq_of_cmp inside holds same)
  · intro same
    subst same
    exact equal

end Removed

end Pyverge
