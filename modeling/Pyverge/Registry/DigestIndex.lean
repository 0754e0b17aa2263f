import Pyverge.Registry.EdgeIndex

/-! The index from digests to executable edges.
It is filled and emptied edge by edge, but `copy_from` takes over the edges of a registry without
its index if that registry keeps none.
-/

namespace Pyverge

variable {V F : Type} [DecidableEq V] [VersionValue V] {hasher : ContentHasher}

namespace EdgeIndexes

omit [DecidableEq V] [VersionValue V] in
/-- The executable edge is in the list of its kind. -/
def Holds (indexes : EdgeIndexes V) (edge : VersionEdge V) : Prop :=
  EdgeEntry.versionEdge edge ∈ indexes.paths edge.id.kind

/-- Each digest leads to exactly the executable edges that have it. -/
def DigestsExact (indexes : EdgeIndexes V) (hasher : ContentHasher) : Prop :=
  ∀ index, indexes.digests = some index → ∀ digest key, index.get? digest = some key
    ↔ ∃ edge, indexes.Holds edge ∧ edge.id = key ∧ edge.digest hasher = .ok digest

variable {indexes : EdgeIndexes V}

theorem holds_add {entry : EdgeEntry V} {edge : VersionEdge V}
    : (indexes.add hasher entry).Holds edge
      ↔ EdgeEntry.versionEdge edge = entry ∨ indexes.Holds edge :=
  mem_add

omit [DecidableEq V] in
theorem holds_cut {key : EdgeId V} {edge : VersionEdge V}
    : (indexes.cut key).Holds edge ↔ indexes.Holds edge ∧ edge.id.cmp key ≠ .eq := by
  refine mem_cut.trans (and_congr_right (fun _ => not_congr ?_))
  exact ⟨And.right, fun equal => ⟨EdgeId.kind_eq_of_cmp equal, equal⟩⟩

namespace DigestsExact

/-- Only the edges that can be hashed count. -/
theorem of_hashed {before after : EdgeIndexes V} (exact : before.DigestsExact hasher)
    (digests : after.digests = before.digests)
    (held : ∀ edge digest, edge.digest hasher = .ok digest →
      (after.Holds edge ↔ before.Holds edge))
    : after.DigestsExact hasher := by
  intro index found digest key
  rw [exact index (digests ▸ found) digest key]
  constructor
  · rintro ⟨edge, holds, same, hashed⟩
    exact ⟨edge, (held edge digest hashed).mpr holds, same, hashed⟩
  · rintro ⟨edge, holds, same, hashed⟩
    exact ⟨edge, (held edge digest hashed).mp holds, same, hashed⟩

/-- Adding an edge whose digest is new. -/
theorem add (exact : indexes.DigestsExact hasher) {entry : EdgeEntry V}
    (fresh : ∀ edge digest, entry = .versionEdge edge → edge.digest hasher = .ok digest →
      indexes.digests.isSome → ∀ other, indexes.Holds other → other.digest hasher ≠ .ok digest)
    : (indexes.add hasher entry).DigestsExact hasher := by
  cases entry with
  | edgeKey pair => exact exact.of_hashed rfl (fun edge _ _ => holds_add.trans (by simp))
  | versionEdge edge =>
      cases hashed : edge.digest hasher with
      | error raised =>
          refine exact.of_hashed ?_ (fun other digest found => holds_add.trans ?_)
          · rw [EdgeIndexes.add, redigest_of_unhashed (by simp [EdgeEntry.indexDigest, hashed,
              Except.toOption])]
            rfl
          · have ne : other ≠ edge := by
              rintro rfl
              rw [hashed] at found
              cases found
            simp [ne]
      | ok digest =>
          intro index found value key
          have updated : (indexes.add hasher (.versionEdge edge)).digests
              = indexes.digests.map (fun index => index.set digest edge.id) := by
            simp only [EdgeIndexes.add, redigest, EdgeEntry.indexDigest, hashed, Except.toOption,
              Option.elim_some]
            rfl
          rw [updated] at found
          obtain ⟨old, present, rfl⟩ := Option.map_eq_some_iff.mp found
          have alone := fresh edge digest rfl hashed (by simp [present])
          rw [Py.Dict.get?_set]
          simp only [holds_add, EdgeEntry.versionEdge.injEq]
          split
          case isTrue same =>
            subst same
            constructor
            · intro eq
              exact ⟨edge, .inl rfl, Option.some.inj eq, hashed⟩
            · rintro ⟨other, rfl | holds, rfl, otherHashed⟩
              · rfl
              · exact (alone other holds otherHashed).elim
          case isFalse differs =>
            rw [exact old present]
            constructor
            · rintro ⟨other, holds, same, otherHashed⟩
              exact ⟨other, .inr holds, same, otherHashed⟩
            · rintro ⟨other, rfl | holds, same, otherHashed⟩
              · exact (differs (Except.ok.inj (otherHashed.symm.trans hashed))).elim
              · exact ⟨other, holds, same, otherHashed⟩

/-- Cutting a key that no hashed edge compares equal to changes nothing. -/
theorem cut (exact : indexes.DigestsExact hasher) {key : EdgeId V}
    (kept : ∀ edge digest, indexes.Holds edge → edge.digest hasher = .ok digest →
      edge.id.cmp key ≠ .eq)
    : (indexes.cut key).DigestsExact hasher := by
  refine exact.of_hashed rfl (fun edge digest hashed => holds_cut.trans ?_)
  exact ⟨And.left, fun holds => ⟨holds, kept edge digest holds hashed⟩⟩

/-- Removing a stored edge removes its digest; no other edge has it. -/
theorem drop (exact : indexes.DigestsExact hasher) {key : EdgeId V} {existing : EdgeEntry V}
    (only : ∀ edge, indexes.Holds edge →
      (edge.id.cmp key = .eq ↔ EdgeEntry.versionEdge edge = existing))
    (stored : ∀ edge, existing = .versionEdge edge → indexes.Holds edge)
    : (indexes.drop hasher key existing).DigestsExact hasher := by
  cases existing with
  | edgeKey pair =>
      have kept : (indexes.cut key).DigestsExact hasher := exact.cut (fun edge _ holds _ equal => by
        cases (only edge holds).mp equal)
      exact kept
  | versionEdge edge =>
      cases hashed : edge.digest hasher with
      | error raised =>
          have kept : (indexes.cut key).DigestsExact hasher := by
            refine exact.cut (fun other digest holds found equal => ?_)
            obtain rfl := EdgeEntry.versionEdge.inj ((only other holds).mp equal)
            rw [hashed] at found
            cases found
          rw [EdgeIndexes.drop, redigest_of_unhashed (by simp [EdgeEntry.indexDigest, hashed,
            Except.toOption])]
          exact kept
      | ok digest =>
          intro index found value name
          have updated : (indexes.drop hasher key (.versionEdge edge)).digests
              = indexes.digests.map (fun index => index.erase digest) := by
            simp only [EdgeIndexes.drop, redigest, EdgeEntry.indexDigest, hashed, Except.toOption,
              Option.elim_some]
            rfl
          rw [updated] at found
          obtain ⟨old, present, rfl⟩ := Option.map_eq_some_iff.mp found
          have held : ∀ other, (indexes.drop hasher key (.versionEdge edge)).Holds other
              ↔ indexes.Holds other ∧ other ≠ edge := by
            intro other
            have cut : (indexes.cut key).Holds other ↔ _ := holds_cut
            refine cut.trans (and_congr_right (fun holds => ?_))
            rw [Ne, only other holds, EdgeEntry.versionEdge.injEq]
          have unique : ∀ other, indexes.Holds other → other.digest hasher = .ok digest →
              other = edge := by
            intro other holds otherHashed
            have first := (exact old present digest edge.id).mpr
              ⟨edge, stored edge rfl, rfl, hashed⟩
            have second := (exact old present digest other.id).mpr
              ⟨other, holds, rfl, otherHashed⟩
            have same : other.id = edge.id := Option.some.inj (second.symm.trans first)
            have equal := (only edge (stored edge rfl)).mpr rfl
            exact EdgeEntry.versionEdge.inj ((only other holds).mp (same ▸ equal))
          rw [Py.Dict.get?_erase]
          simp only [held]
          split
          case isTrue same =>
            subst same
            refine ⟨fun none => (by cases none), ?_⟩
            rintro ⟨other, ⟨holds, ne⟩, _, otherHashed⟩
            exact (ne (unique other holds otherHashed)).elim
          case isFalse differs =>
            rw [exact old present]
            constructor
            · rintro ⟨other, holds, same, otherHashed⟩
              refine ⟨other, ⟨holds, ?_⟩, same, otherHashed⟩
              rintro rfl
              exact differs (Except.ok.inj (otherHashed.symm.trans hashed))
            · rintro ⟨other, ⟨holds, _⟩, same, otherHashed⟩
              exact ⟨other, holds, same, otherHashed⟩

end DigestsExact

end EdgeIndexes

-----------------------------------------------------------------------------------------
-- Operations
-----------------------------------------------------------------------------------------

/-- The edge lists are in order and the digest index is exact. -/
structure DigestsIndexed (hasher : ContentHasher) (registry : Registry V) : Prop where
  stores : EdgeStores registry
  exact : registry.edgeIndexes.DigestsExact hasher

theorem DigestsIndexed.of_indexes {before after : Registry V}
    (indexed : DigestsIndexed hasher before) (same : after.edgeIndexes = before.edgeIndexes)
    : DigestsIndexed hasher after :=
  ⟨indexed.stores.of_edges (EdgeIndexes.mk.inj same).1, same ▸ indexed.exact⟩

theorem digestsIndexed_of_keeps {α : Type} {program : RegistryM V α}
    (kept : Py.Keeps Registry.edgeIndexes program)
    : Py.Preserves (DigestsIndexed hasher) program :=
  kept.preserves (fun _ _ same indexed => indexed.of_indexes same)

/-- No stored executable edge of another identity has the content of the edge, or there is no
index to confuse them in.
-/
def Registry.NewContent (registry : Registry V) (edge : VersionEdge V) : Prop :=
  registry.digestIndex.isSome → edge.Hashable →
    ∀ other, EdgeEntry.versionEdge other ∈ registry.edges other.id.kind →
      other.id ≠ edge.id → ¬ other.SameContent edge

theorem Registry.NewContent.of_indexes {before after : Registry V} {edge : VersionEdge V}
    (new : before.NewContent edge) (same : after.edgeIndexes = before.edgeIndexes)
    : after.NewContent edge := by
  obtain ⟨paths, _, digests⟩ := EdgeIndexes.mk.inj same
  unfold Registry.NewContent
  rw [paths, digests]
  exact new

/-- Filing an edge of new content keeps the index exact. -/
theorem fileEdge_digestsIndexed {config : Config V F} (faithful : config.hasher.Faithful)
    {entry : EdgeEntry V} {registry : Registry V}
    (indexed : DigestsIndexed config.hasher registry)
    (new : ∀ edge, entry = .versionEdge edge → registry.NewContent edge)
    : DigestsIndexed config.hasher (Py.after (Registry.fileEdge config entry) registry) := by
  refine ⟨fileEdge_edgeStores config entry registry indexed.stores, ?_⟩
  -- An edge of the same digest would have the same content, and so the same identity.
  have fresh : ∀ edge digest, entry = .versionEdge edge → edge.digest config.hasher = .ok digest →
      registry.digestIndex.isSome → ∀ other, registry.edgeIndexes.Holds other →
      other.id ≠ edge.id → other.digest config.hasher ≠ .ok digest := by
    intro edge digest executes hashed enabled other holds ne otherHashed
    have hashable : edge.Hashable := VersionEdge.exists_digest.mp ⟨digest, hashed⟩
    refine new edge executes enabled hashable other holds ne ?_
    exact (VersionEdge.digest_eq_iff faithful otherHashed hashed).mp rfl
  rcases fileEdge_indexes config entry indexed.stores with
    same | ⟨absent, added⟩ | ⟨pair, stored, equal, replaced⟩
  · exact same ▸ indexed.exact
  · rw [added]
    refine indexed.exact.add (fun edge digest executes hashed enabled other holds => ?_)
    refine fresh edge digest executes hashed enabled other holds (fun same => ?_)
    subst executes
    have listed : EdgeEntry.versionEdge other ∈ registry.edges edge.id.kind := same ▸ holds
    exact absent _ listed (by
      change other.id.cmp edge.id = .eq
      rw [same]
      exact Std.ReflCmp.compare_self)
  · have executes : ∀ other, registry.edgeIndexes.Holds other → other.id.cmp entry.id ≠ .eq := by
      intro other holds alike
      have kinds : other.id.kind = entry.kind := EdgeId.kind_eq_of_cmp alike
      have listed : EdgeEntry.versionEdge other ∈ registry.edges entry.kind := kinds ▸ holds
      have same := (indexed.stores.sorted entry.kind).eq_of_cmp_eq listed stored
        (Std.TransCmp.eq_trans alike (Std.OrientedCmp.eq_symm equal))
      cases same
    have cut : (registry.edgeIndexes.cut entry.id).DigestsExact config.hasher :=
      indexed.exact.cut (fun other _ holds _ => executes other holds)
    rcases replaced with same | added
    · exact same ▸ cut
    · rw [added]
      refine EdgeIndexes.DigestsExact.add cut ?_
      intro edge digest same hashed enabled other holds
      obtain ⟨held, differs⟩ := EdgeIndexes.holds_cut.mp holds
      refine fresh edge digest same hashed enabled other held (fun identical => differs ?_)
      rw [identical, same]
      exact Std.ReflCmp.compare_self

/-- Removing an edge needs no condition: its digest goes with it. -/
theorem removeMigration_digestsIndexed (config : Config V F) (key : Transitional V)
    : Py.Preserves (DigestsIndexed config.hasher) (Registry.removeMigration config key) := by
  intro registry indexed
  refine ⟨removeMigration_edgeStores config key registry indexed.stores, ?_⟩
  rcases removeMigration_indexes config key indexed.stores with
    same | ⟨existing, stored, equal, _, outcome⟩
  · exact same ▸ indexed.exact
  · have only : ∀ edge, registry.edgeIndexes.Holds edge →
        (edge.id.cmp key.id = .eq ↔ EdgeEntry.versionEdge edge = existing) := by
      intro edge holds
      constructor
      · intro alike
        have kinds : edge.id.kind = key.kind := EdgeId.kind_eq_of_cmp alike
        have listed : EdgeEntry.versionEdge edge ∈ registry.edges key.kind := kinds ▸ holds
        exact (indexed.stores.sorted key.kind).eq_of_cmp_eq listed stored
          (Std.TransCmp.eq_trans alike (Std.OrientedCmp.eq_symm equal))
      · rintro rfl
        exact equal
    rcases outcome with dropped | ⟨_, ⟨version, rfl, unhashed⟩, cut⟩
    · rw [dropped]
      refine indexed.exact.drop only (fun edge executes => ?_)
      subst executes
      have kinds : edge.id.kind = key.kind := EdgeId.kind_eq_of_cmp equal
      change EdgeEntry.versionEdge edge ∈ registry.edges edge.id.kind
      rwa [kinds]
    · rw [cut]
      refine indexed.exact.cut (fun edge digest holds hashed alike => ?_)
      obtain rfl := EdgeEntry.versionEdge.inj ((only edge holds).mp alike)
      rw [hashed] at unhashed
      cases unhashed

theorem deleteKind_digestsIndexed (config : Config V F) (kind : ModelKind)
    : Py.Preserves (DigestsIndexed config.hasher) (Registry.deleteKind config kind) := by
  refine deleteKind_preserves (fun versions edge => ?_)
    (fun key => digestsIndexed_of_keeps (keepsEdges_indexes (removeModel_keepsEdges config key)))
    kind
  exact removeOwnEdge_preserves (fun key => digestsIndexed_of_keeps (clearHooks_keepsIndexes key))
    (removeMigration_digestsIndexed config _) versions

theorem removeMigrationRange_digestsIndexed (config : Config V F)
    (fromVersion toVersion : NodeId V)
    : Py.Preserves (DigestsIndexed config.hasher)
        (Registry.removeMigrationRange config fromVersion toVersion) := by
  rw [removeMigrationRange_eq]
  refine .bind (digestsIndexed_of_keeps (keepsEdges_indexes (rangeScan_keepsEdges _ _)))
    (fun keys => ?_)
  exact .forM _ (fun _ _ => removeMigration_digestsIndexed config _)

theorem clearMigrations_digestsIndexed (config : Config V F)
    : Py.Preserves (DigestsIndexed config.hasher) (Registry.clearMigrations config) := by
  refine .bind (digestsIndexed_of_keeps (clearHooks_keepsIndexes none)) (fun _ => ?_)
  refine .bind (.modify (fun registry _ => ⟨?_, ?_⟩))
    (fun _ => digestsIndexed_of_keeps (keepsEdges_indexes (rebuildHealth_keepsEdges _)))
  · exact .of_empty (fun _ => rfl)
  · intro index found digest key
    obtain ⟨_, _, rfl⟩ := Option.map_eq_some_iff.mp found
    simp [EdgeIndexes.Holds, Registry.edgeIndexes, Registry.edges, Py.Dict.getD]

/-- The executable edge that a call files, with the request already reflected. -/
def Registry.MigrationInput.Files (config : Config V F) (registry : Registry V)
    (edge : VersionEdge V) : Registry.MigrationInput V F → Prop
  | .edge entry => entry = .versionEdge edge
  | .spec request => Py.outcome (Registry.reflectEdge config request) registry = .ok edge

theorem storeMigration_digestsIndexed {config : Config V F} (faithful : config.hasher.Faithful)
    {input : Registry.MigrationInput V F} {registry : Registry V}
    (indexed : DigestsIndexed config.hasher registry)
    (new : ∀ edge, input.Files config registry edge → registry.NewContent edge)
    : DigestsIndexed config.hasher
        (Py.after (Registry.storeMigration config input) registry) := by
  cases input with
  | spec spec =>
      have kept := keepsEdges_indexes (reflectEdge_keepsEdges config spec) registry
      unfold Registry.storeMigration
      cases run : Registry.reflectEdge config spec registry with
      | error raised middle =>
          rw [Py.after_of_error run] at kept
          rw [Py.after_of_error (Py.bind_eq_of_error run)]
          exact indexed.of_indexes kept
      | ok edge middle =>
          rw [Py.after_of_ok run] at kept
          rw [Py.after_eq (Py.bind_eq_of_ok run)]
          have reflected : Py.outcome (Registry.reflectEdge config spec) registry = .ok edge := by
            simp only [Py.outcome, run]
          refine fileEdge_digestsIndexed faithful (indexed.of_indexes kept) (fun other same => ?_)
          obtain rfl := EdgeEntry.versionEdge.inj same
          exact (new edge reflected).of_indexes kept
  | edge entry =>
      have filed := fileEdge_digestsIndexed faithful indexed new
      cases entry with
      | edgeKey pair => exact filed
      | versionEdge edge =>
          unfold Registry.storeMigration
          simp only [Py.after_query_bind]
          split
          case h_1 registered _ =>
            cases registered with
            | true => exact filed
            | false => exact indexed
          case h_2 => exact indexed

-----------------------------------------------------------------------------------------
-- Runs
-----------------------------------------------------------------------------------------

/-- What a call has to find so that it keeps the digest index exact. -/
def Op.KeepsDigests (config : Config V F) (registry : Registry V) : Op V F → Prop
  | .storeMigration input => ∀ edge, input.Files config registry edge → registry.NewContent edge
  | _ => True

/-- A registry that keeps its own index has to hold the executable edges of the copied one. -/
def CopyKeepsDigests (registry source : Registry V) : Prop :=
  registry.digestIndex.isSome → source.digestIndex = none →
    ∀ edge, EdgeEntry.versionEdge edge ∈ registry.edges edge.id.kind
      ↔ EdgeEntry.versionEdge edge ∈ source.edges edge.id.kind

/-- Every call that meets its condition keeps the index exact, also when it raises. -/
theorem Op.digestsIndexed {config : Config V F} (faithful : config.hasher.Faithful)
    {registry : Registry V} (op : Op V F) (indexed : DigestsIndexed config.hasher registry)
    (meets : op.KeepsDigests config registry)
    : DigestsIndexed config.hasher (Py.after (op.run config) registry) := by
  refine op.after_edges digestsIndexed_of_keeps indexed ?_ (clearMigrations_digestsIndexed config)
    (fun key _ => removeMigration_digestsIndexed config key registry indexed)
    (fun fromVersion toVersion _ =>
      removeMigrationRange_digestsIndexed config fromVersion toVersion registry indexed)
    (fun kind _ => deleteKind_digestsIndexed config kind registry indexed)
  rintro input rfl
  exact storeMigration_digestsIndexed faithful indexed meets

theorem copyFrom_digestsIndexed {registry source : Registry V}
    (indexed : DigestsIndexed hasher registry) (sourceIndexed : DigestsIndexed hasher source)
    (meets : CopyKeepsDigests registry source)
    : DigestsIndexed hasher (Py.after (Registry.copyFrom source) registry) := by
  refine ⟨sourceIndexed.stores.of_edges rfl, ?_⟩
  cases copied : source.digestIndex with
  | some index =>
      refine sourceIndexed.exact.of_hashed ?_ (fun _ _ _ => Iff.rfl)
      change source.digestIndex.orElse (fun _ => registry.digestIndex) = source.digestIndex
      rw [copied]
      rfl
  | none =>
      have kept : (Py.after (Registry.copyFrom source) registry).digestIndex
          = registry.digestIndex := by
        change source.digestIndex.orElse (fun _ => registry.digestIndex) = registry.digestIndex
        rw [copied]
        rfl
      intro index found
      have enabled : registry.digestIndex = some index := kept ▸ found
      refine indexed.exact.of_hashed kept (fun edge _ _ => ?_) index found
      exact (meets (by simp [enabled]) copied edge).symm

theorem ReachableBy.digestsIndexed (faithful : hasher.Faithful) {config : Config V F}
    {registry : Registry V}
    (reached : ReachableBy (fun config registry op =>
      config.hasher = hasher ∧ op.KeepsDigests config registry) CopyKeepsDigests config registry)
    : DigestsIndexed hasher registry := by
  induction reached with
  | new config nameSpace indexDigests _ =>
      refine ⟨.of_empty (fun _ => rfl), ?_⟩
      intro index found digest key
      obtain ⟨_, empty⟩ := Option.ite_none_right_eq_some.mp found
      obtain rfl := Option.some.inj empty
      simp [EdgeIndexes.Holds, Registry.edgeIndexes, Registry.edges, Registry.new, Py.Dict.getD]
  | step op _ meets ih =>
      obtain ⟨rfl, meets⟩ := meets
      exact op.digestsIndexed faithful ih meets
  | copyFrom _ _ meets ih sourceIh => exact copyFrom_digestsIndexed ih sourceIh meets

/-- With an index, a digest is found exactly if an executable edge of that digest is stored. -/
def Registry.DigestIndexExact (hasher : ContentHasher) (registry : Registry V) : Prop :=
  registry.digestIndex.isSome → ∀ digest key, registry.findEdgeByDigest digest = some key
    ↔ ∃ edge, EdgeEntry.versionEdge edge ∈ registry.edges key.kind
      ∧ edge.id = key ∧ edge.digest hasher = .ok digest

/-- Registries that share a faithful hasher have exact digest indexes after every run that files
edges of new content only and never loses an index to a copy.
-/
theorem ReachableBy.digestIndexExact (faithful : hasher.Faithful) {config : Config V F}
    {registry : Registry V}
    (reached : ReachableBy (fun config registry op =>
      config.hasher = hasher ∧ op.KeepsDigests config registry) CopyKeepsDigests config registry)
    : registry.DigestIndexExact hasher := by
  intro enabled digest key
  obtain ⟨index, found⟩ := Option.isSome_iff_exists.mp enabled
  have lookup : registry.findEdgeByDigest digest = index.get? digest := by
    rw [Registry.findEdgeByDigest, found]
    rfl
  rw [lookup, (reached.digestsIndexed faithful).exact index found digest key]
  constructor
  · rintro ⟨edge, holds, rfl, hashed⟩
    exact ⟨edge, holds, rfl, hashed⟩
  · rintro ⟨edge, stored, rfl, hashed⟩
    exact ⟨edge, stored, rfl, hashed⟩

/-- The plain catalog with a hasher that keeps all canonical contents apart. -/
def hashingConfig : Config Release Unit := { plainConfig with hasher := canonicalHasher }

/-- Two releases in a registry with a digest index. -/
def indexedUsers : Registry Release :=
  Registry.runAll hashingConfig
    [.store (.versionNode (userNode 1 "UserV1")), .store (.versionNode (userNode 2 "UserV2"))]
    (Registry.new "default" true)

/-- The executable edge between the two releases is stored as well. -/
def digestedUsers : Registry Release :=
  Py.after ((Op.storeMigration (.edge (.versionEdge (userMigration 1 2 "UserV1" "UserV2")))).run
    hashingConfig) indexedUsers

theorem reachable_digestedUsers
    : ReachableBy (fun config registry op =>
        config.hasher = canonicalHasher ∧ op.KeepsDigests config registry) CopyKeepsDigests
        hashingConfig digestedUsers := by
  refine .step _ (.runAll (.new _ _ _ (by decide)) (by simp [Op.KeepsDigests, hashingConfig]))
    ⟨rfl, ?_⟩
  intro edge _ _ _ other stored
  have none : indexedUsers.migrations = ∅ := by decide +kernel
  change EdgeEntry.versionEdge other ∈ indexedUsers.migrations.getD _ [] at stored
  rw [none] at stored
  exact (List.not_mem_nil stored).elim

/-- Witness: the stored edge is found by its digest. -/
theorem digestIndexExact_digestedUsers
    : ∃ digest, digestedUsers.findEdgeByDigest digest = some userEdge := by
  have hashable : (userMigration 1 2 "UserV1" "UserV2").Hashable := ⟨by decide, by decide⟩
  obtain ⟨digest, hashed⟩ := (@VersionEdge.exists_digest _ _ _ _ canonicalHasher).mpr hashable
  refine ⟨digest, ?_⟩
  refine (ReachableBy.digestIndexExact canonicalHasher_faithful reachable_digestedUsers
    (by decide +kernel) digest userEdge).mpr ?_
  exact ⟨userMigration 1 2 "UserV1" "UserV2", by decide +kernel, rfl, hashed⟩

/-- Counterexample: a registry with a digest index copies an empty one that has none, and still
finds the edge it has lost.
-/
theorem not_digestIndexExact_copy
    : canonicalHasher.Faithful
      ∧ ¬ (Py.after (Registry.copyFrom (Registry.new "default" false))
          digestedUsers).DigestIndexExact canonicalHasher := by
  refine ⟨canonicalHasher_faithful, fun exact => ?_⟩
  have hashable : (userMigration 1 2 "UserV1" "UserV2").Hashable := ⟨by decide, by decide⟩
  obtain ⟨digest, hashed⟩ := (@VersionEdge.exists_digest _ _ _ _ canonicalHasher).mpr hashable
  obtain ⟨index, enabled⟩ := Option.isSome_iff_exists.mp
    (show digestedUsers.digestIndex.isSome from by decide +kernel)
  have indexed := (reachable_digestedUsers.digestsIndexed canonicalHasher_faithful).exact index
    enabled digest userEdge
  have stored : EdgeEntry.versionEdge (userMigration 1 2 "UserV1" "UserV2")
      ∈ digestedUsers.edges "User" := by
    decide +kernel
  have listed := indexed.mpr ⟨userMigration 1 2 "UserV1" "UserV2", stored, rfl, hashed⟩
  -- The copy takes the edges of the source and leaves the index as it was.
  have kept : ∀ registry : Registry Release, registry.digestIndex = some index →
      (Py.after (Registry.copyFrom (Registry.new "default" false)) registry).digestIndex
        = some index := fun _ same => same
  have none : ∀ registry : Registry Release,
      (Py.after (Registry.copyFrom (Registry.new "default" false)) registry).edges userEdge.kind
        = [] := fun _ => rfl
  have found := exact (by rw [kept _ enabled]; rfl) digest userEdge
  rw [Registry.findEdgeByDigest, kept _ enabled, none] at found
  obtain ⟨edge, member, _⟩ := found.mp listed
  exact List.not_mem_nil member

end Pyverge
