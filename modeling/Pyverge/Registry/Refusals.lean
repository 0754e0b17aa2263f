import Pyverge.Registry.EdgeIndex

/-! What a refused migration leaves behind.
A call that raises before it stores anything leaves the registry as it was. It may also raise
after it has stored a reconstructed endpoint or inserted the edge, and then both stay.
-/

namespace Pyverge

variable {V F : Type} [DecidableEq V] [VersionValue V]

/-- Nothing that a caller sees of the registry has changed. -/
structure Registry.Unchanged (before after : Registry V) : Prop where
  entries : after.entries = before.entries
  edges : after.edges = before.edges
  hooks : after.hooks = before.hooks
  models : after.byModels = before.byModels
  digests : after.digestIndex = before.digestIndex
  kinds : after.kinds = before.kinds
  health : after.health = before.health

omit [DecidableEq V] [VersionValue V] in
theorem Registry.Unchanged.refl (registry : Registry V) : registry.Unchanged registry :=
  ⟨rfl, rfl, rfl, rfl, rfl, rfl, rfl⟩

/-- A call from this state that raises leaves it unchanged. -/
def LeavesUnchanged {α : Type} (program : RegistryM V α) (registry : Registry V) : Prop :=
  ∀ error final, program registry = .error error final → registry.Unchanged final

-----------------------------------------------------------------------------------------
-- Filing an edge
-----------------------------------------------------------------------------------------

/-- The content of the entry can be hashed; key-only edges have none. -/
def EdgeEntry.Hashable : EdgeEntry V → Prop
  | .edgeKey _ => True
  | .versionEdge edge => edge.Hashable

namespace Registry

/-- The registry with the edge in its list, at its endpoints and under its digest. -/
def withEdge (registry : Registry V) (hasher : ContentHasher) (edge : EdgeEntry V) : Registry V :=
  let filed := (registry.setEdges edge.kind ((registry.edges edge.kind).insertIdx
    (edgeIndex (registry.edges edge.kind) edge.id) edge)).indexEdge edge
  match edge with
  | .edgeKey _ => filed
  | .versionEdge version =>
      { filed with digestIndex := filed.digestIndex.map (fun index =>
          ((version.digest hasher).toOption.map (fun digest => index.set digest edge.id)).getD
            index) }

/-- The registry without the key-only edge that an executable one is to replace. -/
def withoutEqual (registry : Registry V) (edge : EdgeEntry V) : Registry V :=
  match (registry.edges edge.kind).find? (fun other => other.id.cmp edge.id == .eq) with
  | none => registry
  | some existing =>
      (registry.setEdges edge.kind ((registry.edges edge.kind).eraseIdx
        (edgeIndex (registry.edges edge.kind) edge.id))).unindexEdge existing.id

/-- The edge can be indexed, and no linter raises on what it touches. -/
def FilesCleanly (config : Config V F) (registry : Registry V) (edge : EdgeEntry V) : Prop :=
  (registry.digestIndex.isSome → edge.Hashable)
    ∧ ∃ final, refreshHealth config.linters (affectedByEdgeChange (.stored edge))
      ((registry.withoutEqual edge).withEdge config.hasher edge) = .ok ⟨⟩ final

end Registry

section Insertion

variable (config : Config V F) {registry : Registry V} {edge : EdgeEntry V}
  (sorted : SortedEdges (registry.edges edge.kind))
  (absent : ∀ other ∈ registry.edges edge.kind, other.id.cmp edge.id ≠ .eq)
  (compares : ∀ other ∈ registry.edges edge.kind, other.id.Compares edge.id)

include sorted absent compares

omit [DecidableEq V] in
theorem insertion_search
    : Py.bisectRight (fun other : EdgeEntry V => edge.id.lt other.id) (registry.edges edge.kind)
      = .ok (edgeIndex (registry.edges edge.kind) edge.id) :=
  sorted.bisectRight_eq edge.id
    (fun other member => EdgeId.lt_of_compares (compares other member).symm) absent

/-- Inserting an edge that can be indexed is one edit followed by a health refresh. -/
theorem insertEdge_eq (hashable : registry.digestIndex.isSome → edge.Hashable)
    : Registry.insertEdge config edge registry
      = (do
          refreshHealth config.linters (affectedByEdgeChange (.stored edge))
          return edge : RegistryM V (EdgeEntry V)) (registry.withEdge config.hasher edge) := by
  have search := insertion_search sorted absent compares
  simp only [Registry.insertEdge, Py.bind_apply, Py.query_apply, Py.modify_apply, search]
  cases edge with
  | edgeKey pair => rfl
  | versionEdge version =>
      cases index : registry.digestIndex with
      | none =>
          simp only [Registry.indexEdge, Registry.setEdges, Registry.withEdge, index, Py.bind_apply,
            Py.query_apply]
          rfl
      | some digests =>
          have hashes : version.Hashable := hashable (by simp [index])
          obtain ⟨digest, hashed⟩ :=
            (@VersionEdge.exists_digest _ _ _ version config.hasher).mpr hashes
          simp only [Registry.indexEdge, Registry.setEdges, Registry.withEdge, index, Py.bind_apply,
            Py.query_apply, Py.modify_apply, hashed, Option.isSome_some, if_true]
          rfl

/-- Inserting an edge that cannot be indexed raises. -/
theorem insertEdge_unhashed (indexed : registry.digestIndex.isSome) (unhashed : ¬ edge.Hashable)
    : ∃ error final, Registry.insertEdge config edge registry = .error error final := by
  have search := insertion_search sorted absent compares
  cases edge with
  | edgeKey pair => exact absurd trivial unhashed
  | versionEdge version =>
      cases hashed : version.digest config.hasher with
      | ok digest => exact absurd (VersionEdge.exists_digest.mp ⟨digest, hashed⟩) unhashed
      | error error =>
          simp only [Registry.insertEdge, Py.bind_apply, Py.query_apply, Py.modify_apply, search,
            Registry.indexEdge, Registry.setEdges, indexed, if_true, hashed]
          exact ⟨_, _, rfl⟩

/-- The edge stays in its list, whether or not the call returns. -/
theorem mem_after_insertEdge
    : edge ∈ (Py.after (Registry.insertEdge config edge) registry).edges edge.kind := by
  have search := insertion_search sorted absent compares
  have refresh := refreshHealth_keepsPaths config.linters (affectedByEdgeChange (.stored edge))
  have inserted : edge ∈ ((registry.setEdges edge.kind ((registry.edges edge.kind).insertIdx
      (edgeIndex (registry.edges edge.kind) edge.id) edge)).indexEdge edge).edges edge.kind := by
    change edge ∈ (registry.setEdges edge.kind _).edges edge.kind
    rw [edges_setEdges, if_pos rfl]
    exact (List.mem_insertIdx (Py.lowerBound_le _ _)).mpr (.inl rfl)
  unfold Registry.insertEdge
  rw [Py.after_query_bind, search]
  simp only [Py.after_modify_bind]
  refine (?_ : Py.Preserves (fun state : Registry V => edge ∈ state.edges edge.kind) _) _ inserted
  have kept : ∀ {α : Type} {program : RegistryM V α}, Py.Keeps Registry.edges program →
      Py.Preserves (fun state : Registry V => edge ∈ state.edges edge.kind) program :=
    fun keeps => keeps.preserves (fun before after same member => by rwa [same])
  cases edge with
  | edgeKey pair => exact kept (.bind refresh (fun _ => .pure _ _))
  | versionEdge version =>
      refine kept (.bind (.query _ _) (fun _ => .ite _ ?_ (.bind refresh (fun _ => .pure _ _))))
      refine .bind (.query _ _) (fun _ => .bind (.modify (fun _ => rfl)) (fun _ => ?_))
      exact .bind refresh (fun _ => .pure _ _)

/-- Inserting an edge returns exactly if it can be indexed and no linter raises. -/
theorem insertEdge_returns_iff
    : (∃ result final, Registry.insertEdge config edge registry = .ok result final)
      ↔ (registry.digestIndex.isSome → edge.Hashable)
        ∧ ∃ final, refreshHealth config.linters (affectedByEdgeChange (.stored edge))
          (registry.withEdge config.hasher edge) = .ok ⟨⟩ final := by
  by_cases hashable : registry.digestIndex.isSome → edge.Hashable
  · rw [insertEdge_eq config sorted absent compares hashable]
    constructor
    · intro returned
      rcases returned with ⟨result, final, run⟩
      obtain ⟨_, middle, refreshed, _⟩ := Py.bind_ok.mp run
      exact ⟨hashable, middle, refreshed⟩
    · intro clean
      rcases clean with ⟨_, final, refreshed⟩
      exact ⟨edge, final, (Py.bind_eq_of_ok refreshed).trans rfl⟩
  · obtain ⟨indexed, unhashed⟩ := Classical.not_imp.mp hashable
    obtain ⟨error, final, run⟩ := insertEdge_unhashed config sorted absent compares indexed unhashed
    rw [run]
    constructor
    · intro returned
      rcases returned with ⟨_, _, same⟩
      cases same
    · intro clean
      exact absurd clean.1 hashable

end Insertion

-----------------------------------------------------------------------------------------
-- The branches of filing
-----------------------------------------------------------------------------------------

namespace Registry

/-- The edge goes into its list: the search returns, and the only equal edge is a key-only one
that an executable edge replaces.
-/
def Inserts (registry : Registry V) (edge : EdgeEntry V) : Prop :=
  registry.Searchable edge.id ∧ ∀ other ∈ registry.edges edge.kind, other.id.cmp edge.id = .eq →
    edge.isExecutable = true ∧ other.isExecutable = false

/-- An equal edge is stored that the given one neither replaces nor conflicts with. -/
def Repeats (config : Config V F) (registry : Registry V) (edge : EdgeEntry V) : Prop :=
  registry.Searchable edge.id ∧ ∃ other ∈ registry.edges edge.kind, other.id.cmp edge.id = .eq
    ∧ ∀ incoming, edge = .versionEdge incoming → ∃ registered digest,
      other = .versionEdge registered ∧ registered.digest config.hasher = .ok digest
        ∧ incoming.digest config.hasher = .ok digest

/-- Filing the edge returns: it goes in without an error, or it is there already. -/
def Takes (config : Config V F) (registry : Registry V) (edge : EdgeEntry V) : Prop :=
  registry.Inserts edge ∧ registry.FilesCleanly config edge ∨ registry.Repeats config edge

omit [DecidableEq V] in
/-- The edge is not there before it goes in. -/
theorem Inserts.not_mem {registry : Registry V} {edge : EdgeEntry V}
    (inserts : registry.Inserts edge)
    : edge ∉ registry.edges edge.kind := by
  intro member
  obtain ⟨executable, keyOnly⟩ := inserts.2 edge member Std.ReflCmp.compare_self
  rw [executable] at keyOnly
  cases keyOnly

theorem Inserts.not_repeats {config : Config V F} {registry : Registry V} {edge : EdgeEntry V}
    (inserts : registry.Inserts edge)
    : ¬ registry.Repeats config edge := by
  intro repeated
  rcases repeated with ⟨_, other, member, equal, content⟩
  obtain ⟨executable, keyOnly⟩ := inserts.2 other member equal
  cases edge with
  | edgeKey pair => cases executable
  | versionEdge incoming =>
      obtain ⟨registered, digest, rfl, _⟩ := content incoming rfl
      cases keyOnly

omit [DecidableEq V] [VersionValue V] in
/-- Reading the list of a kind that has edges inserts nothing. -/
theorem touchMigrations_of_mem {registry : Registry V} {kind : ModelKind} {edge : EdgeEntry V}
    (member : edge ∈ registry.edges kind)
    : touchMigrations kind registry = .ok ⟨⟩ registry := by
  have present : registry.migrations.setDefault kind [] = registry.migrations :=
    Py.Dict.setDefault_of_getD_ne (List.ne_nil_of_mem member)
  simp only [touchMigrations, Py.modify_apply, present]

/-- The state after the edge list of a kind has been read. -/
def touched (registry : Registry V) (kind : ModelKind) : Registry V :=
  { registry with migrations := registry.migrations.setDefault kind [] }

omit [DecidableEq V] [VersionValue V] in
@[simp]
theorem edges_touched (registry : Registry V) (kind : ModelKind)
    : (registry.touched kind).edges = registry.edges :=
  funext (fun _ => Py.Dict.getD_setDefault _ _ _ _)

omit [DecidableEq V] [VersionValue V] in
@[simp]
theorem setEdges_touched (registry : Registry V) (kind : ModelKind) (paths : List (EdgeEntry V))
    : (registry.touched kind).setEdges kind paths = registry.setEdges kind paths := by
  simp [touched, setEdges]

end Registry

section Filing

variable (config : Config V F) {registry : Registry V} (stores : EdgeStores registry)
  {edge : EdgeEntry V}

include stores

/-- A search that cannot compare raises before anything is written. -/
theorem fileEdge_unsearchable (unsearchable : ¬ registry.Searchable edge.id)
    : ∃ error, Registry.fileEdge config edge registry = .error error registry := by
  obtain ⟨other, member, _⟩ : ∃ other ∈ registry.edges edge.id.kind,
      ¬ other.id.Compares edge.id := by
    simpa [Registry.Searchable] using unsearchable
  have touch : Registry.touchMigrations edge.kind registry = .ok ⟨⟩ registry :=
    Registry.touchMigrations_of_mem member
  unfold Registry.fileEdge
  rw [Py.bind_eq_of_ok touch, Py.query_bind_eq]
  cases search : findEdgeIn (registry.edges edge.kind) edge.id with
  | ok found => exact absurd (stores.exists_findEdgeIn.mp ⟨found, search⟩) unsearchable
  | error error => exact ⟨error, rfl⟩

omit [DecidableEq V] in
/-- A search among comparable edges finds the equal edge, if there is one. -/
theorem findEdgeIn_searchable (searchable : registry.Searchable edge.id)
    : findEdgeIn (registry.edges edge.kind) edge.id
      = .ok ((registry.edges edge.kind).find? (fun other => other.id.cmp edge.id == .eq)) := by
  obtain ⟨found, search⟩ := stores.exists_findEdgeIn.mpr searchable
  exact search.trans (congrArg _ (findEdgeIn_of_ok (stores.sorted edge.kind) search))

/-- An edge that finds an equal one it does not replace is answered with that one, or conflicts
with it; either way nothing is written.
-/
theorem fileEdge_answered {other : EdgeEntry V} (searchable : registry.Searchable edge.id)
    (member : other ∈ registry.edges edge.kind) (equal : other.id.cmp edge.id = .eq)
    (kept : edge.isExecutable = true → other.isExecutable = true)
    : registry.Repeats config edge
          ∧ Registry.fileEdge config edge registry = .ok other registry
      ∨ ¬ registry.Repeats config edge
          ∧ ∃ error, Registry.fileEdge config edge registry = .error error registry := by
  have sorted := stores.sorted edge.kind
  have search := findEdgeIn_searchable stores searchable
  rw [sorted.find?_eq_some.mpr ⟨member, equal⟩] at search
  have only : ∀ stored ∈ registry.edges edge.kind, stored.id.cmp edge.id = .eq →
      stored = other := fun stored inStore alike =>
    sorted.eq_of_cmp_eq inStore member
      (Std.TransCmp.eq_trans alike (Std.OrientedCmp.eq_symm equal))
  unfold Registry.fileEdge
  rw [Py.bind_eq_of_ok (Registry.touchMigrations_of_mem member), Py.query_bind_eq, search]
  cases edge with
  | edgeKey pair =>
      refine .inl ⟨⟨searchable, other, member, equal, ?_⟩, rfl⟩
      intro incoming same
      cases same
  | versionEdge incoming =>
      cases other with
      | edgeKey pair => cases kept rfl
      | versionEdge registered =>
          have repeats : registry.Repeats config (.versionEdge incoming) ↔ ∃ digest,
              registered.digest config.hasher = .ok digest
                ∧ incoming.digest config.hasher = .ok digest := by
            constructor
            · intro given
              rcases given with ⟨_, stored, inStore, alike, content⟩
              obtain ⟨version, digest, same, hashed, incomingHashed⟩ := content incoming rfl
              obtain rfl := EdgeEntry.versionEdge.inj (same.symm.trans (only _ inStore alike))
              exact ⟨digest, hashed, incomingHashed⟩
            · intro given
              rcases given with ⟨digest, hashed, incomingHashed⟩
              refine ⟨searchable, _, member, equal, ?_⟩
              intro version same
              obtain rfl := EdgeEntry.versionEdge.inj same
              exact ⟨registered, digest, rfl, hashed, incomingHashed⟩
          rw [repeats]
          simp only [Py.query_bind_eq]
          cases hashed : registered.digest config.hasher with
          | error error => exact .inr ⟨by simp, error, rfl⟩
          | ok digest =>
              cases incomingHashed : incoming.digest config.hasher with
              | error error => exact .inr ⟨by simp, error, rfl⟩
              | ok other =>
                  by_cases same : digest = other
                  · subst same
                    simp only [ne_eq, not_true_eq_false, if_false]
                    exact .inl ⟨⟨digest, rfl, rfl⟩, rfl⟩
                  · simp only [ne_eq, same, not_false_eq_true, if_true]
                    refine .inr ⟨?_, _, rfl⟩
                    intro given
                    rcases given with ⟨_, left, right⟩
                    exact same ((Except.ok.inj left).trans (Except.ok.inj right).symm)

/-- An edge that goes in is inserted into a list without equal edges, whose edges can be compared
with it.
-/
theorem fileEdge_inserts (inserts : registry.Inserts edge)
    : ∃ base : Registry V, Registry.fileEdge config edge registry
          = Registry.insertEdge config edge base
        ∧ SortedEdges (base.edges edge.kind)
        ∧ (∀ other ∈ base.edges edge.kind, other.id.cmp edge.id ≠ .eq)
        ∧ (∀ other ∈ base.edges edge.kind, other.id.Compares edge.id)
        ∧ base.digestIndex = registry.digestIndex
        ∧ base.withEdge config.hasher edge
          = (registry.withoutEqual edge).withEdge config.hasher edge := by
  have sorted := stores.sorted edge.kind
  have search := findEdgeIn_searchable stores inserts.1
  have run : Registry.fileEdge config edge registry = _ := Py.query_bind_eq _ _
    (registry.touched edge.kind)
  rw [Registry.edges_touched, search] at run
  cases found : (registry.edges edge.kind).find? (fun other => other.id.cmp edge.id == .eq) with
  | none =>
      rw [found] at run
      refine ⟨registry.touched edge.kind, run, ?_, ?_, ?_, rfl, ?_⟩
      · rw [Registry.edges_touched]
        exact sorted
      · rw [Registry.edges_touched]
        intro other member equal
        exact List.find?_eq_none.mp found other member (by simp [equal])
      · rw [Registry.edges_touched]
        exact inserts.1
      · unfold Registry.withEdge Registry.withoutEqual
        simp only [found, Registry.edges_touched, Registry.setEdges_touched]
  | some existing =>
      obtain ⟨member, equal⟩ := sorted.find?_eq_some.mp found
      obtain ⟨executable, keyOnly⟩ := inserts.2 existing member equal
      have erased := eraseIdx_edgeIndex sorted found
      have paths : (registry.withoutEqual edge).edges edge.kind
          = (registry.edges edge.kind).filter (fun other => !(other.id.cmp edge.id == .eq)) := by
        unfold Registry.withoutEqual
        rw [found, ← erased]
        exact (edges_setEdges registry edge.kind edge.kind _).trans (if_pos rfl)
      refine ⟨registry.withoutEqual edge, ?_, ?_, ?_, ?_, ?_, rfl⟩
      · rw [run, found]
        cases edge with
        | edgeKey pair => cases executable
        | versionEdge version =>
            cases existing with
            | versionEdge registered => cases keyOnly
            | edgeKey pair =>
                have place : bisectEdges (registry.edges (EdgeEntry.versionEdge version).kind)
                    (EdgeEntry.versionEdge version).id = .ok (edgeIndex _ _) :=
                  sorted.bisectLeft_eq _
                    (fun other member => EdgeId.lt_of_compares (inserts.1 other member))
                simp only [Py.query_bind_eq, Registry.edges_touched, place]
                simp only [Py.bind_apply, Py.modify_apply, Registry.edges_touched,
                  Registry.setEdges_touched, Registry.withoutEqual, found]
      · rw [paths]
        exact sorted.filter _
      · rw [paths]
        intro other inPaths
        simpa using (List.mem_filter.mp inPaths).2
      · rw [paths]
        intro other inPaths
        exact inserts.1 other (List.mem_of_mem_filter inPaths)
      · unfold Registry.withoutEqual
        rw [found]
        rfl

/-- An edge that goes in returns or stays behind, depending on what follows the insertion. -/
theorem fileEdge_of_inserts (inserts : registry.Inserts edge)
    : registry.FilesCleanly config edge
          ∧ (∃ result final, Registry.fileEdge config edge registry = .ok result final)
      ∨ ¬ registry.FilesCleanly config edge
          ∧ ∃ error final, Registry.fileEdge config edge registry = .error error final
            ∧ edge ∈ final.edges edge.kind := by
  obtain ⟨base, run, sorted, absent, compares, digests, filed⟩ :=
    fileEdge_inserts config stores inserts
  have returns := insertEdge_returns_iff config sorted absent compares
  rw [filed, digests] at returns
  have stays := mem_after_insertEdge config sorted absent compares
  rw [run]
  cases outcome : Registry.insertEdge config edge base with
  | ok result final => exact .inl ⟨returns.mp ⟨result, final, outcome⟩, result, final, rfl⟩
  | error error final =>
      rw [Py.after_of_error outcome] at stays
      refine .inr ⟨?_, error, final, rfl, stays⟩
      intro clean
      obtain ⟨result, reached, returned⟩ := returns.mpr clean
      rw [outcome] at returned
      cases returned

/-- An edge that does not go in leaves the registry as it is: an equal one answers for it, or the
call raises.
-/
theorem fileEdge_of_not_inserts (stays : ¬ registry.Inserts edge)
    : registry.Repeats config edge
          ∧ (∃ other ∈ registry.edges edge.kind,
            (edge.isExecutable = true → other.isExecutable = true)
              ∧ Registry.fileEdge config edge registry = .ok other registry)
      ∨ ¬ registry.Repeats config edge
          ∧ ∃ error, Registry.fileEdge config edge registry = .error error registry := by
  by_cases searchable : registry.Searchable edge.id
  · obtain ⟨other, member, equal, kept⟩ : ∃ other ∈ registry.edges edge.kind,
        other.id.cmp edge.id = .eq ∧ (edge.isExecutable = true → other.isExecutable = true) := by
      simpa [Registry.Inserts, searchable] using stays
    rcases fileEdge_answered config stores searchable member equal kept with
      ⟨repeated, run⟩ | refused
    · exact .inl ⟨repeated, other, member, kept, run⟩
    · exact .inr refused
  · refine .inr ⟨?_, fileEdge_unsearchable config stores searchable⟩
    intro repeats
    exact searchable repeats.1

/-- Filing an edge returns exactly if the registry takes it. -/
theorem fileEdge_returns_iff
    : (∃ result final, Registry.fileEdge config edge registry = .ok result final)
      ↔ registry.Takes config edge := by
  by_cases inserts : registry.Inserts edge
  · rcases fileEdge_of_inserts config stores inserts with ⟨clean, returned⟩ | ⟨unclean, raised⟩
    · simp only [returned, Registry.Takes, inserts, clean, and_self, true_or]
    · obtain ⟨error, final, run, _⟩ := raised
      simp [run, Registry.Takes, unclean, inserts.not_repeats]
  · rcases fileEdge_of_not_inserts config stores inserts with ⟨repeated, returned⟩ | ⟨new, raised⟩
    · obtain ⟨other, _, _, run⟩ := returned
      simp [run, Registry.Takes, repeated]
    · obtain ⟨error, run⟩ := raised
      simp [run, Registry.Takes, inserts, new]

/-- A refused edge leaves the registry unchanged exactly if it was not refused while going in. -/
theorem fileEdge_leavesUnchanged_iff
    : LeavesUnchanged (Registry.fileEdge config edge) registry
      ↔ (registry.Inserts edge → registry.FilesCleanly config edge) := by
  by_cases inserts : registry.Inserts edge
  · rcases fileEdge_of_inserts config stores inserts with ⟨clean, returned⟩ | ⟨unclean, raised⟩
    · obtain ⟨result, final, run⟩ := returned
      simp [LeavesUnchanged, run, clean]
    · obtain ⟨error, final, run, member⟩ := raised
      simp only [inserts, unclean, forall_const, iff_false]
      intro leaves
      rw [(leaves error final run).edges] at member
      exact inserts.not_mem member
  · simp only [inserts, false_implies, iff_true]
    intro error final run
    rcases fileEdge_of_not_inserts config stores inserts with ⟨_, _, _, _, same⟩ | ⟨_, _, same⟩
    · rw [same] at run
      cases run
    · rw [same] at run
      obtain ⟨rfl, rfl⟩ := EStateM.Result.error.inj run
      exact .refl _

end Filing

-----------------------------------------------------------------------------------------
-- Requests with resolved endpoints
-----------------------------------------------------------------------------------------

namespace Registry

/-- The two identities stand next to each other among the entries of the first one's kind. -/
def Adjacent (registry : Registry V) (source target : NodeId V) : Prop :=
  ∃ left right, bisectNodes (registry.kindEntries source.kind) source = .ok left
    ∧ bisectNodes (registry.kindEntries source.kind) target = .ok right
    ∧ (left = right + 1 ∨ right = left + 1)

/-- The request leads to this edge between the endpoints that it was resolved to. -/
structure Accepts (reflection : ReflectionPort V F) (registry : Registry V)
    (spec : MigrationSpec V F) (edge : VersionEdge V) : Prop where
  adjacent : registry.Adjacent edge.source.id edge.target.id
  identified : (resolveMigrationIdentity spec.func : Except (Error V) _) = .ok edge.migration
  compared : reflection.diff edge.source (.versioned (.versionNode edge.target)) none
    = .ok edge.diff
  discriminator : edge.discriminator = spec.discriminator
  ref : edge.ref = ⟨edge.migration.strategy, edge.migration.identity⟩

omit [DecidableEq V] in
/-- The endpoints and the request determine the edge. -/
theorem Accepts.unique {reflection : ReflectionPort V F} {registry : Registry V}
    {spec : MigrationSpec V F} {edge other : VersionEdge V}
    (accepts : registry.Accepts reflection spec edge)
    (again : registry.Accepts reflection spec other) (sources : edge.source = other.source)
    (targets : edge.target = other.target)
    : edge = other := by
  have migrations := Except.ok.inj (accepts.identified.symm.trans again.identified)
  have diffs := accepts.compared
  rw [sources, targets, again.compared] at diffs
  have refs := accepts.ref
  rw [migrations, ← again.ref] at refs
  have discriminators := accepts.discriminator.trans again.discriminator.symm
  have sameDiffs := Except.ok.inj diffs
  cases edge
  cases other
  simp only at *
  subst sources targets migrations discriminators refs sameDiffs
  rfl

/-- A new node stands in for an endpoint that the request does not find. -/
structure Materializes (config : Config V F) (reflection : ReflectionPort V F)
    (registry : Registry V) (func : MigrationFunc F) (anchor : VersionNode V)
    (missing : Comparable V) (node : VersionNode V) : Prop where
  allowed : config.onMissing = .reconstructModel
  reflected : ∃ diff, reflection.diff anchor missing (some func) = .ok diff
    ∧ reflection.reflect diff = .ok node
  fresh : registry.findEntry node.id = .ok none

/-- With the node stored, the request is accepted and its edge is taken. -/
def Completes (config : Config V F) (reflection : ReflectionPort V F) (registry : Registry V)
    (spec : MigrationSpec V F) (node : NodeEntry V) (source target : VersionNode V) : Prop :=
  ∃ stored edge, refreshHealth config.linters
      (affectedByNodeChange (registry.insertNode node) node) (registry.insertNode node)
        = .ok ⟨⟩ stored
    ∧ edge.source = source ∧ edge.target = target ∧ stored.Accepts reflection spec edge
    ∧ stored.Takes config (.versionEdge edge)

omit [DecidableEq V] [VersionValue V] in
/-- Reading the entries of a kind that has some inserts nothing. -/
theorem touchKind_of_mem {registry : Registry V} {kind : ModelKind} {entry : NodeEntry V}
    (member : entry ∈ registry.kindEntries kind)
    : touchKind kind registry = .ok ⟨⟩ registry := by
  have present : registry.byKinds.setDefault kind [] = registry.byKinds :=
    Py.Dict.setDefault_of_getD_ne (List.ne_nil_of_mem member)
  simp only [touchKind, Py.modify_apply, present]

omit [DecidableEq V] in
/-- In a kind that has a bucket a pair is answered, or cannot be compared, without a write. -/
theorem isAdjacent_of_touched {registry : Registry V} {key : EdgeId V}
    (touch : touchKind key.kind registry = .ok ⟨⟩ registry)
    : (∃ answer, isAdjacent key registry = .ok answer registry
          ∧ (answer = true ↔ registry.Adjacent key.source key.target))
      ∨ ∃ error, isAdjacent key registry = .error error registry
          ∧ ¬ registry.Adjacent key.source key.target := by
  have kind : key.source.kind = key.kind := rfl
  unfold isAdjacent Adjacent
  rw [Py.bind_eq_of_ok touch, kind, Py.query_bind_eq]
  cases source : bisectNodes (registry.kindEntries key.kind) key.source with
  | error error => exact .inr ⟨error, rfl, by simp⟩
  | ok left =>
      simp only [Py.query_bind_eq]
      cases target : bisectNodes (registry.kindEntries key.kind) key.target with
      | error error => exact .inr ⟨error, rfl, by simp⟩
      | ok right => exact .inl ⟨_, rfl, by simp⟩

end Registry

section Requests

variable {config : Config V F} {reflection : ReflectionPort V F} {spec : MigrationSpec V F}
  {registry stored : Registry V} {source target : VersionNode V}

/-- Once both endpoints are known, a request is accepted or refused without a write. -/
theorem reflectEdge_resolved (port : config.reflection = some reflection)
    (kinds : spec.source.kind = spec.target.kind)
    (resolved : Registry.resolveEndpoints config reflection spec registry
      = .ok (source, target) stored)
    (present : NodeEntry.versionNode source ∈ stored.kindEntries source.id.kind)
    : (∃ edge, edge.source = source ∧ edge.target = target
          ∧ stored.Accepts reflection spec edge
          ∧ Registry.reflectEdge config spec registry = .ok edge stored)
      ∨ (∀ edge, edge.source = source → edge.target = target →
            ¬ stored.Accepts reflection spec edge)
          ∧ ∃ error, Registry.reflectEdge config spec registry = .error error stored := by
  unfold Registry.reflectEdge
  simp only [Py.query_bind_eq, port, kinds, ne_eq, not_true_eq_false, if_false,
    Py.bind_eq_of_ok resolved]
  cases built : EdgePair.fromPair (.versioned (.versionNode source))
      (.versioned (.versionNode target)) defaultDiscriminator with
  | error error =>
      refine .inr ⟨?_, error, rfl⟩
      rintro edge rfl rfl _
      obtain ⟨pair, same⟩ := (@EdgePair.exists_fromPair _ (.versioned (.versionNode edge.source))
        (.versioned (.versionNode edge.target)) defaultDiscriminator).mpr
          ⟨userEdge.named, edge.sameNamespace, edge.sameKind⟩
      rw [built] at same
      cases same
  | ok pair =>
      obtain ⟨_, sameNamespace, sameKind⟩ := EdgePair.exists_fromPair.mp ⟨pair, built⟩
      obtain ⟨sources, targets, _⟩ := EdgePair.eq_of_fromPair built
      have sourceId : pair.id.source = source.id := congrArg Comparable.id sources
      have targetId : pair.id.target = target.id := congrArg Comparable.id targets
      have member : NodeEntry.versionNode source ∈ stored.kindEntries pair.id.kind := by
        rwa [EdgeId.kind, sourceId]
      have compared := Registry.isAdjacent_of_touched (Registry.touchKind_of_mem member)
      rw [sourceId, targetId] at compared
      rcases compared with ⟨answer, run, adjacent⟩ | ⟨error, run, apart⟩
      · simp only [Py.bind_eq_of_ok run]
        cases answer with
        | false =>
            refine .inr ⟨?_, _, rfl⟩
            rintro edge rfl rfl accepts
            cases adjacent.mpr accepts.adjacent
        | true =>
            simp only [Bool.not_true, Bool.false_eq_true, if_false, Py.query_bind_eq]
            cases identified
                : (resolveMigrationIdentity spec.func : Except (Error V) MigrationDescriptor) with
            | error error =>
                refine .inr ⟨?_, error, rfl⟩
                rintro edge rfl rfl accepts
                cases identified.symm.trans accepts.identified
            | ok migration =>
                cases different : reflection.diff source (.versioned (.versionNode target)) none with
                | error error =>
                    refine .inr ⟨?_, error, rfl⟩
                    rintro edge rfl rfl accepts
                    cases different.symm.trans accepts.compared
                | ok diff =>
                    by_cases named : spec.discriminator = ""
                    · simp only [named, not_true_eq_false, dite_false]
                      refine .inr ⟨?_, _, rfl⟩
                      rintro edge rfl rfl accepts
                      exact edge.named (accepts.discriminator.trans named)
                    · have same : source.id.nameSpace = target.id.nameSpace
                          ∧ source.id.kind = target.id.kind := ⟨sameNamespace, sameKind⟩
                      simp only [named, same, not_false_eq_true, and_self, dite_true]
                      exact .inl ⟨_, rfl, rfl, ⟨adjacent.mp rfl, identified, different, rfl, rfl⟩, rfl⟩
      · simp only [Py.bind_eq_of_error run]
        refine .inr ⟨?_, error, rfl⟩
        rintro edge rfl rfl accepts
        exact apart accepts.adjacent

omit [DecidableEq V] in
theorem insertNode_grows (registry : Registry V) (node : NodeEntry V)
    : (registry.insertNode node).byVersions ≠ registry.byVersions := by
  intro equal
  have length := congrArg List.length equal
  simp only [Registry.insertNode] at length
  rw [nodeIndex, List.length_insertIdx_of_le_length (Py.lowerBound_le _ _)] at length
  omega

theorem reflectEdge_unresolved {final : Registry V} {error : Error V}
    (port : config.reflection = some reflection) (kinds : spec.source.kind = spec.target.kind)
    (resolve : Registry.resolveEndpoints config reflection spec registry = .error error final)
    : Registry.reflectEdge config spec registry = .error error final := by
  unfold Registry.reflectEdge
  simp only [Py.query_bind_eq, port, kinds, ne_eq, not_true_eq_false, if_false,
    Py.bind_eq_of_error resolve]

/-- The nodes are those that resolving the endpoints leads to, however the request ends. -/
theorem storeMigration_keepsResolved (port : config.reflection = some reflection)
    (kinds : spec.source.kind = spec.target.kind)
    : (Py.after (Registry.storeMigration config (.spec spec)) registry).nodeView
      = (Py.after (Registry.resolveEndpoints config reflection spec) registry).nodeView := by
  have keeps : ∀ {α : Type} {program : RegistryM V α}, Py.Keeps Registry.nodeView program →
      Py.Preserves (fun state : Registry V => state.nodeView
        = (Py.after (Registry.resolveEndpoints config reflection spec) registry).nodeView)
        program :=
    fun kept => Py.keeps_iff_preserves.mp kept _
  refine @Py.Preserves.after_bind _ _ _ _ (fun state : Registry V => state.nodeView
    = (Py.after (Registry.resolveEndpoints config reflection spec) registry).nodeView) _ _ _ ?_
    (fun edge => keeps (fileEdge_keepsNodes config _))
  unfold Registry.reflectEdge
  rw [Py.after_query_bind]
  simp only [port, kinds, ne_eq, not_true_eq_false, if_false]
  refine @Py.Preserves.after_bind _ _ _ _ (fun state : Registry V => state.nodeView
    = (Py.after (Registry.resolveEndpoints config reflection spec) registry).nodeView) _ _ _ rfl
    (fun endpoints => keeps ?_)
  refine .bind (.query _ _) (fun pair => .bind (isAdjacent_keepsNodes _) (fun adjacent => ?_))
  refine .ite _ (.throw_bind _ _ _) (.bind (.query _ _) (fun _ => .bind (.query _ _) (fun _ => ?_)))
  split
  · split
    · exact .pure _ _
    · exact .throw _ _
  · exact .throw _ _

/-- A request that has stored an endpoint leaves the registry unchanged exactly if it goes
through: every later error comes too late.
-/
theorem storeMigration_reconstructed (port : config.reflection = some reflection)
    (kinds : spec.source.kind = spec.target.kind) (nodeStores : NodeStores registry)
    (edgeStores : EdgeStores registry) {node : NodeEntry V}
    (same : SameStrategy registry.byVersions node.id) (absent : Absent registry.byVersions node.id)
    (resolve : Registry.resolveEndpoints config reflection spec registry
      = (do
          refreshHealth config.linters (affectedByNodeChange (registry.insertNode node) node)
          return (source, target) : RegistryM V _) (registry.insertNode node))
    (member : NodeEntry.versionNode source ∈ (registry.insertNode node).byVersions)
    : LeavesUnchanged (Registry.storeMigration config (.spec spec)) registry
      ↔ registry.Completes config reflection spec node source target := by
  -- An error in a state that holds the node is seen in the entries.
  have late : ∀ {error final}, final.nodeView = (registry.insertNode node).nodeView →
      Registry.storeMigration config (.spec spec) registry = .error error final →
      ¬ LeavesUnchanged (Registry.storeMigration config (.spec spec)) registry := by
    intro error final nodes run leaves
    have kept := (leaves error final run).entries
    exact insertNode_grows registry node ((congrArg NodeView.byVersions nodes).symm.trans kept)
  have raises : ∀ {error final}, Registry.reflectEdge config spec registry = .error error final →
      Registry.storeMigration config (.spec spec) registry = .error error final :=
    fun run => Py.bind_eq_of_error run
  cases refreshed : refreshHealth config.linters
      (affectedByNodeChange (registry.insertNode node) node) (registry.insertNode node) with
  | error error final =>
      rw [Py.bind_eq_of_error refreshed] at resolve
      have nodes : final.nodeView = (registry.insertNode node).nodeView := by
        rw [← Py.after_of_error refreshed]
        exact refreshHealth_keepsNodes _ _ _
      have run := raises (reflectEdge_unresolved port kinds resolve)
      simp [Registry.Completes, refreshed, late nodes run]
  | ok _ stored =>
      rw [Py.bind_eq_of_ok refreshed] at resolve
      have nodes : stored.nodeView = (registry.insertNode node).nodeView := by
        rw [← Py.after_of_ok refreshed]
        exact refreshHealth_keepsNodes _ _ _
      have edges : stored.edges = registry.edges := by
        rw [← Py.after_of_ok refreshed]
        exact refreshHealth_keepsPaths _ _ _
      have storedStores := (nodeStores.insertNode same absent).of_nodeView nodes
      have present : NodeEntry.versionNode source ∈ stored.kindEntries source.id.kind := by
        have versions : stored.byVersions = (registry.insertNode node).byVersions :=
          congrArg NodeView.byVersions nodes
        rw [storedStores.grouped, List.mem_filter, versions]
        exact ⟨member, by simp [NodeEntry.kind, NodeEntry.id]⟩
      rcases reflectEdge_resolved port kinds resolve present with
        ⟨edge, sources, targets, accepts, run⟩ | ⟨refused, error, run⟩
      · have filing : Registry.storeMigration config (.spec spec) registry
            = Registry.fileEdge config (.versionEdge edge) stored := Py.bind_eq_of_ok run
        have returns := @fileEdge_returns_iff _ _ _ _ config _ (edgeStores.of_edges edges)
          (.versionEdge edge)
        cases outcome : Registry.fileEdge config (.versionEdge edge) stored with
        | ok result final =>
            have takes := returns.mp ⟨result, final, outcome⟩
            refine iff_of_true ?_ ⟨stored, edge, refreshed, sources, targets, accepts, takes⟩
            intro error reached raised
            cases (filing.trans outcome).symm.trans raised
        | error error final =>
            have kept : final.nodeView = (registry.insertNode node).nodeView := by
              rw [← nodes, ← Py.after_of_error outcome]
              exact fileEdge_keepsNodes config _ stored
            simp only [late kept (filing.trans outcome), false_iff]
            intro completes
            rcases completes with ⟨other, again, refreshedAgain, sources', targets', accepts', takes⟩
            obtain ⟨_, rfl⟩ := EStateM.Result.ok.inj (refreshed.symm.trans refreshedAgain)
            obtain rfl := accepts.unique accepts' (sources.trans sources'.symm)
              (targets.trans targets'.symm)
            obtain ⟨result, reached, returned⟩ := returns.mpr takes
            cases outcome.symm.trans returned
      · simp only [late nodes (raises run), false_iff]
        intro completes
        rcases completes with ⟨other, edge, again, sources, targets, accepts, _⟩
        obtain ⟨_, rfl⟩ := EStateM.Result.ok.inj (refreshed.symm.trans again)
        exact refused edge sources targets accepts

/-- A missing endpoint is made up and stored, or refused without a write. -/
theorem reconstructEndpoint_cases (config : Config V F) (reflection : ReflectionPort V F)
    (stores : NodeStores registry) (anchor : VersionNode V) (missing : Comparable V)
    (func : MigrationFunc F)
    : (∃ node, Registry.Materializes config reflection registry func anchor missing node
          ∧ SameStrategy registry.byVersions node.id ∧ Absent registry.byVersions node.id
          ∧ Registry.reconstructEndpoint config reflection anchor missing func registry
            = (do
                refreshHealth config.linters
                  (affectedByNodeChange (registry.insertNode (.versionNode node))
                    (.versionNode node))
                return node : RegistryM V _) (registry.insertNode (.versionNode node)))
      ∨ (∀ node, ¬ Registry.Materializes config reflection registry func anchor missing node)
          ∧ ∃ error, Registry.reconstructEndpoint config reflection anchor missing func registry
            = .error error registry := by
  unfold Registry.reconstructEndpoint
  by_cases policy : config.onMissing = .reconstructModel
  · simp only [ne_eq, policy, not_true_eq_false, if_false, Py.query_bind_eq]
    cases different : reflection.diff anchor missing (some func) with
    | error error =>
        refine .inr ⟨?_, error, rfl⟩
        intro node made
        obtain ⟨diff, compared, _⟩ := made.reflected
        cases different.symm.trans compared
    | ok diff =>
        cases reflected : reflection.reflect diff with
        | error error =>
            refine .inr ⟨?_, error, by simp only [reflected]⟩
            intro node made
            obtain ⟨other, compared, materialized⟩ := made.reflected
            obtain rfl := Except.ok.inj (different.symm.trans compared)
            cases reflected.symm.trans materialized
        | ok node =>
            simp only [reflected]
            rcases store_cases config (.versionNode node) stores with
              ⟨fresh, same, absent⟩ | ⟨taken, error, run⟩
            · refine .inl ⟨node, ⟨policy, ⟨diff, different, reflected⟩, fresh⟩, same, absent, ?_⟩
              rw [Py.bind_apply, store_eq config stores same absent, Py.bind_apply, Py.bind_apply]
              cases refreshHealth config.linters
                (affectedByNodeChange (registry.insertNode (.versionNode node))
                  (.versionNode node)) (registry.insertNode (.versionNode node)) <;> rfl
            · refine .inr ⟨?_, error, Py.bind_eq_of_error run⟩
              intro other made
              obtain ⟨again, compared, materialized⟩ := made.reflected
              obtain rfl := Except.ok.inj (different.symm.trans compared)
              obtain rfl := Except.ok.inj (reflected.symm.trans materialized)
              exact taken made.fresh
  · simp only [ne_eq, policy, not_false_eq_true, if_true]
    refine .inr ⟨?_, _, rfl⟩
    intro node made
    exact policy made.allowed

/-- A request that fails does so before it has stored an endpoint or inserted its edge. -/
structure Registry.SpecFailsEarly (config : Config V F) (reflection : ReflectionPort V F)
    (registry : Registry V) (spec : MigrationSpec V F) : Prop where
  resolved : ∀ edge, registry.findModel spec.source.id = .ok (some edge.source) →
    registry.findModel spec.target.id = .ok (some edge.target) →
    registry.Accepts reflection spec edge →
    registry.Inserts (.versionEdge edge) → registry.FilesCleanly config (.versionEdge edge)
  sourceMissing : ∀ source target, registry.findModel spec.source.id = .ok none →
    registry.findModel spec.target.id = .ok (some target) →
    registry.Materializes config reflection spec.func target spec.source source →
    registry.Completes config reflection spec (.versionNode source) source target
  targetMissing : ∀ source target, registry.findModel spec.source.id = .ok (some source) →
    registry.findModel spec.target.id = .ok none →
    registry.Materializes config reflection spec.func source spec.target target →
    registry.Completes config reflection spec (.versionNode target) source target

omit [DecidableEq V] [VersionValue V] in
/-- An error in the state that the call started from leaves it unchanged. -/
theorem leavesUnchanged_of_error {α : Type} {program : RegistryM V α}
    (refused : ∃ error, program registry = .error error registry)
    : LeavesUnchanged program registry := by
  intro raised final again
  obtain ⟨error, run⟩ := refused
  obtain ⟨_, rfl⟩ := EStateM.Result.error.inj (run.symm.trans again)
  exact .refl _

omit [DecidableEq V] in
theorem mem_of_findModel (stores : NodeStores registry) {key : NodeId V} {node : VersionNode V}
    (found : registry.findModel key = .ok (some node))
    : NodeEntry.versionNode node ∈ registry.byVersions := by
  unfold Registry.findModel at found
  cases search : registry.findEntry key with
  | error error => simp [search, Except.map] at found
  | ok entry =>
      simp only [search, Except.map, Except.ok.injEq, Option.bind_eq_some_iff] at found
      obtain ⟨stored, rfl, isNode⟩ := found
      have member := (stores.findEntry_eq_some.mp search).1
      cases stored with
      | versionKey id => cases isNode
      | versionNode other =>
          obtain rfl := Option.some.inj isNode
          exact member

omit [DecidableEq V] in
theorem Registry.Materializes.unique {func : MigrationFunc F} {anchor : VersionNode V}
    {missing : Comparable V} {node other : VersionNode V}
    (made : registry.Materializes config reflection func anchor missing node)
    (again : registry.Materializes config reflection func anchor missing other)
    : node = other := by
  obtain ⟨diff, compared, reflected⟩ := made.reflected
  obtain ⟨same, comparedAgain, reflectedAgain⟩ := again.reflected
  obtain rfl := Except.ok.inj (compared.symm.trans comparedAgain)
  exact Except.ok.inj (reflected.symm.trans reflectedAgain)

section Resolving

variable (port : config.reflection = some reflection) (kinds : spec.source.kind = spec.target.kind)
  (nodeStores : NodeStores registry) (edgeStores : EdgeStores registry)

include port kinds nodeStores edgeStores

/-- With one endpoint to make up, a request leaves the registry unchanged exactly if no node can
be made up or the request goes through with it.
-/
theorem storeMigration_missing {anchor : VersionNode V} {missing : Comparable V}
    {ends : VersionNode V → VersionNode V × VersionNode V}
    (resolve : Registry.resolveEndpoints config reflection spec registry
      = (do
          let node ← Registry.reconstructEndpoint config reflection anchor missing spec.func
          return ends node : RegistryM V _) registry)
    (known : ∀ node, (ends node).1 = node
      ∨ NodeEntry.versionNode (ends node).1 ∈ registry.byVersions)
    : LeavesUnchanged (Registry.storeMigration config (.spec spec)) registry
      ↔ ∀ node, registry.Materializes config reflection spec.func anchor missing node →
        registry.Completes config reflection spec (.versionNode node) (ends node).1
          (ends node).2 := by
  rcases reconstructEndpoint_cases config reflection nodeStores anchor missing spec.func with
    ⟨node, made, same, absent, run⟩ | ⟨unmade, error, run⟩
  · have inserted : NodeEntry.versionNode (ends node).1
        ∈ (registry.insertNode (.versionNode node)).byVersions := by
      refine mem_insertIdx_nodeIndex.mpr ((known node).imp ?_ id)
      intro itself
      rw [itself]
    have resolved : LeavesUnchanged (Registry.storeMigration config (.spec spec)) registry
        ↔ registry.Completes config reflection spec (.versionNode node) (ends node).1
          (ends node).2 := by
      refine storeMigration_reconstructed port kinds nodeStores edgeStores same absent ?_ inserted
      rw [resolve, Py.bind_apply, run, Py.bind_apply, Py.bind_apply]
      cases refreshHealth config.linters
        (affectedByNodeChange (registry.insertNode (.versionNode node)) (.versionNode node))
        (registry.insertNode (.versionNode node)) <;> rfl
    rw [resolved]
    constructor
    · intro completes other madeAgain
      rwa [← made.unique madeAgain]
    · intro completes
      exact completes node made
  · rw [Py.bind_eq_of_error run] at resolve
    refine iff_of_true (leavesUnchanged_of_error
      ⟨error, Py.bind_eq_of_error (reflectEdge_unresolved port kinds resolve)⟩) ?_
    intro node made
    exact absurd made (unmade node)

/-- With both endpoints known, all depends on filing the accepted edge. -/
theorem storeMigration_known {source target : VersionNode V}
    (resolve : Registry.resolveEndpoints config reflection spec registry
      = .ok (source, target) registry)
    (known : NodeEntry.versionNode source ∈ registry.byVersions)
    : LeavesUnchanged (Registry.storeMigration config (.spec spec)) registry
      ↔ ∀ edge, edge.source = source → edge.target = target →
        registry.Accepts reflection spec edge →
        registry.Inserts (.versionEdge edge) → registry.FilesCleanly config (.versionEdge edge) := by
  have present : NodeEntry.versionNode source ∈ registry.kindEntries source.id.kind := by
    rw [nodeStores.grouped, List.mem_filter]
    exact ⟨known, by simp [NodeEntry.kind, NodeEntry.id]⟩
  rcases reflectEdge_resolved port kinds resolve present with
    ⟨edge, sources, targets, accepts, run⟩ | ⟨refused, error, run⟩
  · have filing : Registry.storeMigration config (.spec spec) registry
        = Registry.fileEdge config (.versionEdge edge) registry := Py.bind_eq_of_ok run
    unfold LeavesUnchanged
    rw [filing]
    refine (fileEdge_leavesUnchanged_iff config edgeStores).trans ?_
    constructor
    · intro clean other sourcesAgain targetsAgain acceptsAgain
      rwa [← accepts.unique acceptsAgain (sources.trans sourcesAgain.symm)
        (targets.trans targetsAgain.symm)]
    · intro clean
      exact clean edge sources targets accepts
  · refine iff_of_true (leavesUnchanged_of_error ⟨error, Py.bind_eq_of_error run⟩) ?_
    intro edge sources targets accepts
    exact absurd accepts (refused edge sources targets)

/-- By cases on which endpoints the request finds. -/
theorem storeMigration_spec_iff
    : LeavesUnchanged (Registry.storeMigration config (.spec spec)) registry
      ↔ registry.SpecFailsEarly config reflection spec := by
  have raises : ∀ {error}, Registry.resolveEndpoints config reflection spec registry
      = .error error registry →
      LeavesUnchanged (Registry.storeMigration config (.spec spec)) registry :=
    fun run => leavesUnchanged_of_error
      ⟨_, Py.bind_eq_of_error (reflectEdge_unresolved port kinds run)⟩
  have resolve : Registry.resolveEndpoints config reflection spec registry = _ :=
    Py.query_bind_eq _ _ _
  simp only [Py.query_bind_eq] at resolve
  cases source : registry.findModel spec.source.id with
  | error error =>
      rw [source] at resolve
      refine iff_of_true (raises resolve) ⟨?_, ?_, ?_⟩ <;> simp [source]
  | ok foundSource =>
      cases target : registry.findModel spec.target.id with
      | error error =>
          rw [source, target] at resolve
          refine iff_of_true (raises resolve) ⟨?_, ?_, ?_⟩ <;> simp [target]
      | ok foundTarget =>
          rw [source, target] at resolve
          cases foundSource with
          | none =>
              cases foundTarget with
              | none =>
                  refine iff_of_true (raises resolve) ⟨?_, ?_, ?_⟩ <;> simp [source, target]
              | some found =>
                  refine (storeMigration_missing port kinds nodeStores edgeStores
                    resolve (fun _ => .inl rfl)).trans ?_
                  constructor
                  · intro completes
                    refine ⟨by simp [source], ?_, by simp [source]⟩
                    intro node other _ same made
                    obtain rfl := Option.some.inj (Except.ok.inj (target.symm.trans same))
                    exact completes node made
                  · intro early node made
                    exact early.sourceMissing node found source target made
          | some known =>
              have member := mem_of_findModel nodeStores source
              cases foundTarget with
              | none =>
                  refine (storeMigration_missing port kinds nodeStores edgeStores
                    resolve (fun _ => .inr member)).trans ?_
                  constructor
                  · intro completes
                    refine ⟨by simp [target], by simp [source], ?_⟩
                    intro other node same _ made
                    obtain rfl := Option.some.inj (Except.ok.inj (source.symm.trans same))
                    exact completes node made
                  · intro early node made
                    exact early.targetMissing known node source target made
              | some found =>
                  refine (storeMigration_known port kinds nodeStores edgeStores
                    resolve member).trans ?_
                  constructor
                  · intro clean
                    refine ⟨?_, by simp [source], by simp [target]⟩
                    intro edge sameSource sameTarget
                    exact clean edge
                      (Option.some.inj (Except.ok.inj (sameSource.symm.trans source)))
                      (Option.some.inj (Except.ok.inj (sameTarget.symm.trans target)))
                  · rintro early edge rfl rfl
                    exact early.resolved edge source target

end Resolving

end Requests

-----------------------------------------------------------------------------------------
-- Refused migrations
-----------------------------------------------------------------------------------------

namespace Registry

/-- Both endpoints of an executable edge are stored; a key-only edge needs none. -/
def Registered (registry : Registry V) (edge : EdgeEntry V) : Prop :=
  edge.isExecutable = true → containsNode registry.byVersions edge.id.source = .ok true
    ∧ containsNode registry.byVersions edge.id.target = .ok true

/-- If the migration is refused, this happens before anything is written. -/
def MigrationInput.FailsEarly (config : Config V F) (registry : Registry V)
    : MigrationInput V F → Prop
  | .spec request => ∀ reflection, config.reflection = some reflection →
      request.source.kind = request.target.kind →
      registry.SpecFailsEarly config reflection request
  | .edge entry => registry.Registered entry → registry.Inserts entry →
      registry.FilesCleanly config entry

end Registry

/-- A direct edge is filed once its endpoints have been found. -/
theorem storeMigration_edge_iff (config : Config V F) {registry : Registry V}
    (stores : EdgeStores registry) (edge : EdgeEntry V)
    : LeavesUnchanged (Registry.storeMigration config (.edge edge)) registry
      ↔ (registry.Registered edge → registry.Inserts edge →
        registry.FilesCleanly config edge) := by
  have filing := @fileEdge_leavesUnchanged_iff _ _ _ _ config _ stores edge
  cases edge with
  | edgeKey pair =>
      have registered : registry.Registered (.edgeKey pair) := fun executable => by cases executable
      simp only [registered, forall_const]
      exact filing
  | versionEdge version =>
      by_cases registered : registry.Registered (.versionEdge version)
      · obtain ⟨source, target⟩ := registered rfl
        have run : Registry.storeMigration config (.edge (.versionEdge version)) registry
            = Registry.fileEdge config (.versionEdge version) registry := by
          simp only [Registry.storeMigration, Py.query_bind_eq, source, target]
          rfl
        simp only [registered, forall_const]
        unfold LeavesUnchanged at filing ⊢
        rwa [run]
      · refine iff_of_true (leavesUnchanged_of_error ?_) (absurd · registered)
        simp only [Registry.storeMigration, Py.query_bind_eq]
        cases source
            : containsNode registry.byVersions (EdgeEntry.versionEdge version).id.source with
        | error error => exact ⟨error, rfl⟩
        | ok foundSource =>
            cases foundSource with
            | false => exact ⟨_, rfl⟩
            | true =>
                cases target
                    : containsNode registry.byVersions (EdgeEntry.versionEdge version).id.target with
                | error error => exact ⟨error, by simp [bind, Except.bind]⟩
                | ok foundTarget =>
                    cases foundTarget with
                    | false => exact ⟨_, by simp only [bind, Except.bind]; rfl⟩
                    | true => exact absurd (fun _ => ⟨source, target⟩) registered

/-- A migration that raises leaves the registry as it was exactly if it raises before anything is
written, by cases on the kind of input.
-/
theorem Reachable.storeMigration_leavesUnchanged_iff {config : Config V F} {registry : Registry V}
    (reached : Reachable config registry) (input : Registry.MigrationInput V F)
    : LeavesUnchanged (Registry.storeMigration config input) registry
      ↔ input.FailsEarly config registry := by
  have nodeStores := reached.nodeStores
  have edgeStores := reached.edgeStores
  cases input with
  | edge edge => exact storeMigration_edge_iff config edgeStores edge
  | spec spec =>
      cases port : config.reflection with
      | none =>
          obtain ⟨error, refused⟩ : ∃ error, Registry.reflectEdge config spec registry
              = .error error registry := by
            simp only [Registry.reflectEdge, Py.query_bind_eq, port]
            exact ⟨_, rfl⟩
          refine iff_of_true (leavesUnchanged_of_error ⟨error, Py.bind_eq_of_error refused⟩) ?_
          intro reflection given
          cases port.symm.trans given
      | some reflection =>
          by_cases kinds : spec.source.kind = spec.target.kind
          · refine (storeMigration_spec_iff port kinds nodeStores edgeStores).trans ?_
            constructor
            · intro early other given _
              obtain rfl := Option.some.inj (port.symm.trans given)
              exact early
            · intro early
              exact early reflection port kinds
          · obtain ⟨error, refused⟩ : ∃ error, Registry.reflectEdge config spec registry
                = .error error registry := by
              simp only [Registry.reflectEdge, Py.query_bind_eq, port, ne_eq, kinds,
                not_false_eq_true, if_true]
              exact ⟨_, rfl⟩
            refine iff_of_true (leavesUnchanged_of_error ⟨error, Py.bind_eq_of_error refused⟩) ?_
            intro other given same
            exact absurd same kinds

/-- Two releases of `User`. -/
def pairedCatalog (config : Config Release Unit) : Registry Release :=
  Registry.runAll config [.store (.versionNode (userNode 1 "UserV1")),
    .store (.versionNode (userNode 2 "UserV2"))] (Registry.new "default" false)

theorem pairedCatalog_reachable (config : Config Release Unit)
    : Reachable config (pairedCatalog config) :=
  .step _ (.step _ (.new config "default" false (userId 1).named))

/-- Witness: a request for a release that is not stored is refused, and nothing changes. -/
theorem storeMigration_leavesUnchanged_pairedCatalog
    : (∃ error, Registry.storeMigration reflectingConfig (.spec (userSpec 1 3))
        (pairedCatalog reflectingConfig) = .error error (pairedCatalog reflectingConfig))
      ∧ LeavesUnchanged (Registry.storeMigration reflectingConfig (.spec (userSpec 1 3)))
        (pairedCatalog reflectingConfig) := by
  refine ⟨⟨_, rfl⟩, ?_⟩
  apply ((pairedCatalog_reachable reflectingConfig).storeMigration_leavesUnchanged_iff _).mpr
  intro reflection _ _
  have unknown : (pairedCatalog reflectingConfig).findModel (userId 3) = .ok none := by
    decide +kernel
  refine ⟨?_, ?_, ?_⟩
  · intro edge _ found
    cases unknown.symm.trans found
  · intro source target _ found
    cases unknown.symm.trans found
  · intro source target _ _ made
    cases made.allowed

/-- The configuration under which missing endpoints are made up. -/
def reconstructingConfig : Config Release Unit :=
  { reflectingConfig with onMissing := .reconstructModel }

/-- Counterexample: the third release is made up and stored before the request is refused because
it skips the second one.
-/
theorem not_storeMigration_leavesUnchanged
    : ¬ ∀ (config : Config Release Unit) (registry : Registry Release)
        (input : Registry.MigrationInput Release Unit), Reachable config registry →
        LeavesUnchanged (Registry.storeMigration config input) registry := by
  intro claim
  have leaves := claim reconstructingConfig (pairedCatalog reconstructingConfig)
    (.spec (userSpec 1 3)) (pairedCatalog_reachable reconstructingConfig)
  have unchanged := leaves _ _ rfl
  exact absurd (congrArg List.length unchanged.entries) (by decide +kernel)

end Pyverge
