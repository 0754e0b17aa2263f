import Pyverge.Registry.RemoveRange

/-! Deleting a kind.
The three loops read the edges of a version from the sets of incident edges. Where these are
exact, the first loop meets every executable edge that the second one removes, and no version is
referenced any more when the third one comes to it.
-/

namespace Pyverge

variable {V F : Type} [DecidableEq V] [VersionValue V]

-----------------------------------------------------------------------------------------
-- The edges of a kind
-----------------------------------------------------------------------------------------

namespace Registry

/-- An end of the edge is a hydrated version of the kind. -/
def HoldsEnd (registry : Registry V) (kind : ModelKind) (edge : VersionEdge V) : Prop :=
  ∃ version ∈ registry.kindVersions kind, (EdgeEntry.versionEdge edge).Touches version.id

/-- Both ends of the edge are hydrated versions of the kind. -/
def HoldsBoth (registry : Registry V) (kind : ModelKind) (edge : VersionEdge V) : Prop :=
  (∃ version ∈ registry.kindVersions kind, version.id = edge.source.id)
    ∧ ∃ version ∈ registry.kindVersions kind, version.id = edge.target.id

/-- An executable edge joins a version of the kind to one that is not hydrated. -/
def Refuses (registry : Registry V) (kind : ModelKind) : Prop :=
  ∃ edge ∈ registry.migrationsFor kind, registry.HoldsEnd kind edge ∧ ¬ registry.HoldsBoth kind edge

end Registry

omit [DecidableEq V] [VersionValue V] in
theorem Registry.HoldsBoth.holdsEnd {registry : Registry V} {kind : ModelKind}
    {edge : VersionEdge V} (both : registry.HoldsBoth kind edge)
    : registry.HoldsEnd kind edge := by
  obtain ⟨⟨version, member, same⟩, _⟩ := both
  exact ⟨version, member, .inl same.symm⟩

section Indexed

variable {registry : Registry V} (indexed : EdgesIndexed registry) {kind : ModelKind}

include indexed

/-- The executable edges found at a version are the stored ones that touch it. -/
theorem EdgesIndexed.mem_migrationsOf {node : NodeId V} {edge : VersionEdge V}
    : edge ∈ registry.migrationsOf node
      ↔ edge ∈ registry.migrationsFor edge.id.kind ∧ (EdgeEntry.versionEdge edge).Touches node := by
  rw [← Pyverge.mem_migrationsOf, mem_migrationsFor]
  exact indexed.exact.incident node (.versionEdge edge)

/-- The executable edges found at the versions of a kind are of the kind. -/
theorem EdgesIndexed.mem_migrationsOf_kind (nodes : NodeStores registry) {version : VersionNode V}
    (member : version ∈ registry.kindVersions kind) {edge : VersionEdge V}
    : edge ∈ registry.migrationsOf version.id
      ↔ edge ∈ registry.migrationsFor kind
        ∧ (EdgeEntry.versionEdge edge).Touches version.id := by
  have own : version.id.kind = kind := (nodes.mem_kindVersions.mp member).2
  rw [indexed.mem_migrationsOf]
  constructor
  · intro given
    obtain ⟨stored, touches⟩ := given
    have same : edge.id.kind = kind := by
      rcases touches with source | target
      · exact (congrArg NodeId.kind source).trans own
      · exact (edge.id.sameKind.trans (congrArg NodeId.kind target)).trans own
    exact ⟨same ▸ stored, touches⟩
  · intro given
    obtain ⟨stored, touches⟩ := given
    have filed := indexed.stores.filed kind _ (mem_migrationsFor.mp stored)
    exact ⟨(show edge.id.kind = kind from filed).symm ▸ stored, touches⟩

end Indexed

-----------------------------------------------------------------------------------------
-- The first loop
-----------------------------------------------------------------------------------------

omit [VersionValue V] in
theorem any_id_iff {versions : List (VersionNode V)} {node : NodeId V}
    : versions.any (fun version => version.id = node) = true
      ↔ ∃ version ∈ versions, version.id = node := by
  simp

/-- A check refuses an edge that has an end outside the versions, without a write. -/
theorem checkOwnEdges_run (kind : ModelKind) (registry : Registry V) (edge : VersionEdge V)
    : (registry.HoldsBoth kind edge
        ∧ Registry.checkOwnEdges kind (registry.kindVersions kind) edge registry
          = .ok ⟨⟩ registry)
      ∨ (¬ registry.HoldsBoth kind edge
        ∧ ∃ error, Registry.checkOwnEdges kind (registry.kindVersions kind) edge registry
            = .error error registry ∧ error.isCatalogError = true) := by
  have test : ((registry.kindVersions kind).any (fun version => version.id = edge.source.id)
      && (registry.kindVersions kind).any (fun version => version.id = edge.target.id)) = true
      ↔ registry.HoldsBoth kind edge := by
    rw [Bool.and_eq_true, any_id_iff, any_id_iff]
    rfl
  unfold Registry.checkOwnEdges
  by_cases both : registry.HoldsBoth kind edge
  · refine .inl ⟨both, ?_⟩
    simp only [test.mpr both, Bool.not_true, Bool.false_eq_true, if_false]
    rfl
  · refine .inr ⟨both, ?_⟩
    rw [Bool.eq_false_of_not_eq_true (mt test.mp both)]
    exact ⟨_, rfl, rfl⟩

/-- A loop of checks stops at the first edge that is refused, by induction over the edges. -/
theorem checkEdges_run (kind : ModelKind) (registry : Registry V) (incident : List (VersionEdge V))
    : ((∀ edge ∈ incident, registry.HoldsBoth kind edge)
        ∧ incident.forM (Registry.checkOwnEdges kind (registry.kindVersions kind)) registry
          = .ok ⟨⟩ registry)
      ∨ ((∃ edge ∈ incident, ¬ registry.HoldsBoth kind edge)
        ∧ ∃ error, incident.forM (Registry.checkOwnEdges kind (registry.kindVersions kind)) registry
            = .error error registry ∧ error.isCatalogError = true) := by
  induction incident with
  | nil => exact .inl ⟨by simp, rfl⟩
  | cons edge rest ih =>
      rcases checkOwnEdges_run kind registry edge with ⟨both, run⟩ | ⟨half, error, run, caught⟩
      · rw [Py.forM_cons_ok run]
        rcases ih with ⟨all, later⟩ | ⟨⟨other, member, lone⟩, later⟩
        · exact .inl ⟨List.forall_mem_cons.mpr ⟨both, all⟩, later⟩
        · exact .inr ⟨⟨other, List.mem_cons_of_mem _ member, lone⟩, later⟩
      · exact .inr ⟨⟨edge, by simp, half⟩, error, Py.bind_eq_of_error run, caught⟩

section Visits

variable {registry : Registry V} {body : VersionEdge V → RegistryM V PUnit}
  {version : VersionNode V} {rest : List (VersionNode V)}

omit [VersionValue V] in
theorem forIncident_of_ok {middle : Registry V}
    (run : (registry.migrationsOf version.id).forM body registry = .ok ⟨⟩ middle)
    : forIncident (version :: rest) body registry = forIncident rest body middle := by
  have visit : (do
      let incident ← Py.query (fun registry => .ok (registry.migrationsOf version.id))
      incident.forM body : RegistryM V PUnit) registry = .ok ⟨⟩ middle := by
    rw [Py.query_bind_eq]
    exact run
  exact Py.bind_eq_of_ok visit

omit [VersionValue V] in
theorem forIncident_of_error {error : Error V} {final : Registry V}
    (run : (registry.migrationsOf version.id).forM body registry = .error error final)
    : forIncident (version :: rest) body registry = .error error final := by
  have visit : (do
      let incident ← Py.query (fun registry => .ok (registry.migrationsOf version.id))
      incident.forM body : RegistryM V PUnit) registry = .error error final := by
    rw [Py.query_bind_eq]
    exact run
  exact Py.bind_eq_of_error visit

end Visits

/-- The checks of all versions, by induction over the versions. -/
theorem checkVersions_run {registry : Registry V} (kind : ModelKind)
    (scanned : List (VersionNode V))
    : ((∀ version ∈ scanned, ∀ edge ∈ registry.migrationsOf version.id,
          registry.HoldsBoth kind edge)
        ∧ forIncident scanned (Registry.checkOwnEdges kind (registry.kindVersions kind)) registry
          = .ok ⟨⟩ registry)
      ∨ ((∃ version ∈ scanned, ∃ edge ∈ registry.migrationsOf version.id,
          ¬ registry.HoldsBoth kind edge)
        ∧ ∃ error, forIncident scanned (Registry.checkOwnEdges kind (registry.kindVersions kind))
            registry = .error error registry ∧ error.isCatalogError = true) := by
  induction scanned with
  | nil => exact .inl ⟨by simp, rfl⟩
  | cons version rest ih =>
      rcases checkEdges_run kind registry (registry.migrationsOf version.id) with
        ⟨both, run⟩ | ⟨⟨edge, member, half⟩, error, run, caught⟩
      · rw [forIncident_of_ok run]
        rcases ih with ⟨all, later⟩ | ⟨⟨other, member, lone⟩, later⟩
        · exact .inl ⟨List.forall_mem_cons.mpr ⟨both, all⟩, later⟩
        · exact .inr ⟨⟨other, List.mem_cons_of_mem _ member, lone⟩, later⟩
      · exact .inr ⟨⟨version, by simp, edge, member, half⟩, error, forIncident_of_error run,
          caught⟩

/-- The first loop refuses the kind or leads on, in both cases without a write. -/
theorem checkKind_run {registry : Registry V} (nodes : NodeStores registry)
    (indexed : EdgesIndexed registry) (kind : ModelKind)
    : (¬ registry.Refuses kind
        ∧ forIncident (registry.kindVersions kind)
            (Registry.checkOwnEdges kind (registry.kindVersions kind)) registry
          = .ok ⟨⟩ registry)
      ∨ (registry.Refuses kind
        ∧ ∃ error, forIncident (registry.kindVersions kind)
              (Registry.checkOwnEdges kind (registry.kindVersions kind)) registry
            = .error error registry ∧ error.isCatalogError = true) := by
  rcases checkVersions_run kind (registry.kindVersions kind) with
    ⟨both, run⟩ | ⟨⟨version, member, edge, found, half⟩, raised⟩
  · refine .inl ⟨?_, run⟩
    intro refuses
    obtain ⟨edge, stored, ⟨version, member, touches⟩, half⟩ := refuses
    exact half (both version member edge
      ((indexed.mem_migrationsOf_kind nodes member).mpr ⟨stored, touches⟩))
  · obtain ⟨stored, touches⟩ := (indexed.mem_migrationsOf_kind nodes member).mp found
    exact .inr ⟨⟨edge, stored, ⟨version, member, touches⟩, half⟩, raised⟩

-----------------------------------------------------------------------------------------
-- The second loop
-----------------------------------------------------------------------------------------

/-- Some executable edges are gone and the hooks of some are, and nothing else has changed. -/
structure Stripped (start : Registry V) (gone bare : VersionEdge V → Prop) (state : Registry V)
    : Prop where
  nodes : state.nodeView = start.nodeView
  indexed : EdgesIndexed state
  edges : ∀ kind edge, edge ∈ state.edges kind
    ↔ edge ∈ start.edges kind ∧ ∀ version, edge = .versionEdge version → ¬ gone version
  unhooked : ∀ version, bare version → state.hasHooks version.id = false
  hooks : ∀ key, (∀ version, bare version → version.id ≠ key) →
    state.hooks.get? key = start.hooks.get? key
  digests : state.digestIndex.isSome = start.digestIndex.isSome

theorem Stripped.refl {start : Registry V} (indexed : EdgesIndexed start)
    : Stripped start (fun _ => False) (fun _ => False) start where
  nodes := rfl
  indexed := indexed
  edges := by simp
  unhooked := by simp
  hooks := by simp
  digests := rfl

theorem Stripped.congr {start state : Registry V} {gone other : VersionEdge V → Prop}
    (stripped : Stripped start gone gone state) (same : ∀ edge, gone edge ↔ other edge)
    : Stripped start other other state := by
  obtain rfl : gone = other := funext (fun edge => propext (same edge))
  exact stripped

section Strip

variable {config : Config V F} (lints : LintsOrdered config.linters) {start : Registry V}
  (nodes : NodeStores start) (indexed : EdgesIndexed start) {kind : ModelKind}
  {gone bare : VersionEdge V → Prop} {state : Registry V} {edge : VersionEdge V}
  (stored : .versionEdge edge ∈ start.edges edge.id.kind)

include indexed stored

/-- Of the edges that are left, only the edge itself equals its identity. -/
theorem Stripped.eq_of_cmp (stripped : Stripped start gone bare state) {other : EdgeEntry V}
    (member : other ∈ state.edges edge.id.kind) (equal : other.id.cmp edge.id = .eq)
    : other = .versionEdge edge := by
  have inStart := ((stripped.edges _ _).mp member).1
  exact (indexed.stores.sorted _).eq_of_cmp_eq inStart stored equal

theorem Stripped.searchable (stripped : Stripped start gone bare state)
    : state.Searchable edge.id := by
  intro other member
  exact indexed.stores.comparable _ other ((stripped.edges _ _).mp member).1 _ stored

include lints nodes in
/-- Without hooks, an edge that can be hashed goes. -/
theorem Stripped.removeMigration (stripped : Stripped start gone bare state)
    (cleared : bare edge)
    (hashable : start.digestIndex.isSome → edge.Hashable)
    : ∃ next, Registry.removeMigration config (.stored (.edgeKey edge.pair)) state = .ok ⟨⟩ next
        ∧ Stripped start (fun other => gone other ∨ other = edge) bare next := by
  have returns : ∃ next, Registry.removeMigration config (.stored (.edgeKey edge.pair)) state
      = .ok ⟨⟩ next ∧ state.CutFrom edge.id next := by
    refine removeMigration_returns lints (nodes.of_nodeView stripped.nodes)
      stripped.indexed.stores (stripped.unhooked edge cleared)
      (stripped.searchable indexed stored) ?_
    intro digests other member equal
    obtain rfl := stripped.eq_of_cmp indexed stored member equal
    exact hashable (stripped.digests ▸ digests)
  have meets : KeyMeets state edge.id := by
    intro other member equal
    obtain rfl := stripped.eq_of_cmp indexed stored member equal
    refine ⟨rfl, fun digests version same => ?_⟩
    obtain rfl := EdgeEntry.versionEdge.inj same
    exact hashable (stripped.digests ▸ digests)
  obtain ⟨next, run, cut⟩ := returns
  have left : EdgesIndexed (Py.after
      (Registry.removeMigration config (.stored (.edgeKey edge.pair))) state) :=
    removeMigration_edgesIndexed config stripped.indexed (fun _ => meets)
  rw [Py.after_of_ok run] at left
  refine ⟨next, run, cut.nodes.trans stripped.nodes, left, ?_, ?_, ?_,
    cut.digests.trans stripped.digests⟩
  · intro other entry
    rw [cut.paths, EdgeIndexes.mem_cut]
    change entry ∈ state.edges other ∧ _ ↔ _
    rw [stripped.edges]
    constructor
    · intro given
      obtain ⟨⟨inStart, kept⟩, apart⟩ := given
      refine ⟨inStart, fun version same lost => ?_⟩
      rcases lost with old | rfl
      · exact kept version same old
      · subst same
        exact apart ⟨(indexed.stores.filed _ _ inStart).symm, Std.ReflCmp.compare_self⟩
    · intro given
      obtain ⟨inStart, kept⟩ := given
      refine ⟨⟨inStart, fun version same old => kept version same (.inl old)⟩, fun equal => ?_⟩
      obtain ⟨rfl, equal⟩ := equal
      exact kept edge ((indexed.stores.sorted _).eq_of_cmp_eq inStart stored equal) (.inr rfl)
  · intro version clear
    rw [Registry.hasHooks, cut.hooks]
    exact stripped.unhooked version clear
  · intro key other
    rw [cut.hooks]
    exact stripped.hooks key other

omit indexed stored in
/-- The hooks of the edge are cleared, if it has some, before it is removed. -/
theorem Stripped.clearHooks (config : Config V F) (stripped : Stripped start gone bare state)
    (both : start.HoldsBoth kind edge)
    : ∃ cleared, Stripped start gone (fun other => bare other ∨ other = edge) cleared
        ∧ Registry.removeOwnEdge config (start.kindVersions kind) edge state
          = Registry.removeMigration config (.stored (.edgeKey edge.pair)) cleared := by
  have test : ((start.kindVersions kind).any (fun version => version.id = edge.source.id)
      && (start.kindVersions kind).any (fun version => version.id = edge.target.id)) = true := by
    rw [Bool.and_eq_true, any_id_iff, any_id_iff]
    exact both
  have wider : ∀ {cleared : Registry V}, cleared.nodeView = state.nodeView →
      cleared.edgeIndexes = state.edgeIndexes → cleared.hasHooks edge.id = false →
      (∀ key, key ≠ edge.id → cleared.hooks.get? key = state.hooks.get? key) →
      Stripped start gone (fun other => bare other ∨ other = edge) cleared := by
    intro cleared nodes edges unhooked others
    obtain ⟨paths, _, digests⟩ := EdgeIndexes.mk.inj edges
    have same : cleared.edges = state.edges := paths
    refine ⟨nodes.trans stripped.nodes, stripped.indexed.of_indexes edges, ?_, ?_, ?_, ?_⟩
    · intro kind entry
      rw [same]
      exact stripped.edges kind entry
    · intro version clear
      rcases clear with old | rfl
      · by_cases own : version.id = edge.id
        · rw [own]
          exact unhooked
        · have kept := stripped.unhooked version old
          rw [Registry.hasHooks, Py.Dict.contains] at kept ⊢
          rwa [others version.id own]
      · exact unhooked
    · intro key apart
      rw [others key (fun own => apart edge (.inr rfl) own.symm)]
      exact stripped.hooks key (fun version old => apart version (.inl old))
    · rw [← stripped.digests]
      exact congrArg Option.isSome digests
  unfold Registry.removeOwnEdge
  simp only [test, if_true]
  rw [Py.query_bind_eq]
  cases hooked : state.hasHooks edge.id with
  | false => exact ⟨state, wider rfl rfl hooked (fun _ _ => rfl), rfl⟩
  | true =>
      have clear : Registry.clearHooks (some edge.id) state
          = .ok ⟨⟩ { state with hooks := state.hooks.erase edge.id } := by
        simp only [Registry.clearHooks]
        rw [Py.query_bind_eq]
        simp only [hooked]
        rfl
      refine ⟨{ state with hooks := state.hooks.erase edge.id }, wider rfl rfl ?_ ?_, ?_⟩
      · simp [Registry.hasHooks, Py.Dict.contains, Py.Dict.get?_erase_self]
      · intro key apart
        exact Py.Dict.get?_erase_ne _ apart
      · simp only [if_true]
        exact Py.bind_eq_of_ok clear

end Strip

/-- All edges that were reached are gone; or one of them could not be hashed, and is lost. -/
def Strips (start : Registry V) (gone reached : VersionEdge V → Prop)
    (result : EStateM.Result (Error V) (Registry V) PUnit) : Prop :=
  ((start.digestIndex.isSome → ∀ edge, reached edge → edge.Hashable)
      ∧ ∃ next, result = .ok ⟨⟩ next
        ∧ Stripped start (fun edge => gone edge ∨ reached edge)
            (fun edge => gone edge ∨ reached edge) next)
    ∨ ((start.digestIndex.isSome ∧ ∃ edge, reached edge ∧ ¬ edge.Hashable)
      ∧ ∃ error final, result = .error error final
        ∧ ∃ kind lost, lost ∈ start.edges kind ∧ lost ∉ final.edges kind)

section Loops

variable {config : Config V F} (lints : LintsOrdered config.linters) {start : Registry V}
  (nodes : NodeStores start) (indexed : EdgesIndexed start) {kind : ModelKind}
  {gone : VersionEdge V → Prop} {state : Registry V} (stripped : Stripped start gone gone state)
  (hashed : start.digestIndex.isSome → ∀ edge, gone edge → edge.Hashable)

include lints nodes indexed

include stripped hashed in
theorem removeOwnEdge_strips {edge : VersionEdge V}
    (stored : .versionEdge edge ∈ start.edges edge.id.kind) (both : start.HoldsBoth kind edge)
    : Strips start gone (fun other => other = edge)
        (Registry.removeOwnEdge config (start.kindVersions kind) edge state) := by
  obtain ⟨cleared, ready, run⟩ := stripped.clearHooks config both
  rw [run]
  by_cases hashable : start.digestIndex.isSome → edge.Hashable
  · obtain ⟨next, returned, done⟩ :=
      ready.removeMigration lints nodes indexed stored (.inr rfl) hashable
    refine .inl ⟨fun digests other same => ?_, next, returned, done⟩
    subst same
    exact hashable digests
  · simp only [Classical.not_imp] at hashable
    obtain ⟨digests, unhashed⟩ := hashable
    have present : EdgeEntry.versionEdge edge ∈ cleared.edges edge.id.kind := by
      refine (ready.edges _ _).mpr ⟨stored, fun version same lost => ?_⟩
      obtain rfl := EdgeEntry.versionEdge.inj same
      exact unhashed (hashed digests edge lost)
    have raises : ∃ error final,
        Registry.removeMigration config (.stored (.edgeKey edge.pair)) cleared
          = .error error final ∧ final.edges = (cleared.edgeIndexes.cut edge.id).paths :=
      removeMigration_unhashed ready.indexed.stores (ready.unhooked edge (.inr rfl))
        (ready.searchable indexed stored) present Std.ReflCmp.compare_self
        (ready.digests ▸ digests) unhashed
    obtain ⟨error, final, raised, paths⟩ := raises
    refine .inr ⟨⟨digests, edge, rfl, unhashed⟩, error, final, raised, edge.id.kind, _, stored, ?_⟩
    rw [paths, EdgeIndexes.mem_cut]
    intro kept
    exact kept.2 ⟨rfl, Std.ReflCmp.compare_self⟩

/-- A loop over edges of the kind, by induction over the edges. -/
theorem removeEdges_strips {incident : List (VersionEdge V)}
    (each : ∀ edge ∈ incident, .versionEdge edge ∈ start.edges edge.id.kind
      ∧ start.HoldsBoth kind edge)
    (stripped : Stripped start gone gone state)
    (hashed : start.digestIndex.isSome → ∀ edge, gone edge → edge.Hashable)
    : Strips start gone (fun edge => edge ∈ incident)
        (incident.forM (Registry.removeOwnEdge config (start.kindVersions kind)) state) := by
  induction incident generalizing gone state with
  | nil => exact .inl ⟨by simp, state, rfl, stripped.congr (by simp)⟩
  | cons edge rest ih =>
      obtain ⟨stored, both⟩ := each edge (by simp)
      rcases removeOwnEdge_strips lints nodes indexed stripped hashed stored both with
        ⟨first, middle, run, done⟩ | ⟨⟨digests, other, rfl, unhashed⟩, error, final, run, lost⟩
      · have later := ih (fun other member => each other (List.mem_cons_of_mem _ member)) done
          (fun digests other found => found.elim (hashed digests other) (first digests other))
        rw [Py.forM_cons_ok run]
        rcases later with ⟨others, next, runs, all⟩ | ⟨⟨digests, other, member, unhashed⟩, raised⟩
        · refine .inl ⟨fun digests other member => ?_, next, runs, all.congr (fun other => ?_)⟩
          · rcases List.mem_cons.mp member with rfl | inRest
            · exact first digests other rfl
            · exact others digests other inRest
          · simp only [List.mem_cons, or_assoc]
        · exact .inr ⟨⟨digests, other, List.mem_cons_of_mem _ member, unhashed⟩, raised⟩
      · exact .inr ⟨⟨digests, other, by simp, unhashed⟩, error, final, Py.bind_eq_of_error run,
          lost⟩

/-- The loop over the versions, by induction over the versions. -/
theorem removeVersionEdges_strips {scanned : List (VersionNode V)}
    (own : ∀ version ∈ scanned, version ∈ start.kindVersions kind)
    (both : ∀ edge ∈ start.migrationsFor kind, start.HoldsEnd kind edge →
      start.HoldsBoth kind edge)
    (stripped : Stripped start gone gone state)
    (hashed : start.digestIndex.isSome → ∀ edge, gone edge → edge.Hashable)
    : Strips start gone
        (fun edge => edge ∈ start.migrationsFor kind ∧ ∃ version ∈ scanned,
          (EdgeEntry.versionEdge edge).Touches version.id)
        (forIncident scanned (Registry.removeOwnEdge config (start.kindVersions kind)) state) := by
  induction scanned generalizing gone state with
  | nil => exact .inl ⟨by simp, state, rfl, stripped.congr (by simp)⟩
  | cons version rest ih =>
      have member := own version (by simp)
      have sameVersions : state.kindVersions kind = start.kindVersions kind := by
        have entries := congrArg NodeView.kindEntries stripped.nodes
        exact congrArg (List.filterMap NodeEntry.node?) (congrFun entries kind)
      -- The edges found now are those of the start that are not gone yet.
      have found : ∀ edge, edge ∈ state.migrationsOf version.id
          ↔ (edge ∈ start.migrationsFor kind ∧ ¬ gone edge)
            ∧ (EdgeEntry.versionEdge edge).Touches version.id := by
        intro edge
        rw [stripped.indexed.mem_migrationsOf_kind (nodes.of_nodeView stripped.nodes)
          (sameVersions ▸ member), mem_migrationsFor, stripped.edges, mem_migrationsFor]
        simp
      have each : ∀ edge ∈ state.migrationsOf version.id,
          EdgeEntry.versionEdge edge ∈ start.edges edge.id.kind ∧ start.HoldsBoth kind edge := by
        intro edge incident
        obtain ⟨⟨stored, _⟩, touches⟩ := (found edge).mp incident
        have filed := indexed.stores.filed kind _ (mem_migrationsFor.mp stored)
        exact ⟨(show edge.id.kind = kind from filed).symm ▸ mem_migrationsFor.mp stored,
          both edge stored ⟨version, member, touches⟩⟩
      rcases removeEdges_strips lints nodes indexed each stripped hashed with
        ⟨first, middle, run, done⟩ | ⟨⟨digests, other, inc, unhashed⟩, error, final, run, lost⟩
      · have later := ih (fun other inRest => own other (List.mem_cons_of_mem _ inRest)) done
          (fun digests other found => found.elim (hashed digests other) (first digests other))
        rw [forIncident_of_ok run]
        rcases later with
          ⟨others, next, runs, all⟩ | ⟨⟨digests, other, ⟨stored, ends⟩, unhashed⟩, raised⟩
        · refine .inl ⟨fun digests other given => ?_, next, runs, all.congr (fun other => ?_)⟩
          · obtain ⟨stored, node, inScan, touches⟩ := given
            rcases List.mem_cons.mp inScan with rfl | inRest
            · by_cases old : gone other
              · exact hashed digests other old
              · exact first digests other ((found other).mpr ⟨⟨stored, old⟩, touches⟩)
            · exact others digests other ⟨stored, node, inRest, touches⟩
          · simp only [found, List.mem_cons, exists_eq_or_imp]
            tauto
        · obtain ⟨node, inRest, touches⟩ := ends
          exact .inr ⟨⟨digests, other, ⟨stored, node, List.mem_cons_of_mem _ inRest, touches⟩,
            unhashed⟩, raised⟩
      · obtain ⟨⟨stored, _⟩, touches⟩ := (found other).mp inc
        exact .inr ⟨⟨digests, other, ⟨stored, version, by simp, touches⟩, unhashed⟩, error, final,
          forIncident_of_error run, lost⟩

end Loops

-----------------------------------------------------------------------------------------
-- The third loop
-----------------------------------------------------------------------------------------

section Removal

variable {config : Config V F} (lints : LintsOrdered config.linters)

include lints

/-- A stored version that no executable edge touches can be removed. -/
theorem removeModel_free {state : Registry V} (nodes : NodeStores state) (edges : EdgeStores state)
    {version : VersionNode V} (stored : .versionNode version ∈ state.byVersions)
    (free : state.migrationsOf version.id = [])
    : ∃ next, Registry.removeModel config version.id state = .ok ⟨⟩ next
        ∧ next.nodeView = (state.eraseNode (.versionNode version)).nodeView
        ∧ next.edgeView = state.edgeView := by
  have found : state.byVersions.find? (fun entry => entry.id.cmp version.id == .eq)
      = some (.versionNode version) :=
    nodes.sorted.find?_eq_some.mpr ⟨stored, Std.ReflCmp.compare_self⟩
  have whole : Registry.removeModel config version.id state = _ :=
    removeModel_eq config nodes (nodes.uniform _ stored) found free
  have erased := nodes.eraseNode (.versionNode version)
  obtain ⟨next, run, _⟩ := lints.refresh
    { state.eraseNode (.versionNode version) with
      health := state.health.dropEntity (.node (.versioned (.versionNode version))) }
    ⟨erased.sorted, erased.uniform, erased.grouped⟩ ⟨edges.sorted, edges.filed, edges.comparable⟩
    ((affectedByNodeChange state (.versionNode version)).filter
      (fun entity => entity.id ≠ .node version.id))
  have sameNodes := refreshHealth_keepsNodes config.linters
    ((affectedByNodeChange state (.versionNode version)).filter
      (fun entity => entity.id ≠ .node version.id))
    { state.eraseNode (.versionNode version) with
      health := state.health.dropEntity (.node (.versioned (.versionNode version))) }
  have sameEdges := removeModel_keepsEdges config version.id state
  rw [Py.after_of_ok run] at sameNodes
  rw [Py.after_of_ok (whole.trans run)] at sameEdges
  exact ⟨next, whole.trans run, sameNodes, sameEdges⟩

/-- The versions go one by one without an error that could be swallowed, by induction over them. -/
theorem removeVersions_run {versions : List (VersionNode V)} {state : Registry V}
    (nodes : NodeStores state) (edges : EdgeStores state)
    (stored : ∀ version ∈ versions, .versionNode version ∈ state.byVersions)
    (apart : versions.Pairwise (fun first later => later.id.cmp first.id ≠ .eq))
    (free : ∀ version ∈ versions, state.migrationsOf version.id = [])
    : ∃ final, removeVersions config versions state = .ok ⟨⟩ final
        ∧ versions.forM (fun version => Registry.removeModel config version.id) state
          = .ok ⟨⟩ final
        ∧ NodeStores final ∧ final.edgeView = state.edgeView
        ∧ final.byVersions = state.byVersions.filter (fun entry =>
          versions.all (fun version => !(entry.id.cmp version.id == .eq))) := by
  induction versions generalizing state with
  | nil => exact ⟨state, rfl, rfl, nodes, rfl, by simp⟩
  | cons version rest ih =>
      obtain ⟨others, later⟩ := List.pairwise_cons.mp apart
      obtain ⟨next, run, sameNodes, sameEdges⟩ := removeModel_free lints nodes edges
        (stored version (by simp)) (free version (by simp))
      have entries : next.byVersions = state.byVersions.filter
          (fun entry => !(entry.id.cmp version.id == .eq)) :=
        congrArg NodeView.byVersions sameNodes
      obtain ⟨migrations, incident, _, _⟩ := EdgeView.mk.inj sameEdges
      obtain ⟨final, handled, plain, finalNodes, finalEdges, left⟩ := ih
        ((nodes.eraseNode _).of_nodeView sameNodes)
        (edges.of_edges (by funext kind; rw [Registry.edges, migrations]; rfl))
        (fun other member => by
          rw [entries]
          have unequal : (NodeEntry.versionNode other).id.cmp version.id ≠ .eq :=
            others other member
          exact List.mem_filter.mpr ⟨stored other (List.mem_cons_of_mem _ member), by
            simp [unequal]⟩)
        later
        (fun other member => by
          rw [Registry.migrationsOf, Registry.edgesOf, incident]
          exact free other (List.mem_cons_of_mem _ member))
      have caught : (tryCatch (Registry.removeModel config version.id)
          (fun error => if error.isCatalogError then pure () else throw error)
            : RegistryM V PUnit) state = .ok ⟨⟩ next := by
        rw [Py.tryCatch_apply, run]
      refine ⟨final, (Py.bind_eq_of_ok caught).trans handled, (Py.bind_eq_of_ok run).trans plain,
        finalNodes, finalEdges.trans sameEdges, ?_⟩
      rw [left, entries, List.filter_filter]
      exact List.filter_congr (fun entry _ => by simp [Bool.and_comm])

end Removal

-----------------------------------------------------------------------------------------
-- The whole call
-----------------------------------------------------------------------------------------

namespace Registry

/-- `delete_kind` without the handler of its last loop. -/
def deleteKindUnhandled (config : Config V F) (kind : ModelKind) : RegistryM V PUnit := do
  let versions ← Py.query (fun registry => .ok (registry.kindVersions kind))
  if versions.isEmpty then return ()
  forIncident versions (checkOwnEdges kind versions)
  forIncident versions (removeOwnEdge config versions)
  versions.reverse.forM (fun version => removeModel config version.id)

/-- The hydrated versions, executable edges and hooks of a kind are gone, other kinds untouched. -/
structure KindDeleted (before after : Registry V) (kind : ModelKind) : Prop where
  versions : after.kindVersions kind = []
  edges : after.migrationsFor kind = []
  unhooked : ∀ edge ∈ before.migrationsFor kind, after.hasHooks edge.id = false
  otherEntries : after.entries.filter (fun entry => entry.kind ≠ kind)
    = before.entries.filter (fun entry => entry.kind ≠ kind)
  otherKinds : ∀ other, other ≠ kind → after.kindEntries other = before.kindEntries other
  otherEdges : ∀ other, other ≠ kind → after.edges other = before.edges other
  otherHooks : ∀ key : EdgeId V, key.kind ≠ kind → after.hooks.get? key = before.hooks.get? key

/-- The call is refused without a change or deletes the kind, and swallows no error. -/
def DeletesKind (config : Config V F) (registry : Registry V) (kind : ModelKind) : Prop :=
  ((∃ error final, deleteKind config kind registry = .error error final
      ∧ error.isCatalogError = true ∧ registry.Unchanged final)
    ∨ ∃ final, deleteKind config kind registry = .ok ⟨⟩ final
      ∧ registry.KindDeleted final kind)
  ∧ deleteKindUnhandled config kind registry = deleteKind config kind registry

end Registry

section Deletion

variable {config : Config V F} {registry : Registry V} {kind : ModelKind}

/-- Without versions the loops do nothing, so the early return makes no difference. -/
theorem deleteKind_loops (last : List (VersionNode V) → RegistryM V PUnit)
    (nothing : last [] = pure ⟨⟩)
    : (do
        let versions ← Py.query (fun registry => .ok (registry.kindVersions kind))
        if versions.isEmpty then return ()
        forIncident versions (Registry.checkOwnEdges kind versions)
        forIncident versions (Registry.removeOwnEdge config versions)
        last versions.reverse : RegistryM V PUnit) registry
      = (do
        forIncident (registry.kindVersions kind)
          (Registry.checkOwnEdges kind (registry.kindVersions kind))
        forIncident (registry.kindVersions kind)
          (Registry.removeOwnEdge config (registry.kindVersions kind))
        last (registry.kindVersions kind).reverse : RegistryM V PUnit) registry := by
  rw [Py.query_bind_eq]
  simp only
  cases versions : registry.kindVersions kind with
  | nil =>
      simp only [List.isEmpty_nil, if_true, List.reverse_nil, nothing]
      rfl
  | cons version rest => simp only [List.isEmpty_cons, Bool.false_eq_true, if_false]

variable (nodes : NodeStores registry) (indexed : EdgesIndexed registry)

include nodes indexed

/-- What the loops leave of the stores. -/
theorem kindDeleted_iff {state final : Registry V}
    (stripped : Stripped registry
      (fun edge => edge ∈ registry.migrationsFor kind ∧ registry.HoldsEnd kind edge)
      (fun edge => edge ∈ registry.migrationsFor kind ∧ registry.HoldsEnd kind edge) state)
    (finalNodes : NodeStores final) (sameEdges : final.edgeView = state.edgeView)
    (left : final.byVersions = registry.byVersions.filter (fun entry =>
      (registry.kindVersions kind).reverse.all (fun version =>
        !(entry.id.cmp version.id == .eq))))
    : registry.KindDeleted final kind
      ↔ ∀ edge ∈ registry.migrationsFor kind, registry.HoldsEnd kind edge := by
  obtain ⟨migrations, _, hooks, _⟩ := EdgeView.mk.inj sameEdges
  have paths : final.edges = state.edges := by
    funext other
    rw [Registry.edges, migrations]
    rfl
  have kept : ∀ other, other ≠ kind → final.kindEntries other = registry.kindEntries other := by
    intro other apart
    rw [finalNodes.grouped, nodes.grouped, left, List.filter_filter]
    refine List.filter_congr (fun entry _ => ?_)
    cases own : decide (entry.kind = other) with
    | false => rfl
    | true =>
        simp only [Bool.true_and, List.all_eq_true, List.mem_reverse]
        intro version member
        have unequal : entry.id.cmp version.id ≠ .eq := fun equal =>
          apart (((of_decide_eq_true own).symm.trans (NodeId.cmp_eq_iff.mp equal).2.1).trans
            (nodes.mem_kindVersions.mp member).2)
        simp [unequal]
  constructor
  · intro deleted edge stored
    by_contra outside
    have remains : edge ∈ final.migrationsFor kind := by
      rw [mem_migrationsFor, paths, stripped.edges]
      refine ⟨mem_migrationsFor.mp stored, fun version same gone => outside ?_⟩
      obtain rfl := EdgeEntry.versionEdge.inj same
      exact gone.2
    rw [deleted.edges] at remains
    cases remains
  · intro held
    refine ⟨?_, ?_, ?_, ?_, kept, ?_, ?_⟩
    · rw [List.eq_nil_iff_forall_not_mem]
      intro version member
      obtain ⟨inFinal, own⟩ := finalNodes.mem_kindVersions.mp member
      rw [left, List.mem_filter] at inFinal
      have inKind := nodes.mem_kindVersions.mpr ⟨inFinal.1, own⟩
      have unequal := List.all_eq_true.mp inFinal.2 version (List.mem_reverse.mpr inKind)
      simp [show (NodeEntry.versionNode version).id.cmp version.id = .eq from
        Std.ReflCmp.compare_self] at unequal
    · rw [List.eq_nil_iff_forall_not_mem]
      intro edge member
      rw [mem_migrationsFor, paths, stripped.edges] at member
      have stored := mem_migrationsFor.mpr member.1
      exact member.2 edge rfl ⟨stored, held edge stored⟩
    · intro edge stored
      rw [Registry.hasHooks, hooks]
      exact stripped.unhooked edge ⟨stored, held edge stored⟩
    · rw [Registry.entries, left, List.filter_filter]
      refine List.filter_congr (fun entry _ => ?_)
      cases other : decide (entry.kind ≠ kind) with
      | false => rfl
      | true =>
          simp only [Bool.true_and, List.all_eq_true, List.mem_reverse]
          intro version member
          have unequal : entry.id.cmp version.id ≠ .eq := fun equal =>
            of_decide_eq_true other ((NodeId.cmp_eq_iff.mp equal).2.1.trans
              (nodes.mem_kindVersions.mp member).2)
          simp [unequal]
    · intro other apart
      rw [paths]
      refine (stripped.indexed.stores.sorted other).eq_of_mem (indexed.stores.sorted other)
        (fun entry => ?_)
      rw [stripped.edges]
      refine and_iff_left_of_imp (fun stored version same gone => apart ?_)
      subst same
      have filed := indexed.stores.filed other _ stored
      exact filed.symm.trans (indexed.stores.filed kind _ (mem_migrationsFor.mp gone.1))
    · intro key apart
      rw [hooks]
      refine stripped.hooks key (fun version gone same => apart ?_)
      rw [← same]
      exact indexed.stores.filed kind _ (mem_migrationsFor.mp gone.1)

omit nodes indexed

/-- Once the edges are gone, the versions can all be removed. -/
theorem removeStripped_run (lints : LintsOrdered config.linters) (nodes : NodeStores registry)
    {state : Registry V}
    (stripped : Stripped registry
      (fun edge => edge ∈ registry.migrationsFor kind ∧ registry.HoldsEnd kind edge)
      (fun edge => edge ∈ registry.migrationsFor kind ∧ registry.HoldsEnd kind edge) state)
    : ∃ final, removeVersions config (registry.kindVersions kind).reverse state = .ok ⟨⟩ final
        ∧ (registry.kindVersions kind).reverse.forM
            (fun version => Registry.removeModel config version.id) state = .ok ⟨⟩ final
        ∧ NodeStores final ∧ final.edgeView = state.edgeView
        ∧ final.byVersions = registry.byVersions.filter (fun entry =>
          (registry.kindVersions kind).reverse.all (fun version =>
            !(entry.id.cmp version.id == .eq))) := by
  have entries : state.byVersions = registry.byVersions :=
    congrArg NodeView.byVersions stripped.nodes
  have stateNodes := nodes.of_nodeView stripped.nodes
  have hydrated : ∀ version ∈ registry.kindVersions kind,
      version ∈ state.kindVersions kind := by
    intro version member
    obtain ⟨stored, own⟩ := nodes.mem_kindVersions.mp member
    exact stateNodes.mem_kindVersions.mpr ⟨entries ▸ stored, own⟩
  rw [← entries]
  refine removeVersions_run lints stateNodes stripped.indexed.stores ?_ ?_ ?_
  · intro version member
    exact (stateNodes.mem_kindVersions.mp (hydrated version (List.mem_reverse.mp member))).1
  · rw [List.pairwise_reverse]
    refine (nodes.sorted_kindVersions kind).imp (fun {first later} lt equal => ?_)
    rw [equal] at lt
    cases lt
  · intro version member
    have inKind := List.mem_reverse.mp member
    rw [List.eq_nil_iff_forall_not_mem]
    intro edge incident
    obtain ⟨stored, touches⟩ := (stripped.indexed.mem_migrationsOf_kind stateNodes
      (hydrated version inKind)).mp incident
    obtain ⟨before, kept⟩ := (stripped.edges _ _).mp (mem_migrationsFor.mp stored)
    exact kept edge rfl ⟨mem_migrationsFor.mpr before, version, inKind, touches⟩

/-- After a run that hashes what it removes, deleting a kind does what it has to exactly if an
executable edge of the kind refuses it, or they all join two hydrated versions and can be hashed.
-/
theorem deletesKind_iff [VersionValue.HashAgrees V]
    (reached : ReachableBy (fun _ registry op => op.HashesRemoved registry)
      (fun _ _ => True) config registry)
    (lints : LintsOrdered config.linters)
    : Registry.DeletesKind config registry kind
      ↔ registry.Refuses kind
        ∨ ∀ edge ∈ registry.migrationsFor kind,
          registry.HoldsBoth kind edge ∧ (registry.digestIndex.isSome → edge.Hashable) := by
  have nodes := reached.reachable.nodeStores
  have indexed := (reached.mono (fun _ _ _ hashes => Op.keepsEdgeIndex hashes)).edgesIndexed
  have handled : Registry.deleteKind config kind registry = _ :=
    (congrFun (deleteKind_eq config kind) registry).trans
      (deleteKind_loops (removeVersions config) rfl)
  have unhandled : Registry.deleteKindUnhandled config kind registry = _ :=
    deleteKind_loops (fun versions =>
      versions.forM (fun version => Registry.removeModel config version.id)) rfl
  rcases checkKind_run nodes indexed kind with
    ⟨allowed, checked⟩ | ⟨refuses, error, refused, caught⟩
  · have both : ∀ edge ∈ registry.migrationsFor kind, registry.HoldsEnd kind edge →
        registry.HoldsBoth kind edge := by
      intro edge stored held
      by_contra half
      exact allowed ⟨edge, stored, held, half⟩
    rw [Py.bind_eq_of_ok checked] at handled unhandled
    rw [or_iff_right allowed]
    rcases removeVersionEdges_strips lints nodes indexed (fun _ member => member)
        both (.refl indexed) (fun _ _ never => never.elim) with
      ⟨hashable, state, stripping, done⟩ | ⟨⟨digests, edge, gone, unhashed⟩, error, final, raised,
        other, lost, stored, absent⟩
    · have stripped : Stripped registry
          (fun edge => edge ∈ registry.migrationsFor kind ∧ registry.HoldsEnd kind edge)
          (fun edge => edge ∈ registry.migrationsFor kind ∧ registry.HoldsEnd kind edge) state :=
        done.congr (fun edge => by simp [Registry.HoldsEnd])
      obtain ⟨final, emptied, plain, finalNodes, sameEdges, left⟩ :=
        removeStripped_run lints nodes stripped
      rw [Py.bind_eq_of_ok stripping] at handled unhandled
      have returned := handled.trans emptied
      have meets := kindDeleted_iff nodes indexed stripped finalNodes sameEdges left
      have swallows : Registry.deleteKindUnhandled config kind registry
          = Registry.deleteKind config kind registry :=
        (unhandled.trans plain).trans returned.symm
      constructor
      · intro deletes edge stored
        rcases deletes.1 with ⟨error, after, run, _⟩ | ⟨after, run, deleted⟩
        · cases returned.symm.trans run
        · cases returned.symm.trans run
          have held := meets.mp deleted edge stored
          exact ⟨both edge stored held, fun digests => hashable digests edge ⟨stored, held⟩⟩
      · intro all
        exact ⟨.inr ⟨final, returned, meets.mpr (fun edge stored =>
          (all edge stored).1.holdsEnd)⟩, swallows⟩
    · rw [Py.bind_eq_of_error raised] at handled
      refine iff_of_false ?_ (fun all => unhashed ((all edge gone.1).2 digests))
      intro deletes
      rcases deletes.1 with ⟨again, after, run, _, unchanged⟩ | ⟨after, run, _⟩
      · cases handled.symm.trans run
        exact absent (unchanged.edges ▸ stored)
      · cases handled.symm.trans run
  · rw [Py.bind_eq_of_error refused] at handled unhandled
    refine iff_of_true ⟨.inl ⟨error, registry, handled, caught, .refl registry⟩, ?_⟩ (.inl refuses)
    exact unhandled.trans handled.symm

end Deletion

/-- Witness: two releases and the executable edge between them go. -/
theorem deletesKind_upgradedEdges
    : Registry.DeletesKind plainConfig upgradedEdges "User" := by
  have reached : ReachableBy (fun _ registry op => op.HashesRemoved registry) (fun _ _ => True)
      plainConfig upgradedEdges :=
    .runAll (.new _ _ _ (by decide)) (by simp [Op.HashesRemoved])
  refine (deletesKind_iff reached (defaultHealthLinters_lintsOrdered (fun _ _ => rfl))).mpr
    (.inr ?_)
  have stored : upgradedEdges.migrationsFor "User" = [userMigration 1 2 "UserV1" "UserV2"] := by
    decide +kernel
  have versions : upgradedEdges.kindVersions "User"
      = [userNode 1 "UserV1", userNode 2 "UserV2"] := by
    decide +kernel
  intro edge member
  rw [stored, List.mem_singleton] at member
  subst member
  refine ⟨⟨⟨userNode 1 "UserV1", ?_, rfl⟩, ⟨userNode 2 "UserV2", ?_, rfl⟩⟩, fun _ => ?_⟩
  · simp [versions]
  · simp [versions]
  · exact ⟨by decide, by decide⟩

/-- An executable edge between two key-only releases. -/
def strayEdge : Registry Release :=
  Registry.runAll plainConfig
    [.store (.versionKey (userId 1)), .store (.versionKey (userId 2)),
      .storeMigration (.edge (.versionEdge (userMigration 1 2 "UserV1" "UserV2")))]
    (Registry.new "default" false)

/-- Counterexample: an executable edge without hydrated ends is not looked for. -/
theorem not_deletesKind
    : ¬ ∀ registry : Registry Release, Reachable plainConfig registry →
        Registry.DeletesKind plainConfig registry "User" := by
  intro deletes
  have returned : Py.outcome (Registry.deleteKind plainConfig "User") strayEdge = .ok ⟨⟩ := by
    decide +kernel
  have remains : (Py.after (Registry.deleteKind plainConfig "User") strayEdge).migrationsFor "User"
      = [userMigration 1 2 "UserV1" "UserV2"] := by
    decide +kernel
  rcases (deletes strayEdge (.runAll (.new _ _ _ (by decide)) _)).1 with
    ⟨error, final, run, _⟩ | ⟨final, run, gone⟩
  · rw [Py.outcome, run] at returned
    cases returned
  · rw [Py.after_of_ok run, gone.edges] at remains
    cases remains

end Pyverge
