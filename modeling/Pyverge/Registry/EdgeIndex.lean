import Pyverge.Registry.EdgeOrder
import Pyverge.Versioning.Digests

/-! The index from node identities to their edges.
Stored edges are found by comparison and their index sets by hash, two notions that agree. A removal
takes an edge out of its list before it hashes the content of the edge, and out of the index only
after that, so a digest that raises leaves the index with an edge that the list has lost.
-/

namespace Pyverge

variable {V F : Type}

-----------------------------------------------------------------------------------------
-- The sets of incident edges
-----------------------------------------------------------------------------------------

section Incident

variable [DecidableEq V] {index : Py.Dict (NodeId V) (List (EdgeEntry V))}

/-- Adding to a set that holds no other edge of the identity. -/
theorem mem_addIncident {edge other : EdgeEntry V} {endpoint node : NodeId V}
    (alone : ∀ held ∈ index.getD endpoint [], held.id = edge.id → held = edge)
    : other ∈ (Registry.addIncident edge index endpoint).getD node []
      ↔ other ∈ index.getD node [] ∨ node = endpoint ∧ other = edge := by
  simp only [Registry.addIncident, Py.Dict.getD_set]
  by_cases here : node = endpoint
  · subst here
    rw [if_pos rfl]
    split
    case isTrue held =>
      obtain ⟨same, member, equal⟩ := List.any_eq_true.mp held
      have eq := alone same member (by simpa using equal)
      constructor
      · exact .inl
      · rintro (old | ⟨_, rfl⟩)
        · exact old
        · exact eq ▸ member
    case isFalse => simp
  · simp [here]

theorem mem_discardIncident {edge : EdgeId V} {other : EdgeEntry V} {endpoint node : NodeId V}
    : other ∈ (Registry.discardIncident edge index endpoint).getD node []
      ↔ other ∈ index.getD node [] ∧ ¬ (node = endpoint ∧ other.id = edge) := by
  unfold Registry.discardIncident
  cases found : index.get? endpoint with
  | none =>
      by_cases here : node = endpoint
      · subst here
        simp [Py.Dict.getD, found]
      · simp [here]
  | some bucket =>
      have held : index.getD endpoint [] = bucket := by simp [Py.Dict.getD, found]
      simp only
      split
      case isTrue none =>
        rw [Py.Dict.getD_erase]
        by_cases here : node = endpoint
        · subst here
          simp only [if_true, held, List.not_mem_nil, true_and, false_iff, not_and, not_not]
          intro member
          simpa using List.filter_eq_nil_iff.mp (List.isEmpty_iff.mp none) other member
        · simp [here]
      case isFalse =>
        rw [Py.Dict.getD_set]
        by_cases here : node = endpoint
        · subst here
          simp [held]
        · simp [here]

/-- No node has an empty set. -/
def NoEmptySet (index : Py.Dict (NodeId V) (List (EdgeEntry V))) : Prop :=
  ∀ node, index.get? node ≠ some []

theorem NoEmptySet.addIncident (none : NoEmptySet index) (edge : EdgeEntry V)
    (endpoint : NodeId V)
    : NoEmptySet (Registry.addIncident edge index endpoint) := by
  intro node
  simp only [Registry.addIncident, Py.Dict.get?_set]
  split
  · split
    case isTrue held =>
      obtain ⟨same, member, _⟩ := List.any_eq_true.mp held
      intro empty
      rw [Option.some.inj empty] at member
      cases member
    case isFalse => simp
  · exact none node

theorem NoEmptySet.discardIncident (none : NoEmptySet index) (edge : EdgeId V)
    (endpoint : NodeId V)
    : NoEmptySet (Registry.discardIncident edge index endpoint) := by
  intro node
  unfold Registry.discardIncident
  cases index.get? endpoint with
  | none => exact none node
  | some bucket =>
      simp only
      split
      · rw [Py.Dict.get?_erase]
        split
        · simp
        · exact none node
      case isFalse remaining =>
        rw [Py.Dict.get?_set]
        split
        · intro empty
          rw [Option.some.inj empty] at remaining
          exact remaining rfl
        · exact none node

end Incident

/-- The edge touches the node. -/
def EdgeEntry.Touches (edge : EdgeEntry V) (node : NodeId V) : Prop :=
  edge.id.source = node ∨ edge.id.target = node

variable [DecidableEq V] [VersionValue V]

/-- The digest under which an executable edge is indexed, if its content can be hashed. -/
def EdgeEntry.indexDigest (edge : EdgeEntry V) (hasher : ContentHasher) : Option String :=
  match edge with
  | .edgeKey _ => none
  | .versionEdge version => (version.digest hasher).toOption

namespace EdgeIndexes

omit [VersionValue V] in
def edgesOf (indexes : EdgeIndexes V) (node : NodeId V) : List (EdgeEntry V) :=
  indexes.incident.getD node []

omit [DecidableEq V] [VersionValue V] in
def setPaths (indexes : EdgeIndexes V) (kind : ModelKind) (paths : List (EdgeEntry V))
    : EdgeIndexes V :=
  { indexes with paths := fun other => if other = kind then paths else indexes.paths other }

omit [VersionValue V] in
/-- Put an edge into the sets of its endpoints. -/
def index (indexes : EdgeIndexes V) (edge : EdgeEntry V) : EdgeIndexes V :=
  { indexes with
    incident := Registry.addIncident edge
      (Registry.addIncident edge indexes.incident edge.id.source) edge.id.target }

omit [VersionValue V] in
/-- Take an identity out of the sets of its endpoints. -/
def unindex (indexes : EdgeIndexes V) (edge : EdgeId V) : EdgeIndexes V :=
  { indexes with
    incident := Registry.discardIncident edge
      (Registry.discardIncident edge indexes.incident edge.source) edge.target }

/-- Update the digest index under the digest of an edge. -/
def redigest (hasher : ContentHasher) (indexes : EdgeIndexes V) (edge : EdgeEntry V)
    (update : String → Py.Dict String (EdgeId V) → Py.Dict String (EdgeId V)) : EdgeIndexes V :=
  { indexes with
    digests := (edge.indexDigest hasher).elim indexes.digests
      (fun digest => indexes.digests.map (update digest)) }

/-- Insert an edge into its list and the sets of its endpoints. -/
def list (indexes : EdgeIndexes V) (edge : EdgeEntry V) : EdgeIndexes V :=
  (indexes.setPaths edge.kind ((indexes.paths edge.kind).insertIdx
    (edgeIndex (indexes.paths edge.kind) edge.id) edge)).index edge

/-- Insert an edge into its list and both indexes. -/
def add (hasher : ContentHasher) (indexes : EdgeIndexes V) (edge : EdgeEntry V) : EdgeIndexes V :=
  (indexes.list edge).redigest hasher edge (fun digest index => index.set digest edge.id)

omit [DecidableEq V] in
/-- Take the edges that compare equal to the key out of their list. -/
def cut (indexes : EdgeIndexes V) (key : EdgeId V) : EdgeIndexes V :=
  indexes.setPaths key.kind
    ((indexes.paths key.kind).filter (fun edge => !(edge.id.cmp key == .eq)))

/-- Take a stored edge out of its list and its digest out of the index, and the key out of the
sets of the key's endpoints.
-/
def drop (hasher : ContentHasher) (indexes : EdgeIndexes V) (key : EdgeId V)
    (existing : EdgeEntry V) : EdgeIndexes V :=
  ((indexes.cut key).redigest hasher existing (fun digest index => index.erase digest)).unindex key

omit [VersionValue V] in
theorem mem_index {indexes : EdgeIndexes V} {edge other : EdgeEntry V} {node : NodeId V}
    (alone : ∀ v, ∀ held ∈ indexes.edgesOf v, held.id = edge.id → held = edge)
    : other ∈ (indexes.index edge).edgesOf node
      ↔ other ∈ indexes.edgesOf node ∨ other = edge ∧ edge.Touches node := by
  have first : ∀ v, ∀ held ∈ (Registry.addIncident edge indexes.incident
      edge.id.source).getD v [], held.id = edge.id → held = edge := by
    intro v held member same
    rcases (mem_addIncident (alone _)).mp member with old | ⟨_, rfl⟩
    · exact alone v held old same
    · rfl
  change other ∈ (Registry.addIncident edge _ _).getD node [] ↔ _
  rw [mem_addIncident (first _), mem_addIncident (alone _)]
  simp only [EdgeEntry.Touches, edgesOf, eq_comm (a := node)]
  tauto

omit [VersionValue V] in
theorem mem_unindex {indexes : EdgeIndexes V} {edge : EdgeId V} {other : EdgeEntry V}
    {node : NodeId V}
    : other ∈ (indexes.unindex edge).edgesOf node
      ↔ other ∈ indexes.edgesOf node
        ∧ ¬ ((edge.source = node ∨ edge.target = node) ∧ other.id = edge) := by
  change other ∈ (Registry.discardIncident edge _ _).getD node [] ↔ _
  rw [mem_discardIncident, mem_discardIncident]
  simp only [edgesOf, eq_comm (a := node)]
  tauto

theorem redigest_of_none {hasher : ContentHasher} {indexes : EdgeIndexes V} {edge : EdgeEntry V}
    {update : String → Py.Dict String (EdgeId V) → Py.Dict String (EdgeId V)}
    (unindexed : indexes.digests = none)
    : indexes.redigest hasher edge update = indexes := by
  have same : (edge.indexDigest hasher).elim indexes.digests
      (fun digest => indexes.digests.map (update digest)) = indexes.digests := by
    cases edge.indexDigest hasher <;> simp [unindexed]
  rw [redigest, same]

theorem redigest_isSome {hasher : ContentHasher} {indexes : EdgeIndexes V} {edge : EdgeEntry V}
    {update : String → Py.Dict String (EdgeId V) → Py.Dict String (EdgeId V)}
    : (indexes.redigest hasher edge update).digests.isSome = indexes.digests.isSome := by
  unfold redigest
  cases edge.indexDigest hasher <;> simp

theorem redigest_of_unhashed {hasher : ContentHasher} {indexes : EdgeIndexes V}
    {edge : EdgeEntry V}
    {update : String → Py.Dict String (EdgeId V) → Py.Dict String (EdgeId V)}
    (unhashed : edge.indexDigest hasher = none)
    : indexes.redigest hasher edge update = indexes := by
  rw [redigest, unhashed]
  rfl

end EdgeIndexes

-----------------------------------------------------------------------------------------
-- What the operations do to the indexes
-----------------------------------------------------------------------------------------

omit [DecidableEq V] [VersionValue V] in
@[simp]
theorem edgeIndexes_setEdges (registry : Registry V) (kind : ModelKind)
    (paths : List (EdgeEntry V))
    : (registry.setEdges kind paths).edgeIndexes = registry.edgeIndexes.setPaths kind paths := by
  have same : (registry.setEdges kind paths).edges = _ :=
    funext (fun other => edges_setEdges registry kind other paths)
  rw [Registry.edgeIndexes, same]
  rfl

omit [VersionValue V] in
@[simp]
theorem edgeIndexes_indexEdge (registry : Registry V) (edge : EdgeEntry V)
    : (registry.indexEdge edge).edgeIndexes = registry.edgeIndexes.index edge := rfl

omit [VersionValue V] in
@[simp]
theorem edgeIndexes_unindexEdge (registry : Registry V) (edge : EdgeId V)
    : (registry.unindexEdge edge).edgeIndexes = registry.edgeIndexes.unindex edge := rfl

/-- An update of the digest index: it is skipped if there is none, and a digest that raises
skips the rest as well.
-/
theorem after_withDigest {α : Type} (hasher : ContentHasher) (version : VersionEdge V)
    (update : String → Py.Dict String (EdgeId V) → Py.Dict String (EdgeId V))
    (next : RegistryM V α) (registry : Registry V) {final : Registry V}
    (run : Py.after (do
      let index ← Py.query (fun registry => .ok registry.digestIndex)
      if index.isSome then
        let digest ← Py.query (fun _ => version.digest hasher)
        modify (fun registry =>
          { registry with digestIndex := registry.digestIndex.map (update digest) })
        next
      else next : RegistryM V α) registry = final)
    : registry.digestIndex = none ∧ final = Py.after next registry
      ∨ registry.digestIndex.isSome ∧ (version.digest hasher).toOption = none ∧ final = registry
      ∨ ∃ digest, (version.digest hasher).toOption = some digest
        ∧ final = Py.after next
          { registry with digestIndex := registry.digestIndex.map (update digest) } := by
  rw [Py.after_query_bind] at run
  cases index : registry.digestIndex with
  | none =>
      simp only [index, Option.isSome_none, Bool.false_eq_true, if_false] at run
      exact .inl ⟨rfl, run.symm⟩
  | some digests =>
      simp only [index, Option.isSome_some, if_true, Py.after_query_bind] at run
      cases hashed : version.digest hasher with
      | error raised =>
          simp only [hashed] at run
          exact .inr (.inl ⟨rfl, rfl, run.symm⟩)
      | ok digest =>
          simp only [hashed, Py.after_modify_bind] at run
          exact .inr (.inr ⟨digest, rfl, by rw [← run, index]⟩)

/-- What inserting does to the indexes: nothing if the edges cannot be compared, else the edge is
added. Where its digest raises, it is added all the same.
-/
theorem insertEdge_indexes (config : Config V F) {registry : Registry V}
    (stores : EdgeStores registry) {edge : EdgeEntry V}
    (absent : ∀ other ∈ registry.edges edge.kind, other.id.cmp edge.id ≠ .eq)
    : (Py.after (Registry.insertEdge config edge) registry).edgeIndexes = registry.edgeIndexes
      ∨ (Py.after (Registry.insertEdge config edge) registry).edgeIndexes
        = registry.edgeIndexes.add config.hasher edge := by
  unfold Registry.insertEdge
  rw [Py.after_query_bind]
  cases search : Py.bisectRight (fun other : EdgeEntry V => edge.id.lt other.id)
      (registry.edges edge.kind) with
  | error raised => exact .inl rfl
  | ok index =>
      obtain rfl : index = edgeIndex (registry.edges edge.kind) edge.id :=
        (stores.sorted edge.kind).bisectRight_of_ok edge.id
          (fun _ _ _ asked => EdgeId.lt_agrees asked) absent search
      have finish : Py.Keeps Registry.edgeIndexes (do
          refreshHealth config.linters (affectedByEdgeChange (.stored edge))
          return edge : RegistryM V (EdgeEntry V)) :=
        .bind (refreshHealth_keepsIndexes _ _) (fun _ => .pure _ _)
      refine .inr ?_
      simp only [Py.after_modify_bind]
      generalize state : (registry.setEdges edge.kind ((registry.edges edge.kind).insertIdx
        (edgeIndex (registry.edges edge.kind) edge.id) edge)).indexEdge edge = listed
      have indexes : listed.edgeIndexes = registry.edgeIndexes.list edge := by
        rw [← state, edgeIndexes_indexEdge, edgeIndexes_setEdges]
        rfl
      rw [EdgeIndexes.add, ← indexes]
      cases edge with
      | edgeKey pair => exact finish _
      | versionEdge version =>
          rcases after_withDigest config.hasher version
              (fun digest index => index.set digest version.id) _ _ rfl with
            ⟨unindexed, same⟩ | ⟨_, unhashed, same⟩ | ⟨digest, hashed, same⟩
          · refine (congrArg Registry.edgeIndexes same).trans ((finish _).trans ?_)
            exact (EdgeIndexes.redigest_of_none unindexed).symm
          · refine (congrArg Registry.edgeIndexes same).trans ?_
            symm
            exact EdgeIndexes.redigest_of_unhashed unhashed
          · refine (congrArg Registry.edgeIndexes same).trans ((finish _).trans ?_)
            simp only [EdgeIndexes.redigest, EdgeEntry.indexDigest, hashed, Option.elim_some]
            rfl

/-- Taking an equal key-only edge out first, an executable edge is inserted. -/
theorem replaceEdge_indexes (config : Config V F) {edge existing : EdgeEntry V}
    {registry : Registry V} (stores : EdgeStores registry)
    (stored : existing ∈ registry.edges edge.kind) (equal : existing.id.cmp edge.id = .eq)
    {index : Nat} (place : bisectEdges (registry.edges edge.kind) edge.id = .ok index)
    : (Py.after (do
        modify (fun registry =>
          registry.setEdges edge.kind ((registry.edges edge.kind).eraseIdx index))
        modify (fun registry => registry.unindexEdge existing.id)
        Registry.insertEdge config edge : RegistryM V (EdgeEntry V)) registry).edgeIndexes
        = (registry.edgeIndexes.cut edge.id).unindex existing.id
      ∨ (Py.after (do
          modify (fun registry =>
            registry.setEdges edge.kind ((registry.edges edge.kind).eraseIdx index))
          modify (fun registry => registry.unindexEdge existing.id)
          Registry.insertEdge config edge : RegistryM V (EdgeEntry V)) registry).edgeIndexes
        = ((registry.edgeIndexes.cut edge.id).unindex existing.id).add config.hasher edge := by
  have sorted := stores.sorted edge.kind
  obtain ⟨found, hit⟩ : ∃ found,
      (registry.edges edge.kind).find? (fun other => other.id.cmp edge.id == .eq) = some found := by
    rw [← Option.isSome_iff_exists, List.find?_isSome]
    exact ⟨existing, stored, by simp [equal]⟩
  have erased : (registry.edges edge.kind).eraseIdx index = _ :=
    bisectEdges_of_ok sorted place ▸ eraseIdx_edgeIndex sorted hit
  simp only [Py.after_modify_bind, erased]
  generalize state : (registry.setEdges edge.kind _).unindexEdge existing.id = cut
  have indexes : cut.edgeIndexes = (registry.edgeIndexes.cut edge.id).unindex existing.id := by
    rw [← state, edgeIndexes_unindexEdge, edgeIndexes_setEdges]
    rfl
  have cutStores : EdgeStores cut :=
    state ▸ (stores.sublist List.filter_sublist).of_edges rfl
  have absent : ∀ other ∈ cut.edges edge.kind, other.id.cmp edge.id ≠ .eq := by
    intro other member
    rw [← state] at member
    change other ∈ (registry.setEdges edge.kind _).edges edge.kind at member
    rw [edges_setEdges, if_pos rfl, List.mem_filter] at member
    simpa using member.2
  rw [← indexes]
  exact insertEdge_indexes config cutStores absent

/-- What filing an edge does to the indexes: it adds a new identity, or it puts an executable
edge in the place of a key-only one that compares equal. A comparison that raises in between
leaves the key-only edge out.
-/
theorem fileEdge_indexes (config : Config V F) (edge : EdgeEntry V) {registry : Registry V}
    (stores : EdgeStores registry)
    : (Py.after (Registry.fileEdge config edge) registry).edgeIndexes = registry.edgeIndexes
      ∨ ((∀ other ∈ registry.edges edge.kind, other.id.cmp edge.id ≠ .eq)
        ∧ (Py.after (Registry.fileEdge config edge) registry).edgeIndexes
          = registry.edgeIndexes.add config.hasher edge)
      ∨ ∃ pair, EdgeEntry.edgeKey pair ∈ registry.edges edge.kind
        ∧ pair.id.cmp edge.id = .eq
        ∧ ((Py.after (Registry.fileEdge config edge) registry).edgeIndexes
            = (registry.edgeIndexes.cut edge.id).unindex pair.id
          ∨ (Py.after (Registry.fileEdge config edge) registry).edgeIndexes
            = ((registry.edgeIndexes.cut edge.id).unindex pair.id).add config.hasher edge) := by
  unfold Registry.fileEdge
  generalize touch : Py.after (Registry.touchMigrations edge.kind) registry = touched
  have touchedIndexes : touched.edgeIndexes = registry.edgeIndexes :=
    touch ▸ touchMigrations_keepsIndexes edge.kind registry
  have paths : touched.edges = registry.edges := (EdgeIndexes.mk.inj touchedIndexes).1
  have touchedStores : EdgeStores touched := stores.of_edges paths
  have start : ∀ {α : Type} (next : PUnit → RegistryM V α),
      Py.after (Registry.touchMigrations edge.kind >>= next) registry
        = Py.after (next ⟨⟩) touched :=
    fun next => touch ▸ Py.after_modify_bind _ next registry
  rw [start, Py.after_query_bind]
  rw [← touchedIndexes, ← paths]
  cases search : findEdgeIn (touched.edges edge.kind) edge.id with
  | error raised => exact .inl rfl
  | ok found =>
      have met := findEdgeIn_of_ok (touchedStores.sorted edge.kind) search
      cases found with
      | none =>
          have absent : ∀ other ∈ touched.edges edge.kind, other.id.cmp edge.id ≠ .eq := by
            intro other member equal
            have miss := List.find?_eq_none.mp met.symm other member
            simp [equal] at miss
          rcases insertEdge_indexes config touchedStores absent with same | added
          · exact .inl same
          · exact .inr (.inl ⟨absent, added⟩)
      | some existing =>
          cases edge with
          | edgeKey pair => exact .inl rfl
          | versionEdge incoming =>
            cases existing with
            | versionEdge registered =>
                refine .inl ((?_ : Py.Keeps Registry.edgeIndexes _) touched)
                refine .bind (.query _ _) (fun _ => .bind (.query _ _) (fun _ => ?_))
                exact .ite _ (.bind (.query _ _) (fun _ => .bind (.throw _ _) (fun _ => .pure _ _)))
                  (.pure _ _)
            | edgeKey pair =>
                have stored := List.mem_of_find?_eq_some met.symm
                have equal := List.find?_some met.symm
                simp only [beq_iff_eq] at equal
                simp only [Py.after_query_bind]
                cases place : bisectEdges (touched.edges (EdgeEntry.versionEdge incoming).kind)
                    (EdgeEntry.versionEdge incoming).id with
                | error raised => exact .inl rfl
                | ok index =>
                    refine .inr (.inr ⟨pair, stored, equal, ?_⟩)
                    exact replaceEdge_indexes config touchedStores stored equal place

omit [DecidableEq V] [VersionValue V] in
/-- Forgetting a kind whose list is empty is not visible. -/
theorem edgeIndexes_forget (registry : Registry V) (kind : ModelKind)
    : (if (registry.edges kind).isEmpty then
        { registry with migrations := registry.migrations.erase kind }
        else registry).edgeIndexes = registry.edgeIndexes := by
  split
  case isTrue empty =>
    have paths : { registry with migrations := registry.migrations.erase kind }.edges
        = registry.edges := by
      funext other
      refine (Py.Dict.getD_erase _ _ _ _).trans ?_
      split
      case isTrue same => exact (same ▸ List.isEmpty_iff.mp empty).symm
      case isFalse => rfl
    rw [Registry.edgeIndexes, paths]
    rfl
  case isFalse => rfl

/-- What removing an edge does to the indexes: nothing, or a stored edge that compares equal to
the key leaves its list. Only the key is taken out of the index, and not even that if the digest
of the stored edge raises.
-/
theorem removeMigration_indexes (config : Config V F) (key : Transitional V)
    {registry : Registry V} (stores : EdgeStores registry)
    : (Py.after (Registry.removeMigration config key) registry).edgeIndexes = registry.edgeIndexes
      ∨ ∃ existing ∈ registry.edges key.kind, existing.id.cmp key.id = .eq
        ∧ registry.hasHooks key.id = false
        ∧ ((Py.after (Registry.removeMigration config key) registry).edgeIndexes
            = registry.edgeIndexes.drop config.hasher key.id existing
          ∨ registry.digestIndex.isSome
            ∧ (∃ version, existing = .versionEdge version
              ∧ (version.digest config.hasher).toOption = none)
            ∧ (Py.after (Registry.removeMigration config key) registry).edgeIndexes
              = registry.edgeIndexes.cut key.id) := by
  unfold Registry.removeMigration
  rw [Py.after_query_bind]
  simp only
  cases hooked : registry.hasHooks key.id with
  | true => exact .inl rfl
  | false =>
  simp only [Bool.false_eq_true, if_false]
  generalize touch : Py.after (Registry.touchMigrations key.kind) registry = touched
  have touchedIndexes : touched.edgeIndexes = registry.edgeIndexes :=
    touch ▸ touchMigrations_keepsIndexes key.kind registry
  have paths : touched.edges = registry.edges := (EdgeIndexes.mk.inj touchedIndexes).1
  have digests : touched.digestIndex = registry.digestIndex :=
    (EdgeIndexes.mk.inj touchedIndexes).2.2
  have touchedStores : EdgeStores touched := stores.of_edges paths
  have start : ∀ {α : Type} (next : PUnit → RegistryM V α),
      Py.after (Registry.touchMigrations key.kind >>= next) registry
        = Py.after (next ⟨⟩) touched :=
    fun next => touch ▸ Py.after_modify_bind _ next registry
  rw [start, Py.after_query_bind, ← touchedIndexes, ← paths, ← digests]
  cases search : findEdgeIn (touched.edges key.kind) key.id with
  | error raised => exact .inl rfl
  | ok found =>
      have met := findEdgeIn_of_ok (touchedStores.sorted key.kind) search
      cases found with
      | none => exact .inl (refreshHealth_keepsIndexes _ _ _)
      | some existing =>
          have stored := List.mem_of_find?_eq_some met.symm
          have equal := List.find?_some met.symm
          simp only [beq_iff_eq] at equal
          simp only [Py.after_query_bind]
          cases place : bisectEdges (touched.edges key.kind) key.id with
          | error raised => exact .inl rfl
          | ok index =>
              refine .inr ⟨existing, stored, equal, trivial, ?_⟩
              have erased : (touched.edges key.kind).eraseIdx index = _ :=
                bisectEdges_of_ok (touchedStores.sorted key.kind) place
                  ▸ eraseIdx_edgeIndex (touchedStores.sorted key.kind) met.symm
              have finish : ∀ state : Registry V, (Py.after (do
                  modify (fun registry => registry.unindexEdge key.id)
                  modifyHealth (fun index => index.dropEntity (.edge (.stored existing)))
                  refreshHealth config.linters
                    ((affectedByEdgeChange (.stored existing)).filter
                      (fun entity => entity.id ≠ .edge existing.id)) : RegistryM V PUnit)
                  state).edgeIndexes = state.edgeIndexes.unindex key.id := by
                intro state
                exact refreshHealth_keepsIndexes _ _ _
              simp only [Py.after_modify_bind, erased]
              generalize state : (if ((touched.setEdges key.kind _).edges key.kind).isEmpty
                then _ else touched.setEdges key.kind _) = cut
              have indexes : cut.edgeIndexes = touched.edgeIndexes.cut key.id := by
                rw [← state, edgeIndexes_forget, edgeIndexes_setEdges]
                rfl
              have cutDigests : cut.digestIndex = touched.digestIndex :=
                (EdgeIndexes.mk.inj indexes).2.2
              rw [EdgeIndexes.drop, ← indexes, ← cutDigests]
              cases existing with
              | edgeKey pair => exact .inl (finish cut)
              | versionEdge version =>
                  rcases after_withDigest config.hasher version
                      (fun digest index => index.erase digest) _ _ rfl with
                    ⟨unindexed, same⟩ | ⟨indexed, unhashed, same⟩ | ⟨digest, hashed, same⟩
                  · refine .inl ((congrArg Registry.edgeIndexes same).trans ((finish _).trans ?_))
                    rw [EdgeIndexes.redigest_of_none unindexed]
                  · exact .inr ⟨indexed, ⟨version, rfl, unhashed⟩,
                      congrArg Registry.edgeIndexes same⟩
                  · refine .inl ((congrArg Registry.edgeIndexes same).trans ((finish _).trans ?_))
                    simp only [EdgeIndexes.redigest, EdgeEntry.indexDigest, hashed,
                      Option.elim_some]
                    rfl

-----------------------------------------------------------------------------------------
-- Exactness
-----------------------------------------------------------------------------------------

/-- Each set holds exactly the stored edges that touch its node, and no set is empty. -/
structure EdgeIndexes.Exact (indexes : EdgeIndexes V) : Prop where
  incident : ∀ node edge, edge ∈ indexes.edgesOf node
    ↔ edge ∈ indexes.paths edge.kind ∧ edge.Touches node
  noEmpty : NoEmptySet indexes.incident

omit [DecidableEq V] in
theorem EdgeId.kind_eq_of_cmp {left right : EdgeId V} (equal : left.cmp right = .eq)
    : left.kind = right.kind := by
  simp only [EdgeId.cmp, compareLex_eq_eq] at equal
  exact (NodeId.cmp_eq_iff.mp equal.1).2.1

omit [DecidableEq V] in
theorem EdgeIndexes.mem_cut {indexes : EdgeIndexes V} {key : EdgeId V} {kind : ModelKind}
    {edge : EdgeEntry V}
    : edge ∈ (indexes.cut key).paths kind
      ↔ edge ∈ indexes.paths kind ∧ ¬ (kind = key.kind ∧ edge.id.cmp key = .eq) := by
  simp only [EdgeIndexes.cut, EdgeIndexes.setPaths]
  split
  case isTrue same => simp [same]
  case isFalse differs => simp [differs]

theorem EdgeIndexes.mem_add {hasher : ContentHasher} {indexes : EdgeIndexes V}
    {edge other : EdgeEntry V}
    : other ∈ (indexes.add hasher edge).paths other.kind
      ↔ other = edge ∨ other ∈ indexes.paths other.kind := by
  change other ∈ (if other.kind = edge.kind then _ else _) ↔ _
  split
  case isTrue same =>
    rw [same]
    exact List.mem_insertIdx (Py.lowerBound_le edge.id _)
  case isFalse differs =>
    have ne : other ≠ edge := fun same => differs (congrArg EdgeEntry.kind same)
    simp [ne]

namespace EdgeIndexes.Exact

/-- Adding a new identity keeps the sets exact. -/
theorem add {indexes : EdgeIndexes V} (exact : indexes.Exact) (hasher : ContentHasher)
    {edge : EdgeEntry V}
    (absent : ∀ other ∈ indexes.paths edge.kind, other.id.cmp edge.id ≠ .eq)
    : (indexes.add hasher edge).Exact := by
  have alone : ∀ v, ∀ held ∈ indexes.edgesOf v, held.id = edge.id → held = edge := by
    intro v held member same
    have stored := ((exact.incident v held).mp member).1
    rw [EdgeEntry.kind, same] at stored
    exact (absent held stored (same ▸ Std.ReflCmp.compare_self)).elim
  constructor
  · intro node other
    rw [mem_add]
    refine (mem_index alone).trans ?_
    rw [exact.incident node other]
    constructor
    · rintro (⟨stored, touches⟩ | ⟨rfl, touches⟩)
      · exact ⟨.inr stored, touches⟩
      · exact ⟨.inl rfl, touches⟩
    · rintro ⟨rfl | stored, touches⟩
      · exact .inr ⟨rfl, touches⟩
      · exact .inl ⟨stored, touches⟩
  · exact (exact.noEmpty.addIncident edge _).addIncident edge _

/-- Removing is exact if the key compares equal to the edges of the unindexed identity and to no
others.
-/
theorem remove {indexes : EdgeIndexes V} (exact : indexes.Exact) {key removed : EdgeId V}
    (same : ∀ other ∈ indexes.paths other.kind, other.id.cmp key = .eq ↔ other.id = removed)
    : ((indexes.cut key).unindex removed).Exact := by
  constructor
  · intro node other
    have listed : other ∈ ((indexes.cut key).unindex removed).paths other.kind
        ↔ other ∈ indexes.paths other.kind ∧ other.id.cmp key ≠ .eq := by
      refine mem_cut.trans (and_congr_right (fun _ => not_congr ?_))
      exact ⟨And.right, fun equal => ⟨EdgeId.kind_eq_of_cmp equal, equal⟩⟩
    rw [listed]
    refine mem_unindex.trans ?_
    change other ∈ indexes.edgesOf node ∧ _ ↔ _
    rw [exact.incident node other]
    constructor
    · rintro ⟨⟨stored, touches⟩, kept⟩
      refine ⟨⟨stored, fun equal => kept ?_⟩, touches⟩
      have identical := (same other stored).mp equal
      exact ⟨identical ▸ touches, identical⟩
    · rintro ⟨⟨stored, differs⟩, touches⟩
      refine ⟨⟨stored, touches⟩, fun gone => differs ?_⟩
      exact (same other stored).mpr gone.2
  · exact (exact.noEmpty.discardIncident removed _).discardIncident removed _

end EdgeIndexes.Exact

/-- The edge lists are in order and the sets of incident edges are exact. -/
structure EdgesIndexed (registry : Registry V) : Prop where
  stores : EdgeStores registry
  exact : registry.edgeIndexes.Exact

theorem EdgesIndexed.of_indexes {before after : Registry V} (indexed : EdgesIndexed before)
    (same : after.edgeIndexes = before.edgeIndexes)
    : EdgesIndexed after :=
  ⟨indexed.stores.of_edges (EdgeIndexes.mk.inj same).1, same ▸ indexed.exact⟩

theorem edgesIndexed_of_keeps {α : Type} {program : RegistryM V α}
    (kept : Py.Keeps Registry.edgeIndexes program)
    : Py.Preserves EdgesIndexed program :=
  kept.preserves (fun _ _ same indexed => indexed.of_indexes same)

/-- Filing an edge needs no condition: a replaced edge is unindexed under its own identity. -/
theorem fileEdge_edgesIndexed (config : Config V F) (edge : EdgeEntry V)
    : Py.Preserves EdgesIndexed (Registry.fileEdge config edge) := by
  intro registry indexed
  refine ⟨fileEdge_edgeStores config edge registry indexed.stores, ?_⟩
  rcases fileEdge_indexes config edge indexed.stores with
    same | ⟨absent, added⟩ | ⟨pair, stored, equal, replaced⟩
  · exact same ▸ indexed.exact
  · exact added ▸ indexed.exact.add config.hasher absent
  · have kinds : (EdgeEntry.edgeKey pair).kind = edge.kind := EdgeId.kind_eq_of_cmp equal
    have inStore : EdgeEntry.edgeKey pair ∈ registry.edges (EdgeEntry.edgeKey pair).kind := by
      rwa [kinds]
    have removed : ((registry.edgeIndexes.cut edge.id).unindex pair.id).Exact := by
      refine indexed.exact.remove (fun other member => ?_)
      constructor
      · intro same
        have alike : other.id.cmp pair.id = .eq :=
          Std.TransCmp.eq_trans same (Std.OrientedCmp.eq_symm equal)
        exact congrArg EdgeEntry.id (indexed.stores.eq_of_cmp member inStore alike)
      · intro same
        exact same ▸ equal
    rcases replaced with cut | added
    · exact cut ▸ removed
    · refine added ▸ removed.add config.hasher ?_
      intro other member equal
      exact (EdgeIndexes.mem_cut.mp member).2 ⟨rfl, equal⟩

-----------------------------------------------------------------------------------------
-- Removals
-----------------------------------------------------------------------------------------

omit [DecidableEq V] in
/-- A stored edge that compares equal to the key is identical to it, and its content can be
hashed where digests are indexed.
-/
def KeyMeets (registry : Registry V) (key : EdgeId V) : Prop :=
  ∀ edge ∈ registry.edges key.kind, edge.id.cmp key = .eq →
    edge.id = key
      ∧ (registry.digestIndex.isSome → ∀ version, edge = .versionEdge version → version.Hashable)

omit [DecidableEq V] [VersionValue V] in
/-- The second registry stores no other edges than the first and indexes digests only if the
first does.
-/
structure Shrunk (start registry : Registry V) : Prop where
  fewer : ∀ kind, ∀ edge ∈ registry.edges kind, edge ∈ start.edges kind
  digests : registry.digestIndex.isSome → start.digestIndex.isSome

omit [DecidableEq V] [VersionValue V] in
theorem Shrunk.of_indexes {start before after : Registry V} (shrunk : Shrunk start before)
    (same : after.edgeIndexes = before.edgeIndexes)
    : Shrunk start after := by
  obtain ⟨paths, _, digests⟩ := EdgeIndexes.mk.inj same
  exact ⟨paths ▸ shrunk.fewer, digests ▸ shrunk.digests⟩

omit [DecidableEq V] in
theorem KeyMeets.shrunk {start registry : Registry V} {key : EdgeId V}
    (meets : KeyMeets start key) (shrunk : Shrunk start registry)
    : KeyMeets registry key := by
  intro edge member equal
  obtain ⟨identical, hashable⟩ := meets edge (shrunk.fewer _ edge member) equal
  exact ⟨identical, fun indexed => hashable (shrunk.digests indexed)⟩

theorem removeMigration_shrunk (config : Config V F) (key : Transitional V)
    {start registry : Registry V} (stores : EdgeStores registry) (shrunk : Shrunk start registry)
    : Shrunk start (Py.after (Registry.removeMigration config key) registry) := by
  have cut : ∀ {after : Registry V},
      after.edges = (registry.edgeIndexes.cut key.id).paths →
      (after.digestIndex.isSome → registry.digestIndex.isSome) → Shrunk start after := by
    intro after paths digests
    refine ⟨fun kind edge member => ?_, fun indexed => shrunk.digests (digests indexed)⟩
    rw [paths] at member
    exact shrunk.fewer kind edge (EdgeIndexes.mem_cut.mp member).1
  rcases removeMigration_indexes config key stores with
    same | ⟨existing, _, _, _, dropped | ⟨_, _, same⟩⟩
  · exact shrunk.of_indexes same
  · obtain ⟨paths, _, digests⟩ := EdgeIndexes.mk.inj dropped
    refine cut paths (fun indexed => ?_)
    rwa [digests, EdgeIndexes.redigest_isSome] at indexed
  · obtain ⟨paths, _, digests⟩ := EdgeIndexes.mk.inj same
    exact cut paths (fun indexed => by rwa [digests] at indexed)

/-- A removal by a key that meets its condition keeps the sets exact. -/
theorem removeMigration_edgesIndexed (config : Config V F) {key : Transitional V}
    {registry : Registry V} (indexed : EdgesIndexed registry)
    (meets : registry.hasHooks key.id = false → KeyMeets registry key.id)
    : EdgesIndexed (Py.after (Registry.removeMigration config key) registry) := by
  refine ⟨removeMigration_edgeStores config key registry indexed.stores, ?_⟩
  rcases removeMigration_indexes config key indexed.stores with
    same | ⟨existing, stored, equal, unhooked, outcome⟩
  · exact same ▸ indexed.exact
  · obtain ⟨identical, hashable⟩ := meets unhooked existing stored equal
    have inStore : existing ∈ registry.edges existing.kind := by
      rw [EdgeEntry.kind, identical]
      exact stored
    rcases outcome with dropped | ⟨digests, ⟨version, rfl, unhashed⟩, _⟩
    · have removed : ((registry.edgeIndexes.cut key.id).unindex key.id).Exact := by
        refine indexed.exact.remove (fun other member => ?_)
        constructor
        · intro same
          have alike : other.id.cmp existing.id = .eq := identical ▸ same
          rw [indexed.stores.eq_of_cmp member inStore alike, identical]
        · intro same
          rw [same]
          exact Std.ReflCmp.compare_self
      rw [dropped]
      exact ⟨removed.incident, removed.noEmpty⟩
    · exact ((hashable digests version rfl).toOption_ne_none _ unhashed).elim

omit [DecidableEq V] [VersionValue V] in
theorem mem_migrationsFor {registry : Registry V} {kind : ModelKind} {edge : VersionEdge V}
    : edge ∈ registry.migrationsFor kind ↔ EdgeEntry.versionEdge edge ∈ registry.edges kind := by
  simp only [Registry.migrationsFor, List.mem_filterMap]
  constructor
  · intro given
    obtain ⟨entry, member, executes⟩ := given
    cases entry with
    | edgeKey pair => cases executes
    | versionEdge other =>
        obtain rfl := Option.some.inj executes
        exact member
  · intro member
    exact ⟨.versionEdge edge, member, rfl⟩

omit [VersionValue V] in
theorem mem_migrationsOf {registry : Registry V} {node : NodeId V} {edge : VersionEdge V}
    : EdgeEntry.versionEdge edge ∈ registry.edgesOf node ↔ edge ∈ registry.migrationsOf node := by
  simp only [Registry.migrationsOf, List.mem_filterMap]
  constructor
  · intro member
    exact ⟨.versionEdge edge, member, rfl⟩
  · rintro ⟨entry, member, executes⟩
    cases entry with
    | edgeKey pair => cases executes
    | versionEdge other =>
        obtain rfl := Option.some.inj executes
        exact member

/-- Registries without edges. -/
theorem edgesIndexed_empty {registry : Registry V} (migrations : registry.migrations = ∅)
    (incident : registry.edgesByVersion = ∅)
    : EdgesIndexed registry := by
  have none : ∀ kind, registry.edges kind = [] := by
    intro kind
    rw [Registry.edges, migrations]
    rfl
  refine ⟨.of_empty none, fun node edge => ?_, fun node => ?_⟩
  · have empty : registry.edgeIndexes.edgesOf node = [] := by
      change registry.edgesByVersion.getD node [] = []
      rw [incident]
      rfl
    rw [empty, show registry.edgeIndexes.paths edge.kind = [] from none edge.kind]
    simp
  · change registry.edgesByVersion.get? node ≠ some []
    rw [incident]
    simp

/-- A sequence of removals, each of a key that met its condition before the first one. -/
theorem removeAll_edgesIndexed (config : Config V F) {start : Registry V}
    {keys : List (EdgePair V)} (meets : ∀ pair ∈ keys, KeyMeets start pair.id)
    : Py.Preserves (fun registry => EdgesIndexed registry ∧ Shrunk start registry)
        (keys.forM (fun pair => Registry.removeMigration config (.stored (.edgeKey pair)))) := by
  refine .forM _ (fun pair member registry holds => ?_)
  exact ⟨removeMigration_edgesIndexed config holds.1
      (fun _ => (meets pair member).shrunk holds.2),
    removeMigration_shrunk config _ holds.1.stores holds.2⟩

theorem removeMigrationRange_edgesIndexed (config : Config V F) {fromVersion toVersion : NodeId V}
    {registry : Registry V} (indexed : EdgesIndexed registry)
    (meets : ∀ keys, Py.outcome (rangeScan fromVersion toVersion) registry = .ok keys →
      ∀ pair ∈ keys, KeyMeets registry pair.id)
    : EdgesIndexed (Py.after (Registry.removeMigrationRange config fromVersion toVersion)
        registry) := by
  have same := keepsEdges_indexes (rangeScan_keepsEdges fromVersion toVersion) registry
  rw [removeMigrationRange_eq]
  cases scan : rangeScan fromVersion toVersion registry with
  | error raised scanned =>
      rw [Py.after_of_error scan] at same
      rw [Py.after_of_error (Py.bind_eq_of_error scan)]
      exact indexed.of_indexes same
  | ok keys scanned =>
      rw [Py.after_of_ok scan] at same
      rw [Py.after_eq (Py.bind_eq_of_ok scan)]
      have collected : Py.outcome (rangeScan fromVersion toVersion) registry = .ok keys := by
        simp only [Py.outcome, scan]
      have shrunk : Shrunk registry scanned :=
        Shrunk.of_indexes ⟨fun _ _ member => member, id⟩ same
      exact (removeAll_edgesIndexed config (meets keys collected) scanned
        ⟨indexed.of_indexes same, shrunk⟩).1

/-- Deleting a kind removes edges under their own identities; only a digest that raises can leave
one of them in the index.
-/
theorem deleteKind_edgesIndexed (config : Config V F) {kind : ModelKind} {start : Registry V}
    (indexed : EdgesIndexed start)
    (hashable : start.digestIndex.isSome → ∀ node ∈ start.kindVersions kind,
      ∀ edge ∈ start.migrationsOf node.id, edge.Hashable)
    : EdgesIndexed (Py.after (Registry.deleteKind config kind) start) := by
  let Inv : Registry V → Prop := fun registry => EdgesIndexed registry ∧ Shrunk start registry
  have kept : ∀ {α : Type} {program : RegistryM V α}, Py.Keeps Registry.edgeIndexes program →
      Py.Preserves Inv program :=
    fun keep registry holds =>
      ⟨holds.1.of_indexes (keep registry), holds.2.of_indexes (keep registry)⟩
  have executable : ∀ {registry : Registry V} {node : NodeId V} {edge : VersionEdge V},
      EdgesIndexed registry → (edge ∈ registry.migrationsOf node
        ↔ EdgeEntry.versionEdge edge ∈ registry.edges edge.id.kind
          ∧ (EdgeEntry.versionEdge edge).Touches node) := by
    intro registry node edge indexed
    rw [← mem_migrationsOf]
    exact indexed.exact.incident node (.versionEdge edge)
  rw [deleteKind_eq, Py.after_query_bind]
  simp only
  split
  · exact indexed
  have removed : ∀ node ∈ start.kindVersions kind, Py.Preserves Inv (do
      let incident ← Py.query (fun registry => .ok (registry.migrationsOf node.id))
      incident.forM (Registry.removeOwnEdge config (start.kindVersions kind))) := by
    intro node inKind
    refine .query_bind (fun registry incident holds found => ?_)
    refine Py.Preserves.forM _ (fun edge member => ?_) registry holds
    refine removeOwnEdge_preserves (fun key => kept (clearHooks_keepsIndexes key)) ?_ _
    obtain rfl := Except.ok.inj found
    obtain ⟨stored, touches⟩ := (executable holds.1).mp member
    have inStart := holds.2.fewer _ _ stored
    have meets : KeyMeets start edge.id := by
      intro other otherStored equal
      have kinds : other.kind = edge.id.kind := EdgeId.kind_eq_of_cmp equal
      obtain rfl : other = .versionEdge edge :=
        indexed.stores.eq_of_cmp (kinds ▸ otherStored) inStart equal
      refine ⟨rfl, fun digests version same => ?_⟩
      obtain rfl := EdgeEntry.versionEdge.inj same
      exact hashable digests node inKind edge ((executable indexed).mpr ⟨inStart, touches⟩)
    intro reached later
    exact ⟨removeMigration_edgesIndexed config later.1 (fun _ => meets.shrunk later.2),
      removeMigration_shrunk config _ later.1.stores later.2⟩
  refine (?_ : Py.Preserves Inv _) start ⟨indexed, fun _ _ member => member, id⟩ |>.1
  refine .bind (forIncident_preserves (checkOwnEdges_preserves Inv kind _) _) (fun _ => ?_)
  refine .bind (.forM _ removed) (fun _ => ?_)
  exact removeVersions_preserves (fun version _ =>
    kept (keepsEdges_indexes (removeModel_keepsEdges config version.id)))

theorem clearMigrations_edgesIndexed (config : Config V F)
    : Py.Preserves EdgesIndexed (Registry.clearMigrations config) := by
  refine .bind (edgesIndexed_of_keeps (clearHooks_keepsIndexes none)) (fun _ => ?_)
  refine .bind (.modify (fun _ _ => ?_))
    (fun _ => edgesIndexed_of_keeps (keepsEdges_indexes (rebuildHealth_keepsEdges _)))
  exact edgesIndexed_empty rfl rfl

-----------------------------------------------------------------------------------------
-- Runs
-----------------------------------------------------------------------------------------

/-- What a call has to find so that it keeps the sets of incident edges exact. -/
def Op.KeepsEdgeIndex (registry : Registry V) : Op V F → Prop
  | .removeMigration key => registry.hasHooks key.id = false → KeyMeets registry key.id
  | .removeMigrationRange fromVersion toVersion =>
      ∀ keys, Py.outcome (rangeScan fromVersion toVersion) registry = .ok keys →
        ∀ pair ∈ keys, KeyMeets registry pair.id
  | .deleteKind kind => registry.digestIndex.isSome → ∀ node ∈ registry.kindVersions kind,
      ∀ edge ∈ registry.migrationsOf node.id, edge.Hashable
  | _ => True

/-- Every call that meets its condition keeps the sets exact, also when it raises. -/
theorem Op.edgesIndexed (config : Config V F) {registry : Registry V} (op : Op V F)
    (indexed : EdgesIndexed registry) (meets : op.KeepsEdgeIndex registry)
    : EdgesIndexed (Py.after (op.run config) registry) := by
  refine op.after_edges edgesIndexed_of_keeps indexed (fun input _ => ?_)
    (clearMigrations_edgesIndexed config) ?_ ?_ ?_
  · exact storeMigration_preservesEdges edgesIndexed_of_keeps (fileEdge_edgesIndexed config)
      input registry indexed
  · rintro key rfl
    exact removeMigration_edgesIndexed config indexed meets
  · rintro fromVersion toVersion rfl
    exact removeMigrationRange_edgesIndexed config indexed meets
  · rintro kind rfl
    exact deleteKind_edgesIndexed config indexed meets

/-- The content of the stored edge that the key stands for can be hashed. -/
def HashesStored (registry : Registry V) (key : EdgeId V) : Prop :=
  ∀ edge : VersionEdge V, .versionEdge edge ∈ registry.edges key.kind → edge.id.cmp key = .eq →
    edge.Hashable

/-- Where digests are indexed, the contents of the executable edges that a call removes can be
hashed.
-/
def Op.HashesRemoved (registry : Registry V) (op : Op V F) : Prop :=
  registry.digestIndex.isSome → match op with
    | .removeMigration key => registry.hasHooks key.id = false → HashesStored registry key.id
    | .removeMigrationRange fromVersion toVersion =>
        ∀ keys, Py.outcome (rangeScan fromVersion toVersion) registry = .ok keys →
          ∀ pair ∈ keys, HashesStored registry pair.id
    | .deleteKind kind => ∀ node ∈ registry.kindVersions kind,
        ∀ edge ∈ registry.migrationsOf node.id, edge.Hashable
    | _ => True

omit [DecidableEq V] in
theorem keyMeets_of_hashesStored [VersionValue.HashAgrees V] {registry : Registry V}
    {key : EdgeId V} (hashes : registry.digestIndex.isSome → HashesStored registry key)
    : KeyMeets registry key := by
  intro edge stored equal
  refine ⟨EdgeId.eq_of_cmp equal, fun digests version same => ?_⟩
  subst same
  exact hashes digests version stored equal

/-- Where equal versions are identical, hashing is all that a removal asks for. -/
theorem Op.keepsEdgeIndex [VersionValue.HashAgrees V] {registry : Registry V} {op : Op V F}
    (hashes : op.HashesRemoved registry)
    : op.KeepsEdgeIndex registry := by
  cases op with
  | removeMigration key =>
      intro unhooked
      exact keyMeets_of_hashesStored (fun digests => hashes digests unhooked)
  | removeMigrationRange fromVersion toVersion =>
      intro keys collected pair member
      exact keyMeets_of_hashesStored (fun digests => hashes digests keys collected pair member)
  | deleteKind kind => exact hashes
  | _ => exact trivial

/-- The edge lists and the sets of incident edges hold the same edges. -/
structure Registry.EdgeIndexExact (registry : Registry V) : Prop where
  increasing : ∀ kind, (registry.migrations.getD kind []).Pairwise
    (fun left right => left.id.cmp right.id = .lt)
  distinct : ∀ kind, ∀ left ∈ registry.migrations.getD kind [],
    ∀ right ∈ registry.migrations.getD kind [], left.id.cmp right.id = .eq → left = right
  filed : ∀ kind, ∀ edge ∈ registry.migrations.getD kind [], edge.kind = kind
  incident : ∀ node edge, edge ∈ registry.edgesByVersion.getD node []
    ↔ edge ∈ registry.migrations.getD edge.kind []
      ∧ (edge.id.source = node ∨ edge.id.target = node)
  noEmptySet : ∀ node, registry.edgesByVersion.get? node ≠ some []

theorem EdgesIndexed.edgesExact {registry : Registry V} (indexed : EdgesIndexed registry)
    : registry.EdgeIndexExact where
  increasing := indexed.stores.sorted
  distinct kind _ inLeft _ inRight equal :=
    (indexed.stores.sorted kind).eq_of_cmp_eq inLeft inRight equal
  filed := indexed.stores.filed
  incident := indexed.exact.incident
  noEmptySet := indexed.exact.noEmpty

theorem ReachableBy.edgesIndexed {config : Config V F} {registry : Registry V}
    (reached : ReachableBy (fun _ registry op => op.KeepsEdgeIndex registry)
      (fun _ _ => True) config registry)
    : EdgesIndexed registry := by
  induction reached with
  | new config nameSpace indexDigests _ => exact edgesIndexed_empty rfl rfl
  | step op _ meets ih => exact op.edgesIndexed _ ih meets
  | copyFrom _ _ _ _ sourceIh =>
      exact ⟨sourceIh.stores.of_edges rfl, sourceIh.exact.incident, sourceIh.exact.noEmpty⟩

/-- The edge index is exact after every run that hashes what it removes where digests are indexed.
-/
theorem ReachableBy.edgeIndexExact [VersionValue.HashAgrees V] {config : Config V F}
    {registry : Registry V}
    (reached : ReachableBy (fun _ registry op => op.HashesRemoved registry)
      (fun _ _ => True) config registry)
    : registry.EdgeIndexExact :=
  (reached.mono (fun _ _ _ hashes => Op.keepsEdgeIndex hashes)).edgesIndexed.edgesExact

/-- Two releases joined by a key-only edge that an executable one has replaced. -/
def upgradedEdges : Registry Release :=
  Registry.runAll plainConfig
    [.store (.versionNode (userNode 1 "UserV1")), .store (.versionNode (userNode 2 "UserV2")),
      .storeMigration (.edge (.edgeKey
        (userPair (userId 1) (userId 2) userEdge.sameNamespace userEdge.sameKind))),
      .storeMigration (.edge (.versionEdge (userMigration 1 2 "UserV1" "UserV2")))]
    (Registry.new "default" true)

/-- Witness: the replaced edge is gone from both indexes, and so is the replacing one after its
removal.
-/
theorem edgeIndexExact_upgradedEdges
    : upgradedEdges.edgesOf (userId 1) = [.versionEdge (userMigration 1 2 "UserV1" "UserV2")]
      ∧ (Py.after ((Op.removeMigration (.edgeId (userPair (userId 1) (userId 2) rfl rfl))).run
          plainConfig) upgradedEdges).EdgeIndexExact := by
  refine ⟨by decide +kernel, ?_⟩
  have stored : upgradedEdges.edges "User"
      = [.versionEdge (userMigration 1 2 "UserV1" "UserV2")] := by
    decide +kernel
  refine ReachableBy.edgeIndexExact (show ReachableBy _ _ plainConfig _ from .step _ ?_ ?_)
  · exact .runAll (.new _ _ _ (by decide)) (by simp [Op.HashesRemoved])
  · intro _ _ edge member _
    change .versionEdge edge ∈ upgradedEdges.edges "User" at member
    rw [stored, List.mem_singleton] at member
    obtain rfl := EdgeEntry.versionEdge.inj member
    exact ⟨by decide, by decide⟩

/-- Counterexample: an edge from a model without an id is filed before its digest raises, and on
its removal it leaves the list before the digest raises again; the sets of its ends keep it.
-/
theorem not_edgeIndexExact_unhashed
    : ¬ ∀ (config : Config Release Unit) (registry : Registry Release),
        Reachable config registry → registry.EdgeIndexExact := by
  intro claim
  let removed : Registry Release := Registry.runAll plainConfig
    [.store (.versionKey (userId 1)), .store (.versionKey (userId 2)),
      .storeMigration (.edge (.versionEdge (userMigration 1 2 "" "UserV2"))),
      .removeMigration (.edgeId (userPair (userId 1) (userId 2) rfl rfl))]
    (Registry.new "default" true)
  have exact := claim plainConfig removed (.runAll (.new _ _ _ (by decide)) _)
  have indexed := (exact.incident (userId 1)
    (.versionEdge (userMigration 1 2 "" "UserV2"))).mp (by decide +kernel)
  exact absurd indexed.1 (by decide +kernel)

end Pyverge
