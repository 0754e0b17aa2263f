import Pyverge.Registry.NodeOrder

/-! The map from model references to nodes.
One class may be registered under several identities, so that several nodes carry one
reference. A removal drops the reference without asking for the other nodes that carry it.
-/

namespace Pyverge

variable {V F : Type}

-----------------------------------------------------------------------------------------
-- What the map should hold
-----------------------------------------------------------------------------------------

/-- The model map leads to stored nodes, and all of them but the waiting ones are found in it. -/
structure FiledExcept (waiting : List (VersionNode V)) (registry : Registry V) : Prop where
  sound : ∀ ref node, registry.byModels.get? ref = some node →
    NodeEntry.versionNode node ∈ registry.byVersions ∧ node.modelref = ref
  complete : ∀ node, NodeEntry.versionNode node ∈ registry.byVersions → node ∉ waiting →
    node.modelref ∈ registry.byModels.keys

/-- The model map leads to stored nodes, and all of them are found in it. -/
abbrev ModelsFiled (registry : Registry V) : Prop := FiledExcept [] registry

theorem FiledExcept.of_nodeView {waiting : List (VersionNode V)} {before after : Registry V}
    (filed : FiledExcept waiting before) (same : after.nodeView = before.nodeView)
    : FiledExcept waiting after := by
  obtain ⟨versions, _, models⟩ := NodeView.mk.inj same
  exact ⟨versions ▸ models ▸ filed.sound, versions ▸ models ▸ filed.complete⟩

variable [VersionValue V]

/-- A new node is found under its reference, also where another node was found before. -/
theorem ModelsFiled.insertNode {registry : Registry V} (filed : ModelsFiled registry)
    (entry : NodeEntry V)
    : ModelsFiled (registry.insertNode entry) := by
  cases entry with
  | versionKey id =>
      constructor
      · intro ref node found
        have old := filed.sound ref node found
        exact ⟨mem_insertIdx_nodeIndex.mpr (.inr old.1), old.2⟩
      · intro node member _
        rcases mem_insertIdx_nodeIndex.mp member with new | old
        · cases new
        · exact filed.complete node old (by simp)
  | versionNode added =>
      constructor
      · intro ref node found
        change (registry.byModels.set added.modelref added).get? ref = some node at found
        rw [Py.Dict.get?_set] at found
        split at found
        case isTrue same =>
          obtain rfl := Option.some.inj found
          exact ⟨mem_insertIdx_nodeIndex.mpr (.inl rfl), same.symm⟩
        case isFalse =>
          have old := filed.sound ref node found
          exact ⟨mem_insertIdx_nodeIndex.mpr (.inr old.1), old.2⟩
      · intro node member _
        change node.modelref ∈ (registry.byModels.set added.modelref added).keys
        rw [Py.Dict.mem_keys, Py.Dict.get?_set]
        split
        · exact ⟨added, rfl⟩
        case isFalse other =>
          rcases mem_insertIdx_nodeIndex.mp member with new | old
          · obtain rfl := NodeEntry.versionNode.inj new
            exact (other rfl).elim
          · exact Py.Dict.mem_keys.mp (filed.complete node old (by simp))

theorem get?_eraseNode {registry : Registry V} {entry : NodeEntry V} {ref : ModelRef}
    : (registry.eraseNode entry).byModels.get? ref
      = if entry.modelref = some ref then none else registry.byModels.get? ref := by
  cases entry with
  | versionKey id => simp [Registry.eraseNode, NodeEntry.modelref]
  | versionNode node =>
      simp only [Registry.eraseNode, NodeEntry.modelref, Py.Dict.get?_erase, Option.some.injEq,
        eq_comm]

theorem mem_eraseNode {registry : Registry V} {entry stored : NodeEntry V}
    : stored ∈ (registry.eraseNode entry).byVersions
      ↔ stored ∈ registry.byVersions ∧ stored.id.cmp entry.id ≠ .eq := by
  simp [Registry.eraseNode]

/-- A removal is safe if no other node carries the dropped reference and the removed node does,
unless its reference led elsewhere.
-/
theorem FiledExcept.eraseNode {waiting later : List (VersionNode V)} {registry : Registry V}
    (filed : FiledExcept waiting registry) {entry : NodeEntry V}
    (others : ∀ node, NodeEntry.versionNode node ∈ registry.byVersions →
      node.id.cmp entry.id ≠ .eq → node ∉ later → entry.modelref ≠ some node.modelref)
    (own : ∀ node, NodeEntry.versionNode node ∈ registry.byVersions →
      node.id.cmp entry.id = .eq → registry.byModels.get? node.modelref = some node →
      entry.modelref = some node.modelref)
    (fewer : ∀ node, node.id.cmp entry.id ≠ .eq → node ∈ waiting → node ∈ later)
    : FiledExcept later (registry.eraseNode entry) := by
  constructor
  · intro ref node found
    rw [get?_eraseNode] at found
    split at found
    · cases found
    case isFalse kept =>
      obtain ⟨member, rfl⟩ := filed.sound ref node found
      refine ⟨mem_eraseNode.mpr ⟨member, ?_⟩, rfl⟩
      intro equal
      exact kept (own node member equal found)
  · intro node member expected
    obtain ⟨stored, differs⟩ := mem_eraseNode.mp member
    rw [Py.Dict.mem_keys, get?_eraseNode, if_neg (others node stored differs expected),
      ← Py.Dict.mem_keys]
    exact filed.complete node stored (fun waits => expected (fewer node differs waits))

-----------------------------------------------------------------------------------------
-- What single operations do to the map
-----------------------------------------------------------------------------------------

variable [DecidableEq V]

/-- The node stores are in step and the model map leads to all of their nodes. -/
structure IndexedNodes (registry : Registry V) : Prop where
  stores : NodeStores registry
  filed : ModelsFiled registry

omit [DecidableEq V] in
theorem IndexedNodes.of_nodeView {before after : Registry V} (indexed : IndexedNodes before)
    (same : after.nodeView = before.nodeView)
    : IndexedNodes after :=
  ⟨indexed.stores.of_nodeView same, indexed.filed.of_nodeView same⟩

omit [DecidableEq V] in
theorem indexedNodes_of_keeps {α : Type} {program : RegistryM V α}
    (kept : Py.Keeps Registry.nodeView program)
    : Py.Preserves IndexedNodes program :=
  kept.preserves (fun _ _ same indexed => indexed.of_nodeView same)

/-- No other stored node carries the reference that removing the entry drops, and the node it
removes carries that reference, unless the reference of the removed node led elsewhere.
-/
structure RemovalMeets (registry : Registry V) (entry : NodeEntry V) : Prop where
  others : ∀ node, NodeEntry.versionNode node ∈ registry.byVersions →
    node.id.cmp entry.id ≠ .eq → entry.modelref ≠ some node.modelref
  own : ∀ node, NodeEntry.versionNode node ∈ registry.byVersions →
    node.id.cmp entry.id = .eq → registry.byModels.get? node.modelref = some node →
    entry.modelref = some node.modelref

omit [DecidableEq V] in
theorem IndexedNodes.eraseNode {registry : Registry V} (indexed : IndexedNodes registry)
    {entry : NodeEntry V} (meets : RemovalMeets registry entry)
    : IndexedNodes (registry.eraseNode entry) :=
  ⟨indexed.stores.eraseNode entry,
    indexed.filed.eraseNode (fun node member differs _ => meets.others node member differs)
      meets.own (fun _ _ waits => waits)⟩

theorem store_indexedNodes (config : Config V F) (entry : NodeEntry V)
    : Py.Preserves IndexedNodes (Registry.store config entry) := by
  intro registry indexed
  rcases store_nodeView config entry indexed.stores with kept | ⟨same, absent, inserted⟩
  · exact indexed.of_nodeView kept
  · exact IndexedNodes.of_nodeView
      ⟨indexed.stores.insertNode same absent, indexed.filed.insertNode entry⟩ inserted

theorem removeEntry_indexedNodes (config : Config V F) {entry : NodeEntry V}
    {registry : Registry V} (indexed : IndexedNodes registry)
    (meets : RemovalMeets registry entry)
    : IndexedNodes (Py.after (Registry.removeEntry config entry) registry) := by
  rcases removeEntry_nodeView config entry indexed.stores with kept | erased
  · exact indexed.of_nodeView kept
  · exact (indexed.eraseNode meets).of_nodeView erased

omit [DecidableEq V] in
/-- A stored key-only entry can be removed: it is the only one of its identity. -/
theorem removalMeets_versionKey {registry : Registry V} (stores : NodeStores registry)
    {id : NodeId V} (stored : NodeEntry.versionKey id ∈ registry.byVersions)
    : RemovalMeets registry (.versionKey id) where
  others _ _ _ dropped := by cases dropped
  own node member equal _ := by
    cases stores.sorted.eq_of_cmp_eq member stored equal

omit [DecidableEq V] in
/-- A stored node can be removed if no other stored node carries its reference. -/
theorem removalMeets_versionNode {registry : Registry V} (stores : NodeStores registry)
    {version : VersionNode V} (stored : NodeEntry.versionNode version ∈ registry.byVersions)
    (only : ∀ node, NodeEntry.versionNode node ∈ registry.byVersions →
      node.modelref = version.modelref → node = version)
    : RemovalMeets registry (.versionNode version) where
  others node member differs dropped := by
    obtain rfl := only node member (Option.some.inj dropped).symm
    exact differs Std.ReflCmp.compare_self
  own node member equal _ := by
    obtain rfl := NodeEntry.versionNode.inj (stores.sorted.eq_of_cmp_eq member stored equal)
    rfl

/-- Replacing a stored key-only entry. -/
theorem replaceKey_indexedNodes (config : Config V F) {existing entry : NodeEntry V}
    {registry : Registry V} (indexed : IndexedNodes registry)
    (stored : existing ∈ registry.byVersions) (keyOnly : existing.isModel = false)
    : IndexedNodes (Py.after (do
        Registry.removeEntry config existing
        Registry.store config entry : RegistryM V (NodeEntry V)) registry) := by
  cases existing with
  | versionNode node => cases keyOnly
  | versionKey id =>
      refine Py.Preserves.after_bind ?_ (fun _ => store_indexedNodes config entry)
      exact removeEntry_indexedNodes config indexed (removalMeets_versionKey indexed.stores stored)

/-- Reconciling stores a new entry or leaves all as it is: the branch that replaces an entry is
never taken, since a key-only entry is refused before.
-/
theorem reconcile_indexedNodes (config : Config V F) (entry : NodeEntry V)
    : Py.Preserves IndexedNodes (Registry.reconcile config entry) := by
  unfold Registry.reconcile
  refine .bind (.query _ _) (fun found => ?_)
  cases found with
  | none => exact store_indexedNodes config entry
  | some existing =>
      refine .bind (.query _ _) (fun catalog => ?_)
      by_cases refused : (!existing.isModel && entry.isModel) = true
      · rw [if_pos refused]
        exact .throw_bind _ _ _
      · rw [if_neg refused]
        cases resolved : entry.reconcile existing with
        | none => exact .throw _ _
        | some chosen =>
            cases chosen with
            | existing => exact .pure _ _
            | self =>
                exfalso
                cases entry <;> cases existing <;>
                  simp_all [NodeEntry.reconcile, NodeEntry.isModel]

theorem hydrate_indexedNodes (config : Config V F) (entry : NodeEntry V)
    : Py.Preserves IndexedNodes (Registry.hydrate config entry) := by
  cases entry with
  | versionKey id => exact .throw _ _
  | versionNode node =>
      refine .query_bind (fun registry found indexed search => ?_)
      cases found with
      | none => exact store_indexedNodes config _ registry indexed
      | some existing =>
          have stored := (indexed.stores.findEntry_eq_some.mp search).1
          simp only
          split
          · exact reconcile_indexedNodes config _ registry indexed
          case isFalse keyOnly =>
            exact replaceKey_indexedNodes config indexed stored (by simpa using keyOnly)

/-- Removing a version is safe if no other node carries its reference. -/
theorem removeModel_indexedNodes (config : Config V F) {key : NodeId V} {registry : Registry V}
    (indexed : IndexedNodes registry)
    (only : ∀ version, NodeEntry.versionNode version ∈ registry.byVersions →
      version.id.cmp key = .eq → registry.migrationsOf key = [] →
      ∀ node, NodeEntry.versionNode node ∈ registry.byVersions →
        node.modelref = version.modelref → node = version)
    : IndexedNodes (Py.after (Registry.removeModel config key) registry) := by
  rcases removeModel_nodeView config key indexed.stores with
    kept | ⟨version, stored, equal, free, erased⟩
  · exact indexed.of_nodeView kept
  · refine (indexed.eraseNode ?_).of_nodeView erased
    cases version with
    | versionKey id => exact removalMeets_versionKey indexed.stores stored
    | versionNode version =>
        exact removalMeets_versionNode indexed.stores stored (only version stored equal free)

theorem clearModels_indexedNodes (config : Config V F)
    : Py.Preserves IndexedNodes (Registry.clearModels config) := by
  unfold Registry.clearModels
  refine .bind (.query _ _) (fun _ => .ite _ (.bind (.query _ _) (fun _ => .throw_bind _ _ _)) ?_)
  refine .bind (.modify (fun registry _ => ?_)) (fun _ => ?_)
  · refine ⟨⟨List.Pairwise.nil, fun _ member => (List.not_mem_nil member).elim, fun _ => rfl⟩, ?_⟩
    exact ⟨fun _ _ found => (Option.some_ne_none _ found.symm).elim,
      fun _ member => (List.not_mem_nil member).elim⟩
  · exact IgnoresHealth.rebuildHealth (fun _ _ indexed => indexed.of_nodeView rfl) _

-----------------------------------------------------------------------------------------
-- Deleting a kind
-----------------------------------------------------------------------------------------

/-- The linters answer for every entity of every registry. -/
def LintersAnswer (linters : List (HealthLinter V)) : Prop :=
  ∀ registry entity, ∃ issues, lint linters registry entity = .ok issues

omit [VersionValue V] in
theorem refreshHealth_returns {linters : List (HealthLinter V)} (answer : LintersAnswer linters)
    (entities : List (Entity V)) (registry : Registry V)
    : ∃ final, refreshHealth linters entities registry = .ok ⟨⟩ final := by
  unfold refreshHealth
  induction Entity.distinct entities generalizing registry with
  | nil => exact ⟨registry, rfl⟩
  | cons entity rest ih =>
      obtain ⟨issues, found⟩ := answer
        { registry with health := registry.health.setReferences entity entity.references } entity
      obtain ⟨final, run⟩ := ih
        { registry with
          health := (registry.health.setReferences entity entity.references).setHealth entity.id
            issues }
      refine ⟨final, (Py.forM_cons_ok ?_).trans run⟩
      simp only [refreshEntity, modifyHealth, Py.bind_apply, Py.modify_apply, Py.query_apply,
        found]

/-- Removing versions one by one is safe if each of them carries a reference of its own. -/
theorem removeVersions_distinct (config : Config V F) {start : Registry V}
    {versions : List (VersionNode V)}
    (stored : ∀ version ∈ versions, NodeEntry.versionNode version ∈ start.byVersions)
    (only : ∀ version ∈ versions, ∀ node, NodeEntry.versionNode node ∈ start.byVersions →
      node.modelref = version.modelref → node = version)
    (indexed : IndexedNodes start)
    : IndexedNodes (Py.after (removeVersions config versions) start) := by
  let Inv : Registry V → Prop := fun registry =>
    IndexedNodes registry ∧ registry.byVersions.Subset start.byVersions
  have kept : Py.Preserves Inv (removeVersions config versions) := by
    refine .forM _ (fun version member => .tryCatch ?_ ?_)
    · rintro registry ⟨indexed, subset⟩
      constructor
      · refine removeModel_indexedNodes config indexed ?_
        intro other inStore equal _ node nodeStored same
        have alike : other = version := NodeEntry.versionNode.inj
          ((‹IndexedNodes start›).stores.sorted.eq_of_cmp_eq (subset inStore)
            (stored version member) equal)
        subst alike
        exact only other member node (subset nodeStored) same
      · rcases removeModel_nodeView config version.id indexed.stores with
          same | ⟨erased, _, _, _, same⟩
        · rw [(NodeView.mk.inj same).1]
          exact subset
        · rw [(NodeView.mk.inj same).1]
          exact fun entry inRest => subset (mem_eraseNode.mp inRest).1
    · exact fun error => .ite _ (.pure _ _) (.throw _ _)
  exact (kept start ⟨indexed, fun _ member => member⟩).1

/-- Removing all nodes that carry some references is safe if nothing stops it halfway, by
induction on the nodes that are left.
-/
theorem removeVersions_all (config : Config V F) (answer : LintersAnswer config.linters)
    {registry : Registry V} {versions : List (VersionNode V)} (distinct : versions.Nodup)
    (stored : ∀ version ∈ versions, NodeEntry.versionNode version ∈ registry.byVersions)
    (free : ∀ version ∈ versions, registry.migrationsOf version.id = [])
    (outside : ∀ node, NodeEntry.versionNode node ∈ registry.byVersions → node ∉ versions →
      ∀ version ∈ versions, node.modelref ≠ version.modelref)
    (stores : NodeStores registry) (filed : FiledExcept versions registry)
    : IndexedNodes (Py.after (removeVersions config versions) registry) := by
  induction versions generalizing registry with
  | nil => exact ⟨stores, filed⟩
  | cons version rest ih =>
      have inStore := stored version (by simp)
      have same : SameStrategy registry.byVersions version.id :=
        fun entry member => stores.uniform _ inStore entry member
      have found : registry.byVersions.find? (fun entry => entry.id.cmp version.id == .eq)
          = some (.versionNode version) := by
        have search : registry.findEntry version.id = .ok (some (.versionNode version)) :=
          stores.findEntry_eq_some.mpr ⟨inStore, by simp [NodeId.eq, NodeEntry.id, Std.ReflCmp.compare_self]⟩
        rw [Registry.findEntry, findNode_eq stores.sorted same] at search
        exact Except.ok.inj search
      have removal := removeModel_eq config stores same found (free version (by simp))
      obtain ⟨next, run⟩ := refreshHealth_returns answer _ _
      have view : next.nodeView = (registry.eraseNode (.versionNode version)).nodeView := by
        have kept := refreshHealth_keepsNodes config.linters
          ((affectedByNodeChange registry (.versionNode version)).filter
            (fun entity => entity.id ≠ .node version.id))
          { registry.eraseNode (.versionNode version) with
            health := registry.health.dropEntity (.node (.versioned (.versionNode version))) }
        rwa [Py.after_of_ok run] at kept
      have edges : next.edgeView = registry.edgeView := by
        have kept := removeModel_keepsEdges config version.id registry
        rwa [Py.after_of_ok (removal.trans run)] at kept
      have step : Py.after (removeVersions config (version :: rest)) registry
          = Py.after (removeVersions config rest) next := by
        refine Py.after_eq (Py.forM_cons_ok ?_)
        rw [Py.tryCatch_apply, removal.trans run]
      have differs : ∀ node, NodeEntry.versionNode node ∈ registry.byVersions →
          node ≠ version → node.id.cmp version.id ≠ .eq := by
        intro node member ne equal
        exact ne (NodeEntry.versionNode.inj (stores.sorted.eq_of_cmp_eq member inStore equal))
      obtain ⟨fresh, distinctRest⟩ := List.nodup_cons.mp distinct
      have stillStored : ∀ node, NodeEntry.versionNode node ∈ next.byVersions
          ↔ NodeEntry.versionNode node ∈ registry.byVersions ∧ node ≠ version := by
        intro node
        rw [(NodeView.mk.inj view).1, mem_eraseNode]
        constructor
        · rintro ⟨member, apart⟩
          refine ⟨member, ?_⟩
          rintro rfl
          exact apart Std.ReflCmp.compare_self
        · rintro ⟨member, ne⟩
          exact ⟨member, differs node member ne⟩
      rw [step]
      apply ih distinctRest
      · intro other member
        refine (stillStored other).mpr ⟨stored other (List.mem_cons_of_mem _ member), ?_⟩
        rintro rfl
        exact fresh member
      · intro other member
        have old := free other (List.mem_cons_of_mem _ member)
        rwa [Registry.migrationsOf, Registry.edgesOf, (EdgeView.mk.inj edges).2.1]
      · intro node member notLeft other inRest
        obtain ⟨old, ne⟩ := (stillStored node).mp member
        exact outside node old (by simp [ne, notLeft]) other (List.mem_cons_of_mem _ inRest)
      · exact (stores.eraseNode _).of_nodeView view
      · refine FiledExcept.of_nodeView ?_ view
        refine filed.eraseNode ?_ ?_ ?_
        · intro node member apart notLeft dropped
          have ne : node ≠ version := by
            rintro rfl
            exact apart Std.ReflCmp.compare_self
          exact outside node member (by simp [ne, notLeft]) version (by simp)
            (Option.some.inj dropped).symm
        · intro node member equal _
          obtain rfl := NodeEntry.versionNode.inj
            (stores.sorted.eq_of_cmp_eq member inStore equal)
          rfl
        · intro node apart waits
          rcases List.mem_cons.mp waits with rfl | later
          · exact (apart Std.ReflCmp.compare_self).elim
          · exact later

/-- No node outside the kind carries a reference of its versions, and either each version
carries its own or nothing stops their removal halfway.
-/
structure DeletionMeets (config : Config V F) (registry : Registry V) (kind : ModelKind)
    : Prop where
  outside : ∀ version ∈ registry.kindVersions kind, ∀ node,
    NodeEntry.versionNode node ∈ registry.byVersions → node.modelref = version.modelref →
    node.id.kind = kind
  inside : (∀ left ∈ registry.kindVersions kind, ∀ right ∈ registry.kindVersions kind,
      left.modelref = right.modelref → left = right)
    ∨ LintersAnswer config.linters
      ∧ ∀ version ∈ registry.kindVersions kind, registry.migrationsOf version.id = []

omit [VersionValue V] in
/-- A loop over the edges of versions that have none does nothing. -/
theorem forIncident_of_free {registry : Registry V} {scanned : List (VersionNode V)}
    (free : ∀ version ∈ scanned, registry.migrationsOf version.id = [])
    (body : VersionEdge V → RegistryM V PUnit)
    : forIncident scanned body registry = .ok ⟨⟩ registry := by
  induction scanned with
  | nil => rfl
  | cons version rest ih =>
      refine (Py.forM_cons_ok ?_).trans
        (ih (fun other member => free other (List.mem_cons_of_mem _ member)))
      rw [Py.bind_apply, Py.query_apply]
      simp only [free version (by simp)]
      rfl

theorem deleteKind_indexedNodes (config : Config V F) {kind : ModelKind} {registry : Registry V}
    (indexed : IndexedNodes registry) (meets : DeletionMeets config registry kind)
    : IndexedNodes (Py.after (Registry.deleteKind config kind) registry) := by
  have versions : ∀ node, node ∈ registry.kindVersions kind ↔ registry.Hydrated kind node :=
    fun _ => indexed.stores.mem_kindVersions
  have stored : ∀ version ∈ (registry.kindVersions kind).reverse,
      NodeEntry.versionNode version ∈ registry.byVersions :=
    fun version member => ((versions version).mp (List.mem_reverse.mp member)).1
  rw [deleteKind_eq, Py.after_query_bind]
  simp only
  split
  · exact indexed
  rcases meets.inside with distinct | ⟨answer, free⟩
  · -- Each removal on its own is safe, so it does not matter where the loop stops.
    have only : ∀ version ∈ (registry.kindVersions kind).reverse, ∀ node,
        NodeEntry.versionNode node ∈ registry.byVersions → node.modelref = version.modelref →
        node = version := by
      intro version member node inStore same
      have inKind := List.mem_reverse.mp member
      exact distinct node ((versions node).mpr ⟨inStore, meets.outside version inKind node inStore
        same⟩) version inKind same
    let Same : Registry V → Prop := fun reached => reached.nodeView = registry.nodeView
    have keep : ∀ {α : Type} {program : RegistryM V α}, Py.Keeps Registry.nodeView program →
        Py.Preserves Same program :=
      fun kept => Py.keeps_iff_preserves.mp kept registry.nodeView
    have removedEdge : ∀ edge, Py.Preserves Same
        (Registry.removeOwnEdge config (registry.kindVersions kind) edge) :=
      fun edge => removeOwnEdge_preserves (fun key => keep (clearHooks_keepsNodes key))
        (keep (removeMigration_keepsNodes config _)) _
    refine @Py.after_bind_of _ _ _ _ Same _ _ _ _
      (forIncident_preserves (checkOwnEdges_preserves Same kind _) _ registry rfl)
      (fun _ same => indexed.of_nodeView same) (fun _ checked same => ?_)
    refine @Py.after_bind_of _ _ _ _ Same _ _ _ _
      (forIncident_preserves removedEdge _ checked same)
      (fun _ same => indexed.of_nodeView same) (fun _ reached same => ?_)
    have entries := (NodeView.mk.inj same).1
    exact removeVersions_distinct config (entries ▸ stored) (entries ▸ only)
      (indexed.of_nodeView same)
  · -- The loops over the edges do nothing and every removal returns.
    rw [Py.after_eq (Py.bind_eq_of_ok (forIncident_of_free free _)),
      Py.after_eq (Py.bind_eq_of_ok (forIncident_of_free free _))]
    refine removeVersions_all config answer ?_ stored
      (fun version member => free version (List.mem_reverse.mp member)) ?_ indexed.stores
      ⟨indexed.filed.sound, fun node member _ => indexed.filed.complete node member (by simp)⟩
    · rw [List.nodup_reverse]
      refine (indexed.stores.sorted_kindVersions kind).imp ?_
      rintro left right lt rfl
      simp [Std.ReflCmp.compare_self] at lt
    · intro node inStore notIn version member same
      have inKind := List.mem_reverse.mp member
      exact notIn (List.mem_reverse.mpr ((versions node).mpr
        ⟨inStore, meets.outside version inKind node inStore same⟩))

-----------------------------------------------------------------------------------------
-- Runs
-----------------------------------------------------------------------------------------

/-- What a call has to find so that it keeps the model map in step with the nodes. -/
def Op.KeepsModels (config : Config V F) (registry : Registry V) : Op V F → Prop
  | .removeEntry entry => RemovalMeets registry entry
  | .removeModel key => ∀ version, NodeEntry.versionNode version ∈ registry.byVersions →
      version.id.cmp key = .eq → registry.migrationsOf key = [] →
      ∀ node, NodeEntry.versionNode node ∈ registry.byVersions →
        node.modelref = version.modelref → node = version
  | .removeModelByRef ref => ∀ left, NodeEntry.versionNode left ∈ registry.byVersions →
      ∀ right, NodeEntry.versionNode right ∈ registry.byVersions →
        left.modelref = ref → right.modelref = ref → left = right
  | .deleteKind kind => DeletionMeets config registry kind
  | _ => True

theorem removeModelByRef_indexedNodes (config : Config V F) {ref : ModelRef}
    {registry : Registry V} (indexed : IndexedNodes registry)
    (meets : Op.KeepsModels config registry (.removeModelByRef ref))
    : IndexedNodes (Py.after (Registry.removeModelByRef config ref) registry) := by
  unfold Registry.removeModelByRef
  rw [Py.after_query_bind]
  cases found : registry.byModels.get? ref with
  | none => exact indexed
  | some node =>
      obtain ⟨stored, carries⟩ := indexed.filed.sound ref node found
      refine removeModel_indexedNodes config indexed ?_
      intro version inStore equal _ other otherStored same
      obtain rfl := NodeEntry.versionNode.inj
        (indexed.stores.sorted.eq_of_cmp_eq inStore stored equal)
      exact meets other otherStored version inStore (same.trans carries) carries

theorem storeMigration_indexedNodes (config : Config V F) (input : Registry.MigrationInput V F)
    : Py.Preserves IndexedNodes (Registry.storeMigration config input) :=
  storeMigration_preserves (store_indexedNodes config) indexedNodes_of_keeps input

/-- Every call that meets its condition keeps the map in step, also when it raises. -/
theorem Op.indexedNodes (config : Config V F) {registry : Registry V} (op : Op V F)
    (indexed : IndexedNodes registry) (meets : op.KeepsModels config registry)
    : IndexedNodes (Py.after (op.run config) registry) := by
  have keep : ∀ {α : Type} {program : RegistryM V α}, Py.Keeps Registry.nodeView program →
      IndexedNodes (Py.after program registry) :=
    fun kept => indexedNodes_of_keeps kept registry indexed
  have drop : ∀ {α : Type} {program : RegistryM V α}, Py.Preserves IndexedNodes program →
      IndexedNodes (Py.after (do let _ ← program) registry) :=
    fun kept => Py.Preserves.bind kept (fun _ => .pure _ _) registry indexed
  cases op with
  | store entry => exact drop (store_indexedNodes config entry)
  | hydrate entry => exact drop (hydrate_indexedNodes config entry)
  | reconcile entry => exact drop (reconcile_indexedNodes config entry)
  | removeEntry entry => exact removeEntry_indexedNodes config indexed meets
  | removeModel key => exact removeModel_indexedNodes config indexed meets
  | removeModelByRef ref => exact removeModelByRef_indexedNodes config indexed meets
  | clearModels => exact clearModels_indexedNodes config registry indexed
  | deleteKind kind => exact deleteKind_indexedNodes config indexed meets
  | storeMigration input => exact drop (storeMigration_indexedNodes config input)
  | removeMigration key => exact keep (removeMigration_keepsNodes config key)
  | removeMigrationRange fromVersion toVersion =>
      exact keep (removeMigrationRange_keepsNodes config fromVersion toVersion)
  | clearMigrations => exact keep (clearMigrations_keepsNodes config)
  | addHook key hook => exact keep (addHook_keepsNodes config key hook)
  | removeHook key hook => exact keep (removeHook_keepsNodes config key hook)
  | clearHooks key => exact keep (clearHooks_keepsNodes key)
  | isAdjacent key => exact keep (.bind (isAdjacent_keepsNodes key) (fun _ => .pure _ _))
  | isCriticalEdge key => exact keep (.bind (isCriticalEdge_keepsNodes key) (fun _ => .pure _ _))
  | hooks key => exact keep (.bind (hooksAt_keepsNodes key) (fun _ => .pure _ _))

/-- The keys of the model map are the references of the stored nodes, and each leads to one of
the stored nodes that carry it.
-/
structure Registry.ModelIndex (registry : Registry V) : Prop where
  domain : ∀ ref, ref ∈ registry.byModels.keys
    ↔ ∃ node, NodeEntry.versionNode node ∈ registry.byVersions ∧ node.modelref = ref
  leads : ∀ ref node, registry.byModels.get? ref = some node →
    NodeEntry.versionNode node ∈ registry.byVersions ∧ node.modelref = ref
  resolves : ∀ node, NodeEntry.versionNode node ∈ registry.byVersions →
    ∃ found, registry.getModelByRef node.modelref = .ok found
  onlyStored : ∀ ref node, registry.getModelByRef ref = .ok node →
    NodeEntry.versionNode node ∈ registry.byVersions ∧ node.modelref = ref

omit [DecidableEq V] [VersionValue V] in
theorem mem_versions {registry : Registry V} {node : VersionNode V}
    : node ∈ registry.versions ↔ NodeEntry.versionNode node ∈ registry.byVersions := by
  simp only [Registry.versions, List.mem_filterMap]
  constructor
  · rintro ⟨entry, member, isNode⟩
    cases entry with
    | versionKey id => cases isNode
    | versionNode stored =>
        obtain rfl := Option.some.inj isNode
        exact member
  · intro member
    exact ⟨.versionNode node, member, rfl⟩

omit [DecidableEq V] [VersionValue V] in
theorem getModelByRef_eq_ok {registry : Registry V} {ref : ModelRef} {node : VersionNode V}
    : registry.getModelByRef ref = .ok node ↔ registry.byModels.get? ref = some node := by
  unfold Registry.getModelByRef
  cases registry.byModels.get? ref <;> simp

omit [DecidableEq V] in
theorem IndexedNodes.exact {registry : Registry V} (indexed : IndexedNodes registry)
    : registry.ModelIndex where
  domain ref := by
    constructor
    · intro listed
      obtain ⟨node, found⟩ := Py.Dict.mem_keys.mp listed
      exact ⟨node, indexed.filed.sound ref node found⟩
    · rintro ⟨node, member, rfl⟩
      exact indexed.filed.complete node member (by simp)
  leads := indexed.filed.sound
  resolves node member := by
    obtain ⟨found, lookup⟩ := Py.Dict.mem_keys.mp (indexed.filed.complete node member (by simp))
    exact ⟨found, getModelByRef_eq_ok.mpr lookup⟩
  onlyStored ref node found := indexed.filed.sound ref node (getModelByRef_eq_ok.mp found)

/-- The model map is exact after every run whose calls meet their conditions, by induction over
the run.
-/
theorem ReachableBy.modelIndex {config : Config V F} {registry : Registry V}
    (reached : ReachableBy (fun config registry op => op.KeepsModels config registry)
      (fun _ _ => True) config registry)
    : registry.ModelIndex := by
  apply IndexedNodes.exact
  induction reached with
  | new config nameSpace indexDigests _ =>
      refine ⟨nodeStores_new nameSpace indexDigests, ?_, ?_⟩
      · exact fun _ _ found => (Option.some_ne_none _ found.symm).elim
      · exact fun _ member => (List.not_mem_nil member).elim
  | step op _ meets ih => exact op.indexedNodes _ ih meets
  | copyFrom _ _ _ _ sourceIh => exact sourceIh.of_nodeView rfl

/-- Three releases, the last two of one class. -/
def sharedClasses : Registry Release :=
  Registry.runAll plainConfig
    [.store (.versionNode (userNode 1 "UserV1")), .store (.versionNode (userNode 2 "User")),
      .store (.versionNode (userNode 3 "User"))]
    (Registry.new "default" false)

/-- Witness: of three releases the one with a class of its own is removed. -/
theorem modelIndex_sharedClasses
    : let registry := Py.after ((Op.removeModel (userId 1)).run plainConfig) sharedClasses;
      registry.ModelIndex
        ∧ registry.byModels.keys = [⟨"app", "User"⟩]
        ∧ registry.byVersions
          = [.versionNode (userNode 2 "User"), .versionNode (userNode 3 "User")] := by
  have only : ∀ version ∈ sharedClasses.versions, version.id.cmp (userId 1) = .eq →
      ∀ node ∈ sharedClasses.versions, node.modelref = version.modelref → node = version := by
    decide +kernel
  refine ⟨ReachableBy.modelIndex (show ReachableBy _ _ plainConfig _ from
    .step (.removeModel (userId 1)) ?_ ?_), by decide +kernel, by decide +kernel⟩
  · exact .runAll (.new _ _ _ (by decide)) (by simp [Op.KeepsModels])
  · intro version stored equal _ node nodeStored same
    exact only version (mem_versions.mpr stored) equal node (mem_versions.mpr nodeStored) same

/-- Counterexample: of two releases that share a class the second is removed, and the class no
longer leads to the first.
-/
theorem not_modelIndex_sharedClass
    : ¬ (Registry.runAll plainConfig
        [.store (.versionNode (userNode 1 "User")), .store (.versionNode (userNode 2 "User")),
          .removeModel (userId 2)]
        (Registry.new "default" false)).ModelIndex := by
  intro exact
  obtain ⟨found, lookup⟩ := exact.resolves (userNode 1 "User") (by decide +kernel)
  have missing : (Registry.runAll plainConfig
      [.store (.versionNode (userNode 1 "User")), .store (.versionNode (userNode 2 "User")),
        .removeModel (userId 2)]
      (Registry.new "default" false)).getModelByRef ⟨"app", "User"⟩
      = .error (.modelNotFound "default" "User") := by
    decide +kernel
  exact absurd (lookup.symm.trans missing) (by simp)

end Pyverge
