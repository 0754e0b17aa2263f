import Pyverge.Registry.Frames

/-! The two node stores stay sorted and in step.
The list of all entries is strictly sorted by identity, and the list of each kind is its
sublist of that kind. Every operation edits the two lists by separate searches, which agree
because both lists satisfy the invariant before the edit.
-/

namespace Pyverge

variable {V F : Type} [VersionValue V]

-----------------------------------------------------------------------------------------
-- Searching sorted entries
-----------------------------------------------------------------------------------------

/-- All entries can be compared with the key. -/
def SameStrategy (entries : List (NodeEntry V)) (key : NodeId V) : Prop :=
  ∀ entry ∈ entries, entry.id.strategy = key.strategy

/-- All entries can be compared with each other. -/
def OneStrategy (entries : List (NodeEntry V)) : Prop :=
  ∀ entry ∈ entries, SameStrategy entries entry.id

abbrev SortedNodes (entries : List (NodeEntry V)) : Prop :=
  Py.SortedBy NodeEntry.id NodeId.cmp entries

/-- The index at which an entry with this identity stands or would be inserted. -/
def nodeIndex (entries : List (NodeEntry V)) (key : NodeId V) : Nat :=
  Py.lowerBound NodeEntry.id NodeId.cmp key entries

theorem SameStrategy.filter {entries : List (NodeEntry V)} {key : NodeId V}
    (same : SameStrategy entries key) (keep : NodeEntry V → Bool)
    : SameStrategy (entries.filter keep) key :=
  fun entry member => same entry (List.mem_of_mem_filter member)

theorem bisectNodes_eq {entries : List (NodeEntry V)} {key : NodeId V}
    (sorted : SortedNodes entries) (same : SameStrategy entries key)
    : bisectNodes entries key = .ok (nodeIndex entries key) := by
  refine sorted.bisectLeft_eq key ?_
  intro entry member
  rw [NodeId.lt, if_pos (same entry member)]

theorem bisectNodes_of_ok {entries : List (NodeEntry V)} (sorted : SortedNodes entries)
    {key : NodeId V} {index : Nat} (run : bisectNodes entries key = .ok index)
    : index = nodeIndex entries key := by
  refine sorted.bisectLeft_of_ok key (fun entry _ answer asked => ?_) run
  unfold NodeId.lt at asked
  split at asked
  · exact Except.ok.inj asked
  · cases asked

/-- A search that returns has compared keys of one strategy, since every other comparison
raises and a nonempty list is compared at least once.
-/
theorem sameStrategy_of_bisectNodes {entries : List (NodeEntry V)} {key : NodeId V} {index : Nat}
    (one : OneStrategy entries) (found : bisectNodes entries key = .ok index)
    : SameStrategy entries key := by
  cases entries with
  | nil => simp [SameStrategy]
  | cons head rest =>
      by_cases same : head.id.strategy = key.strategy
      · intro entry member
        rw [one head (by simp) entry member, same]
      · exfalso
        have raises : ∀ entry ∈ head :: rest, entry.id.lt key
            = .error (.typeError
                ("Cannot compare " ++ head.id.strategy ++ " with " ++ key.strategy)) := by
          intro entry member
          have alike := one head (by simp) entry member
          rw [NodeId.lt, if_neg (by rwa [alike]), NodeId.mixed, alike]
        rw [bisectNodes, Py.bisectLeft_error raises (by simp)] at found
        cases found

theorem findNode_eq {entries : List (NodeEntry V)} {key : NodeId V}
    (sorted : SortedNodes entries) (same : SameStrategy entries key)
    : findNode entries key = .ok (entries.find? (fun entry => entry.id.cmp key == .eq)) := by
  rw [← sorted.getElem?_lowerBound key]
  unfold findNode
  rw [bisectNodes_eq sorted same]
  simp only [nodeIndex, bind, Except.bind]
  cases hit : entries[Py.lowerBound NodeEntry.id NodeId.cmp key entries]? with
  | none => rfl
  | some entry =>
      have member := List.mem_of_getElem? hit
      cases order : entry.id.cmp key == .eq <;>
        simp [NodeId.eq, if_pos (same entry member), Option.filter, order, pure, Except.pure]

theorem sameStrategy_of_findNode {entries : List (NodeEntry V)} {key : NodeId V}
    {found : Option (NodeEntry V)} (one : OneStrategy entries)
    (run : findNode entries key = .ok found)
    : SameStrategy entries key := by
  unfold findNode at run
  cases search : bisectNodes entries key with
  | ok index => exact sameStrategy_of_bisectNodes one search
  | error error => simp [search, bind, Except.bind] at run

-----------------------------------------------------------------------------------------
-- The invariant and the two edits
-----------------------------------------------------------------------------------------

/-- The node stores agree: one sorted list, and per kind its sublist of that kind. -/
structure NodeStores (registry : Registry V) : Prop where
  sorted : SortedNodes registry.byVersions
  uniform : OneStrategy registry.byVersions
  grouped : ∀ kind, registry.kindEntries kind
    = registry.byVersions.filter (fun entry => entry.kind = kind)

namespace Registry

/-- Insert an entry into both node stores and a hydrated one into the model map. -/
def insertNode (registry : Registry V) (entry : NodeEntry V) : Registry V :=
  let kindEntries := registry.kindEntries entry.kind
  {
    registry with
    byVersions := registry.byVersions.insertIdx (nodeIndex registry.byVersions entry.id) entry
    byKinds := registry.byKinds.set entry.kind
      (kindEntries.insertIdx (nodeIndex kindEntries entry.id) entry)
    byModels :=
      match entry with
      | .versionKey _ => registry.byModels
      | .versionNode node => registry.byModels.set node.modelref node
  }

/-- Take the identity of an entry out of both node stores and its model out of the map. -/
def eraseNode (registry : Registry V) (entry : NodeEntry V) : Registry V :=
  let other : NodeEntry V → Bool := fun stored => !(stored.id.cmp entry.id == .eq)
  {
    registry with
    byVersions := registry.byVersions.filter other
    byKinds := registry.byKinds.set entry.kind ((registry.kindEntries entry.kind).filter other)
    byModels :=
      match entry with
      | .versionKey _ => registry.byModels
      | .versionNode node => registry.byModels.erase node.modelref
  }

end Registry

theorem NodeStores.sortedKind {registry : Registry V} (stores : NodeStores registry)
    (kind : ModelKind)
    : SortedNodes (registry.kindEntries kind) := by
  rw [stores.grouped]
  exact stores.sorted.filter _

theorem SameStrategy.kindEntries {registry : Registry V} (stores : NodeStores registry)
    {key : NodeId V} (same : SameStrategy registry.byVersions key) (kind : ModelKind)
    : SameStrategy (registry.kindEntries kind) key := by
  rw [stores.grouped]
  exact same.filter _

/-- No stored entry has the identity. -/
def Absent (entries : List (NodeEntry V)) (key : NodeId V) : Prop :=
  ∀ entry ∈ entries, entry.id.cmp key ≠ .eq

theorem mem_insertIdx_nodeIndex {entries : List (NodeEntry V)} {entry other : NodeEntry V}
    : other ∈ entries.insertIdx (nodeIndex entries entry.id) entry
      ↔ other = entry ∨ other ∈ entries :=
  List.mem_insertIdx (Py.lowerBound_le entry.id entries)

/-- Inserting a new identity keeps the stores in step: a sorted list is determined by its
members.
-/
theorem NodeStores.insertNode {registry : Registry V} (stores : NodeStores registry)
    {entry : NodeEntry V} (same : SameStrategy registry.byVersions entry.id)
    (absent : Absent registry.byVersions entry.id)
    : NodeStores (registry.insertNode entry) := by
  have sorted : SortedNodes (registry.insertNode entry).byVersions :=
    stores.sorted.insertIdx absent
  refine ⟨sorted, ?_, ?_⟩
  · intro left inLeft right inRight
    simp only [Registry.insertNode, mem_insertIdx_nodeIndex] at inLeft inRight
    rcases inLeft with rfl | inLeft <;> rcases inRight with rfl | inRight
    · rfl
    · exact same right inRight
    · exact (same left inLeft).symm
    · exact stores.uniform left inLeft right inRight
  · intro kind
    by_cases own : kind = entry.kind
    · subst own
      have sortedKind : SortedNodes ((registry.insertNode entry).kindEntries entry.kind) := by
        simp only [Registry.insertNode, Registry.kindEntries, Py.Dict.getD_set, if_true]
        refine (stores.sortedKind entry.kind).insertIdx ?_
        intro other member
        rw [stores.grouped] at member
        exact absent other (List.mem_of_mem_filter member)
      refine sortedKind.eq_of_mem (sorted.filter _) ?_
      intro other
      simp only [Registry.insertNode, Registry.kindEntries, Py.Dict.getD_set, if_true,
        mem_insertIdx_nodeIndex, List.mem_filter, decide_eq_true_eq]
      have old := stores.grouped entry.kind
      rw [Registry.kindEntries] at old
      rw [old, List.mem_filter, decide_eq_true_eq]
      constructor
      · rintro (rfl | ⟨member, kind⟩)
        · exact ⟨.inl rfl, rfl⟩
        · exact ⟨.inr member, kind⟩
      · rintro ⟨rfl | member, kind⟩
        · exact .inl rfl
        · exact .inr ⟨member, kind⟩
    · have old := stores.grouped kind
      rw [Registry.kindEntries] at old
      simp only [Registry.insertNode, Registry.kindEntries, Py.Dict.getD_set, if_neg own, old]
      refine (stores.sorted.filter _).eq_of_mem (sorted.filter _) ?_
      intro other
      simp only [List.mem_filter, mem_insertIdx_nodeIndex, decide_eq_true_eq]
      constructor
      · rintro ⟨member, kind⟩
        exact ⟨.inr member, kind⟩
      · rintro ⟨rfl | member, kind⟩
        · exact (own kind.symm).elim
        · exact ⟨member, kind⟩

/-- Erasing an identity keeps the stores in step, since both lists lose the same entry. -/
theorem NodeStores.eraseNode {registry : Registry V} (stores : NodeStores registry)
    (entry : NodeEntry V)
    : NodeStores (registry.eraseNode entry) := by
  refine ⟨stores.sorted.filter _, ?_, ?_⟩
  · intro left inLeft right inRight
    exact stores.uniform left (List.mem_of_mem_filter inLeft) right
      (List.mem_of_mem_filter inRight)
  · intro kind
    have old := stores.grouped kind
    rw [Registry.kindEntries] at old
    by_cases own : kind = entry.kind
    · subst own
      simp only [Registry.eraseNode, Registry.kindEntries, Py.Dict.getD_set, if_true, old,
        List.filter_filter, Bool.and_comm]
    · simp only [Registry.eraseNode, Registry.kindEntries, Py.Dict.getD_set, if_neg own, old,
        List.filter_filter]
      refine List.filter_congr ?_
      intro stored member
      by_cases kind : stored.kind = kind
      · have differs : stored.id.cmp entry.id ≠ .eq := by
          intro same
          exact own (kind ▸ (NodeId.cmp_eq_iff.mp same).2.1)
        simp [differs]
      · simp [kind]

theorem absent_iff_find? {entries : List (NodeEntry V)} {key : NodeId V}
    : Absent entries key ↔ entries.find? (fun entry => entry.id.cmp key == .eq) = none := by
  simp [Absent, List.find?_eq_none]

theorem filter_of_absent {entries : List (NodeEntry V)} {key : NodeId V}
    (absent : Absent entries key)
    : entries.filter (fun entry => !(entry.id.cmp key == .eq)) = entries := by
  rw [List.filter_eq_self]
  intro entry member
  simp [absent entry member]

/-- Deleting at the index of a stored identity drops exactly that identity. -/
theorem eraseIdx_nodeIndex {entries : List (NodeEntry V)} {key : NodeId V}
    (sorted : SortedNodes entries) {found : NodeEntry V}
    (hit : entries.find? (fun entry => entry.id.cmp key == .eq) = some found)
    : entries.eraseIdx (nodeIndex entries key)
      = entries.filter (fun entry => !(entry.id.cmp key == .eq)) :=
  sorted.eraseIdx_of_find? hit

theorem NodeStores.kind_find? {registry : Registry V} (stores : NodeStores registry)
    (key : NodeId V)
    : (registry.kindEntries key.kind).find? (fun entry => entry.id.cmp key == .eq)
      = registry.byVersions.find? (fun entry => entry.id.cmp key == .eq) := by
  rw [stores.grouped, List.find?_filter]
  congr 1
  funext entry
  cases order : entry.id.cmp key == .eq with
  | false => simp
  | true =>
      have kind := (NodeId.cmp_eq_iff.mp (by simpa using order)).2.1
      simp [NodeEntry.kind, kind]

theorem NodeStores.of_nodeView {before after : Registry V}
    (stores : NodeStores before) (same : after.nodeView = before.nodeView)
    : NodeStores after := by
  obtain ⟨versions, kinds, _⟩ := NodeView.mk.inj same
  refine ⟨versions ▸ stores.sorted, versions ▸ stores.uniform, ?_⟩
  intro kind
  rw [congrFun kinds kind, versions, stores.grouped]

theorem nodeStores_new (nameSpace : String) (indexDigests : Bool)
    : NodeStores (Registry.new nameSpace indexDigests : Registry V) :=
  ⟨List.Pairwise.nil, fun _ member => (List.not_mem_nil member).elim, fun _ => rfl⟩

/-- A program that keeps the node stores keeps their agreement. -/
theorem nodeStores_of_keeps {α : Type} {program : RegistryM V α}
    (kept : Py.Keeps Registry.nodeView program)
    : Py.Preserves NodeStores program :=
  kept.preserves (fun _ _ same stores => stores.of_nodeView same)

-----------------------------------------------------------------------------------------
-- What lookups return
-----------------------------------------------------------------------------------------

/-- A hydrated version of the kind. -/
def Registry.Hydrated (registry : Registry V) (kind : ModelKind) (node : VersionNode V) : Prop :=
  NodeEntry.versionNode node ∈ registry.byVersions ∧ node.id.kind = kind

theorem NodeStores.mem_kindVersions {registry : Registry V} (stores : NodeStores registry)
    {kind : ModelKind} {node : VersionNode V}
    : node ∈ registry.kindVersions kind ↔ registry.Hydrated kind node := by
  simp only [Registry.kindVersions, List.mem_filterMap, stores.grouped, List.mem_filter,
    decide_eq_true_eq, Registry.Hydrated]
  constructor
  · rintro ⟨entry, ⟨member, rfl⟩, isNode⟩
    cases entry with
    | versionKey id => cases isNode
    | versionNode stored =>
        obtain rfl : stored = node := Option.some.inj isNode
        exact ⟨member, rfl⟩
  · rintro ⟨member, rfl⟩
    exact ⟨.versionNode node, ⟨member, rfl⟩, rfl⟩

theorem NodeStores.sorted_kindVersions {registry : Registry V} (stores : NodeStores registry)
    (kind : ModelKind)
    : Py.SortedBy VersionNode.id NodeId.cmp (registry.kindVersions kind) := by
  unfold Registry.kindVersions Py.SortedBy
  rw [List.pairwise_filterMap]
  refine (stores.sortedKind kind).imp ?_
  intro left right lt leftNode isLeft rightNode isRight
  cases left <;> cases right <;> simp_all [NodeEntry.node?, NodeEntry.id]

/-- A lookup returns an entry exactly if the entry is stored and equals the key. -/
theorem NodeStores.findEntry_eq_some {registry : Registry V} (stores : NodeStores registry)
    {key : NodeId V} {entry : NodeEntry V}
    : registry.findEntry key = .ok (some entry)
      ↔ entry ∈ registry.byVersions ∧ entry.id.eq key = .ok true := by
  constructor
  · intro found
    have same := sameStrategy_of_findNode stores.uniform found
    rw [Registry.findEntry, findNode_eq stores.sorted same] at found
    obtain ⟨member, equal⟩ := stores.sorted.find?_eq_some.mp (Except.ok.inj found)
    refine ⟨member, ?_⟩
    rw [NodeId.eq, if_pos (same entry member), equal]
    rfl
  · rintro ⟨member, equal⟩
    have strategy : entry.id.strategy = key.strategy := by
      by_contra mixed
      rw [NodeId.eq, if_neg mixed] at equal
      cases equal
    have same : SameStrategy registry.byVersions key := by
      intro other inStore
      rw [stores.uniform entry member other inStore, strategy]
    rw [NodeId.eq, if_pos strategy] at equal
    rw [Registry.findEntry, findNode_eq stores.sorted same]
    exact congrArg Except.ok
      (stores.sorted.find?_eq_some.mpr ⟨member, by simpa using Except.ok.inj equal⟩)

/-- Nodes of one kind and namespace are ordered by the precedence of their versions. -/
theorem NodeId.version_lt {left right : NodeId V} (lt : left.cmp right = .lt)
    (sameNamespace : left.nameSpace = right.nameSpace) (sameKind : left.kind = right.kind)
    : VersionValue.cmp left.version right.version = .lt := by
  simpa [NodeId.cmp, compareLex, compareOn, sameNamespace, sameKind,
    Std.ReflCmp.compare_self] using lt

/-- The greatest hydrated version of a kind. -/
def Registry.IsLatest (registry : Registry V) (kind : ModelKind) (node : VersionNode V) : Prop :=
  registry.Hydrated kind node
    ∧ ∀ other, registry.Hydrated kind other → other ≠ node → other.id.cmp node.id = .lt

/-- The least hydrated version of a kind. -/
def Registry.IsEarliest (registry : Registry V) (kind : ModelKind) (node : VersionNode V)
    : Prop :=
  registry.Hydrated kind node
    ∧ ∀ other, registry.Hydrated kind other → other ≠ node → node.id.cmp other.id = .lt

/-- The order of the node stores and what lookups find because of it. -/
structure Registry.NodeOrder (registry : Registry V) : Prop where
  increasing : registry.byVersions.Pairwise (fun left right => left.id.cmp right.id = .lt)
  distinct : ∀ left ∈ registry.byVersions, ∀ right ∈ registry.byVersions,
    left.id.eq right.id = .ok true → left = right
  oneStrategy : ∀ left ∈ registry.byVersions, ∀ right ∈ registry.byVersions,
    left.id.strategy = right.id.strategy
  sublists : ∀ kind, registry.byKinds.getD kind []
    = registry.byVersions.filter (fun entry => entry.kind = kind)
  lookup : ∀ key entry, registry.findEntry key = .ok (some entry)
    ↔ entry ∈ registry.byVersions ∧ entry.id.eq key = .ok true
  latest : ∀ kind node, registry.latest kind = .ok node ↔ registry.IsLatest kind node
  latestExists : ∀ kind, (∃ node, registry.latest kind = .ok node)
    ↔ ∃ node, registry.Hydrated kind node
  latestVersion : ∀ kind node, registry.latest kind = .ok node →
    ∀ other, registry.Hydrated kind other → other ≠ node →
      other.id.nameSpace = node.id.nameSpace →
      VersionValue.cmp other.id.version node.id.version = .lt
  earliest : ∀ kind node, registry.earliest kind = .ok node ↔ registry.IsEarliest kind node
  earliestExists : ∀ kind, (∃ node, registry.earliest kind = .ok node)
    ↔ ∃ node, registry.Hydrated kind node
  earliestVersion : ∀ kind node, registry.earliest kind = .ok node →
    ∀ other, registry.Hydrated kind other → other ≠ node →
      other.id.nameSpace = node.id.nameSpace →
      VersionValue.cmp node.id.version other.id.version = .lt

theorem NodeStores.latest_eq_ok {registry : Registry V} (stores : NodeStores registry)
    {kind : ModelKind} {node : VersionNode V}
    : registry.latest kind = .ok node ↔ registry.IsLatest kind node := by
  have last : (registry.kindVersions kind).getLast? = some node ↔ _ :=
    (stores.sorted_kindVersions kind).getLast?_eq_some
  simp only [stores.mem_kindVersions] at last
  rw [Registry.IsLatest, ← last, Registry.latest]
  cases (registry.kindVersions kind).getLast? <;> simp

theorem NodeStores.earliest_eq_ok {registry : Registry V} (stores : NodeStores registry)
    {kind : ModelKind} {node : VersionNode V}
    : registry.earliest kind = .ok node ↔ registry.IsEarliest kind node := by
  have first : (registry.kindVersions kind).head? = some node ↔ _ :=
    (stores.sorted_kindVersions kind).head?_eq_some
  simp only [stores.mem_kindVersions] at first
  rw [Registry.IsEarliest, ← first, Registry.earliest]
  cases (registry.kindVersions kind).head? <;> simp

theorem NodeStores.exists_latest {registry : Registry V} (stores : NodeStores registry)
    (kind : ModelKind)
    : (∃ node, registry.latest kind = .ok node) ↔ ∃ node, registry.Hydrated kind node := by
  simp only [← stores.mem_kindVersions, Registry.latest]
  cases registry.kindVersions kind with
  | nil => simp
  | cons head rest =>
      have some := List.getLast?_eq_some_getLast (List.cons_ne_nil head rest)
      simp only [some, Except.ok.injEq, exists_eq', true_iff]
      exact ⟨head, by simp⟩

theorem NodeStores.exists_earliest {registry : Registry V} (stores : NodeStores registry)
    (kind : ModelKind)
    : (∃ node, registry.earliest kind = .ok node) ↔ ∃ node, registry.Hydrated kind node := by
  simp only [← stores.mem_kindVersions, Registry.earliest]
  cases registry.kindVersions kind with
  | nil => simp
  | cons head rest => exact ⟨fun _ => ⟨head, by simp⟩, fun _ => ⟨head, rfl⟩⟩

-----------------------------------------------------------------------------------------
-- What the operations do to the stores
-----------------------------------------------------------------------------------------

variable [DecidableEq V]

/-- Storing a new identity is one edit of the stores followed by a health refresh. -/
theorem store_eq (config : Config V F) {registry : Registry V} (stores : NodeStores registry)
    {entry : NodeEntry V} (same : SameStrategy registry.byVersions entry.id)
    (absent : Absent registry.byVersions entry.id)
    : Registry.store config entry registry
      = (do
          refreshHealth config.linters (affectedByNodeChange (registry.insertNode entry) entry)
          return entry : RegistryM V (NodeEntry V)) (registry.insertNode entry) := by
  have search := findNode_eq stores.sorted same
  rw [absent_iff_find?.mp absent] at search
  have versionIndex := bisectNodes_eq stores.sorted same
  have kindIndex := bisectNodes_eq (stores.sortedKind entry.kind)
    (same.kindEntries stores entry.kind)
  unfold Registry.kindEntries at kindIndex
  simp only [Registry.store, Registry.findEntry, Registry.touchKind, Py.bind_apply,
    Py.query_apply, Py.modify_apply, Py.pure_apply, search, Option.isSome_none, Bool.false_eq_true,
    if_false, versionIndex, Registry.kindEntries, Registry.setKindEntries,
    Py.Dict.getD_setDefault, kindIndex, Py.Dict.set_setDefault]
  cases entry <;> rfl

/-- Removing an entry is one edit of the stores followed by a health refresh. -/
theorem removeEntry_eq (config : Config V F) {registry : Registry V} (stores : NodeStores registry)
    {entry : NodeEntry V} (same : SameStrategy registry.byVersions entry.id)
    : Registry.removeEntry config entry registry
      = refreshHealth config.linters
          ((affectedByNodeChange registry entry).filter
            (fun entity => entity.id ≠ .node entry.id))
          { registry.eraseNode entry with
            health := registry.health.dropEntity (.node (.versioned entry)) } := by
  have search := findNode_eq stores.sorted same
  have versionIndex := bisectNodes_eq stores.sorted same
  have kindSearch := findNode_eq (stores.sortedKind entry.kind)
    (same.kindEntries stores entry.kind)
  have kindIndex := bisectNodes_eq (stores.sortedKind entry.kind)
    (same.kindEntries stores entry.kind)
  have sameSearch := stores.kind_find? entry.id
  have sortedKind := stores.sortedKind entry.kind
  unfold Registry.kindEntries at kindIndex kindSearch sameSearch sortedKind
  change _ = Except.ok ((registry.byKinds.getD entry.id.kind []).find? _) at kindSearch
  rw [sameSearch] at kindSearch
  cases found : registry.byVersions.find? (fun stored => stored.id.cmp entry.id == .eq) with
  | none =>
      rw [found] at search kindSearch sameSearch
      have keptAll := filter_of_absent (absent_iff_find?.mpr found)
      have keptKind := filter_of_absent (absent_iff_find?.mpr sameSearch)
      simp only [Registry.removeEntry, Registry.touchKind, Py.bind_apply,
        Py.query_apply, Py.modify_apply, search, Option.isSome_none, Bool.false_eq_true,
        if_false, Registry.kindEntries, Py.Dict.getD_setDefault, kindSearch, modifyHealth]
      have untouched : registry.byKinds.set entry.id.kind ((registry.byKinds.getD entry.id.kind
          []).filter (fun stored => !(stored.id.cmp entry.id == .eq)))
          = registry.byKinds.setDefault entry.id.kind [] := by
        rw [keptKind, Py.Dict.set_getD]
      simp only [Registry.eraseNode, keptAll, Registry.kindEntries, NodeEntry.kind, untouched]
      cases entry <;> rfl
  | some stored =>
      rw [found] at search kindSearch sameSearch
      simp only [Registry.removeEntry, Registry.touchKind, Py.bind_apply,
        Py.query_apply, Py.modify_apply, search, Option.isSome_some,
        if_true, versionIndex, Registry.kindEntries, Registry.setKindEntries,
        Py.Dict.getD_setDefault, kindIndex, Py.Dict.set_setDefault, kindSearch, modifyHealth,
        eraseIdx_nodeIndex stores.sorted found, eraseIdx_nodeIndex sortedKind sameSearch]
      cases entry <;> rfl

/-- Removing a registered version that no executable edge touches is the same edit. -/
theorem removeModel_eq (config : Config V F) {registry : Registry V} (stores : NodeStores registry)
    {key : NodeId V} (same : SameStrategy registry.byVersions key) {version : NodeEntry V}
    (found : registry.byVersions.find? (fun entry => entry.id.cmp key == .eq) = some version)
    (free : registry.migrationsOf key = [])
    : Registry.removeModel config key registry
      = refreshHealth config.linters
          ((affectedByNodeChange registry version).filter
            (fun entity => entity.id ≠ .node version.id))
          { registry.eraseNode version with
            health := registry.health.dropEntity (.node (.versioned version)) } := by
  have search := findNode_eq stores.sorted same
  have versionIndex := bisectNodes_eq stores.sorted same
  have kindIndex := bisectNodes_eq (stores.sortedKind key.kind)
    (same.kindEntries stores key.kind)
  have sameSearch := stores.kind_find? key
  have sortedKind := stores.sortedKind key.kind
  unfold Registry.kindEntries at kindIndex sameSearch sortedKind
  rw [found] at search sameSearch
  have equal : version.id.cmp key = .eq := by simpa using List.find?_some found
  have sameKey : ∀ stored : NodeEntry V,
      (stored.id.cmp version.id == .eq) = (stored.id.cmp key == .eq) := fun stored => by
    rw [Std.TransCmp.congr_right equal]
  have sameKind : version.kind = key.kind := (NodeId.cmp_eq_iff.mp equal).2.1
  simp only [Registry.migrationsOf, Registry.edgesOf] at free
  simp only [Registry.removeModel, Registry.touchKind, Py.bind_apply, Py.query_apply,
    Py.modify_apply, search, Registry.migrationsOf, Registry.edgesOf, versionIndex,
    Registry.kindEntries, Registry.setKindEntries, Py.Dict.getD_setDefault, kindIndex,
    Py.Dict.set_setDefault, modifyHealth, free, List.isEmpty_nil, Bool.not_true,
    Bool.false_eq_true, if_false, Registry.eraseNode, sameKey, sameKind,
    ← eraseIdx_nodeIndex stores.sorted found, ← eraseIdx_nodeIndex sortedKind sameSearch]
  cases version <;> rfl

-----------------------------------------------------------------------------------------
-- Every operation keeps the stores in step
-----------------------------------------------------------------------------------------

/-- A new identity that can be compared is stored; any other is refused without a write. -/
theorem store_cases (config : Config V F) (entry : NodeEntry V) {registry : Registry V}
    (stores : NodeStores registry)
    : registry.findEntry entry.id = .ok none
          ∧ SameStrategy registry.byVersions entry.id ∧ Absent registry.byVersions entry.id
      ∨ registry.findEntry entry.id ≠ .ok none
          ∧ ∃ error, Registry.store config entry registry = .error error registry := by
  cases search : registry.findEntry entry.id with
  | error raised =>
      refine .inr ⟨by simp, raised, ?_⟩
      simp only [Registry.store, Py.bind_apply, Py.query_apply, search]
  | ok found =>
      have same := sameStrategy_of_findNode stores.uniform search
      cases found with
      | some existing =>
          refine .inr ⟨by simp, .modelAlreadyRegistered registry.nameSpace entry.id, ?_⟩
          simp only [Registry.store, Py.bind_apply, Py.query_apply, search, Option.isSome_some,
            if_true, Py.throw_apply]
      | none =>
          rw [Registry.findEntry, findNode_eq stores.sorted same] at search
          exact .inl ⟨rfl, same, absent_iff_find?.mpr (Except.ok.inj search)⟩

/-- What storing does to the node stores: nothing, or the insertion of a new identity. -/
theorem store_nodeView (config : Config V F) (entry : NodeEntry V) {registry : Registry V}
    (stores : NodeStores registry)
    : (Py.after (Registry.store config entry) registry).nodeView = registry.nodeView
      ∨ SameStrategy registry.byVersions entry.id ∧ Absent registry.byVersions entry.id
        ∧ (Py.after (Registry.store config entry) registry).nodeView
          = (registry.insertNode entry).nodeView := by
  rcases store_cases config entry stores with ⟨_, same, absent⟩ | ⟨_, error, run⟩
  · rw [Py.after_eq (store_eq config stores same absent)]
    refine .inr ⟨same, absent, ?_⟩
    have kept : Py.Keeps Registry.nodeView (do
        refreshHealth config.linters (affectedByNodeChange (registry.insertNode entry) entry)
        return entry : RegistryM V (NodeEntry V)) :=
      .bind (refreshHealth_keepsNodes _ _) (fun _ => .pure _ _)
    exact kept _
  · rw [Py.after_of_error run]
    exact .inl rfl

/-- What removing an entry does to the node stores: nothing if the entry cannot be compared,
else the identity is erased.
-/
theorem removeEntry_nodeView (config : Config V F) (entry : NodeEntry V) {registry : Registry V}
    (stores : NodeStores registry)
    : (Py.after (Registry.removeEntry config entry) registry).nodeView = registry.nodeView
      ∨ (Py.after (Registry.removeEntry config entry) registry).nodeView
        = (registry.eraseNode entry).nodeView := by
  cases search : findNode registry.byVersions entry.id with
  | error raised =>
      have run : Registry.removeEntry config entry registry = .error raised registry := by
        simp only [Registry.removeEntry, Py.bind_apply, Py.query_apply, search]
      rw [Py.after_of_error run]
      exact .inl rfl
  | ok found =>
      have same := sameStrategy_of_findNode stores.uniform search
      rw [Py.after_eq (removeEntry_eq config stores same)]
      exact .inr (refreshHealth_keepsNodes _ _ _)

theorem store_nodeStores (config : Config V F) (entry : NodeEntry V)
    : Py.Preserves NodeStores (Registry.store config entry) := by
  intro registry stores
  rcases store_nodeView config entry stores with kept | ⟨same, absent, inserted⟩
  · exact stores.of_nodeView kept
  · exact (stores.insertNode same absent).of_nodeView inserted

theorem removeEntry_nodeStores (config : Config V F) (entry : NodeEntry V)
    : Py.Preserves NodeStores (Registry.removeEntry config entry) := by
  intro registry stores
  rcases removeEntry_nodeView config entry stores with kept | erased
  · exact stores.of_nodeView kept
  · exact (stores.eraseNode entry).of_nodeView erased

theorem reconcile_nodeStores (config : Config V F) (entry : NodeEntry V)
    : Py.Preserves NodeStores (Registry.reconcile config entry) := by
  unfold Registry.reconcile
  refine .bind (.query _ _) (fun found => ?_)
  cases found with
  | none => exact store_nodeStores config entry
  | some existing =>
      refine .bind (.query _ _) (fun catalog => .ite _ (.throw_bind _ _ _) ?_)
      cases entry.reconcile existing with
      | none => exact .throw _ _
      | some resolved =>
          cases resolved with
          | existing => exact .pure _ _
          | self =>
              exact .bind (removeEntry_nodeStores config existing)
                (fun _ => store_nodeStores config entry)

theorem hydrate_nodeStores (config : Config V F) (entry : NodeEntry V)
    : Py.Preserves NodeStores (Registry.hydrate config entry) := by
  cases entry with
  | versionKey id => exact .throw _ _
  | versionNode node =>
      refine .bind (.query _ _) (fun found => ?_)
      cases found with
      | none => exact store_nodeStores config _
      | some existing =>
          refine .ite _ (reconcile_nodeStores config _) ?_
          exact .bind (removeEntry_nodeStores config existing)
            (fun _ => store_nodeStores config _)

/-- What removing a version does to the node stores: nothing, or a stored version that no
executable edge touches is erased. The indexes of the removal are computed before its checks,
but nothing moves the entries in between.
-/
theorem removeModel_nodeView (config : Config V F) (key : NodeId V) {registry : Registry V}
    (stores : NodeStores registry)
    : (Py.after (Registry.removeModel config key) registry).nodeView = registry.nodeView
      ∨ ∃ version ∈ registry.byVersions, version.id.cmp key = .eq
        ∧ registry.migrationsOf key = []
        ∧ (Py.after (Registry.removeModel config key) registry).nodeView
          = (registry.eraseNode version).nodeView := by
  cases search : bisectNodes registry.byVersions key with
  | error raised =>
      have run : Registry.removeModel config key registry = .error raised registry := by
        simp only [Registry.removeModel, Py.bind_apply, Py.query_apply, search]
      rw [Py.after_of_error run]
      exact .inl rfl
  | ok index =>
      have same := sameStrategy_of_bisectNodes stores.uniform search
      have kindIndex := bisectNodes_eq (stores.sortedKind key.kind)
        (same.kindEntries stores key.kind)
      have lookup := findNode_eq stores.sorted same
      have touched : ({ registry with byKinds := registry.byKinds.setDefault key.kind [] }
          : Registry V).nodeView = registry.nodeView := touchKind_keepsNodes key.kind registry
      unfold Registry.kindEntries at kindIndex
      cases found : registry.byVersions.find? (fun entry => entry.id.cmp key == .eq) with
      | none =>
          rw [found] at lookup
          simp only [Py.after, Registry.removeModel, Registry.touchKind, Py.bind_apply,
            Py.query_apply, Py.modify_apply, search, Registry.kindEntries,
            Py.Dict.getD_setDefault, kindIndex, lookup, Py.throw_apply]
          exact .inl touched
      | some version =>
          by_cases free : registry.migrationsOf key = []
          · rw [Py.after_eq (removeModel_eq config stores same found free)]
            refine .inr ⟨version, List.mem_of_find?_eq_some found, ?_, free,
              refreshHealth_keepsNodes _ _ _⟩
            simpa using List.find?_some found
          · rw [found] at lookup
            have blocked : (registry.migrationsOf key).isEmpty = false := by
              simpa using free
            simp only [Registry.migrationsOf, Registry.edgesOf] at blocked
            simp only [Py.after, Registry.removeModel, Registry.touchKind, Py.bind_apply,
              Py.query_apply, Py.modify_apply, search, Registry.kindEntries,
              Py.Dict.getD_setDefault, kindIndex, lookup, Registry.migrationsOf,
              Registry.edgesOf, blocked, Bool.not_false, if_true, Py.throw_apply]
            exact .inl touched

theorem removeModel_nodeStores (config : Config V F) (key : NodeId V)
    : Py.Preserves NodeStores (Registry.removeModel config key) := by
  intro registry stores
  rcases removeModel_nodeView config key stores with kept | ⟨version, _, _, _, erased⟩
  · exact stores.of_nodeView kept
  · exact (stores.eraseNode version).of_nodeView erased

theorem removeModelByRef_nodeStores (config : Config V F) (ref : ModelRef)
    : Py.Preserves NodeStores (Registry.removeModelByRef config ref) := by
  refine .bind (.query _ _) (fun found => ?_)
  cases found with
  | none => exact .bind (.query _ _) (fun _ => .throw _ _)
  | some node => exact removeModel_nodeStores config node.id

theorem clearModels_nodeStores (config : Config V F)
    : Py.Preserves NodeStores (Registry.clearModels config) := by
  unfold Registry.clearModels
  refine .bind (.query _ _) (fun _ => .ite _ (.bind (.query _ _) (fun _ => .throw_bind _ _ _)) ?_)
  refine .bind (.modify (fun registry _ => ?_)) (fun _ => ?_)
  · exact ⟨List.Pairwise.nil, fun _ member => (List.not_mem_nil member).elim, fun _ => rfl⟩
  · exact IgnoresHealth.rebuildHealth (fun _ _ stores => stores.of_nodeView rfl) _

section StoreMigration

-- Of a request's effects on the nodes, storing a reconstructed endpoint is the only one.
variable {Inv : Registry V → Prop} {config : Config V F}
  (stored : ∀ entry, Py.Preserves Inv (Registry.store config entry))
  (kept : ∀ {α : Type} {program : RegistryM V α}, Py.Keeps Registry.nodeView program →
    Py.Preserves Inv program)

include stored in
theorem resolveEndpoints_preserves (reflection : ReflectionPort V F) (spec : MigrationSpec V F)
    : Py.Preserves Inv (Registry.resolveEndpoints config reflection spec) := by
  have reconstruct : ∀ anchor missing, Py.Preserves Inv
      (Registry.reconstructEndpoint config reflection anchor missing spec.func) := by
    intro anchor missing
    unfold Registry.reconstructEndpoint
    refine .ite _ (.bind (.query _ _) (fun _ => .throw_bind _ _ _)) ?_
    refine .bind (.query _ _) (fun _ => .bind (.query _ _) (fun _ => ?_))
    exact .bind (stored _) (fun _ => .pure _ _)
  refine .bind (.query _ _) (fun source => .bind (.query _ _) (fun target => ?_))
  cases source <;> cases target
  · exact .bind (.query _ _) (fun _ => .throw _ _)
  · exact .bind (reconstruct _ _) (fun _ => .pure _ _)
  · exact .bind (reconstruct _ _) (fun _ => .pure _ _)
  · exact .pure _ _

include stored kept in
theorem reflectEdge_preserves (spec : MigrationSpec V F)
    : Py.Preserves Inv (Registry.reflectEdge config spec) := by
  refine .bind (.query _ _) (fun catalog => ?_)
  cases config.reflection with
  | none => exact .throw _ _
  | some reflection =>
      refine .ite _ (.throw_bind _ _ _) ?_
      refine .bind (resolveEndpoints_preserves stored reflection spec) (fun endpoints => ?_)
      refine .bind (.query _ _) (fun pair => ?_)
      refine .bind (kept (isAdjacent_keepsNodes _)) (fun adjacent => ?_)
      refine .ite _ (.throw_bind _ _ _) (.bind (.query _ _) (fun _ => ?_))
      refine .bind (.query _ _) (fun _ => ?_)
      split
      · split
        · exact .pure _ _
        · exact .throw _ _
      · exact .throw _ _

include stored kept in
theorem storeMigration_preserves (input : Registry.MigrationInput V F)
    : Py.Preserves Inv (Registry.storeMigration config input) := by
  have file := fun edge => kept (fileEdge_keepsNodes config edge)
  cases input with
  | spec spec => exact .bind (reflectEdge_preserves stored kept spec) (fun _ => file _)
  | edge edge =>
      cases edge with
      | edgeKey pair => exact file _
      | versionEdge edge =>
          refine .bind (.query _ _) (fun _ => .ite _ ?_ (file _))
          exact .bind (.query _ _) (fun _ => .throw_bind _ _ _)

end StoreMigration

theorem resolveEndpoints_nodeStores (config : Config V F) (reflection : ReflectionPort V F)
    (spec : MigrationSpec V F)
    : Py.Preserves NodeStores (Registry.resolveEndpoints config reflection spec) :=
  resolveEndpoints_preserves (store_nodeStores config) reflection spec

theorem storeMigration_nodeStores (config : Config V F) (input : Registry.MigrationInput V F)
    : Py.Preserves NodeStores (Registry.storeMigration config input) :=
  storeMigration_preserves (store_nodeStores config) nodeStores_of_keeps input

theorem deleteKind_nodeStores (config : Config V F) (kind : ModelKind)
    : Py.Preserves NodeStores (Registry.deleteKind config kind) := by
  refine deleteKind_preserves (fun versions edge => ?_) (removeModel_nodeStores config) kind
  exact removeOwnEdge_preserves (fun key => nodeStores_of_keeps (clearHooks_keepsNodes key))
    (nodeStores_of_keeps (removeMigration_keepsNodes config _)) versions

/-- Every operation keeps the node stores in step, also when it raises. -/
theorem Op.nodeStores (config : Config V F) (op : Op V F)
    : Py.Preserves NodeStores (op.run config) := by
  cases op with
  | store entry => exact .bind (store_nodeStores config entry) (fun _ => .pure _ _)
  | hydrate entry => exact .bind (hydrate_nodeStores config entry) (fun _ => .pure _ _)
  | reconcile entry => exact .bind (reconcile_nodeStores config entry) (fun _ => .pure _ _)
  | removeEntry entry => exact removeEntry_nodeStores config entry
  | removeModel key => exact removeModel_nodeStores config key
  | removeModelByRef ref => exact removeModelByRef_nodeStores config ref
  | clearModels => exact clearModels_nodeStores config
  | deleteKind kind => exact deleteKind_nodeStores config kind
  | storeMigration input =>
      exact .bind (storeMigration_nodeStores config input) (fun _ => .pure _ _)
  | removeMigration key => exact nodeStores_of_keeps (removeMigration_keepsNodes config key)
  | removeMigrationRange fromVersion toVersion =>
      exact nodeStores_of_keeps (removeMigrationRange_keepsNodes config fromVersion toVersion)
  | clearMigrations => exact nodeStores_of_keeps (clearMigrations_keepsNodes config)
  | addHook key hook => exact nodeStores_of_keeps (addHook_keepsNodes config key hook)
  | removeHook key hook => exact nodeStores_of_keeps (removeHook_keepsNodes config key hook)
  | clearHooks key => exact nodeStores_of_keeps (clearHooks_keepsNodes key)
  | isAdjacent key =>
      exact .bind (nodeStores_of_keeps (isAdjacent_keepsNodes key)) (fun _ => .pure _ _)
  | isCriticalEdge key =>
      exact .bind (nodeStores_of_keeps (isCriticalEdge_keepsNodes key)) (fun _ => .pure _ _)
  | hooks key => exact .bind (nodeStores_of_keeps (hooksAt_keepsNodes key)) (fun _ => .pure _ _)

theorem Reachable.nodeStores {config : Config V F} {registry : Registry V}
    (reached : Reachable config registry)
    : NodeStores registry := by
  induction reached with
  | new config nameSpace indexDigests _ => exact nodeStores_new nameSpace indexDigests
  | step op _ ih => exact op.nodeStores _ _ ih
  | copyFrom _ _ _ ih => exact ih.of_nodeView rfl

/-- Every reachable registry has ordered node stores, by induction over its run. -/
theorem Reachable.nodeOrder {config : Config V F} {registry : Registry V}
    (reached : Reachable config registry)
    : registry.NodeOrder := by
  have stores := reached.nodeStores
  refine {
    increasing := stores.sorted
    distinct := ?_
    oneStrategy := fun left inLeft right inRight => stores.uniform right inRight left inLeft
    sublists := stores.grouped
    lookup := fun _ _ => stores.findEntry_eq_some
    latest := fun _ _ => stores.latest_eq_ok
    latestExists := stores.exists_latest
    latestVersion := ?_
    earliest := fun _ _ => stores.earliest_eq_ok
    earliestExists := stores.exists_earliest
    earliestVersion := ?_
  }
  · intro left inLeft right inRight equal
    rw [NodeId.eq, if_pos (stores.uniform right inRight left inLeft)] at equal
    exact stores.sorted.eq_of_cmp_eq inLeft inRight (by simpa using Except.ok.inj equal)
  · intro kind node found other hydrated ne sameNamespace
    obtain ⟨own, greatest⟩ := stores.latest_eq_ok.mp found
    exact NodeId.version_lt (greatest other hydrated ne) sameNamespace
      (hydrated.2.trans own.2.symm)
  · intro kind node found other hydrated ne sameNamespace
    obtain ⟨own, least⟩ := stores.earliest_eq_ok.mp found
    exact NodeId.version_lt (least other hydrated ne) sameNamespace.symm
      (own.2.trans hydrated.2.symm)

/-- Witness: two releases stored in falling order, and the lookups they lead to. -/
theorem nodeOrder_userCatalog
    : let registry := Py.after ((Op.store (.versionNode (userNode 1 "UserV1"))).run plainConfig)
        (Py.after ((Op.store (.versionNode (userNode 2 "UserV2"))).run plainConfig)
          (Registry.new "default" false));
      registry.NodeOrder
        ∧ registry.byVersions
          = [.versionNode (userNode 1 "UserV1"), .versionNode (userNode 2 "UserV2")]
        ∧ registry.IsLatest "User" (userNode 2 "UserV2") := by
  intro registry
  have order : registry.NodeOrder :=
    Reachable.nodeOrder (.step _ (.step _ (.new plainConfig "default" false (by decide))))
  exact ⟨order, by decide, (order.latest "User" (userNode 2 "UserV2")).mp (by rfl)⟩

end Pyverge
