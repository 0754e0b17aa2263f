import Pyverge.Adapters.Projection
import Pyverge.Py.Lists
import Pyverge.Py.Rollback

/-! Starting a server twice: once a server has been synchronized and enriched, doing either again
changes nothing.
-/

namespace Pyverge

variable {V M F K H C S : Type} [DecidableEq V] [VersionValue V]

-----------------------------------------------------------------------------------------
-- Reconciling a registered node
-----------------------------------------------------------------------------------------

/-- The node, or one with its identity and its fields, is registered. -/
def Registry.Knows (registry : Registry V) (node : VersionNode V) : Prop :=
  ∃ existing, registry.findEntry node.id = .ok (some existing)
    ∧ (NodeEntry.versionNode node).reconcile existing = some .existing

omit [DecidableEq V] in
theorem Registry.Knows.mono {registry later : Registry V} {node : VersionNode V}
    (settled : registry.Knows node) (stores : NodeStores registry) (others : NodeStores later)
    (kept : ∀ entry ∈ registry.byVersions, entry ∈ later.byVersions)
    : later.Knows node := by
  obtain ⟨existing, found, same⟩ := settled
  obtain ⟨member, equal⟩ := stores.findEntry_eq_some.mp found
  exact ⟨existing, others.findEntry_eq_some.mpr ⟨kept existing member, equal⟩, same⟩

/-- Reconciling a settled node returns the registered one and writes nothing. -/
theorem Registry.Knows.reconcile {registry : Registry V} {node : VersionNode V}
    (settled : registry.Knows node) (config : Config V F)
    : ∃ existing, Registry.reconcile config (.versionNode node) registry
      = .ok existing registry := by
  obtain ⟨existing, found, same⟩ := settled
  have model : existing.isModel = true := by
    cases existing with
    | versionKey id => simp [NodeEntry.reconcile, NodeEntry.isModel] at same
    | versionNode stored => rfl
  have looked : registry.findEntry (NodeEntry.versionNode node).id = .ok (some existing) := found
  refine ⟨existing, ?_⟩
  simp only [Registry.reconcile, Py.bind_apply, Py.query_apply, looked, model, same, Bool.not_true,
    Bool.false_and, Bool.false_eq_true, if_false, Py.pure_apply]

/-- A node that has been reconciled is settled, and no entry has been lost. -/
theorem Registry.reconcile_settles {config : Config V F} {registry final : Registry V}
    {node : VersionNode V} {entry : NodeEntry V} (stores : NodeStores registry)
    (returned : Registry.reconcile config (.versionNode node) registry = .ok entry final)
    : final.Knows node ∧ NodeStores final
      ∧ ∀ stored ∈ registry.byVersions, stored ∈ final.byVersions := by
  have others : NodeStores final :=
    Py.after_of_ok returned ▸ reconcile_nodeStores config _ registry stores
  obtain ⟨found, looked, rest⟩ := Py.query_bind_ok.mp returned
  cases found with
  | none =>
      rcases store_cases config (.versionNode node) stores with
        ⟨_, same, absent⟩ | ⟨differs, _⟩
      case inr => exact absurd looked differs
      change Registry.store config (.versionNode node) registry = .ok entry final at rest
      rw [store_eq config stores same absent] at rest
      obtain ⟨_, refreshed, run, rest⟩ := Py.bind_ok.mp rest
      cases rest
      have inserted := refreshHealth_keepsNodes config.linters
        (affectedByNodeChange (registry.insertNode (.versionNode node)) (.versionNode node))
        (registry.insertNode (.versionNode node))
      rw [Py.after_of_ok run] at inserted
      have members : ∀ stored, stored ∈ final.byVersions
          ↔ stored = .versionNode node ∨ stored ∈ registry.byVersions := by
        intro stored
        have same : final.byVersions = (registry.insertNode (.versionNode node)).byVersions :=
          congrArg NodeView.byVersions inserted
        rw [same]
        exact mem_insertIdx_nodeIndex
      refine ⟨⟨.versionNode node, others.findEntry_eq_some.mpr ⟨(members _).mpr (.inl rfl), ?_⟩,
        ?_⟩, others, fun stored member => (members stored).mpr (.inr member)⟩
      · simp [NodeEntry.id, NodeId.eq, Std.ReflCmp.compare_self]
      · simp [NodeEntry.reconcile, NodeEntry.isModel, NodeEntry.fields]
  | some existing =>
      obtain ⟨catalog, _, rest⟩ := Py.query_bind_ok.mp rest
      simp only at rest
      split at rest
      case isTrue => cases rest
      case isFalse hydrated =>
        have model : existing.isModel = true := by simpa [NodeEntry.isModel] using hydrated
        cases same : (NodeEntry.versionNode node).reconcile existing with
        | none =>
            rw [same] at rest
            cases rest
        | some resolved =>
            rw [same] at rest
            cases resolved with
            | existing =>
                cases rest
                exact ⟨⟨_, looked, same⟩, others, fun _ member => member⟩
            | self =>
                simp only [NodeEntry.reconcile, model, Bool.not_true, Bool.false_eq_true,
                  if_false] at same
                split at same <;> cases same

namespace Fastmcp

-----------------------------------------------------------------------------------------
-- Listings
-----------------------------------------------------------------------------------------

/-- Whether a component does not stand for the version. -/
def ComponentKind.apart (family : ComponentKind V C H S) (key : EntranceKey) (component : C) : Bool :=
  match family.version component with
  | none => true
  | some version => (family.kind component, version) ≠ key

/-- The families have names of their own, creating a component changes no listing apart from the
components of its own version, and the transforms of the provider hide nothing.
-/
structure ProviderSetup.ListsApart (setup : ProviderSetup V M F K H C S) : Prop where
  distinct : (setup.kinds.map ComponentKind.name).Nodup
  created : ∀ source ∈ setup.kinds, ∀ family ∈ setup.kinds,
    ∀ (virtual : VirtualComponent H) server next, virtual.kind ≠ "" →
    source.materialize virtual server = .ok next →
    (family.components next).filter (family.apart virtual.key)
      = (family.components server).filter (family.apart virtual.key)
  transformed : ∀ family ∈ setup.kinds, ∀ server,
    family.components (setup.transform server) = family.components server

namespace Provider

variable {setup : ProviderSetup V M F K H C S} {provider : Provider V F K H S}

/-- The components of all families with their families, in the order of a synchronization. -/
def listing (setup : ProviderSetup V M F K H C S) (server : S)
    : List (ComponentKind V C H S × C) :=
  setup.kinds.flatMap (fun family => (family.components server).map (Prod.mk family))

/-- One visit of a synchronization. -/
def visit (setup : ProviderSetup V M F K H C S) (pair : ComponentKind V C H S × C)
    : ProviderM V F K H S PUnit :=
  syncComponent setup pair.1 pair.2

/-- The entrances that were registered on the provider. -/
def explicitEntrances (entrances : Py.Dict EntranceKey (Entrance H))
    : Py.Dict EntranceKey (Entrance H) :=
  Py.Dict.ofItems (entrances.items.filter (fun item => item.2.explicit))

/-- The state from which a synchronization visits the components. -/
def fresh (provider : Provider V F K H S) : Provider V F K H S :=
  { provider with entrances := explicitEntrances provider.entrances }

theorem register_keeps {α : Type} {view : Provider V F K H S → α}
    (spared : ∀ provider stores, view { provider with stores } = view provider)
    (entrance : Entrance H)
    : Py.Keeps view (register setup entrance) := by
  refine .bind (.query _ _) (fun version provider => ?_)
  rw [after_onStores]
  exact spared _ _

theorem visit_keeps {α : Type} {view : Provider V F K H S → α}
    (stores : ∀ provider stores, view { provider with stores } = view provider)
    (entrances : ∀ provider entrances, view { provider with entrances } = view provider)
    (pair : ComponentKind V C H S × C)
    : Py.Keeps view (visit setup pair) := by
  unfold visit syncComponent
  cases pair.1.version pair.2 with
  | none => exact .pure _ _
  | some version =>
      refine .bind (.query _ _) (fun covered => .ite _ (.pure _ _) ?_)
      refine .bind (.query _ _) (fun family => .bind (.query _ _) (fun made => ?_))
      cases made with
      | none => exact .pure _ _
      | some entrance =>
          refine .bind (fun provider => ?_) (fun _ => register_keeps stores entrance)
          rcases storeEntrance_cases entrance provider with ⟨error, run⟩ | ⟨_, run⟩
          · rw [Py.after_of_error run]
          · rw [Py.after_of_ok run]
            exact entrances _ _

/-- A synchronization visits what the server lists at its start. -/
theorem sync_eq
    : sync setup provider
      = (listing setup provider.server).forM (visit setup) provider.fresh := by
  have unread : ∀ pair (family : ComponentKind V C H S),
      Py.Keeps (fun provider => family.components provider.server) (visit setup pair) :=
    fun pair family => visit_keeps (fun _ _ => rfl) (fun _ _ => rfl) pair
  have loops : setup.kinds.forM (Py.visitAll _ Prod.mk (visit setup)) provider.fresh
      = (setup.kinds.flatMap (fun family =>
          (family.components provider.server).map (Prod.mk family))).forM
        (visit setup) provider.fresh :=
    Py.forM_visitAll unread setup.kinds provider.fresh
  exact loops

-----------------------------------------------------------------------------------------
-- One visit
-----------------------------------------------------------------------------------------

omit [DecidableEq V] [VersionValue V] in
theorem source_of_mem (distinct : (setup.kinds.map ComponentKind.name).Nodup)
    {family : ComponentKind V C H S} (member : family ∈ setup.kinds)
    : setup.source family.name = .ok family := by
  have found : (Py.Dict.indexBy ComponentKind.name setup.kinds).get? family.name = some family :=
    (Py.Dict.get?_indexBy (fun _ left _ right same =>
      List.inj_on_of_nodup_map distinct left right same)).mpr ⟨member, rfl⟩
  rw [ProviderSetup.source, found]

/-- A version is registered if the registry reconciles it. -/
theorem register_ok {entrance : Entrance H} {final : Provider V F K H S} {value : PUnit}
    : register setup entrance provider = .ok value final
      ↔ ∃ node entry registry, setup.versionableFromSchema entrance = .ok node
        ∧ Registry.reconcile setup.manager.config (.versionNode node) provider.registry
          = .ok entry registry
        ∧ final = { provider with stores := { provider.stores with registry } } := by
  unfold register
  rw [Py.query_bind_ok]
  refine exists_congr (fun node => ?_)
  simp only [exists_and_left]
  refine and_congr_right (fun _ => ?_)
  simp only [onStores, Manager.onRegistry, Py.zoom, Py.bind_apply, Provider.registry]
  cases Registry.reconcile setup.manager.config (.versionNode node) provider.stores.registry with
  | ok entry registry => simp [Py.pure_apply, eq_comm]
  | error error registry => simp

/-- What a visit of a component enters: its entrance, and its version in the registry. -/
structure Enters (setup : ProviderSetup V M F K H C S) (pair : ComponentKind V C H S × C)
    (entrance : Entrance H) (node : VersionNode V) (provider final : Provider V F K H S)
    : Prop where
  made : pair.1.entrance setup.printable pair.2
    (setup.fallback (pair.1.kind pair.2) false) false = .ok (some entrance)
  described : setup.versionableFromSchema entrance = .ok node
  uncovered : provider.covers entrance.key = false
  governs : Governs provider.entrances entrance.kind entrance.policy
  reconciled : ∃ entry registry, Registry.reconcile setup.manager.config (.versionNode node)
      provider.registry = .ok entry registry
    ∧ final = { provider with
        stores := { provider.stores with registry }
        entrances := provider.entrances.set entrance.key entrance }

/-- The key under which a component is visited. -/
def keyOf (pair : ComponentKind V C H S × C) : Option EntranceKey :=
  (pair.1.version pair.2).map (Prod.mk (pair.1.kind pair.2))

/-- The visit of a component without a version, or of a covered one, changes nothing. -/
theorem visit_covered {pair : ComponentKind V C H S × C}
    (covered : ∀ key, keyOf pair = some key → provider.covers key = true)
    : visit setup pair provider = .ok ⟨⟩ provider := by
  unfold visit syncComponent
  cases versioned : pair.1.version pair.2 with
  | none => rfl
  | some version =>
      have covers : provider.covers (pair.1.kind pair.2, version) = true :=
        covered _ (by rw [keyOf, versioned, Option.map_some])
      simp only [Py.query_bind_eq, covers, if_true, Py.pure_apply]

omit [DecidableEq V] [VersionValue V] in
theorem covered_or_uncovered (pair : ComponentKind V C H S × C) (provider : Provider V F K H S)
    : (∀ key, keyOf pair = some key → provider.covers key = true)
      ∨ ∃ key, keyOf pair = some key ∧ provider.covers key = false := by
  cases keyed : keyOf pair with
  | none => exact .inl (fun key isKey => by cases isKey)
  | some key =>
      cases covers : provider.covers key with
      | true =>
          refine .inl (fun other isKey => ?_)
          cases isKey
          exact covers
      | false => exact .inr ⟨key, rfl, covers⟩

/-- Any other visit that returns enters the component. -/
theorem visit_ok (distinct : (setup.kinds.map ComponentKind.name).Nodup)
    {pair : ComponentKind V C H S × C} (member : pair.1 ∈ setup.kinds) {key : EntranceKey}
    (keyed : keyOf pair = some key) (uncovered : provider.covers key = false)
    {final : Provider V F K H S}
    : visit setup pair provider = .ok ⟨⟩ final
      ↔ ∃ entrance node, entrance.key = key ∧ entrance.explicit = false
        ∧ Enters setup pair entrance node provider final := by
  obtain ⟨version, versioned, rfl⟩ := Option.map_eq_some_iff.mp keyed
  have shape : visit setup pair provider = add setup pair.2 pair.1.name false provider := by
    simp only [visit, syncComponent, versioned, Py.query_bind_eq, uncovered, Bool.false_eq_true,
      if_false]
  rw [shape, add, Py.query_bind_ok]
  simp only [source_of_mem distinct member, Except.ok.injEq, exists_eq_left', Py.query_bind_ok]
  constructor
  · rintro ⟨made, entered, rest⟩
    cases made with
    | none =>
        simp only [ComponentKind.entrance, versioned] at entered
        split at entered <;> cases entered
    | some entrance =>
        obtain ⟨_, sameKind, sameVersion, notExplicit⟩ := entrance_source entered
        obtain rfl : version = entrance.version := Option.some.inj (versioned.symm.trans sameVersion)
        have sameKey : entrance.key = (pair.1.kind pair.2, entrance.version) := by
          rw [Entrance.key, sameKind]
        obtain ⟨_, middle, stored, rest⟩ := Py.bind_ok.mp rest
        rcases storeEntrance_cases entrance provider with ⟨error, run⟩ | ⟨governs, run⟩
        · rw [run] at stored
          cases stored
        · rw [run] at stored
          cases stored
          obtain ⟨node, entry, registry, described, reconciled, rfl⟩ := register_ok.mp rest
          exact ⟨entrance, node, sameKey, notExplicit, entered, described, sameKey ▸ uncovered,
            governs, entry, registry, reconciled, rfl⟩
  · rintro ⟨entrance, node, _, _, enters⟩
    obtain ⟨entry, registry, reconciled, rfl⟩ := enters.reconciled
    exact ⟨some entrance, enters.made, Py.bind_ok.mpr ⟨⟨⟩, _,
      storeEntrance_of_governs enters.governs,
      register_ok.mpr ⟨node, entry, registry, enters.described, reconciled, rfl⟩⟩⟩

-----------------------------------------------------------------------------------------
-- A synchronization
-----------------------------------------------------------------------------------------

/-- What a synchronization keeps while it enters components. -/
structure Grows (provider final : Provider V F K H S) : Prop where
  frame : final = { provider with stores := final.stores, entrances := final.entrances }
  entered : ∀ key ∈ provider.entrances.keys, key ∈ final.entrances.keys
  explicit_ : final.entrances.items.filter (fun item => item.2.explicit)
    = provider.entrances.items.filter (fun item => item.2.explicit)
  stores : NodeStores final.registry
  members : ∀ entry ∈ provider.registry.byVersions, entry ∈ final.registry.byVersions

namespace Grows

variable {middle final : Provider V F K H S}

omit [DecidableEq V] in
theorem refl (stores : NodeStores provider.registry) : Grows provider provider :=
  ⟨rfl, fun _ member => member, rfl, stores, fun _ member => member⟩

omit [DecidableEq V] in
theorem trans (first : Grows provider middle) (second : Grows middle final)
    : Grows provider final where
  frame := by
    rw [second.frame, first.frame]
  entered := fun key member => second.entered key (first.entered key member)
  explicit_ := second.explicit_.trans first.explicit_
  stores := second.stores
  members := fun entry member => second.members entry (first.members entry member)

omit [DecidableEq V] in
theorem covers (grows : Grows provider final) {key : EntranceKey}
    (covered : provider.covers key = true)
    : final.covers key = true := by
  rw [Provider.covers, Bool.or_eq_true] at covered ⊢
  refine covered.imp (fun entered => ?_) (fun projected => ?_)
  · exact Py.Dict.contains_iff.mpr (grows.entered key (Py.Dict.contains_iff.mp entered))
  · rw [grows.frame]
    exact projected

omit [DecidableEq V] in
theorem settled (grows : Grows provider final) (stores : NodeStores provider.registry)
    {node : VersionNode V} (settled : provider.registry.Knows node)
    : final.registry.Knows node :=
  settled.mono stores grows.stores grows.members

end Grows

variable {final : Provider V F K H S}

theorem Enters.grows {pair : ComponentKind V C H S × C} {entrance : Entrance H}
    {node : VersionNode V} (enters : Enters setup pair entrance node provider final)
    (stores : NodeStores provider.registry) (notExplicit : entrance.explicit = false)
    : Grows provider final ∧ final.registry.Knows node := by
  obtain ⟨entry, registry, reconciled, rfl⟩ := enters.reconciled
  obtain ⟨settled, others, members⟩ := Registry.reconcile_settles stores reconciled
  have fresh : entrance.key ∉ provider.entrances.keys := by
    intro member
    have uncovered := enters.uncovered
    rw [Provider.covers, Py.Dict.contains_iff.mpr member] at uncovered
    cases uncovered
  refine ⟨⟨rfl, fun key member => Py.Dict.mem_keys_set.mpr (.inr member), ?_, others, members⟩,
    settled⟩
  rw [Py.Dict.items_set_of_not_mem fresh, List.filter_append, List.filter_singleton, notExplicit]
  simp

theorem visit_grows (distinct : (setup.kinds.map ComponentKind.name).Nodup)
    {pair : ComponentKind V C H S × C} (member : pair.1 ∈ setup.kinds)
    (stores : NodeStores provider.registry)
    (returned : visit setup pair provider = .ok ⟨⟩ final)
    : Grows provider final ∧ ∀ key, keyOf pair = some key → final.covers key = true := by
  rcases covered_or_uncovered pair provider with covered | ⟨key, keyed, uncovered⟩
  · rw [visit_covered covered] at returned
    cases returned
    exact ⟨.refl stores, covered⟩
  · obtain ⟨entrance, node, rfl, notExplicit, enters⟩ :=
      (visit_ok distinct member keyed uncovered).mp returned
    refine ⟨(enters.grows stores notExplicit).1, fun key isKey => ?_⟩
    obtain rfl : entrance.key = key := Option.some.inj (keyed.symm.trans isKey)
    obtain ⟨entry, registry, _, rfl⟩ := enters.reconciled
    have entered : entrance.key ∈ (provider.entrances.set entrance.key entrance).keys :=
      Py.Dict.mem_keys_set.mpr (.inl rfl)
    rw [Provider.covers, Py.Dict.contains_iff.mpr entered, Bool.true_or]

/-- Visits that return grow the index until every component is covered. -/
theorem visits_grow (distinct : (setup.kinds.map ComponentKind.name).Nodup)
    {pairs : List (ComponentKind V C H S × C)} (members : ∀ pair ∈ pairs, pair.1 ∈ setup.kinds)
    (stores : NodeStores provider.registry)
    (returned : pairs.forM (visit setup) provider = .ok ⟨⟩ final)
    : Grows provider final
      ∧ ∀ pair ∈ pairs, ∀ key, keyOf pair = some key → final.covers key = true := by
  induction pairs generalizing provider with
  | nil =>
      cases returned
      exact ⟨.refl stores, fun _ member => (List.not_mem_nil member).elim⟩
  | cons pair rest ih =>
      obtain ⟨_, middle, run, later⟩ := Py.bind_ok.mp returned
      obtain ⟨first, covered⟩ := visit_grows distinct (members pair (by simp)) stores run
      obtain ⟨second, coveredLater⟩ :=
        ih (fun other member => members other (List.mem_cons_of_mem _ member)) first.stores later
      refine ⟨first.trans second, fun other member key isKey => ?_⟩
      rcases List.mem_cons.mp member with rfl | inRest
      · exact second.covers (covered key isKey)
      · exact coveredLater other inRest key isKey

/-- The same visits from the same entrances enter the same components again, and write nothing else
to a state whose registry has what the first visits registered. The later state may have projected
more versions, if the first visits did not enter them.
-/
theorem revisit (distinct : (setup.kinds.map ComponentKind.name).Nodup)
    {pairs : List (ComponentKind V C H S × C)} (members : ∀ pair ∈ pairs, pair.1 ∈ setup.kinds)
    (stores : NodeStores provider.registry)
    (returned : pairs.forM (visit setup) provider = .ok ⟨⟩ final) {later : Provider V F K H S}
    (entrances : later.entrances = provider.entrances)
    (projected : ∀ key ∈ provider.projected, key ∈ later.projected)
    (apart : ∀ key ∈ later.projected, key ∈ provider.projected ∨ key ∉ final.entrances.keys)
    (settled : ∀ node, final.registry.Knows node → later.registry.Knows node)
    : pairs.forM (visit setup) later
      = .ok ⟨⟩ { later with entrances := final.entrances } := by
  induction pairs generalizing provider later with
  | nil =>
      cases returned
      rw [← entrances]
      rfl
  | cons pair rest ih =>
      obtain ⟨_, middle, run, remaining⟩ := Py.bind_ok.mp returned
      have member := members pair (by simp)
      have inRest : ∀ other ∈ rest, other.1 ∈ setup.kinds :=
        fun other member => members other (List.mem_cons_of_mem _ member)
      have grows := (visit_grows distinct member stores run).1
      have growsLater := (visits_grow distinct inRest grows.stores remaining).1
      rcases covered_or_uncovered pair provider with covered | ⟨key, keyed, uncovered⟩
      · rw [visit_covered covered] at run
        cases run
        have coveredLater : ∀ key, keyOf pair = some key → later.covers key = true := by
          intro key isKey
          have before := covered key isKey
          rw [Provider.covers, Bool.or_eq_true, List.contains_iff_mem] at before
          rw [Provider.covers, Bool.or_eq_true, List.contains_iff_mem, entrances]
          exact before.imp id (projected key)
        rw [Py.forM_cons_ok (visit_covered coveredLater)]
        exact ih inRest stores remaining entrances projected apart settled
      · obtain ⟨entrance, node, rfl, notExplicit, enters⟩ :=
          (visit_ok distinct member keyed uncovered).mp run
        have settledNode := (enters.grows stores notExplicit).2
        obtain ⟨entry, registry, _, rfl⟩ := enters.reconciled
        have uncoveredLater : later.covers entrance.key = false := by
          rw [Provider.covers, Bool.or_eq_false_iff] at uncovered ⊢
          refine ⟨by rw [entrances]; exact uncovered.1, ?_⟩
          rw [List.contains_eq_mem, decide_eq_false_iff_not]
          intro listed
          rcases apart _ listed with before | absent
          · have missing := uncovered.2
            rw [List.contains_eq_mem, decide_eq_false_iff_not] at missing
            exact missing before
          · exact absent (growsLater.entered _ (Py.Dict.mem_keys_set.mpr (.inl rfl)))
        obtain ⟨existing, reconciled⟩ :=
          (settled node (growsLater.settled grows.stores settledNode)).reconcile
            setup.manager.config
        have again : visit setup pair later = .ok ⟨⟩
            { later with entrances := later.entrances.set entrance.key entrance } := by
          refine (visit_ok distinct member keyed uncoveredLater).mpr ⟨entrance, node, rfl,
            notExplicit, enters.made, enters.described, uncoveredLater, ?_, existing, _,
            reconciled, rfl⟩
          rw [entrances]
          exact enters.governs
        rw [Py.forM_cons_ok again]
        refine ih inRest grows.stores remaining ?_ projected apart settled
        rw [entrances]

-----------------------------------------------------------------------------------------
-- The listing after an enrichment
-----------------------------------------------------------------------------------------

/-- Whether a component stands for none of the keys. -/
def beside (keys : List EntranceKey) (pair : ComponentKind V C H S × C) : Bool :=
  keys.all (fun key => keyOf pair ≠ some key)

omit [DecidableEq V] [VersionValue V] in
theorem apart_eq (family : ComponentKind V C H S) (key : EntranceKey) (component : C)
    : family.apart key component = decide (keyOf (family, component) ≠ some key) := by
  unfold ComponentKind.apart keyOf
  cases family.version component with
  | none => simp
  | some version => simp

omit [DecidableEq V] [VersionValue V] in
/-- What is created adds to the listings only components under the created keys. -/
theorem listing_created (lists : setup.ListsApart)
    {created : List (ComponentKind V C H S × VirtualComponent H)} {keys : List EntranceKey}
    (sourced : ∀ item ∈ created, item.1 ∈ setup.kinds ∧ item.2.kind ≠ "" ∧ item.2.key ∈ keys)
    {server next : S}
    (run : created.foldlM (fun server item => item.1.materialize item.2 server) server
      = .ok next)
    : (listing setup next).filter (beside keys) = (listing setup server).filter (beside keys) := by
  have families : ∀ family ∈ setup.kinds,
      (family.components next).filter (fun component => beside keys (family, component))
        = (family.components server).filter (fun component => beside keys (family, component)) := by
    intro family member
    induction created generalizing server with
    | nil =>
        cases run
        rfl
    | cons item rest ih =>
        rw [List.foldlM_cons] at run
        obtain ⟨middle, first, later⟩ := Py.ok_bind_iff.mp run
        obtain ⟨source, named, keyed⟩ := sourced item (by simp)
        rw [ih (fun other inRest => sourced other (List.mem_cons_of_mem _ inRest)) later]
        refine Py.filter_eq_of_imp (fun component side => ?_)
          (lists.created item.1 source family member item.2 server middle named first)
        rw [apart_eq]
        exact List.all_eq_true.mp side item.2.key keyed
  have maps : ∀ server : S, (listing setup server).filter (beside keys)
      = setup.kinds.flatMap (fun family => ((family.components server).filter
          (fun component => beside keys (family, component))).map (Prod.mk family)) := by
    intro server
    rw [listing, List.filter_flatMap]
    refine List.flatMap_congr (fun family _ => ?_)
    rw [List.filter_map]
    rfl
  rw [maps, maps]
  refine List.flatMap_congr (fun family member => ?_)
  rw [families family member]

omit [DecidableEq V] [VersionValue V] in
theorem listing_transform (lists : setup.ListsApart) (server : S)
    : listing setup (setup.transform server) = listing setup server := by
  unfold listing
  refine List.flatMap_congr (fun family member => ?_)
  rw [lists.transformed family member]

-----------------------------------------------------------------------------------------
-- The rest of an enrichment
-----------------------------------------------------------------------------------------

/-- The nodes and the name of a registry, which hooks leave alone. -/
def nodesOf (registry : Registry V) : NodeView V × String := (registry.nodeView, registry.nameSpace)

/-- The same entrances over the same nodes. -/
structure SameIndex (provider later : Provider V F K H S) : Prop where
  entrances : later.entrances = provider.entrances
  nodes : nodesOf later.registry = nodesOf provider.registry

namespace SameIndex

variable {later : Provider V F K H S}

omit [DecidableEq V] [VersionValue V] in
theorem byVersions (same : SameIndex provider later)
    : later.registry.byVersions = provider.registry.byVersions :=
  congrArg (fun nodes => nodes.1.byVersions) same.nodes

omit [DecidableEq V] [VersionValue V] in
theorem entrancesOf (same : SameIndex provider later)
    : later.entrancesOf = provider.entrancesOf := by
  funext kind
  rw [Provider.entrancesOf, same.entrances, Provider.entrancesOf]

omit [DecidableEq V] in
theorem versionsFor (same : SameIndex provider later)
    : later.versionsFor = provider.versionsFor := by
  have entries : later.registry.kindEntries = provider.registry.kindEntries :=
    congrArg (fun nodes => nodes.1.kindEntries) same.nodes
  funext kind
  simp only [Provider.versionsFor, Registry.kindVersions, entries]

omit [DecidableEq V] in
theorem anchors (same : SameIndex provider later) {kind : String}
    {source : ComponentKind V C H S} {mapping : Py.Dict String String} {handler : H}
    (anchors : Anchors setup provider kind source mapping handler)
    : Anchors setup later kind source mapping handler := by
  have policies : later.policyFor = provider.policyFor := by
    funext printable kind
    simp only [policyFor, same.entrancesOf]
  have targets : later.resolveTarget = provider.resolveTarget := by
    funext printable kind policy
    simp only [resolveTarget, same.versionsFor]
  have mappings : later.policyMapping = provider.policyMapping := by
    funext printable kind policy
    simp only [policyMapping, targets]
  have handlers : later.anchorHandler = provider.anchorHandler := by
    funext printable kind entrances target
    simp only [anchorHandler, same.versionsFor]
  unfold Anchors
  rw [policies, mappings, handlers, same.entrancesOf]
  exact anchors

omit [DecidableEq V] in
theorem schemaAt (same : SameIndex provider later) (key : EntranceKey)
    : later.schemaAt setup key = provider.schemaAt setup key := by
  have models : later.registry.getModel = provider.registry.getModel := by
    have names : later.registry.nameSpace = provider.registry.nameSpace :=
      congrArg Prod.snd same.nodes
    funext key
    simp only [Registry.getModel, Registry.findModel, Registry.findEntry, same.byVersions, names]
  simp only [Provider.schemaAt, models]

omit [DecidableEq V] in
theorem indexed (same : SameIndex provider later) {key : EntranceKey}
    (indexed : later.Indexed key)
    : provider.Indexed key :=
  ⟨same.entrances ▸ indexed.indexed, same.versionsFor ▸ indexed.registered⟩

end SameIndex

/-- Attaching hooks leaves the nodes of the registry. -/
theorem attachHooks_keepsNodes (setup : ManagerSetup V M F K) (hooks : List K)
    : Py.Keeps (fun stores : ManagerStores V F K => nodesOf stores.registry)
        (Manager.attachHooks setup hooks) := by
  refine .forM _ (fun hook _ => .bind (.query _ _) (fun kinds => .forM _ (fun kind _ => ?_)))
  refine .bind (.query _ _) (fun edges => .forM _ (fun edge _ => ?_))
  refine .bind (.modify (fun _ => rfl)) (fun _ => Py.keeps_iff_preserves.mpr (fun nodes => ?_))
  refine Manager.onRegistry_preserves (fun stores same => ?_)
  have kept : Py.Preserves (fun registry => nodesOf registry = nodes)
      (Engine.addHook setup.config (.edgeKey edge.pair) (setup.hookRefs hook)) := by
    refine .bind (.query _ _) (fun found => .bind (.modify (fun _ same => same)) (fun _ => ?_))
    exact IgnoresHealth.refreshHealth (fun _ _ same => same) _ _
  exact kept _ same

theorem hookOnce_ok (returned : hookOnce setup provider = .ok ⟨⟩ final)
    : ∃ stores, final = { provider with stores, hooked := true }
      ∧ nodesOf stores.registry = nodesOf provider.registry := by
  obtain ⟨hooked, looked, rest⟩ := Py.query_bind_ok.mp returned
  cases looked
  split at rest
  case isTrue hooked =>
    cases rest
    refine ⟨provider.stores, ?_, rfl⟩
    rw [← hooked]
  case isFalse =>
    obtain ⟨_, middle, attached, rest⟩ := Py.bind_ok.mp rest
    cases rest
    unfold attachHooks at attached
    split at attached
    case isTrue =>
      cases attached
      exact ⟨provider.stores, rfl, rfl⟩
    case isFalse =>
      have kept := attachHooks_keepsNodes setup.manager setup.hooks provider.stores
      have reached := after_onStores (Manager.attachHooks setup.manager setup.hooks) provider
      rw [Py.after_of_ok attached] at reached
      subst reached
      exact ⟨_, rfl, kept⟩

omit [DecidableEq V] [VersionValue V] in
theorem transformOnce_ok (lists : setup.ListsApart)
    (returned : transformOnce setup provider = .ok ⟨⟩ final)
    : ∃ server, final = { provider with server, transformed := true }
      ∧ listing setup server = listing setup provider.server := by
  obtain ⟨transformed, looked, rest⟩ := Py.query_bind_ok.mp returned
  cases looked
  split at rest
  case isTrue transformed =>
    cases rest
    refine ⟨provider.server, ?_, rfl⟩
    rw [← transformed]
  case isFalse =>
    cases rest
    exact ⟨setup.transform provider.server, rfl, listing_transform lists _⟩

/-- What an enrichment that returns leaves: the index stands, the created versions are projected,
the listings have gained nothing but them, and enriching again changes nothing.
-/
structure Enriched (setup : ProviderSetup V M F K H C S) (provider final : Provider V F K H S)
    (keys : List EntranceKey) : Prop where
  same : SameIndex provider final
  projected : final.projected = provider.projected ++ keys
  apart : ∀ key ∈ keys, provider.covers key = false
  listing : (listing setup final.server).filter (beside keys)
    = (listing setup provider.server).filter (beside keys)
  again : enrich setup final = .ok ⟨⟩ final

omit [DecidableEq V] in
theorem materializeEnabled_ok (lists : setup.ListsApart)
    (named : ∀ entrance ∈ provider.entrances.values, entrance.kind ≠ "")
    (returned : materializeEnabled setup provider = .ok ⟨⟩ final)
    : ∃ keys server, final = { provider with projected := provider.projected ++ keys, server }
      ∧ (∀ key ∈ keys, provider.covers key = false)
      ∧ (listing setup server).filter (beside keys)
        = (listing setup provider.server).filter (beside keys)
      ∧ ∀ later, SameIndex provider later → later.projected = provider.projected ++ keys →
          materializeEnabled setup later = .ok ⟨⟩ later := by
  unfold materializeEnabled at returned
  split at returned
  case isFalse disabled =>
    cases returned
    refine ⟨[], provider.server, by simp, by simp, rfl, fun later _ _ => ?_⟩
    rw [materializeEnabled, if_neg disabled]
    rfl
  case isTrue enabled =>
    obtain ⟨anchored, created, creates⟩ := materializeVirtuals_creates returned
    obtain ⟨server, rfl⟩ := creates.shape
    refine ⟨_, server, rfl, fun key member => ((creates.exact_ key).mp member).2.1,
      listing_created lists ?_ creates.server, fun later same projected => ?_⟩
    · intro item member
      obtain ⟨mapping, handler, schema, ⟨policy, entrance, _, first, sourced, _⟩, _⟩ :=
        creates.made item member
      obtain ⟨stored, sameKind⟩ := mem_entrancesOf.mp (List.mem_of_mem_head? first)
      exact ⟨(source_name sourced).2, sameKind ▸ named entrance stored,
        List.mem_map_of_mem member⟩
    · rw [materializeEnabled, if_pos enabled]
      refine materializeVirtuals_idle (fun entrance stored => ?_) (fun key indexed => ?_)
      · obtain ⟨source, mapping, handler, anchors⟩ := anchored entrance (same.entrances ▸ stored)
        exact ⟨source, mapping, handler, same.anchors anchors⟩
      · have considered := same.indexed indexed
        have covers : later.covers key = true
            ↔ provider.covers key = true ∨ key ∈ created.map (fun item => item.2.key) := by
          rw [Provider.covers, same.entrances, projected, Provider.covers, Bool.or_eq_true,
            Bool.or_eq_true, List.contains_iff_mem, List.contains_iff_mem, List.mem_append,
            or_assoc]
        rw [covers, same.schemaAt]
        rcases creates.known key considered with covered | ⟨schema, found⟩
        · exact .inl (.inl covered)
        · cases schema with
          | none => exact .inr found
          | some document =>
              cases covered : provider.covers key with
              | true => exact .inl (.inl rfl)
              | false =>
                  exact .inl (.inr ((creates.exact_ key).mpr
                    ⟨considered, covered, document, found⟩))

theorem enrich_ok (lists : setup.ListsApart)
    (named : ∀ entrance ∈ provider.entrances.values, entrance.kind ≠ "")
    (returned : enrich setup provider = .ok ⟨⟩ final)
    : ∃ keys, Enriched setup provider final keys := by
  obtain ⟨_, first, materialized, rest⟩ := Py.bind_ok.mp returned
  obtain ⟨_, second, hooked, transformed⟩ := Py.bind_ok.mp rest
  obtain ⟨keys, server, rfl, apart, lists', again⟩ :=
    materializeEnabled_ok lists named materialized
  obtain ⟨stores, rfl, nodes⟩ := hookOnce_ok hooked
  obtain ⟨shown, rfl, sameListing⟩ := transformOnce_ok lists transformed
  have same : SameIndex provider { provider with
      stores, server := shown, projected := provider.projected ++ keys, hooked := true
      transformed := true } :=
    ⟨rfl, nodes⟩
  refine ⟨keys, same, rfl, apart, ?_, ?_⟩
  · rw [← lists']
    exact congrArg (fun pairs => pairs.filter (beside keys)) sameListing
  · refine (Py.bind_eq_of_ok (again _ same rfl)).trans ?_
    rfl

-----------------------------------------------------------------------------------------
-- Starting again
-----------------------------------------------------------------------------------------

omit [DecidableEq V] [VersionValue V] in
theorem explicitEntrances_items (entrances : Py.Dict EntranceKey (Entrance H))
    : (explicitEntrances entrances).items
      = entrances.items.filter (fun item => item.2.explicit) :=
  Py.Dict.items_ofItems (entrances.nodup.sublist (List.filter_sublist.map _))

/-- A server that has been synchronized stays as it is under another synchronization, also after
an enrichment.
-/
theorem sync_again (lists : setup.ListsApart) (stores : NodeStores provider.registry)
    (synced : sync setup provider = .ok ⟨⟩ final) {later : Provider V F K H S}
    {keys : List EntranceKey} (same : SameIndex final later)
    (projected : later.projected = final.projected ++ keys)
    (apart : ∀ key ∈ keys, final.covers key = false)
    (listed : (listing setup later.server).filter (beside keys)
      = (listing setup final.server).filter (beside keys))
    : sync setup later = .ok ⟨⟩ later := by
  rw [sync_eq] at synced ⊢
  have members : ∀ pair ∈ listing setup provider.server, pair.1 ∈ setup.kinds := by
    intro pair member
    obtain ⟨family, inKinds, found⟩ := List.mem_flatMap.mp member
    obtain ⟨component, _, rfl⟩ := List.mem_map.mp found
    exact inKinds
  have start : NodeStores provider.fresh.registry := stores
  obtain ⟨grows, covered⟩ := visits_grow lists.distinct members start synced
  have sameServer : final.server = provider.server := by
    rw [grows.frame]
    rfl
  have sameProjected : final.projected = provider.projected := by
    rw [grows.frame]
    rfl
  have sameExplicit : later.fresh.entrances = provider.fresh.entrances := by
    refine Py.Dict.ext ?_
    rw [fresh, explicitEntrances_items, same.entrances, grows.explicit_, fresh,
      explicitEntrances_items, List.filter_filter]
    simp
  -- Every component of the first listing is covered afterwards, so none was created since.
  have needed : (listing setup later.server).filter (beside keys)
      = listing setup provider.server := by
    rw [listed, sameServer, List.filter_eq_self]
    refine fun pair member => List.all_eq_true.mpr (fun key inKeys => decide_eq_true ?_)
    intro isKey
    have uncovered := apart key inKeys
    rw [covered pair member key isKey] at uncovered
    cases uncovered
  have idle : (listing setup later.server).forM (visit setup) later.fresh
      = ((listing setup later.server).filter (beside keys)).forM (visit setup) later.fresh := by
    have settledProjection : ∀ pair (state next : Provider V F K H S),
        state.projected = later.projected → visit setup pair state = .ok ⟨⟩ next →
        next.projected = later.projected := by
      intro pair state next holds run
      have keeps : Py.Keeps Provider.projected (visit setup pair) :=
        visit_keeps (fun _ _ => rfl) (fun _ _ => rfl) pair
      have kept := keeps state
      rw [Py.after_of_ok run] at kept
      exact kept.trans holds
    refine Py.forM_filter
      (fun pair state created holds => visit_covered (fun key isKey => ?_))
      settledProjection _ rfl
    · obtain ⟨listedKey, inKeys, hit⟩ := List.all_eq_false.mp created
      have sameKey : keyOf pair = some listedKey := by simpa using hit
      obtain rfl : listedKey = key := Option.some.inj (sameKey.symm.trans isKey)
      rw [Provider.covers, Bool.or_eq_true, List.contains_iff_mem, holds, projected]
      exact .inr (List.mem_append_right _ inKeys)
  have settled : ∀ node, final.registry.Knows node → later.fresh.registry.Knows node := by
    intro node settled
    refine settled.mono grows.stores ?_ (fun entry member => same.byVersions ▸ member)
    exact grows.stores.of_nodeView (congrArg Prod.fst same.nodes)
  rw [idle, needed, revisit lists.distinct members start synced sameExplicit ?_ ?_ settled,
    ← same.entrances]
  · rfl
  · intro key member
    change key ∈ later.projected
    rw [projected, sameProjected]
    exact List.mem_append_left _ member
  · intro key member
    change key ∈ later.projected at member
    rw [projected, sameProjected] at member
    refine (List.mem_append.mp member).imp id (fun inKeys entered => ?_)
    have uncovered := apart key inKeys
    rw [Provider.covers, Py.Dict.contains_iff.mpr entered] at uncovered
    cases uncovered

/-- Once a server has been synchronized and enriched, synchronizing and enriching it again, in any
order and any number of times, returns and changes nothing; nor does another synchronization
before the enrichment.
-/
theorem starts_once (lists : setup.ListsApart)
    (reached : Reachable setup.manager.config provider.registry)
    {synced enriched : Provider V F K H S}
    (first : sync setup provider = .ok ⟨⟩ synced) (second : enrich setup synced = .ok ⟨⟩ enriched)
    (named : ∀ entrance ∈ synced.entrances.values, entrance.kind ≠ "")
    : sync setup synced = .ok ⟨⟩ synced
      ∧ ∀ calls : List (Call C), (∀ call ∈ calls, call = .sync ∨ call = .enrich) →
          calls.forM (Call.run setup) enriched = .ok ⟨⟩ enriched := by
  have stores := reached.nodeStores
  have untouched : synced.projected = synced.projected ++ [] := (List.append_nil _).symm
  refine ⟨sync_again lists stores first ⟨rfl, rfl⟩ untouched (by simp) rfl, ?_⟩
  obtain ⟨keys, done⟩ := enrich_ok lists named second
  intro calls startup
  refine Py.forM_fixed (fun call member => ?_)
  rcases startup call member with rfl | rfl
  · exact sync_again lists stores first done.same done.projected done.apart done.listing
  · exact done.again

end Provider

-----------------------------------------------------------------------------------------
-- The default families
-----------------------------------------------------------------------------------------

omit [DecidableEq V] [VersionValue V] in
/-- The families of a host list apart if adding a primitive changes no listing beside those with
its name and its version.
-/
theorem defaultKinds_listsApart {host : Host V H S} {printable : Char → Bool}
    {setup : ProviderSetup V M F K H (Component H) S}
    (kinds : setup.kinds = defaultKinds host printable)
    (added : ∀ family component server next, host.add family component server = .ok next →
      ∀ other, (host.listed other next).filter
          (fun shown => !(shown.name = component.name ∧ shown.version = component.version))
        = (host.listed other server).filter
          (fun shown => !(shown.name = component.name ∧ shown.version = component.version)))
    (transformed : ∀ family server,
      host.listed family (setup.transform server) = host.listed family server)
    : setup.ListsApart := by
  -- A primitive of the virtual component and a component of the same key have one name.
  have apart : ∀ {source family : ComponentKind V (Component H) H S}
      {virtual : VirtualComponent H} {server next : S}, source ∈ defaultKinds host printable →
      family ∈ defaultKinds host printable → virtual.kind ≠ "" →
      source.materialize virtual server = .ok next →
      (family.components next).filter (family.apart virtual.key)
        = (family.components server).filter (family.apart virtual.key) := by
    intro source family virtual server next fromKinds inKinds named run
    have same : ∀ other, (host.listed other next).filter
          (fun shown => !(shown.name = virtual.kind ∧ shown.version = some virtual.version))
        = (host.listed other server).filter
          (fun shown => !(shown.name = virtual.kind ∧ shown.version = some virtual.version)) := by
      simp only [defaultKinds, List.mem_cons, List.not_mem_nil, or_false] at fromKinds
      rcases fromKinds with rfl | rfl | rfl
      · exact added .tools virtual.tool server next run
      · exact added .prompts virtual.prompt server next run
      · obtain ⟨template, made, run⟩ := Py.ok_bind_iff.mp run
        obtain ⟨address, _, shape⟩ := Py.ok_bind_iff.mp made
        cases shape
        exact added .templates _ server next run
    have narrow : ∀ shown : Component H, family.apart virtual.key shown = true →
        (!(shown.name = virtual.kind ∧ shown.version = some virtual.version)) = true := by
      intro shown beside
      rw [Provider.apart_eq, decide_eq_true_eq] at beside
      simp only [Bool.not_eq_true', decide_eq_false_iff_not]
      rintro ⟨name, version⟩
      apply beside
      simp only [defaultKinds, List.mem_cons, List.not_mem_nil, or_false] at inKinds
      rcases inKinds with rfl | rfl | rfl
      · simp [Provider.keyOf, toolKind, version, name, VirtualComponent.key]
      · simp [Provider.keyOf, promptKind, version, name, VirtualComponent.key]
      · simp [Provider.keyOf, resourceKind, Component.resourceKind, version, name, named,
          VirtualComponent.key]
    simp only [defaultKinds, List.mem_cons, List.not_mem_nil, or_false] at inKinds
    rcases inKinds with rfl | rfl | rfl
    · exact Py.filter_eq_of_imp narrow (same .tools)
    · exact Py.filter_eq_of_imp narrow (same .prompts)
    · refine Py.filter_eq_of_imp narrow ?_
      simp only [resourceKind, List.filter_append, same]
  refine ⟨?_, ?_, ?_⟩
  · rw [kinds]
    exact (by decide : ["tool", "prompt", "resource"].Nodup)
  · intro source fromKinds family inKinds virtual server next named run
    rw [kinds] at fromKinds inKinds
    exact apart fromKinds inKinds named run
  · intro family member server
    rw [kinds] at member
    simp only [defaultKinds, List.mem_cons, List.not_mem_nil, or_false] at member
    rcases member with rfl | rfl | rfl
    · exact transformed .tools server
    · exact transformed .prompts server
    · simp only [resourceKind, transformed]

namespace Provider

omit [DecidableEq V] [VersionValue V] in
theorem userProvider_listsApart : userProvider.ListsApart := by
  refine defaultKinds_listsApart rfl ?_ (fun _ _ => rfl)
  intro family component server next run other
  cases family <;> cases run <;> cases other <;> simp [listingHost]

omit [DecidableEq V] [VersionValue V] in
/-- Witness: the small server is started twice in a row, and the second start changes nothing. -/
theorem starts_once_userServer
    : let synced := Py.after (sync userProvider) userServer
      let enriched := Py.after (enrich userProvider) synced
      (sync userProvider synced = .ok ⟨⟩ synced
          ∧ ∀ calls : List (Call (Component String)),
            (∀ call ∈ calls, call = .sync ∨ call = .enrich) →
            calls.forM (Call.run userProvider) enriched = .ok ⟨⟩ enriched)
        ∧ enriched.server.tools.map Component.version = [some "2.0.0", some "1.0.0"]
        ∧ (enriched.registry.kindVersions "User").length = 2 := by
  intro synced enriched
  have reached : Reachable userProvider.manager.config userServer.registry :=
    .runAll (.new plainConfig "default" false (by decide)) _
  have first : (Py.outcome (sync userProvider) userServer).isOk = true := by decide +kernel
  have second : (Py.outcome (enrich userProvider) synced).isOk = true := by decide +kernel
  have kinds : synced.entrances.values.map Entrance.kind = ["User"] := by decide +kernel
  refine ⟨starts_once userProvider_listsApart reached (Py.run_of_isOk first)
    (Py.run_of_isOk second) ?_, by decide +kernel, by decide +kernel⟩
  intro entrance member
  have listed := List.mem_map_of_mem (f := Entrance.kind) member
  rw [kinds, List.mem_singleton] at listed
  rw [listed]
  decide

end Provider

end Fastmcp

end Pyverge
