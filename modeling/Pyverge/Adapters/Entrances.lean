import Pyverge.Adapters.Builder

/-! The entrance index of a provider over whole runs: each kind has one policy, whatever the calls
raised and however the registry and the server changed in between.
-/

namespace Pyverge.Fastmcp

variable {V M F K H C S : Type}

-----------------------------------------------------------------------------------------
-- The index
-----------------------------------------------------------------------------------------

/-- The entrances stand under their own keys, come from configured families, and agree on one
policy for each kind.
-/
structure IndexAgrees (setup : ProviderSetup V M F K H C S)
    (entrances : Py.Dict EntranceKey (Entrance H)) : Prop where
  keyed : ∀ item ∈ entrances.items, item.2.key = item.1
  sourced : ∀ entrance ∈ entrances.values, ∃ family, setup.source entrance.source = .ok family
  agree : ∀ first ∈ entrances.values, ∀ second ∈ entrances.values,
    first.kind = second.kind → first.policy.eq second.policy = true

/-- The policy agrees with every entrance of the kind. -/
def Governs (entrances : Py.Dict EntranceKey (Entrance H)) (kind : String) (policy : Policy)
    : Prop :=
  ∀ entrance ∈ entrances.values, entrance.kind = kind → policy.eq entrance.policy = true

namespace IndexAgrees

variable {setup : ProviderSetup V M F K H C S} {entrances : Py.Dict EntranceKey (Entrance H)}

theorem empty : IndexAgrees setup ∅ where
  keyed := fun _ member => (List.not_mem_nil member).elim
  sourced := fun _ member => (List.not_mem_nil member).elim
  agree := fun _ member => (List.not_mem_nil member).elim

theorem mono {fewer : Py.Dict EntranceKey (Entrance H)} (agrees : IndexAgrees setup entrances)
    (sub : ∀ item ∈ fewer.items, item ∈ entrances.items)
    : IndexAgrees setup fewer := by
  have values : ∀ entrance ∈ fewer.values, entrance ∈ entrances.values := by
    intro entrance member
    obtain ⟨item, listed, rfl⟩ := List.mem_map.mp member
    exact List.mem_map_of_mem (sub item listed)
  exact {
    keyed := fun item member => agrees.keyed item (sub item member)
    sourced := fun entrance member => agrees.sourced entrance (values entrance member)
    agree := fun first firstIn second secondIn =>
      agrees.agree first (values first firstIn) second (values second secondIn) }

/-- An entrance with the policy of its kind may be added. -/
theorem set {entrance : Entrance H} (agrees : IndexAgrees setup entrances)
    (sourced : ∃ family, setup.source entrance.source = .ok family)
    (governs : Governs entrances entrance.kind entrance.policy)
    : IndexAgrees setup (entrances.set entrance.key entrance) := by
  have items : ∀ item ∈ (entrances.set entrance.key entrance).items,
      item = (entrance.key, entrance) ∨ item ∈ entrances.items := by
    rintro ⟨key, value⟩ member
    have found := Py.Dict.get?_eq_some.mpr member
    rw [Py.Dict.get?_set] at found
    split at found
    case isTrue same =>
      cases found
      exact .inl (by rw [same])
    case isFalse => exact .inr (Py.Dict.get?_eq_some.mp found)
  have values : ∀ other ∈ (entrances.set entrance.key entrance).values,
      other = entrance ∨ other ∈ entrances.values := by
    intro other member
    obtain ⟨item, listed, rfl⟩ := List.mem_map.mp member
    rcases items item listed with rfl | before
    · exact .inl rfl
    · exact .inr (List.mem_map_of_mem before)
  refine ⟨?_, ?_, ?_⟩
  · intro item member
    rcases items item member with rfl | before
    · rfl
    · exact agrees.keyed item before
  · intro other member
    rcases values other member with rfl | before
    · exact sourced
    · exact agrees.sourced other before
  · intro first firstIn second secondIn same
    rcases values first firstIn with rfl | firstBefore
    · rcases values second secondIn with rfl | secondBefore
      · exact Policy.eq_refl _
      · exact governs second secondBefore same.symm
    · rcases values second secondIn with rfl | secondBefore
      · exact Policy.eq_symm (governs first firstBefore same)
      · exact agrees.agree first firstBefore second secondBefore same

end IndexAgrees

namespace Provider

variable {setup : ProviderSetup V M F K H C S} {provider : Provider V F K H S}

theorem mem_entrancesOf {kind : String} {entrance : Entrance H}
    : entrance ∈ provider.entrancesOf kind
      ↔ entrance ∈ provider.entrances.values ∧ entrance.kind = kind := by
  simp [entrancesOf]

/-- What `policy_for` returns: nothing for a kind without entrances, else the policy of one of them
that all the others share.
-/
theorem policyFor_ok {printable : Char → Bool} {kind : String} {known : Option Policy}
    (returned : provider.policyFor printable kind = .ok known)
    : (known = none ∧ provider.entrancesOf kind = [])
      ∨ ∃ leader ∈ provider.entrancesOf kind, known = some leader.policy
        ∧ Governs provider.entrances kind leader.policy := by
  unfold policyFor at returned
  split at returned
  case h_1 none_ =>
    cases returned
    exact .inl ⟨rfl, List.map_eq_nil_iff.mp none_⟩
  case h_2 first rest listed =>
    split at returned
    case isTrue => cases returned
    case isFalse agree =>
      cases returned
      have shown : first ∈ (provider.entrancesOf kind).map Entrance.policy := by
        rw [listed]
        exact List.mem_cons_self
      obtain ⟨leader, member, rfl⟩ := List.mem_map.mp shown
      refine .inr ⟨leader, member, rfl, fun entrance stored sameKind => ?_⟩
      have shown : entrance.policy ∈ leader.policy :: rest := by
        rw [← listed]
        exact List.mem_map_of_mem (mem_entrancesOf.mpr ⟨stored, sameKind⟩)
      rcases List.mem_cons.mp shown with same | later
      · rw [same]
        exact Policy.eq_refl _
      · have equal : entrance.policy.eq leader.policy = true := by
          by_contra differs
          exact agree (List.any_eq_true.mpr ⟨_, later, by simpa using differs⟩)
        exact Policy.eq_symm equal

theorem policyFor_returns {kind : String}
    (agree : ∀ first ∈ provider.entrancesOf kind, ∀ second ∈ provider.entrancesOf kind,
      first.policy.eq second.policy = true)
    (printable : Char → Bool)
    : ∃ known, provider.policyFor printable kind = .ok known := by
  unfold policyFor
  split
  case h_1 => exact ⟨none, rfl⟩
  case h_2 first rest listed =>
    have member : ∀ policy ∈ first :: rest, ∃ entrance ∈ provider.entrancesOf kind,
        entrance.policy = policy := by
      intro policy shown
      rw [← listed] at shown
      exact List.mem_map.mp shown
    rw [if_neg]
    · exact ⟨some first, rfl⟩
    · intro differs
      obtain ⟨policy, later, unequal⟩ := List.any_eq_true.mp differs
      obtain ⟨left, leftIn, rfl⟩ := member policy (List.mem_cons_of_mem _ later)
      obtain ⟨right, rightIn, rfl⟩ := member first List.mem_cons_self
      rw [agree left leftIn right rightIn] at unequal
      cases unequal

-----------------------------------------------------------------------------------------
-- One call
-----------------------------------------------------------------------------------------

/-- What the calls keep: the index agrees and no version was projected twice. -/
structure Agrees (setup : ProviderSetup V M F K H C S) (provider : Provider V F K H S)
    : Prop where
  index : IndexAgrees setup provider.entrances
  once : provider.projected.Nodup

theorem Agrees.congr {other : Provider V F K H S} (agrees : Agrees setup provider)
    (entrances : other.entrances = provider.entrances)
    (projected : other.projected = provider.projected)
    : Agrees setup other :=
  ⟨entrances ▸ agrees.index, projected ▸ agrees.once⟩

/-- A program of the manager writes to its stores alone. -/
theorem after_onStores {α : Type} (program : ManagerM V F K α) (provider : Provider V F K H S)
    : Py.after (onStores program) provider
      = { provider with stores := Py.after program provider.stores } := by
  unfold onStores Py.after Py.zoom
  cases program provider.stores <;> rfl

theorem onStores_preserves {α : Type} (program : ManagerM V F K α)
    : Py.Preserves (Agrees setup) (onStores (H := H) (S := S) program) := by
  intro provider agrees
  rw [after_onStores]
  exact agrees.congr rfl rfl

variable [DecidableEq V] [VersionValue V]

omit [DecidableEq V] [VersionValue V] in
/-- An entrance is stored if it has the policy of its kind; else nothing is written. -/
theorem storeEntrance_cases (entrance : Entrance H) (provider : Provider V F K H S)
    : (∃ error, storeEntrance setup entrance provider = .error error provider)
      ∨ Governs provider.entrances entrance.kind entrance.policy
        ∧ storeEntrance setup entrance provider = .ok ⟨⟩
          { provider with entrances := provider.entrances.set entrance.key entrance } := by
  unfold storeEntrance
  rw [Py.query_bind_eq]
  cases looked : provider.policyFor setup.printable entrance.kind with
  | error error => exact .inl ⟨error, rfl⟩
  | ok known =>
      rcases policyFor_ok looked with ⟨rfl, none_⟩ | ⟨leader, _, rfl, governs⟩
      · refine .inr ⟨fun other member sameKind => ?_, rfl⟩
        have listed := mem_entrancesOf.mpr ⟨member, sameKind⟩
        rw [none_] at listed
        exact (List.not_mem_nil listed).elim
      · cases equal : leader.policy.eq entrance.policy with
        | false =>
            simp only [equal, Bool.not_false, if_true]
            exact .inl ⟨_, rfl⟩
        | true =>
            simp only [equal, Bool.not_true, Bool.false_eq_true, if_false]
            refine .inr ⟨fun other member sameKind => ?_, rfl⟩
            exact Policy.eq_trans (Policy.eq_symm equal) (governs other member sameKind)

omit [DecidableEq V] [VersionValue V] in
/-- An entrance that agrees with all entrances of its kind is stored. -/
theorem storeEntrance_of_governs {entrance : Entrance H}
    (governs : Governs provider.entrances entrance.kind entrance.policy)
    : storeEntrance setup entrance provider = .ok ⟨⟩
      { provider with entrances := provider.entrances.set entrance.key entrance } := by
  have shares : ∀ other ∈ provider.entrancesOf entrance.kind,
      entrance.policy.eq other.policy = true := by
    intro other member
    obtain ⟨stored, sameKind⟩ := mem_entrancesOf.mp member
    exact governs other stored sameKind
  obtain ⟨known, looked⟩ := policyFor_returns (fun first firstIn second secondIn =>
    Policy.eq_trans (Policy.eq_symm (shares first firstIn)) (shares second secondIn))
    setup.printable
  unfold storeEntrance
  rw [Py.query_bind_eq, looked]
  rcases policyFor_ok looked with ⟨rfl, _⟩ | ⟨leader, member, rfl, _⟩
  · rfl
  · simp only [Policy.eq_symm (shares leader member), Bool.not_true, Bool.false_eq_true, if_false]
    rfl

omit [DecidableEq V] [VersionValue V] in
theorem storeEntrance_agrees {entrance : Entrance H}
    (sourced : ∃ family, setup.source entrance.source = .ok family)
    : Py.Preserves (Agrees setup) (storeEntrance setup entrance) := by
  intro provider agrees
  rcases storeEntrance_cases entrance provider with ⟨error, run⟩ | ⟨governs, run⟩
  · rw [Py.after_of_error run]
    exact agrees
  · rw [Py.after_of_ok run]
    exact ⟨agrees.index.set sourced governs, agrees.once⟩

theorem register_agrees (entrance : Entrance H)
    : Py.Preserves (Agrees setup) (register setup entrance) :=
  .bind (.query _ _) (fun _ => onStores_preserves _)

omit [DecidableEq V] [VersionValue V] in
/-- The entrance of a component names the family that made it. -/
theorem entrance_source {family : ComponentKind V C H S} {component : C} {policy : Option Policy}
    {explicit : Bool} {entrance : Entrance H}
    (made : family.entrance setup.printable component policy explicit = .ok (some entrance))
    : entrance.source = family.name ∧ entrance.kind = family.kind component
      ∧ family.version component = some entrance.version ∧ entrance.explicit = explicit := by
  unfold ComponentKind.entrance at made
  split at made
  case h_1 => cases made
  case h_2 version versioned =>
    split at made
    case h_1 => cases made
    case h_2 resolved _ =>
      cases made
      exact ⟨rfl, rfl, versioned, rfl⟩

omit [DecidableEq V] [VersionValue V] in
/-- Looking a family up by its name finds one of that name. -/
theorem source_name {name : String} {family : ComponentKind V C H S}
    (found : setup.source name = .ok family)
    : family.name = name ∧ family ∈ setup.kinds := by
  unfold ProviderSetup.source at found
  cases looked : (Py.Dict.indexBy ComponentKind.name setup.kinds).get? name with
  | none => simp [looked] at found
  | some stored =>
      rw [looked] at found
      cases found
      rw [Py.Dict.indexBy, Py.Dict.ofItems, Py.Dict.get?_update, Py.Dict.get?_empty,
        Option.or_none] at looked
      obtain ⟨item, hit, rfl⟩ := Option.map_eq_some_iff.mp looked
      have same : item.1 = name := by simpa using List.find?_some hit
      obtain ⟨listed, member, rfl⟩ :=
        List.mem_map.mp (List.mem_reverse.mp (List.mem_of_find?_eq_some hit))
      exact ⟨same, member⟩

theorem add_agrees (component : C) (kindName : String) (explicit : Bool)
    : Py.Preserves (Agrees setup) (add setup component kindName explicit) := by
  refine .query_bind (fun provider family agrees found => ?_)
  refine Py.after_query_bind_of agrees (fun made entrance => ?_)
  cases made with
  | none => exact agrees
  | some entrance' =>
      have named := (entrance_source entrance).1
      have sourced : ∃ family, setup.source entrance'.source = .ok family :=
        ⟨family, by rw [named, (source_name found).1, found]⟩
      exact Py.Preserves.bind (storeEntrance_agrees sourced)
        (fun _ => register_agrees entrance') provider agrees

theorem syncComponent_agrees (family : ComponentKind V C H S) (component : C)
    : Py.Preserves (Agrees setup) (syncComponent setup family component) := by
  unfold syncComponent
  cases family.version component with
  | none => exact .pure _ _
  | some version => exact .bind (.query _ _) (fun covered =>
      .ite _ (.pure _ _) (add_agrees component family.name false))

theorem sync_agrees : Py.Preserves (Agrees setup) (sync setup) := by
  refine .bind (.modify (fun provider agrees => ⟨agrees.index.mono ?_, agrees.once⟩)) (fun _ => ?_)
  · intro item member
    rw [Py.Dict.items_ofItems (provider.entrances.nodup.sublist (List.filter_sublist.map _))]
      at member
    exact (List.mem_filter.mp member).1
  · refine .forM _ (fun family _ => .bind (.query _ _) (fun components => ?_))
    exact .forM _ (fun component _ => syncComponent_agrees family component)

omit [DecidableEq V] in
theorem projectVersion_agrees (source : ComponentKind V C H S) (kind : String)
    (mapping : Py.Dict String String) (handler : H) (version : String)
    : Py.Preserves (Agrees setup)
        (projectVersion setup source kind mapping handler version) := by
  refine .query_bind (fun provider covered agrees looked => ?_)
  cases covered with
  | true => exact agrees
  | false =>
      have fresh : (kind, version) ∉ provider.projected := by
        intro member
        have hit : provider.covers (kind, version) = true := by simp [covers, member]
        rw [hit] at looked
        cases looked
      refine Py.after_query_bind_of agrees (fun parsed _ => ?_)
      refine Py.after_query_bind_of agrees (fun node _ => ?_)
      refine Py.after_query_bind_of agrees (fun schema _ => ?_)
      cases schema with
      | none => exact agrees
      | some document =>
          refine Py.Preserves.after_bind ⟨agrees.index, ?_⟩ (fun _ => ?_)
          · exact List.nodup_append.mpr ⟨agrees.once, List.nodup_singleton _,
              fun key member other single => by
                rintro rfl
                rw [List.mem_singleton] at single
                exact fresh (single ▸ member)⟩
          · exact .bind (.query _ _) (fun server =>
              .modify (fun provider agrees => agrees.congr rfl rfl))

omit [DecidableEq V] in
theorem projectKind_agrees (kind : String) (entrances : List (Entrance H))
    : Py.Preserves (Agrees setup) (projectKind setup kind entrances) := by
  refine .bind (.query _ _) (fun policy => ?_)
  cases policy with
  | none => exact .pure _ _
  | some policy =>
      refine .bind (.query _ _) (fun source => .bind (.query _ _) (fun mapping =>
        .bind (.query _ _) (fun handler => .bind (.query _ _) (fun versions => ?_))))
      exact .forM _ (fun version _ => projectVersion_agrees source kind mapping handler version)

omit [DecidableEq V] in
theorem materializeVirtuals_agrees : Py.Preserves (Agrees setup) (materializeVirtuals setup) :=
  .bind (.query _ _) (fun _ => .forM _ (fun group _ => projectKind_agrees group.1 group.2))

theorem hookOnce_agrees : Py.Preserves (Agrees setup) (hookOnce setup) := by
  refine .bind (.query _ _) (fun hooked => .ite _ (.pure _ _) (.bind ?_ (fun _ => .modify ?_)))
  · exact .ite _ (.pure _ _) (onStores_preserves _)
  · exact fun provider agrees => agrees.congr rfl rfl

omit [DecidableEq V] [VersionValue V] in
theorem transformOnce_agrees : Py.Preserves (Agrees setup) (transformOnce setup) :=
  .bind (.query _ _) (fun _ => .ite _ (.pure _ _) (.modify (fun _ agrees => agrees.congr rfl rfl)))

theorem enrich_agrees : Py.Preserves (Agrees setup) (enrich setup) :=
  .bind (.ite _ materializeVirtuals_agrees (.pure _ _))
    (fun _ => .bind hookOnce_agrees (fun _ => transformOnce_agrees))

theorem Call.run_agrees (call : Call C) : Py.Preserves (Agrees setup) (call.run setup) := by
  cases call with
  | add component kindName => exact add_agrees component kindName true
  | sync => exact sync_agrees
  | enrich => exact enrich_agrees

-----------------------------------------------------------------------------------------
-- Whole runs
-----------------------------------------------------------------------------------------

/-- The states of a provider: its calls run to their end or raise, and in between the stores of the
manager and the server may become anything.
-/
inductive Reached (setup : ProviderSetup V M F K H C S) : Provider V F K H S → Prop where
  | start (stores : ManagerStores V F K) (server : S)
      : Reached setup ⟨stores, server, ∅, [], false, false⟩
  | call {provider : Provider V F K H S} (call : Call C) (reached : Reached setup provider)
      : Reached setup (Py.after (call.run setup) provider)
  | outside {provider : Provider V F K H S} (stores : ManagerStores V F K) (server : S)
      (reached : Reached setup provider)
      : Reached setup { provider with stores, server }

theorem Reached.agrees (reached : Reached setup provider) : Agrees setup provider := by
  induction reached with
  | start stores server => exact ⟨.empty, List.nodup_nil⟩
  | call call _ ih => exact call.run_agrees _ ih
  | outside stores server _ ih => exact ih.congr rfl rfl

/-- In every state of a run `policy_for` returns: nothing exactly for a kind without entrances, and
else the policy of all its entrances. Every entrance stands under its own key and comes from a configured family, and
no version was projected twice.
-/
theorem Reached.one_policy (reached : Reached setup provider) (kind : String)
    : (∃ known, provider.policyFor setup.printable kind = .ok known
        ∧ (known = none ↔ provider.entrancesOf kind = [])
        ∧ ∀ policy, known = some policy → ∀ entrance ∈ provider.entrancesOf kind,
            policy.eq entrance.policy = true)
      ∧ (∀ entrance ∈ provider.entrances.values,
          provider.entrances.get? entrance.key = some entrance
            ∧ ∃ family, setup.source entrance.source = .ok family)
      ∧ provider.projected.Nodup := by
  have agrees := reached.agrees
  have agree : ∀ first ∈ provider.entrancesOf kind, ∀ second ∈ provider.entrancesOf kind,
      first.policy.eq second.policy = true := by
    intro first firstIn second secondIn
    obtain ⟨firstStored, firstKind⟩ := mem_entrancesOf.mp firstIn
    obtain ⟨secondStored, secondKind⟩ := mem_entrancesOf.mp secondIn
    exact agrees.index.agree first firstStored second secondStored
      (firstKind.trans secondKind.symm)
  obtain ⟨known, returned⟩ := policyFor_returns agree setup.printable
  refine ⟨⟨known, returned, ?_⟩, ?_, agrees.once⟩
  · rcases policyFor_ok returned with ⟨rfl, none_⟩ | ⟨leader, inside, rfl, governs⟩
    · exact ⟨⟨fun _ => none_, fun _ => rfl⟩, (fun policy isSome => by cases isSome)⟩
    · refine ⟨⟨(fun isNone => by cases isNone), fun empty => ?_⟩,
        fun other isSome entrance member => ?_⟩
      · rw [empty] at inside
        cases inside
      · cases isSome
        obtain ⟨stored, sameKind⟩ := mem_entrancesOf.mp member
        exact governs entrance stored sameKind
  · intro entrance member
    obtain ⟨item, listed, rfl⟩ := List.mem_map.mp member
    refine ⟨?_, agrees.index.sourced _ member⟩
    rw [agrees.index.keyed item listed]
    exact Py.Dict.get?_eq_some.mpr listed

omit [DecidableEq V] [VersionValue V] in
/-- Witness: a second tool of the kind with another policy is refused, and the index stands. -/
theorem one_policy_userServer
    : let first := Call.run userProvider (.add (userTool "2.0.0" "latest") "tool")
      let second := Call.run userProvider (.add (userTool "1.0.0" "earliest") "tool")
      let provider := Py.after second (Py.after first userServer)
      (Py.outcome second (Py.after first userServer)).isOk = false
        ∧ provider.projected.Nodup
        ∧ ∃ known, provider.policyFor userProvider.printable "User" = .ok known
          ∧ known = some (.single (.text "latest")) := by
  intro first second provider
  have reached : Reached userProvider provider :=
    .call _ (.call _ (.start userServer.stores userServer.server))
  obtain ⟨⟨known, returned, _⟩, _, once⟩ := reached.one_policy "User"
  refine ⟨by decide +kernel, once, known, returned, ?_⟩
  have policy : provider.policyFor userProvider.printable "User"
      = .ok (some (.single (.text "latest"))) := by
    decide +kernel
  rw [returned] at policy
  exact Except.ok.inj policy

end Provider

end Pyverge.Fastmcp
