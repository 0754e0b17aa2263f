import Pyverge.Adapters.Entrances

/-! What enriching a server creates: one component for each registered version of an indexed kind
that has none, and the same again is nothing.
-/

namespace Pyverge.Fastmcp

variable {V M F K H C S : Type}

namespace Provider

variable [DecidableEq V] [VersionValue V] {setup : ProviderSetup V M F K H C S}
  {provider : Provider V F K H S}

-----------------------------------------------------------------------------------------
-- What is missing
-----------------------------------------------------------------------------------------

/-- The schema of a registered version, `None` if its model cannot be resolved. -/
def schemaAt (setup : ProviderSetup V M F K H C S) (provider : Provider V F K H S)
    (key : EntranceKey) : Except (Error V) (Option Schema) := do
  let parsed ← parseVersion (V := V) setup.printable key.2
  let node ← provider.registry.getModel (setup.adapter.nodeId key.1 parsed)
  setup.adapter.schemaOf node.modelref

/-- A registered version of an indexed kind. -/
structure Indexed (provider : Provider V F K H S) (key : EntranceKey) : Prop where
  indexed : ∃ entrance ∈ provider.entrances.values, entrance.kind = key.1
  registered : key.2 ∈ provider.versionsFor key.1

/-- The family of the first entrance of a kind, the targets that its policy selects, and the handler
that answers for its versions.
-/
def Anchors (setup : ProviderSetup V M F K H C S) (provider : Provider V F K H S) (kind : String)
    (source : ComponentKind V C H S) (mapping : Py.Dict String String) (handler : H) : Prop :=
  ∃ policy entrance,
    provider.policyFor setup.printable kind = .ok (some policy)
    ∧ (provider.entrancesOf kind).head? = some entrance
    ∧ setup.source entrance.source = .ok source
    ∧ provider.policyMapping setup.printable kind policy = .ok mapping
    ∧ provider.anchorHandler setup.printable kind (provider.entrancesOf kind)
        (mapping.getD kind "") = .ok handler

/-- The component of a version as the builder makes it. -/
def Makes (setup : ProviderSetup V M F K H C S) (provider : Provider V F K H S)
    (item : ComponentKind V C H S × VirtualComponent H) : Prop :=
  ∃ mapping handler schema,
    Anchors setup provider item.2.kind item.1 mapping handler
    ∧ provider.schemaAt setup item.2.key = .ok (some schema)
    ∧ item.2.schema = setup.adapter.withoutIdentity schema
    ∧ item.2.handler = setup.delegate item.2.kind item.2.version mapping handler

/-- The step from one state to the other creates the listed components, in their order on the
server: those of the considered versions that are not covered and have a schema, each once.
-/
structure Creates (setup : ProviderSetup V M F K H C S) (Considered : EntranceKey → Prop)
    (provider : Provider V F K H S)
    (created : List (ComponentKind V C H S × VirtualComponent H))
    (final : Provider V F K H S) : Prop where
  state : final = { provider with
    projected := provider.projected ++ created.map (fun item => item.2.key)
    server := final.server }
  server : created.foldlM (fun server item => item.1.materialize item.2 server) provider.server
    = .ok final.server
  once : (created.map (fun item => item.2.key)).Nodup
  exact_ : ∀ key, key ∈ created.map (fun item => item.2.key)
    ↔ Considered key ∧ provider.covers key = false
      ∧ ∃ schema, provider.schemaAt setup key = .ok (some schema)
  known : ∀ key, Considered key →
    provider.covers key = true ∨ ∃ schema, provider.schemaAt setup key = .ok schema
  made : ∀ item ∈ created, provider.Makes setup item

omit [DecidableEq V] [VersionValue V] in
theorem covers_projected {keys : List EntranceKey} {key : EntranceKey} {server : S}
    : Provider.covers { provider with projected := provider.projected ++ keys, server } key
      = (provider.covers key || keys.contains key) := by
  simp [covers, List.contains_eq_mem, Bool.or_assoc]

namespace Creates

variable {Considered Others : EntranceKey → Prop}
  {created more : List (ComponentKind V C H S × VirtualComponent H)}
  {middle final : Provider V F K H S}

omit [DecidableEq V] in
theorem shape (creates : Creates setup Considered provider created final)
    : ∃ server, final = { provider with
        projected := provider.projected ++ created.map (fun item => item.2.key), server } :=
  ⟨_, creates.state⟩

omit [DecidableEq V] in
theorem congr (same : ∀ key, Considered key ↔ Others key)
    (creates : Creates setup Considered provider created final)
    : Creates setup Others provider created final :=
  { creates with
    exact_ := fun key => by rw [creates.exact_, same]
    known := fun key considered => creates.known key ((same key).mpr considered) }

omit [DecidableEq V] in
/-- Nothing is created if everything that is considered is covered or has no schema. -/
theorem nothing (none_ : ∀ key, Considered key →
      provider.covers key = true ∨ provider.schemaAt setup key = .ok none)
    : Creates setup Considered provider [] provider where
  state := by simp
  server := rfl
  once := List.nodup_nil
  exact_ := by
    refine fun key => iff_of_false (List.not_mem_nil) ?_
    rintro ⟨considered, uncovered, schema, found⟩
    rcases none_ key considered with covered | absent
    · rw [covered] at uncovered
      cases uncovered
    · rw [absent] at found
      cases found
  known := fun key considered => (none_ key considered).imp id (fun absent => ⟨none, absent⟩)
  made := fun _ member => (List.not_mem_nil member).elim

omit [DecidableEq V] in
/-- What two steps create one after the other. -/
theorem trans (first : Creates setup Considered provider created middle)
    (second : Creates setup Others middle more final)
    : Creates setup (fun key => Considered key ∨ Others key) provider (created ++ more) final := by
  obtain ⟨server, rfl⟩ := first.shape
  have covers : ∀ key, Provider.covers { provider with
      projected := provider.projected ++ created.map (fun item => item.2.key), server } key = false
      ↔ provider.covers key = false ∧ key ∉ created.map (fun item => item.2.key) := by
    intro key
    rw [covers_projected, Bool.or_eq_false_iff, List.contains_eq_mem, decide_eq_false_iff_not]
  have sorted := second.exact_
  refine ⟨?_, ?_, ?_, ?_, ?_, ?_⟩
  · rw [List.map_append, ← List.append_assoc]
    exact second.state
  · rw [List.foldlM_append, first.server]
    exact second.server
  · rw [List.map_append]
    refine List.nodup_append.mpr ⟨first.once, second.once, ?_⟩
    rintro key earlier other later rfl
    exact ((covers key).mp ((sorted key).mp later).2.1).2 earlier
  · intro key
    rw [List.map_append, List.mem_append, first.exact_, sorted, covers, first.exact_]
    constructor
    · rintro (⟨considered, uncovered, schema⟩ | ⟨considered, ⟨uncovered, _⟩, schema⟩)
      · exact ⟨.inl considered, uncovered, schema⟩
      · exact ⟨.inr considered, uncovered, schema⟩
    · rintro ⟨considered, uncovered, schema⟩
      by_cases earlier : Considered key
      · exact .inl ⟨earlier, uncovered, schema⟩
      · refine .inr ⟨considered.resolve_left earlier, ⟨uncovered, ?_⟩, schema⟩
        exact fun both => earlier both.1
  · rintro key (considered | considered)
    · exact first.known key considered
    · rcases second.known key considered with covered | known
      · rw [covers_projected, Bool.or_eq_true, List.contains_iff_mem] at covered
        refine covered.imp id (fun listed => ?_)
        obtain ⟨_, _, schema, found⟩ := (first.exact_ key).mp listed
        exact ⟨some schema, found⟩
      · exact .inr known
  · intro item member
    rcases List.mem_append.mp member with earlier | later
    · exact first.made item earlier
    · exact second.made item later

end Creates

omit [DecidableEq V] in
/-- A loop creates what its steps create, if each step starts with the index and the registry of
the first one.
-/
theorem forM_creates {α : Type} {body : α → ProviderM V F K H S PUnit}
    {Considered : α → EntranceKey → Prop} {Found : α → Prop} {items : List α}
    (steps : ∀ item ∈ items, ∀ projected server next,
      body item { provider with projected, server } = .ok ⟨⟩ next →
      Found item ∧ ∃ created,
        Creates setup (Considered item) { provider with projected, server } created next)
    {projected : List EntranceKey} {server : S} {final : Provider V F K H S}
    (returned : items.forM body { provider with projected, server } = .ok ⟨⟩ final)
    : (∀ item ∈ items, Found item)
      ∧ ∃ created, Creates setup (fun key => ∃ item ∈ items, Considered item key)
          { provider with projected, server } created final := by
  induction items generalizing projected server with
  | nil =>
      cases returned
      exact ⟨fun _ member => (List.not_mem_nil member).elim, [], .nothing (fun key => by simp)⟩
  | cons item rest ih =>
      obtain ⟨_, middle, run, later⟩ := Py.bind_ok.mp returned
      obtain ⟨found, created, first⟩ := steps item (by simp) projected server middle run
      obtain ⟨reached, rfl⟩ := first.shape
      obtain ⟨foundRest, more, second⟩ :=
        ih (fun other member => steps other (List.mem_cons_of_mem _ member)) later
      refine ⟨List.forall_mem_cons.mpr ⟨found, foundRest⟩, created ++ more,
        (first.trans second).congr (fun key => ?_)⟩
      rw [List.exists_mem_cons_iff]

-----------------------------------------------------------------------------------------
-- What enriching creates
-----------------------------------------------------------------------------------------

omit [DecidableEq V] in
theorem projectVersion_creates {source : ComponentKind V C H S} {kind version : String}
    {mapping : Py.Dict String String} {handler : H}
    (anchors : Anchors setup provider kind source mapping handler) {final : Provider V F K H S}
    (returned : projectVersion setup source kind mapping handler version provider = .ok ⟨⟩ final)
    : ∃ created, Creates setup (fun key => key = (kind, version)) provider created final := by
  obtain ⟨covered, looked, rest⟩ := Py.query_bind_ok.mp returned
  cases looked
  cases covers : provider.covers (kind, version) with
  | true =>
      rw [covers] at rest
      cases rest
      exact ⟨[], .nothing (by rintro key rfl; exact .inl covers)⟩
  | false =>
      rw [covers] at rest
      obtain ⟨parsed, parses, rest⟩ := Py.query_bind_ok.mp rest
      obtain ⟨node, registered, rest⟩ := Py.query_bind_ok.mp rest
      obtain ⟨found, resolved, rest⟩ := Py.query_bind_ok.mp rest
      have schema : provider.schemaAt setup (kind, version) = .ok found := by
        simp only [schemaAt, parses, registered, bind, Except.bind]
        exact resolved
      cases found with
      | none =>
          cases rest
          exact ⟨[], .nothing (by rintro key rfl; exact .inr schema)⟩
      | some document =>
          obtain ⟨server, created, rest⟩ := Py.query_bind_ok.mp rest
          cases rest
          refine ⟨[(source, ⟨kind, version, setup.adapter.withoutIdentity document,
            setup.delegate kind version mapping handler⟩)], rfl, ?_, List.nodup_singleton _, ?_, ?_,
            ?_⟩
          · simp only [List.foldlM_cons, List.foldlM_nil, created]
            rfl
          · intro key
            rw [List.map_singleton, List.mem_singleton]
            constructor
            · rintro rfl
              exact ⟨rfl, covers, document, schema⟩
            · exact fun considered => considered.1
          · rintro key rfl
            exact .inr ⟨some document, schema⟩
          · intro item member
            rw [List.mem_singleton] at member
            subst member
            exact ⟨mapping, handler, document, anchors, schema, rfl, rfl⟩

omit [DecidableEq V] in
theorem projectKind_creates {kind : String} {final : Provider V F K H S}
    (indexed : ∃ entrance ∈ provider.entrances.values, entrance.kind = kind)
    (returned : projectKind setup kind (provider.entrancesOf kind) provider = .ok ⟨⟩ final)
    : (∃ source mapping handler, Anchors setup provider kind source mapping handler)
      ∧ ∃ created, Creates setup
          (fun key => ∃ version ∈ provider.versionsFor kind, key = (kind, version))
          provider created final := by
  obtain ⟨known, agreed, rest⟩ := Py.query_bind_ok.mp returned
  obtain ⟨entrance, stored, sameKind⟩ := indexed
  have listed := mem_entrancesOf.mpr ⟨stored, sameKind⟩
  rcases policyFor_ok agreed with ⟨rfl, none_⟩ | ⟨leader, _, rfl, _⟩
  · rw [none_] at listed
    exact (List.not_mem_nil listed).elim
  · obtain ⟨source, sourced, rest⟩ := Py.query_bind_ok.mp rest
    obtain ⟨mapping, mapped, rest⟩ := Py.query_bind_ok.mp rest
    obtain ⟨handler, anchored, rest⟩ := Py.query_bind_ok.mp rest
    obtain ⟨versions, looked, rest⟩ := Py.query_bind_ok.mp rest
    cases looked
    cases first : (provider.entrancesOf kind).head? with
    | none =>
        rw [List.head?_eq_none_iff.mp first] at listed
        exact (List.not_mem_nil listed).elim
    | some entrance =>
        rw [first] at sourced
        have anchors : Anchors setup provider kind source mapping handler :=
          ⟨leader.policy, entrance, agreed, first, sourced, mapped, anchored⟩
        have steps : ∀ version ∈ provider.versionsFor kind, ∀ projected server next,
            projectVersion setup source kind mapping handler version
              { provider with projected, server } = .ok ⟨⟩ next →
            True ∧ ∃ created, Creates setup (fun key => key = (kind, version))
              { provider with projected, server } created next := by
          intro version _ projected server next run
          have same : Anchors setup { provider with projected, server } kind source mapping handler :=
            anchors
          exact ⟨trivial, projectVersion_creates same run⟩
        exact ⟨⟨source, mapping, handler, anchors⟩, (forM_creates steps rest).2⟩

omit [DecidableEq V] in
/-- A run of the generator that is materialized to its end creates a component for exactly the
registered versions of indexed kinds that are not covered and whose model is known, each once and
each as the builder makes it from the state before; and it writes nothing else. For every indexed
kind a handler was found.
-/
theorem materializeVirtuals_creates {final : Provider V F K H S}
    (returned : materializeVirtuals setup provider = .ok ⟨⟩ final)
    : (∀ entrance ∈ provider.entrances.values,
        ∃ source mapping handler, Anchors setup provider entrance.kind source mapping handler)
      ∧ ∃ created, Creates setup provider.Indexed provider created final := by
  obtain ⟨groups, looked, rest⟩ := Py.query_bind_ok.mp returned
  cases looked
  have steps : ∀ group ∈ (Py.Dict.groupBy Entrance.kind provider.entrances.values).items,
      ∀ projected server next,
        projectKind setup group.1 group.2 { provider with projected, server } = .ok ⟨⟩ next →
        (∃ source mapping handler, Anchors setup provider group.1 source mapping handler)
        ∧ ∃ created, Creates setup
          (fun key => ∃ version ∈ provider.versionsFor group.1, key = (group.1, version))
          { provider with projected, server } created next := by
    intro group member projected server next run
    obtain ⟨members, indexed⟩ := Py.Dict.mem_items_groupBy.mp member
    rw [members] at run
    have same : ∃ entrance ∈ { provider with projected, server }.entrances.values,
        entrance.kind = group.1 :=
      indexed
    exact projectKind_creates same run
  have grouped : ∀ kind, (∃ entrance ∈ provider.entrances.values, entrance.kind = kind) →
      ∃ entrances, (kind, entrances)
        ∈ (Py.Dict.groupBy Entrance.kind provider.entrances.values).items := by
    intro kind indexed
    obtain ⟨entrances, found⟩ := Py.Dict.mem_keys.mp (Py.Dict.mem_keys_groupBy.mpr indexed)
    exact ⟨entrances, Py.Dict.get?_eq_some.mp found⟩
  obtain ⟨anchored, created, creates⟩ := forM_creates steps rest
  refine ⟨fun entrance member => ?_, created, creates.congr (fun key => ?_)⟩
  · obtain ⟨entrances, group⟩ := grouped entrance.kind ⟨entrance, member, rfl⟩
    exact anchored _ group
  · constructor
    · rintro ⟨group, member, version, registered, rfl⟩
      exact ⟨(Py.Dict.mem_items_groupBy.mp member).2, registered⟩
    · rintro ⟨indexed, registered⟩
      obtain ⟨entrances, group⟩ := grouped key.1 indexed
      exact ⟨(key.1, entrances), group, key.2, registered, rfl⟩

omit [DecidableEq V] [VersionValue V] in
/-- Witness: next to the tool of the second release one for the first release is created, which
answers with the handler of the latest one.
-/
theorem materializeVirtuals_userServer
    : let provider := Py.after (Call.run userProvider .sync) userServer
      let final := Py.after (materializeVirtuals userProvider) provider
      (∃ created, Creates userProvider provider.Indexed provider created final)
        ∧ final.projected = [("User", "1.0.0")]
        ∧ final.server.tools.map Component.fn
          = [some "handle 2.0.0", some "User@1.0.0: handle 2.0.0"] := by
  intro provider final
  have returned : (Py.outcome (materializeVirtuals userProvider) provider).isOk = true := by
    decide +kernel
  exact ⟨(materializeVirtuals_creates (Py.run_of_isOk returned)).2, by decide +kernel,
    by decide +kernel⟩

-----------------------------------------------------------------------------------------
-- Nothing left to create
-----------------------------------------------------------------------------------------

omit [DecidableEq V] in
theorem projectVersion_idle {source : ComponentKind V C H S} {kind version : String}
    {mapping : Py.Dict String String} {handler : H}
    (idle : provider.covers (kind, version) = true
      ∨ provider.schemaAt setup (kind, version) = .ok none)
    : projectVersion setup source kind mapping handler version provider = .ok ⟨⟩ provider := by
  unfold projectVersion
  rw [Py.query_bind_eq]
  cases covers : provider.covers (kind, version) with
  | true => rfl
  | false =>
      rw [covers] at idle
      have absent := idle.resolve_left (by simp)
      obtain ⟨parsed, parses, rest⟩ := Py.ok_bind_iff.mp absent
      obtain ⟨node, registered, resolved⟩ := Py.ok_bind_iff.mp rest
      simp only [Bool.false_eq_true, if_false, Py.query_bind_eq, parses, registered, resolved]
      rfl

omit [DecidableEq V] in
/-- The generator yields nothing if every registered version of the indexed kinds is covered or has
no model.
-/
theorem materializeVirtuals_idle
    (anchored : ∀ entrance ∈ provider.entrances.values,
      ∃ source mapping handler, Anchors setup provider entrance.kind source mapping handler)
    (idle : ∀ key, provider.Indexed key →
      provider.covers key = true ∨ provider.schemaAt setup key = .ok none)
    : materializeVirtuals setup provider = .ok ⟨⟩ provider := by
  unfold materializeVirtuals
  rw [Py.query_bind_eq]
  refine Py.forM_fixed (fun group member => ?_)
  obtain ⟨kind, entrances⟩ := group
  obtain ⟨members, entrance, stored, sameKind⟩ := Py.Dict.mem_items_groupBy.mp member
  obtain ⟨source, mapping, handler, policy, leader, agreed, first, sourced, mapped, anchor⟩ :=
    anchored entrance stored
  rw [sameKind] at agreed first mapped anchor
  have group : entrances = provider.entrancesOf kind := members
  subst group
  simp only [projectKind, Py.query_bind_eq, agreed, first, sourced, mapped, anchor]
  refine Py.forM_fixed (fun version registered => projectVersion_idle ?_)
  exact idle (kind, version) ⟨⟨entrance, stored, sameKind⟩, registered⟩

end Provider

end Pyverge.Fastmcp
