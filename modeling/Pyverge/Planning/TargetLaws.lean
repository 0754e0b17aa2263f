import Pyverge.Graph.Queries
import Pyverge.Planning.Targets
import Pyverge.Py.Lists

/-! What compiled target policies resolve to.
A declarative policy is a tree of dictionaries over leaves; for one kind it comes down to one leaf.
Nodes and model classes stand for nodes that were found elsewhere than in the graph's own list.
-/

namespace Pyverge

variable {V F M : Type}

-----------------------------------------------------------------------------------------
-- Policies without callables
-----------------------------------------------------------------------------------------

/-- The policy of a dictionary for a kind: that of the kind, else that of the star. -/
def policyFor (kind : ModelKind) (items : List (String × TargetPolicy V M))
    : Option (TargetPolicy V M) :=
  ((items.find? (fun item => item.1 = kind)).or (items.find? (fun item => item.1 = "*"))).map
    Prod.snd

theorem mem_of_policyFor {kind : ModelKind} {items : List (String × TargetPolicy V M)}
    {policy : TargetPolicy V M} (chosen : policyFor kind items = some policy)
    : ∃ key, (key, policy) ∈ items := by
  rw [policyFor, Option.map_eq_some_iff] at chosen
  obtain ⟨⟨key, policy⟩, found, rfl⟩ := chosen
  refine ⟨key, ?_⟩
  rcases Option.or_eq_some_iff.mp found with own | ⟨_, star⟩
  · exact List.mem_of_find?_eq_some own
  · exact List.mem_of_find?_eq_some star

mutual
/-- The leaf that decides for a kind. -/
def TargetPolicy.selected (kind : ModelKind) : TargetPolicy V M → TargetPolicy V M
  | .dict items => ((selectedAt kind kind items).or (selectedAt kind "*" items)).getD .nothing
  | .nothing => .nothing
  | .text value => .text value
  | .range bounds => .range bounds
  | .model model => .model model
  | .node target => .node target
  | .callable shown resolver => .callable shown resolver

def selectedAt (kind name : ModelKind) : List (String × TargetPolicy V M)
    → Option (TargetPolicy V M)
  | [] => none
  | (key, policy) :: rest =>
      if key = name then some (policy.selected kind) else selectedAt kind name rest
end

theorem selectedAt_eq (kind name : ModelKind) (items : List (String × TargetPolicy V M))
    : selectedAt kind name items
      = (items.find? (fun item => item.1 = name)).map (fun item => item.2.selected kind) := by
  induction items with
  | nil => rfl
  | cons item rest ih =>
      obtain ⟨key, policy⟩ := item
      rw [selectedAt, List.find?_cons]
      by_cases same : key = name
      · simp [same]
      · simp [same, ih]

theorem TargetPolicy.selected_dict (kind : ModelKind) (items : List (String × TargetPolicy V M))
    : (TargetPolicy.dict items).selected kind
      = ((policyFor kind items).map (TargetPolicy.selected kind)).getD .nothing := by
  rw [selected, selectedAt_eq, selectedAt_eq, policyFor]
  cases items.find? (fun item => item.1 = kind) with
  | some item => rfl
  | none => cases items.find? (fun item => item.1 = "*") <;> rfl

section Declarative

variable [VersionValue V]

/-- The bounds parse to versions of the strategy. -/
def VersionRange.Parses (V : Type) [VersionValue V] (bounds : VersionRange) (strategy : String)
    : Prop :=
  ∀ text, bounds.eq = some text ∨ bounds.gte = some text ∨ bounds.lt = some text →
    ∃ version : V, VersionValue.parse text = some version
      ∧ VersionValue.strategy version = strategy

mutual
/-- There are no callables, and all ranges have bounds of the strategy. -/
def TargetPolicy.Declarative (strategy : String) : TargetPolicy V M → Prop
  | .callable _ _ => False
  | .range bounds => bounds.Parses V strategy
  | .dict items => DeclarativeItems strategy items
  | .nothing | .text _ | .model _ | .node _ => True

def DeclarativeItems (strategy : String) : List (String × TargetPolicy V M) → Prop
  | [] => True
  | (_, policy) :: rest => policy.Declarative strategy ∧ DeclarativeItems strategy rest
end

theorem DeclarativeItems.of_mem {strategy : String} {items : List (String × TargetPolicy V M)}
    (declarative : DeclarativeItems strategy items) {item : String × TargetPolicy V M}
    (member : item ∈ items)
    : item.2.Declarative strategy := by
  induction items with
  | nil => cases member
  | cons first rest ih =>
      rcases List.mem_cons.mp member with rfl | later
      · exact declarative.1
      · exact ih declarative.2 later

/-- The version equals `eq` if it is given, and else lies in `[gte, lt)`. -/
structure VersionRange.Admits (bounds : VersionRange) (version : V) : Prop where
  equals : ∀ text, bounds.eq = some text →
    ∃ exact_ : V, VersionValue.parse text = some exact_ ∧ VersionValue.cmp version exact_ = .eq
  above : bounds.eq = none → ∀ text lower, bounds.gte = some text →
    VersionValue.parse text = some lower → VersionValue.cmp version lower ≠ .lt
  below : bounds.eq = none → ∀ text upper, bounds.lt = some text →
    VersionValue.parse text = some upper → VersionValue.cmp version upper = .lt

theorem parseVersion_ok {printable : Char → Bool} {text : String} {version : V}
    (parsed : VersionValue.parse text = some version)
    : parseVersion printable text = .ok version := by
  rw [parseVersion, parsed]

theorem compareVersions_ok {operator : String} {accepts : Ordering → Bool} {left right : V}
    (same : VersionValue.strategy left = VersionValue.strategy right)
    : compareVersions operator accepts left right = .ok (accepts (VersionValue.cmp left right)) :=
  if_pos same

/-- An exact version is compared for precedence. -/
theorem VersionRange.Parses.matches_eq {printable : Char → Bool} {bounds : VersionRange}
    {version : V} (parses : bounds.Parses V (VersionValue.strategy version)) {text : String}
    (given : bounds.eq = some text)
    : ∃ answer, bounds.matches printable version = .ok answer
        ∧ (answer = true ↔ bounds.Admits version) := by
  obtain ⟨exact_, parsed, same⟩ := parses text (.inl given)
  refine ⟨decide (VersionValue.cmp version exact_ = .eq), ?_, ?_⟩
  · simp [VersionRange.matches, given, parseVersion_ok parsed, same, bind, Except.bind, pure,
      Except.pure]
  · rw [decide_eq_true_eq]
    constructor
    · intro equal
      refine ⟨?_, by simp [given], by simp [given]⟩
      intro other same
      obtain rfl := Option.some.inj (given.symm.trans same)
      exact ⟨exact_, parsed, equal⟩
    · intro admits
      obtain ⟨other, parsedOther, equal⟩ := admits.equals text given
      obtain rfl := Option.some.inj (parsed.symm.trans parsedOther)
      exact equal

/-- A bound that parses says what it says of the version it parses to. -/
theorem forall_bound {given : Option String} {text : String} {bound : V} {holds : V → Prop}
    (isText : given = some text) (parsed : VersionValue.parse text = some bound)
    : (∀ text version, given = some text → VersionValue.parse text = some version → holds version)
      ↔ holds bound := by
  constructor
  · intro every
    exact every text bound isText parsed
  · intro held other version isOther parsedOther
    obtain rfl := Option.some.inj (isText.symm.trans isOther)
    obtain rfl := Option.some.inj (parsed.symm.trans parsedOther)
    exact held

/-- Bounds are compared one after the other; an absent bound admits every version. -/
theorem VersionRange.Parses.matches_bounds {printable : Char → Bool} {bounds : VersionRange}
    {version : V} (parses : bounds.Parses V (VersionValue.strategy version))
    (none_ : bounds.eq = none)
    : ∃ answer, bounds.matches printable version = .ok answer
        ∧ (answer = true ↔ bounds.Admits version) := by
  have admits : bounds.Admits version ↔
      (∀ text lower, bounds.gte = some text → VersionValue.parse text = some lower →
        VersionValue.cmp version lower ≠ .lt)
      ∧ ∀ text upper, bounds.lt = some text → VersionValue.parse text = some upper →
        VersionValue.cmp version upper = .lt :=
    ⟨fun admits => ⟨admits.above none_, admits.below none_⟩,
      fun given => ⟨by simp [none_], fun _ => given.1, fun _ => given.2⟩⟩
  rw [admits]
  simp only [VersionRange.matches, none_]
  cases gte : bounds.gte with
  | none =>
      cases lt : bounds.lt with
      | none => exact ⟨true, rfl, by simp⟩
      | some text =>
          obtain ⟨upper, parsed, same⟩ := parses text (.inr (.inr lt))
          refine ⟨!(VersionValue.cmp version upper).isGE, ?_, ?_⟩
          · simp only [parseVersion_ok parsed, compareVersions_ok same.symm, bind, Except.bind]
            rfl
          · rw [forall_bound rfl parsed]
            cases VersionValue.cmp version upper <;> simp
  | some text =>
      obtain ⟨lower, parsed, same⟩ := parses text (.inr (.inl gte))
      simp only [parseVersion_ok parsed, compareVersions_ok same.symm, forall_bound rfl parsed, bind,
        Except.bind]
      cases lt : bounds.lt with
      | none =>
          refine ⟨!(VersionValue.cmp version lower).isLT, ?_, ?_⟩
          · simp only [pure, Except.pure, Bool.not_false, Bool.and_true]
          · cases VersionValue.cmp version lower <;> simp
      | some bound =>
          obtain ⟨upper, parsedUpper, sameUpper⟩ := parses bound (.inr (.inr lt))
          rw [forall_bound rfl parsedUpper]
          simp only [parseVersion_ok parsedUpper, compareVersions_ok sameUpper.symm]
          cases VersionValue.cmp version lower with
          | lt => exact ⟨false, rfl, by simp⟩
          | eq | gt =>
              refine ⟨!(VersionValue.cmp version upper).isGE, rfl, ?_⟩
              cases VersionValue.cmp version upper <;> simp

/-- Among versions of one strategy a range answers, and answers what it says. -/
theorem VersionRange.Parses.matches {printable : Char → Bool} {bounds : VersionRange} {version : V}
    (parses : bounds.Parses V (VersionValue.strategy version))
    : ∃ answer, bounds.matches printable version = .ok answer
        ∧ (answer = true ↔ bounds.Admits version) := by
  cases given : bounds.eq with
  | some text => exact parses.matches_eq given
  | none => exact parses.matches_bounds given

end Declarative

-----------------------------------------------------------------------------------------
-- What a resolver may answer
-----------------------------------------------------------------------------------------

section Answers

variable [DecidableEq V] [VersionValue V]

/-- The node is one of the graph's hydrated nodes. -/
def MigrationGraph.Hydrates (graph : MigrationGraph V) (node : VersionNode V) : Prop :=
  .versionNode node ∈ graph.backend.nodes

/-- A resolver refuses with a catalog error, skips, or answers with a hydrated node of the kind. -/
inductive MigrationGraph.Permits (graph : MigrationGraph V) (kind : ModelKind)
    : Except (Error V) (Option (VersionNode V)) → Prop where
  | refused {error : Error V}
      : error.isCatalogError = true → Permits graph kind (.error error)
  | skipped : Permits graph kind (.ok none)
  | found {node : VersionNode V}
      : graph.Hydrates node → node.id.kind = kind → Permits graph kind (.ok (some node))

/-- The greatest hydrated version of a kind that a range admits, if there is one. -/
def MigrationGraph.PicksGreatest (graph : MigrationGraph V) (kind : ModelKind)
    (bounds : VersionRange) : Option (VersionNode V) → Prop
  | none => ∀ node, graph.Hydrates node → node.id.kind = kind → ¬ bounds.Admits node.id.version
  | some node => graph.Hydrates node ∧ node.id.kind = kind ∧ bounds.Admits node.id.version
      ∧ ∀ other, graph.Hydrates other → other.id.kind = kind → bounds.Admits other.id.version →
        other ≠ node → VersionValue.cmp other.id.version node.id.version = .lt

section Resolvers

variable {hasher : ContentHasher} {source : Registry V} {graph : MigrationGraph V}
  (steps : BuildSteps hasher source graph) (stores : NodeStores source)
include steps stores

theorem BuildSteps.mem_kindVersions {kind : ModelKind} {node : VersionNode V}
    : node ∈ graph.kindVersions kind ↔ graph.Hydrates node ∧ node.id.kind = kind := by
  rw [steps.kindVersions_eq stores, stores.mem_kindVersions, MigrationGraph.Hydrates, steps.backend]
  rfl

theorem BuildSteps.strategy_eq {node other : VersionNode V} (hydrated : graph.Hydrates node)
    (hydratedOther : graph.Hydrates other)
    : VersionValue.strategy node.id.version = VersionValue.strategy other.id.version := by
  rw [MigrationGraph.Hydrates, steps.backend] at hydrated hydratedOther
  exact (stores.uniform _ hydrated _ hydratedOther).symm

/-- A range resolves to the greatest version that it admits. -/
theorem BuildSteps.rangeTargetResolver {printable : Char → Bool} {bounds : VersionRange}
    {current : VersionNode V} (hydrated : graph.Hydrates current)
    (parses : bounds.Parses V current.id.strategy)
    : ∃ picked, Pyverge.rangeTargetResolver printable graph bounds current = .ok picked
        ∧ graph.PicksGreatest current.id.kind bounds picked := by
  have answers : ∀ node ∈ graph.kindVersions current.id.kind, ∃ answer,
      bounds.matches printable node.id.version = .ok answer
        ∧ (answer = true ↔ bounds.Admits node.id.version) := by
    intro node member
    have listed := (steps.mem_kindVersions stores).mp member
    exact VersionRange.Parses.matches (steps.strategy_eq stores listed.1 hydrated ▸ parses)
  let answer := fun node : VersionNode V =>
    (bounds.matches printable node.id.version).toOption.getD false
  have admits : ∀ node ∈ graph.kindVersions current.id.kind,
      answer node = true ↔ bounds.Admits node.id.version := by
    intro node member
    obtain ⟨told, asked, isAnswer⟩ := answers node member
    have same : answer node = told := by simp [answer, asked, Except.toOption]
    rw [same, isAnswer]
  obtain ⟨matched, run⟩ : ∃ matched, (graph.kindVersions current.id.kind).mapM
      (fun version => bounds.matches printable version.id.version) = .ok matched := by
    refine Py.exists_mapM ?_
    intro node member
    obtain ⟨told, asked, _⟩ := answers node member
    exact ⟨told, asked⟩
  have agrees : ∀ node told, bounds.matches printable node.id.version = .ok told →
      told = answer node := by
    intro node told asked
    simp [answer, asked, Except.toOption]
  obtain ⟨rfl, _⟩ := Py.mapM_eq_map answer agrees run
  have picks : Pyverge.rangeTargetResolver printable graph bounds current
      = .ok ((graph.kindVersions current.id.kind).filter answer).getLast? := by
    simp only [Pyverge.rangeTargetResolver, run, bind, Except.bind, ← List.getLast?_map]
    rw [Py.filter_zip_map]
    rfl
  refine ⟨_, picks, ?_⟩
  have sorted : Py.SortedBy VersionNode.id NodeId.cmp
      ((graph.kindVersions current.id.kind).filter answer) := by
    rw [steps.kindVersions_eq stores]
    exact (stores.sorted_kindVersions current.id.kind).filter _
  have listed : ∀ node, node ∈ (graph.kindVersions current.id.kind).filter answer
      ↔ (graph.Hydrates node ∧ node.id.kind = current.id.kind) ∧ bounds.Admits node.id.version := by
    intro node
    rw [List.mem_filter, ← steps.mem_kindVersions stores]
    exact and_congr_right (admits node)
  cases last : ((graph.kindVersions current.id.kind).filter answer).getLast? with
  | none =>
      intro node hydrated kind admitted
      have member := (listed node).mpr ⟨⟨hydrated, kind⟩, admitted⟩
      rw [List.getLast?_eq_none_iff.mp last] at member
      cases member
  | some node =>
      obtain ⟨member, greatest⟩ := sorted.getLast?_eq_some.mp last
      obtain ⟨⟨found, kind⟩, admitted⟩ := (listed node).mp member
      refine ⟨found, kind, admitted, ?_⟩
      intro other foundOther kindOther admittedOther apart
      have before := greatest other ((listed other).mpr ⟨⟨foundOther, kindOther⟩, admittedOther⟩)
        apart
      refine NodeId.version_lt before ?_ (kindOther.trans kind.symm)
      exact steps.oneNamespace _ (mem_namespaces.mpr (.inl ⟨_, foundOther, rfl⟩)) _
        (mem_namespaces.mpr (.inl ⟨_, found, rfl⟩))

end Resolvers

-----------------------------------------------------------------------------------------
-- Dictionaries
-----------------------------------------------------------------------------------------

section Dictionaries

variable {printable : Char → Bool} {graph : MigrationGraph V} {models : ModelIdentity M}

omit [DecidableEq V] [VersionValue V] in
/-- The star is taken for a kind of that name too. -/
theorem multiTargetResolver_eq (resolvers : List (String × TargetResolver V))
    (current : VersionNode V)
    : multiTargetResolver resolvers current
      = (((resolvers.find? (fun item => item.1 = current.id.kind)).or
          (resolvers.find? (fun item => item.1 = "*"))).elim (.ok none)
        (fun item => item.2 current)) := by
  have byKind : ((resolvers.filter (fun item => item.1 ≠ "*")).find?
        (fun item => item.1 = current.id.kind)).or (resolvers.find? (fun item => item.1 = "*"))
      = (resolvers.find? (fun item => item.1 = current.id.kind)).or
        (resolvers.find? (fun item => item.1 = "*")) := by
    by_cases star : current.id.kind = "*"
    · have noKind : (resolvers.filter (fun item => item.1 ≠ "*")).find? (fun item => item.1 = "*")
          = none := by
        rw [List.find?_eq_none]
        intro item member
        simpa using (List.mem_filter.mp member).2
      rw [star, noKind, Option.none_or, Option.or_self]
    · rw [List.find?_filter]
      refine congrArg (Option.or · _) (List.find?_congr (fun item _ => ?_))
      by_cases same : item.1 = current.id.kind
      · simp [same, star]
      · simp [same]
  rw [multiTargetResolver, byKind]
  cases (resolvers.find? (fun item => item.1 = current.id.kind)).or
    (resolvers.find? (fun item => item.1 = "*")) <;> rfl

/-- A compiled item is found where its policy is. -/
theorem find?_compileItems {items : List (String × TargetPolicy V M)}
    {resolvers : List (String × TargetResolver V)}
    (compiled : compileItems printable graph models items = .ok resolvers) (key : String)
    : ((items.find? (fun item => item.1 = key)) = none
        ∧ resolvers.find? (fun item => item.1 = key) = none)
      ∨ ∃ policy resolver, items.find? (fun item => item.1 = key) = some (key, policy)
        ∧ resolvers.find? (fun item => item.1 = key) = some (key, resolver)
        ∧ compile printable graph models policy = .ok resolver := by
  induction items generalizing resolvers with
  | nil =>
      obtain rfl := Except.ok.inj compiled
      exact .inl ⟨rfl, rfl⟩
  | cons item rest ih =>
      obtain ⟨kind, policy⟩ := item
      simp only [compileItems] at compiled
      obtain ⟨resolver, first, compiled⟩ := Py.ok_bind_iff.mp compiled
      obtain ⟨others, later, compiled⟩ := Py.ok_bind_iff.mp compiled
      obtain rfl := Except.ok.inj compiled
      by_cases same : kind = key
      · subst same
        exact .inr ⟨policy, resolver, by simp, by simp, first⟩
      · simpa [same] using ih later

/-- A compiled dictionary answers as the policy that it holds for the kind. -/
theorem multiTargetResolver_compileItems {items : List (String × TargetPolicy V M)}
    {resolvers : List (String × TargetResolver V)}
    (compiled : compileItems printable graph models items = .ok resolvers)
    (current : VersionNode V)
    : (policyFor current.id.kind items = none
        ∧ multiTargetResolver resolvers current = .ok none)
      ∨ ∃ policy resolver, policyFor current.id.kind items = some policy
        ∧ compile printable graph models policy = .ok resolver
        ∧ multiTargetResolver resolvers current = resolver current := by
  rw [multiTargetResolver_eq, policyFor]
  rcases find?_compileItems compiled current.id.kind with ⟨none_, unresolved⟩
    | ⟨policy, resolver, found, resolved, first⟩
  · rcases find?_compileItems compiled "*" with ⟨noStar, noResolver⟩
      | ⟨policy, resolver, found, resolved, first⟩
    · rw [none_, unresolved, noStar, noResolver]
      exact .inl ⟨rfl, rfl⟩
    · rw [none_, unresolved, found, resolved]
      exact .inr ⟨policy, resolver, rfl, first, rfl⟩
  · rw [found, resolved]
    exact .inr ⟨policy, resolver, rfl, first, rfl⟩

end Dictionaries

-----------------------------------------------------------------------------------------
-- Policies as a whole
-----------------------------------------------------------------------------------------

/-- The node that a leaf brings along, by itself or by a model class. -/
def MigrationGraph.standsFor (graph : MigrationGraph V) (models : ModelIdentity M)
    : TargetPolicy V M → Option (VersionNode V)
  | .node target => some target
  | .model model => graph.backend.modelsByRef.get? (models.ref model)
  | .nothing | .text _ | .range _ | .callable _ _ | .dict _ => none

/-- If the policy comes down to a node of the kind, the graph has that very node. -/
def MigrationGraph.Owns (graph : MigrationGraph V) (models : ModelIdentity M)
    (policy : TargetPolicy V M) (kind : ModelKind) : Prop :=
  ∀ target, graph.standsFor models (policy.selected kind) = some target → target.id.kind = kind →
    graph.Hydrates target

section Policies

variable {hasher : ContentHasher} {source : Registry V} {graph : MigrationGraph V}
  (steps : BuildSteps hasher source graph) (stores : NodeStores source)
  {printable : Char → Bool} {models : ModelIdentity M} {current : VersionNode V}
  (hydrated : graph.Hydrates current)

omit [DecidableEq V] [VersionValue V] in
theorem MigrationGraph.permits_found {kind : ModelKind} {node : VersionNode V}
    : graph.Permits kind (.ok (some node)) ↔ graph.Hydrates node ∧ node.id.kind = kind := by
  constructor
  · intro permits
    cases permits with
    | found own same => exact ⟨own, same⟩
  · intro given
    exact .found given.1 given.2

omit [DecidableEq V] [VersionValue V] in
/-- A fixed target is refused for other kinds, and else is answered as it was given. -/
theorem MigrationGraph.permits_fixed {kind : ModelKind} {node : VersionNode V} {error : Error V}
    (refuses : error.isCatalogError = true)
    : graph.Permits kind (if kind ≠ node.id.kind then .error error else .ok (some node))
      ↔ (node.id.kind = kind → graph.Hydrates node) := by
  by_cases same : kind = node.id.kind
  · rw [if_neg (not_not_intro same), graph.permits_found]
    exact ⟨fun given _ => given.1, fun own => ⟨own same.symm, same.symm⟩⟩
  · rw [if_pos same]
    exact iff_of_true (.refused refuses) (fun other => absurd other.symm same)

include steps stores

/-- A text resolves to the graph's own nodes. -/
theorem BuildSteps.permits_text {value : String} {resolver : TargetResolver V}
    (compiled : compile printable graph models (.text value) = .ok resolver)
    : graph.Permits current.id.kind (resolver current) := by
  rw [compile] at compiled
  split at compiled
  · obtain rfl := Except.ok.inj compiled
    exact .skipped
  split at compiled
  · obtain rfl := Except.ok.inj compiled
    rw [latestTargetResolver, MigrationGraph.latest]
    cases last : (graph.kindVersions current.id.kind).getLast? with
    | none => exact .refused rfl
    | some node =>
        obtain ⟨own, kind⟩ := (steps.mem_kindVersions stores).mp (List.mem_of_getLast? last)
        exact .found own kind
  split at compiled
  · obtain rfl := Except.ok.inj compiled
    rw [earliestTargetResolver, MigrationGraph.earliest]
    cases first : (graph.kindVersions current.id.kind).head? with
    | none => exact .refused rfl
    | some node =>
        obtain ⟨own, kind⟩ := (steps.mem_kindVersions stores).mp (List.mem_of_head? first)
        exact .found own kind
  rw [versionStringResolver] at compiled
  split at compiled
  · cases compiled
  case h_2 version _ =>
    obtain rfl := Except.ok.inj compiled
    cases found : graph.findModel { current.id with version := version } with
    | none =>
        simp only [MigrationGraph.getModel, found]
        exact .refused rfl
    | some node =>
        simp only [MigrationGraph.getModel, found]
        obtain ⟨stored, same⟩ := (steps.findModel_eq_some stores).mp found
        refine .found ?_ (by rw [same])
        rw [MigrationGraph.Hydrates, steps.backend]
        exact stored

include hydrated

/-- A compiled policy permits its answer exactly if the graph owns the node it comes down to. The
induction follows the policy.
-/
theorem BuildSteps.permits_iff : ∀ (policy : TargetPolicy V M) {resolver : TargetResolver V},
    policy.Declarative current.id.strategy →
    compile printable graph models policy = .ok resolver →
    (graph.Permits current.id.kind (resolver current)
      ↔ graph.Owns models policy current.id.kind)
  | .nothing, resolver, _, compiled => by
      obtain rfl := Except.ok.inj compiled
      exact iff_of_true .skipped (fun _ impossible => by cases impossible)
  | .text value, resolver, _, compiled =>
      iff_of_true (steps.permits_text stores compiled)
        (fun _ impossible => by cases impossible)
  | .range bounds, resolver, parses, compiled => by
      obtain rfl := Except.ok.inj compiled
      obtain ⟨picked, run, greatest⟩ : ∃ picked,
          Pyverge.rangeTargetResolver printable graph bounds current = .ok picked
            ∧ graph.PicksGreatest current.id.kind bounds picked :=
        steps.rangeTargetResolver stores hydrated parses
      rw [run]
      refine iff_of_true ?_ (fun _ impossible => by cases impossible)
      cases picked with
      | none => exact .skipped
      | some node => exact .found greatest.1 greatest.2.1
  | .model model, resolver, _, compiled => by
      rw [compile, modelTargetResolver, MigrationGraph.getModelByRef] at compiled
      cases found : graph.backend.modelsByRef.get? (models.ref model) with
      | none => simp [found] at compiled
      | some target =>
          simp only [found] at compiled
          obtain rfl := Except.ok.inj compiled
          rw [graph.permits_fixed rfl]
          simp [MigrationGraph.Owns, TargetPolicy.selected, MigrationGraph.standsFor, found]
  | .node target, resolver, _, compiled => by
      rw [compile, fixedTargetResolver] at compiled
      split at compiled
      · obtain rfl := Except.ok.inj compiled
        rw [graph.permits_fixed rfl]
        simp [MigrationGraph.Owns, TargetPolicy.selected, MigrationGraph.standsFor]
      · cases compiled
  | .callable shown answer, resolver, declarative, _ => declarative.elim
  | .dict items, resolver, declarative, compiled => by
      rw [compile] at compiled
      obtain ⟨resolvers, compiledItems, compiled⟩ := Py.ok_bind_iff.mp compiled
      obtain rfl := Except.ok.inj compiled
      rw [MigrationGraph.Owns, TargetPolicy.selected_dict]
      rcases multiTargetResolver_compileItems compiledItems current with ⟨none_, skips⟩
        | ⟨policy, inner, chosen, compiled, same⟩
      · rw [none_, skips]
        exact iff_of_true .skipped (fun _ impossible => by cases impossible)
      · rw [chosen, same]
        obtain ⟨key, member⟩ := mem_of_policyFor chosen
        exact BuildSteps.permits_iff policy (DeclarativeItems.of_mem declarative member) compiled
termination_by policy => sizeOf policy
decreasing_by
  have below := List.sizeOf_lt_of_mem member
  simp only [Prod.mk.sizeOf_spec, TargetPolicy.dict.sizeOf_spec] at below ⊢
  omega

end Policies

/-- What a compiled policy does for an entry. -/
structure MigrationGraph.Obeys (graph : MigrationGraph V) (printable : Char → Bool)
    (models : ModelIdentity M) (policy : TargetPolicy V M) (current : VersionNode V)
    (outcome : Except (Error V) (Option (VersionNode V))) : Prop where
  permits : graph.Permits current.id.kind outcome
  range : ∀ bounds, policy = .range bounds →
    ∃ picked, outcome = .ok picked ∧ graph.PicksGreatest current.id.kind bounds picked
  chosen : ∀ items inner, policy = .dict items → policyFor current.id.kind items = some inner →
    ∃ resolver, compile printable graph models inner = .ok resolver ∧ outcome = resolver current
  skipped : ∀ items, policy = .dict items → policyFor current.id.kind items = none →
    outcome = .ok none

/-- A compiled declarative policy does for a hydrated entry what it should exactly if it does not
come down to a node of the entry's kind that is not the graph's own: such a node is answered as it
was given, or as the model map has kept it.
-/
theorem Reachable.obeys_iff {config : Config V F} {source : Registry V}
    (reached : Reachable config source) {hasher : ContentHasher} {revision : Option Revision}
    {graph : MigrationGraph V} (built : buildGraph hasher source revision = .ok graph)
    {printable : Char → Bool} {models : ModelIdentity M} {policy : TargetPolicy V M}
    {resolver : TargetResolver V} (compiled : compile printable graph models policy = .ok resolver)
    {current : VersionNode V} (hydrated : graph.Hydrates current)
    (declarative : policy.Declarative current.id.strategy)
    : graph.Obeys printable models policy current (resolver current)
      ↔ graph.Owns models policy current.id.kind := by
  have stores := reached.nodeStores
  obtain ⟨steps⟩ := buildGraph_steps stores reached.edgeStores built
  rw [← steps.permits_iff stores hydrated policy declarative compiled]
  constructor
  · intro obeys
    exact obeys.permits
  · intro permits
    have dictionary : ∀ items, policy = .dict items →
        (policyFor current.id.kind items = none ∧ resolver current = .ok none)
          ∨ ∃ inner answer, policyFor current.id.kind items = some inner
            ∧ compile printable graph models inner = .ok answer
            ∧ resolver current = answer current := by
      intro items same
      rw [same, compile] at compiled
      obtain ⟨resolvers, compiledItems, compiled⟩ := Py.ok_bind_iff.mp compiled
      obtain rfl := Except.ok.inj compiled
      exact multiTargetResolver_compileItems compiledItems current
    refine {
      permits
      range := ?_
      chosen := ?_
      skipped := ?_
    }
    · intro bounds same
      subst same
      obtain rfl := Except.ok.inj compiled
      exact steps.rangeTargetResolver stores hydrated declarative
    · intro items inner same found
      rcases dictionary items same with ⟨none_, _⟩ | ⟨policy, answer, chosen, compiled, told⟩
      · rw [none_] at found
        cases found
      · obtain rfl := Option.some.inj (chosen.symm.trans found)
        exact ⟨answer, compiled, told⟩
    · intro items same found
      rcases dictionary items same with ⟨_, skips⟩ | ⟨policy, answer, chosen, _⟩
      · exact skips
      · rw [chosen] at found
        cases found

end Answers

/-- One model class, of the first release of `User`. -/
def userModels : ModelIdentity Unit :=
  ⟨fun _ => ⟨"app", "UserV1"⟩, fun _ => "UserV1", fun _ => "app.UserV1"⟩

/-- Users are taken to a node, all else to what a range admits. -/
def userPolicy (target : VersionNode Release) : TargetPolicy Release Unit :=
  .dict [("*", .range ⟨some "1.0.0", none, none⟩), ("User", .node target)]

theorem declarative_userPolicy (target : VersionNode Release)
    : (userPolicy target).Declarative "Version" := by
  refine ⟨?_, trivial, trivial⟩
  intro text given
  obtain rfl : "1.0.0" = text := by simpa using given
  exact ⟨⟨1, 0, 0⟩, by decide +kernel, rfl⟩

/-- Witness: the node is the graph's own. -/
theorem obeys_ownNode
    : ∃ graph resolver, buildGraph plainConfig.hasher (userCatalogIn "default") none = .ok graph
        ∧ compile (fun _ => true) graph userModels (userPolicy (userNode 1 "UserV1"))
          = .ok resolver
        ∧ graph.Obeys (fun _ => true) userModels (userPolicy (userNode 1 "UserV1"))
          (userNode 1 "UserV1") (resolver (userNode 1 "UserV1")) := by
  have shown : (buildGraph plainConfig.hasher (userCatalogIn "default") none).map (fun graph =>
      (graph.backend.nodes, (compile (fun _ => true) graph userModels
        (userPolicy (userNode 1 "UserV1"))).toOption.isSome))
      = .ok ([.versionNode (userNode 1 "UserV1")], true) := by
    decide +kernel
  cases built : buildGraph plainConfig.hasher (userCatalogIn "default") none with
  | error error => simp [built, Except.map] at shown
  | ok graph =>
      simp only [built, Except.map, Except.ok.injEq, Prod.mk.injEq] at shown
      obtain ⟨nodes, compiles⟩ := shown
      cases compiled : compile (fun _ => true) graph userModels
          (userPolicy (userNode 1 "UserV1")) with
      | error error => simp [compiled, Except.toOption] at compiles
      | ok resolver =>
          have hydrated : graph.Hydrates (userNode 1 "UserV1") := by
            rw [MigrationGraph.Hydrates, nodes]
            exact List.mem_singleton_self _
          have reached : Reachable plainConfig (userCatalogIn "default") :=
            .step _ (.new plainConfig "default" false (by decide))
          refine ⟨graph, resolver, rfl, compiled,
            (reached.obeys_iff built compiled hydrated (declarative_userPolicy _)).mpr ?_⟩
          intro target found _
          obtain rfl : userNode 1 "UserV1" = target := Option.some.inj found
          exact hydrated

/-- Counterexample: a caller's node of a stored identity, with another model class. -/
theorem not_obeys_foreignNode
    : ¬ ∀ (config : Config Release Unit) (source : Registry Release), Reachable config source →
        ∀ (graph : MigrationGraph Release), buildGraph config.hasher source none = .ok graph →
        ∀ (models : ModelIdentity Unit) (policy : TargetPolicy Release Unit)
          (resolver : TargetResolver Release),
          compile (fun _ => true) graph models policy = .ok resolver →
        ∀ (current : VersionNode Release), graph.Hydrates current →
          policy.Declarative current.id.strategy →
          graph.Obeys (fun _ => true) models policy current (resolver current) := by
  intro claim
  have shown : (buildGraph plainConfig.hasher (userCatalogIn "default") none).map (fun graph =>
      (graph.backend.nodes, (compile (fun _ => true) graph userModels
        (userPolicy (userNode 1 "Other"))).map (fun resolver => resolver (userNode 1 "UserV1"))))
      = .ok ([.versionNode (userNode 1 "UserV1")], .ok (.ok (some (userNode 1 "Other")))) := by
    decide +kernel
  cases built : buildGraph plainConfig.hasher (userCatalogIn "default") none with
  | error error => simp [built, Except.map] at shown
  | ok graph =>
      simp only [built, Except.map, Except.ok.injEq, Prod.mk.injEq] at shown
      obtain ⟨nodes, answers⟩ := shown
      cases compiled : compile (fun _ => true) graph userModels
          (userPolicy (userNode 1 "Other")) with
      | error error => simp [compiled] at answers
      | ok resolver =>
          have answer : resolver (userNode 1 "UserV1") = .ok (some (userNode 1 "Other")) := by
            simpa [compiled] using answers
          have hydrated : graph.Hydrates (userNode 1 "UserV1") := by
            rw [MigrationGraph.Hydrates, nodes]
            exact List.mem_singleton_self _
          have reached : Reachable plainConfig (userCatalogIn "default") :=
            .step _ (.new plainConfig "default" false (by decide))
          have obeys := claim plainConfig _ reached graph built userModels _ resolver compiled _
            hydrated (declarative_userPolicy _)
          have permits := obeys.permits
          rw [answer, graph.permits_found, MigrationGraph.Hydrates, nodes,
            List.mem_singleton] at permits
          exact absurd permits.1 (by decide)

end Pyverge
