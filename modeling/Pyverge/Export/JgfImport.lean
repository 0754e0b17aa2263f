import Pyverge.Export.ExportDigest
import Pyverge.Export.Manifest
import Pyverge.Registry.Refusals
import Pyverge.Registry.Removals

/-! Import of a JSON graph document.
Nodes are stored first, then edges, each as the resolvers give it. A document shows neither bare
version keys nor discriminators, so what comes back is decided by the resolvers and by the
hydrated versions at the ends of the executable edges.
-/

namespace Pyverge

open Py (Json)

variable {V F : Type}

-----------------------------------------------------------------------------------------
-- Reading documents
-----------------------------------------------------------------------------------------

/-- `members[key]` for a text; `none` stands for what raises or is not a text. -/
def textAt (members : List (String × Json)) (key : String) : Option String :=
  match Json.getMember members key with
  | some (.str text) => some text
  | _ => none

/-- `JgfNode.from_dict`: the label is the id unless there is one. -/
def JgfNode.fromDict (id : String) : Json → Option JgfNode
  | .obj members => do
      let label ← if (Json.getMember members "label").isNone then some id
        else textAt members "label"
      let metadata ← mappingAt members "metadata"
      return { id, label, metadata }
  | _ => none

/-- `JgfEdge.from_dict`: an edge is directed unless it says otherwise. -/
def JgfEdge.fromDict : Json → Option JgfEdge
  | .obj members => do
      let id ← textAt members "id"
      let source ← textAt members "source"
      let target ← textAt members "target"
      let directed := ((Json.getMember members "directed").getD (.bool true)).truthy
      let metadata ← mappingAt members "metadata"
      return { id, source, target, directed, metadata }
  | _ => none

/-- `graph.get("edges", [])` -/
def edgesAt (graph : List (String × Json)) : Option (List Json) :=
  match Json.getMember graph "edges" with
  | none => some []
  | some (.arr edges) => some edges
  | some _ => none

/-- `JgfGraph.from_dict` -/
def JgfGraph.fromDict (document : Json) : Option JgfGraph := do
  let graph ← graphOf document
  let members ← mappingAt graph "nodes"
  let nodes ← members.mapM (fun node => JgfNode.fromDict node.1 node.2)
  let documents ← edgesAt graph
  let edges ← documents.mapM JgfEdge.fromDict
  let id ← textAt graph "id"
  let directed ← Json.getMember graph "directed"
  let metadata ← mappingAt graph "metadata"
  return { id, directed := directed.truthy, nodes, edges, metadata }

theorem JgfNode.fromDict_toDict (node : JgfNode)
    : JgfNode.fromDict node.id node.toDict = some node := rfl

theorem JgfEdge.fromDict_toDict (edge : JgfEdge)
    : JgfEdge.fromDict edge.toDict = some edge := rfl

/-- What each item is read back from, all items are read back from. -/
theorem mapM_map_inverse {α β : Type} {write : α → β} {read : β → Option α}
    (inverse : ∀ item, read (write item) = some item) (items : List α)
    : (items.map write).mapM read = some items := by
  induction items with
  | nil => rfl
  | cons item rest ih =>
      rw [List.map_cons, List.mapM_cons, inverse, ih]
      rfl

/-- A graph whose nodes have different ids is read back from its document. -/
theorem JgfGraph.fromDict_toDict (graph : JgfGraph) (apart : (graph.nodes.map JgfNode.id).Nodup)
    : JgfGraph.fromDict graph.toDict = some graph := by
  have listed : (Py.Dict.ofItems (graph.nodes.map (fun node => (node.id, node.toDict)))).items
      = graph.nodes.map (fun node => (node.id, node.toDict)) := by
    apply Py.Dict.items_ofItems
    rwa [List.map_map]
  have metadata : mappingAt graph.members "metadata" = some graph.metadata := by
    obtain ⟨id, directed, nodes, edges, metadata⟩ := graph
    cases metadata with
    | nil => rfl
    | cons item rest => rfl
  have nodes : mappingAt graph.members "nodes"
      = some (graph.nodes.map (fun node => (node.id, node.toDict))) := by
    rw [← listed]
    rfl
  have edges : edgesAt graph.members = some (graph.edges.map JgfEdge.toDict) := rfl
  have documents : graphOf graph.toDict = some graph.members := rfl
  have readNodes : (graph.nodes.map (fun node => (node.id, node.toDict))).mapM
      (fun node => JgfNode.fromDict node.1 node.2) = some graph.nodes := by
    apply mapM_map_inverse
    intro node
    exact node.fromDict_toDict
  have readEdges := mapM_map_inverse JgfEdge.fromDict_toDict graph.edges
  have id : textAt graph.members "id" = some graph.id := rfl
  have directed : Json.getMember graph.members "directed" = some (.bool graph.directed) := rfl
  simp only [fromDict, documents, nodes, edges, id, directed, metadata, Option.bind_eq_bind,
    Option.bind_some]
  rw [readNodes, readEdges]
  rfl

-----------------------------------------------------------------------------------------
-- Importing
-----------------------------------------------------------------------------------------

variable [DecidableEq V] [VersionValue V]

/-- What gives the models and the edges of an import; a document without edges needs no resolver
of edges.
-/
structure JgfImporter (V : Type) where
  resolveNode : JgfNode → Except (Error V) (VersionNode V)
  resolveEdge : Option (JgfEdge → Except (Error V) (EdgeEntry V))

namespace JgfImporter

def importNode (importer : JgfImporter V) (config : Config V F) (node : JgfNode)
    : RegistryM V PUnit := do
  let version ← Py.query (fun _ => importer.resolveNode node)
  let _ ← Registry.store config (.versionNode version)

def importEdge (config : Config V F) (resolve : JgfEdge → Except (Error V) (EdgeEntry V))
    (edge : JgfEdge) : RegistryM V PUnit := do
  let resolved ← Py.query (fun _ => resolve edge)
  let _ ← Registry.storeMigration config (.edge resolved)

def importEdges (importer : JgfImporter V) (config : Config V F)
    : List JgfEdge → RegistryM V PUnit
  | [] => return ⟨⟩
  | edge :: rest =>
      match importer.resolveEdge with
      | none => throw (.valueError
          ("Importing JGF edges requires both a migration write port and an EdgeResolver"))
      | some resolve => (edge :: rest).forM (importEdge config resolve)

/-- `JgfImporter.import_graph` into one registry. -/
def importGraph (importer : JgfImporter V) (config : Config V F) (document : Json)
    : RegistryM V JgfGraph := do
  match JgfGraph.fromDict document with
  | none => throw (.raised "not a JGF document")
  | some graph =>
      graph.nodes.forM (importer.importNode config)
      importer.importEdges config graph.edges
      return graph

end JgfImporter

-----------------------------------------------------------------------------------------
-- Importing nodes
-----------------------------------------------------------------------------------------

omit [VersionValue V] in
/-- Refreshing health findings leaves all other stores. -/
theorem refreshHealth_frame {linters : List (HealthLinter V)} {entities : List (Entity V)}
    {registry final : Registry V}
    (refreshed : refreshHealth linters entities registry = .ok ⟨⟩ final)
    : final.nodeView = registry.nodeView ∧ final.edgeView = registry.edgeView
      ∧ final.nameSpace = registry.nameSpace := by
  have nodes := refreshHealth_keepsNodes linters entities registry
  have edges := refreshHealth_keepsEdges linters entities registry
  have keepsName : Py.Keeps Registry.nameSpace (refreshHealth linters entities) :=
    refreshHealth_keeps (fun _ _ _ _ _ => rfl) linters entities
  have name := keepsName registry
  rw [Py.after_of_ok refreshed] at nodes edges name
  exact ⟨nodes, edges, name⟩

section Nodes

variable {importer : JgfImporter V} {config : Config V F} (lints : LintsOrdered config.linters)

include lints

/-- A new version is stored, and the edges stay. -/
theorem store_new {registry : Registry V} (nodes : NodeStores registry)
    (edges : EdgeStores registry) {entry : NodeEntry V}
    (same : SameStrategy registry.byVersions entry.id)
    (absent : Absent registry.byVersions entry.id)
    : ∃ final, Registry.store config entry registry = .ok entry final
        ∧ NodeStores final ∧ final.edgeView = registry.edgeView
        ∧ final.nameSpace = registry.nameSpace
        ∧ ∀ other, other ∈ final.byVersions ↔ other = entry ∨ other ∈ registry.byVersions := by
  have inserted := nodes.insertNode same absent
  have untouched : EdgeStores (registry.insertNode entry) := edges.of_edges rfl
  obtain ⟨final, refreshed, _⟩ := lints.refresh _ inserted untouched
    (affectedByNodeChange (registry.insertNode entry) entry)
  obtain ⟨keptNodes, keptEdges, keptName⟩ := refreshHealth_frame refreshed
  refine ⟨final, ?_, inserted.of_nodeView keptNodes, keptEdges, keptName, ?_⟩
  · rw [store_eq config nodes same absent]
    exact (Py.bind_eq_of_ok refreshed).trans rfl
  · intro other
    have listed : final.byVersions = (registry.insertNode entry).byVersions :=
      congrArg NodeView.byVersions keptNodes
    rw [listed]
    exact mem_insertIdx_nodeIndex

/-- Versions of one strategy that are all new are stored one after the other. -/
theorem importNodes_ok {shown : VersionNode V → JgfNode} {versions : List (VersionNode V)}
    (resolved : ∀ node ∈ versions, importer.resolveNode (shown node) = .ok node)
    (one : ∀ left ∈ versions, ∀ right ∈ versions, left.id.strategy = right.id.strategy)
    (apart : versions.Pairwise (fun left right => left.id.cmp right.id ≠ .eq))
    {registry : Registry V} (nodes : NodeStores registry) (edges : EdgeStores registry)
    (same : ∀ node ∈ versions, SameStrategy registry.byVersions node.id)
    (absent : ∀ node ∈ versions, Absent registry.byVersions node.id)
    : ∃ final, (versions.map shown).forM (importer.importNode config) registry = .ok ⟨⟩ final
        ∧ NodeStores final ∧ final.edgeView = registry.edgeView
        ∧ final.nameSpace = registry.nameSpace
        ∧ ∀ other, other ∈ final.byVersions
          ↔ other ∈ registry.byVersions ∨ other ∈ versions.map NodeEntry.versionNode := by
  induction versions generalizing registry with
  | nil => exact ⟨registry, rfl, nodes, rfl, rfl, by simp⟩
  | cons node rest ih =>
      obtain ⟨differs, apartRest⟩ := List.pairwise_cons.mp apart
      have fits : SameStrategy registry.byVersions (NodeEntry.versionNode node).id :=
        same node List.mem_cons_self
      have fresh : Absent registry.byVersions (NodeEntry.versionNode node).id :=
        absent node List.mem_cons_self
      obtain ⟨middle, stored, middleNodes, middleEdges, middleName, members⟩ :=
        store_new lints nodes edges fits fresh
      have first : importer.importNode config (shown node) registry = .ok ⟨⟩ middle := by
        simp only [JgfImporter.importNode, Py.bind_apply, Py.query_apply,
          resolved node List.mem_cons_self, stored, Py.pure_apply]
      have sameRest : ∀ other ∈ rest, SameStrategy middle.byVersions other.id := by
        intro other inRest entry member
        rcases (members entry).mp member with rfl | old
        · exact one node List.mem_cons_self other (List.mem_cons_of_mem _ inRest)
        · exact same other (List.mem_cons_of_mem _ inRest) entry old
      have absentRest : ∀ other ∈ rest, Absent middle.byVersions other.id := by
        intro other inRest entry member
        rcases (members entry).mp member with rfl | old
        · exact differs other inRest
        · exact absent other (List.mem_cons_of_mem _ inRest) entry old
      have middlePaths : middle.edges = registry.edges :=
        funext (fun kind => congrArg (fun view => view.migrations.getD kind []) middleEdges)
      obtain ⟨final, run, finalNodes, finalEdges, finalName, all⟩ :=
        ih (fun other inRest => resolved other (List.mem_cons_of_mem _ inRest))
          (fun left inLeft right inRight => one left (List.mem_cons_of_mem _ inLeft) right
            (List.mem_cons_of_mem _ inRight))
          apartRest middleNodes (edges.of_edges middlePaths) sameRest absentRest
      refine ⟨final, (Py.forM_cons_ok first).trans run, finalNodes,
        finalEdges.trans middleEdges, finalName.trans middleName, ?_⟩
      intro other
      rw [all, members, List.map_cons, List.mem_cons]
      tauto

end Nodes

-----------------------------------------------------------------------------------------
-- Importing edges
-----------------------------------------------------------------------------------------

section Edges

variable {config : Config V F} (lints : LintsOrdered config.linters)

omit [DecidableEq V] [VersionValue V] in
/-- The kinds after an edge of the kind was filed. -/
def addKind (kinds : List ModelKind) (kind : ModelKind) : List ModelKind :=
  if kind ∈ kinds then kinds else kinds ++ [kind]

omit [DecidableEq V] [VersionValue V] in
theorem keys_set_eq (migrations : Py.Dict ModelKind (List (EdgeEntry V))) (kind : ModelKind)
    (paths : List (EdgeEntry V))
    : (migrations.set kind paths).keys = addKind migrations.keys kind := by
  unfold addKind
  split
  case isTrue present => exact Py.Dict.keys_set_of_mem present paths
  case isFalse fresh =>
    rw [Py.Dict.keys, Py.Dict.items_set_of_not_mem fresh, List.map_append]
    rfl

/-- What filing a new edge has done to the stores. -/
structure Registry.WithNew (registry : Registry V) (edge : EdgeEntry V) (final : Registry V)
    : Prop where
  stores : EdgeStores final
  nodes : final.nodeView = registry.nodeView
  name : final.nameSpace = registry.nameSpace
  kinds : final.kinds = addKind registry.kinds edge.kind
  digests : final.digestIndex.isSome = registry.digestIndex.isSome
  members : ∀ kind other, other ∈ final.edges kind
    ↔ other ∈ registry.edges kind ∨ other = edge ∧ edge.kind = kind

include lints

/-- An edge that is new among comparable ones is filed. -/
theorem fileEdge_new {registry : Registry V} (nodes : NodeStores registry)
    (edges : EdgeStores registry) {edge : EdgeEntry V} (searchable : registry.Searchable edge.id)
    (absent : ∀ other ∈ registry.edges edge.kind, other.id.cmp edge.id ≠ .eq)
    (hashable : registry.digestIndex.isSome → edge.Hashable)
    : ∃ final, Registry.fileEdge config edge registry = .ok edge final
        ∧ registry.WithNew edge final := by
  have inserts : registry.Inserts edge :=
    ⟨searchable, fun other member equal => absurd equal (absent other member)⟩
  obtain ⟨base, run, sorted, baseAbsent, compares, baseDigests, filed⟩ :=
    fileEdge_inserts config edges inserts
  have without : registry.withoutEqual edge = registry := by
    have none : (registry.edges edge.kind).find? (fun other => other.id.cmp edge.id == .eq)
        = none := by
      rw [List.find?_eq_none]
      intro other member equal
      exact absent other member (by simpa using equal)
    rw [Registry.withoutEqual, none]
  rw [without] at filed
  rw [insertEdge_eq config sorted baseAbsent compares (by rwa [baseDigests]), filed] at run
  have listed : ∀ kind, (registry.withEdge config.hasher edge).edges kind
      = if kind = edge.kind then (registry.edges edge.kind).insertIdx
          (edgeIndex (registry.edges edge.kind) edge.id) edge else registry.edges kind := by
    intro kind
    rw [← edges_setEdges]
    cases edge <;> rfl
  have keys : (registry.withEdge config.hasher edge).kinds = addKind registry.kinds edge.kind := by
    have set := keys_set_eq registry.migrations edge.kind ((registry.edges edge.kind).insertIdx
      (edgeIndex (registry.edges edge.kind) edge.id) edge)
    cases edge <;> exact set
  have sameNodes : (registry.withEdge config.hasher edge).nodeView = registry.nodeView := by
    cases edge <;> rfl
  have sameName : (registry.withEdge config.hasher edge).nameSpace = registry.nameSpace := by
    cases edge <;> rfl
  have sameDigests : (registry.withEdge config.hasher edge).digestIndex.isSome
      = registry.digestIndex.isSome := by
    cases edge with
    | edgeKey pair => rfl
    | versionEdge version => exact Option.isSome_map
  have stores : EdgeStores (registry.withEdge config.hasher edge) := by
    refine (edges.insert absent searchable).of_edges (funext (fun kind => ?_))
    rw [listed, edges_setEdges]
  obtain ⟨final, refreshed, _⟩ := lints.refresh _ (nodes.of_nodeView sameNodes) stores
    (affectedByEdgeChange (.stored edge))
  obtain ⟨keptNodes, keptEdges, keptName⟩ := refreshHealth_frame refreshed
  obtain ⟨migrations, _, _, digests⟩ := EdgeView.mk.inj keptEdges
  have paths : final.edges = (registry.withEdge config.hasher edge).edges :=
    funext (fun kind => congrArg (fun filed => filed.getD kind []) migrations)
  refine ⟨final, run.trans ((Py.bind_eq_of_ok refreshed).trans rfl), stores.of_edges paths,
    keptNodes.trans sameNodes, keptName.trans sameName,
    (congrArg Py.Dict.keys migrations).trans keys,
    (congrArg Option.isSome digests).trans sameDigests, ?_⟩
  intro kind other
  rw [paths, listed]
  split
  case isTrue own =>
    have inside : edgeIndex (registry.edges edge.kind) edge.id
        ≤ (registry.edges edge.kind).length :=
      Py.lowerBound_le _ _
    rw [List.mem_insertIdx inside, own]
    tauto
  case isFalse apart =>
    have differs : edge.kind ≠ kind := fun same => apart same.symm
    tauto

omit lints [DecidableEq V] in
/-- A scan of comparable entries finds the key if an entry equals it; it raises where the key
cannot be compared.
-/
theorem containsNode_iff {entries : List (NodeEntry V)} (uniform : OneStrategy entries)
    {key : NodeId V}
    : containsNode entries key = .ok true
      ↔ ∃ entry ∈ entries, entry.id.strategy = key.strategy ∧ entry.id.cmp key = .eq := by
  induction entries with
  | nil => simp [containsNode]
  | cons entry rest ih =>
      have uniformRest : OneStrategy rest := fun left inLeft right inRight =>
        uniform left (List.mem_cons_of_mem _ inLeft) right (List.mem_cons_of_mem _ inRight)
      unfold containsNode NodeId.eq
      by_cases same : entry.id.strategy = key.strategy
      · rw [if_pos same]
        cases order : entry.id.cmp key <;>
          simp [bind, Except.bind, pure, Except.pure, order, same, ih uniformRest]
      · rw [if_neg same]
        refine iff_of_false (fun found => by cases found) ?_
        rintro ⟨other, member, alike, _⟩
        exact same ((uniform other member entry List.mem_cons_self).trans alike)

omit lints in
/-- An edge with its endpoints is filed, any other is refused. -/
theorem storeMigration_registered {registry : Registry V} {edge : EdgeEntry V}
    (registered : registry.Registered edge)
    : Registry.storeMigration config (.edge edge) registry
      = Registry.fileEdge config edge registry := by
  cases edge with
  | edgeKey pair => rfl
  | versionEdge version =>
      obtain ⟨source, target⟩ := registered rfl
      simp only [Registry.storeMigration, Py.query_bind_eq, source, target]
      rfl

/-- New edges that can be compared are filed one after the other. -/
theorem importEdges_ok {resolve : JgfEdge → Except (Error V) (EdgeEntry V)}
    {shown : EdgeEntry V → JgfEdge} {edges : List (EdgeEntry V)}
    (resolved : ∀ edge ∈ edges, resolve (shown edge) = .ok edge)
    (comparable : ∀ left ∈ edges, ∀ right ∈ edges, left.kind = right.kind →
      left.id.Compares right.id)
    (apart : edges.Pairwise (fun left right => left.kind = right.kind →
      left.id.cmp right.id ≠ .eq))
    {registry : Registry V} (nodes : NodeStores registry) (stores : EdgeStores registry)
    (registered : ∀ edge ∈ edges, registry.Registered edge)
    (hashable : registry.digestIndex.isSome → ∀ edge ∈ edges, edge.Hashable)
    (searchable : ∀ edge ∈ edges, registry.Searchable edge.id)
    (absent : ∀ edge ∈ edges, ∀ other ∈ registry.edges edge.kind, other.id.cmp edge.id ≠ .eq)
    : ∃ final, (edges.map shown).forM (JgfImporter.importEdge config resolve) registry
          = .ok ⟨⟩ final
        ∧ EdgeStores final ∧ final.nodeView = registry.nodeView
        ∧ final.nameSpace = registry.nameSpace
        ∧ final.kinds = (edges.map EdgeEntry.kind).foldl addKind registry.kinds
        ∧ ∀ kind other, other ∈ final.edges kind
          ↔ other ∈ registry.edges kind ∨ other ∈ edges ∧ other.kind = kind := by
  induction edges generalizing registry with
  | nil => exact ⟨registry, rfl, stores, rfl, rfl, rfl, by simp⟩
  | cons edge rest ih =>
      obtain ⟨differs, apartRest⟩ := List.pairwise_cons.mp apart
      have later : ∀ {other}, other ∈ rest → other ∈ edge :: rest := List.mem_cons_of_mem _
      obtain ⟨middle, filed, new⟩ := fileEdge_new lints nodes stores
        (searchable edge List.mem_cons_self) (absent edge List.mem_cons_self)
        (fun indexed => hashable indexed edge List.mem_cons_self)
      have first : JgfImporter.importEdge config resolve (shown edge) registry
          = .ok ⟨⟩ middle := by
        simp only [JgfImporter.importEdge, Py.bind_apply, Py.query_apply,
          resolved edge List.mem_cons_self,
          storeMigration_registered (registered edge List.mem_cons_self), filed, Py.pure_apply]
      have versions : middle.byVersions = registry.byVersions :=
        congrArg NodeView.byVersions new.nodes
      have searchableRest : ∀ other ∈ rest, middle.Searchable other.id := by
        intro other inRest stored member
        rcases (new.members other.id.kind stored).mp member with old | ⟨rfl, same⟩
        · exact searchable other (later inRest) stored old
        · exact comparable stored List.mem_cons_self other (later inRest) same
      have absentRest : ∀ other ∈ rest, ∀ stored ∈ middle.edges other.kind,
          stored.id.cmp other.id ≠ .eq := by
        intro other inRest stored member
        rcases (new.members other.kind stored).mp member with old | ⟨rfl, same⟩
        · exact absent other (later inRest) stored old
        · exact differs other inRest same
      obtain ⟨final, run, finalStores, finalNodes, finalName, kinds, members⟩ :=
        ih (fun other inRest => resolved other (later inRest))
          (fun left inLeft right inRight =>
            comparable left (later inLeft) right (later inRight))
          apartRest (nodes.of_nodeView new.nodes) new.stores
          (fun other inRest => by
            unfold Registry.Registered
            rw [versions]
            exact registered other (later inRest))
          (fun indexed other inRest =>
            hashable (new.digests ▸ indexed) other (later inRest))
          searchableRest absentRest
      refine ⟨final, (Py.forM_cons_ok first).trans run, finalStores,
        finalNodes.trans new.nodes, finalName.trans new.name, ?_, ?_⟩
      · rw [kinds, new.kinds]
        rfl
      · intro kind other
        rw [members, new.members, List.mem_cons]
        constructor
        · rintro ((old | ⟨rfl, same⟩) | ⟨inRest, same⟩)
          · exact .inl old
          · exact .inr ⟨.inl rfl, same⟩
          · exact .inr ⟨.inr inRest, same⟩
        · rintro (old | ⟨rfl | inRest, same⟩)
          · exact .inl (.inl old)
          · exact .inl (.inr ⟨rfl, same⟩)
          · exact .inr ⟨inRest, same⟩

omit lints in
/-- An import that returns has found the endpoints of all executable edges. -/
theorem registered_of_importEdges {resolve : JgfEdge → Except (Error V) (EdgeEntry V)}
    {shown : EdgeEntry V → JgfEdge} {edges : List (EdgeEntry V)}
    (resolved : ∀ edge ∈ edges, resolve (shown edge) = .ok edge) {registry final : Registry V}
    (run : (edges.map shown).forM (JgfImporter.importEdge config resolve) registry = .ok ⟨⟩ final)
    : ∀ edge ∈ edges, registry.Registered edge := by
  induction edges generalizing registry with
  | nil => exact fun _ member => (List.not_mem_nil member).elim
  | cons edge rest ih =>
      obtain ⟨_, middle, first, later⟩ := Py.bind_ok.mp run
      obtain ⟨given, found, stored⟩ := Py.query_bind_ok.mp first
      obtain rfl : edge = given :=
        Except.ok.inj ((resolved edge List.mem_cons_self).symm.trans found)
      obtain ⟨result, _, filed, done⟩ := Py.bind_ok.mp stored
      cases done
      have registered : registry.Registered edge := by
        intro executable
        cases edge with
        | edgeKey pair => cases executable
        | versionEdge version =>
            obtain ⟨both, scanned, passed⟩ := Py.query_bind_ok.mp filed
            cases both with
            | false => cases passed
            | true =>
                obtain ⟨source, sourceFound, scanned⟩ := Py.ok_bind_iff.mp scanned
                cases source with
                | false => cases scanned
                | true => exact ⟨sourceFound, scanned⟩
      have nodes : middle.nodeView = registry.nodeView := by
        rw [storeMigration_registered registered] at filed
        have kept := fileEdge_keepsNodes config edge registry
        rwa [Py.after_of_ok filed] at kept
      intro other member
      rcases List.mem_cons.mp member with rfl | inRest
      · exact registered
      · have known := ih (fun other inRest => resolved other (List.mem_cons_of_mem _ inRest)) later
          other inRest
        have versions : middle.byVersions = registry.byVersions :=
          congrArg NodeView.byVersions nodes
        unfold Registry.Registered at known ⊢
        rwa [versions] at known

end Edges

-----------------------------------------------------------------------------------------
-- Kinds
-----------------------------------------------------------------------------------------

omit [DecidableEq V] [VersionValue V] in
theorem foldl_addKind_of_mem {kinds before : List ModelKind}
    (known : ∀ kind ∈ kinds, kind ∈ before)
    : kinds.foldl addKind before = before := by
  induction kinds with
  | nil => rfl
  | cons kind rest ih =>
      rw [List.foldl_cons, addKind, if_pos (known kind List.mem_cons_self)]
      exact ih (fun other inRest => known other (List.mem_cons_of_mem _ inRest))

omit [DecidableEq V] [VersionValue V] in
/-- Edges that come kind after kind list the kinds that have edges, in their order. -/
theorem foldl_addKind_groups {group : ModelKind → List (EdgeEntry V)}
    (tagged : ∀ kind, ∀ edge ∈ group kind, edge.kind = kind) {kinds before : List ModelKind}
    (apart : kinds.Nodup) (fresh : ∀ kind ∈ kinds, kind ∉ before)
    : ((kinds.flatMap group).map EdgeEntry.kind).foldl addKind before
      = before ++ kinds.filter (fun kind => !(group kind).isEmpty) := by
  induction kinds generalizing before with
  | nil => simp
  | cons kind rest ih =>
      obtain ⟨notLater, apartRest⟩ := List.nodup_cons.mp apart
      have freshRest : ∀ other ∈ rest, other ∉ before := fun other inRest =>
        fresh other (List.mem_cons_of_mem _ inRest)
      rw [List.flatMap_cons, List.map_append, List.foldl_append]
      cases own : group kind with
      | nil =>
          rw [List.filter_cons_of_neg (by simp [own])]
          exact ih apartRest freshRest
      | cons edge others =>
          have kindOf : edge.kind = kind := tagged kind edge (by simp [own])
          have later : ∀ other ∈ others.map EdgeEntry.kind, other ∈ before ++ [kind] := by
            intro other member
            obtain ⟨listed, inOthers, rfl⟩ := List.mem_map.mp member
            have same := tagged kind listed (by simp [own, inOthers])
            simp [same]
          have after : ∀ other ∈ rest, other ∉ before ++ [kind] := by
            intro other inRest listed
            rcases List.mem_append.mp listed with old | single
            · exact freshRest other inRest old
            · exact notLater (List.mem_singleton.mp single ▸ inRest)
          rw [List.filter_cons_of_pos (by simp [own]), List.map_cons, List.foldl_cons, kindOf]
          rw [addKind, if_neg (fresh kind List.mem_cons_self), foldl_addKind_of_mem later,
            ih apartRest after, List.append_assoc]
          rfl

-----------------------------------------------------------------------------------------
-- Restoring a registry
-----------------------------------------------------------------------------------------

/-- The edges of all kinds in the order of export. -/
def Registry.exportedEdges (registry : Registry V) : List (EdgeEntry V) :=
  registry.kinds.flatMap registry.edges

section Exported

variable {registry : Registry V} (stores : EdgeStores registry)

include stores

omit [DecidableEq V] in
theorem EdgeStores.mem_exportedEdges {kind : ModelKind} {edge : EdgeEntry V}
    : edge ∈ registry.edges kind ↔ edge ∈ registry.exportedEdges ∧ edge.kind = kind := by
  constructor
  · intro member
    refine ⟨List.mem_flatMap.mpr ⟨kind, ?_, member⟩, stores.filed kind edge member⟩
    exact List.mem_of_mem_filter (mem_edgeKinds.mpr (List.ne_nil_of_mem member))
  · rintro ⟨member, rfl⟩
    obtain ⟨kind, _, inKind⟩ := List.mem_flatMap.mp member
    rwa [stores.filed kind edge inKind]

omit [DecidableEq V] in
theorem EdgeStores.comparable_exportedEdges
    : ∀ left ∈ registry.exportedEdges, ∀ right ∈ registry.exportedEdges,
      left.kind = right.kind → left.id.Compares right.id := by
  intro left inLeft right inRight same
  have leftListed := stores.mem_exportedEdges.mpr ⟨inLeft, same⟩
  have rightListed := stores.mem_exportedEdges.mpr ⟨inRight, rfl⟩
  exact stores.comparable right.kind left leftListed right rightListed

omit [DecidableEq V] in
theorem EdgeStores.apart_exportedEdges
    : registry.exportedEdges.Pairwise (fun left right => left.kind = right.kind →
      left.id.cmp right.id ≠ .eq) := by
  apply List.pairwise_flatMap.mpr
  constructor
  · intro kind _
    refine (stores.sorted kind).imp (fun lt _ equal => ?_)
    rw [lt] at equal
    cases equal
  · refine registry.migrations.nodup.imp (fun differ left inLeft right inRight same => ?_)
    exact absurd ((stores.filed _ left inLeft).symm.trans
      (same.trans (stores.filed _ right inRight))) differ

end Exported

namespace Registry

/-- Every executable edge joins two hydrated versions. -/
def EndsHydrated (registry : Registry V) : Prop :=
  ∀ kind, ∀ edge ∈ registry.edges kind, edge.isExecutable = true →
    ∀ endpoint, endpoint = edge.id.source ∨ endpoint = edge.id.target →
      ∃ node ∈ registry.versions,
        node.id.strategy = endpoint.strategy ∧ node.id.cmp endpoint = .eq

/-- The registry has the hydrated versions and the edges of another one, in its order, and all its
exports are those of the other.
-/
structure Restores (restored registry : Registry V) : Prop where
  entries : restored.entries = registry.versions.map NodeEntry.versionNode
  edges : restored.edges = registry.edges
  exports : ∀ hasher id, restored.exportSource.exportGraph hasher id
    = registry.exportSource.exportGraph hasher id

omit [DecidableEq V] in
/-- Over the hydrated versions alone an edge finds its endpoints if they are hydrated. -/
theorem registered_iff {registry restored : Registry V} (stores : NodeStores restored)
    (entries : restored.byVersions = registry.versions.map NodeEntry.versionNode)
    {edge : EdgeEntry V}
    : restored.Registered edge ↔ (edge.isExecutable = true →
      ∀ endpoint, endpoint = edge.id.source ∨ endpoint = edge.id.target →
        ∃ node ∈ registry.versions,
          node.id.strategy = endpoint.strategy ∧ node.id.cmp endpoint = .eq) := by
  have scans : ∀ {key : NodeId V}, containsNode restored.byVersions key = .ok true
      ↔ ∃ node ∈ registry.versions, node.id.strategy = key.strategy ∧ node.id.cmp key = .eq := by
    intro key
    rw [containsNode_iff stores.uniform, entries]
    simp only [List.mem_map, exists_exists_and_eq_and, NodeEntry.id]
  unfold Registered
  rw [scans, scans]
  constructor
  · rintro known executable endpoint (rfl | rfl)
    · exact (known executable).1
    · exact (known executable).2
  · intro known executable
    exact ⟨known executable _ (.inl rfl), known executable _ (.inr rfl)⟩

end Registry

namespace Reachable

variable {config other : Config V F} {registry : Registry V} (reached : Reachable other registry)

include reached

/-- The hydrated versions of a registry are all of one strategy. -/
theorem versions_one
    : ∀ left ∈ registry.versions, ∀ right ∈ registry.versions,
      left.id.strategy = right.id.strategy := by
  intro left inLeft right inRight
  obtain ⟨leftEntry, leftMember, isLeft⟩ := List.mem_filterMap.mp inLeft
  obtain ⟨rightEntry, rightMember, isRight⟩ := List.mem_filterMap.mp inRight
  have same := reached.nodeStores.uniform rightEntry rightMember leftEntry leftMember
  cases leftEntry <;> cases rightEntry <;> cases isLeft <;> cases isRight
  exact same

/-- A fresh registry takes in all hydrated versions, and nothing else. -/
theorem importNodes_registry (lints : LintsOrdered config.linters) {importer : JgfImporter V}
    {shown : VersionNode V → JgfNode}
    (resolved : ∀ node ∈ registry.versions, importer.resolveNode (shown node) = .ok node)
    (indexDigests : Bool)
    : ∃ middle, (registry.versions.map shown).forM (importer.importNode config)
          (Registry.new registry.nameSpace indexDigests) = .ok ⟨⟩ middle
        ∧ NodeStores middle
        ∧ middle.byVersions = registry.versions.map NodeEntry.versionNode
        ∧ middle.edgeView = (Registry.new registry.nameSpace indexDigests).edgeView
        ∧ middle.nameSpace = registry.nameSpace := by
  have sorted := reached.nodeStores.sorted_versions
  have apart : registry.versions.Pairwise (fun left right => left.id.cmp right.id ≠ .eq) :=
    sorted.imp (fun lt equal => by rw [lt] at equal; cases equal)
  obtain ⟨middle, imported, nodes, edges, name, members⟩ :=
    importNodes_ok lints resolved reached.versions_one apart
      (nodeStores_new registry.nameSpace indexDigests) (.of_empty (fun _ => rfl))
      (fun _ _ _ member => (List.not_mem_nil member).elim)
      (fun _ _ _ member => (List.not_mem_nil member).elim)
  refine ⟨middle, imported, nodes, ?_, edges, name⟩
  have sortedEntries : SortedNodes (registry.versions.map NodeEntry.versionNode) :=
    List.pairwise_map.mpr sorted
  apply nodes.sorted.eq_of_mem sortedEntries
  intro entry
  rw [members]
  exact or_iff_right List.not_mem_nil

section Edges

variable {middle : Registry V} (nodes : NodeStores middle)
  (entries : middle.byVersions = registry.versions.map NodeEntry.versionNode)
  {indexDigests : Bool}
  (edges : middle.edgeView = (Registry.new registry.nameSpace indexDigests).edgeView)
  {resolve : JgfEdge → Except (Error V) (EdgeEntry V)} {shown : EdgeEntry V → JgfEdge}
  (resolved : ∀ edge ∈ registry.exportedEdges, resolve (shown edge) = .ok edge)

include nodes entries resolved

/-- Importing the edges over the hydrated versions needs the endpoints of all executable ones. -/
theorem endsHydrated_of_importEdges {final : Registry V}
    (run : (registry.exportedEdges.map shown).forM (JgfImporter.importEdge config resolve) middle
      = .ok ⟨⟩ final)
    : registry.EndsHydrated := by
  intro kind edge member
  have listed := (reached.edgeStores.mem_exportedEdges.mp member).1
  exact (Registry.registered_iff nodes entries).mp
    (registered_of_importEdges resolved run edge listed)

include edges

/-- Over the hydrated versions the edges come back in their places. -/
theorem importEdges_registry (lints : LintsOrdered config.linters)
    (hashable : indexDigests = true → ∀ kind, ∀ edge ∈ registry.edges kind, edge.Hashable)
    (hydrated : registry.EndsHydrated)
    : ∃ final, (registry.exportedEdges.map shown).forM (JgfImporter.importEdge config resolve)
          middle = .ok ⟨⟩ final
        ∧ final.nodeView = middle.nodeView ∧ final.nameSpace = middle.nameSpace
        ∧ final.edges = registry.edges ∧ final.kinds = registry.edgeKinds := by
  have edgeStores := reached.edgeStores
  have listed : ∀ {kind edge}, edge ∈ registry.edges kind
      ↔ edge ∈ registry.exportedEdges ∧ edge.kind = kind := edgeStores.mem_exportedEdges
  have none : ∀ kind, middle.edges kind = [] := by
    intro kind
    exact congrArg (fun view => view.migrations.getD kind []) edges
  have indexed : middle.digestIndex.isSome → indexDigests = true := by
    have same : middle.digestIndex
        = (Registry.new (V := V) registry.nameSpace indexDigests).digestIndex :=
      congrArg EdgeView.digestIndex edges
    rw [same]
    intro isSome
    cases indexDigests with
    | false => cases isSome
    | true => rfl
  obtain ⟨final, filed, stores, view, name, kinds, all⟩ :=
    importEdges_ok lints resolved edgeStores.comparable_exportedEdges
      edgeStores.apart_exportedEdges nodes (.of_empty none)
      (fun edge member => (Registry.registered_iff nodes entries).mpr
        (hydrated edge.kind edge (listed.mpr ⟨member, rfl⟩)))
      (fun isSome edge member =>
        hashable (indexed isSome) edge.kind edge (listed.mpr ⟨member, rfl⟩))
      (fun edge _ other member => by rw [none] at member; cases member)
      (fun edge _ other member => by rw [none] at member; cases member)
  refine ⟨final, filed, view, name, ?_, ?_⟩
  · funext kind
    apply (stores.sorted kind).eq_of_mem (edgeStores.sorted kind)
    intro edge
    rw [all, none, listed]
    exact or_iff_right List.not_mem_nil
  · have noKinds : middle.kinds = [] := congrArg (fun view => view.migrations.keys) edges
    rw [kinds, noKinds]
    exact foldl_addKind_groups edgeStores.filed registry.migrations.nodup
      (fun _ _ => List.not_mem_nil)

end Edges

omit reached in
/-- Registries with the same hydrated versions, edges and kinds of edges export the same. -/
theorem restores_of_same {restored : Registry V}
    (entries : restored.byVersions = registry.versions.map NodeEntry.versionNode)
    (edges : restored.edges = registry.edges) (kinds : restored.kinds = registry.edgeKinds)
    (name : restored.nameSpace = registry.nameSpace)
    : restored.Restores registry := by
  have versions : restored.versions = registry.versions := by
    rw [Registry.versions, entries, List.filterMap_map]
    exact List.filterMap_some
  have listed : restored.exportSource.listed = registry.exportSource.listed := by
    change restored.kinds.flatMap (fun kind => (restored.edges kind).map EdgeEntry.listed)
      = registry.kinds.flatMap registry.listedEdges
    have full := @Py.flatMap_filter_full _ _ registry.listedEdges registry.kinds
    simp only [Registry.listedEdges, List.isEmpty_map] at full
    rw [kinds, edges]
    exact full
  refine ⟨entries, edges, fun hasher id => ?_⟩
  simp only [GraphExportSource.exportGraph, listed]
  simp only [Registry.exportSource, versions, name]

/-- A fresh registry that imports what another one exports comes back with its hydrated versions and
its edges, if the resolvers recover what the document shows. The import returns exactly if every
executable edge joins hydrated versions.
-/
theorem importGraph_exportGraph (lints : LintsOrdered config.linters)
    (hasher : ContentHasher) (id : Option String)
    {resolveNode : JgfNode → Except (Error V) (VersionNode V)}
    {resolveEdge : JgfEdge → Except (Error V) (EdgeEntry V)}
    (texts : (registry.versions.map (fun node => node.id.str)).Nodup)
    (resolvedNodes : ∀ node ∈ registry.versions,
      resolveNode (JgfNode.fromVersion hasher node) = .ok node)
    (resolvedEdges : ∀ kind, ∀ edge ∈ registry.edges kind,
      resolveEdge (JgfEdge.fromEdgeKey edge.listed none) = .ok edge)
    (indexDigests : Bool)
    (hashable : indexDigests = true → ∀ kind, ∀ edge ∈ registry.edges kind, edge.Hashable)
    : let exported := registry.exportSource.exportGraph hasher id;
      let run := JgfImporter.importGraph ⟨resolveNode, some resolveEdge⟩ config exported.toDict
        (Registry.new registry.nameSpace indexDigests);
      ((∃ graph restored, run = .ok graph restored) ↔ registry.EndsHydrated)
        ∧ ∀ graph restored, run = .ok graph restored →
          graph = exported ∧ restored.Restores registry := by
  intro exported run
  let importer : JgfImporter V := ⟨resolveNode, some resolveEdge⟩
  let shown : EdgeEntry V → JgfEdge := fun edge => JgfEdge.fromEdgeKey edge.listed none
  have read : JgfGraph.fromDict exported.toDict = some exported := by
    apply JgfGraph.fromDict_toDict
    simpa [exported, GraphExportSource.exportGraph, JgfGraph.fromVersions,
      Registry.exportSource, JgfNode.fromVersion, Function.comp_def] using texts
  have shownNodes : exported.nodes = registry.versions.map (JgfNode.fromVersion hasher) := rfl
  have shownEdges : exported.edges = registry.exportedEdges.map shown := by
    simp only [exported, GraphExportSource.exportGraph, JgfGraph.fromVersions,
      GraphExportSource.listed, Registry.exportSource, shown, Registry.exportedEdges,
      List.map_flatMap, List.map_map]
    rfl
  have resolved : ∀ edge ∈ registry.exportedEdges, resolveEdge (shown edge) = .ok edge :=
    fun edge member =>
      resolvedEdges edge.kind edge (reached.edgeStores.mem_exportedEdges.mpr ⟨member, rfl⟩)
  have resolves : ∀ node ∈ registry.versions,
      importer.resolveNode (JgfNode.fromVersion hasher node) = .ok node :=
    resolvedNodes
  obtain ⟨middle, importedNodes, nodes, entries, edges, name⟩ :=
    reached.importNodes_registry lints resolves indexDigests
  -- What is left of the import is its edge loop over the hydrated versions.
  have steps : run = (do
      (registry.exportedEdges.map shown).forM (JgfImporter.importEdge config resolveEdge)
      return exported : RegistryM V JgfGraph) middle := by
    have imported : ∀ found : List JgfEdge, importer.importEdges config found
        = found.forM (JgfImporter.importEdge config resolveEdge) := by
      intro found
      cases found <;> rfl
    simp only [run, JgfImporter.importGraph, read]
    rw [shownNodes, Py.bind_eq_of_ok importedNodes, ← shownEdges, ← imported]
  have needed : ∀ graph restored, run = .ok graph restored → registry.EndsHydrated := by
    intro graph restored returned
    rw [steps] at returned
    obtain ⟨_, _, filed, _⟩ := Py.bind_ok.mp returned
    exact reached.endsHydrated_of_importEdges nodes entries resolved filed
  have returns : registry.EndsHydrated → ∃ restored, run = .ok exported restored
      ∧ restored.Restores registry := by
    intro hydrated
    obtain ⟨final, filed, view, sameName, sameEdges, kinds⟩ :=
      reached.importEdges_registry nodes entries edges resolved lints hashable hydrated
    refine ⟨final, ?_, restores_of_same ?_ sameEdges kinds (sameName.trans name)⟩
    · rw [steps]
      exact (Py.bind_eq_of_ok filed).trans rfl
    · exact (congrArg NodeView.byVersions view).trans entries
  constructor
  · constructor
    · rintro ⟨graph, restored, returned⟩
      exact needed graph restored returned
    · intro hydrated
      obtain ⟨restored, returned, _⟩ := returns hydrated
      exact ⟨exported, restored, returned⟩
  · intro graph restored returned
    obtain ⟨final, again, restores⟩ := returns (needed graph restored returned)
    cases returned.symm.trans again
    exact ⟨rfl, restores⟩

end Reachable

/-- The resolvers of the two releases of `User` and of the migration between them. -/
def userImporter : JgfImporter Release where
  resolveNode shown :=
    .ok (if shown.id = (userId 1).str then userNode 1 "UserV1" else userNode 2 "UserV2")
  resolveEdge := some (fun _ => .ok (.versionEdge (userMigration 1 2 "UserV1" "UserV2")))

/-- Witness: two releases and the migration between them come back. -/
theorem importGraph_upgradedEdges
    : ∃ graph restored, userImporter.importGraph plainConfig
          (upgradedEdges.exportSource.exportGraph plainConfig.hasher none).toDict
          (Registry.new upgradedEdges.nameSpace false) = .ok graph restored
        ∧ restored.Restores upgradedEdges := by
  have versions : upgradedEdges.versions = [userNode 1 "UserV1", userNode 2 "UserV2"] := by
    decide +kernel
  have kinds : upgradedEdges.kinds = ["User"] := by decide +kernel
  have edges : ∀ kind, ∀ edge ∈ upgradedEdges.edges kind,
      edge = .versionEdge (userMigration 1 2 "UserV1" "UserV2") := by
    intro kind edge member
    have listed := List.mem_of_mem_filter (mem_edgeKinds.mpr (List.ne_nil_of_mem member))
    rw [kinds, List.mem_singleton] at listed
    subst listed
    have only : upgradedEdges.edges "User"
        = [.versionEdge (userMigration 1 2 "UserV1" "UserV2")] := by
      decide +kernel
    rwa [only, List.mem_singleton] at member
  have resolves : ∀ node ∈ upgradedEdges.versions,
      userImporter.resolveNode (JgfNode.fromVersion plainConfig.hasher node) = .ok node := by
    rw [versions]
    simp only [List.mem_cons, List.not_mem_nil, or_false]
    rintro node (rfl | rfl)
    · rfl
    · rfl
  let resolve : JgfEdge → Except (Error Release) (EdgeEntry Release) :=
    fun _ => .ok (.versionEdge (userMigration 1 2 "UserV1" "UserV2"))
  have resolvesEdges : ∀ kind, ∀ edge ∈ upgradedEdges.edges kind,
      resolve (JgfEdge.fromEdgeKey edge.listed none) = .ok edge :=
    fun kind edge member => congrArg Except.ok (edges kind edge member).symm
  have reached : Reachable plainConfig upgradedEdges :=
    .runAll (.new plainConfig "default" true (by decide)) _
  have lints : LintsOrdered plainConfig.linters :=
    defaultHealthLinters_lintsOrdered (fun _ _ => rfl)
  have returns := reached.importGraph_exportGraph lints plainConfig.hasher none
    (by rw [versions]; decide) resolves resolvesEdges false (fun indexed => by cases indexed)
  have hydrated : upgradedEdges.EndsHydrated := by
    intro kind edge member _ endpoint isEnd
    obtain rfl := edges kind edge member
    rw [versions]
    rcases isEnd with rfl | rfl
    · exact ⟨userNode 1 "UserV1", by simp, rfl, by decide⟩
    · exact ⟨userNode 2 "UserV2", by simp, rfl, by decide⟩
  obtain ⟨graph, restored, run⟩ := returns.1.mpr hydrated
  exact ⟨graph, restored, run, (returns.2 graph restored run).2⟩

end Pyverge
