import Pyverge.Graph.Contents
import Pyverge.Py.Search
import Pyverge.Versioning.Versions

/-! Traversal of the indexed backend: neighbours and shortest paths.
A search tells nodes apart by their hashes where it looks them up, and by `==` where it compares
them with the ends of the path. The two agree, but `==` refuses nodes of another version strategy.
-/

namespace Pyverge

variable {V F : Type} [DecidableEq V]

/-- `set.add` of an edge, found by its identity. -/
def addEdge (bucket : List (EdgePair V)) (edge : EdgePair V) : List (EdgePair V) :=
  if edge.id ∈ bucket.map EdgePair.id then bucket else bucket ++ [edge]

/-- The sets of edges with a common end. -/
def endIndex (end_ : EdgeId V → NodeId V) (edges : List (EdgePair V))
    : Py.Dict (NodeId V) (List (EdgePair V)) :=
  edges.foldl (fun index edge =>
    index.set (end_ edge.id) (addEdge (index.getD (end_ edge.id) []) edge)) ∅

namespace IndexedBackend

/-- The edges that leave a node, as `build` files them in `outgoing_by_node`. -/
def outgoing (backend : IndexedBackend V) (node : NodeId V) : List (EdgePair V) :=
  (endIndex EdgeId.source backend.edges).getD node []

/-- The edges that enter a node, as `build` files them in `incoming_by_node`. -/
def incoming (backend : IndexedBackend V) (node : NodeId V) : List (EdgePair V) :=
  (endIndex EdgeId.target backend.edges).getD node []

omit [DecidableEq V] in
/-- An edge is taken unless there is a predicate that rejects it. -/
def admits (predicate : Option (EdgePair V → Bool)) (edge : EdgePair V) : Bool :=
  match predicate with
  | none => true
  | some accepts => accepts edge

variable [VersionValue V]

/-- The edges of a node that the search takes, in order, each with the node it leads to. -/
def expand (backend : IndexedBackend V) (predicate : Option (EdgePair V → Bool)) (node : NodeId V)
    : Except (Error V) (List (NodeId V × EdgePair V)) := do
  let edges ← Py.sorted (fun left right => left.id.lt right.id) (backend.outgoing node)
  return (edges.filter (admits predicate)).map (fun edge => (edge.id.target, edge))

/-- The search takes at most one turn for each node it meets, hence for each edge and the source. -/
def shortestPath (backend : IndexedBackend V) (source target : NodeId V)
    (predicate : Option (EdgePair V → Bool)) : Except (Error V) (Option (List (EdgePair V))) := do
  if ← source.eq target then return some []
  Py.Search.shortest (backend.expand predicate) (fun edge => .ok edge.id.source)
    (fun node => node.eq source) (fun node => node.eq target)
    (.raised "KeyError") (.raised "out of fuel") (backend.edges.length + 1) source target

end IndexedBackend

-----------------------------------------------------------------------------------------
-- The edges of a node
-----------------------------------------------------------------------------------------

theorem mem_of_addEdge {bucket : List (EdgePair V)} {edge pair : EdgePair V}
    (member : pair ∈ addEdge bucket edge)
    : pair ∈ bucket ∨ pair = edge := by
  unfold addEdge at member
  split at member
  · exact .inl member
  · simpa using member

/-- An index holds edges under the end they have, by induction on the edges. -/
theorem mem_of_endIndex {end_ : EdgeId V → NodeId V} {edges : List (EdgePair V)}
    {pair : EdgePair V} {node : NodeId V} (member : pair ∈ (endIndex end_ edges).getD node [])
    : pair ∈ edges ∧ end_ pair.id = node := by
  induction edges using List.reverseRecOn with
  | nil => simp [endIndex, Py.Dict.getD] at member
  | append_singleton edges edge ih =>
      unfold endIndex at ih member
      rw [List.foldl_append, List.foldl_cons, List.foldl_nil, Py.Dict.getD_set] at member
      split at member
      case isTrue here =>
        subst here
        rcases mem_of_addEdge member with old | rfl
        · obtain ⟨inside, ends⟩ := ih old
          exact ⟨List.mem_append_left _ inside, ends⟩
        · exact ⟨List.mem_append_right _ (List.mem_singleton_self _), rfl⟩
      case isFalse =>
        obtain ⟨inside, ends⟩ := ih member
        exact ⟨List.mem_append_left _ inside, ends⟩

variable [VersionValue V]

/-- The edge can be compared with the other and has no greater source. -/
def EdgePair.Precedes (left right : EdgePair V) : Prop :=
  left.id.Compares right.id ∧ left.id.source.cmp right.id.source ≠ .gt

omit [DecidableEq V] in
theorem EdgePair.Precedes.trans {one two three : EdgePair V} (first : one.Precedes two)
    (second : two.Precedes three)
    : one.Precedes three := by
  refine ⟨first.1.trans second.1 first.2 second.2, Ordering.isLE_iff_ne_gt.mp ?_⟩
  exact Std.TransCmp.isLE_trans (Ordering.isLE_iff_ne_gt.mpr first.2)
    (Ordering.isLE_iff_ne_gt.mpr second.2)

omit [DecidableEq V] in
/-- Edges that were sorted can be compared with each other: a sort compares neighbours, and between
edges of equal sources there are only such edges.
-/
theorem compares_of_sorted {items edges : List (EdgePair V)}
    (run : Py.sorted (fun left right => left.id.lt right.id) items = .ok edges)
    {left right : EdgePair V} (inLeft : left ∈ edges) (inRight : right ∈ edges)
    : left.id.Compares right.id := by
  have ordered : edges.Pairwise (fun one other => one.id.cmp other.id ≠ .gt) :=
    haveI := Py.transCmp_on (EdgeId.cmp (V := V)) EdgePair.id
    Py.sorted_ordered (fun _ _ _ asked => EdgeId.lt_agrees asked) run
  have chain : edges.IsChain EdgePair.Precedes := by
    refine List.isChain_iff_forall_rel_of_append_cons_cons.mpr ?_
    intro one other before after split
    have compared := List.isChain_iff_forall_rel_of_append_cons_cons.mp (Py.compared_sorted run)
      split
    have below : one.id.cmp other.id ≠ .gt := by
      rw [split] at ordered
      exact (List.pairwise_cons.mp (List.pairwise_append.mp ordered).2.1).1 other
        List.mem_cons_self
    refine ⟨?_, EdgeId.source_ge (fun less => below (Std.OrientedCmp.gt_of_lt less))⟩
    rcases compared with asked | asked
    · exact EdgeId.exists_lt.mp asked
    · exact (EdgeId.exists_lt.mp asked).symm
  have : Trans (@EdgePair.Precedes V _) EdgePair.Precedes EdgePair.Precedes :=
    ⟨EdgePair.Precedes.trans⟩
  have pairs := List.isChain_iff_pairwise.mp chain
  refine List.Pairwise.forall_of_forall_of_flip (R := fun one other => one.id.Compares other.id)
    (fun one _ => ⟨rfl, fun _ => rfl⟩) (pairs.imp And.left) ?_ inLeft inRight
  exact pairs.imp (fun related => related.1.symm)

/-- What `build` makes sure of: nodes and edges are sorted, so that they can be compared. -/
structure IndexedBackend.Built (backend : IndexedBackend V) : Prop where
  uniform : ∀ left ∈ backend.nodes, ∀ right ∈ backend.nodes, left.id.strategy = right.id.strategy
  nodesOrdered : backend.nodes.Pairwise (fun left right => left.id.cmp right.id ≠ .gt)
  compares : ∀ left ∈ backend.edges, ∀ right ∈ backend.edges, left.id.Compares right.id
  edgesOrdered : backend.edges.Pairwise (fun left right => left.id.cmp right.id ≠ .gt)
  between : backend.edgesByPair
    = .groupBy (fun edge => (edge.id.source, edge.id.target)) backend.edges

omit [DecidableEq V] in
/-- An answer of `NodeId.__lt__` is that of the identity order. -/
theorem NodeId.lt_agrees {left right : NodeId V} {answer : Bool}
    (asked : left.lt right = .ok answer)
    : (left.cmp right == .lt) = answer := by
  unfold NodeId.lt at asked
  split at asked
  · exact Except.ok.inj asked
  · cases asked

omit [DecidableEq V] in
/-- Nodes that were sorted are of one strategy. -/
theorem strategy_of_sorted {items nodes : List (NodeEntry V)}
    (run : Py.sorted (fun left right => left.id.lt right.id) items = .ok nodes)
    {left right : NodeEntry V} (inLeft : left ∈ nodes) (inRight : right ∈ nodes)
    : left.id.strategy = right.id.strategy := by
  have same : ∀ {one other : NodeEntry V}, (∃ answer, one.id.lt other.id = .ok answer) →
      one.id.strategy = other.id.strategy := by
    intro one other asked
    by_contra mixed
    obtain ⟨answer, asked⟩ := asked
    simp [NodeId.lt, mixed] at asked
  have chain : nodes.IsChain (fun one other => one.id.strategy = other.id.strategy) := by
    refine (Py.compared_sorted run).imp ?_
    intro one other compared
    rcases compared with asked | asked
    · exact same asked
    · exact (same asked).symm
  have : Trans (fun one other : NodeEntry V => one.id.strategy = other.id.strategy)
      (fun one other : NodeEntry V => one.id.strategy = other.id.strategy)
      (fun one other : NodeEntry V => one.id.strategy = other.id.strategy) := ⟨Eq.trans⟩
  have pairs := List.isChain_iff_pairwise.mp chain
  refine List.Pairwise.forall_of_forall_of_flip
    (R := fun one other : NodeEntry V => one.id.strategy = other.id.strategy)
    (fun _ _ => rfl) pairs (pairs.imp Eq.symm) inLeft inRight

theorem IndexedBackend.built_of_build {source : Registry V} {nodes : List (NodeEntry V)}
    {scan : EdgeScan V} {edges : List (EdgePair V)} {digests : Py.Dict (NodeId V) String}
    {backend : IndexedBackend V}
    (run : IndexedBackend.build source nodes scan edges digests = .ok backend)
    : backend.Built := by
  obtain ⟨ordered, nodesSorted, run⟩ := Py.ok_bind_iff.mp run
  obtain ⟨sorted, edgesSorted, run⟩ := Py.ok_bind_iff.mp run
  obtain ⟨_, _, run⟩ := Py.ok_bind_iff.mp run
  obtain rfl := Except.ok.inj run
  exact {
    uniform := fun left inLeft right inRight => strategy_of_sorted nodesSorted inLeft inRight
    nodesOrdered :=
      haveI := Py.transCmp_on (NodeId.cmp (V := V)) NodeEntry.id
      Py.sorted_ordered (fun _ _ _ asked => NodeId.lt_agrees asked) nodesSorted
    compares := fun left inLeft right inRight => compares_of_sorted edgesSorted inLeft inRight
    edgesOrdered :=
      haveI := Py.transCmp_on (EdgeId.cmp (V := V)) EdgePair.id
      Py.sorted_ordered (fun _ _ _ asked => EdgeId.lt_agrees asked) edgesSorted
    between := rfl
  }

-----------------------------------------------------------------------------------------
-- Shortest paths
-----------------------------------------------------------------------------------------

namespace IndexedBackend

variable {backend : IndexedBackend V} {predicate : Option (EdgePair V → Bool)}
  {source target : NodeId V}

omit [VersionValue V] in
/-- The edge is one of the graph and the predicate admits it. Of edges with one identity the graph
holds the first.
-/
def Takes (backend : IndexedBackend V) (predicate : Option (EdgePair V → Bool))
    (edge : EdgePair V) : Prop :=
  edge ∈ backend.outgoing edge.id.source ∧ admits predicate edge = true

omit [VersionValue V] in
/-- A directed path of edges that the predicate admits. -/
abbrev Path (backend : IndexedBackend V) (predicate : Option (EdgePair V → Bool))
    (source : NodeId V) (path : List (EdgePair V)) (target : NodeId V) : Prop :=
  Py.Walk (fun edge => edge.id.source) (fun edge => edge.id.target) (backend.Takes predicate)
    source path target

/-- Sorting the edges of a node does not raise; its candidates are the edges that are taken. -/
theorem Built.expands (built : backend.Built) (predicate : Option (EdgePair V → Bool))
    : Py.Search.Expands (fun edge => edge.id.source) (fun edge => edge.id.target)
        (backend.Takes predicate) (backend.expand predicate) := by
  intro node
  have inside := fun edge (member : edge ∈ backend.outgoing node) => mem_of_endIndex member
  obtain ⟨ordered, sorts⟩ := Py.exists_sorted (fun left inLeft right inRight =>
    EdgeId.exists_lt.mpr (built.compares left (inside left inLeft).1 right (inside right inRight).1))
  refine ⟨_, by rw [expand, sorts]; rfl, ?_⟩
  intro next edge
  simp only [List.mem_map, List.mem_filter, (Py.perm_of_sorted sorts).mem_iff, Prod.mk.injEq]
  constructor
  · intro listed
    obtain ⟨other, ⟨member, admitted⟩, rfl, rfl⟩ := listed
    have own := (inside _ member).2
    exact ⟨⟨own ▸ member, admitted⟩, own, rfl⟩
  · intro given
    obtain ⟨⟨member, admitted⟩, rfl, rfl⟩ := given
    exact ⟨edge, ⟨member, admitted⟩, rfl, rfl⟩

/-- The search finds a shortest path, or tells that there is none. -/
def FindsShortest (backend : IndexedBackend V) (predicate : Option (EdgePair V → Bool))
    (source target : NodeId V) : Prop :=
  (backend.shortestPath source target predicate = .ok none
      ∧ ∀ path, ¬ backend.Path predicate source path target)
    ∨ ∃ path, backend.shortestPath source target predicate = .ok (some path)
        ∧ backend.Path predicate source path target
        ∧ (∀ other, backend.Path predicate source other target → path.length ≤ other.length)
        ∧ (path = [] ↔ source = target)

/-- The source and what edges lead to from it without passing the target have the version strategy
of the target.
-/
def SharesStrategy (backend : IndexedBackend V) (source target : NodeId V) : Prop :=
  ∀ path node, backend.Path none source path node →
    (∀ edge ∈ path, edge.id.target ≠ target) → node.strategy = target.strategy

omit [VersionValue V] in
theorem Takes.listed {edge : EdgePair V} (takes : backend.Takes predicate edge)
    : edge.id.target ∈ backend.edges.map (fun other => other.id.target) :=
  List.mem_map_of_mem (mem_of_endIndex takes.1).1

omit [VersionValue V] in
theorem Path.of_predicate {path : List (EdgePair V)} (walk : backend.Path predicate source path target)
    : backend.Path none source path target :=
  walk.imp_of_mem (fun _ member => ⟨(walk.accepts_of_mem member).1, rfl⟩)

omit [DecidableEq V] in
theorem eq_self (id : NodeId V) : id.eq id = .ok true := by
  have same : id.cmp id = .eq := Std.ReflCmp.compare_self
  simp [NodeId.eq, same]

/-- Ends that compare different are searched for. -/
theorem shortestPath_eq (differ : source.eq target = .ok false)
    : backend.shortestPath source target predicate
      = Py.Search.shortest (backend.expand predicate) (fun edge => .ok edge.id.source)
        (fun node => node.eq source) (fun node => node.eq target) (.raised "KeyError")
        (.raised "out of fuel") ((backend.edges.map (fun other => other.id.target)).length + 1)
        source target := by
  rw [shortestPath, differ, List.length_map]
  rfl

omit [DecidableEq V] in
/-- `==` answers for identities of one strategy only. -/
theorem strategy_of_eq {left right : NodeId V} {answer : Bool} (compared : left.eq right = .ok answer)
    : left.strategy = right.strategy := by
  by_contra mixed
  rw [NodeId.eq, if_neg mixed] at compared
  cases compared

omit [DecidableEq V] in
/-- Different identities of one strategy compare different. -/
theorem eq_of_ne [VersionValue.HashAgrees V] {left right : NodeId V}
    (same : left.strategy = right.strategy) (distinct : left ≠ right)
    : left.eq right = .ok false := by
  rw [NodeId.eq, if_pos same]
  apply congrArg
  rw [beq_eq_false_iff_ne]
  intro equal
  exact distinct (NodeId.eq_of_cmp equal)

/-- Nodes before the target share its strategy. -/
theorem SharesStrategy.of_mem (shared : backend.SharesStrategy source target)
    {path : List (EdgePair V)} {last : NodeId V} (walk : backend.Path predicate source path last)
    {edge : EdgePair V} {before after : List (EdgePair V)} (split : path = before ++ edge :: after)
    (avoids : ∀ other ∈ before ++ [edge], other.id.target ≠ target)
    : edge.id.target.strategy = target.strategy := by
  subst split
  rw [← List.singleton_append, ← List.append_assoc] at walk
  obtain ⟨middle, initial, _⟩ := walk.of_append
  obtain ⟨_, _, ends⟩ := Py.Walk.concat_iff.mp initial
  subst ends
  exact shared _ _ (Path.of_predicate initial) avoids

/-- On a path without repetition only the last edge leads to the target. -/
theorem SharesStrategy.of_simple (shared : backend.SharesStrategy source target)
    {path : List (EdgePair V)} (walk : backend.Path predicate source path target)
    (simple : (path.map (fun edge => edge.id.target)).Nodup) {edge : EdgePair V}
    (member : edge ∈ path)
    : edge.id.target.strategy = target.strategy := by
  by_cases last : edge.id.target = target
  · rw [last]
  obtain ⟨before, after, split⟩ := List.append_of_mem member
  refine shared.of_mem walk split ?_
  intro other inside reaches
  rw [split, ← List.singleton_append, ← List.append_assoc] at walk simple
  obtain ⟨middle, initial, rest⟩ := walk.of_append
  obtain ⟨_, _, ends⟩ := Py.Walk.concat_iff.mp initial
  cases after using List.reverseRecOn with
  | nil => exact last (ends.trans (Py.Walk.nil_iff.mp rest))
  | append_singleton after final =>
      -- The target ends the path and would be met twice.
      obtain ⟨_, _, finishes⟩ := Py.Walk.concat_iff.mp rest
      rw [List.map_append] at simple
      refine (List.nodup_append.mp simple).2.2 _ (List.mem_map_of_mem inside) _
        (List.mem_map_of_mem (List.mem_append_right after (List.mem_singleton_self final))) ?_
      rw [reaches, finishes]

/-- Where the nodes met share the strategy of the target, the search is right. -/
theorem Built.findsShortest [VersionValue.HashAgrees V] (built : backend.Built)
    (distinct : source ≠ target) (shared : backend.SharesStrategy source target)
    : backend.FindsShortest predicate source target := by
  have ends : source.strategy = target.strategy := shared [] source (.stay source) (by simp)
  unfold FindsShortest
  rw [shortestPath_eq (eq_of_ne ends distinct)]
  have correct := @Py.Search.shortest_correct _ _ _ _ _ _ _ source (fun node => node.eq target)
    _ _ (fun node => node.eq source) (.raised "KeyError") (.raised "out of fuel") target _
    (built.expands predicate) (fun _ takes => takes.listed) (fun _ => rfl) (eq_self source)
    (eq_self target) distinct
    (by
      intro path last walk avoids edge member
      obtain ⟨before, after, split⟩ := List.append_of_mem member
      refine eq_of_ne (shared.of_mem walk split ?_) (avoids edge member)
      intro other inside
      refine avoids other ?_
      rw [split, ← List.singleton_append, ← List.append_assoc]
      exact List.mem_append_left after inside)
    (by
      intro path walk simple edge member
      obtain ⟨fresh, apart⟩ := List.nodup_cons.mp simple
      refine eq_of_ne ((shared.of_simple walk apart member).trans ends.symm) ?_
      intro back
      exact fresh (back ▸ List.mem_map_of_mem member))
  rcases correct with none_ | ⟨path, found, walk, least⟩
  · exact .inl none_
  · refine .inr ⟨path, found, walk, least, ?_⟩
    constructor
    · intro empty
      subst empty
      exact Py.Walk.nil_iff.mp walk
    · intro same
      exact absurd same distinct

/-- Identical ends are joined by the empty path. -/
theorem findsShortest_self : backend.FindsShortest predicate source source := by
  refine .inr ⟨[], ?_, .stay source, fun _ _ => Nat.zero_le _, by simp⟩
  rw [shortestPath, eq_self]
  rfl

/-- The search is right for different ends only if they compare different. -/
theorem FindsShortest.eq_false (finds : backend.FindsShortest predicate source target)
    (distinct : source ≠ target)
    : source.eq target = .ok false := by
  cases compared : source.eq target with
  | error error =>
      rcases finds with ⟨none_, _⟩ | ⟨path, found, _⟩
      · rw [shortestPath, compared] at none_
        cases none_
      · rw [shortestPath, compared] at found
        cases found
  | ok same =>
      cases same with
      | false => rfl
      | true =>
          rcases finds with ⟨none_, _⟩ | ⟨path, found, walk, _⟩
          · rw [shortestPath, compared] at none_
            cases none_
          · rw [shortestPath, compared] at found
            obtain rfl := Option.some.inj (Except.ok.inj found)
            exact absurd (Py.Walk.nil_iff.mp walk) distinct

/-- The search is right for every predicate only if it can compare all that it meets: a predicate
may close every way to the target.
-/
theorem Built.sharesStrategy (built : backend.Built) (distinct : source ≠ target)
    (finds : ∀ predicate, backend.FindsShortest predicate source target)
    : backend.SharesStrategy source target := by
  have differ := (finds none).eq_false distinct
  intro path node walk avoids
  let closed : EdgePair V → Bool := fun edge => edge.id.target ≠ target
  have open_ : backend.Path (some closed) source path node := by
    refine walk.imp_of_mem ?_
    intro other inside
    exact ⟨(walk.accepts_of_mem inside).1, decide_eq_true (avoids other inside)⟩
  have cut : ∀ other, ¬ backend.Path (some closed) source other target := by
    intro other there
    cases other using List.reverseRecOn with
    | nil => exact distinct (Py.Walk.nil_iff.mp there)
    | append_singleton before final =>
        obtain ⟨_, ⟨_, admitted⟩, ends⟩ := Py.Walk.concat_iff.mp there
        exact of_decide_eq_true admitted ends
  rcases finds (some closed) with ⟨none_, _⟩ | ⟨other, _, there, _⟩
  · rw [shortestPath_eq differ] at none_
    by_cases back : node = source
    · rw [back]
      exact strategy_of_eq differ
    · exact strategy_of_eq (Py.Search.of_shortest_none (built.expands (some closed))
        (fun _ takes => takes.listed) none_ open_ back)
  · exact absurd there (cut other)

end IndexedBackend

/-- A backend over edges between releases of `User`, without entries of its own. -/
def buildUsers (edges : List (EdgePair Release)) : Except (Error Release) (IndexedBackend Release) :=
  IndexedBackend.build (Registry.new "default" false) [] .empty edges ∅

/-- A backend without nodes and edges, over versions of both strategies. -/
def emptyBackend : Except (Error Version) (IndexedBackend Version) :=
  IndexedBackend.build (Registry.new "default" false) [] .empty [] ∅

/-- The identity of `User` at a date. -/
def datedUser : NodeId Version :=
  { semverUser 1 with version := .date ⟨2024, 1, 1, by decide⟩ }

end Pyverge
