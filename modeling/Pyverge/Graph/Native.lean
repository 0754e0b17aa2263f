import Mathlib.Data.List.Find
import Pyverge.Graph.Traversal
import Pyverge.Py.SearchOrder

/-! Backends that traverse a native graph.
A native backend numbers the nodes of an indexed backend and lets a library hold the edges between
the numbers. What the library returns is the out- and in-neighbours, in an order of its own.
-/

namespace Pyverge

variable {V : Type} [DecidableEq V]

inductive TraversalDirection where
  | out
  | inward
  | both
  deriving DecidableEq

def TraversalDirection.followsOut (direction : TraversalDirection) : Bool := direction = .out ∨ direction = .both

def TraversalDirection.followsIn (direction : TraversalDirection) : Bool := direction = .inward ∨ direction = .both

/-- The neighbours of an index in a native graph with these edges. -/
structure NativeLibrary where
  outIndices : List (Nat × Nat) → Nat → List Nat
  inIndices : List (Nat × Nat) → Nat → List Nat

/-- The neighbours are those of the edges, in any order and as often as may be. -/
structure NativeLibrary.Faithful (library : NativeLibrary) : Prop where
  out : ∀ arcs index other, other ∈ library.outIndices arcs index ↔ (index, other) ∈ arcs
  inward : ∀ arcs index other, other ∈ library.inIndices arcs index ↔ (other, index) ∈ arcs

/-- A backend that uses a native graph for traversal. -/
structure NativeBackend (V : Type) where
  delegate : IndexedBackend V
  outIndices : Nat → List Nat
  inIndices : Nat → List Nat
  indexById : Py.Dict (NodeId V) Nat
  idByIndex : List (NodeId V)

namespace NativeBackend

/-- A lookup in a dictionary. -/
def lookup {ν : Type} (dict : Py.Dict (NodeId V) ν) (key : NodeId V) : Except (Error V) ν :=
  match dict.get? key with
  | some value => .ok value
  | none => .error (.raised "KeyError")

omit [DecidableEq V] in
/-- A lookup in a tuple. -/
def item {α : Type} (items : List α) (index : Nat) : Except (Error V) α :=
  match items[index]? with
  | some value => .ok value
  | none => .error (.raised "IndexError: tuple index out of range")

/-- The number of each node; of entries with one identity the last. -/
def numbering (nodes : List (NodeEntry V)) : Py.Dict (NodeId V) Nat :=
  .ofItems (nodes.zipIdx.map (fun numbered => (numbered.1.id, numbered.2)))

/-- The edges between the numbers. -/
def arcs (numbers : Py.Dict (NodeId V) Nat) (edges : List (EdgePair V))
    : Except (Error V) (List (Nat × Nat)) :=
  edges.mapM (fun edge => do
    return (← lookup numbers edge.id.source, ← lookup numbers edge.id.target))

/-- `RustworkxBackend.build` and `IgraphBackend.build` over an indexed backend. -/
def build (library : NativeLibrary) (delegate : IndexedBackend V)
    : Except (Error V) (NativeBackend V) := do
  let arcs ← arcs (numbering delegate.nodes) delegate.edges
  return {
    delegate
    outIndices := library.outIndices arcs
    inIndices := library.inIndices arcs
    indexById := numbering delegate.nodes
    idByIndex := delegate.nodes.map NodeEntry.id
  }

variable [VersionValue V]

def neighbors (backend : NativeBackend V) (node : NodeId V) (direction : TraversalDirection)
    : Except (Error V) (List (NodeId V)) := do
  let index ← lookup backend.indexById node
  let out := if direction.followsOut then backend.outIndices index else []
  let inward := if direction.followsIn then backend.inIndices index else []
  let selected ← (out ++ inward).dedup.mapM (item backend.idByIndex)
  Py.sorted NodeId.lt selected

omit [VersionValue V] in
/-- `_edge_to`: the first edge between two numbers that the predicate admits. -/
def edgeTo (backend : NativeBackend V) (source target : Nat)
    (predicate : Option (EdgePair V → Bool)) : Except (Error V) (Option (EdgePair V)) := do
  let sourceId ← item backend.idByIndex source
  let targetId ← item backend.idByIndex target
  return (backend.delegate.edgesByPair.getD (sourceId, targetId) []).find?
    (IndexedBackend.admits predicate)

omit [VersionValue V] in
/-- The neighbours of a number that an edge leads to, in order, each with that edge. -/
def expand (backend : NativeBackend V) (predicate : Option (EdgePair V → Bool)) (current : Nat)
    : Except (Error V) (List (Nat × EdgePair V)) := do
  let nexts := (backend.outIndices current).insertionSort (· ≤ ·)
  let found ← nexts.mapM (fun next => do
    let edge ← backend.edgeTo current next predicate
    return edge.map (fun edge => (next, edge)))
  return found.filterMap id

omit [VersionValue V] in
def shortestPath (backend : NativeBackend V) (source target : NodeId V)
    (predicate : Option (EdgePair V → Bool)) : Except (Error V) (Option (List (EdgePair V))) := do
  let start ← lookup backend.indexById source
  let goal ← lookup backend.indexById target
  if start = goal then return some []
  Py.Search.shortest (backend.expand predicate)
    (fun edge => lookup backend.indexById edge.id.source) (fun node => .ok (node = start))
    (fun node => .ok (node = goal)) (.raised "KeyError") (.raised "out of fuel")
    (backend.delegate.edges.length + 1) start goal

end NativeBackend

/-- The neighbours of a node in an indexed backend. -/
def IndexedBackend.neighbors [VersionValue V] (backend : IndexedBackend V) (node : NodeId V)
    (direction : TraversalDirection) : Except (Error V) (List (NodeId V)) :=
  let out := if direction.followsOut then (backend.outgoing node).map (fun edge => edge.id.target)
    else []
  let inward := if direction.followsIn then (backend.incoming node).map (fun edge => edge.id.source)
    else []
  Py.sorted NodeId.lt (out ++ inward).dedup

-----------------------------------------------------------------------------------------
-- Numbers of nodes
-----------------------------------------------------------------------------------------

namespace IndexedBackend

/-- The identity is that of a node. -/
def Holds (backend : IndexedBackend V) (id : NodeId V) : Prop := ∃ node ∈ backend.nodes, node.id = id

/-- Every edge joins nodes of the graph, which lists each edge once. -/
structure Closed (backend : IndexedBackend V) : Prop where
  source : ∀ edge ∈ backend.edges, backend.Holds edge.id.source
  target : ∀ edge ∈ backend.edges, backend.Holds edge.id.target
  unique : (backend.edges.map EdgePair.id).Nodup

/-- The number of an identity. -/
def number (backend : IndexedBackend V) (id : NodeId V) : Nat :=
  (NativeBackend.numbering backend.nodes).getD id 0

variable {backend : IndexedBackend V} {id other : NodeId V}

/-- A node has its number, and the number leads back to it. -/
theorem number_spec (holds : backend.Holds id)
    : (NativeBackend.numbering backend.nodes).get? id = some (backend.number id)
      ∧ (backend.nodes.map NodeEntry.id)[backend.number id]? = some id := by
  have back : ∀ index, (NativeBackend.numbering backend.nodes).get? id = some index →
      (backend.nodes.map NodeEntry.id)[index]? = some id := by
    intro index found
    rw [NativeBackend.numbering, Py.Dict.ofItems, Py.Dict.get?_update, Py.Dict.get?_empty,
      Option.or_none, Option.map_eq_some_iff] at found
    obtain ⟨numbered, found, rfl⟩ := found
    have same : numbered.1 = id := by simpa using List.find?_some found
    have member := List.mem_reverse.mp (List.mem_of_find?_eq_some found)
    obtain ⟨⟨node, place⟩, listed, rfl⟩ := List.mem_map.mp member
    have at_ := List.mem_zipIdx_iff_getElem?.mp listed
    simp only at at_ same ⊢
    rw [List.getElem?_map, at_, ← same]
    rfl
  cases found : (NativeBackend.numbering backend.nodes).get? id with
  | some index =>
      have own : backend.number id = index := by simp [number, Py.Dict.getD, found]
      rw [own]
      exact ⟨rfl, back index found⟩
  | none =>
      obtain ⟨node, member, rfl⟩ := holds
      obtain ⟨place, at_⟩ := List.mem_iff_getElem?.mp member
      rw [NativeBackend.numbering, Py.Dict.ofItems, Py.Dict.get?_update, Py.Dict.get?_empty,
        Option.or_none, Option.map_eq_none_iff] at found
      have miss := List.find?_eq_none.mp found (node.id, place) (List.mem_reverse.mpr
        (List.mem_map.mpr ⟨(node, place), List.mem_zipIdx_iff_getElem?.mpr at_, rfl⟩))
      simp at miss

theorem number_injective (holds : backend.Holds id) (holdsOther : backend.Holds other)
    (same : backend.number id = backend.number other)
    : id = other := by
  have first := (number_spec holds).2
  have second := (number_spec holdsOther).2
  rw [same] at first
  exact Option.some.inj (first.symm.trans second)

theorem lookup_number (holds : backend.Holds id)
    : NativeBackend.lookup (NativeBackend.numbering backend.nodes) id
      = .ok (backend.number id) := by
  rw [NativeBackend.lookup, (number_spec holds).1]

theorem item_number (holds : backend.Holds id)
    : NativeBackend.item (V := V) (backend.nodes.map NodeEntry.id) (backend.number id)
      = .ok id := by
  rw [NativeBackend.item, (number_spec holds).2]

/-- Numbers follow the order of the nodes. -/
theorem number_lt [VersionValue V] (built : backend.Built) (holds : backend.Holds id)
    (holdsOther : backend.Holds other) (below : id.cmp other = .lt)
    : backend.number id < backend.number other := by
  by_contra notBelow
  have first := (number_spec holds).2
  have second := (number_spec holdsOther).2
  rcases Nat.lt_or_eq_of_le (Nat.le_of_not_lt notBelow) with before | same
  · have ordered : (backend.nodes.map NodeEntry.id).Pairwise
        (fun left right => left.cmp right ≠ .gt) := List.pairwise_map.mpr built.nodesOrdered
    rw [List.getElem?_eq_some_iff] at first second
    obtain ⟨firstPlace, isFirst⟩ := first
    obtain ⟨secondPlace, isSecond⟩ := second
    have order := List.pairwise_iff_getElem.mp ordered _ _ secondPlace firstPlace before
    rw [isFirst, isSecond] at order
    exact order (Std.OrientedCmp.gt_of_lt below)
  · have level : id.cmp id = .eq := Std.ReflCmp.compare_self
    rw [number_injective holdsOther holds same, level] at below
    cases below

/-- The numbers of the ends of all edges. -/
theorem arcs_eq (closed : backend.Closed)
    : NativeBackend.arcs (NativeBackend.numbering backend.nodes) backend.edges
      = .ok (backend.edges.map
        (fun edge => (backend.number edge.id.source, backend.number edge.id.target))) := by
  have general : ∀ edges : List (EdgePair V), (∀ edge ∈ edges, edge ∈ backend.edges) →
      NativeBackend.arcs (NativeBackend.numbering backend.nodes) edges = .ok (edges.map
        (fun edge => (backend.number edge.id.source, backend.number edge.id.target))) := by
    intro edges inside
    induction edges with
    | nil => rfl
    | cons edge rest ih =>
        have own := inside edge List.mem_cons_self
        have later := ih (fun other member => inside other (List.mem_cons_of_mem _ member))
        unfold NativeBackend.arcs at later ⊢
        rw [List.mapM_cons, lookup_number (closed.source edge own),
          lookup_number (closed.target edge own), later]
        rfl
  exact general _ (fun _ member => member)

end IndexedBackend

-----------------------------------------------------------------------------------------
-- Edges of a node
-----------------------------------------------------------------------------------------

/-- Edges that are told apart by their identities are filed in their order. -/
theorem endIndex_eq {end_ : EdgeId V → NodeId V} {edges : List (EdgePair V)}
    (unique : (edges.map EdgePair.id).Nodup) (node : NodeId V)
    : (endIndex end_ edges).getD node [] = edges.filter (fun edge => end_ edge.id = node) := by
  induction edges using List.reverseRecOn with
  | nil => rfl
  | append_singleton edges edge ih =>
      rw [List.map_append, List.map_singleton] at unique
      obtain ⟨before, _, apart⟩ := List.nodup_append.mp unique
      have filed := ih before
      have fresh : edge.id ∉ ((endIndex end_ edges).getD (end_ edge.id) []).map EdgePair.id := by
        intro member
        obtain ⟨other, inside, same⟩ := List.mem_map.mp member
        have listed := List.mem_map_of_mem (f := EdgePair.id) (mem_of_endIndex inside).1
        exact apart _ listed _ (List.mem_singleton_self _) same
      unfold endIndex at filed fresh ⊢
      rw [List.foldl_append, List.foldl_cons, List.foldl_nil, Py.Dict.getD_set, List.filter_append]
      by_cases here : node = end_ edge.id
      · subst here
        rw [if_pos rfl, addEdge, if_neg fresh, filed]
        simp
      · rw [if_neg here, filed]
        simp [Ne.symm here]

namespace IndexedBackend

variable [VersionValue V] {backend : IndexedBackend V}

theorem Built.strategy_eq (built : backend.Built) {id other : NodeId V} (holds : backend.Holds id)
    (holdsOther : backend.Holds other)
    : id.strategy = other.strategy := by
  obtain ⟨left, inLeft, rfl⟩ := holds
  obtain ⟨right, inRight, rfl⟩ := holdsOther
  exact built.uniform left inLeft right inRight

/-- Sorting identities of nodes depends on nothing but which they are. -/
theorem sorted_eq [VersionValue.HashAgrees V] (built : backend.Built)
    {ids others : List (NodeId V)} (holds : ∀ id ∈ ids, backend.Holds id)
    (distinct : ids.Nodup) (distinctOthers : others.Nodup)
    (same : ∀ id, id ∈ ids ↔ id ∈ others)
    : Py.sorted NodeId.lt ids = Py.sorted NodeId.lt others := by
  have sorts : ∀ items : List (NodeId V), items.Nodup → (∀ id ∈ items, backend.Holds id) →
      ∃ result, Py.sorted NodeId.lt items = .ok result
        ∧ Py.SortedBy (fun id => id) NodeId.cmp result ∧ result.Perm items := by
    intro items nodup inside
    obtain ⟨result, run⟩ : ∃ result, Py.sorted NodeId.lt items = .ok result :=
      Py.exists_sorted (fun left inLeft right inRight =>
        ⟨_, if_pos (built.strategy_eq (inside left inLeft) (inside right inRight))⟩)
    refine ⟨result, run, ?_, Py.perm_of_sorted run⟩
    refine Py.sortedBy_of_sorted (fun _ _ _ asked => NodeId.lt_agrees asked) nodup ?_ run
    intro left inLeft right inRight equal
    exact NodeId.eq_of_cmp equal
  obtain ⟨first, runFirst, ordered, perm⟩ := sorts ids distinct holds
  obtain ⟨second, runSecond, orderedSecond, permSecond⟩ := sorts others distinctOthers
    (fun id member => holds id ((same id).mpr member))
  rw [runFirst, runSecond, ordered.eq_of_mem orderedSecond
    (fun id => by rw [perm.mem_iff, permSecond.mem_iff, same id])]

-----------------------------------------------------------------------------------------
-- Neighbours
-----------------------------------------------------------------------------------------

/-- The native graph of a closed backend. -/
def native (backend : IndexedBackend V) (library : NativeLibrary) : NativeBackend V :=
  let arcs := backend.edges.map
    (fun edge => (backend.number edge.id.source, backend.number edge.id.target))
  {
    delegate := backend
    outIndices := library.outIndices arcs
    inIndices := library.inIndices arcs
    indexById := NativeBackend.numbering backend.nodes
    idByIndex := backend.nodes.map NodeEntry.id
  }

omit [VersionValue V] in
theorem build_eq (closed : backend.Closed) (library : NativeLibrary)
    : NativeBackend.build library backend = .ok (backend.native library) := by
  rw [NativeBackend.build, arcs_eq closed]
  rfl

variable {library : NativeLibrary} {node : NodeId V}

omit [VersionValue V] in
theorem mem_outIndices (faithful : library.Faithful) (closed : backend.Closed)
    (holds : backend.Holds node) {index : Nat}
    : index ∈ (backend.native library).outIndices (backend.number node)
      ↔ ∃ edge ∈ backend.edges, edge.id.source = node ∧ backend.number edge.id.target = index := by
  simp only [native, faithful.out, List.mem_map, Prod.mk.injEq]
  constructor
  · intro listed
    obtain ⟨edge, member, sources, targets⟩ := listed
    exact ⟨edge, member, number_injective (closed.source edge member) holds sources, targets⟩
  · intro listed
    obtain ⟨edge, member, rfl, targets⟩ := listed
    exact ⟨edge, member, rfl, targets⟩

omit [VersionValue V] in
theorem mem_inIndices (faithful : library.Faithful) (closed : backend.Closed)
    (holds : backend.Holds node) {index : Nat}
    : index ∈ (backend.native library).inIndices (backend.number node)
      ↔ ∃ edge ∈ backend.edges, edge.id.target = node ∧ backend.number edge.id.source = index := by
  simp only [native, faithful.inward, List.mem_map, Prod.mk.injEq]
  constructor
  · intro listed
    obtain ⟨edge, member, sources, targets⟩ := listed
    exact ⟨edge, member, number_injective (closed.target edge member) holds targets, sources⟩
  · intro listed
    obtain ⟨edge, member, rfl, sources⟩ := listed
    exact ⟨edge, member, sources, rfl⟩

omit [VersionValue V] in
/-- Numbers of nodes lead back to the nodes, by list induction. -/
theorem exists_mapM_item {indices : List Nat}
    (numbers : ∀ index ∈ indices, ∃ id, backend.Holds id ∧ backend.number id = index)
    : ∃ ids : List (NodeId V),
        indices.mapM (NativeBackend.item (V := V) (backend.nodes.map NodeEntry.id)) = .ok ids
        ∧ ids.map backend.number = indices ∧ ∀ id ∈ ids, backend.Holds id := by
  induction indices with
  | nil => exact ⟨[], rfl, rfl, by simp⟩
  | cons index rest ih =>
      obtain ⟨id, holds, rfl⟩ := numbers index List.mem_cons_self
      obtain ⟨ids, run, rfl, each⟩ :=
        ih (fun other member => numbers other (List.mem_cons_of_mem _ member))
      refine ⟨id :: ids, ?_, rfl, ?_⟩
      · rw [List.mapM_cons, item_number holds, run]
        rfl
      · intro other member
        rcases List.mem_cons.mp member with rfl | later
        · exact holds
        · exact each other later

/-- An edge joins the node and the other in the direction. -/
def Neighbor (backend : IndexedBackend V) (direction : TraversalDirection)
    (node id : NodeId V) : Prop :=
  (direction.followsOut = true
      ∧ ∃ edge ∈ backend.edges, edge.id.source = node ∧ edge.id.target = id)
    ∨ (direction.followsIn = true
      ∧ ∃ edge ∈ backend.edges, edge.id.target = node ∧ edge.id.source = id)

omit [DecidableEq V] [VersionValue V] in
theorem Neighbor.holds {direction : TraversalDirection} {id : NodeId V}
    (neighbor : backend.Neighbor direction node id) (closed : backend.Closed)
    : backend.Holds id := by
  rcases neighbor with ⟨_, edge, inside, _, rfl⟩ | ⟨_, edge, inside, _, rfl⟩
  · exact closed.target edge inside
  · exact closed.source edge inside

omit [VersionValue V] in
/-- The neighbours an indexed backend collects. -/
theorem mem_neighborIds {direction : TraversalDirection} {id : NodeId V}
    (closed : backend.Closed)
    : id ∈ (if direction.followsOut then (backend.outgoing node).map (fun edge => edge.id.target)
        else []) ++ (if direction.followsIn then
          (backend.incoming node).map (fun edge => edge.id.source) else [])
      ↔ backend.Neighbor direction node id := by
  unfold Neighbor
  rw [outgoing, incoming, endIndex_eq closed.unique, endIndex_eq closed.unique]
  cases direction.followsOut <;> cases direction.followsIn <;>
    simp [and_assoc]

omit [VersionValue V] in
/-- The numbers a native backend collects are those of the neighbours. -/
theorem mem_neighborIndices (faithful : library.Faithful) (closed : backend.Closed)
    (holds : backend.Holds node) {direction : TraversalDirection} {index : Nat}
    : index ∈ (if direction.followsOut then
          (backend.native library).outIndices (backend.number node) else [])
        ++ (if direction.followsIn then
          (backend.native library).inIndices (backend.number node) else [])
      ↔ ∃ id, backend.Neighbor direction node id ∧ backend.number id = index := by
  have out := @mem_outIndices _ _ _ _ _ faithful closed holds index
  have inward := @mem_inIndices _ _ _ _ _ faithful closed holds index
  unfold Neighbor
  cases direction.followsOut <;> cases direction.followsIn <;>
    simp [out, inward, or_and_right, exists_or, and_assoc]

/-- A native backend returns the neighbours of a node that the indexed one does. -/
theorem neighbors_eq [VersionValue.HashAgrees V] (built : backend.Built)
    (faithful : library.Faithful) (closed : backend.Closed) (holds : backend.Holds node)
    (direction : TraversalDirection)
    : (backend.native library).neighbors node direction = backend.neighbors node direction := by
  have listed := fun index =>
    (@mem_neighborIndices _ _ _ _ _ faithful closed holds direction index)
  have numbers := fun index (member : index ∈ List.dedup _) =>
    (listed index).mp (List.mem_dedup.mp member)
  obtain ⟨ids, run, indices, each⟩ := exists_mapM_item (fun index member => by
    obtain ⟨id, neighbor, own⟩ := numbers index member
    exact ⟨id, neighbor.holds closed, own⟩)
  have selected : (backend.native library).neighbors node direction
      = Py.sorted NodeId.lt ids := by
    unfold NativeBackend.neighbors
    rw [show (backend.native library).indexById = NativeBackend.numbering backend.nodes from rfl,
      lookup_number holds]
    exact (congrArg (· >>= Py.sorted NodeId.lt) run).trans rfl
  rw [selected, neighbors]
  refine sorted_eq built each (.of_map _ (indices ▸ List.nodup_dedup _))
    (List.nodup_dedup _) ?_
  intro id
  rw [List.mem_dedup, mem_neighborIds closed]
  constructor
  · intro member
    obtain ⟨other, neighbor, same⟩ := numbers _ (indices ▸ List.mem_map_of_mem member)
    rwa [← number_injective (neighbor.holds closed) (each id member) same]
  · intro neighbor
    have index := List.mem_dedup.mpr ((listed _).mpr ⟨id, neighbor, rfl⟩)
    rw [← indices] at index
    obtain ⟨other, member, same⟩ := List.mem_map.mp index
    rwa [← number_injective (each other member) (neighbor.holds closed) same]

-----------------------------------------------------------------------------------------
-- Candidates
-----------------------------------------------------------------------------------------

variable {predicate : Option (EdgePair V → Bool)}

/-- The first edge between two nodes that the predicate admits. -/
def firstEdge (backend : IndexedBackend V) (predicate : Option (EdgePair V → Bool))
    (node next : NodeId V) : Option (EdgePair V) :=
  (backend.edges.filter (fun edge => (edge.id.source, edge.id.target) = (node, next))).find?
    (admits predicate)

omit [VersionValue V] in
theorem of_firstEdge {next : NodeId V} {edge : EdgePair V}
    (found : backend.firstEdge predicate node next = some edge)
    : edge ∈ backend.edges ∧ edge.id.source = node ∧ edge.id.target = next := by
  obtain ⟨member, ends⟩ := List.mem_filter.mp (List.mem_of_find?_eq_some found)
  obtain ⟨sources, targets⟩ := Prod.mk.inj (of_decide_eq_true ends)
  exact ⟨member, sources, targets⟩

/-- The candidates of an indexed backend are the admitted edges of the node in their order. -/
theorem expand_eq (built : backend.Built) (closed : backend.Closed) (node : NodeId V)
    : backend.expand predicate node
      = .ok (((backend.edges.filter (fun edge => edge.id.source = node)).filter
        (admits predicate)).map (fun edge => (edge.id.target, edge))) := by
  have sorts : Py.sorted (fun left right : EdgePair V => left.id.lt right.id)
      (backend.edges.filter (fun edge => edge.id.source = node))
      = .ok (backend.edges.filter (fun edge => edge.id.source = node)) := by
    refine Py.sorted_of_pairwise ?_
    refine (built.edgesOrdered.filter _).imp_of_mem ?_
    intro left right inLeft inRight ordered
    rw [EdgeId.lt_of_compares (built.compares right (List.mem_filter.mp inRight).1 left
      (List.mem_filter.mp inLeft).1)]
    have notLess : right.id.cmp left.id ≠ .lt :=
      fun less => ordered (Std.OrientedCmp.gt_of_lt less)
    simpa using notLess
  rw [expand, outgoing, endIndex_eq closed.unique, sorts]
  rfl

/-- The candidates of a node under the numbers of the native graph. -/
def candidates (backend : IndexedBackend V) (predicate : Option (EdgePair V → Bool))
    (node : NodeId V) : List (Nat × EdgePair V) :=
  ((backend.edges.filter (fun edge => edge.id.source = node)).filter (admits predicate)).map
    (fun edge => (backend.number edge.id.target, edge))

omit [VersionValue V] in
theorem mem_candidates {item : Nat × EdgePair V}
    (member : item ∈ backend.candidates predicate node)
    : item.2 ∈ backend.edges ∧ item.2.id.source = node
      ∧ backend.number item.2.id.target = item.1 := by
  obtain ⟨edge, listed, rfl⟩ := List.mem_map.mp member
  obtain ⟨inside, own⟩ := List.mem_filter.mp (List.mem_filter.mp listed).1
  exact ⟨inside, of_decide_eq_true own, rfl⟩

omit [VersionValue V] in
/-- The first candidate for a next node is the first admitted edge to it. -/
theorem find?_candidates (closed : backend.Closed) {next : NodeId V} (holds : backend.Holds next)
    : (backend.candidates predicate node).find? (fun item => item.1 = backend.number next)
      = (backend.firstEdge predicate node next).map (fun edge => (backend.number next, edge)) := by
  have found : ((backend.edges.filter (fun edge => edge.id.source = node)).filter
      (admits predicate)).find? (fun edge => backend.number edge.id.target = backend.number next)
      = backend.firstEdge predicate node next := by
    rw [List.find?_filter, List.find?_filter, firstEdge, List.find?_filter]
    refine List.find?_congr (fun edge member => ?_)
    have ends : backend.number edge.id.target = backend.number next ↔ edge.id.target = next :=
      ⟨number_injective (closed.target edge member) holds, congrArg backend.number⟩
    simp only [decide_eq_true_eq, Prod.mk.injEq, ends]
    exact decide_eq_decide.mpr ⟨fun given => ⟨⟨given.1, given.2.2⟩, given.2.1⟩,
      fun given => ⟨given.1.1, given.2, given.1.2⟩⟩
  rw [candidates, List.find?_map]
  simp only [Function.comp_def, found]
  refine Option.map_congr ?_
  intro edge member
  rw [(of_firstEdge member).2.2]

/-- Candidates come in the order of the numbers of their next nodes. -/
theorem candidates_ordered [VersionValue.HashAgrees V] (built : backend.Built)
    (closed : backend.Closed) (node : NodeId V)
    : (backend.candidates predicate node).Pairwise
        (fun one other => one.1 = other.1 ∨ compare one.1 other.1 = .lt) := by
  refine List.pairwise_map.mpr (((built.edgesOrdered.filter _).filter _).imp_of_mem ?_)
  intro left right inLeft inRight ordered
  obtain ⟨inLeft, fromLeft⟩ := List.mem_filter.mp (List.mem_filter.mp inLeft).1
  obtain ⟨inRight, fromRight⟩ := List.mem_filter.mp (List.mem_filter.mp inRight).1
  have sources : left.id.source = right.id.source :=
    (of_decide_eq_true fromLeft).trans (of_decide_eq_true fromRight).symm
  have level : left.id.source.cmp right.id.source = .eq := by
    rw [sources]
    exact Std.ReflCmp.compare_self
  have targets : left.id.target.cmp right.id.target ≠ .gt := by
    intro above
    exact ordered (by simp [EdgeId.cmp, compareLex, level, above])
  cases order : left.id.target.cmp right.id.target with
  | lt =>
      exact .inr (Nat.compare_eq_lt.mpr (number_lt built (closed.target left inLeft)
        (closed.target right inRight) order))
  | gt => exact absurd order targets
  | eq =>
      exact .inl (congrArg backend.number (NodeId.eq_of_cmp order))

omit [VersionValue V] in
theorem Closed.holds (closed : backend.Closed) {next : NodeId V} {edge : EdgePair V}
    (first : backend.firstEdge predicate node next = some edge)
    : backend.Holds next := by
  obtain ⟨inside, _, rfl⟩ := of_firstEdge first
  exact closed.target edge inside

/-- The edge a native backend picks between two nodes. -/
theorem edgeTo_eq (built : backend.Built) (holds : backend.Holds node) {next : NodeId V}
    (holdsNext : backend.Holds next)
    : (backend.native library).edgeTo (backend.number node) (backend.number next) predicate
      = .ok (backend.firstEdge predicate node next) := by
  have between : backend.edgesByPair.getD (node, next) []
      = backend.edges.filter (fun edge => (edge.id.source, edge.id.target) = (node, next)) := by
    rw [built.between]
    exact Py.Dict.getD_groupBy _ _ _
  rw [NativeBackend.edgeTo, show (backend.native library).idByIndex
    = backend.nodes.map NodeEntry.id from rfl, item_number holds, item_number holdsNext]
  simp only [bind, Except.bind, pure, Except.pure]
  rw [show (backend.native library).delegate = backend from rfl, between, firstEdge]

/-- The candidates of a number, each next number with the first edge to its node. -/
theorem native_expand (built : backend.Built) (faithful : library.Faithful)
    (closed : backend.Closed) (holds : backend.Holds node)
    : ∃ others, (backend.native library).expand predicate (backend.number node) = .ok others
        ∧ others.Pairwise (fun one other => one.1 = other.1 ∨ compare one.1 other.1 = .lt)
        ∧ ∀ index edge, (index, edge) ∈ others
          ↔ ∃ next, backend.number next = index
            ∧ backend.firstEdge predicate node next = some edge := by
  let nexts := ((backend.native library).outIndices (backend.number node)).insertionSort (· ≤ ·)
  have listed : ∀ index, index ∈ nexts
      ↔ ∃ edge ∈ backend.edges, edge.id.source = node ∧ backend.number edge.id.target = index := by
    intro index
    rw [← mem_outIndices faithful closed holds]
    exact (List.perm_insertionSort _ _).mem_iff
  obtain ⟨ids, _, indices, each⟩ := exists_mapM_item (fun index member => by
    obtain ⟨edge, inside, _, own⟩ := (listed index).mp member
    exact ⟨edge.id.target, closed.target edge inside, own⟩)
  have found : ∀ held : List (NodeId V), (∀ id ∈ held, backend.Holds id) →
      (held.map backend.number).mapM (fun next => do
        let edge ← (backend.native library).edgeTo (backend.number node) next predicate
        return edge.map (fun edge => (next, edge)))
      = Except.ok (held.map (fun id => (backend.firstEdge predicate node id).map
          (fun edge => (backend.number id, edge)))) := by
    intro held inside
    induction held with
    | nil => rfl
    | cons id rest ih =>
        have own := inside id List.mem_cons_self
        have later := ih (fun other member => inside other (List.mem_cons_of_mem _ member))
        rw [List.map_cons, List.mapM_cons, edgeTo_eq built holds own, later]
        rfl
  refine ⟨ids.filterMap (fun id => (backend.firstEdge predicate node id).map
    (fun edge => (backend.number id, edge))), ?_, ?_, ?_⟩
  · have run := found ids each
    rw [indices] at run
    unfold NativeBackend.expand
    exact (congrArg (Except.map (List.filterMap id)) run).trans (by
      simp [Except.map, List.filterMap_map])
  · have ascending : (ids.map backend.number).Pairwise (· ≤ ·) := by
      rw [indices]
      exact List.pairwise_insertionSort _ _
    refine List.pairwise_filterMap.mpr ((List.pairwise_map.mp ascending).imp ?_)
    intro one other below left isLeft right isRight
    obtain ⟨_, _, rfl⟩ := Option.map_eq_some_iff.mp isLeft
    obtain ⟨_, _, rfl⟩ := Option.map_eq_some_iff.mp isRight
    rcases Nat.lt_or_eq_of_le below with less | same
    · exact .inr (Nat.compare_eq_lt.mpr less)
    · exact .inl same
  · intro index edge
    rw [List.mem_filterMap]
    constructor
    · intro given
      obtain ⟨id, _, picked⟩ := given
      obtain ⟨other, first, same⟩ := Option.map_eq_some_iff.mp picked
      obtain ⟨rfl, rfl⟩ := Prod.mk.inj same
      exact ⟨id, rfl, first⟩
    · intro given
      obtain ⟨next, rfl, first⟩ := given
      obtain ⟨inside, own, rfl⟩ := of_firstEdge first
      have number := (listed _).mpr ⟨edge, inside, own, rfl⟩
      rw [← indices] at number
      obtain ⟨id, member, same⟩ := List.mem_map.mp number
      have identical := number_injective (each id member) (closed.target edge inside) same
      subst identical
      exact ⟨_, member, by rw [first]; rfl⟩

omit [VersionValue V] in
theorem mem_firsts_candidates (closed : backend.Closed) {index : Nat} {edge : EdgePair V}
    : (index, edge) ∈ Py.Search.firsts (backend.candidates predicate node)
      ↔ ∃ next, backend.number next = index
        ∧ backend.firstEdge predicate node next = some edge := by
  rw [Py.Search.mem_firsts]
  constructor
  · intro found
    obtain ⟨inside, _, own⟩ := mem_candidates (List.mem_of_find?_eq_some found)
    simp only at own
    subst own
    rw [find?_candidates closed (closed.target edge inside)] at found
    obtain ⟨other, first, same⟩ := Option.map_eq_some_iff.mp found
    obtain ⟨_, rfl⟩ := Prod.mk.inj same
    exact ⟨_, rfl, first⟩
  · intro given
    obtain ⟨next, rfl, first⟩ := given
    obtain ⟨inside, _, rfl⟩ := of_firstEdge first
    rw [find?_candidates closed (closed.target edge inside), first]
    rfl

/-- Both backends lead from a node to the same next nodes, in the same order and by the same
edges.
-/
theorem expandAlike [VersionValue.HashAgrees V] (built : backend.Built)
    (faithful : library.Faithful) (closed : backend.Closed)
    (predicate : Option (EdgePair V → Bool))
    : Py.Search.ExpandAlike backend.number backend.Holds (fun edge => edge ∈ backend.edges)
        (backend.expand predicate) ((backend.native library).expand predicate) := by
  intro node holds
  obtain ⟨others, run, ordered, each⟩ :=
    @native_expand _ _ _ _ _ _ predicate built faithful closed holds
  refine ⟨_, others, expand_eq built closed node, run, ?_, ?_⟩
  · rw [List.map_map]
    have first := Py.Search.sortedBy_firsts (show (backend.candidates predicate node).Pairwise _
      from candidates_ordered built closed node)
    refine first.eq_of_mem (Py.Search.sortedBy_firsts ordered) ?_
    intro item
    obtain ⟨index, edge⟩ := item
    rw [mem_firsts_candidates closed, ← each index edge, Py.Search.mem_firsts]
    constructor
    · intro member
      cases found : others.find? (fun item => item.1 = index) with
      | none =>
          have miss := List.find?_eq_none.mp found _ member
          simp at miss
      | some other =>
          obtain ⟨place, picked⟩ := other
          obtain rfl : place = index := by simpa using List.find?_some found
          obtain ⟨next, own, firstHere⟩ := (each _ _).mp member
          obtain ⟨nextToo, ownToo, firstToo⟩ :=
            (each _ _).mp (List.mem_of_find?_eq_some found)
          have same := number_injective (closed.holds firstHere) (closed.holds firstToo)
            (own.trans ownToo.symm)
          subst same
          rw [Option.some.inj (firstHere.symm.trans firstToo)]
    · intro found
      exact List.mem_of_find?_eq_some found
  · intro item member
    obtain ⟨edge, listed, rfl⟩ := List.mem_map.mp member
    have inside := (List.mem_filter.mp (List.mem_filter.mp listed).1).1
    exact ⟨closed.target edge inside, inside⟩

-----------------------------------------------------------------------------------------
-- Shortest paths
-----------------------------------------------------------------------------------------

variable {source target : NodeId V}

omit [VersionValue V] in
/-- A native backend compares the numbers of the ends. -/
theorem native_shortestPath (holdsSource : backend.Holds source) (holdsTarget : backend.Holds target)
    : (backend.native library).shortestPath source target predicate
      = if backend.number source = backend.number target then .ok (some [])
        else Py.Search.shortest ((backend.native library).expand predicate)
          (fun edge => NativeBackend.lookup (NativeBackend.numbering backend.nodes) edge.id.source)
          (fun node => .ok (node = backend.number source))
          (fun node => .ok (node = backend.number target)) (.raised "KeyError")
          (.raised "out of fuel") (backend.edges.length + 1) (backend.number source)
          (backend.number target) := by
  rw [NativeBackend.shortestPath, show (backend.native library).indexById
    = NativeBackend.numbering backend.nodes from rfl, lookup_number holdsSource,
    lookup_number holdsTarget]
  by_cases same : backend.number source = backend.number target
  · simp only [bind, Except.bind, same, if_true]
    rfl
  · simp only [bind, Except.bind, same, if_false]
    rfl

/-- Between nodes of the graph, `==` is equality of numbers. -/
theorem eq_number [VersionValue.HashAgrees V] (built : backend.Built)
    {node other : NodeId V} (holds : backend.Holds node) (holdsOther : backend.Holds other)
    : node.eq other = .ok (decide (backend.number node = backend.number other)) := by
  rw [NodeId.eq, if_pos (built.strategy_eq holds holdsOther)]
  apply congrArg
  rw [Bool.eq_iff_iff, beq_iff_eq, decide_eq_true_iff]
  constructor
  · intro equal
    exact congrArg backend.number (NodeId.eq_of_cmp equal)
  · intro same
    rw [number_injective holds holdsOther same]
    exact Std.ReflCmp.compare_self

/-- A native backend finds the same path between nodes that the indexed one finds. -/
theorem shortestPath_eq_native [VersionValue.HashAgrees V] (built : backend.Built)
    (faithful : library.Faithful) (closed : backend.Closed) (holdsSource : backend.Holds source)
    (holdsTarget : backend.Holds target)
    : (backend.native library).shortestPath source target predicate
      = backend.shortestPath source target predicate := by
  rw [native_shortestPath holdsSource holdsTarget]
  have ends := eq_number built holdsSource holdsTarget
  by_cases same : backend.number source = backend.number target
  · rw [if_pos same, shortestPath, ends, decide_eq_true same]
    rfl
  · rw [if_neg same, shortestPath, ends, decide_eq_false same]
    refine Py.Search.shortest_renamed
      (fun _ _ holds holdsOther => number_injective holds holdsOther) ?_ ?_ ?_
      (expandAlike built faithful closed predicate) holdsSource holdsTarget
    · intro node holds
      exact (eq_number built holds holdsTarget).symm
    · intro node holds
      exact (eq_number built holds holdsSource).symm
    · intro edge inside
      have holds := closed.source edge inside
      exact ⟨edge.id.source, holds, rfl, lookup_number holds⟩

end IndexedBackend

/-- A library that keeps the edges in the order in which they were added. -/
def plainLibrary : NativeLibrary where
  outIndices arcs index := (arcs.filter (fun arc => arc.1 = index)).map Prod.snd
  inIndices arcs index := (arcs.filter (fun arc => arc.2 = index)).map Prod.fst

theorem plainLibrary_faithful : plainLibrary.Faithful where
  out arcs index other := by simp [plainLibrary]
  inward arcs index other := by simp [plainLibrary]

/-- A backend over key-only releases of `User`. -/
def buildKeys (ids : List (NodeId Release)) (edges : List (EdgePair Release))
    : Except (Error Release) (IndexedBackend Release) :=
  IndexedBackend.build (Registry.new "default" false) (ids.map .versionKey) .empty edges ∅

end Pyverge
