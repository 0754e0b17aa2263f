import Mathlib.Data.List.Perm.Subperm
import Pyverge.Py.Dict
import Pyverge.Py.Effects
import Pyverge.Py.Walks

/-! Topological sorting by in-degrees.
Nodes that no edge enters are put out one after another; each takes its edges along, so that the
nodes it leads to may follow.
-/

namespace Py

variable {error ν ε : Type} [DecidableEq ν]

/-- Add one to the entry of the target of each edge. -/
def tally (missing : error) (target : ε → ν) : List ε → Dict ν Int → Except error (Dict ν Int)
  | [], indegree => .ok indegree
  | edge :: rest, indegree =>
      match indegree.get? (target edge) with
      | none => .error missing
      | some count => tally missing target rest (indegree.set (target edge) (count + 1))

/-- The loop over the edges of a node that was put out. -/
def release (missing : error) (target : ε → ν) : List ε → Dict ν Int → List ν
    → Except error (Dict ν Int × List ν)
  | [], indegree, ready => .ok (indegree, ready)
  | edge :: rest, indegree, ready =>
      match indegree.get? (target edge) with
      | none => .error missing
      | some count =>
          release missing target rest (indegree.set (target edge) (count - 1))
            (if count - 1 = 0 then ready ++ [target edge] else ready)

/-- The loop over the nodes that are ready. It takes at most as many turns as there is fuel. -/
def drain (expand : ν → Except error (List ε)) (target : ε → ν) (missing exhausted : error)
    : Nat → Dict ν Int → List ν → List ν → Except error (List ν)
  | _, _, [], ordered => .ok ordered
  | 0, _, _ :: _, _ => .error exhausted
  | fuel + 1, indegree, current :: later, ordered => do
      let edges ← expand current
      let (indegree, ready) ← release missing target edges indegree later
      drain expand target missing exhausted fuel indegree ready (ordered ++ [current])

section Tally

variable {target : ε → ν} {missing : error}

/-- Counting fails exactly if an edge enters no known node. -/
theorem tally_spec {edges : List ε} {indegree : Dict ν Int}
    : (tally missing target edges indegree = .error missing
          ∧ ∃ edge ∈ edges, target edge ∉ indegree.keys)
      ∨ ∃ counted, tally missing target edges indegree = .ok counted
          ∧ (∀ edge ∈ edges, target edge ∈ indegree.keys)
          ∧ counted.keys = indegree.keys
          ∧ ∀ node, counted.get? node = (indegree.get? node).map
              (· + ((edges.filter (fun edge => target edge = node)).length : Int)) := by
  induction edges generalizing indegree with
  | nil =>
      refine .inr ⟨indegree, rfl, by simp, rfl, ?_⟩
      intro node
      simp
  | cons edge rest ih =>
      cases found : indegree.get? (target edge) with
      | none =>
          refine .inl ⟨by rw [tally, found], edge, List.mem_cons_self, ?_⟩
          exact Dict.get?_eq_none.mp found
      | some count =>
          have known : target edge ∈ indegree.keys := Dict.mem_keys.mpr ⟨count, found⟩
          have kept : (indegree.set (target edge) (count + 1)).keys = indegree.keys :=
            Dict.keys_set_of_mem known _
          rw [tally, found]
          rcases @ih (indegree.set (target edge) (count + 1)) with
            ⟨failed, other, later, unknown⟩ | ⟨counted, run, inside, keys, counts⟩
          · rw [kept] at unknown
            exact .inl ⟨failed, other, List.mem_cons_of_mem _ later, unknown⟩
          · rw [kept] at inside keys
            refine .inr ⟨counted, run, ?_, keys, ?_⟩
            · intro other member
              rcases List.mem_cons.mp member with rfl | later
              · exact known
              · exact inside other later
            · intro node
              rw [counts node, Dict.get?_set]
              by_cases own : node = target edge
              · subst own
                simp [found]
                omega
              · simp [own, Ne.symm own]

end Tally

-----------------------------------------------------------------------------------------
-- What the loops keep
-----------------------------------------------------------------------------------------

section Loops

variable [DecidableEq ε] {nodes : List ν} {edges : List ε} {source target : ε → ν}

/-- The edges that still enter a node: those of nodes that are not put out, and the rest of the
edges of the node that is.
-/
def entering (edges : List ε) (source target : ε → ν) (ordered : List ν) (rest : List ε) (node : ν)
    : List ε :=
  edges.filter (fun edge => target edge = node ∧ (source edge ∉ ordered ∨ edge ∈ rest))

/-- The state of the loops. A node is put out or ready exactly if nothing enters it any more, and
the edges into a node that is put out come from nodes before it.
-/
structure Kahn (nodes : List ν) (edges : List ε) (source target : ε → ν) (ordered ready : List ν)
    (rest : List ε) (indegree : Dict ν Int) : Prop where
  count : ∀ node ∈ nodes, indegree.get? node
    = some ((entering edges source target ordered rest node).length : Int)
  nodup : (ordered ++ ready).Nodup
  inside : ∀ node ∈ ordered ++ ready, node ∈ nodes
  zero : ∀ node ∈ nodes, node ∈ ordered ++ ready ↔ indegree.get? node = some 0
  before : ∀ edge ∈ edges, target edge ∈ ordered →
    ordered.idxOf (source edge) < ordered.idxOf (target edge)

variable {ordered ready : List ν} {rest : List ε} {indegree : Dict ν Int}

theorem mem_entering {node : ν} {edge : ε}
    : edge ∈ entering edges source target ordered rest node
      ↔ edge ∈ edges ∧ target edge = node ∧ (source edge ∉ ordered ∨ edge ∈ rest) := by
  simp [entering]

theorem nodup_entering (distinct : edges.Nodup) (node : ν)
    : (entering edges source target ordered rest node).Nodup :=
  distinct.filter _

/-- Taking an edge along leaves one edge less into its target. -/
theorem length_entering_cons {edge : ε} (distinct : edges.Nodup) (listed : edge ∈ edges)
    (out : source edge ∈ ordered) (fresh : edge ∉ rest)
    : (entering edges source target ordered (edge :: rest) (target edge)).length
      = (entering edges source target ordered rest (target edge)).length + 1 := by
  have notThere : edge ∉ entering edges source target ordered rest (target edge) := by
    rw [mem_entering]
    intro given
    exact given.2.2.elim (fun notOut => notOut out) fresh
  have perm : (entering edges source target ordered (edge :: rest) (target edge)).Perm
      (edge :: entering edges source target ordered rest (target edge)) := by
    apply (List.perm_ext_iff_of_nodup (nodup_entering distinct _)
      (List.nodup_cons.mpr ⟨notThere, nodup_entering distinct _⟩)).mpr
    intro other
    rw [List.mem_cons, mem_entering, mem_entering, List.mem_cons]
    constructor
    · intro given
      obtain ⟨inside, same, notOut | own | later⟩ := given
      · exact .inr ⟨inside, same, .inl notOut⟩
      · exact .inl own
      · exact .inr ⟨inside, same, .inr later⟩
    · intro given
      rcases given with rfl | ⟨inside, same, still⟩
      · exact ⟨listed, rfl, .inr (.inl rfl)⟩
      · exact ⟨inside, same, still.imp_right .inr⟩
  rw [perm.length_eq, List.length_cons]

theorem entering_cons_of_ne {edge : ε} {node : ν} (apart : target edge ≠ node)
    : entering edges source target ordered (edge :: rest) node
      = entering edges source target ordered rest node := by
  refine List.filter_congr (fun other _ => ?_)
  rw [decide_eq_decide]
  constructor
  · intro given
    obtain ⟨own, still⟩ := given
    refine ⟨own, still.imp_right ?_⟩
    intro member
    refine (List.mem_cons.mp member).resolve_left ?_
    intro same
    exact apart (same ▸ own)
  · intro given
    exact ⟨given.1, given.2.imp_right (List.mem_cons_of_mem _)⟩

/-- An edge of the node that was put out is taken along. -/
theorem Kahn.step {edge : ε} (distinct : edges.Nodup)
    (kahn : Kahn nodes edges source target ordered ready (edge :: rest) indegree)
    (listed : edge ∈ edges) (out : source edge ∈ ordered) (known : target edge ∈ nodes)
    (fresh : edge ∉ rest)
    : ∃ count, indegree.get? (target edge) = some count
        ∧ Kahn nodes edges source target ordered
          (if count - 1 = 0 then ready ++ [target edge] else ready) rest
          (indegree.set (target edge) (count - 1)) := by
  have enters := kahn.count _ known
  rw [length_entering_cons distinct listed out fresh] at enters
  have notListed : target edge ∉ ordered ++ ready := by
    intro member
    have zero := (kahn.zero _ known).mp member
    rw [enters] at zero
    have := Option.some.inj zero
    omega
  refine ⟨_, enters, ?_⟩
  have less : (((entering edges source target ordered rest (target edge)).length + 1 : Nat) : Int) - 1
      = (entering edges source target ordered rest (target edge)).length := by omega
  rw [less]
  have listing : ∀ node, node ∈ ordered ++ (if
      ((entering edges source target ordered rest (target edge)).length : Int) = 0
      then ready ++ [target edge] else ready)
      ↔ node ∈ ordered ++ ready ∨ (node = target edge
        ∧ ((entering edges source target ordered rest (target edge)).length : Int) = 0) := by
    intro node
    split
    case isTrue none_ => simp [none_, or_assoc]
    case isFalse some_ =>
      constructor
      · exact .inl
      · intro either
        exact either.resolve_right (fun own => some_ own.2)
  refine {
    count := ?_
    nodup := ?_
    inside := ?_
    zero := ?_
    before := kahn.before
  }
  · intro node member
    rw [Dict.get?_set]
    by_cases own : node = target edge
    · rw [if_pos own, own]
    · rw [if_neg own, kahn.count node member, entering_cons_of_ne (Ne.symm own)]
  · split
    · rw [← List.append_assoc]
      refine List.nodup_append.mpr ⟨kahn.nodup, List.nodup_singleton _, ?_⟩
      intro node inside other new same
      obtain rfl := List.mem_singleton.mp new
      exact notListed (same ▸ inside)
    · exact kahn.nodup
  · intro node member
    rcases (listing node).mp member with old | ⟨rfl, _⟩
    · exact kahn.inside node old
    · exact known
  · intro node member
    rw [listing node, Dict.get?_set]
    by_cases own : node = target edge
    · subst own
      simp [notListed]
    · simp only [own, false_and, or_false, if_false]
      exact kahn.zero node member

/-- The loop over the edges of a node takes them along one by one, by list induction. -/
theorem Kahn.release {missing : error} (distinct : edges.Nodup) {edges' : List ε}
    (kahn : Kahn nodes edges source target ordered ready edges' indegree) (simple : edges'.Nodup)
    (each : ∀ edge ∈ edges', edge ∈ edges ∧ source edge ∈ ordered ∧ target edge ∈ nodes)
    : ∃ indegree' ready', Py.release missing target edges' indegree ready = .ok (indegree', ready')
        ∧ Kahn nodes edges source target ordered ready' [] indegree' := by
  induction edges' generalizing indegree ready with
  | nil => exact ⟨indegree, ready, rfl, kahn⟩
  | cons edge later ih =>
      obtain ⟨fresh, simpleLater⟩ := List.nodup_cons.mp simple
      obtain ⟨listed, out, known⟩ := each edge List.mem_cons_self
      obtain ⟨count, found, next⟩ := kahn.step distinct listed out known fresh
      obtain ⟨indegree', ready', run, done⟩ := ih next simpleLater
        (fun other member => each other (List.mem_cons_of_mem _ member))
      exact ⟨indegree', ready', by rw [Py.release, found]; exact run, done⟩

/-- Edges into a node that is put out or ready come from nodes that are put out. -/
theorem Kahn.source_out (kahn : Kahn nodes edges source target ordered ready [] indegree)
    {node : ν} (listed : node ∈ ordered ++ ready) {edge : ε} (member : edge ∈ edges)
    (enters : target edge = node)
    : source edge ∈ ordered := by
  have known := kahn.inside node listed
  have zero := (kahn.count node known).symm.trans ((kahn.zero node known).mp listed)
  have empty : entering edges source target ordered [] node = [] := by
    rw [← List.length_eq_zero_iff]
    exact Int.ofNat.inj (Option.some.inj zero)
  by_contra notOut
  have inside : edge ∈ entering edges source target ordered [] node :=
    mem_entering.mpr ⟨member, enters, .inl notOut⟩
  rw [empty] at inside
  cases inside

/-- A node that stays behind is entered from a node that is not put out. -/
theorem Kahn.exists_source (kahn : Kahn nodes edges source target ordered ready [] indegree)
    {node : ν} (known : node ∈ nodes) (behind : node ∉ ordered ++ ready)
    : ∃ edge ∈ edges, target edge = node ∧ source edge ∉ ordered := by
  have some_ : entering edges source target ordered [] node ≠ [] := by
    intro empty
    refine behind ((kahn.zero node known).mpr ?_)
    rw [kahn.count node known, empty]
    rfl
  obtain ⟨edge, member⟩ := List.exists_mem_of_ne_nil _ some_
  obtain ⟨inside, enters, notOut | rest⟩ := mem_entering.mp member
  · exact ⟨edge, inside, enters, notOut⟩
  · cases rest

/-- A ready node is put out: its edges are then those to be taken along. -/
theorem Kahn.pop {current : ν} {later : List ν} {out : List ε}
    (kahn : Kahn nodes edges source target ordered (current :: later) [] indegree)
    (own : ∀ edge, edge ∈ out ↔ edge ∈ edges ∧ source edge = current)
    : Kahn nodes edges source target (ordered ++ [current]) later out indegree := by
  have fresh : current ∉ ordered := by
    intro member
    exact (List.nodup_append.mp kahn.nodup).2.2 current member current List.mem_cons_self rfl
  have same : ordered ++ [current] ++ later = ordered ++ current :: later :=
    (List.append_cons ordered current later).symm
  refine {
    count := ?_
    nodup := same ▸ kahn.nodup
    inside := same ▸ kahn.inside
    zero := same ▸ kahn.zero
    before := ?_
  }
  · intro node member
    have still : entering edges source target (ordered ++ [current]) out node
        = entering edges source target ordered [] node := by
      refine List.filter_congr (fun edge listed => ?_)
      rw [decide_eq_decide]
      simp only [List.mem_append, List.mem_singleton, own, listed, true_and, List.not_mem_nil,
        or_false]
      by_cases isOut : source edge = current
      · simp [isOut, fresh]
      · simp [isOut]
    rw [still]
    exact kahn.count node member
  · intro edge member isOut
    rcases List.mem_append.mp isOut with old | new
    · have earlier := kahn.before edge member old
      have sourceOut : source edge ∈ ordered :=
        List.idxOf_lt_length_iff.mp (Nat.lt_trans earlier (List.idxOf_lt_length_iff.mpr old))
      rwa [List.idxOf_append_of_mem sourceOut, List.idxOf_append_of_mem old]
    · have enters := List.mem_singleton.mp new
      have sourceOut :=
        kahn.source_out (List.mem_append_right _ List.mem_cons_self) member enters
      rw [enters, List.idxOf_append_of_mem sourceOut, List.idxOf_append_of_notMem fresh]
      exact Nat.lt_of_lt_of_le (List.idxOf_lt_length_iff.mpr sourceOut) (Nat.le_add_right _ _)

/-- The loop over the ready nodes ends before the fuel does, by induction on the fuel. -/
theorem Kahn.drain {expand : ν → Except error (List ε)} {missing exhausted : error}
    (distinct : edges.Nodup)
    (expands : ∀ node, ∃ out, expand node = .ok out ∧ out.Nodup
      ∧ ∀ edge, edge ∈ out ↔ edge ∈ edges ∧ source edge = node)
    (known : ∀ edge ∈ edges, target edge ∈ nodes) {fuel : Nat}
    (kahn : Kahn nodes edges source target ordered ready [] indegree)
    (enough : nodes.length ≤ ordered.length + fuel)
    : ∃ result indegree', Py.drain expand target missing exhausted fuel indegree ready ordered
          = .ok result
        ∧ Kahn nodes edges source target result [] [] indegree' := by
  induction fuel generalizing indegree ready ordered with
  | zero =>
      cases ready with
      | nil => exact ⟨ordered, indegree, by rw [Py.drain], kahn⟩
      | cons current later =>
          have few := kahn.nodup.length_le_of_subset kahn.inside
          simp only [List.length_append, List.length_cons] at few
          omega
  | succ fuel ih =>
      cases ready with
      | nil => exact ⟨ordered, indegree, by rw [Py.drain], kahn⟩
      | cons current later =>
          obtain ⟨out, expanded, simple, own⟩ := expands current
          have each : ∀ edge ∈ out,
              edge ∈ edges ∧ source edge ∈ ordered ++ [current] ∧ target edge ∈ nodes := by
            intro edge member
            obtain ⟨inside, from_⟩ := (own edge).mp member
            exact ⟨inside, by simp [from_], known edge inside⟩
          obtain ⟨indegree', ready', released, next⟩ :
              ∃ indegree' ready', Py.release missing target out indegree later
                  = .ok (indegree', ready')
                ∧ Kahn nodes edges source target (ordered ++ [current]) ready' [] indegree' :=
            (kahn.pop own).release distinct simple each
          obtain ⟨result, last, run, done⟩ := ih next (by simp; omega)
          refine ⟨result, last, ?_, done⟩
          rw [Py.drain]
          simp only [expanded, released, bind, Except.bind]
          exact run

-----------------------------------------------------------------------------------------
-- Where the loops begin and what they end with
-----------------------------------------------------------------------------------------

/-- Before the loops, each node counts the edges that enter it. -/
theorem Kahn.start (counts : ∀ node ∈ nodes, indegree.get? node
      = some ((edges.filter (fun edge => target edge = node)).length : Int))
    (distinct : ready.Nodup)
    (zeros : ∀ node, node ∈ ready ↔ node ∈ nodes ∧ indegree.get? node = some 0)
    : Kahn nodes edges source target [] ready [] indegree := by
  refine {
    count := ?_
    nodup := distinct
    inside := fun node member => ((zeros node).mp member).1
    zero := fun node member => (zeros node).trans (and_iff_right member)
    before := ?_
  }
  · intro node member
    have all : entering edges source target [] [] node
        = edges.filter (fun edge => target edge = node) := by
      simp [entering]
    rw [all]
    exact counts node member
  · intro edge _ out
    cases out

/-- The edge joins two of the nodes. -/
def Joins (nodes : List ν) (edges : List ε) (source target : ε → ν) (edge : ε) : Prop :=
  edge ∈ edges ∧ source edge ∈ nodes ∧ target edge ∈ nodes

/-- Some edges between the nodes make a cycle. -/
def Cyclic (nodes : List ν) (edges : List ε) (source target : ε → ν) : Prop :=
  ∃ node cycle, cycle ≠ [] ∧ Walk source target (Joins nodes edges source target) node cycle node

/-- As many nodes as there are is all of them. -/
theorem Kahn.perm (kahn : Kahn nodes edges source target ordered [] [] indegree)
    (complete : ordered.length = nodes.length)
    : ordered.Perm nodes := by
  have nodup : ordered.Nodup := (List.nodup_append.mp kahn.nodup).1
  have inside : ordered ⊆ nodes := fun node member =>
    kahn.inside node (List.mem_append_left _ member)
  exact (nodup.subperm inside).perm_of_length_le (Nat.le_of_eq complete.symm)

/-- If all nodes are put out, the edges between them make no cycle. -/
theorem Kahn.acyclic (kahn : Kahn nodes edges source target ordered [] [] indegree)
    (all : ordered.Perm nodes)
    : ¬ Cyclic nodes edges source target := by
  intro cyclic
  obtain ⟨node, cycle, nonempty, walk⟩ := cyclic
  have climbs : ∀ edge, Joins nodes edges source target edge →
      ordered.idxOf (source edge) < ordered.idxOf (target edge) := by
    intro edge joins
    exact kahn.before edge joins.1 (all.mem_iff.mpr joins.2.2)
  exact @Walk.not_cycle_of_climbs _ _ _ _ _ (fun node => ordered.idxOf node) climbs _ _ nonempty walk

/-- If all nodes are put out, every edge into a node comes from one. -/
theorem Kahn.source_mem (kahn : Kahn nodes edges source target ordered [] [] indegree)
    (all : ordered.Perm nodes) {edge : ε} (member : edge ∈ edges) (known : target edge ∈ nodes)
    : source edge ∈ nodes := by
  have climbs := kahn.before edge member (all.mem_iff.mpr known)
  refine all.mem_iff.mp (List.idxOf_lt_length_iff.mp ?_)
  exact Nat.lt_of_lt_of_le climbs List.idxOf_le_length

/-- If some node stays behind and all edges come from nodes, edges between nodes make a cycle. -/
theorem Kahn.cyclic (kahn : Kahn nodes edges source target ordered [] [] indegree)
    (distinct : nodes.Nodup) (partial_ : ordered.length ≠ nodes.length)
    (sources : ∀ edge ∈ edges, source edge ∈ nodes)
    : Cyclic nodes edges source target := by
  have some_ : nodes.filter (fun node => node ∉ ordered) ≠ [] := by
    intro none_
    refine partial_ (Nat.le_antisymm ?_ ?_)
    · refine (List.nodup_append.mp kahn.nodup).1.length_le_of_subset ?_
      exact fun node member => kahn.inside node (List.mem_append_left _ member)
    · refine distinct.length_le_of_subset ?_
      intro node member
      by_contra behind
      exact List.filter_eq_nil_iff.mp none_ node member (decide_eq_true behind)
  refine exists_cycle some_ ?_
  intro node member
  obtain ⟨known, behind⟩ := List.mem_filter.mp member
  rw [decide_eq_true_eq] at behind
  obtain ⟨edge, inside, rfl, sourceBehind⟩ := kahn.exists_source known (by simpa using behind)
  refine ⟨edge, ⟨inside, sources edge inside, known⟩, rfl, ?_⟩
  exact List.mem_filter.mpr ⟨sources edge inside, decide_eq_true sourceBehind⟩

end Loops

end Py
