import Mathlib.Data.List.Induction
import Pyverge.Py.Dict
import Pyverge.Py.Effects
import Pyverge.Py.Walks

/-! Breadth-first search that stops at the first node that passes a test.
The search notes the edge by which it first met a node; the way back follows these edges. Tests
may raise, and the test for the goal need not be that of identity.
-/

namespace Py

variable {error ν ε : Type} [DecidableEq ν]

/-- The queue, the nodes met so far and the edge by which each of them was met. -/
structure Search (ν ε : Type) where
  queue : List ν
  seen : List ν
  predecessor : Dict ν ε

namespace Search

omit [DecidableEq ν] in
def start (node : ν) : Search ν ε := ⟨[node], [node], ∅⟩

def discover (search : Search ν ε) (next : ν) (edge : ε) : Search ν ε :=
  { search with
    seen := search.seen ++ [next]
    predecessor := search.predecessor.set next edge }

omit [DecidableEq ν] in
def enqueue (search : Search ν ε) (next : ν) : Search ν ε :=
  { search with queue := search.queue ++ [next] }

/-- The loop over the candidates of one node; true as soon as one passes the test. -/
def scan (isGoal : ν → Except error Bool) : List (ν × ε) → Search ν ε
    → Except error (Bool × Search ν ε)
  | [], search => .ok (false, search)
  | (next, edge) :: rest, search =>
      if next ∈ search.seen then scan isGoal rest search
      else do
        let search := search.discover next edge
        if ← isGoal next then return (true, search)
        scan isGoal rest (search.enqueue next)

/-- The loop over the queue. It takes at most as many turns as there is fuel. -/
def run (expand : ν → Except error (List (ν × ε))) (isGoal : ν → Except error Bool)
    (exhausted : error) (fuel : Nat) (search : Search ν ε)
    : Except error (Option (Search ν ε)) :=
  match search.queue with
  | [] => .ok none
  | current :: later =>
      match fuel with
      | 0 => .error exhausted
      | fuel + 1 => do
          let candidates ← expand current
          let (found, search) ← scan isGoal candidates { search with queue := later }
          if found then return some search
          run expand isGoal exhausted fuel search

/-- Follow the noted edges back to the start. -/
def reconstruct (sourceOf : ε → Except error ν) (isStart : ν → Except error Bool)
    (missing exhausted : error) (predecessor : Dict ν ε)
    : Nat → ν → List ε → Except error (List ε)
  | fuel, current, path => do
      if ← isStart current then return path
      match fuel with
      | 0 => .error exhausted
      | fuel + 1 =>
          match predecessor.get? current with
          | none => .error missing
          | some edge =>
              let previous ← sourceOf edge
              reconstruct sourceOf isStart missing exhausted predecessor fuel previous
                (edge :: path)

-----------------------------------------------------------------------------------------
-- The search tree
-----------------------------------------------------------------------------------------

section Tree

variable {source target : ε → ν} {accepts : ε → Prop} {first : ν}

/-- The noted edges form a tree that grows from the first node. -/
structure Tree (source target : ε → ν) (accepts : ε → Prop) (first : ν) (depth : ν → Nat)
    (search : Search ν ε) : Prop where
  root : first ∈ search.seen
  origin : depth first = 0
  nodup : search.seen.Nodup
  keyed : ∀ node edge, search.predecessor.get? node = some edge → target edge = node
  grown : ∀ node ∈ search.seen, node ≠ first → ∃ edge,
    search.predecessor.get? node = some edge ∧ accepts edge ∧ source edge ∈ search.seen
      ∧ depth node = depth (source edge) + 1

/-- The walk of the tree to a node it holds, by induction on the depth. -/
theorem Tree.exists_walk {depth : ν → Nat} {search : Search ν ε}
    (tree : Tree source target accepts first depth search) {node : ν} (met : node ∈ search.seen)
    : ∃ path, Walk source target accepts first path node ∧ path.length = depth node
        ∧ ∀ edge ∈ path, search.predecessor.get? (target edge) = some edge
          ∧ target edge ∈ search.seen ∧ target edge ≠ first
          ∧ depth (source edge) < depth (target edge) := by
  induction level : depth node generalizing node with
  | zero =>
      by_cases same : node = first
      · subst same
        exact ⟨[], .stay node, rfl, by simp⟩
      · obtain ⟨edge, _, _, _, deeper⟩ := tree.grown node met same
        omega
  | succ level ih =>
      have apart : node ≠ first := by
        intro same
        rw [same, tree.origin] at level
        cases level
      obtain ⟨edge, noted, accepted, before, deeper⟩ := tree.grown node met apart
      obtain rfl := tree.keyed node edge noted
      obtain ⟨path, walk, length, each⟩ := ih before (by omega)
      refine ⟨path ++ [edge], Walk.concat_iff.mpr ⟨walk, accepted, rfl⟩, by simp [length], ?_⟩
      intro other member
      rcases List.mem_append.mp member with earlier | last
      · exact each other earlier
      · obtain rfl := List.mem_singleton.mp last
        exact ⟨noted, met, apart, by omega⟩

/-- A new node leaves the depths of the others as they are. -/
theorem update_of_seen {depth : ν → Nat} {seen : List ν} {new : ν} {level : Nat}
    (fresh : new ∉ seen) {node : ν} (member : node ∈ seen)
    : Function.update depth new level node = depth node := by
  refine Function.update_of_ne ?_ _ _
  intro same
  exact fresh (same ▸ member)

/-- Meeting a new node by an accepted edge from a known one lets the tree grow. -/
theorem Tree.discover {depth : ν → Nat} {search : Search ν ε}
    (tree : Tree source target accepts first depth search) {edge : ε} (accepted : accepts edge)
    (known : source edge ∈ search.seen) (fresh : target edge ∉ search.seen)
    : Tree source target accepts first
        (Function.update depth (target edge) (depth (source edge) + 1))
        (search.discover (target edge) edge) := by
  have kept := fun node => @update_of_seen _ _ depth _ _ (depth (source edge) + 1) fresh node
  refine {
    root := List.mem_append_left _ tree.root
    origin := by rw [kept first tree.root, tree.origin]
    nodup := ?_
    keyed := ?_
    grown := ?_
  }
  · refine List.nodup_append.mpr ⟨tree.nodup, List.nodup_singleton _, ?_⟩
    intro node inside other new same
    obtain rfl := List.mem_singleton.mp new
    exact fresh (same ▸ inside)
  · intro node other noted
    simp only [Search.discover, Dict.get?_set] at noted
    split at noted
    case isTrue same =>
      obtain rfl := Option.some.inj noted
      exact same.symm
    case isFalse => exact tree.keyed node other noted
  · intro node member apart
    by_cases same : node = target edge
    · subst same
      refine ⟨edge, by simp [Search.discover], accepted, List.mem_append_left _ known, ?_⟩
      rw [Function.update_self, kept _ known]
    · have old : node ∈ search.seen := by simpa [Search.discover, same] using member
      obtain ⟨other, noted, otherAccepted, before, deeper⟩ := tree.grown node old apart
      refine ⟨other, ?_, otherAccepted, List.mem_append_left _ before, ?_⟩
      · rw [← noted]
        exact Dict.get?_set_ne _ _ same
      · rw [kept _ old, kept _ before, deeper]

-----------------------------------------------------------------------------------------
-- One turn of the loop
-----------------------------------------------------------------------------------------

/-- The tree during the search. The edges of the pending nodes may still have to be followed;
these nodes come in the order of their depths and no node lies deeper than one below them.
-/
structure Explored (source target : ε → ν) (accepts : ε → Prop) (first : ν) (depth : ν → Nat)
    (pending : List ν) (search : Search ν ε) : Prop
    extends Tree source target accepts first depth search where
  pendingSeen : ∀ node ∈ pending, node ∈ search.seen
  sorted : pending.Pairwise (fun one other => depth one ≤ depth other)
  close : ∀ node ∈ search.seen, ∀ other ∈ pending, depth node ≤ depth other + 1
  expanded : ∀ edge, accepts edge → source edge ∈ search.seen → source edge ∉ pending →
    target edge ∈ search.seen ∧ depth (target edge) ≤ depth (source edge) + 1

variable {depth : ν → Nat} {search : Search ν ε} {pending : List ν}

/-- Before anything is followed, the first node is pending. -/
theorem Explored.start (first : ν)
    : Explored source target accepts first (fun _ => 0) [first] (Search.start first) where
  root := List.mem_singleton_self first
  origin := rfl
  nodup := List.nodup_singleton first
  keyed := by simp [Search.start]
  grown node member apart := absurd (List.mem_singleton.mp member) apart
  pendingSeen node member := member
  sorted := List.pairwise_singleton _ _
  close := by simp
  expanded edge _ known fresh := absurd known fresh

/-- A walk ends at a node of the tree, no deeper than the walk is long, or it has passed a
pending node; by induction on the walk from its end.
-/
theorem Explored.reaches
    (explored : Explored source target accepts first depth pending search) {path : List ε}
    {last : ν} (walk : Walk source target accepts first path last)
    : (last ∈ search.seen ∧ depth last ≤ path.length)
      ∨ ∃ node ∈ pending, depth node < path.length := by
  induction path using List.reverseRecOn generalizing last with
  | nil =>
      obtain rfl := Walk.nil_iff.mp walk
      exact .inl ⟨explored.root, Nat.le_of_eq explored.origin⟩
  | append_singleton path edge ih =>
      obtain ⟨before, accepted, rfl⟩ := Walk.concat_iff.mp walk
      rw [List.length_append, List.length_singleton]
      rcases ih before with ⟨known, shallow⟩ | ⟨node, waits, shallow⟩
      · by_cases waits : source edge ∈ pending
        · exact .inr ⟨source edge, waits, by omega⟩
        · obtain ⟨met, deeper⟩ := explored.expanded edge accepted known waits
          exact .inl ⟨met, by omega⟩
      · exact .inr ⟨node, waits, by omega⟩

/-- A new node below the first pending one waits behind all others. -/
theorem Explored.discover {edge : ε} {queue : List ν}
    (explored : Explored source target accepts first depth (source edge :: queue) search)
    (accepted : accepts edge) (fresh : target edge ∉ search.seen)
    : Explored source target accepts first
        (Function.update depth (target edge) (depth (source edge) + 1))
        (source edge :: (queue ++ [target edge]))
        ((search.discover (target edge) edge).enqueue (target edge)) := by
  have known := explored.pendingSeen (source edge) List.mem_cons_self
  have grown := explored.toTree.discover accepted known fresh
  have kept := fun node => @update_of_seen _ _ depth _ _ (depth (source edge) + 1) fresh node
  have waits : ∀ node ∈ source edge :: (queue ++ [target edge]),
      node ∈ source edge :: queue ∨ node = target edge := by
    intro node member
    simpa [or_assoc] using member
  have met : ∀ node ∈ search.seen ++ [target edge], node ∈ search.seen ∨ node = target edge := by
    intro node member
    simpa using member
  have least : ∀ node ∈ source edge :: queue, depth (source edge) ≤ depth node := by
    intro node member
    rcases List.mem_cons.mp member with rfl | later
    · exact Nat.le_refl _
    · exact (List.pairwise_cons.mp explored.sorted).1 node later
  refine {
    root := grown.root
    origin := grown.origin
    nodup := grown.nodup
    keyed := grown.keyed
    grown := grown.grown
    pendingSeen := ?_
    sorted := ?_
    close := ?_
    expanded := ?_
  }
  · intro node member
    rcases waits node member with old | rfl
    · exact List.mem_append_left _ (explored.pendingSeen node old)
    · exact List.mem_append_right _ (List.mem_singleton_self _)
  · rw [← List.cons_append]
    refine List.pairwise_append.mpr ⟨?_, List.pairwise_singleton _ _, ?_⟩
    · refine explored.sorted.imp_of_mem ?_
      intro one other inOne inOther shallow
      rwa [kept one (explored.pendingSeen one inOne), kept other (explored.pendingSeen other inOther)]
    · intro one inOne other new
      obtain rfl := List.mem_singleton.mp new
      have near := explored.close one (explored.pendingSeen one inOne) (source edge) List.mem_cons_self
      rw [Function.update_self, kept one (explored.pendingSeen one inOne)]
      exact near
  · intro node member other waiting
    have shallow : Function.update depth (target edge) (depth (source edge) + 1) node
        ≤ depth (source edge) + 1 := by
      rcases met node member with old | rfl
      · rw [kept node old]
        exact explored.close node old (source edge) List.mem_cons_self
      · exact Nat.le_of_eq (Function.update_self ..)
    rcases waits other waiting with old | rfl
    · have below := least other old
      rw [kept other (explored.pendingSeen other old)]
      omega
    · rw [Function.update_self]
      omega
  · intro other otherAccepted member waiting
    have notNew : source other ≠ target edge := by
      intro same
      exact waiting (same ▸ by simp)
    have old : source other ∈ search.seen := (met _ member).resolve_right notNew
    have done : source other ∉ source edge :: queue := by
      intro pending
      refine waiting ?_
      rw [← List.cons_append]
      exact List.mem_append_left _ pending
    obtain ⟨reached, deeper⟩ := explored.expanded other otherAccepted old done
    rw [kept _ reached, kept _ old]
    exact ⟨List.mem_append_left _ reached, deeper⟩

/-- The search has stopped at a node: no walk to it is shorter than that of the tree, and no
other node of the tree passes the test.
-/
structure Stops (source target : ε → ν) (accepts : ε → Prop) (first : ν)
    (isGoal : ν → Except error Bool) (node : ν) (search : Search ν ε) : Prop where
  grown : ∃ depth, Tree source target accepts first depth search
    ∧ ∀ path, Walk source target accepts first path node → depth node ≤ path.length
  met : node ∈ search.seen
  apart : node ≠ first
  others : ∀ other ∈ search.seen, other ≠ first → other ≠ node → isGoal other = .ok false

/-- No node of the tree but the first passes the test. -/
def Judged (isGoal : ν → Except error Bool) (first : ν) (search : Search ν ε) : Prop :=
  ∀ node ∈ search.seen, node ≠ first → isGoal node = .ok false

variable {isGoal : ν → Except error Bool}

/-- The search stops at the node it has just met: a shorter walk to it would have passed a
pending node that lies higher than the first of them.
-/
theorem Explored.stops {edge : ε} {queue : List ν}
    (explored : Explored source target accepts first depth (source edge :: queue) search)
    (judged : Judged isGoal first search) (accepted : accepts edge)
    (fresh : target edge ∉ search.seen)
    : Stops source target accepts first isGoal (target edge)
        (search.discover (target edge) edge) := by
  have known := explored.pendingSeen (source edge) List.mem_cons_self
  refine {
    grown := ⟨_, explored.toTree.discover accepted known fresh, ?_⟩
    met := List.mem_append_right _ (List.mem_singleton_self _)
    apart := fun same => fresh (same ▸ explored.root)
    others := ?_
  }
  · intro path walk
    rw [Function.update_self]
    rcases explored.reaches walk with ⟨met, _⟩ | ⟨node, waits, shallow⟩
    · exact absurd met fresh
    · rcases List.mem_cons.mp waits with rfl | later
      · exact shallow
      · have above := (List.pairwise_cons.mp explored.sorted).1 node later
        omega
  · intro other member apart distinct
    have old : other ∈ search.seen := by simpa [Search.discover, distinct] using member
    exact judged other old apart

/-- How the loop over the candidates of a node ends. -/
inductive Scanned (source target : ε → ν) (accepts : ε → Prop) (first : ν)
    (isGoal : ν → Except error Bool) (current : ν) (candidates : List (ν × ε))
    (search : Search ν ε) : Except error (Bool × Search ν ε) → Prop where
  | passed {depth : ν → Nat} {reached : Search ν ε}
      : Explored source target accepts first depth (current :: reached.queue) reached →
        Judged isGoal first reached → (∀ node ∈ search.seen, node ∈ reached.seen) →
        (∀ item ∈ candidates, item.1 ∈ reached.seen) →
        reached.queue.length + search.seen.length = search.queue.length + reached.seen.length →
        Scanned source target accepts first isGoal current candidates search (.ok (false, reached))
  | found {node : ν} {reached : Search ν ε}
      : Stops source target accepts first isGoal node reached → isGoal node = .ok true →
        Scanned source target accepts first isGoal current candidates search (.ok (true, reached))
  | raised {node : ν} {reached : Search ν ε} {raise : error}
      : Stops source target accepts first isGoal node reached → isGoal node = .error raise →
        Scanned source target accepts first isGoal current candidates search (.error raise)

/-- The loop over the candidates of a node, by list induction. -/
theorem Explored.scan {current : ν} {candidates : List (ν × ε)}
    (explored : Explored source target accepts first depth (current :: search.queue) search)
    (judged : Judged isGoal first search)
    (leads : ∀ item ∈ candidates,
      accepts item.2 ∧ source item.2 = current ∧ target item.2 = item.1)
    : Scanned source target accepts first isGoal current candidates search
        (scan isGoal candidates search) := by
  induction candidates generalizing depth search with
  | nil => exact .passed explored judged (fun _ member => member) (by simp) rfl
  | cons item rest ih =>
      obtain ⟨accepted, below, above⟩ := leads item List.mem_cons_self
      have later := fun other inside => leads other (List.mem_cons_of_mem _ inside)
      obtain ⟨next, edge⟩ := item
      obtain rfl : target edge = next := above
      obtain rfl : source edge = current := below
      rw [Search.scan]
      by_cases known : target edge ∈ search.seen
      · rw [if_pos known]
        have rescan := ih explored judged later
        generalize Search.scan isGoal rest search = result at rescan ⊢
        cases rescan with
        | passed more still kept all balance =>
            refine .passed more still kept ?_ balance
            intro other member
            rcases List.mem_cons.mp member with rfl | inside
            · exact kept _ known
            · exact all other inside
        | found stops passes => exact .found stops passes
        | raised stops raises => exact .raised stops raises
      · rw [if_neg known]
        have stops := explored.stops judged accepted known
        cases test : isGoal (target edge) with
        | error raise => exact .raised stops test
        | ok passes =>
            cases passes with
            | true => exact .found stops test
            | false =>
                have next := explored.discover accepted known
                have judgedNext : Judged isGoal first
                    ((search.discover (target edge) edge).enqueue (target edge)) := by
                  intro node member apart
                  by_cases same : node = target edge
                  · rw [same, test]
                  · exact stops.others node member apart same
                have rescan := ih next judgedNext later
                simp only [bind, Except.bind, Bool.false_eq_true, if_false]
                generalize Search.scan isGoal rest
                  ((search.discover (target edge) edge).enqueue (target edge)) = result at rescan ⊢
                cases rescan with
                | passed more still kept all balance =>
                    refine .passed more still (fun node old => ?_) ?_ ?_
                    · exact kept node (List.mem_append_left _ old)
                    · intro other member
                      rcases List.mem_cons.mp member with rfl | inside
                      · exact kept _ (List.mem_append_right _ (List.mem_singleton_self _))
                      · exact all other inside
                    · simp only [Search.discover, Search.enqueue, List.length_append, List.length_singleton]
                        at balance
                      omega
                | found stops passes => exact .found stops passes
                | raised stops raises => exact .raised stops raises

/-- How the search ends. -/
inductive Ends (source target : ε → ν) (accepts : ε → Prop) (first : ν)
    (isGoal : ν → Except error Bool) : Except error (Option (Search ν ε)) → Prop where
  | nowhere
      : (∀ path node, Walk source target accepts first path node → node ≠ first →
          isGoal node = .ok false) →
        Ends source target accepts first isGoal (.ok none)
  | found {node : ν} {reached : Search ν ε}
      : Stops source target accepts first isGoal node reached → isGoal node = .ok true →
        Ends source target accepts first isGoal (.ok (some reached))
  | raised {node : ν} {reached : Search ν ε} {raise : error}
      : Stops source target accepts first isGoal node reached → isGoal node = .error raise →
        Ends source target accepts first isGoal (.error raise)

/-- The candidates of a node are its accepted edges. -/
def Expands (source target : ε → ν) (accepts : ε → Prop)
    (expand : ν → Except error (List (ν × ε))) : Prop :=
  ∀ node, ∃ candidates, expand node = .ok candidates
    ∧ ∀ next edge, (next, edge) ∈ candidates
      ↔ accepts edge ∧ source edge = node ∧ target edge = next

/-- When nothing is pending, every walk has ended at a node of the tree. -/
theorem Explored.nowhere (explored : Explored source target accepts first depth [] search)
    (judged : Judged isGoal first search)
    : Ends source target accepts first isGoal (.ok none) := by
  refine .nowhere ?_
  intro path node walk apart
  rcases explored.reaches walk with ⟨met, _⟩ | ⟨_, waits, _⟩
  · exact judged node met apart
  · cases waits

/-- A node all of whose edges have been followed is no longer pending. -/
theorem Explored.settle {current : ν} {queue : List ν}
    (explored : Explored source target accepts first depth (current :: queue) search)
    (followed : ∀ edge, accepts edge → source edge = current → target edge ∈ search.seen)
    : Explored source target accepts first depth queue search where
  toTree := explored.toTree
  pendingSeen node member := explored.pendingSeen node (List.mem_cons_of_mem _ member)
  sorted := (List.pairwise_cons.mp explored.sorted).2
  close node met other member := explored.close node met other (List.mem_cons_of_mem _ member)
  expanded edge accepted known waits := by
    by_cases own : source edge = current
    · have met := followed edge accepted own
      exact ⟨met, explored.close _ met _ (own ▸ List.mem_cons_self)⟩
    · refine explored.expanded edge accepted known ?_
      intro member
      rcases List.mem_cons.mp member with same | later
      · exact own same
      · exact waits later

/-- The loop over the queue ends before the fuel does: every turn takes a node that was met once,
and there are no more nodes to be met than targets of edges.
-/
theorem Explored.run {expand : ν → Except error (List (ν × ε))}
    (expands : Expands source target accepts expand) {targets : List ν}
    (listed : ∀ edge, accepts edge → target edge ∈ targets) {exhausted : error} {fuel : Nat}
    (explored : Explored source target accepts first depth search.queue search)
    (judged : Judged isGoal first search)
    (enough : search.queue.length + (targets.length + 1) = fuel + search.seen.length)
    : Ends source target accepts first isGoal (run expand isGoal exhausted fuel search) := by
  induction fuel generalizing depth search with
  | zero =>
      have few : search.seen.length ≤ (first :: targets).length := by
        refine explored.nodup.length_le_of_subset ?_
        intro node member
        by_cases same : node = first
        · exact same ▸ List.mem_cons_self
        · obtain ⟨edge, noted, accepted, _⟩ := explored.grown node member same
          rw [← explored.keyed node edge noted]
          exact List.mem_cons_of_mem _ (listed edge accepted)
      have empty : search.queue = [] := by
        rw [← List.length_eq_zero_iff]
        simp only [List.length_cons] at few
        omega
      unfold Search.run
      rw [empty] at explored ⊢
      exact explored.nowhere judged
  | succ fuel ih =>
      unfold Search.run
      cases queue : search.queue with
      | nil =>
          rw [queue] at explored
          exact explored.nowhere judged
      | cons current later =>
          obtain ⟨candidates, expanded, each⟩ := expands current
          rw [queue] at explored enough
          have popped : Explored source target accepts first depth (current :: later)
              { search with queue := later } := { explored with }
          have scanned : Scanned source target accepts first isGoal current candidates
              { search with queue := later }
              (Search.scan isGoal candidates { search with queue := later }) :=
            popped.scan judged (fun item member => (each item.1 item.2).mp member)
          simp only [expanded, bind, Except.bind]
          generalize Search.scan isGoal candidates { search with queue := later } = result
            at scanned ⊢
          cases scanned with
          | passed more still kept all balance =>
              refine ih (more.settle ?_) still ?_
              · intro edge accepted own
                exact all (target edge, edge) ((each _ _).mpr ⟨accepted, own, rfl⟩)
              · simp only [List.length_cons] at enough balance ⊢
                omega
          | found stops passes => exact .found stops passes
          | raised stops raises => exact .raised stops raises

-----------------------------------------------------------------------------------------
-- The way back
-----------------------------------------------------------------------------------------

section Back

variable {sourceOf : ε → Except error ν} {isStart : ν → Except error Bool}
  {missing exhausted : error} {predecessor : Dict ν ε}

/-- The way back along a walk of noted edges is that walk, by induction from its end. -/
theorem reconstruct_walk (reads : ∀ edge, sourceOf edge = .ok (source edge))
    (starts : isStart first = .ok true) {path : List ε} {last : ν}
    (walk : Walk source target accepts first path last)
    (noted : ∀ edge ∈ path, predecessor.get? (target edge) = some edge)
    (apart : ∀ edge ∈ path, isStart (target edge) = .ok false) {fuel : Nat}
    (enough : path.length ≤ fuel) (rest : List ε)
    : reconstruct sourceOf isStart missing exhausted predecessor fuel last rest
      = .ok (path ++ rest) := by
  induction path using List.reverseRecOn generalizing last fuel rest with
  | nil =>
      obtain rfl := Walk.nil_iff.mp walk
      unfold reconstruct
      rw [starts]
      rfl
  | append_singleton path edge ih =>
      obtain ⟨before, _, rfl⟩ := Walk.concat_iff.mp walk
      have inside : edge ∈ path ++ [edge] := List.mem_append_right _ (List.mem_singleton_self _)
      have earlier : ∀ other ∈ path, other ∈ path ++ [edge] :=
        fun other member => List.mem_append_left _ member
      rw [List.length_append, List.length_singleton] at enough
      obtain ⟨fuel, rfl⟩ : ∃ less, fuel = less + 1 := ⟨fuel - 1, by omega⟩
      have back := ih before (fun other member => noted other (earlier other member))
        (fun other member => apart other (earlier other member))
        (Nat.le_of_succ_le_succ enough) (edge :: rest)
      unfold reconstruct
      simp only [apart edge inside, noted edge inside, reads, bind, Except.bind,
        Bool.false_eq_true, if_false, back, List.append_assoc, List.singleton_append]

end Back

-----------------------------------------------------------------------------------------
-- Shortest paths
-----------------------------------------------------------------------------------------

section Shortest

variable {expand : ν → Except error (List (ν × ε))} {sourceOf : ε → Except error ν}
  {isStart : ν → Except error Bool} {missing exhausted : error} {goal : ν} {targets : List ν}

/-- Search from the first node until one passes the test, then follow the edges back from the
goal.
-/
def shortest (expand : ν → Except error (List (ν × ε)))
    (sourceOf : ε → Except error ν) (isStart isGoal : ν → Except error Bool)
    (missing exhausted : error) (fuel : Nat) (first goal : ν)
    : Except error (Option (List ε)) := do
  match ← run expand isGoal exhausted fuel (start first) with
  | none => return none
  | some search =>
      let predecessor := search.predecessor
      let path ← reconstruct sourceOf isStart missing exhausted predecessor
        predecessor.items.length goal []
      return some path

/-- The search from a single node ends before the fuel does. -/
theorem ends_run (isGoal : ν → Except error Bool) (exhausted : error)
    (expands : Expands source target accepts expand)
    (listed : ∀ edge, accepts edge → target edge ∈ targets) (first : ν)
    : Ends source target accepts first isGoal
        (run expand isGoal exhausted (targets.length + 1) (start first)) := by
  refine (Explored.start first).run expands listed ?_ ?_
  · intro node member apart
    exact absurd (List.mem_singleton.mp member) apart
  · simp only [start, List.length_singleton]
    omega

/-- An answer that there is no path: no walk leads to a node that passes the test. -/
theorem of_shortest_none (expands : Expands source target accepts expand)
    (listed : ∀ edge, accepts edge → target edge ∈ targets)
    (none_ : shortest expand sourceOf isStart isGoal missing exhausted (targets.length + 1)
      first goal = .ok none)
    {path : List ε} {node : ν} (walk : Walk source target accepts first path node)
    (apart : node ≠ first)
    : isGoal node = .ok false := by
  have ends := ends_run isGoal exhausted expands listed first
  obtain ⟨result, ran, none_⟩ := ok_bind_iff.mp none_
  rw [ran] at ends
  cases ends with
  | nowhere everywhere => exact everywhere path node walk apart
  | found stops passes =>
      obtain ⟨_, _, none_⟩ := ok_bind_iff.mp none_
      cases none_

/-- Where the search stops is the goal, if no walk meets a node that is taken for it before. -/
theorem Stops.eq_goal {search : Search ν ε} {node : ν}
    (stops : Stops source target accepts first isGoal node search)
    (passes : isGoal goal = .ok true)
    (tells : ∀ path last, Walk source target accepts first path last →
      (∀ edge ∈ path, target edge ≠ goal) → ∀ edge ∈ path, isGoal (target edge) = .ok false)
    (failed : isGoal node ≠ .ok false)
    : node = goal := by
  by_contra other
  obtain ⟨depth, tree, _⟩ := stops.grown
  obtain ⟨path, walk, _, each⟩ := tree.exists_walk stops.met
  have avoids : ∀ edge ∈ path, target edge ≠ goal := by
    intro edge member same
    obtain ⟨_, met, apart, _⟩ := each edge member
    by_cases last : target edge = node
    · exact other (last.symm.trans same)
    · have judged := stops.others _ met apart last
      rw [same, passes] at judged
      cases judged
  cases path using List.reverseRecOn with
  | nil => exact stops.apart (Walk.nil_iff.mp walk).symm
  | append_singleton path edge =>
      obtain ⟨_, _, rfl⟩ := Walk.concat_iff.mp walk
      exact failed (tells _ _ walk avoids edge
        (List.mem_append_right _ (List.mem_singleton_self _)))

/-- The search finds a shortest walk to the goal or tells that there is none, if no node is taken
for the goal before the goal is met and none is taken for the start on a simple walk to it.
-/
theorem shortest_correct (expands : Expands source target accepts expand)
    (listed : ∀ edge, accepts edge → target edge ∈ targets)
    (reads : ∀ edge, sourceOf edge = .ok (source edge)) (starts : isStart first = .ok true)
    (passes : isGoal goal = .ok true) (apart : first ≠ goal)
    (tellsGoal : ∀ path last, Walk source target accepts first path last →
      (∀ edge ∈ path, target edge ≠ goal) → ∀ edge ∈ path, isGoal (target edge) = .ok false)
    (tellsStart : ∀ path, Walk source target accepts first path goal →
      (first :: path.map target).Nodup → ∀ edge ∈ path, isStart (target edge) = .ok false)
    : (shortest expand sourceOf isStart isGoal missing exhausted (targets.length + 1) first goal
          = .ok none ∧ ∀ path, ¬ Walk source target accepts first path goal)
      ∨ ∃ path, shortest expand sourceOf isStart isGoal missing exhausted (targets.length + 1)
            first goal = .ok (some path)
          ∧ Walk source target accepts first path goal
          ∧ ∀ other, Walk source target accepts first other goal → path.length ≤ other.length := by
  have ends := ends_run isGoal exhausted expands listed first
  unfold shortest
  generalize run expand isGoal exhausted (targets.length + 1) (start first) = result at ends ⊢
  cases ends with
  | nowhere everywhere =>
      refine .inl ⟨rfl, ?_⟩
      intro path walk
      have judged := everywhere path goal walk (Ne.symm apart)
      rw [passes] at judged
      cases judged
  | raised stops raises =>
      obtain rfl := stops.eq_goal passes tellsGoal (by rw [raises]; simp)
      rw [passes] at raises
      cases raises
  | @found node reached stops accepted =>
      obtain rfl := stops.eq_goal passes tellsGoal (by rw [accepted]; simp)
      obtain ⟨depth, tree, least⟩ := stops.grown
      obtain ⟨path, walk, length, each⟩ := tree.exists_walk stops.met
      have simple := walk.nodup_of_climbs (fun edge member => (each edge member).2.2.2)
      have noted := fun edge member => (each edge member).1
      have few : (path.map target).length ≤ reached.predecessor.keys.length := by
        refine (List.nodup_cons.mp simple).2.length_le_of_subset ?_
        intro key member
        obtain ⟨edge, inside, rfl⟩ := List.mem_map.mp member
        exact Dict.mem_keys.mpr ⟨edge, noted edge inside⟩
      rw [List.length_map, Dict.keys, List.length_map] at few
      have back : reconstruct sourceOf isStart missing exhausted reached.predecessor
          reached.predecessor.items.length node [] = .ok (path ++ []) :=
        reconstruct_walk reads starts walk noted (tellsStart path walk simple) few []
      refine .inr ⟨path, ?_, walk, ?_⟩
      · simp only [bind, Except.bind, back, List.append_nil, pure, Except.pure]
      · intro other otherWalk
        rw [length]
        exact least other otherWalk

end Shortest

end Tree

end Search

end Py
