import Pyverge.Py.Bisect
import Pyverge.Py.Search

/-! Searches that take the same steps.
Of the candidates of a node only the first that leads to each next node counts. A search over other
names for the nodes runs alike if it meets the same first candidates in the same order.
-/

namespace Py

namespace Search

variable {error ν μ ε : Type} [DecidableEq ν] [DecidableEq μ]

/-- The first candidate for each next node. -/
def firsts : List (ν × ε) → List (ν × ε)
  | [] => []
  | item :: rest => item :: (firsts rest).filter (fun other => other.1 ≠ item.1)

/-- Candidates for a node that has been met make no difference. -/
theorem scan_filter {isGoal : ν → Except error Bool} {node : ν} (candidates : List (ν × ε))
    {search : Search ν ε} (met : node ∈ search.seen)
    : scan isGoal (candidates.filter (fun item => item.1 ≠ node)) search
      = scan isGoal candidates search := by
  induction candidates generalizing search with
  | nil => rfl
  | cons item rest ih =>
      obtain ⟨next, edge⟩ := item
      by_cases same : next = node
      · subst same
        rw [List.filter_cons_of_neg (by simp), ih met, scan, if_pos met]
      · rw [List.filter_cons_of_pos (by simpa using same), scan, scan]
        by_cases known : next ∈ search.seen
        · rw [if_pos known, if_pos known, ih met]
        · rw [if_neg known, if_neg known]
          have still : node ∈ ((search.discover next edge).enqueue next).seen :=
            List.mem_append_left _ met
          simp only [ih still]

/-- The loop over the candidates sees the first one for each next node only. -/
theorem scan_firsts {isGoal : ν → Except error Bool} (candidates : List (ν × ε))
    (search : Search ν ε)
    : scan isGoal (firsts candidates) search = scan isGoal candidates search := by
  induction candidates generalizing search with
  | nil => rfl
  | cons item rest ih =>
      obtain ⟨next, edge⟩ := item
      rw [firsts, scan, scan]
      by_cases known : next ∈ search.seen
      · rw [if_pos known, if_pos known, scan_filter _ known, ih]
      · have met : next ∈ ((search.discover next edge).enqueue next).seen :=
          List.mem_append_right _ (List.mem_singleton_self _)
        rw [if_neg known, if_neg known]
        simp only [scan_filter _ met, ih]

-----------------------------------------------------------------------------------------
-- Other names for the nodes
-----------------------------------------------------------------------------------------

section Renamed

variable {rename : ν → μ} {Inside : ν → Prop} {Known : ε → Prop}

/-- The same state under other names for the nodes. -/
structure Renamed (rename : ν → μ) (Inside : ν → Prop) (Known : ε → Prop) (search : Search ν ε)
    (other : Search μ ε) : Prop where
  queue : other.queue = search.queue.map rename
  seen : other.seen = search.seen.map rename
  predecessor : other.predecessor.items
    = search.predecessor.items.map (fun item => (rename item.1, item.2))
  queueInside : ∀ node ∈ search.queue, Inside node
  seenInside : ∀ node ∈ search.seen, Inside node
  keysInside : ∀ node ∈ search.predecessor.keys, Inside node
  noted : ∀ node edge, search.predecessor.get? node = some edge → Known edge

/-- Both computations raise the same or return what is related. -/
inductive Tracks {α β : Type} (Related : α → β → Prop) : Except error α → Except error β → Prop where
  | returned {left : α} {right : β} : Related left right → Tracks Related (.ok left) (.ok right)
  | raised (raise : error) : Tracks Related (.error raise) (.error raise)

variable (injective : ∀ one other, Inside one → Inside other → rename one = rename other →
  one = other)

include injective

/-- A renamed dictionary finds renamed keys. -/
theorem get?_renamed {dict : Dict ν ε} {other : Dict μ ε}
    (items : other.items = dict.items.map (fun item => (rename item.1, item.2)))
    (inside : ∀ node ∈ dict.keys, Inside node) {node : ν} (own : Inside node)
    : other.get? (rename node) = dict.get? node := by
  have agree : ∀ edge, other.get? (rename node) = some edge ↔ dict.get? node = some edge := by
    intro edge
    rw [Dict.get?_eq_some, Dict.get?_eq_some, items, List.mem_map]
    constructor
    · intro found
      obtain ⟨item, member, same⟩ := found
      obtain ⟨names, edges⟩ := Prod.mk.inj same
      have listed : item.1 ∈ dict.keys := List.mem_map_of_mem member
      rw [← injective item.1 node (inside _ listed) own names, ← edges]
      exact member
    · intro member
      exact ⟨(node, edge), member, rfl⟩
  exact Option.ext agree

/-- Writing a key and renaming it commute. -/
theorem items_set_renamed {dict : Dict ν ε} {other : Dict μ ε}
    (items : other.items = dict.items.map (fun item => (rename item.1, item.2)))
    (inside : ∀ node ∈ dict.keys, Inside node) {node : ν} (own : Inside node) (edge : ε)
    : (other.set (rename node) edge).items
      = (dict.set node edge).items.map (fun item => (rename item.1, item.2)) := by
  have names : ∀ item ∈ dict.items, rename item.1 = rename node ↔ item.1 = node := by
    intro item member
    constructor
    · exact injective item.1 node (inside _ (List.mem_map_of_mem member)) own
    · exact congrArg rename
  have keys : rename node ∈ other.keys ↔ node ∈ dict.keys := by
    rw [Dict.mem_keys, Dict.mem_keys, get?_renamed injective items inside own]
  by_cases listed : node ∈ dict.keys
  · rw [Dict.items_set_of_mem (keys.mpr listed), Dict.items_set_of_mem listed, items, List.map_map,
      List.map_map]
    refine List.map_congr_left (fun item member => ?_)
    by_cases same : item.1 = node
    · simp [same]
    · have apart : ¬ rename item.1 = rename node := mt (names item member).mp same
      simp [same, apart]
  · rw [Dict.items_set_of_not_mem (mt keys.mp listed), Dict.items_set_of_not_mem listed, items,
      List.map_append]
    rfl

omit [DecidableEq μ] in
theorem Renamed.mem_seen {search : Search ν ε} {other : Search μ ε}
    (renamed : Renamed rename Inside Known search other) {node : ν} (own : Inside node)
    : rename node ∈ other.seen ↔ node ∈ search.seen := by
  rw [renamed.seen]
  constructor
  · intro member
    obtain ⟨met, listed, same⟩ := List.mem_map.mp member
    rwa [← injective met node (renamed.seenInside met listed) own same]
  · exact List.mem_map_of_mem

theorem Renamed.discover {search : Search ν ε} {other : Search μ ε}
    (renamed : Renamed rename Inside Known search other) {node : ν} (own : Inside node) {edge : ε}
    (known : Known edge)
    : Renamed rename Inside Known (search.discover node edge)
        (other.discover (rename node) edge) where
  queue := renamed.queue
  seen := by simp [Search.discover, renamed.seen]
  predecessor := items_set_renamed injective renamed.predecessor renamed.keysInside own edge
  queueInside := renamed.queueInside
  seenInside one member := by
    rcases List.mem_append.mp member with old | new
    · exact renamed.seenInside one old
    · rwa [List.mem_singleton.mp new]
  keysInside one member := by
    rcases Dict.mem_keys_set.mp member with rfl | old
    · exact own
    · exact renamed.keysInside one old
  noted one other found := by
    simp only [Search.discover, Dict.get?_set] at found
    split at found
    · rwa [← Option.some.inj found]
    · exact renamed.noted one other found

omit [DecidableEq μ] injective in
theorem Renamed.enqueue {search : Search ν ε} {other : Search μ ε}
    (renamed : Renamed rename Inside Known search other) {node : ν} (own : Inside node)
    : Renamed rename Inside Known (search.enqueue node) (other.enqueue (rename node)) where
  queue := by simp [Search.enqueue, renamed.queue]
  seen := renamed.seen
  predecessor := renamed.predecessor
  queueInside one member := by
    rcases List.mem_append.mp member with old | new
    · exact renamed.queueInside one old
    · rwa [List.mem_singleton.mp new]
  seenInside := renamed.seenInside
  keysInside := renamed.keysInside
  noted := renamed.noted

variable {isGoal : ν → Except error Bool} {isGoal' : μ → Except error Bool}
  (tests : ∀ node, Inside node → isGoal' (rename node) = isGoal node)

include tests

/-- The loop over renamed candidates, by list induction. -/
theorem Renamed.scan {search : Search ν ε} {other : Search μ ε}
    (renamed : Renamed rename Inside Known search other) {candidates : List (ν × ε)}
    (inside : ∀ item ∈ candidates, Inside item.1 ∧ Known item.2)
    : Tracks (fun left right => left.1 = right.1 ∧ Renamed rename Inside Known left.2 right.2)
        (scan isGoal candidates search)
        (scan isGoal' (candidates.map (fun item => (rename item.1, item.2))) other) := by
  induction candidates generalizing search other with
  | nil => exact .returned ⟨rfl, renamed⟩
  | cons item rest ih =>
      obtain ⟨own, known⟩ := inside item List.mem_cons_self
      have later := fun next member => inside next (List.mem_cons_of_mem _ member)
      obtain ⟨next, edge⟩ := item
      have known' := renamed.mem_seen injective own
      rw [List.map_cons, Search.scan, Search.scan]
      by_cases met : next ∈ search.seen
      · rw [if_pos met, if_pos (known'.mpr met)]
        exact ih renamed later
      · rw [if_neg met, if_neg (mt known'.mp met), tests next own]
        have grown := renamed.discover injective own known
        cases isGoal next with
        | error raise => exact .raised raise
        | ok passes =>
            cases passes with
            | true => exact .returned ⟨rfl, grown⟩
            | false => exact ih (grown.enqueue own) later

omit [DecidableEq ν] [DecidableEq μ] injective tests in
/-- The candidates of renamed nodes lead to the same next nodes in the same order. -/
def ExpandAlike (rename : ν → μ) (Inside : ν → Prop) (Known : ε → Prop)
    (expand : ν → Except error (List (ν × ε))) (expand' : μ → Except error (List (μ × ε))) : Prop :=
  ∀ node, Inside node → ∃ candidates others, expand node = .ok candidates
    ∧ expand' (rename node) = .ok others
    ∧ firsts (candidates.map (fun item => (rename item.1, item.2))) = firsts others
    ∧ ∀ item ∈ candidates, Inside item.1 ∧ Known item.2

variable {expand : ν → Except error (List (ν × ε))} {expand' : μ → Except error (List (μ × ε))}
  (alike : ExpandAlike rename Inside Known expand expand')

include alike

/-- The loop over the queue of renamed nodes, by induction on the fuel. -/
theorem Renamed.run {exhausted : error} {fuel : Nat} {search : Search ν ε} {other : Search μ ε}
    (renamed : Renamed rename Inside Known search other)
    : Tracks (Option.Rel (Renamed rename Inside Known))
        (run expand isGoal exhausted fuel search) (run expand' isGoal' exhausted fuel other) := by
  induction fuel generalizing search other with
  | zero =>
      unfold Search.run
      rw [renamed.queue]
      cases search.queue with
      | nil => exact .returned .none
      | cons current later => exact .raised exhausted
  | succ fuel ih =>
      unfold Search.run
      rw [renamed.queue]
      cases waiting : search.queue with
      | nil => exact .returned .none
      | cons current later =>
          have inside := renamed.queueInside
          rw [waiting] at inside
          obtain ⟨candidates, others, expanded, expanded', same, each⟩ :=
            alike current (inside current List.mem_cons_self)
          have popped : Renamed rename Inside Known { search with queue := later }
              { other with queue := later.map rename } :=
            { renamed with
              queue := rfl
              queueInside := fun node member => inside node (List.mem_cons_of_mem _ member) }
          have scanned := popped.scan injective tests each
          rw [← scan_firsts (candidates.map (fun item => (rename item.1, item.2))), same,
            scan_firsts] at scanned
          simp only [List.map_cons, expanded, expanded', bind, Except.bind]
          generalize Search.scan isGoal candidates { search with queue := later } = left
            at scanned ⊢
          generalize Search.scan isGoal' others { other with queue := later.map rename } = right
            at scanned ⊢
          cases scanned with
          | raised raise => exact .raised raise
          | @returned left right related =>
              obtain ⟨found, search⟩ := left
              obtain ⟨foundToo, other⟩ := right
              obtain ⟨rfl, next⟩ := related
              cases found with
              | true => exact .returned (.some next)
              | false => exact ih next

end Renamed

section Back

variable {rename : ν → μ} {Inside : ν → Prop} {Known : ε → Prop}
  {sourceOf : ε → Except error ν} {sourceOf' : ε → Except error μ}
  {isStart : ν → Except error Bool} {isStart' : μ → Except error Bool} {missing exhausted : error}

/-- The way back over renamed nodes, by induction on the fuel. -/
theorem reconstruct_renamed
    (injective : ∀ one other, Inside one → Inside other → rename one = rename other → one = other)
    (tests : ∀ node, Inside node → isStart' (rename node) = isStart node)
    (reads : ∀ edge, Known edge → ∃ node, Inside node ∧ sourceOf edge = .ok node
      ∧ sourceOf' edge = .ok (rename node))
    {search : Search ν ε} {other : Search μ ε} (renamed : Renamed rename Inside Known search other)
    {fuel : Nat} {current : ν} (own : Inside current) (path : List ε)
    : reconstruct sourceOf' isStart' missing exhausted other.predecessor fuel (rename current) path
      = reconstruct sourceOf isStart missing exhausted search.predecessor fuel current path := by
  have found := fun (node : ν) (inside : Inside node) =>
    get?_renamed injective renamed.predecessor renamed.keysInside inside
  induction fuel generalizing current path with
  | zero =>
      unfold reconstruct
      rw [tests current own]
  | succ fuel ih =>
      unfold reconstruct
      rw [tests current own]
      cases isStart current with
      | error raise => rfl
      | ok ends =>
          cases ends with
          | true => rfl
          | false =>
              simp only [bind, Except.bind, Bool.false_eq_true, if_false, found current own]
              cases noted : search.predecessor.get? current with
              | none => rfl
              | some edge =>
                  obtain ⟨previous, inside, read, read'⟩ := reads edge (renamed.noted _ _ noted)
                  simp only [read, read']
                  exact ih inside (edge :: path)

/-- Searches over renamed nodes with the same first candidates find the same path. -/
theorem shortest_renamed
    (injective : ∀ one other, Inside one → Inside other → rename one = rename other → one = other)
    {isGoal : ν → Except error Bool} {isGoal' : μ → Except error Bool}
    (goals : ∀ node, Inside node → isGoal' (rename node) = isGoal node)
    (starts : ∀ node, Inside node → isStart' (rename node) = isStart node)
    (reads : ∀ edge, Known edge → ∃ node, Inside node ∧ sourceOf edge = .ok node
      ∧ sourceOf' edge = .ok (rename node))
    {expand : ν → Except error (List (ν × ε))} {expand' : μ → Except error (List (μ × ε))}
    (alike : ExpandAlike rename Inside Known expand expand') {fuel : Nat} {first goal : ν}
    (insideFirst : Inside first) (insideGoal : Inside goal)
    : shortest expand' sourceOf' isStart' isGoal' missing exhausted fuel (rename first)
        (rename goal)
      = shortest expand sourceOf isStart isGoal missing exhausted fuel first goal := by
  have begins : Renamed rename Inside Known (start first : Search ν ε) (start (rename first)) := by
    refine ⟨rfl, rfl, rfl, ?_, ?_, ?_, ?_⟩
    · intro node member
      rwa [List.mem_singleton.mp member]
    · intro node member
      rwa [List.mem_singleton.mp member]
    · intro node member
      cases member
    · intro node edge found
      cases found
  have tracked : Tracks (Option.Rel (Renamed rename Inside Known))
      (run expand isGoal exhausted fuel (start first))
      (run expand' isGoal' exhausted fuel (start (rename first))) :=
    begins.run injective goals alike
  unfold shortest
  generalize run expand isGoal exhausted fuel (start first) = left at tracked ⊢
  generalize run expand' isGoal' exhausted fuel (start (rename first)) = right at tracked ⊢
  cases tracked with
  | raised raise => rfl
  | returned related =>
      cases related with
      | none => rfl
      | some renamed =>
          have entries := congrArg List.length renamed.predecessor
          rw [List.length_map] at entries
          simp only [bind, Except.bind, entries,
            reconstruct_renamed injective starts reads renamed insideGoal]

end Back

-----------------------------------------------------------------------------------------
-- The order of the candidates
-----------------------------------------------------------------------------------------

omit [DecidableEq μ] in
theorem mem_firsts {candidates : List (ν × ε)} {node : ν} {edge : ε}
    : (node, edge) ∈ firsts candidates
      ↔ candidates.find? (fun item => item.1 = node) = some (node, edge) := by
  induction candidates with
  | nil => simp [firsts]
  | cons item rest ih =>
      by_cases same : item.1 = node
      · subst same
        simp only [firsts, List.mem_cons, List.mem_filter, List.find?_cons, decide_true]
        constructor
        · intro either
          rcases either with own | ⟨_, apart⟩
          · rw [own]
          · simp at apart
        · intro found
          exact .inl (Option.some.inj found).symm
      · have other : node ≠ item.1 := Ne.symm same
        simp only [firsts, List.mem_cons, List.mem_filter, List.find?_cons, same, decide_false, ih]
        constructor
        · intro either
          rcases either with own | ⟨found, _⟩
          · exact absurd (congrArg Prod.fst own) other
          · exact found
        · intro found
          exact .inr ⟨found, by simpa using other⟩

omit [DecidableEq μ] in
/-- Candidates in the order of their next nodes: the first ones come in strict order. -/
theorem sortedBy_firsts {cmp : ν → ν → Ordering} {candidates : List (ν × ε)}
    (ordered : candidates.Pairwise (fun one other => one.1 = other.1 ∨ cmp one.1 other.1 = .lt))
    : SortedBy Prod.fst cmp (firsts candidates) := by
  induction candidates with
  | nil => exact .nil
  | cons item rest ih =>
      obtain ⟨first, later⟩ := List.pairwise_cons.mp ordered
      refine List.pairwise_cons.mpr ⟨?_, (ih later).filter _⟩
      intro other member
      obtain ⟨listed, apart⟩ := List.mem_filter.mp member
      have inside := List.mem_of_find?_eq_some (mem_firsts.mp listed)
      refine (first other inside).resolve_left ?_
      intro same
      simp [same] at apart

end Search

end Py
