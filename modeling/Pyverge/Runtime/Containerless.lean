import Pyverge.Planning.Preorder
import Pyverge.Runtime.Guided

/-! What a discovery without a source model yields, and when it stops at the depth limit.
The limit counts versioned mappings that lie within each other, not levels of the payload.
-/

namespace Pyverge

open Py (Json)

variable {V F M : Type} [DecidableEq V] [VersionValue V]

/-- The value is a mapping that names a hydrated node of the graph's own namespace. -/
def MigrationGraph.NamesNode (graph : MigrationGraph V) (kp vp : String) (value : Json)
    (node : VersionNode V) : Prop :=
  .versionNode node ∈ graph.backend.nodes ∧ node.id.nameSpace = graph.nameSpace
    ∧ Names kp vp node value

theorem Reachable.namesNode_iff {config : Config V F} {source : Registry V}
    (reached : Reachable config source) {hasher : ContentHasher} {revision : Option Revision}
    {graph : MigrationGraph V} (built : buildGraph hasher source revision = .ok graph)
    {kp vp : String} {value : Json} {node : VersionNode V}
    : graph.matchPayload kp vp value = some node ↔ graph.NamesNode kp vp value node := by
  have stores := reached.nodeStores
  have nodes := (snapshotOf_buildGraph stores reached.edgeStores built).nodes
  obtain ⟨steps⟩ := buildGraph_steps stores reached.edgeStores built
  rw [MigrationGraph.NamesNode, nodes]
  constructor
  · intro hit
    exact steps.of_matchPayload stores hit
  · intro names
    obtain ⟨stored, own, members, text, rfl, kind, version, parsed⟩ := names
    exact steps.matchPayload_eq stores stored own kind version parsed

-----------------------------------------------------------------------------------------
-- The depth limit
-----------------------------------------------------------------------------------------

/-- The walk is refused for its depth, or it returns. -/
def Limited (maxDepth : Int) (exceeds : Prop) (outcome : Except ExtractionError (List (Entry V)))
    : Prop :=
  (exceeds ∧ ∃ path depth kind version,
      outcome = .error (.maxDepthExceeded path depth kind version maxDepth))
    ∨ ¬ exceeds ∧ ∃ entries, outcome = .ok entries

section Limits

variable {graph : MigrationGraph V} {maxDepth : Int}

omit [DecidableEq V] [VersionValue V] in
/-- One walk after another. -/
theorem Limited.append {first second : Prop} {one other : Except ExtractionError (List (Entry V))}
    (limited : Limited maxDepth first one) (limitedOther : Limited maxDepth second other)
    : Limited maxDepth (first ∨ second) (do return (← one) ++ (← other)) := by
  rcases limited with ⟨exceeds, path, depth, kind, version, rfl⟩ | ⟨within, entries, rfl⟩
  · exact .inl ⟨.inl exceeds, path, depth, kind, version, rfl⟩
  · rcases limitedOther with ⟨exceeds, path, depth, kind, version, rfl⟩ | ⟨withinOther, others, rfl⟩
    · exact .inl ⟨.inr exceeds, path, depth, kind, version, rfl⟩
    · exact .inr ⟨fun either => either.elim within withinOther, _, rfl⟩

mutual
/-- A walk is refused exactly if some mapping exceeds the limit. -/
theorem walkContainerless_limited {ctx : WalkContext M} {path : Path} {depth : Nat} {value : Json}
    (wellFormed : WellFormed value)
    : Limited ctx.maxDepth
        (ExceedsDepth (graph.matchPayload ctx.kp ctx.vp) ctx.maxDepth ctx.versionedDepth value)
        (walkContainerless graph path depth ctx value) := by
  rw [exceedsDepth_iff wellFormed]
  cases value with
  | obj members =>
      rw [exists_item_obj wellFormed.1]
      cases hit : graph.matchPayload ctx.kp ctx.vp (.obj members) with
      | none =>
          simp only [walkContainerless, hit, Option.isSome_none, Bool.false_eq_true, and_false,
            false_or, if_false, Nat.add_zero]
          exact walkContainerlessMembers_limited wellFormed.2
      | some source =>
          simp only [walkContainerless, hit, Option.isSome_some, and_true, if_true]
          by_cases deep : 0 ≤ ctx.maxDepth ∧ ctx.maxDepth < ctx.versionedDepth
          · rw [if_pos deep]
            exact .inl ⟨.inl deep, _, _, _, _, rfl⟩
          · rw [if_neg deep, or_iff_right deep]
            have below := @walkContainerlessMembers_limited
              { ctx with versionedDepth := ctx.versionedDepth + 1 } path (depth + 1) members
              wellFormed.2
            rcases below with ⟨exceeds, path', depth', kind, version, failed⟩
              | ⟨within, entries, walked⟩
            · rw [failed]
              exact .inl ⟨exceeds, path', depth', kind, version, rfl⟩
            · rw [walked]
              exact .inr ⟨within, _, rfl⟩
  | arr items =>
      rw [exists_item_arr]
      simp only [matchPayload_arr, Option.isSome_none, Bool.false_eq_true, and_false, false_or,
        if_false, Nat.add_zero]
      exact walkContainerlessItems_limited wellFormed
  | null | bool | int | float | str =>
      refine .inr ⟨?_, [], rfl⟩
      simp [MigrationGraph.matchPayload, item?]

theorem walkContainerlessMembers_limited {ctx : WalkContext M} {path : Path} {depth : Nat}
    {members : List (String × Json)} (wellFormed : WellFormedMembers members)
    : Limited ctx.maxDepth
        (∃ member ∈ members, ExceedsDepth (graph.matchPayload ctx.kp ctx.vp) ctx.maxDepth
          ctx.versionedDepth member.2)
        (walkContainerlessMembers graph path depth ctx members) := by
  cases members with
  | nil => exact .inr ⟨by simp, [], rfl⟩
  | cons member rest =>
      obtain ⟨key, nested⟩ := member
      rw [List.exists_mem_cons_iff]
      exact (walkContainerless_limited wellFormed.1).append
        (walkContainerlessMembers_limited wellFormed.2)

theorem walkContainerlessItems_limited {ctx : WalkContext M} {path : Path} {depth place : Nat}
    {items : List Json} (wellFormed : WellFormedItems items)
    : Limited ctx.maxDepth
        (∃ item ∈ items, ExceedsDepth (graph.matchPayload ctx.kp ctx.vp) ctx.maxDepth
          ctx.versionedDepth item)
        (walkContainerlessItems graph path depth ctx place items) := by
  cases items with
  | nil => exact .inr ⟨by simp, [], rfl⟩
  | cons item rest =>
      rw [List.exists_mem_cons_iff]
      exact (walkContainerless_limited wellFormed.1).append
        (walkContainerlessItems_limited wellFormed.2)
end

end Limits

-----------------------------------------------------------------------------------------
-- The discovery as a whole
-----------------------------------------------------------------------------------------

/-- Some mapping that names a node lies within more of them than the limit allows. -/
def MigrationGraph.TooDeep (graph : MigrationGraph V) (kp vp : String) (maxDepth : Int)
    (data : Json) : Prop :=
  0 ≤ maxDepth ∧ ∃ path value node, at? path data = some value ∧ graph.NamesNode kp vp value node
    ∧ ∃ around : List Path, around.Nodup ∧ maxDepth < around.length
      ∧ ∀ above ∈ around, (∃ below, below ≠ [] ∧ path = above ++ below)
        ∧ ∃ outer node, at? above data = some outer ∧ graph.NamesNode kp vp outer node

/-- The entries are the mappings that name nodes, in pre-order, each once and where it lies. -/
structure MigrationGraph.Discovered (graph : MigrationGraph V) (kp vp : String) (data : Json)
    (entries : List (Entry V)) : Prop where
  exact : ∀ path node, (∃ depth, ⟨path, depth, node⟩ ∈ entries)
    ↔ ∃ value, at? path data = some value ∧ graph.NamesNode kp vp value node
  resolves : ∀ entry ∈ entries, ∃ value, entry.path.get data = .ok value
    ∧ graph.NamesNode kp vp value entry.node
  distinct : (entries.map Entry.path).Nodup
  preorder : (entries.map Entry.path).Pairwise (Precedes data)

section Discovery

variable {config : Config V F} {source : Registry V} (reached : Reachable config source)
  {hasher : ContentHasher} {revision : Option Revision} {graph : MigrationGraph V}
  (built : buildGraph hasher source revision = .ok graph) {kp vp : String} {data : Json}
  (wellFormed : WellFormed data)
include reached built wellFormed

/-- Finds above a position are counted without listing one twice. -/
theorem Reachable.exceedsDepth_iff {maxDepth : Int}
    : ExceedsDepth (graph.matchPayload kp vp) maxDepth 0 data ↔ graph.TooDeep kp vp maxDepth data := by
  have names : ∀ {value : Json}, (graph.matchPayload kp vp value).isSome = true
      ↔ ∃ node, graph.NamesNode kp vp value node := by
    intro value
    simp only [Option.isSome_iff_exists, reached.namesNode_iff built]
  rw [ExceedsDepth, MigrationGraph.TooDeep, and_congr_right_iff]
  intro _
  simp only [mem_finds wellFormed, true_or, and_true, reached.namesNode_iff built]
  constructor
  · intro given
    obtain ⟨path, node, ⟨value, position, named⟩, deep⟩ := given
    refine ⟨path, value, node, position, named, matchedAbove (graph.matchPayload kp vp) path data,
      nodup_matchedAbove path data, by simpa using deep, ?_⟩
    intro above member
    obtain ⟨proper, outer, at_, hit⟩ :=
      (mem_matchedAbove (isPosition_iff.mpr ⟨value, position⟩)).mp member
    obtain ⟨node, names⟩ := names.mp hit
    exact ⟨proper, outer, node, at_, names⟩
  · intro given
    obtain ⟨path, value, node, position, named, around, nodup, deep, each⟩ := given
    refine ⟨path, node, ⟨value, position, named⟩, ?_⟩
    have few : around.length ≤ (matchedAbove (graph.matchPayload kp vp) path data).length := by
      refine nodup.length_le_of_subset ?_
      intro above member
      obtain ⟨proper, outer, node, at_, own⟩ := each above member
      exact (mem_matchedAbove (isPosition_iff.mpr ⟨value, position⟩)).mpr
        ⟨proper, outer, at_, names.mpr ⟨node, own⟩⟩
    omega

theorem Reachable.discovered_finds
    : graph.Discovered kp vp data
        ((finds true (graph.matchPayload kp vp) data).map (entryAt [] 0)) := by
  have paths : ((finds true (graph.matchPayload kp vp) data).map (entryAt [] 0)).map Entry.path
      = (finds true (graph.matchPayload kp vp) data).map Prod.fst := by
    simp [entryAt, Function.comp_def]
  have found : ∀ path node, (path, node) ∈ finds true (graph.matchPayload kp vp) data
      ↔ ∃ value, at? path data = some value ∧ graph.NamesNode kp vp value node := by
    intro path node
    simp [mem_finds wellFormed, reached.namesNode_iff built]
  refine {
    exact := ?_
    resolves := ?_
    distinct := paths ▸ nodup_finds wellFormed
    preorder := paths ▸ finds_preorder wellFormed
  }
  · intro path node
    rw [← found]
    constructor
    · intro listed
      obtain ⟨depth, member⟩ := listed
      obtain ⟨find, inside, same⟩ := List.mem_map.mp member
      obtain ⟨rfl, _, rfl⟩ := Entry.mk.inj same
      exact inside
    · intro inside
      exact ⟨_, List.mem_map.mpr ⟨_, inside, rfl⟩⟩
  · intro entry member
    obtain ⟨find, inside, rfl⟩ := List.mem_map.mp member
    obtain ⟨value, position, names⟩ := (found find.1 find.2).mp inside
    exact ⟨value, get_of_at? position, names⟩

/-- The containerless discovery is refused exactly if the payload is nested too deeply; otherwise
it yields what there is.
-/
theorem Reachable.extract_exact (adapter : ModelAdapter M) (mode : ValidationMode)
    (maxDepth : Int)
    : (graph.TooDeep adapter.kindProperty adapter.versionProperty maxDepth data
        ∧ ∃ path depth kind version, extract graph adapter mode data none maxDepth
          = .error (.maxDepthExceeded path depth kind version maxDepth))
      ∨ ¬ graph.TooDeep adapter.kindProperty adapter.versionProperty maxDepth data
        ∧ ∃ entries, extract graph adapter mode data none maxDepth = .ok entries
          ∧ graph.Discovered adapter.kindProperty adapter.versionProperty data entries := by
  have limited := @walkContainerless_limited V M _ _ graph
    ⟨adapter.kindProperty, adapter.versionProperty, maxDepth, 0, none⟩ [] 0 data wellFormed
  simp only [reached.exceedsDepth_iff built wellFormed] at limited
  rcases limited with refused | ⟨within, entries, walked⟩
  · exact .inl refused
  · refine .inr ⟨within, entries, walked, ?_⟩
    rw [walkContainerless_of_ok walked]
    exact reached.discovered_finds built wellFormed

end Discovery

/-- Witness: a user in a user is too deep for the limit 0, and both are found for the limit 1. -/
theorem extract_exact_nestedUsers
    : ∃ graph, buildGraph plainConfig.hasher (userCatalogIn "default") none = .ok graph
        ∧ graph.TooDeep "kind" "version" 0 nestedUsers
        ∧ graph.Discovered "kind" "version" nestedUsers
          [⟨[], 0, userNode 1 "UserV1"⟩, ⟨[.key "friend"], 1, userNode 1 "UserV1"⟩] := by
  have shown : (buildGraph plainConfig.hasher (userCatalogIn "default") none).map (fun graph =>
      let adapter := (plainCoordinator graph .any).adapter
      ((extract graph adapter .none nestedUsers none 0).toOption,
        extract graph adapter .none nestedUsers none 1))
      = .ok (none, .ok [⟨[], 0, userNode 1 "UserV1"⟩, ⟨[.key "friend"], 1, userNode 1 "UserV1"⟩]) := by
    decide +kernel
  have wellFormed : WellFormed nestedUsers := by simp [nestedUsers, WellFormed, WellFormedMembers]
  have reached : Reachable plainConfig (userCatalogIn "default") :=
    .step _ (.new plainConfig "default" false (by decide))
  cases built : buildGraph plainConfig.hasher (userCatalogIn "default") none with
  | error error => simp [built, Except.map] at shown
  | ok graph =>
      simp only [built, Except.map, Except.ok.injEq, Prod.mk.injEq] at shown
      obtain ⟨refused, found⟩ := shown
      refine ⟨graph, rfl, ?_, ?_⟩
      · rcases reached.extract_exact built wellFormed (plainCoordinator graph .any).adapter .none 0
          with ⟨deep, _⟩ | ⟨_, entries, walked, _⟩
        · exact deep
        · rw [walked] at refused
          cases refused
      · rcases reached.extract_exact built wellFormed (plainCoordinator graph .any).adapter .none 1
          with ⟨_, _, _, _, _, failed⟩ | ⟨_, entries, walked, discovered⟩
        · rw [failed] at found
          cases found
        · rw [walked] at found
          obtain rfl := Except.ok.inj found
          exact discovered

end Pyverge
