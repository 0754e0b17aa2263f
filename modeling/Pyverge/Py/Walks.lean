import Mathlib.Data.List.Induction
import Mathlib.Data.List.Nodup

/-! Walks along edges of a directed graph.
Edges are values of a type of their own, so that parallel edges are told apart.
-/

namespace Py

variable {ν ε : Type} {source target : ε → ν} {accepts : ε → Prop}

/-- Accepted edges that lead, one after another, from one node to another. -/
inductive Walk (source target : ε → ν) (accepts : ε → Prop) : ν → List ε → ν → Prop where
  | stay (node : ν) : Walk source target accepts node [] node
  | step {first last : ν} {edge : ε} {rest : List ε}
      : accepts edge → source edge = first → Walk source target accepts (target edge) rest last →
        Walk source target accepts first (edge :: rest) last

namespace Walk

variable {first middle last : ν} {path more : List ε}

theorem nil_iff : Walk source target accepts first [] last ↔ first = last := by
  constructor
  · intro walk
    cases walk
    rfl
  · intro same
    rw [same]
    exact .stay last

theorem accepts_of_mem (walk : Walk source target accepts first path last) {edge : ε}
    (member : edge ∈ path)
    : accepts edge := by
  induction walk with
  | stay node => cases member
  | step accepted _ _ ih =>
      rcases List.mem_cons.mp member with rfl | later
      · exact accepted
      · exact ih later

/-- Only the edges of a walk have to be accepted. -/
theorem imp_of_mem {others : ε → Prop} (walk : Walk source target accepts first path last)
    (accepted : ∀ edge ∈ path, others edge)
    : Walk source target others first path last := by
  induction walk with
  | stay node => exact .stay node
  | step _ from_ _ ih =>
      exact .step (accepted _ List.mem_cons_self) from_
        (ih (fun edge later => accepted edge (List.mem_cons_of_mem _ later)))

theorem append (walk : Walk source target accepts first path middle)
    (next : Walk source target accepts middle more last)
    : Walk source target accepts first (path ++ more) last := by
  induction walk with
  | stay node => exact next
  | step accepted from_ _ ih => exact .step accepted from_ (ih next)

/-- A walk splits wherever its edges are split. -/
theorem of_append (walk : Walk source target accepts first (path ++ more) last)
    : ∃ middle, Walk source target accepts first path middle
        ∧ Walk source target accepts middle more last := by
  induction path generalizing first with
  | nil => exact ⟨first, .stay first, walk⟩
  | cons edge rest ih =>
      cases walk with
      | step accepted from_ later =>
          obtain ⟨middle, before, after⟩ := ih later
          exact ⟨middle, .step accepted from_ before, after⟩

theorem concat_iff {edge : ε}
    : Walk source target accepts first (path ++ [edge]) last
      ↔ Walk source target accepts first path (source edge) ∧ accepts edge
        ∧ target edge = last := by
  constructor
  · intro walk
    obtain ⟨middle, before, after⟩ := walk.of_append
    cases after with
    | step accepted from_ rest => exact ⟨from_ ▸ before, accepted, nil_iff.mp rest⟩
  · intro parts
    obtain ⟨before, accepted, to_⟩ := parts
    exact before.append (.step accepted rfl (nil_iff.mpr to_))

/-- Every edge of a walk ends a walk of its own. -/
theorem exists_initial (walk : Walk source target accepts first path last) {edge : ε}
    (member : edge ∈ path)
    : ∃ before, before ≠ [] ∧ Walk source target accepts first before (target edge) := by
  obtain ⟨before, after, rfl⟩ := List.append_of_mem member
  rw [List.append_cons] at walk
  obtain ⟨middle, walk, _⟩ := walk.of_append
  obtain ⟨_, _, to_⟩ := concat_iff.mp walk
  exact ⟨before ++ [edge], by simp, to_ ▸ walk⟩

/-- A walk that climbs with every edge visits no node twice. -/
theorem nodup_of_climbs {rank : ν → Nat} (walk : Walk source target accepts first path last)
    (climbs : ∀ edge ∈ path, rank (source edge) < rank (target edge))
    : (first :: path.map target).Nodup := by
  have rising : (first :: path.map target).Pairwise (fun one other => rank one < rank other) := by
    induction walk with
    | stay node => exact List.pairwise_singleton _ _
    | @step first last edge rest _ from_ _ ih =>
        have climb := climbs edge List.mem_cons_self
        rw [from_] at climb
        have later := ih (fun other inside => climbs other (List.mem_cons_of_mem _ inside))
        refine List.pairwise_cons.mpr ⟨?_, later⟩
        intro node member
        rcases List.mem_cons.mp member with rfl | inside
        · exact climb
        · exact Nat.lt_trans climb ((List.pairwise_cons.mp later).1 node inside)
  refine rising.imp ?_
  intro one other below same
  rw [same] at below
  exact Nat.lt_irrefl _ below

-----------------------------------------------------------------------------------------
-- Cycles
-----------------------------------------------------------------------------------------

/-- A walk that visits a node twice contains a cycle. -/
theorem exists_cycle_of_not_nodup (walk : Walk source target accepts first path last)
    (repeats : ¬ (first :: path.map target).Nodup)
    : ∃ node cycle, cycle ≠ [] ∧ Walk source target accepts node cycle node := by
  induction walk with
  | stay node => exact absurd (List.nodup_singleton _) repeats
  | @step first last edge rest accepted from_ walk ih =>
      by_cases back : first ∈ (edge :: rest).map target
      · obtain ⟨other, member, same⟩ := List.mem_map.mp back
        obtain ⟨cycle, nonempty, around⟩ := (Walk.step accepted from_ walk).exists_initial member
        rw [same] at around
        exact ⟨first, cycle, nonempty, around⟩
      · exact ih (fun nodup => repeats (List.nodup_cons.mpr ⟨back, nodup⟩))

/-- Edges that all climb make no cycle. -/
theorem not_cycle_of_climbs {rank : ν → Nat}
    (climbs : ∀ edge, accepts edge → rank (source edge) < rank (target edge)) {node : ν}
    {cycle : List ε} (nonempty : cycle ≠ [])
    : ¬ Walk source target accepts node cycle node := by
  intro walk
  have simple := walk.nodup_of_climbs (fun edge member => climbs edge (walk.accepts_of_mem member))
  cases cycle using List.reverseRecOn with
  | nil => exact nonempty rfl
  | append_singleton before edge =>
      obtain ⟨_, _, back⟩ := concat_iff.mp walk
      refine (List.nodup_cons.mp simple).1 ?_
      rw [← back]
      exact List.mem_map_of_mem (List.mem_append_right _ (List.mem_singleton_self _))

end Walk

/-- Where every node of a nonempty finite set is entered from the set, there is a cycle: a walk
longer than the set has to repeat a node.
-/
theorem exists_cycle {nodes : List ν} (nonempty : nodes ≠ [])
    (entered : ∀ node ∈ nodes, ∃ edge, accepts edge ∧ target edge = node ∧ source edge ∈ nodes)
    : ∃ node cycle, cycle ≠ [] ∧ Walk source target accepts node cycle node := by
  have walks : ∀ length : Nat, ∃ first path last, first ∈ nodes ∧ path.length = length
      ∧ Walk source target accepts first path last ∧ ∀ edge ∈ path, target edge ∈ nodes := by
    intro length
    induction length with
    | zero =>
        obtain ⟨node, member⟩ := List.exists_mem_of_ne_nil _ nonempty
        exact ⟨node, [], node, member, rfl, .stay node, by simp⟩
    | succ length ih =>
        obtain ⟨first, path, last, member, rfl, walk, inside⟩ := ih
        obtain ⟨edge, accepted, to_, before⟩ := entered first member
        subst to_
        refine ⟨source edge, edge :: path, last, before, rfl, .step accepted rfl walk, ?_⟩
        intro other listed
        rcases List.mem_cons.mp listed with rfl | later
        · exact member
        · exact inside other later
  obtain ⟨first, path, last, member, length, walk, inside⟩ := walks nodes.length
  refine walk.exists_cycle_of_not_nodup ?_
  intro nodup
  have few : (first :: path.map target).length ≤ nodes.length := by
    refine nodup.length_le_of_subset ?_
    intro node listed
    rcases List.mem_cons.mp listed with rfl | later
    · exact member
    · obtain ⟨edge, inPath, rfl⟩ := List.mem_map.mp later
      exact inside edge inPath
  simp only [List.length_cons, List.length_map, length] at few
  omega

end Py
