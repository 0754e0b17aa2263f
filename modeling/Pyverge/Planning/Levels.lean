import Pyverge.Planning.PathPlan
import Pyverge.Registry.Runs
import Mathlib.Data.List.Chain

/-! The level of an entry is the length of the longest chain of entries below it.
Taking away what has nothing below it shortens every chain by one, so the number of a pass is
the height of what the pass takes.
-/

namespace Pyverge

variable {V E : Type}

-----------------------------------------------------------------------------------------
-- Passes of the loop
-----------------------------------------------------------------------------------------

/-- Passes of the level loop that all find a ready entry; the last one leaves nothing. -/
inductive Peels (path : E → Path) : List E → List (List E) → Prop where
  | done : Peels path [] []
  | pass {remaining ready : List E} {later : List (List E)}
      (taken : ready = remaining.filter (isReady path remaining)) (found : ready ≠ [])
      (rest : Peels path (remaining.filter (fun entry => !isReady path remaining entry)) later)
      : Peels path remaining (ready :: later)

/-- The loop ends without its fallback branch, by induction on the fuel. -/
theorem levelsFrom_peels (path : E → Path) (fuel : Nat) (remaining : List E)
    (enough : remaining.length ≤ fuel)
    : Peels path remaining (levelsFrom path fuel remaining) := by
  induction fuel generalizing remaining with
  | zero =>
      obtain rfl : remaining = [] := List.length_eq_zero_iff.mp (Nat.le_zero.mp enough)
      exact .done
  | succ fuel ih =>
      cases remaining with
      | nil => exact .done
      | cons first rest =>
          have shorter := length_waiting_lt path first rest
          obtain ⟨entry, member, ready⟩ := exists_ready path (List.cons_ne_nil first rest)
          rw [levelsFrom_cons]
          refine .pass rfl ?_ (ih _ (by omega))
          exact List.ne_nil_of_mem (List.mem_filter.mpr ⟨member, ready⟩)

-----------------------------------------------------------------------------------------
-- Chains of entries
-----------------------------------------------------------------------------------------

/-- Entries one below the other, the first of them below the given one. -/
structure ChainBelow (path : E → Path) (remaining : List E) (entry : E) (chain : List E)
    : Prop where
  inside : ∀ other ∈ chain, other ∈ remaining
  nested : List.IsChain (fun outer inner => (path inner).isDescendantOf (path outer) = true)
    (entry :: chain)

/-- The length of the longest chain strictly below an entry. -/
structure Height (path : E → Path) (remaining : List E) (entry : E) (height : Nat) : Prop where
  reached : ∃ chain, ChainBelow path remaining entry chain ∧ chain.length = height
  longest : ∀ chain, ChainBelow path remaining entry chain → chain.length ≤ height

theorem Height.unique {path : E → Path} {remaining : List E} {entry : E} {left right : Nat}
    (first : Height path remaining entry left) (second : Height path remaining entry right)
    : left = right := by
  obtain ⟨chain, below, rfl⟩ := first.reached
  obtain ⟨other, otherBelow, rfl⟩ := second.reached
  exact Nat.le_antisymm (second.longest chain below) (first.longest other otherBelow)

section Passes

variable {path : E → Path} {remaining : List E} {entry : E}

theorem not_isReady_iff
    : isReady path remaining entry = false
      ↔ ∃ other ∈ remaining, (path other).isDescendantOf (path entry) = true := by
  simp [isReady]

/-- Nothing is below a ready entry. -/
theorem height_of_ready (ready : isReady path remaining entry = true)
    : Height path remaining entry 0 := by
  refine ⟨⟨[], ⟨by simp, .singleton entry⟩, rfl⟩, fun chain below => ?_⟩
  cases chain with
  | nil => exact Nat.le_refl 0
  | cons first rest =>
      have deeper := (List.isChain_cons_cons.mp below.nested).1
      have waits := not_isReady_iff.mpr ⟨first, below.inside first (by simp), deeper⟩
      rw [ready] at waits
      cases waits

/-- A chain whose members all have something below them is a chain of entries that wait. -/
theorem ChainBelow.waiting {chain : List E} {last : E}
    (below : ChainBelow path remaining entry (chain ++ [last]))
    : ChainBelow path (remaining.filter (fun entry => !isReady path remaining entry)) entry chain
    := by
  have nested : List.IsChain _ ((entry :: chain) ++ [last]) := below.nested
  refine ⟨fun other member => ?_, nested.left_of_append⟩
  obtain ⟨front, back, rfl⟩ := List.append_of_mem member
  refine List.mem_filter.mpr ⟨below.inside other (by simp), ?_⟩
  have next : ∃ deeper ∈ remaining, (path deeper).isDescendantOf (path other) = true := by
    have whole : entry :: (front ++ other :: back) ++ [last]
        = (entry :: front) ++ other :: (back ++ [last]) := by simp
    rw [whole] at nested
    have tail := nested.right_of_append
    cases back with
    | nil => exact ⟨last, below.inside last (by simp), (List.isChain_cons_cons.mp tail).1⟩
    | cons deeper more =>
        exact ⟨deeper, below.inside deeper (by simp), (List.isChain_cons_cons.mp tail).1⟩
  rw [not_isReady_iff.mpr next]
  rfl

/-- A pass takes one from every chain below an entry that waits. -/
theorem Height.next {height : Nat}
    (waiting : Height path (remaining.filter (fun entry => !isReady path remaining entry)) entry
      height)
    (waits : isReady path remaining entry = false)
    : Height path remaining entry (height + 1) := by
  obtain ⟨⟨chain, below, rfl⟩, longest⟩ := waiting
  refine ⟨?_, fun other otherBelow => ?_⟩
  · -- The end of the chain waits, so something is below it.
    have final : isReady path remaining ((entry :: chain).getLast (List.cons_ne_nil _ _))
        = false := by
      rcases List.mem_cons.mp (List.getLast_mem (List.cons_ne_nil entry chain)) with same | member
      · rw [same]
        exact waits
      · simpa using (List.mem_filter.mp (below.inside _ member)).2
    obtain ⟨deeper, member, descends⟩ := not_isReady_iff.mp final
    refine ⟨chain ++ [deeper], ⟨fun other inside => ?_, ?_⟩, by simp⟩
    · rcases List.mem_append.mp inside with old | new
      · exact (List.mem_filter.mp (below.inside other old)).1
      · exact List.mem_singleton.mp new ▸ member
    · change List.IsChain _ ((entry :: chain) ++ [deeper])
      refine List.isChain_append.mpr ⟨below.nested, .singleton deeper, ?_⟩
      intro last isLast first isFirst
      rw [List.getLast?_eq_some_getLast (List.cons_ne_nil entry chain)] at isLast
      obtain rfl := Option.some.inj isLast
      obtain rfl : deeper = first := by simpa using isFirst
      exact descends
  · rcases List.eq_nil_or_concat other with rfl | ⟨front, last, rfl⟩
    · exact Nat.zero_le _
    · rw [List.concat_eq_append] at otherBelow ⊢
      rw [List.length_append, List.length_singleton]
      exact Nat.succ_le_succ (longest front otherBelow.waiting)

end Passes

theorem Peels.subset {path : E → Path} {remaining : List E} {levels : List (List E)}
    (peels : Peels path remaining levels)
    : ∀ level ∈ levels, ∀ entry ∈ level, entry ∈ remaining := by
  induction peels with
  | done => exact fun level member => absurd member List.not_mem_nil
  | pass taken found rest ih =>
      intro level member entry inside
      rcases List.mem_cons.mp member with rfl | later
      · exact List.mem_of_mem_filter (taken ▸ inside)
      · exact List.mem_of_mem_filter (ih level later entry inside)

/-- A pass takes the entries whose height is its number, by induction on the passes. -/
theorem Peels.height {path : E → Path} {remaining : List E} {levels : List (List E)}
    (peels : Peels path remaining levels) {place : Nat} {level : List E}
    (found : levels[place]? = some level) {entry : E} (member : entry ∈ level)
    : Height path remaining entry place := by
  induction peels generalizing place with
  | done => cases found
  | pass taken nonempty rest ih =>
      cases place with
      | zero =>
          obtain rfl := Option.some.inj found
          rw [taken] at member
          exact height_of_ready (List.mem_filter.mp member).2
      | succ place =>
          have waits := rest.subset level (List.mem_of_getElem? found) entry member
          exact (ih found).next (by simpa using (List.mem_filter.mp waits).2)

-----------------------------------------------------------------------------------------
-- Levels of a plan
-----------------------------------------------------------------------------------------

/-- The entry is in the level of this number. -/
def PathPlan.At (plan : PathPlan V) (place : Nat) (entry : PathPlanEntry V) : Prop :=
  ∃ level, plan.levels[place]? = some level ∧ entry ∈ level

/-- The levels of a plan partition its entries by their height. -/
structure PathPlan.Levelled (plan : PathPlan V) : Prop where
  passes : Peels PathPlanEntry.path plan.entries plan.levels
  partitioned : plan.levels.flatten.Perm plan.entries
  once : ∀ entry ∈ plan.entries, ∃! place, plan.At place entry
  apart : ∀ level ∈ plan.levels, level.Pairwise (fun left right => left.path.Apart right.path)
  height : ∀ place entry, plan.At place entry →
    Height PathPlanEntry.path plan.entries entry place
  earlier : ∀ place inner other outer, plan.At place inner → plan.At other outer →
    inner.path.isDescendantOf outer.path = true → place < other

/-- Entries with pairwise distinct paths are taken in passes that all find a ready entry, each
entry in the pass that its height tells.
-/
theorem PathPlan.levelled (plan : PathPlan V)
    (distinct : (plan.entries.map PathPlanEntry.path).Nodup)
    : plan.Levelled := by
  have passes : Peels PathPlanEntry.path plan.entries plan.levels :=
    levelsFrom_peels _ _ _ (Nat.le_refl _)
  have partitioned : plan.levels.flatten.Perm plan.entries :=
    levelsFrom_flatten_perm _ _ _ (Nat.le_refl _)
  have height : ∀ place entry, plan.At place entry →
      Height PathPlanEntry.path plan.entries entry place := by
    intro place entry at_
    obtain ⟨level, found, member⟩ := at_
    exact passes.height found member
  refine ⟨passes, partitioned, fun entry member => ?_, levelsFrom_apart distinct _, height, ?_⟩
  · obtain ⟨level, inLevels, inside⟩ := List.mem_flatten.mp (partitioned.mem_iff.mpr member)
    obtain ⟨place, found⟩ := List.getElem?_of_mem inLevels
    refine ⟨place, ⟨level, found, inside⟩, fun other at_ => ?_⟩
    exact (height other entry at_).unique (height place entry ⟨level, found, inside⟩)
  · intro place inner other outer innerAt outerAt descends
    obtain ⟨chain, below, rfl⟩ := (height place inner innerAt).reached
    obtain ⟨level, found, inside⟩ := innerAt
    have stored := passes.subset level (List.mem_of_getElem? found) inner inside
    have longer : ChainBelow PathPlanEntry.path plan.entries outer (inner :: chain) := by
      refine ⟨fun entry member => ?_, .cons_cons descends below.nested⟩
      rcases List.mem_cons.mp member with rfl | deeper
      · exact stored
      · exact below.inside entry deeper
    exact (height other outer outerAt).longest (inner :: chain) longer

/-- A user at a path, as far as its level goes. -/
def nestedUser (path : Path) : PathPlanEntry Release where
  path
  source := userNode 1 "UserV1"
  target := userNode 2 "UserV2"
  targetModel := ⟨"app", "UserV2"⟩
  steps := []
  edges := []
  aligned := rfl

/-- Witness: the payload is above its two friends, and one of them above a friend of its own. -/
theorem levelled_nestedUsers
    : (PathPlan.mk [nestedUser [], nestedUser [.key "friends", .index 0],
        nestedUser [.key "friends", .index 1],
        nestedUser [.key "friends", .index 1, .key "friend"]]).Levelled :=
  PathPlan.levelled _ (by decide)

end Pyverge
