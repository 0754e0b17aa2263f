import Pyverge.Planning.Path
import Pyverge.Versioning.Edges
import Mathlib.Data.List.MinMax

/-! Path plans and their levels.
Each pass of the level loop takes the entries that no other remaining entry lies below, so
nested entries are migrated before the entries that contain them.
-/

namespace Pyverge

variable {V E : Type}

/-- One versioned node found in a payload. -/
structure ExtractedEntry (V : Type) where
  path : Path
  node : VersionNode V
  deriving DecidableEq

/-- One extracted entry resolved to a concrete target path; the finder takes steps and edges
from one walk, so they have the same length. A step holds the endpoint values of its edge.
-/
structure PathPlanEntry (V : Type) where
  path : Path
  source : VersionNode V
  target : VersionNode V
  targetModel : ModelRef
  steps : List (Comparable V × Comparable V)
  edges : List (EdgeId V)
  aligned : steps.length = edges.length
  deriving DecidableEq

structure PathPlan (V : Type) where
  entries : List (PathPlanEntry V)
  deriving DecidableEq

/-- Whether no remaining entry lies below this one. -/
def isReady (path : E → Path) (remaining : List E) (entry : E) : Bool :=
  !remaining.any (fun other => (path other).isDescendantOf (path entry))

/-- The loop over the remaining entries. A pass without a ready entry takes the first one, so
every pass takes at least one entry and their number is enough fuel.
-/
def levelsFrom (path : E → Path) : Nat → List E → List (List E)
  | 0, _ => []
  | _ + 1, [] => []
  | fuel + 1, first :: rest =>
      let remaining := first :: rest
      let ready := remaining.filter (isReady path remaining)
      if ready.isEmpty then [first] :: levelsFrom path fuel rest
      else ready :: levelsFrom path fuel
        (remaining.filter (fun entry => !isReady path remaining entry))

def PathPlan.levels (plan : PathPlan V) : List (List (PathPlanEntry V)) :=
  levelsFrom PathPlanEntry.path plan.entries.length plan.entries

-----------------------------------------------------------------------------------------
-- What a pass takes
-----------------------------------------------------------------------------------------

variable {path : E → Path}

theorem isReady_iff {remaining : List E} {entry : E}
    : isReady path remaining entry = true
      ↔ ∀ other ∈ remaining, path entry <+: path other → path entry = path other := by
  simp only [isReady, Bool.not_eq_true', List.any_eq_false, Bool.not_eq_true]
  constructor
  · intro lowest other member initial
    by_contra ne
    have deeper := Path.isDescendantOf_iff.mpr ⟨initial, ne⟩
    simp [lowest other member] at deeper
  · intro lowest other member
    by_contra deeper
    obtain ⟨initial, ne⟩ := Path.isDescendantOf_iff.mp (by simpa using deeper)
    exact ne (lowest other member initial)

/-- A longest path has nothing below it, so a pass always finds a ready entry. -/
theorem exists_ready (path : E → Path) {remaining : List E} (nonempty : remaining ≠ [])
    : ∃ entry ∈ remaining, isReady path remaining entry = true := by
  obtain ⟨entry, member, longest⟩ : ∃ entry ∈ remaining, ∀ other ∈ remaining,
      (path other).length ≤ (path entry).length := by
    obtain ⟨entry, found⟩ := Option.ne_none_iff_exists'.mp
      (mt List.argmax_eq_none.mp nonempty
        : List.argmax (fun entry => (path entry).length) remaining ≠ none)
    refine ⟨entry, List.argmax_mem found, ?_⟩
    intro other member
    exact List.le_of_mem_argmax (f := fun entry => (path entry).length) member found
  refine ⟨entry, member, isReady_iff.mpr ?_⟩
  intro other inside initial
  exact initial.eq_of_length_le (longest other inside)

/-- One pass of the loop; its fallback branch is dead. -/
theorem levelsFrom_cons (path : E → Path) (fuel : Nat) (first : E) (rest : List E)
    : levelsFrom path (fuel + 1) (first :: rest)
      = (first :: rest).filter (isReady path (first :: rest))
        :: levelsFrom path fuel ((first :: rest).filter
          (fun entry => !isReady path (first :: rest) entry)) := by
  obtain ⟨entry, member, ready⟩ := exists_ready path (List.cons_ne_nil first rest)
  have found : ((first :: rest).filter (isReady path (first :: rest))).isEmpty = false := by
    rw [List.isEmpty_eq_false_iff_exists_mem]
    exact ⟨entry, List.mem_filter.mpr ⟨member, ready⟩⟩
  simp only [levelsFrom, found, Bool.false_eq_true, if_false]

/-- Ready entries with different paths are apart. -/
theorem ready_apart {remaining : List E} (distinct : (remaining.map path).Nodup)
    : (remaining.filter (isReady path remaining)).Pairwise
        (fun left right => (path left).Apart (path right)) := by
  have different : (remaining.filter (isReady path remaining)).Pairwise
      (fun left right => path left ≠ path right) :=
    (List.pairwise_map.mp distinct).sublist List.filter_sublist
  refine different.imp_of_mem ?_
  intro left right inLeft inRight ne
  obtain ⟨leftMember, leftReady⟩ := List.mem_filter.mp inLeft
  obtain ⟨rightMember, rightReady⟩ := List.mem_filter.mp inRight
  refine ⟨fun initial => ne ?_, fun initial => ne ?_⟩
  · exact isReady_iff.mp leftReady right rightMember initial
  · exact (isReady_iff.mp rightReady left leftMember initial).symm

/-- A pass leaves fewer entries than it found. -/
theorem length_waiting_lt (path : E → Path) (first : E) (rest : List E)
    : ((first :: rest).filter (fun entry => !isReady path (first :: rest) entry)).length
      < (first :: rest).length := by
  obtain ⟨entry, member, ready⟩ := exists_ready path (List.cons_ne_nil first rest)
  refine List.length_filter_lt_length_iff_exists.mpr ⟨entry, member, ?_⟩
  simp [ready]

-----------------------------------------------------------------------------------------
-- What the loop produces
-----------------------------------------------------------------------------------------

/-- Every entry is in exactly one level, by induction on the fuel. -/
theorem levelsFrom_flatten_perm (path : E → Path) (fuel : Nat) (remaining : List E)
    (enough : remaining.length ≤ fuel)
    : (levelsFrom path fuel remaining).flatten.Perm remaining := by
  induction fuel generalizing remaining with
  | zero =>
      have empty : remaining = [] := List.length_eq_zero_iff.mp (by omega)
      simp [levelsFrom, empty]
  | succ fuel ih =>
      cases remaining with
      | nil => simp [levelsFrom]
      | cons first rest =>
          have shorter := length_waiting_lt path first rest
          rw [levelsFrom_cons, List.flatten_cons]
          have waiting := ih ((first :: rest).filter
            (fun entry => !isReady path (first :: rest) entry)) (by omega)
          exact (waiting.append_left _).trans (List.filter_append_perm _ _)

theorem levelsFrom_apart {remaining : List E} (distinct : (remaining.map path).Nodup) (fuel : Nat)
    : ∀ level ∈ levelsFrom path fuel remaining,
        level.Pairwise (fun left right => (path left).Apart (path right)) := by
  induction fuel generalizing remaining with
  | zero => simp [levelsFrom]
  | succ fuel ih =>
      cases remaining with
      | nil => simp [levelsFrom]
      | cons first rest =>
          rw [levelsFrom_cons]
          intro level member
          rcases List.mem_cons.mp member with rfl | later
          · exact ready_apart distinct
          · exact ih (distinct.sublist (List.filter_sublist.map path)) level later

/-- No entry lies above one that is taken later, by induction on the fuel. -/
theorem levelsFrom_ordered {remaining : List E} (distinct : (remaining.map path).Nodup)
    (fuel : Nat) (enough : remaining.length ≤ fuel)
    : (levelsFrom path fuel remaining).flatten.Pairwise
        (fun earlier later => ¬ path earlier <+: path later) := by
  induction fuel generalizing remaining with
  | zero => simp [levelsFrom]
  | succ fuel ih =>
      cases remaining with
      | nil => simp [levelsFrom]
      | cons first rest =>
          have shorter := length_waiting_lt path first rest
          rw [levelsFrom_cons, List.flatten_cons]
          refine List.pairwise_append.mpr ⟨?_, ?_, ?_⟩
          · exact (ready_apart distinct).imp (fun apart => apart.1)
          · exact ih (distinct.sublist (List.filter_sublist.map path)) (by omega)
          · intro earlier ready later taken initial
            obtain ⟨inside, isReady⟩ := List.mem_filter.mp ready
            have waits := (levelsFrom_flatten_perm path fuel _ (by omega)).mem_iff.mp taken
            obtain ⟨laterInside, notReady⟩ := List.mem_filter.mp waits
            have same := isReady_iff.mp isReady later laterInside initial
            have alike := List.inj_on_of_nodup_map distinct inside laterInside same
            simp [← alike, isReady] at notReady

end Pyverge
