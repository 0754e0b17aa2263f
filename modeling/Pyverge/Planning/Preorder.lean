import Mathlib.Data.List.Range
import Pyverge.Planning.Positions

/-! The order in which finds are met, and how many finds lie above a position. -/

namespace Pyverge

open Py (Json)

variable {α : Type} {deep : Bool} {matched : Json → Option α}

-----------------------------------------------------------------------------------------
-- Pre-order
-----------------------------------------------------------------------------------------

/-- The place of a step among those from a value. -/
def stepPlace : Json → PathStep → Nat
  | .obj members, .key name => members.findIdx (fun member => member.1 = name)
  | _, .index place => place
  | _, .key _ => 0

/-- A position comes before those below it, and before positions below later steps. -/
def Precedes : Json → Path → Path → Prop
  | _, [], later => later ≠ []
  | _, _ :: _, [] => False
  | value, step :: rest, next :: others =>
      if step = next then ∃ child, item? value step = some child ∧ Precedes child rest others
      else stepPlace value step < stepPlace value next

theorem precedes_under {value child : Json} {step : PathStep} (here : item? value step = some child)
    {finds : List (Path × α)}
    (ordered : (finds.map Prod.fst).Pairwise (Precedes child))
    : ((finds.map (under step)).map Prod.fst).Pairwise (Precedes value) := by
  rw [map_fst_under]
  refine List.pairwise_map.mpr (ordered.imp ?_)
  intro path later before
  rw [Precedes, if_pos rfl]
  exact ⟨child, here, before⟩

/-- The place of a member is the number of members before it. -/
theorem stepPlace_key {before after : List (String × Json)} {name : String} {value : Json}
    (nodup : ((before ++ (name, value) :: after).map Prod.fst).Nodup)
    : stepPlace (.obj (before ++ (name, value) :: after)) (.key name) = before.length := by
  rw [List.map_append, List.map_cons] at nodup
  have fresh : ∀ member ∈ before, ¬ member.1 = name := by
    intro member inside same
    exact (List.nodup_append.mp nodup).2.2 _ (List.mem_map_of_mem inside) _ List.mem_cons_self same
  rw [stepPlace, List.findIdx_append, List.findIdx_eq_length_of_false (by simpa using fresh)]
  simp [List.findIdx_cons]

/-- Steps to different places lead to positions in the order of the places. -/
theorem precedes_of_place {value : Json} {step next : PathStep} {rest others : Path}
    (before : stepPlace value step < stepPlace value next)
    : Precedes value (step :: rest) (next :: others) := by
  have differ : step ≠ next := by
    intro same
    rw [same] at before
    exact Nat.lt_irrefl _ before
  rw [Precedes, if_neg differ]
  exact before

/-- Finds below one step, followed by finds below later steps. -/
theorem precedes_append {value child : Json} {step : PathStep}
    (here : item? value step = some child) {first others : List (Path × α)}
    (ordered : (first.map Prod.fst).Pairwise (Precedes child))
    (orderedOthers : (others.map Prod.fst).Pairwise (Precedes value))
    (later : ∀ find ∈ others, ∃ next rest, find.1 = next :: rest
      ∧ stepPlace value step < stepPlace value next)
    : ((first.map (under step) ++ others).map Prod.fst).Pairwise (Precedes value) := by
  rw [List.map_append, List.pairwise_append]
  refine ⟨precedes_under here ordered, orderedOthers, ?_⟩
  intro path inside other listed
  rw [map_fst_under] at inside
  obtain ⟨rest, _, rfl⟩ := List.mem_map.mp inside
  obtain ⟨find, member, rfl⟩ := List.mem_map.mp listed
  obtain ⟨next, tail, same, before⟩ := later find member
  rw [same]
  exact precedes_of_place before

/-- A find at the value itself comes before all finds below it. -/
theorem precedes_own {value : Json} {below : List (Path × α)}
    (deeper : ∀ find ∈ below, ∃ step rest, find.1 = step :: rest)
    (ordered : (below.map Prod.fst).Pairwise (Precedes value))
    : ((own matched value ++ below).map Prod.fst).Pairwise (Precedes value) := by
  rw [List.map_append, List.pairwise_append]
  refine ⟨?_, ordered, ?_⟩
  · cases hit : matched value <;> simp [own, hit]
  · intro path inside other listed
    obtain ⟨⟨path, find⟩, member, rfl⟩ := List.mem_map.mp inside
    obtain ⟨rfl, _⟩ := mem_own.mp member
    obtain ⟨find, member, rfl⟩ := List.mem_map.mp listed
    obtain ⟨step, rest, same⟩ := deeper find member
    rw [same, Precedes]
    exact List.cons_ne_nil _ _

mutual
/-- Finds are listed in pre-order. -/
theorem finds_preorder {value : Json} (wellFormed : WellFormed value)
    : ((finds deep matched value).map Prod.fst).Pairwise (Precedes value) := by
  cases value with
  | arr items =>
      refine precedes_own ?_ ?_
      · intro find member
        split at member
        · obtain ⟨offset, item, rest, _, same, _⟩ := mem_findsItems.mp member
          exact ⟨_, rest, same⟩
        · cases member
      · split
        · exact findsItems_preorder [] wellFormed
        · exact .nil
  | obj members =>
      refine precedes_own ?_ ?_
      · intro find member
        split at member
        · obtain ⟨name, value, rest, _, same, _⟩ := mem_findsMembers.mp member
          exact ⟨_, rest, same⟩
        · cases member
      · split
        · exact findsMembers_preorder [] wellFormed.1 wellFormed.2
        · exact .nil
  | null | bool | int | float | str =>
      simp only [finds]
      rw [← List.append_nil (own matched _)]
      exact precedes_own (fun _ member => by cases member) .nil

theorem findsItems_preorder (before : List Json) {items : List Json}
    (wellFormed : WellFormedItems items)
    : ((findsItems deep matched before.length items).map Prod.fst).Pairwise
        (Precedes (.arr (before ++ items))) := by
  cases items with
  | nil => exact .nil
  | cons item rest =>
      have later := @findsItems_preorder (before ++ [item]) rest wellFormed.2
      rw [List.length_append, List.length_singleton, ← List.append_cons] at later
      refine precedes_append (by simp [item?]) (finds_preorder wellFormed.1) later ?_
      intro find member
      obtain ⟨offset, item, tail, _, same, _⟩ := mem_findsItems.mp member
      refine ⟨_, tail, same, ?_⟩
      simp only [stepPlace]
      omega

theorem findsMembers_preorder (before : List (String × Json)) {members : List (String × Json)}
    (nodup : ((before ++ members).map Prod.fst).Nodup) (wellFormed : WellFormedMembers members)
    : ((findsMembers deep matched members).map Prod.fst).Pairwise
        (Precedes (.obj (before ++ members))) := by
  cases members with
  | nil => exact .nil
  | cons member rest =>
      obtain ⟨name, value⟩ := member
      have later := @findsMembers_preorder (before ++ [(name, value)]) rest
        (by rwa [← List.append_cons]) wellFormed.2
      rw [← List.append_cons] at later
      have here : item? (.obj (before ++ (name, value) :: rest)) (.key name) = some value :=
        getMember_of_mem nodup (List.mem_append_right _ List.mem_cons_self)
      refine precedes_append here (finds_preorder wellFormed.1) later ?_
      intro find member
      obtain ⟨other, nested, tail, inside, same, _⟩ := mem_findsMembers.mp member
      refine ⟨_, tail, same, ?_⟩
      obtain ⟨between, after, rfl⟩ := List.append_of_mem inside
      have place := stepPlace_key nodup
      have split : before ++ (name, value) :: (between ++ (other, nested) :: after)
          = (before ++ (name, value) :: between) ++ (other, nested) :: after := by simp
      rw [place]
      rw [split] at nodup ⊢
      rw [stepPlace_key nodup, List.length_append, List.length_cons]
      omega
end

-----------------------------------------------------------------------------------------
-- Finds above a position
-----------------------------------------------------------------------------------------

/-- The positions above a path where something is found. -/
def matchedAbove (matched : Json → Option α) : Path → Json → List Path
  | [], _ => []
  | step :: rest, value =>
      (if (matched value).isSome then [[]] else [])
        ++ match item? value step with
          | some child => (matchedAbove matched rest child).map (step :: ·)
          | none => []

theorem matchedAbove_cons {step : PathStep} {rest : Path} {value child : Json}
    (here : item? value step = some child)
    : matchedAbove matched (step :: rest) value
      = (if (matched value).isSome then [[]] else [])
        ++ (matchedAbove matched rest child).map (step :: ·) := by
  rw [matchedAbove, here]

/-- The listed positions are those above the path, by induction on the path. -/
theorem mem_matchedAbove {path above : Path} {value : Json} (position : IsPosition path value)
    : above ∈ matchedAbove matched path value
      ↔ (∃ below, below ≠ [] ∧ path = above ++ below)
        ∧ ∃ found, at? above value = some found ∧ (matched found).isSome = true := by
  induction path generalizing above value with
  | nil =>
      refine iff_of_false (by simp [matchedAbove]) ?_
      intro given
      obtain ⟨⟨below, nonempty, same⟩, _⟩ := given
      exact nonempty (List.append_eq_nil_iff.mp same.symm).2
  | cons step rest ih =>
      obtain ⟨child, here, inside⟩ := position
      rw [matchedAbove_cons here, List.mem_append]
      cases above with
      | nil =>
          have apart : [] ∉ (matchedAbove matched rest child).map (step :: ·) := by simp
          simp [apart, at?]
      | cons next others =>
          have notHere : (next :: others) ∉
              (if (matched value).isSome then [([] : Path)] else []) := by
            split <;> simp
          simp only [notHere, false_or, List.mem_map, List.cons.injEq, at?, List.cons_append]
          constructor
          · intro listed
            obtain ⟨tail, member, rfl, rfl⟩ := listed
            obtain ⟨⟨below, nonempty, rfl⟩, found, at_, hit⟩ := (ih inside).mp member
            refine ⟨⟨below, nonempty, rfl, rfl⟩, found, ?_, hit⟩
            rw [here]
            exact at_
          · intro given
            obtain ⟨⟨below, nonempty, rfl, rfl⟩, found, at_, hit⟩ := given
            rw [here] at at_
            exact ⟨others, (ih inside).mpr ⟨⟨below, nonempty, rfl⟩, found, at_, hit⟩, rfl, rfl⟩

theorem nodup_matchedAbove (path : Path) (value : Json)
    : (matchedAbove matched path value).Nodup := by
  induction path generalizing value with
  | nil => exact .nil
  | cons step rest ih =>
      rw [matchedAbove]
      refine List.nodup_append.mpr ⟨?_, ?_, ?_⟩
      · split <;> simp
      · split
        · exact (ih _).map List.cons_injective
        · exact .nil
      · intro above own other deeper same
        subst same
        split at own
        · obtain rfl := List.mem_singleton.mp own
          split at deeper <;> simp at deeper
        · cases own

/-- Some find has more finds above it, those further up included, than the limit allows. -/
def ExceedsDepth (matched : Json → Option α) (limit : Int) (depth : Nat) (value : Json) : Prop :=
  0 ≤ limit ∧ ∃ path find, (path, find) ∈ finds true matched value
    ∧ limit < depth + (matchedAbove matched path value).length

/-- The find itself exceeds the limit, or one below it does. -/
theorem exceedsDepth_iff {limit : Int} {depth : Nat} {value : Json}
    (wellFormed : WellFormed value)
    : ExceedsDepth matched limit depth value
      ↔ (0 ≤ limit ∧ limit < depth ∧ (matched value).isSome = true)
        ∨ ∃ step child, item? value step = some child
          ∧ ExceedsDepth matched limit (depth + if (matched value).isSome then 1 else 0) child := by
  have longer : ∀ {step : PathStep} {child : Json} {rest : Path},
      item? value step = some child →
        (matchedAbove matched (step :: rest) value).length
          = (if (matched value).isSome then 1 else 0) + (matchedAbove matched rest child).length := by
    intro step child rest here
    rw [matchedAbove_cons here, List.length_append, List.length_map]
    split <;> simp
  constructor
  · intro exceeds
    obtain ⟨limited, path, find, member, deep⟩ := exceeds
    cases path with
    | nil =>
        rw [mem_finds_nil] at member
        exact .inl ⟨limited, by simpa [matchedAbove] using deep, by simp [member]⟩
    | cons step rest =>
        obtain ⟨_, child, here, inside⟩ := (mem_finds_cons wellFormed).mp member
        rw [longer here] at deep
        refine .inr ⟨step, child, here, limited, rest, find, inside, ?_⟩
        push_cast at deep ⊢
        omega
  · intro given
    rcases given with ⟨limited, deep, hit⟩ | ⟨step, child, here, limited, rest, find, inside, deep⟩
    · obtain ⟨find, hit⟩ := Option.isSome_iff_exists.mp hit
      exact ⟨limited, [], find, mem_finds_nil.mpr hit, by simpa [matchedAbove] using deep⟩
    · refine ⟨limited, step :: rest, find, (mem_finds_cons wellFormed).mpr ⟨rfl, child, here, inside⟩,
        ?_⟩
      rw [longer here]
      push_cast at deep ⊢
      omega

/-- What holds below some step of an object holds of a member. -/
theorem exists_item_obj {members : List (String × Json)} (nodup : (members.map Prod.fst).Nodup)
    {holds : Json → Prop}
    : (∃ step child, item? (.obj members) step = some child ∧ holds child)
      ↔ ∃ member ∈ members, holds member.2 := by
  constructor
  · intro given
    obtain ⟨step, child, here, held⟩ := given
    cases step with
    | index place => cases here
    | key name => exact ⟨(name, child), mem_of_getMember here, held⟩
  · intro given
    obtain ⟨⟨name, child⟩, member, held⟩ := given
    exact ⟨.key name, child, getMember_of_mem nodup member, held⟩

theorem exists_item_arr {items : List Json} {holds : Json → Prop}
    : (∃ step child, item? (.arr items) step = some child ∧ holds child)
      ↔ ∃ item ∈ items, holds item := by
  constructor
  · intro given
    obtain ⟨step, child, here, held⟩ := given
    cases step with
    | key name => cases here
    | index place => exact ⟨child, List.mem_of_getElem? here, held⟩
  · intro given
    obtain ⟨child, member, held⟩ := given
    obtain ⟨place, here⟩ := List.mem_iff_getElem?.mp member
    exact ⟨.index place, child, here, held⟩

end Pyverge
