import Pyverge.Planning.Positions

/-! Rewritings that move what is found in a payload.
A found position is rewritten after everything below it. If that changes what the position itself
is matched to and neither loses nor adds finds below it, then the finds of the result are the
finds of the payload, each of them moved.
-/

namespace Pyverge

open Py (Json)

variable {α : Type}

-----------------------------------------------------------------------------------------
-- What is found at a position
-----------------------------------------------------------------------------------------

/-- What the matcher finds at a position of a value. -/
def foundAt (matched : Json → Option α) (value : Json) (path : Path) : Option α :=
  (at? path value).bind matched

theorem foundAt_nil (matched : Json → Option α) (value : Json)
    : foundAt matched value [] = matched value := rfl

theorem foundAt_cons (matched : Json → Option α) (value : Json) (step : PathStep) (path : Path)
    : foundAt matched value (step :: path)
      = (item? value step).bind (fun child => foundAt matched child path) := by
  simp only [foundAt, at?, Option.bind_assoc]

/-- All finds of a value are what is found at its positions. -/
theorem mem_finds_iff_foundAt {matched : Json → Option α} {value : Json}
    (wellFormed : WellFormed value) {path : Path} {find : α}
    : (path, find) ∈ finds true matched value ↔ foundAt matched value path = some find := by
  rw [mem_finds wellFormed, foundAt, Option.bind_eq_some_iff]
  simp

/-- The text of a value that is one. -/
def textOf : Json → Option String
  | .str text => some text
  | _ => none

/-- The matcher takes mappings only, and looks at the texts among their members only. -/
structure MatchesTexts (matched : Json → Option α) : Prop where
  mapping : ∀ value find, matched value = some find → ∃ members, value = .obj members
  texts : ∀ members others,
    (∀ key, (Json.getMember members key).bind textOf = (Json.getMember others key).bind textOf) →
    matched (.obj members) = matched (.obj others)

theorem MatchesTexts.arr {matched : Json → Option α} (texts : MatchesTexts matched)
    (items : List Json)
    : matched (.arr items) = none := by
  cases hit : matched (.arr items) with
  | none => rfl
  | some find =>
      obtain ⟨_, same⟩ := texts.mapping _ _ hit
      cases same

-----------------------------------------------------------------------------------------
-- Moves
-----------------------------------------------------------------------------------------

section Moves

variable (matched : Json → Option α) (move : α → α)

/-- The finds of the result are the moved finds of the value, position by position. -/
structure Moves (value result : Json) : Prop where
  wellFormed : WellFormed result
  text : textOf result = textOf value
  found : ∀ path, foundAt matched result path = (foundAt matched value path).map move

/-- Acting on a value that is matched to the find moves it and keeps what is found below it. -/
def MovesRoot (find : α) (act : Json → Option Json) : Prop :=
  ∀ value, WellFormed value → matched value = some find →
    ∃ result, act value = some result ∧ WellFormed result ∧ matched result = some (move find)
      ∧ ∀ step path, foundAt matched result (step :: path) = foundAt matched value (step :: path)

/-- The rewriting acts on what is found in the value, and leaves all other positions alone. -/
structure RewritesFinds (rewrite : Rewriting) (value : Json) : Prop where
  alone : ∀ path, IsPosition path value → foundAt matched value path = none → rewrite path = some
  moved : ∀ path find, foundAt matched value path = some find →
    MovesRoot matched move find (rewrite path)

end Moves

variable {matched : Json → Option α} {move : α → α}

theorem RewritesFinds.below {rewrite : Rewriting} {value child : Json} {step : PathStep}
    (rewrites : RewritesFinds matched move rewrite value) (here : item? value step = some child)
    : RewritesFinds matched move (rewrite.below step) child where
  alone := by
    intro path position nothing
    refine rewrites.alone (step :: path) ⟨child, here, position⟩ ?_
    rw [foundAt_cons, here]
    exact nothing
  moved := by
    intro path find found
    refine rewrites.moved (step :: path) find ?_
    rw [foundAt_cons, here]
    exact found

/-- Members with the same names, each moved. -/
abbrev MovesMembers (matched : Json → Option α) (move : α → α)
    : List (String × Json) → List (String × Json) → Prop :=
  List.Forall₂ (fun old new => new.1 = old.1 ∧ Moves matched move old.2 new.2)

/-- Moved members have moved values under every name, by induction over both lists. -/
theorem MovesMembers.getMember {members results : List (String × Json)}
    (moves : MovesMembers matched move members results) (key : String)
    : (Json.getMember members key = none ∧ Json.getMember results key = none)
      ∨ ∃ old new, Json.getMember members key = some old ∧ Json.getMember results key = some new
          ∧ Moves matched move old new := by
  induction moves with
  | nil => exact .inl ⟨rfl, rfl⟩
  | @cons old new _ _ own _ ih =>
      obtain ⟨name, value⟩ := old
      obtain ⟨name', result⟩ := new
      obtain ⟨same, moved⟩ := own
      obtain rfl : name' = name := same
      by_cases hit : name' = key
      · right
        exact ⟨value, result, by simp [Json.getMember, hit], by simp [Json.getMember, hit], moved⟩
      · simpa only [Json.getMember, if_neg hit] using ih

theorem MovesMembers.names {members results : List (String × Json)}
    (moves : MovesMembers matched move members results)
    : results.map Prod.fst = members.map Prod.fst := by
  induction moves with
  | nil => rfl
  | cons own _ ih => rw [List.map_cons, List.map_cons, own.1, ih]

theorem MovesMembers.wellFormed {members results : List (String × Json)}
    (moves : MovesMembers matched move members results)
    : WellFormedMembers results := by
  induction moves with
  | nil => trivial
  | cons own _ ih => exact ⟨own.2.wellFormed, ih⟩

theorem wellFormedItems_of_moves {items results : List Json}
    (moves : List.Forall₂ (Moves matched move) items results)
    : WellFormedItems results := by
  induction moves with
  | nil => trivial
  | cons own _ ih => exact ⟨own.wellFormed, ih⟩

/-- Moved children have the same texts, so their parent is matched as before. -/
theorem MovesMembers.matched_eq (texts : MatchesTexts matched)
    {members results : List (String × Json)}
    (moves : MovesMembers matched move members results)
    : matched (.obj results) = matched (.obj members) := by
  apply texts.texts
  intro key
  rcases moves.getMember key with ⟨absent, still⟩ | ⟨old, new, held, now, moved⟩
  · rw [absent, still]
  · rw [held, now, Option.bind_some, Option.bind_some, moved.text]

theorem MovesMembers.foundAt_cons {members results : List (String × Json)}
    (moves : MovesMembers matched move members results) (step : PathStep) (path : Path)
    : foundAt matched (.obj results) (step :: path)
      = (foundAt matched (.obj members) (step :: path)).map move := by
  rw [Pyverge.foundAt_cons, Pyverge.foundAt_cons]
  cases step with
  | index place => rfl
  | key key =>
      simp only [item?]
      rcases moves.getMember key with ⟨absent, still⟩ | ⟨old, new, held, now, moved⟩
      · rw [absent, still]
        rfl
      · rw [held, now]
        exact moved.found path

theorem foundAt_arr_cons {items results : List Json}
    (moves : List.Forall₂ (Moves matched move) items results) (step : PathStep) (path : Path)
    : foundAt matched (.arr results) (step :: path)
      = (foundAt matched (.arr items) (step :: path)).map move := by
  rw [foundAt_cons, foundAt_cons]
  cases step with
  | key key => rfl
  | index place =>
      simp only [item?]
      induction moves generalizing place with
      | nil => rfl
      | cons own _ ih =>
          cases place with
          | zero => exact own.found path
          | succ place => simpa using ih place

/-- A scalar is never matched, and stays as it is. -/
theorem moves_scalar {rewrite : Rewriting} {value : Json} (texts : MatchesTexts matched)
    (wellFormed : WellFormed value) (rewrites : RewritesFinds matched move rewrite value)
    (scalar : ∀ step, item? value step = none) (other : ∀ members, value ≠ .obj members)
    : rewrite [] value = some value ∧ Moves matched move value value := by
  have unmatched : matched value = none := by
    cases hit : matched value with
    | none => rfl
    | some find =>
        obtain ⟨members, same⟩ := texts.mapping _ _ hit
        exact (other members same).elim
  refine ⟨by rw [rewrites.alone [] trivial unmatched], wellFormed, rfl, ?_⟩
  intro path
  cases path with
  | nil => simp [foundAt_nil, unmatched]
  | cons step rest => simp [foundAt_cons, scalar step]

/-- Rewriting the root after its children, which keep the texts that it is matched by. -/
theorem moves_root {rewrite : Rewriting} {value middle : Json} (texts : MatchesTexts matched)
    (rewrites : RewritesFinds matched move rewrite value) (noText : textOf value = none)
    (wellFormed : WellFormed middle) (noText' : textOf middle = none)
    (same : matched middle = matched value)
    (below : ∀ step path, foundAt matched middle (step :: path)
      = (foundAt matched value (step :: path)).map move)
    : ∃ result, rewrite [] middle = some result ∧ Moves matched move value result := by
  cases hit : matched value with
  | none =>
      refine ⟨middle, ?_, wellFormed, noText'.trans noText.symm, ?_⟩
      · rw [rewrites.alone [] trivial hit]
      · intro path
        cases path with
        | nil => simp [foundAt_nil, same, hit]
        | cons step rest => exact below step rest
  | some find =>
      obtain ⟨result, acted, wellFormedResult, moved, kept⟩ :=
        rewrites.moved [] find hit middle wellFormed (same.trans hit)
      obtain ⟨members, rfl⟩ := texts.mapping _ _ moved
      refine ⟨.obj members, acted, wellFormedResult, noText.symm, ?_⟩
      intro path
      cases path with
      | nil => simp [foundAt_nil, moved, hit]
      | cons step rest => exact (kept step rest).trans (below step rest)

mutual
/-- Rewriting the finds from the leaves to the root moves all of them. -/
theorem bottomUp_moves (texts : MatchesTexts matched) (value : Json) (rewrite : Rewriting)
    (wellFormed : WellFormed value) (rewrites : RewritesFinds matched move rewrite value)
    : ∃ result, bottomUp rewrite value = some result ∧ Moves matched move value result := by
  cases value with
  | arr items =>
      obtain ⟨results, done, moves⟩ := bottomUpItems_moves texts items rewrite 0 wellFormed
        (fun place item held => rewrites.below (by simpa [item?] using held))
      obtain ⟨result, acted, moved⟩ := @moves_root _ _ _ rewrite (.arr items) (.arr results) texts
        rewrites rfl (wellFormedItems_of_moves moves) rfl
        ((texts.arr results).trans (texts.arr items).symm) (foundAt_arr_cons moves)
      exact ⟨result, by rw [bottomUp, done]; exact acted, moved⟩
  | obj members =>
      obtain ⟨results, done, moves⟩ := bottomUpMembers_moves texts members rewrite wellFormed.2
        (fun name item member => rewrites.below (getMember_of_mem wellFormed.1 member))
      have distinct : (results.map Prod.fst).Nodup := by
        rw [moves.names]
        exact wellFormed.1
      obtain ⟨result, acted, moved⟩ := @moves_root _ _ _ rewrite (.obj members) (.obj results) texts
        rewrites rfl ⟨distinct, moves.wellFormed⟩ rfl (moves.matched_eq texts) moves.foundAt_cons
      exact ⟨result, by rw [bottomUp, done]; exact acted, moved⟩
  | null | bool | int | float | str =>
      exact ⟨_, moves_scalar texts wellFormed rewrites (fun _ => rfl) (by simp)⟩

theorem bottomUpItems_moves (texts : MatchesTexts matched) (items : List Json)
    (rewrite : Rewriting) (start : Nat) (wellFormed : WellFormedItems items)
    (rewrites : ∀ place item, items[place]? = some item →
      RewritesFinds matched move (rewrite.below (.index (start + place))) item)
    : ∃ results, bottomUpItems rewrite start items = some results
        ∧ List.Forall₂ (Moves matched move) items results := by
  cases items with
  | nil => exact ⟨[], rfl, .nil⟩
  | cons item rest =>
      obtain ⟨first, done, moved⟩ := bottomUp_moves texts item _ wellFormed.1
        (rewrites 0 item rfl)
      obtain ⟨others, later, moves⟩ := bottomUpItems_moves texts rest rewrite (start + 1)
        wellFormed.2 (fun place other held => by
          have own := rewrites (place + 1) other held
          rwa [← Nat.add_assoc, Nat.add_right_comm] at own)
      refine ⟨first :: others, ?_, .cons moved moves⟩
      rw [bottomUpItems, later]
      simp only [Nat.add_zero] at done
      rw [done]
      rfl

theorem bottomUpMembers_moves (texts : MatchesTexts matched) (members : List (String × Json))
    (rewrite : Rewriting) (wellFormed : WellFormedMembers members)
    (rewrites : ∀ name value, (name, value) ∈ members →
      RewritesFinds matched move (rewrite.below (.key name)) value)
    : ∃ results, bottomUpMembers rewrite members = some results
        ∧ MovesMembers matched move members results := by
  cases members with
  | nil => exact ⟨[], rfl, .nil⟩
  | cons member rest =>
      obtain ⟨name, value⟩ := member
      obtain ⟨first, done, moved⟩ := bottomUp_moves texts value _ wellFormed.1
        (rewrites name value List.mem_cons_self)
      obtain ⟨others, later, moves⟩ := bottomUpMembers_moves texts rest rewrite wellFormed.2
        (fun other nested inside => rewrites other nested (List.mem_cons_of_mem _ inside))
      refine ⟨(name, first) :: others, ?_, .cons ⟨rfl, moved⟩ moves⟩
      rw [bottomUpMembers, done, later]
      rfl
end

end Pyverge
