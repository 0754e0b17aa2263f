import Mathlib.Data.Fintype.EquivFin
import Pyverge.Graph.Discovery
import Pyverge.Planning.Moves

/-! Validated copies of payloads.
A model is dumped into Python values: a mapping may have integers for keys, and tuples, dates and
other objects are neither mappings nor lists. The walk over such a copy is compared with the payload
that the copy was made of.
-/

namespace Pyverge

open Py (Json)

variable {V α : Type}

-----------------------------------------------------------------------------------------
-- Dumped values
-----------------------------------------------------------------------------------------

/-- What a walk does not look into; any object that is no scalar is told by how it is shown. -/
inductive Leaf where
  | null
  | bool (value : Bool)
  | int (value : Int)
  | float (literal : String)
  | str (value : String)
  | object (shown : String)
  deriving DecidableEq

/-- A value as `dump_python` gives it; the keys of a mapping are texts or integers from zero on. -/
inductive Dumped where
  | leaf (value : Leaf)
  | list (items : List Dumped)
  | dict (members : List (PathStep × Dumped))

namespace Dumped

mutual
def decEq : (left right : Dumped) → Decidable (left = right)
  | .leaf a, .leaf b => decidable_of_iff (a = b) (by simp)
  | .list a, .list b =>
      match decEqItems a b with
      | isTrue same => isTrue (by rw [same])
      | isFalse differ => isFalse (by simpa using differ)
  | .dict a, .dict b =>
      match decEqMembers a b with
      | isTrue same => isTrue (by rw [same])
      | isFalse differ => isFalse (by simpa using differ)
  | .leaf _, .list _ | .leaf _, .dict _ | .list _, .leaf _ | .list _, .dict _ | .dict _, .leaf _
  | .dict _, .list _ => isFalse (by simp)

def decEqItems : (left right : List Dumped) → Decidable (left = right)
  | [], [] => isTrue rfl
  | [], _ :: _ | _ :: _, [] => isFalse (by simp)
  | a :: as, b :: bs =>
      match decEq a b, decEqItems as bs with
      | isTrue head, isTrue tail => isTrue (by rw [head, tail])
      | isFalse differ, _ => isFalse (by simp [differ])
      | _, isFalse differ => isFalse (by simp [differ])

def decEqMembers : (left right : List (PathStep × Dumped)) → Decidable (left = right)
  | [], [] => isTrue rfl
  | [], _ :: _ | _ :: _, [] => isFalse (by simp)
  | (k, a) :: as, (l, b) :: bs =>
      match decEq a b, decEqMembers as bs with
      | isTrue head, isTrue tail => decidable_of_iff (k = l) (by simp [head, tail])
      | isFalse differ, _ => isFalse (by simp [differ])
      | _, isFalse differ => isFalse (by simp [differ])
end

instance : DecidableEq Dumped := decEq

mutual
/-- A payload that is walked as it is. -/
def ofJson : Json → Dumped
  | .null => .leaf .null
  | .bool value => .leaf (.bool value)
  | .int value => .leaf (.int value)
  | .float literal => .leaf (.float literal)
  | .str value => .leaf (.str value)
  | .arr items => .list (ofItems items)
  | .obj members => .dict (ofMembers members)

def ofItems : List Json → List Dumped
  | [] => []
  | item :: rest => ofJson item :: ofItems rest

def ofMembers : List (String × Json) → List (PathStep × Dumped)
  | [] => []
  | (name, value) :: rest => (.key name, ofJson value) :: ofMembers rest
end

/-- `members.get(name)` -/
def getMember : List (PathStep × Dumped) → String → Option Dumped
  | [], _ => none
  | (step, value) :: rest, name => if step = .key name then some value else getMember rest name

def text? : Dumped → Option String
  | .leaf (.str text) => some text
  | _ => none

mutual
/-- All keys of every mapping differ. -/
def WellFormed : Dumped → Prop
  | .leaf _ => True
  | .list items => WellFormedItems items
  | .dict members => (members.map Prod.fst).Nodup ∧ WellFormedMembers members

def WellFormedItems : List Dumped → Prop
  | [] => True
  | item :: rest => item.WellFormed ∧ WellFormedItems rest

def WellFormedMembers : List (PathStep × Dumped) → Prop
  | [] => True
  | (_, value) :: rest => value.WellFormed ∧ WellFormedMembers rest
end

theorem getMember_ofMembers (members : List (String × Json)) (name : String)
    : getMember (ofMembers members) name = (Json.getMember members name).map ofJson := by
  induction members with
  | nil => rfl
  | cons member rest ih =>
      obtain ⟨key, value⟩ := member
      by_cases same : key = name
      · simp [ofMembers, getMember, Json.getMember, same]
      · simp [ofMembers, getMember, Json.getMember, same, ih]

theorem text?_ofJson (value : Json) : (ofJson value).text? = textOf value := by
  cases value <;> rfl

theorem fst_ofMembers (members : List (String × Json))
    : (ofMembers members).map Prod.fst = (members.map Prod.fst).map PathStep.key := by
  induction members with
  | nil => rfl
  | cons member rest ih => simp [ofMembers, ih]

mutual
theorem wellFormed_ofJson {value : Json} (wellFormed : Pyverge.WellFormed value)
    : (ofJson value).WellFormed := by
  cases value with
  | arr items => exact wellFormed_ofItems wellFormed
  | obj members =>
      obtain ⟨nodup, values⟩ := wellFormed
      refine ⟨?_, wellFormed_ofMembers values⟩
      rw [fst_ofMembers]
      exact nodup.map (fun _ _ same => PathStep.key.inj same)
  | null | bool | int | float | str => trivial

theorem wellFormed_ofItems {items : List Json} (wellFormed : Pyverge.WellFormedItems items)
    : WellFormedItems (ofItems items) := by
  cases items with
  | nil => trivial
  | cons item rest => exact ⟨wellFormed_ofJson wellFormed.1, wellFormed_ofItems wellFormed.2⟩

theorem wellFormed_ofMembers {members : List (String × Json)}
    (wellFormed : Pyverge.WellFormedMembers members)
    : WellFormedMembers (ofMembers members) := by
  cases members with
  | nil => trivial
  | cons member rest => exact ⟨wellFormed_ofJson wellFormed.1, wellFormed_ofMembers wellFormed.2⟩
end

-----------------------------------------------------------------------------------------
-- Outermost finds
-----------------------------------------------------------------------------------------

section Finds

variable (matched : Dumped → Option α)

mutual
/-- The mappings that a matcher finds and that do not lie in another one. -/
def outermost : Dumped → List (Path × α)
  | .leaf _ => []
  | .list items => outermostItems 0 items
  | .dict members =>
      match matched (.dict members) with
      | some find => [([], find)]
      | none => outermostMembers members

def outermostItems (place : Nat) : List Dumped → List (Path × α)
  | [] => []
  | item :: rest => (outermost item).map (under (.index place)) ++ outermostItems (place + 1) rest

def outermostMembers : List (PathStep × Dumped) → List (Path × α)
  | [] => []
  | (step, value) :: rest => (outermost value).map (under step) ++ outermostMembers rest
end

end Finds

section Members

variable {matched : Dumped → Option α}

mutual
/-- What is found is matched. -/
theorem matched_of_mem_outermost {seen : Dumped} {find : Path × α}
    (member : find ∈ outermost matched seen)
    : ∃ value, matched value = some find.2 := by
  cases seen with
  | leaf => cases member
  | list items => exact matched_of_mem_outermostItems member
  | dict members =>
      simp only [outermost] at member
      cases hit : matched (.dict members) with
      | none =>
          rw [hit] at member
          exact matched_of_mem_outermostMembers member
      | some own =>
          rw [hit] at member
          obtain rfl := List.mem_singleton.mp member
          exact ⟨_, hit⟩

theorem matched_of_mem_outermostItems {place : Nat} {items : List Dumped} {find : Path × α}
    (member : find ∈ outermostItems matched place items)
    : ∃ value, matched value = some find.2 := by
  cases items with
  | nil => cases member
  | cons item rest =>
      rcases List.mem_append.mp member with here | later
      · obtain ⟨inner, inside, rfl⟩ := List.mem_map.mp here
        obtain ⟨value, hit⟩ := matched_of_mem_outermost inside
        exact ⟨value, hit⟩
      · exact matched_of_mem_outermostItems later

theorem matched_of_mem_outermostMembers {members : List (PathStep × Dumped)} {find : Path × α}
    (member : find ∈ outermostMembers matched members)
    : ∃ value, matched value = some find.2 := by
  cases members with
  | nil => cases member
  | cons first rest =>
      rcases List.mem_append.mp member with here | later
      · obtain ⟨inner, inside, rfl⟩ := List.mem_map.mp here
        obtain ⟨value, hit⟩ := matched_of_mem_outermost inside
        exact ⟨value, hit⟩
      · exact matched_of_mem_outermostMembers later
end

/-- A find in a list begins with one of its later places. -/
theorem mem_outermostItems {place : Nat} {items : List Dumped} {find : Path × α}
    (member : find ∈ outermostItems matched place items)
    : ∃ other rest, place ≤ other ∧ find.1 = .index other :: rest := by
  induction items generalizing place with
  | nil => cases member
  | cons item rest ih =>
      rcases List.mem_append.mp member with here | later
      · obtain ⟨inner, _, rfl⟩ := List.mem_map.mp here
        exact ⟨place, inner.1, Nat.le_refl _, rfl⟩
      · obtain ⟨other, below, least, same⟩ := ih later
        exact ⟨other, below, by omega, same⟩

/-- A find in a mapping begins with one of its keys. -/
theorem mem_outermostMembers {members : List (PathStep × Dumped)} {find : Path × α}
    (member : find ∈ outermostMembers matched members)
    : ∃ step rest, step ∈ members.map Prod.fst ∧ find.1 = step :: rest := by
  induction members with
  | nil => cases member
  | cons first rest ih =>
      rcases List.mem_append.mp member with here | later
      · obtain ⟨inner, _, rfl⟩ := List.mem_map.mp here
        exact ⟨first.1, inner.1, List.mem_cons_self, rfl⟩
      · obtain ⟨step, below, inside, same⟩ := ih later
        exact ⟨step, below, List.mem_cons_of_mem _ inside, same⟩

theorem apart_under {step : PathStep} {found : List (Path × α)}
    (apart : found.Pairwise (fun left right => left.1.Apart right.1))
    : (found.map (under step)).Pairwise (fun left right => left.1.Apart right.1) := by
  rw [List.pairwise_map]
  refine apart.imp (fun away => ⟨?_, ?_⟩)
  · intro initial
    exact away.1 (List.cons_prefix_cons.mp initial).2
  · intro initial
    exact away.2 (List.cons_prefix_cons.mp initial).2

theorem apart_of_steps {step other : PathStep} (differ : step ≠ other) (left right : Path)
    : Path.Apart (step :: left) (other :: right) := by
  refine ⟨?_, ?_⟩
  · intro initial
    exact differ (List.cons_prefix_cons.mp initial).1
  · intro initial
    exact differ (List.cons_prefix_cons.mp initial).1.symm

mutual
/-- Outermost finds are apart. -/
theorem outermost_apart {seen : Dumped} (wellFormed : seen.WellFormed)
    : (outermost matched seen).Pairwise (fun left right => left.1.Apart right.1) := by
  cases seen with
  | leaf => exact .nil
  | list items => exact outermostItems_apart wellFormed 0
  | dict members =>
      simp only [outermost]
      cases matched (.dict members) with
      | some find => exact List.pairwise_singleton _ _
      | none => exact outermostMembers_apart wellFormed.1 wellFormed.2

theorem outermostItems_apart {items : List Dumped} (wellFormed : WellFormedItems items)
    (place : Nat)
    : (outermostItems matched place items).Pairwise (fun left right => left.1.Apart right.1) := by
  cases items with
  | nil => exact .nil
  | cons item rest =>
      refine List.pairwise_append.mpr ⟨apart_under (outermost_apart wellFormed.1),
        outermostItems_apart wellFormed.2 (place + 1), ?_⟩
      intro left here right later
      obtain ⟨inner, _, rfl⟩ := List.mem_map.mp here
      obtain ⟨other, below, least, same⟩ := mem_outermostItems later
      rw [same]
      exact apart_of_steps (fun equal => by cases equal; omega) _ _

theorem outermostMembers_apart {members : List (PathStep × Dumped)}
    (nodup : (members.map Prod.fst).Nodup) (wellFormed : WellFormedMembers members)
    : (outermostMembers matched members).Pairwise (fun left right => left.1.Apart right.1) := by
  cases members with
  | nil => exact .nil
  | cons first rest =>
      obtain ⟨fresh, others⟩ := List.nodup_cons.mp nodup
      refine List.pairwise_append.mpr ⟨apart_under (outermost_apart wellFormed.1),
        outermostMembers_apart others wellFormed.2, ?_⟩
      intro left here right later
      obtain ⟨inner, _, rfl⟩ := List.mem_map.mp here
      obtain ⟨step, below, inside, same⟩ := mem_outermostMembers later
      rw [same]
      refine apart_of_steps (fun equal => ?_) _ _
      rw [equal] at fresh
      exact fresh inside
end

end Members

-----------------------------------------------------------------------------------------
-- A copy and its payload
-----------------------------------------------------------------------------------------

/-- `current[step]` where there is a value, and nothing where that raises. -/
def step? (payload : Option Json) (step : PathStep) : Option Json :=
  payload.bind (fun value => (getItem value step).toOption)

section Follows

variable (matched : Dumped → Option α) (names : α → Json → Prop)

mutual
/-- Copy and payload are walked side by side. Where the copy has a match, the payload has a value
that it names; what the payload lacks has no match.
-/
def Follows : Dumped → Option Json → Prop
  | .leaf _, _ => True
  | .list items, payload => FollowsItems 0 items payload
  | .dict members, payload =>
      match matched (.dict members) with
      | some find => ∃ value, payload = some value ∧ names find value
      | none => FollowsMembers members payload

def FollowsItems (place : Nat) : List Dumped → Option Json → Prop
  | [], _ => True
  | item :: rest, payload =>
      Follows item (step? payload (.index place)) ∧ FollowsItems (place + 1) rest payload

def FollowsMembers : List (PathStep × Dumped) → Option Json → Prop
  | [], _ => True
  | (step, value) :: rest, payload =>
      Follows value (step? payload step) ∧ FollowsMembers rest payload
end

end Follows

/-- The value that a path leads to from what there is of a payload. -/
def reads? (payload : Option Json) (path : Path) : Option Json :=
  payload.bind (fun value => (path.get value).toOption)

theorem reads?_cons (payload : Option Json) (step : PathStep) (path : Path)
    : reads? payload (step :: path) = reads? (step? payload step) path := by
  cases payload with
  | none => rfl
  | some value =>
      simp only [reads?, step?, Option.bind_some, Path.get]
      cases getItem value step with
      | error => rfl
      | ok child => rfl

theorem reads?_some {payload : Json} {path : Path} {value : Json}
    : reads? (some payload) path = some value ↔ path.get payload = .ok value := by
  simp only [reads?, Option.bind_some]
  cases path.get payload with
  | error => simp [Except.toOption]
  | ok found => simp [Except.toOption]

/-- No payload has a value under every key. -/
theorem exists_step?_none (payload : Json)
    : ∃ name, step? (some payload) (.key name) = none := by
  cases payload with
  | obj members =>
      obtain ⟨name, fresh⟩ := Infinite.exists_notMem_finset (members.map Prod.fst).toFinset
      refine ⟨name, ?_⟩
      cases hit : Json.getMember members name with
      | none => simp [step?, getItem, hit, Except.toOption]
      | some value =>
          have listed : name ∈ members.map Prod.fst :=
            List.mem_map.mpr ⟨_, mem_of_getMember hit, rfl⟩
          exact absurd (List.mem_toFinset.mpr listed) fresh
  | null | bool | int | float | str | arr => exact ⟨"", rfl⟩

section Follows

variable {matched : Dumped → Option α} {names : α → Json → Prop}

mutual
/-- Every find is read in the payload and names what is there, exactly if the payload follows. -/
theorem follows_iff {seen : Dumped} {payload : Option Json}
    : (∀ find ∈ outermost matched seen, ∃ value, reads? payload find.1 = some value
        ∧ names find.2 value)
      ↔ Follows matched names seen payload := by
  cases seen with
  | leaf => simp [outermost, Follows]
  | list items => exact followsItems_iff
  | dict members =>
      simp only [outermost, Follows]
      cases matched (.dict members) with
      | none => exact followsMembers_iff
      | some find =>
          have whole : reads? payload [] = payload := by cases payload <;> rfl
          simp [whole]

theorem followsItems_iff {place : Nat} {items : List Dumped} {payload : Option Json}
    : (∀ find ∈ outermostItems matched place items, ∃ value, reads? payload find.1 = some value
        ∧ names find.2 value)
      ↔ FollowsItems matched names place items payload := by
  cases items with
  | nil => simp [outermostItems, FollowsItems]
  | cons item rest =>
      rw [FollowsItems, ← follows_iff, ← followsItems_iff, outermostItems, List.forall_mem_append,
        List.forall_mem_map]
      simp only [under, reads?_cons]

theorem followsMembers_iff {members : List (PathStep × Dumped)} {payload : Option Json}
    : (∀ find ∈ outermostMembers matched members, ∃ value, reads? payload find.1 = some value
        ∧ names find.2 value)
      ↔ FollowsMembers matched names members payload := by
  cases members with
  | nil => simp [outermostMembers, FollowsMembers]
  | cons first rest =>
      obtain ⟨step, value⟩ := first
      rw [FollowsMembers, ← follows_iff, ← followsMembers_iff, outermostMembers,
        List.forall_mem_append, List.forall_mem_map]
      simp only [under, reads?_cons]
end

/-- A payload does not follow a copy that has a match under a key that the payload lacks. -/
theorem not_follows_added {name : String} {members : List (PathStep × Dumped)} {find : α}
    {payload : Json} (outer : matched (.dict [(.key name, .dict members)]) = none)
    (inner : matched (.dict members) = some find) (fresh : step? (some payload) (.key name) = none)
    : ¬ Follows matched names (.dict [(.key name, .dict members)]) (some payload) := by
  intro follows
  simp only [Follows, outer, FollowsMembers, inner, fresh] at follows
  obtain ⟨⟨_, present, _⟩, _⟩ := follows
  cases present

end Follows

end Dumped

-----------------------------------------------------------------------------------------
-- Versions that mappings name
-----------------------------------------------------------------------------------------

variable [DecidableEq V] [VersionValue V]

section Named

variable {graph : MigrationGraph V} {kp vp : String}

omit [DecidableEq V] [VersionValue V] in
theorem bind_textOf_eq_some {member : Option Json} {text : String}
    : member.bind textOf = some text ↔ member = some (.str text) := by
  rcases member with _ | value
  · simp
  · cases value <;> simp [textOf]

/-- A mapping is matched by the texts of its kind and its version. -/
theorem MigrationGraph.matchPayload_eq_none {members : List (String × Json)}
    (untold : (Json.getMember members kp).bind textOf = none
      ∨ (Json.getMember members vp).bind textOf = none)
    : graph.matchPayload kp vp (.obj members) = none := by
  simp only [matchPayload]
  split
  case h_1 kind text named told => simp [named, told, textOf] at untold
  case h_2 => rfl

theorem MigrationGraph.matchesTexts (graph : MigrationGraph V) (kp vp : String)
    : MatchesTexts (graph.matchPayload kp vp) where
  mapping := by
    intro value node hit
    cases value with
    | obj members => exact ⟨members, rfl⟩
    | arr | null | bool | int | float | str => cases hit
  texts := by
    intro members others same
    have kinds := same kp
    have versions := same vp
    cases kind : (Json.getMember others kp).bind textOf with
    | none =>
        rw [matchPayload_eq_none (.inl (kinds.trans kind)), matchPayload_eq_none (.inl kind)]
    | some _ =>
        cases text : (Json.getMember others vp).bind textOf with
        | none =>
            rw [matchPayload_eq_none (.inr (versions.trans text)), matchPayload_eq_none (.inr text)]
        | some _ =>
            have ours := bind_textOf_eq_some.mp (kinds.trans kind)
            have theirs := bind_textOf_eq_some.mp (versions.trans text)
            rw [bind_textOf_eq_some] at kind text
            simp only [matchPayload, kind, text, ours, theirs]

/-- Of a mapping, only the texts under the two keys count. -/
theorem MigrationGraph.matchPayload_texts {members : List (String × Json)} {kind text : String}
    (named : Json.getMember members kp = some (.str kind))
    (told : Json.getMember members vp = some (.str text))
    : graph.matchPayload kp vp (.obj [(kp, .str kind), (vp, .str text)])
      = graph.matchPayload kp vp (.obj members) := by
  have first : Json.getMember [(kp, .str kind), (vp, .str text)] kp = some (.str kind) := by
    simp [Json.getMember]
  have second : Json.getMember [(kp, .str kind), (vp, .str text)] vp = some (.str text) := by
    by_cases same : kp = vp
    · subst same
      obtain rfl := Json.str.inj (Option.some.inj (named.symm.trans told))
      exact first
    · simp [Json.getMember, same]
  simp only [matchPayload, first, second, named, told]

/-- What two texts name is named by a mapping that has every key once. -/
theorem MigrationGraph.exists_matchPayload {kind text : String} {node : VersionNode V}
    (named : graph.matchPayload kp vp (.obj [(kp, .str kind), (vp, .str text)]) = some node)
    : ∃ members, Pyverge.WellFormed (.obj members)
        ∧ graph.matchPayload kp vp (.obj members) = some node := by
  by_cases same : kp = vp
  · subst same
    refine ⟨[(kp, .str kind)], ?_, ?_⟩
    · simp [Pyverge.WellFormed, Pyverge.WellFormedMembers]
    · simpa [matchPayload, Json.getMember] using named
  · refine ⟨[(kp, .str kind), (vp, .str text)], ?_, named⟩
    simp [Pyverge.WellFormed, Pyverge.WellFormedMembers, same]

end Named

-----------------------------------------------------------------------------------------
-- Versions that dumped values name
-----------------------------------------------------------------------------------------

/-- `_match` of a dumped value: the texts under the two keys are looked up as those of a payload. -/
def MigrationGraph.matchDumped (graph : MigrationGraph V) (kindProperty versionProperty : String)
    (value : Dumped) : Option (VersionNode V) :=
  match value with
  | .dict members =>
      match (Dumped.getMember members kindProperty).bind Dumped.text?,
        (Dumped.getMember members versionProperty).bind Dumped.text? with
      | some kind, some text =>
          graph.matchPayload kindProperty versionProperty
            (.obj [(kindProperty, .str kind), (versionProperty, .str text)])
      | _, _ => none
  | _ => none

variable {graph : MigrationGraph V} {kp vp : String}

theorem MigrationGraph.matchDumped_dict {members : List (PathStep × Dumped)} {kind text : String}
    (named : (Dumped.getMember members kp).bind Dumped.text? = some kind)
    (told : (Dumped.getMember members vp).bind Dumped.text? = some text)
    : graph.matchDumped kp vp (.dict members)
      = graph.matchPayload kp vp (.obj [(kp, .str kind), (vp, .str text)]) := by
  simp only [matchDumped, named, told]

/-- A mapping names a version by two texts. -/
theorem MigrationGraph.matchDumped_eq_some {value : Dumped} {node : VersionNode V}
    : graph.matchDumped kp vp value = some node
      ↔ ∃ members kind text, value = .dict members
        ∧ (Dumped.getMember members kp).bind Dumped.text? = some kind
        ∧ (Dumped.getMember members vp).bind Dumped.text? = some text
        ∧ graph.matchPayload kp vp (.obj [(kp, .str kind), (vp, .str text)]) = some node := by
  constructor
  · intro hit
    cases value with
    | leaf | list => cases hit
    | dict members =>
        simp only [matchDumped] at hit
        split at hit
        case h_1 kind text named told => exact ⟨members, kind, text, rfl, named, told, hit⟩
        case h_2 => cases hit
  · rintro ⟨members, kind, text, rfl, named, told, hit⟩
    rw [matchDumped_dict named told]
    exact hit

/-- A mapping in which nothing but another mapping lies names nothing. -/
theorem MigrationGraph.matchDumped_nested (step : PathStep) (members : List (PathStep × Dumped))
    : graph.matchDumped kp vp (.dict [(step, .dict members)]) = none := by
  have untold : ∀ name, (Dumped.getMember [(step, .dict members)] name).bind Dumped.text?
      = none := by
    intro name
    by_cases same : step = .key name
    · simp [Dumped.getMember, same, Dumped.text?]
    · simp [Dumped.getMember, same]
  simp only [matchDumped, untold]

/-- What is dumped as it is names what it names as a payload. -/
theorem MigrationGraph.matchDumped_ofJson (value : Json)
    : graph.matchDumped kp vp (.ofJson value) = graph.matchPayload kp vp value := by
  cases value with
  | obj members =>
      have dumped : ∀ key, (Dumped.getMember (Dumped.ofMembers members) key).bind Dumped.text?
          = (Json.getMember members key).bind textOf := by
        intro key
        rw [Dumped.getMember_ofMembers, Option.bind_map]
        exact Option.bind_congr (fun value _ => Dumped.text?_ofJson value)
      simp only [Dumped.ofJson, matchDumped, dumped]
      cases kind : (Json.getMember members kp).bind textOf with
      | none => exact (matchPayload_eq_none (.inl kind)).symm
      | some name =>
          cases told : (Json.getMember members vp).bind textOf with
          | none => exact (matchPayload_eq_none (.inr told)).symm
          | some text =>
              exact matchPayload_texts (bind_textOf_eq_some.mp kind) (bind_textOf_eq_some.mp told)
  | null | bool | int | float | str | arr => rfl

mutual
/-- Outermost finds of a payload that is walked as it is. -/
theorem outermost_ofJson (value : Json)
    : (Dumped.ofJson value).outermost (graph.matchDumped kp vp)
      = finds false (graph.matchPayload kp vp) value := by
  cases value with
  | arr items => exact outermost_ofItems 0 items
  | obj members =>
      have same : graph.matchDumped kp vp (.dict (Dumped.ofMembers members))
          = graph.matchPayload kp vp (.obj members) := graph.matchDumped_ofJson (.obj members)
      cases hit : graph.matchPayload kp vp (.obj members) with
      | none =>
          simp only [Dumped.ofJson, Dumped.outermost, same, hit, finds, own, descends]
          exact outermost_ofMembers members
      | some node => simp [Dumped.ofJson, Dumped.outermost, same, hit, finds, own, descends]
  | null | bool | int | float | str => rfl

theorem outermost_ofItems (place : Nat) (items : List Json)
    : Dumped.outermostItems (graph.matchDumped kp vp) place (Dumped.ofItems items)
      = findsItems false (graph.matchPayload kp vp) place items := by
  cases items with
  | nil => rfl
  | cons item rest =>
      rw [Dumped.ofItems, Dumped.outermostItems, outermost_ofJson, outermost_ofItems, findsItems]

theorem outermost_ofMembers (members : List (String × Json))
    : Dumped.outermostMembers (graph.matchDumped kp vp) (Dumped.ofMembers members)
      = findsMembers false (graph.matchPayload kp vp) members := by
  cases members with
  | nil => rfl
  | cons member rest =>
      obtain ⟨name, value⟩ := member
      rw [Dumped.ofMembers, Dumped.outermostMembers, outermost_ofJson, outermost_ofMembers,
        findsMembers]
end

end Pyverge
