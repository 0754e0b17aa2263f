import Pyverge.Py.Json
import Mathlib.Data.List.Perm.Basic
import Mathlib.Data.List.Sort
import Mathlib.Data.String.Basic

/-! The canonical form of a JSON value sorts the members of every object.
Values with one canonical form render the same, and a self-delimiting text tells canonical forms
apart.
-/

namespace Py

namespace Json

-----------------------------------------------------------------------------------------
-- Canonical forms
-----------------------------------------------------------------------------------------

def sortMembers (members : List (String × Json)) : List (String × Json) :=
  members.insertionSort (fun left right => left.1 ≤ right.1)

mutual
/-- Sort the members of every object by their keys. -/
def canonical : Json → Json
  | .null => .null
  | .bool value => .bool value
  | .int value => .int value
  | .float literal => .float literal
  | .str value => .str value
  | .arr items => .arr (canonicalItems items)
  | .obj members => .obj (sortMembers (canonicalMembers members))

def canonicalItems : List Json → List Json
  | [] => []
  | item :: rest => item.canonical :: canonicalItems rest

def canonicalMembers : List (String × Json) → List (String × Json)
  | [] => []
  | (key, value) :: rest => (key, value.canonical) :: canonicalMembers rest
end

theorem canonicalItems_eq_map (items : List Json)
    : canonicalItems items = items.map canonical := by
  induction items with
  | nil => rfl
  | cons item rest ih => rw [canonicalItems, ih, List.map_cons]

theorem canonicalMembers_eq_map (members : List (String × Json))
    : canonicalMembers members = members.map (fun member => (member.1, member.2.canonical)) := by
  induction members with
  | nil => rfl
  | cons member rest ih => rw [canonicalMembers, ih, List.map_cons]

@[simp]
theorem canonical_arr_inj {left right : List Json}
    : (Json.arr left).canonical = (Json.arr right).canonical
      ↔ left.map canonical = right.map canonical := by
  simp only [canonical, Json.arr.injEq, canonicalItems_eq_map]

/-- Arrays of values that can be read back are equal exactly if they are built from the same. -/
theorem canonical_arr_map_inj {α β γ : Type} {item : γ → Json}
    (inj : ∀ one other, (item one).canonical = (item other).canonical → one = other)
    {first : α → γ} {second : β → γ} {left : List α} {right : List β}
    : (Json.arr (left.map (fun value => item (first value)))).canonical
        = (Json.arr (right.map (fun value => item (second value)))).canonical
      ↔ left.map first = right.map second := by
  have inside : ∀ {δ : Type} (part : δ → γ) (values : List δ),
      (values.map (fun value => item (part value))).map canonical
        = (values.map part).map (fun value => (item value).canonical) := by
    intro δ part values
    rw [List.map_map, List.map_map]
    rfl
  rw [canonical_arr_inj, inside, inside]
  exact (List.map_injective_iff.mpr inj).eq_iff

@[simp]
theorem canonical_str_inj {left right : String}
    : (Json.str left).canonical = (Json.str right).canonical ↔ left = right := by
  simp [canonical]

@[simp]
theorem canonical_bool_inj {left right : Bool}
    : (Json.bool left).canonical = (Json.bool right).canonical ↔ left = right := by
  simp [canonical]

/-- Sorted lists of the same members are equal when no key is repeated. -/
theorem sortMembers_eq_iff {left right : List (String × Json)}
    (nodup : (left.map Prod.fst).Nodup)
    : sortMembers left = sortMembers right ↔ left.Perm right := by
  constructor
  · intro same
    have first := List.perm_insertionSort (fun l r : String × Json => l.1 ≤ r.1) left
    have second := List.perm_insertionSort (fun l r : String × Json => l.1 ≤ r.1) right
    exact first.symm.trans ((List.Perm.of_eq same).trans second)
  · intro perm
    have total : Std.Total (fun l r : String × Json => l.1 ≤ r.1) := ⟨fun l r => le_total l.1 r.1⟩
    have trans : IsTrans (String × Json) (fun l r => l.1 ≤ r.1) := ⟨fun _ _ _ => le_trans⟩
    have first := List.perm_insertionSort (fun l r : String × Json => l.1 ≤ r.1) left
    have second := List.perm_insertionSort (fun l r : String × Json => l.1 ≤ r.1) right
    refine List.Perm.eq_of_pairwise (fun l r inLeft inRight below above => ?_)
      (List.pairwise_insertionSort _ _) (List.pairwise_insertionSort _ _)
      (first.trans (perm.trans second.symm))
    have inOther := perm.mem_iff.mpr (second.mem_iff.mp inRight)
    exact List.inj_on_of_nodup_map nodup (first.mem_iff.mp inLeft) inOther
      (le_antisymm below above)

theorem sortMembers_sortMembers (members : List (String × Json))
    : sortMembers (sortMembers members) = sortMembers members := by
  have total : Std.Total (fun l r : String × Json => l.1 ≤ r.1) := ⟨fun l r => le_total l.1 r.1⟩
  have trans : IsTrans (String × Json) (fun l r => l.1 ≤ r.1) := ⟨fun _ _ _ => le_trans⟩
  exact (List.pairwise_insertionSort _ members).insertionSort_eq

/-- Lists of members with the same keys in the same order are permutations only if equal. -/
theorem perm_iff_eq {left right : List (String × Json)}
    (keys : left.map Prod.fst = right.map Prod.fst) (nodup : (left.map Prod.fst).Nodup)
    : left.Perm right ↔ left = right := by
  constructor
  · intro perm
    induction left generalizing right with
    | nil => exact (List.nil_perm.mp perm).symm
    | cons member rest ih =>
        cases right with
        | nil => cases keys
        | cons other others =>
            obtain ⟨sameKey, restKeys⟩ := List.cons.inj keys
            have listed : member ∈ other :: others := perm.mem_iff.mp (List.mem_cons_self ..)
            have equal : member = other := by
              refine List.inj_on_of_nodup_map (keys ▸ nodup) listed (List.mem_cons_self ..) ?_
              exact sameKey
            subst equal
            rw [ih restKeys (List.nodup_cons.mp nodup).2 (List.Perm.cons_inv perm)]
  · exact List.Perm.of_eq

/-- Objects with the same keys in the same order have one canonical form exactly if their values
have.
-/
theorem canonical_obj_inj {left right : List (String × Json)}
    (keys : left.map Prod.fst = right.map Prod.fst) (nodup : (left.map Prod.fst).Nodup)
    : (Json.obj left).canonical = (Json.obj right).canonical
      ↔ left.map (fun member => member.2.canonical)
        = right.map (fun member => member.2.canonical) := by
  have kept : ∀ members : List (String × Json),
      (canonicalMembers members).map Prod.fst = members.map Prod.fst := by
    intro members
    rw [canonicalMembers_eq_map, List.map_map]
    rfl
  simp only [canonical, Json.obj.injEq]
  rw [sortMembers_eq_iff ((kept left).symm ▸ nodup),
    perm_iff_eq (by rw [kept, kept, keys]) ((kept left).symm ▸ nodup)]
  simp only [canonicalMembers_eq_map]
  constructor
  · intro same
    have values := congrArg (List.map Prod.snd) same
    simpa only [List.map_map, Function.comp_def] using values
  · intro values
    have pairs := congrArg₂ List.zip keys values
    simpa only [List.zip_map'] using pairs

/-- Members that are canonically equal are as many. -/
theorem length_eq_of_canonical_obj {left right : List (String × Json)}
    (same : (Json.obj left).canonical = (Json.obj right).canonical)
    : left.length = right.length := by
  have length : ∀ members, (sortMembers (canonicalMembers members)).length = members.length := by
    intro members
    rw [sortMembers, List.length_insertionSort, canonicalMembers_eq_map, List.length_map]
  simp only [canonical, Json.obj.injEq] at same
  rw [← length left, ← length right, same]

/-- The members of objects with one canonical form correspond. -/
theorem perm_of_canonical_obj {left right : List (String × Json)}
    (same : (Json.obj left).canonical = (Json.obj right).canonical)
    : (left.map (fun member => (member.1, member.2.canonical))).Perm
        (right.map (fun member => (member.1, member.2.canonical))) := by
  simp only [canonical, Json.obj.injEq, canonicalMembers_eq_map] at same
  have first := List.perm_insertionSort (fun l r : String × Json => l.1 ≤ r.1)
    (left.map (fun member => (member.1, member.2.canonical)))
  have second := List.perm_insertionSort (fun l r : String × Json => l.1 ≤ r.1)
    (right.map (fun member => (member.1, member.2.canonical)))
  exact first.symm.trans ((List.Perm.of_eq same).trans second)

/-- A key that is not repeated has the value it is listed with. -/
theorem getMember_eq_some_iff {members : List (String × Json)} {key : String} {value : Json}
    (nodup : (members.map Prod.fst).Nodup)
    : getMember members key = some value ↔ (key, value) ∈ members := by
  induction members with
  | nil => simp [getMember]
  | cons member rest ih =>
      obtain ⟨name, first⟩ := member
      obtain ⟨fresh, later⟩ := List.nodup_cons.mp nodup
      rw [getMember, List.mem_cons, Prod.mk.injEq]
      by_cases hit : name = key
      · subst hit
        have absent : (name, value) ∉ rest := fun listed =>
          fresh (List.mem_map.mpr ⟨(name, value), listed, rfl⟩)
        simp [absent, eq_comm]
      · simp [hit, Ne.symm hit, ih later]

theorem getMember_append (left right : List (String × Json)) (key : String)
    : getMember (left ++ right) key
      = (getMember left key).or (getMember right key) := by
  induction left with
  | nil => rfl
  | cons member rest ih =>
      rw [List.cons_append, getMember, getMember]
      by_cases hit : member.1 = key
      · rw [if_pos hit, if_pos hit, Option.some_or]
      · rw [if_neg hit, if_neg hit, ih]

theorem getMember_map (change : Json → Json) (members : List (String × Json)) (key : String)
    : getMember (members.map (fun member => (member.1, change member.2))) key
      = (getMember members key).map change := by
  induction members with
  | nil => rfl
  | cons member rest ih =>
      rw [List.map_cons, getMember, getMember]
      split
      · rfl
      · exact ih

/-- Objects with one canonical form agree on every key. -/
theorem getMember_canonical {left right : List (String × Json)}
    (leftNodup : (left.map Prod.fst).Nodup) (rightNodup : (right.map Prod.fst).Nodup)
    (same : (Json.obj left).canonical = (Json.obj right).canonical) (key : String)
    : (getMember left key).map canonical = (getMember right key).map canonical := by
  have keys : ∀ members : List (String × Json),
      (members.map (fun member => (member.1, member.2.canonical))).map Prod.fst
        = members.map Prod.fst := by
    intro members
    rw [List.map_map]
    rfl
  have perm := perm_of_canonical_obj same
  apply Option.ext
  intro value
  rw [← getMember_map, ← getMember_map, getMember_eq_some_iff ((keys left).symm ▸ leftNodup),
    getMember_eq_some_iff ((keys right).symm ▸ rightNodup), perm.mem_iff]

-----------------------------------------------------------------------------------------
-- A self-delimiting text
-----------------------------------------------------------------------------------------

def countTokens : Nat → List Char
  | 0 => ['0']
  | count + 1 => '1' :: countTokens count

def textTokens : List Char → List Char
  | [] => ['.']
  | char :: rest => '_' :: char :: textTokens rest

mutual
/-- A text from which the value can be read back, whatever follows it. -/
def tokens : Json → List Char
  | .null => ['n']
  | .bool true => ['t']
  | .bool false => ['f']
  | .int (.ofNat value) => 'p' :: countTokens value
  | .int (.negSucc value) => 'm' :: countTokens value
  | .float literal => 'x' :: textTokens literal.toList
  | .str value => 's' :: textTokens value.toList
  | .arr items => 'a' :: itemTokens items
  | .obj members => 'o' :: memberTokens members

def itemTokens : List Json → List Char
  | [] => ['.']
  | item :: rest => '_' :: (item.tokens ++ itemTokens rest)

def memberTokens : List (String × Json) → List Char
  | [] => ['.']
  | (key, value) :: rest =>
      '_' :: (textTokens key.toList ++ (value.tokens ++ memberTokens rest))
end

theorem countTokens_append_inj {left right : Nat} {after rest : List Char}
    (same : countTokens left ++ after = countTokens right ++ rest)
    : left = right ∧ after = rest := by
  induction left generalizing right with
  | zero =>
      cases right with
      | zero => simpa [countTokens] using same
      | succ right => simp [countTokens] at same
  | succ left ih =>
      cases right with
      | zero => simp [countTokens] at same
      | succ right =>
          obtain ⟨equal, tail⟩ := ih (List.cons.inj same).2
          exact ⟨congrArg Nat.succ equal, tail⟩

theorem textTokens_append_inj {left right after rest : List Char}
    (same : textTokens left ++ after = textTokens right ++ rest)
    : left = right ∧ after = rest := by
  induction left generalizing right with
  | nil =>
      cases right with
      | nil => simpa [textTokens] using same
      | cons char right => simp [textTokens] at same
  | cons char left ih =>
      cases right with
      | nil => simp [textTokens] at same
      | cons other right =>
          simp only [textTokens, List.cons_append, List.cons.injEq, true_and] at same
          obtain ⟨equal, tail⟩ := ih same.2
          exact ⟨by rw [same.1, equal], tail⟩

mutual
/-- The text of a value ends where the value does, by induction on the value. -/
theorem tokens_append_inj : ∀ {left right : Json} {after rest : List Char},
    left.tokens ++ after = right.tokens ++ rest → left = right ∧ after = rest
  | .null, right, after, rest, same => by
      rcases right with _ | (_ | _) | (_ | _) | _ | _ | _ | _ <;> simp_all [tokens]
  | .bool value, right, after, rest, same => by
      rcases value <;>
        rcases right with _ | (_ | _) | (_ | _) | _ | _ | _ | _ <;> simp_all [tokens]
  | .int value, right, after, rest, same => by
      rcases value with value | value
      all_goals
        rcases right with _ | (_ | _) | (other | other) | _ | _ | _ | _ <;>
          simp only [tokens, List.cons_append, List.cons.injEq, false_and,
            Char.reduceEq] at same
        obtain ⟨rfl, rfl⟩ := countTokens_append_inj same.2
        exact ⟨rfl, rfl⟩
  | .float literal, right, after, rest, same => by
      rcases right with _ | (_ | _) | (_ | _) | other | _ | _ | _ <;>
        simp only [tokens, List.cons_append, List.cons.injEq, false_and,
          Char.reduceEq] at same
      obtain ⟨equal, rfl⟩ := textTokens_append_inj same.2
      exact ⟨congrArg Json.float (String.toList_inj.mp equal), rfl⟩
  | .str value, right, after, rest, same => by
      rcases right with _ | (_ | _) | (_ | _) | _ | other | _ | _ <;>
        simp only [tokens, List.cons_append, List.cons.injEq, false_and,
          Char.reduceEq] at same
      obtain ⟨equal, rfl⟩ := textTokens_append_inj same.2
      exact ⟨congrArg Json.str (String.toList_inj.mp equal), rfl⟩
  | .arr items, right, after, rest, same => by
      rcases right with _ | (_ | _) | (_ | _) | _ | _ | others | _ <;>
        simp only [tokens, List.cons_append, List.cons.injEq, false_and,
          Char.reduceEq] at same
      obtain ⟨rfl, rfl⟩ := itemTokens_append_inj same.2
      exact ⟨rfl, rfl⟩
  | .obj members, right, after, rest, same => by
      rcases right with _ | (_ | _) | (_ | _) | _ | _ | _ | others <;>
        simp only [tokens, List.cons_append, List.cons.injEq, false_and,
          Char.reduceEq] at same
      obtain ⟨rfl, rfl⟩ := memberTokens_append_inj same.2
      exact ⟨rfl, rfl⟩

theorem itemTokens_append_inj : ∀ {left right : List Json} {after rest : List Char},
    itemTokens left ++ after = itemTokens right ++ rest → left = right ∧ after = rest
  | [], right, after, rest, same => by
      cases right <;> simp_all [itemTokens]
  | item :: left, right, after, rest, same => by
      cases right with
      | nil => simp [itemTokens] at same
      | cons other right =>
          simp only [itemTokens, List.cons_append, List.append_assoc, List.cons.injEq,
            true_and] at same
          obtain ⟨rfl, later⟩ := tokens_append_inj same
          obtain ⟨rfl, rfl⟩ := itemTokens_append_inj later
          exact ⟨rfl, rfl⟩

theorem memberTokens_append_inj : ∀ {left right : List (String × Json)} {after rest : List Char},
    memberTokens left ++ after = memberTokens right ++ rest → left = right ∧ after = rest
  | [], right, after, rest, same => by
      cases right <;> simp_all [memberTokens]
  | (key, value) :: left, right, after, rest, same => by
      rcases right with _ | ⟨⟨otherKey, other⟩, right⟩
      · simp [memberTokens] at same
      · simp only [memberTokens, List.cons_append, List.append_assoc, List.cons.injEq,
          true_and] at same
        obtain ⟨keys, later⟩ := textTokens_append_inj same
        obtain ⟨rfl, tail⟩ := tokens_append_inj later
        obtain ⟨rfl, rfl⟩ := memberTokens_append_inj tail
        exact ⟨by rw [String.toList_inj.mp keys], rfl⟩
end

/-- One text for all values of a canonical form. -/
def render (value : Json) : String := String.ofList value.canonical.tokens

/-- Values render the same exactly if their canonical forms are equal. -/
theorem render_eq_iff {left right : Json}
    : left.render = right.render ↔ left.canonical = right.canonical := by
  constructor
  · intro same
    have text := String.ofList_inj.mp same
    exact (@tokens_append_inj _ _ [] [] (by rw [List.append_nil, List.append_nil, text])).1
  · intro same
    rw [render, render, same]

end Json

end Py
