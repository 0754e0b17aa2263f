import Mathlib.Data.List.Basic
import Mathlib.Data.List.Nodup

/-! JSON values as trees.
Objects keep their members in insertion order; a float is kept as the text of its literal.
-/

namespace Py

inductive Json where
  | null
  | bool (value : Bool)
  | int (value : Int)
  | float (literal : String)
  | str (value : String)
  | arr (items : List Json)
  | obj (members : List (String × Json))
  deriving Repr, Inhabited

namespace Json

mutual
def decEq : (left right : Json) → Decidable (left = right)
  | .null, .null => isTrue rfl
  | .bool a, .bool b => decidable_of_iff (a = b) (by simp)
  | .int a, .int b => decidable_of_iff (a = b) (by simp)
  | .float a, .float b => decidable_of_iff (a = b) (by simp)
  | .str a, .str b => decidable_of_iff (a = b) (by simp)
  | .arr a, .arr b =>
      match decEqItems a b with
      | isTrue same => isTrue (by rw [same])
      | isFalse differ => isFalse (by simpa using differ)
  | .obj a, .obj b =>
      match decEqMembers a b with
      | isTrue same => isTrue (by rw [same])
      | isFalse differ => isFalse (by simpa using differ)
  | .null, .bool _ | .null, .int _ | .null, .float _ | .null, .str _ | .null, .arr _
  | .null, .obj _ => isFalse (by simp)
  | .bool _, .null | .bool _, .int _ | .bool _, .float _ | .bool _, .str _ | .bool _, .arr _
  | .bool _, .obj _ => isFalse (by simp)
  | .int _, .null | .int _, .bool _ | .int _, .float _ | .int _, .str _ | .int _, .arr _
  | .int _, .obj _ => isFalse (by simp)
  | .float _, .null | .float _, .bool _ | .float _, .int _ | .float _, .str _ | .float _, .arr _
  | .float _, .obj _ => isFalse (by simp)
  | .str _, .null | .str _, .bool _ | .str _, .int _ | .str _, .float _ | .str _, .arr _
  | .str _, .obj _ => isFalse (by simp)
  | .arr _, .null | .arr _, .bool _ | .arr _, .int _ | .arr _, .float _ | .arr _, .str _
  | .arr _, .obj _ => isFalse (by simp)
  | .obj _, .null | .obj _, .bool _ | .obj _, .int _ | .obj _, .float _ | .obj _, .str _
  | .obj _, .arr _ => isFalse (by simp)

def decEqItems : (left right : List Json) → Decidable (left = right)
  | [], [] => isTrue rfl
  | [], _ :: _ | _ :: _, [] => isFalse (by simp)
  | a :: as, b :: bs =>
      match decEq a b, decEqItems as bs with
      | isTrue head, isTrue tail => isTrue (by rw [head, tail])
      | isFalse differ, _ => isFalse (by simp [differ])
      | _, isFalse differ => isFalse (by simp [differ])

def decEqMembers : (left right : List (String × Json)) → Decidable (left = right)
  | [], [] => isTrue rfl
  | [], _ :: _ | _ :: _, [] => isFalse (by simp)
  | (k, a) :: as, (l, b) :: bs =>
      match decEq a b, decEqMembers as bs with
      | isTrue head, isTrue tail => decidable_of_iff (k = l) (by simp [head, tail])
      | isFalse differ, _ => isFalse (by simp [differ])
      | _, isFalse differ => isFalse (by simp [differ])
end

instance : DecidableEq Json := decEq

/-- Python's truth of a value; a float is written the way `repr` does. -/
def truthy : Json → Bool
  | .null => false
  | .bool value => value
  | .int value => value ≠ 0
  | .float literal => literal ≠ "0.0" && literal ≠ "-0.0"
  | .str value => value ≠ ""
  | .arr items => !items.isEmpty
  | .obj members => !members.isEmpty

/-- The value of a key in the members of an object. -/
def getMember (members : List (String × Json)) (key : String) : Option Json :=
  match members with
  | [] => none
  | (name, value) :: rest => if name = key then some value else getMember rest key

/-- Assign a key: a present one keeps its place, a new one is appended. -/
def setMember (members : List (String × Json)) (key : String) (value : Json)
    : List (String × Json) :=
  match members with
  | [] => [(key, value)]
  | (name, old) :: rest =>
      if name = key then (key, value) :: rest else (name, old) :: setMember rest key value

variable {members : List (String × Json)} {key other : String} {value : Json}

theorem getMember_setMember (members : List (String × Json)) (key other : String) (value : Json)
    : getMember (setMember members key value) other
      = if key = other then some value else getMember members other := by
  induction members with
  | nil => simp [setMember, getMember]
  | cons head rest ih =>
      obtain ⟨name, old⟩ := head
      by_cases hit : name = key
      · subst hit
        by_cases same : name = other <;> simp [setMember, getMember, same]
      · simp only [setMember, if_neg hit, getMember, ih]
        by_cases same : name = other
        · subst same
          simp [Ne.symm hit]
        · simp [same]

theorem setMember_setMember (members : List (String × Json)) (key : String) (value later : Json)
    : setMember (setMember members key value) key later = setMember members key later := by
  induction members with
  | nil => simp [setMember]
  | cons head rest ih =>
      obtain ⟨name, old⟩ := head
      by_cases hit : name = key <;> simp [setMember, hit, ih]

/-- Assigning a key the value it has changes nothing. -/
theorem setMember_getMember (present : getMember members key = some value)
    : setMember members key value = members := by
  induction members with
  | nil => simp [getMember] at present
  | cons head rest ih =>
      obtain ⟨name, old⟩ := head
      by_cases hit : name = key
      · subst hit
        simp only [getMember, if_true, Option.some.injEq] at present
        simp [setMember, present]
      · simp only [getMember, if_neg hit] at present
        simp [setMember, hit, ih present]

/-- Assignments to two different keys commute if one of them is present. -/
theorem setMember_comm (ne : key ≠ other) (present : (getMember members key).isSome)
    (value later : Json)
    : setMember (setMember members key value) other later
      = setMember (setMember members other later) key value := by
  induction members with
  | nil => simp [getMember] at present
  | cons head rest ih =>
      obtain ⟨name, old⟩ := head
      by_cases hit : name = key
      · subst hit
        simp [setMember, ne]
      · by_cases same : name = other
        · subst same
          simp [setMember, hit]
        · simp only [getMember, if_neg hit] at present
          simp [setMember, hit, same, ih present]

end Json

end Py
