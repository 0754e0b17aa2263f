import Pyverge.Py.Lists
import Pyverge.Versioning.Edges

/-! Queries over the field changes of a diff, and the identity properties outside of them.
Each query lists the fields of one status in the order of their names.
-/

namespace Pyverge

variable {V : Type}

/-- The identity policy of the model adapters. -/
structure ModelCodec where
  versionProperty : String
  kindProperty : String
  nameSpace : String
  named : nameSpace ≠ ""

def ModelCodec.identity (codec : ModelCodec) : List String :=
  [codec.versionProperty, codec.kindProperty]

/-- An addition and a removal trade places. -/
def FieldStatus.inverted : FieldStatus → FieldStatus
  | .added => .removed
  | .removed => .added
  | .modified => .modified
  | .unchanged => .unchanged

namespace Diff

/-- The status that a diff gives a field it knows. -/
def status? (diff : Diff V) (name : String) : Option FieldStatus :=
  (diff.fields.get? name).map FieldChange.status

/-- The names of the fields with one status, sorted. -/
def namesWith (diff : Diff V) (status : FieldStatus) : List String :=
  ((diff.fields.items.filter (fun field => field.2.status = status)).map Prod.fst).insertionSort
    (fun left right => left ≤ right)

/-- The details of the fields with one status, sorted by name. -/
def detailsWith (diff : Diff V) (status : FieldStatus)
    : Py.Dict String (List (String × Py.Json)) :=
  Py.Dict.ofItems (((diff.fields.items.insertionSort (fun left right => left.1 ≤ right.1)).filter
    (fun field => field.2.status = status)).map (fun field => (field.1, field.2.details)))

def addedFields (diff : Diff V) : List String := diff.namesWith .added

def removedFields (diff : Diff V) : List String := diff.namesWith .removed

def modifiedFields (diff : Diff V) : Py.Dict String (List (String × Py.Json)) :=
  diff.detailsWith .modified

def addedFieldInfo (diff : Diff V) : Py.Dict String (List (String × Py.Json)) :=
  diff.detailsWith .added

def unchangedFields (diff : Diff V) : List String := diff.namesWith .unchanged

/-- The recorded default of an added field, `None` if there is none. -/
def addedDefault (diff : Diff V) (name : String) : Py.Json :=
  ((diff.addedFieldInfo.get? name).bind (Py.Json.getMember · "default")).getD .null

/-- The diff with additions and removals swapped, between the same ends. -/
def inverted (diff : Diff V) : Diff V where
  source := diff.source
  target := diff.target
  fields := diff.fields.mapValues (fun change => ⟨change.status.inverted, change.details⟩)
  origin := diff.origin

-----------------------------------------------------------------------------------------
-- Membership
-----------------------------------------------------------------------------------------

theorem status?_eq_some {diff : Diff V} {name : String} {status : FieldStatus}
    : diff.status? name = some status
      ↔ ∃ change, (name, change) ∈ diff.fields.items ∧ change.status = status := by
  simp only [status?, Option.map_eq_some_iff, Py.Dict.get?_eq_some]

theorem mem_namesWith {diff : Diff V} {name : String} {status : FieldStatus}
    : name ∈ diff.namesWith status ↔ diff.status? name = some status := by
  rw [namesWith, List.mem_insertionSort, status?_eq_some]
  simp [eq_comm, and_comm]

theorem mem_addedFields {diff : Diff V} {name : String}
    : name ∈ diff.addedFields ↔ diff.status? name = some .added :=
  mem_namesWith

theorem mem_removedFields {diff : Diff V} {name : String}
    : name ∈ diff.removedFields ↔ diff.status? name = some .removed :=
  mem_namesWith

theorem mem_unchangedFields {diff : Diff V} {name : String}
    : name ∈ diff.unchangedFields ↔ diff.status? name = some .unchanged :=
  mem_namesWith

theorem get?_detailsWith {diff : Diff V} {name : String} {status : FieldStatus}
    {details : List (String × Py.Json)}
    : (diff.detailsWith status).get? name = some details
      ↔ diff.fields.get? name = some ⟨status, details⟩ := by
  have perm : (diff.fields.items.insertionSort (fun left right => left.1 ≤ right.1)).Perm
      diff.fields.items := List.perm_insertionSort _ _
  rw [detailsWith, Py.Dict.get?_ofItems, Py.Dict.get?_eq_some]
  · simp only [List.mem_map, List.mem_filter, perm.mem_iff, decide_eq_true_eq]
    constructor
    · intro given
      obtain ⟨⟨other, ⟨_, _⟩⟩, ⟨member, rfl⟩, same⟩ := given
      obtain ⟨rfl, rfl⟩ := Prod.mk.inj same
      exact member
    · intro member
      exact ⟨_, ⟨member, rfl⟩, rfl⟩
  · intro left inLeft right inRight same
    obtain ⟨first, inFirst, rfl⟩ := List.mem_map.mp inLeft
    obtain ⟨second, inSecond, rfl⟩ := List.mem_map.mp inRight
    have firstMember := perm.mem_iff.mp (List.mem_of_mem_filter inFirst)
    have secondMember := perm.mem_iff.mp (List.mem_of_mem_filter inSecond)
    rw [List.inj_on_of_nodup_map diff.fields.nodup firstMember secondMember same]

/-- The details of the fields with one status come in the order of their names. -/
theorem keys_detailsWith (diff : Diff V) (status : FieldStatus)
    : (diff.detailsWith status).keys = diff.namesWith status := by
  have sorted := List.perm_insertionSort (fun left right => left.1 ≤ right.1) diff.fields.items
  have order : (diff.fields.items.insertionSort (fun left right => left.1 ≤ right.1)).Pairwise
      (fun left right => left.1 ≤ right.1) := List.pairwise_insertionSort _ _
  have nodup := (sorted.map Prod.fst).nodup_iff.mpr diff.fields.nodup
  have keys : (diff.detailsWith status).keys
      = ((diff.fields.items.insertionSort (fun left right => left.1 ≤ right.1)).filter
          (fun field => field.2.status = status)).map Prod.fst := by
    rw [Py.Dict.keys, detailsWith, Py.Dict.items_ofItems, List.map_map]
    · rfl
    · rw [List.map_map]
      exact nodup.sublist (List.filter_sublist.map _)
  rw [keys, namesWith]
  refine List.Perm.eq_of_pairwise (fun left right _ _ => le_antisymm) ?_
    (List.pairwise_insertionSort _ _) ?_
  · rw [List.pairwise_map]
    exact order.sublist List.filter_sublist
  · exact ((sorted.filter _).map _).trans (List.perm_insertionSort _ _).symm

@[simp]
theorem status?_inverted (diff : Diff V) (name : String)
    : diff.inverted.status? name = (diff.status? name).map FieldStatus.inverted := by
  simp only [status?, inverted, Py.Dict.get?_mapValues, Option.map_map]
  rfl

theorem mem_addedFields_inverted {diff : Diff V} {name : String}
    : name ∈ diff.inverted.addedFields ↔ name ∈ diff.removedFields := by
  rw [mem_addedFields, mem_removedFields, status?_inverted]
  cases diff.status? name with
  | none => simp
  | some status => cases status <;> simp [FieldStatus.inverted]

theorem mem_removedFields_inverted {diff : Diff V} {name : String}
    : name ∈ diff.inverted.removedFields ↔ name ∈ diff.addedFields := by
  rw [mem_addedFields, mem_removedFields, status?_inverted]
  cases diff.status? name with
  | none => simp
  | some status => cases status <;> simp [FieldStatus.inverted]

end Diff

end Pyverge
