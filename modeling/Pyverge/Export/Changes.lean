import Pyverge.Export.Jgf

/-! Added, removed and modified keys of two dictionaries of documents.
A dictionary is built from a list of items by their keys. The last item of a key wins, so what the
comparison tells of the lists depends on how well the keys tell their items apart.
-/

namespace Pyverge

open Py (Json)

/-- Added, removed, and modified identities in one delta. -/
structure ChangeSet where
  added : List String
  removed : List String
  modified : List String
  deriving DecidableEq

def ChangeSet.changed (changes : ChangeSet) : Bool :=
  !(changes.added.isEmpty && changes.removed.isEmpty && changes.modified.isEmpty)

theorem ChangeSet.changed_eq_false {changes : ChangeSet}
    : changes.changed = false
      ↔ changes.added = [] ∧ changes.removed = [] ∧ changes.modified = [] := by
  simp [changed, and_assoc]

/-- The changes from one dictionary to another. Documents are compared without regard to the order
of members.
-/
def ChangeSet.between (left right : Py.Dict String Json) : ChangeSet where
  added := right.keys.filter (fun key => !left.contains key)
  removed := left.keys.filter (fun key => !right.contains key)
  modified := left.keys.filter (fun key =>
    match left.get? key, right.get? key with
    | some before, some after => before.canonical ≠ after.canonical
    | _, _ => false)

section Keyed

variable {α ι : Type} (key : α → String) (shown : α → Json)

/-- The documents of the items by their keys. -/
def documents (items : List α) : Py.Dict String Json :=
  .ofItems (items.map (fun item => (key item, shown item)))

/-- The last item of a key. -/
def lastOf (items : List α) (text : String) : Option α :=
  items.reverse.find? (fun item => key item = text)

variable {key shown} {items others : List α} {text : String} {item : α}

theorem get?_documents
    : (documents key shown items).get? text = (lastOf key items text).map shown := by
  rw [documents, Py.Dict.ofItems, Py.Dict.get?_update, Py.Dict.get?_empty, Option.or_none,
    ← List.map_reverse, List.find?_map, Option.map_map]
  rfl

theorem mem_of_lastOf (last : lastOf key items text = some item)
    : item ∈ items ∧ key item = text := by
  refine ⟨List.mem_reverse.mp (List.mem_of_find?_eq_some last), ?_⟩
  simpa using List.find?_some last

theorem exists_lastOf (member : item ∈ items) : ∃ last, lastOf key items (key item) = some last := by
  cases found : lastOf key items (key item) with
  | some last => exact ⟨last, rfl⟩
  | none => simpa using List.find?_eq_none.mp found item (List.mem_reverse.mpr member)

theorem mem_keys_documents
    : text ∈ (documents key shown items).keys ↔ ∃ item ∈ items, key item = text := by
  rw [Py.Dict.mem_keys, get?_documents]
  constructor
  · intro given
    obtain ⟨document, found⟩ := given
    obtain ⟨last, found, _⟩ := Option.map_eq_some_iff.mp found
    exact ⟨last, mem_of_lastOf found⟩
  · intro given
    obtain ⟨item, member, rfl⟩ := given
    obtain ⟨last, found⟩ := @exists_lastOf _ key _ _ member
    exact ⟨shown last, by rw [found]; rfl⟩

theorem mem_added
    : text ∈ (ChangeSet.between (documents key shown items) (documents key shown others)).added
      ↔ (∃ other ∈ others, key other = text) ∧ ∀ item ∈ items, key item ≠ text := by
  simp only [ChangeSet.between, List.mem_filter, mem_keys_documents, Bool.not_eq_true',
    ← Bool.not_eq_true, Py.Dict.contains_iff, not_exists, not_and]

theorem mem_removed
    : text ∈ (ChangeSet.between (documents key shown items) (documents key shown others)).removed
      ↔ (∃ item ∈ items, key item = text) ∧ ∀ other ∈ others, key other ≠ text := by
  simp only [ChangeSet.between, List.mem_filter, mem_keys_documents, Bool.not_eq_true',
    ← Bool.not_eq_true, Py.Dict.contains_iff, not_exists, not_and]

theorem mem_modified
    : text ∈ (ChangeSet.between (documents key shown items) (documents key shown others)).modified
      ↔ ∃ before after, lastOf key items text = some before ∧ lastOf key others text = some after
        ∧ (shown before).canonical ≠ (shown after).canonical := by
  simp only [ChangeSet.between, List.mem_filter, mem_keys_documents, get?_documents]
  constructor
  · intro given
    obtain ⟨_, differs⟩ := given
    cases before : lastOf key items text with
    | none => simp [before] at differs
    | some first =>
        cases after : lastOf key others text with
        | none => simp [before, after] at differs
        | some second => exact ⟨first, second, rfl, rfl, by simpa [before, after] using differs⟩
  · intro given
    obtain ⟨before, after, first, second, differs⟩ := given
    refine ⟨⟨before, mem_of_lastOf first⟩, ?_⟩
    simp [first, second, differs]

-----------------------------------------------------------------------------------------
-- What the changes tell
-----------------------------------------------------------------------------------------

variable (key) (ident : α → ι) (Same ShownAlike : α → α → Prop)

/-- Every item that was added, removed or altered is reported by its key. -/
structure ChangeSet.Reports (changes : ChangeSet) (items others : List α) : Prop where
  added : ∀ other ∈ others, (∀ item ∈ items, ident item ≠ ident other) →
    key other ∈ changes.added
  removed : ∀ item ∈ items, (∀ other ∈ others, ident other ≠ ident item) →
    key item ∈ changes.removed
  modified : ∀ item ∈ items, ∀ other ∈ others, ident item = ident other → ¬ Same item other →
    key item ∈ changes.modified

/-- Items of one key in both lists have their identities in both lists, and where an item is
altered, so is what is shown of the last items of its key.
-/
structure KeysReport (items others : List α) : Prop where
  shared : ∀ item ∈ items, ∀ other ∈ others, key item = key other →
    (∃ twin ∈ others, ident twin = ident item) ∧ ∃ twin ∈ items, ident twin = ident other
  altered : ∀ item ∈ items, ∀ other ∈ others, ident item = ident other → ¬ Same item other →
    ∀ before after, lastOf key items (key item) = some before →
      lastOf key others (key item) = some after → ¬ ShownAlike before after

/-- The lists hold the same items. -/
def SameItems (items others : List α) : Prop :=
  (∀ item ∈ items, ∃ other ∈ others, Same item other)
    ∧ ∀ other ∈ others, ∃ item ∈ items, Same item other

/-- The last items of each key are shown alike. -/
def LastAlike (items others : List α) : Prop :=
  ∀ text before after, lastOf key items text = some before → lastOf key others text = some after →
    ShownAlike before after

variable {key ident Same ShownAlike}

section Deciding

-- A key is a part of the identity, and documents under one key are equal if shown alike.
variable (keyed : ∀ item other, ident item = ident other → key item = key other)
  (decided : ∀ item other, key item = key other →
    ((shown item).canonical = (shown other).canonical ↔ ShownAlike item other))

include keyed decided

/-- The changes report everything exactly if the keys let them. -/
theorem reports_iff
    : (ChangeSet.between (documents key shown items) (documents key shown others)).Reports
        key ident Same items others
      ↔ KeysReport key ident Same ShownAlike items others := by
  constructor
  · intro reports
    refine ⟨?_, ?_⟩
    · intro item member other inOthers same
      refine ⟨?_, ?_⟩
      · by_contra absent
        have removed := reports.removed item member (fun twin inside equal =>
          absent ⟨twin, inside, equal⟩)
        exact (mem_removed.mp removed).2 other inOthers same.symm
      · by_contra absent
        have added := reports.added other inOthers (fun twin inside equal =>
          absent ⟨twin, inside, equal⟩)
        exact (mem_added.mp added).2 item member same
    · intro item member other inOthers same altered before after first second alike
      obtain ⟨_, _, first', second', differs⟩ :=
        mem_modified.mp (reports.modified item member other inOthers same altered)
      obtain rfl := Option.some.inj (first.symm.trans first')
      obtain rfl := Option.some.inj (second.symm.trans second')
      have keys := (mem_of_lastOf first).2.trans (mem_of_lastOf second).2.symm
      exact differs ((decided _ _ keys).mpr alike)
  · intro keysReport
    refine ⟨?_, ?_, ?_⟩
    · intro other inOthers fresh
      refine mem_added.mpr ⟨⟨other, inOthers, rfl⟩, ?_⟩
      intro item member same
      obtain ⟨_, twin, inside, equal⟩ := keysReport.shared item member other inOthers same
      exact fresh twin inside equal
    · intro item member gone
      refine mem_removed.mpr ⟨⟨item, member, rfl⟩, ?_⟩
      intro other inOthers same
      obtain ⟨⟨twin, inside, equal⟩, _⟩ :=
        keysReport.shared item member other inOthers same.symm
      exact gone twin inside equal
    · intro item member other inOthers same altered
      obtain ⟨before, first⟩ := @exists_lastOf _ key _ _ member
      obtain ⟨after, second⟩ := @exists_lastOf _ key _ _ inOthers
      rw [← keyed item other same] at second
      have differs := keysReport.altered item member other inOthers same altered before after first
        second
      have keys := (mem_of_lastOf first).2.trans (mem_of_lastOf second).2.symm
      exact mem_modified.mpr ⟨before, after, first, second,
        fun equal => differs ((decided _ _ keys).mp equal)⟩

/-- Lists of the same items are without changes exactly if their last items are shown alike. -/
theorem unchanged_iff_lastAlike
    (identified : ∀ item other, Same item other → ident item = ident other)
    (same : SameItems Same items others)
    : (ChangeSet.between (documents key shown items) (documents key shown others)).changed = false
      ↔ LastAlike key ShownAlike items others := by
  have noneAdded : (ChangeSet.between (documents key shown items)
      (documents key shown others)).added = [] := by
    rw [List.eq_nil_iff_forall_not_mem]
    intro text added
    obtain ⟨⟨other, inOthers, rfl⟩, fresh⟩ := mem_added.mp added
    obtain ⟨item, member, equal⟩ := same.2 other inOthers
    exact fresh item member (keyed _ _ (identified _ _ equal))
  have noneRemoved : (ChangeSet.between (documents key shown items)
      (documents key shown others)).removed = [] := by
    rw [List.eq_nil_iff_forall_not_mem]
    intro text removed
    obtain ⟨⟨item, member, rfl⟩, gone⟩ := mem_removed.mp removed
    obtain ⟨other, inOthers, equal⟩ := same.1 item member
    exact gone other inOthers (keyed _ _ (identified _ _ equal)).symm
  rw [ChangeSet.changed_eq_false, noneAdded, noneRemoved]
  simp only [true_and, List.eq_nil_iff_forall_not_mem, mem_modified]
  constructor
  · intro none text before after first second
    by_contra differs
    have keys := (mem_of_lastOf first).2.trans (mem_of_lastOf second).2.symm
    exact none text ⟨before, after, first, second,
      fun equal => differs ((decided _ _ keys).mp equal)⟩
  · intro alike text modified
    obtain ⟨before, after, first, second, differs⟩ := modified
    have keys := (mem_of_lastOf first).2.trans (mem_of_lastOf second).2.symm
    exact differs ((decided _ _ keys).mpr (alike text before after first second))

end Deciding

/-- Where everything is reported, lists without changes hold the same items. -/
theorem sameItems_of_unchanged {changes : ChangeSet}
    (reports : changes.Reports key ident Same items others) (unchanged : changes.changed = false)
    : SameItems Same items others := by
  obtain ⟨noneAdded, noneRemoved, noneModified⟩ := ChangeSet.changed_eq_false.mp unchanged
  refine ⟨?_, ?_⟩
  · intro item member
    by_contra absent
    by_cases kept : ∃ other ∈ others, ident other = ident item
    · obtain ⟨other, inOthers, equal⟩ := kept
      have modified := reports.modified item member other inOthers equal.symm
        (fun same => absent ⟨other, inOthers, same⟩)
      simp [noneModified] at modified
    · have removed := reports.removed item member (fun other inOthers equal =>
        kept ⟨other, inOthers, equal⟩)
      simp [noneRemoved] at removed
  · intro other inOthers
    by_contra absent
    by_cases kept : ∃ item ∈ items, ident item = ident other
    · obtain ⟨item, member, equal⟩ := kept
      have modified := reports.modified item member other inOthers equal
        (fun same => absent ⟨item, member, same⟩)
      simp [noneModified] at modified
    · have added := reports.added other inOthers (fun item member equal =>
        kept ⟨item, member, equal⟩)
      simp [noneAdded] at added

/-- The last items of lists that agree item by item are shown alike. -/
theorem lastAlike_of_forall₂ (keyed : ∀ item other, ShownAlike item other → key item = key other)
    (agree : List.Forall₂ ShownAlike items others)
    : LastAlike key ShownAlike items others := by
  intro text before after first second
  have reversed := List.rel_reverse agree
  unfold lastOf at first second
  generalize items.reverse = backwards at first reversed
  generalize others.reverse = otherBackwards at second reversed
  induction reversed with
  | nil => cases first
  | cons alike _ ih =>
      rw [List.find?_cons] at first second
      rw [keyed _ _ alike] at first
      split at first
      case h_1 found =>
        rw [found] at second
        obtain rfl := Option.some.inj first
        obtain rfl := Option.some.inj second
        exact alike
      case h_2 missed =>
        rw [missed] at second
        exact ih first second

end Keyed

end Pyverge
