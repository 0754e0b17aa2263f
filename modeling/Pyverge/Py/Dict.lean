import Mathlib.Data.List.Basic
import Mathlib.Data.List.Nodup

/-! Dictionaries that iterate in insertion order.
Overwriting a key keeps its place; deleting a key and inserting it again moves it to the end.
-/

namespace Py

/-- The items of a dictionary in insertion order, each key once. -/
@[ext]
structure Dict (κ ν : Type) where
  items : List (κ × ν)
  nodup : (items.map Prod.fst).Nodup
  deriving DecidableEq

namespace Dict

variable {κ ν : Type}

def empty : Dict κ ν := ⟨[], List.nodup_nil⟩

instance : EmptyCollection (Dict κ ν) := ⟨empty⟩

instance : Inhabited (Dict κ ν) := ⟨empty⟩

def keys (dict : Dict κ ν) : List κ := dict.items.map Prod.fst

def values (dict : Dict κ ν) : List ν := dict.items.map Prod.snd

variable [DecidableEq κ]

def get? (dict : Dict κ ν) (key : κ) : Option ν :=
  (dict.items.find? (fun item => item.1 = key)).map Prod.snd

def contains (dict : Dict κ ν) (key : κ) : Bool := (dict.get? key).isSome

/-- A defaulted read that leaves the dictionary as it is. -/
def getD (dict : Dict κ ν) (key : κ) (default : ν) : ν := (dict.get? key).getD default

def set (dict : Dict κ ν) (key : κ) (value : ν) : Dict κ ν :=
  if present : key ∈ dict.keys then
    {
      items := dict.items.map (fun item => if item.1 = key then (key, value) else item)
      nodup := by
        have same : (dict.items.map (fun item => if item.1 = key then (key, value) else item)).map
            Prod.fst = dict.items.map Prod.fst := by
          rw [List.map_map]
          refine List.map_congr_left (fun item _ => ?_)
          by_cases hit : item.1 = key <;> simp [hit]
        rw [same]
        exact dict.nodup
    }
  else
    {
      items := dict.items ++ [(key, value)]
      nodup := by
        rw [List.map_append, List.nodup_append]
        refine ⟨dict.nodup, by simp, ?_⟩
        rintro other member _ fresh rfl
        have same : other = key := by simpa using fresh
        exact present (same ▸ member)
    }

/-- A defaulting read of the kind `defaultdict` makes: an absent key is inserted. -/
def setDefault (dict : Dict κ ν) (key : κ) (default : ν) : Dict κ ν :=
  if dict.contains key then dict else dict.set key default

def erase (dict : Dict κ ν) (key : κ) : Dict κ ν where
  items := dict.items.filter (fun item => item.1 ≠ key)
  nodup := dict.nodup.sublist (List.filter_sublist.map Prod.fst)

/-- Equality of mappings, which does not see the order of the keys. -/
def sameMapping [DecidableEq ν] (left right : Dict κ ν) : Bool :=
  (left.keys ++ right.keys).all (fun key => left.get? key = right.get? key)

-----------------------------------------------------------------------------------------
-- Lookups after updates
-----------------------------------------------------------------------------------------

@[simp]
theorem get?_empty (key : κ) : (∅ : Dict κ ν).get? key = none := rfl

theorem get?_eq_none {dict : Dict κ ν} {key : κ} : dict.get? key = none ↔ key ∉ dict.keys := by
  simp only [get?, keys, Option.map_eq_none_iff, List.find?_eq_none, List.mem_map, not_exists,
    not_and, decide_eq_true_eq]

theorem contains_iff {dict : Dict κ ν} {key : κ} : dict.contains key = true ↔ key ∈ dict.keys := by
  rw [contains, ← not_iff_not, Bool.not_eq_true, Option.isSome_eq_false_iff,
    Option.isNone_iff_eq_none, get?_eq_none]

theorem mem_keys {dict : Dict κ ν} {key : κ}
    : key ∈ dict.keys ↔ ∃ value, dict.get? key = some value := by
  rw [← contains_iff, contains, Option.isSome_iff_exists]

theorem get?_eq_some {dict : Dict κ ν} {key : κ} {value : ν}
    : dict.get? key = some value ↔ (key, value) ∈ dict.items := by
  constructor
  · intro found
    obtain ⟨item, hit, same⟩ := Option.map_eq_some_iff.mp found
    have eq : item.1 = key := by simpa using List.find?_some hit
    have member := List.mem_of_find?_eq_some hit
    rwa [← eq, ← same]
  · intro member
    cases hit : dict.items.find? (fun item => item.1 = key) with
    | none =>
        have miss := List.find?_eq_none.mp hit (key, value) member
        simp at miss
    | some item =>
        have eq : item.1 = key := by simpa using List.find?_some hit
        have same : item = (key, value) :=
          List.inj_on_of_nodup_map dict.nodup (List.mem_of_find?_eq_some hit) member eq
        simp [get?, hit, same]

theorem mem_values {dict : Dict κ ν} {value : ν}
    : value ∈ dict.values ↔ ∃ key, dict.get? key = some value := by
  simp [values, get?_eq_some]

omit [DecidableEq κ] in
/-- Values that tell their keys are distinct. -/
theorem nodup_values {dict : Dict κ ν} (key : ν → κ)
    (told : ∀ item ∈ dict.items, key item.2 = item.1)
    : dict.values.Nodup := by
  refine List.Nodup.of_map key ?_
  have same : dict.values.map key = dict.items.map Prod.fst := by
    rw [values, List.map_map]
    exact List.map_congr_left told
  rw [same]
  exact dict.nodup

theorem get?_set (dict : Dict κ ν) (key other : κ) (value : ν)
    : (dict.set key value).get? other = if other = key then some value else dict.get? other := by
  by_cases present : key ∈ dict.keys
  · have keep : ∀ item : κ × ν, (if item.1 = key then (key, value) else item).1 = item.1 := by
      intro item
      by_cases hit : item.1 = key <;> simp [hit]
    simp only [set, dif_pos present, get?, List.find?_map, Function.comp_def, keep,
      Option.map_map]
    cases hit : dict.items.find? (fun item => item.1 = other) with
    | none =>
        have miss : other ≠ key := by
          rintro rfl
          exact get?_eq_none.mp (by simp [get?, hit]) present
        simp [miss]
    | some item =>
        have eq : item.1 = other := by simpa using List.find?_some hit
        by_cases same : other = key <;> simp [eq, same]
  · simp only [set, dif_neg present, get?, List.find?_append]
    by_cases same : other = key
    · subst same
      have miss := get?_eq_none.mpr present
      rw [get?, Option.map_eq_none_iff] at miss
      simp [miss]
    · have miss : ¬ key = other := fun eq => same eq.symm
      simp [same, miss]

@[simp]
theorem get?_set_self (dict : Dict κ ν) (key : κ) (value : ν)
    : (dict.set key value).get? key = some value := by
  simp [get?_set]

theorem get?_set_ne (dict : Dict κ ν) {key other : κ} (value : ν) (ne : other ≠ key)
    : (dict.set key value).get? other = dict.get? other := by
  simp [get?_set, ne]

theorem get?_erase (dict : Dict κ ν) (key other : κ)
    : (dict.erase key).get? other = if other = key then none else dict.get? other := by
  by_cases same : other = key
  · subst same
    simp [erase, get?]
  · rw [if_neg same]
    simp only [erase, get?, List.find?_filter]
    congr 2
    funext item
    by_cases hit : item.1 = other <;> simp [hit, same]

@[simp]
theorem get?_erase_self (dict : Dict κ ν) (key : κ) : (dict.erase key).get? key = none := by
  simp [get?_erase]

theorem get?_erase_ne (dict : Dict κ ν) {key other : κ} (ne : other ≠ key)
    : (dict.erase key).get? other = dict.get? other := by
  simp [get?_erase, ne]

/-- Erasing a key that is not there changes nothing. -/
theorem erase_of_get?_none {dict : Dict κ ν} {key : κ} (miss : dict.get? key = none)
    : dict.erase key = dict := by
  have absent := get?_eq_none.mp miss
  ext1
  refine List.filter_eq_self.mpr (fun item member => ?_)
  have ne : item.1 ≠ key := by
    intro same
    exact absent (same ▸ List.mem_map_of_mem member)
  simp [ne]

theorem mem_keys_set {dict : Dict κ ν} {key other : κ} {value : ν}
    : other ∈ (dict.set key value).keys ↔ other = key ∨ other ∈ dict.keys := by
  by_cases same : other = key <;> simp [mem_keys, get?_set, same]

theorem mem_keys_erase {dict : Dict κ ν} {key other : κ}
    : other ∈ (dict.erase key).keys ↔ other ≠ key ∧ other ∈ dict.keys := by
  by_cases same : other = key <;> simp [mem_keys, get?_erase, same]

theorem getD_set (dict : Dict κ ν) (key other : κ) (value default : ν)
    : (dict.set key value).getD other default
      = if other = key then value else dict.getD other default := by
  by_cases same : other = key <;> simp [getD, get?_set, same]

theorem getD_erase (dict : Dict κ ν) (key other : κ) (default : ν)
    : (dict.erase key).getD other default
      = if other = key then default else dict.getD other default := by
  by_cases same : other = key <;> simp [getD, get?_erase, same]

@[simp]
theorem getD_setDefault (dict : Dict κ ν) (key other : κ) (default : ν)
    : (dict.setDefault key default).getD other default = dict.getD other default := by
  unfold setDefault
  by_cases present : dict.contains key = true
  · rw [if_pos present]
  · rw [if_neg present, getD_set]
    by_cases same : other = key
    · subst same
      have miss : dict.get? other = none := by
        simpa [contains] using present
      simp [getD, miss]
    · rw [if_neg same]

theorem items_set_of_mem {dict : Dict κ ν} {key : κ} (present : key ∈ dict.keys) (value : ν)
    : (dict.set key value).items
      = dict.items.map (fun item => if item.1 = key then (key, value) else item) := by
  rw [set, dif_pos present]

theorem items_set_of_not_mem {dict : Dict κ ν} {key : κ} (fresh : key ∉ dict.keys) (value : ν)
    : (dict.set key value).items = dict.items ++ [(key, value)] := by
  rw [set, dif_neg fresh]

theorem keys_set_of_mem {dict : Dict κ ν} {key : κ} (present : key ∈ dict.keys) (value : ν)
    : (dict.set key value).keys = dict.keys := by
  rw [keys, items_set_of_mem present, List.map_map]
  refine List.map_congr_left (fun item _ => ?_)
  by_cases hit : item.1 = key <;> simp [hit]

/-- A write makes an earlier defaulting read of its key invisible. -/
@[simp]
theorem set_setDefault (dict : Dict κ ν) (key : κ) (default value : ν)
    : (dict.setDefault key default).set key value = dict.set key value := by
  unfold setDefault
  by_cases present : dict.contains key = true
  · rw [if_pos present]
  · rw [if_neg present]
    have fresh : key ∉ dict.keys := fun member => present (contains_iff.mpr member)
    have listed : key ∈ (dict.set key default).keys := by
      simp [keys, items_set_of_not_mem fresh]
    have kept : dict.items.map (fun item => if item.1 = key then (key, value) else item)
        = dict.items := by
      refine List.map_congr_left (g := id) ?_ |>.trans (List.map_id _)
      rintro item member
      have ne : item.1 ≠ key := by
        rintro rfl
        exact fresh (List.mem_map_of_mem member)
      simp [ne]
    ext1
    rw [items_set_of_mem listed, items_set_of_not_mem fresh, items_set_of_not_mem fresh]
    simp [kept]

/-- A defaulting read of a key with another value than the default inserts nothing. -/
theorem setDefault_of_getD_ne {dict : Dict κ ν} {key : κ} {default : ν}
    (other : dict.getD key default ≠ default)
    : dict.setDefault key default = dict := by
  unfold setDefault
  by_cases present : dict.contains key = true
  · rw [if_pos present]
  · have miss : dict.get? key = none := by
      simpa [contains] using present
    exact absurd (by simp [getD, miss]) other

/-- Writing back what a defaulted read returned is a defaulting read. -/
theorem set_getD (dict : Dict κ ν) (key : κ) (default : ν)
    : dict.set key (dict.getD key default) = dict.setDefault key default := by
  unfold setDefault
  by_cases present : dict.contains key = true
  · have listed := contains_iff.mp present
    rw [if_pos present]
    ext1
    rw [items_set_of_mem listed]
    refine List.map_congr_left (g := id) ?_ |>.trans (List.map_id _)
    rintro ⟨other, value⟩ member
    by_cases same : other = key
    · subst same
      simp [getD, get?_eq_some.mpr member]
    · simp [same]
  · have miss : dict.get? key = none := by
      simpa [contains] using present
    rw [if_neg present, getD, miss, Option.getD_none]

-----------------------------------------------------------------------------------------
-- Dictionaries built from lists
-----------------------------------------------------------------------------------------

/-- `dict.update(items)`; of equal keys the last item wins. -/
def update (dict : Dict κ ν) (items : List (κ × ν)) : Dict κ ν :=
  items.foldl (fun dict item => dict.set item.1 item.2) dict

/-- `dict(items)` -/
def ofItems (items : List (κ × ν)) : Dict κ ν := update ∅ items

/-- `{key(item): item for item in items}` -/
def indexBy {α : Type} (key : α → κ) (items : List α) : Dict κ α :=
  ofItems (items.map (fun item => (key item, item)))

/-- Collect the items of each key in their order. -/
def groupBy {α : Type} (key : α → κ) (items : List α) : Dict κ (List α) :=
  items.foldl (fun dict item => dict.set (key item) (dict.getD (key item) [] ++ [item])) ∅

theorem get?_update (dict : Dict κ ν) (items : List (κ × ν)) (key : κ)
    : (dict.update items).get? key
      = ((items.reverse.find? (fun item => item.1 = key)).map Prod.snd).or (dict.get? key) := by
  induction items generalizing dict with
  | nil => simp [update]
  | cons item rest ih =>
      have step : dict.update (item :: rest) = (dict.set item.1 item.2).update rest := rfl
      rw [step, ih, get?_set, List.reverse_cons, List.find?_append]
      cases rest.reverse.find? (fun item => decide (item.1 = key)) with
      | some found => simp
      | none =>
          by_cases same : item.1 = key
          · simp [same]
          · simp [same, Ne.symm same]

/-- After an update with values that all look alike, its keys are seen with that look. -/
theorem map_get?_update {μ : Type} {tag : ν → μ} {mark : μ} {items : List (κ × ν)}
    (marked : ∀ item ∈ items, tag item.2 = mark) (dict : Dict κ ν) (key : κ)
    : ((dict.update items).get? key).map tag
      = if key ∈ items.map Prod.fst then some mark else (dict.get? key).map tag := by
  induction items generalizing dict with
  | nil => simp [update]
  | cons item rest ih =>
      have step : dict.update (item :: rest) = (dict.set item.1 item.2).update rest := rfl
      rw [step, ih (fun other member => marked other (List.mem_cons_of_mem _ member)), get?_set,
        List.map_cons]
      by_cases later : key ∈ rest.map Prod.fst
      · rw [if_pos later, if_pos (List.mem_cons_of_mem _ later)]
      · by_cases same : key = item.1
        · simp [same, marked item List.mem_cons_self]
        · rw [if_neg later, if_neg same, if_neg (by simp [same, later])]

/-- A dictionary built from items finds each of them when no key has two values. -/
theorem get?_ofItems {items : List (κ × ν)}
    (functional : ∀ left ∈ items, ∀ right ∈ items, left.1 = right.1 → left = right)
    {key : κ} {value : ν}
    : (ofItems items).get? key = some value ↔ (key, value) ∈ items := by
  rw [ofItems, get?_update, get?_empty, Option.or_none, Option.map_eq_some_iff]
  constructor
  · rintro ⟨⟨other, value⟩, found, rfl⟩
    obtain rfl : other = key := by simpa using List.find?_some found
    exact List.mem_reverse.mp (List.mem_of_find?_eq_some found)
  · intro member
    cases found : items.reverse.find? (fun item => item.1 = key) with
    | none =>
        have miss := List.find?_eq_none.mp found (key, value) (List.mem_reverse.mpr member)
        simp at miss
    | some other =>
        have same : other.1 = key := by simpa using List.find?_some found
        have inside := List.mem_reverse.mp (List.mem_of_find?_eq_some found)
        exact ⟨other, rfl, congrArg Prod.snd (functional other inside (key, value) member same)⟩

/-- An index finds an item by its key when keys tell the items apart. -/
theorem get?_indexBy {α : Type} {key : α → κ} {items : List α}
    (injective : ∀ left ∈ items, ∀ right ∈ items, key left = key right → left = right)
    {k : κ} {item : α}
    : (indexBy key items).get? k = some item ↔ item ∈ items ∧ key item = k := by
  rw [indexBy, get?_ofItems]
  · simp only [List.mem_map, Prod.mk.injEq]
    constructor
    · rintro ⟨other, member, rfl, rfl⟩
      exact ⟨member, rfl⟩
    · rintro ⟨member, rfl⟩
      exact ⟨item, member, rfl, rfl⟩
  · intro left inLeft right inRight same
    obtain ⟨first, inFirst, rfl⟩ := List.mem_map.mp inLeft
    obtain ⟨second, inSecond, rfl⟩ := List.mem_map.mp inRight
    rw [injective first inFirst second inSecond same]

@[simp]
theorem getD_groupBy {α : Type} (key : α → κ) (items : List α) (k : κ)
    : (groupBy key items).getD k [] = items.filter (fun item => key item = k) := by
  have general : ∀ dict : Dict κ (List α),
      (items.foldl (fun dict item => dict.set (key item) (dict.getD (key item) [] ++ [item]))
        dict).getD k [] = dict.getD k [] ++ items.filter (fun item => key item = k) := by
    induction items with
    | nil => simp
    | cons item rest ih =>
        intro dict
        rw [List.foldl_cons, ih, getD_set]
        by_cases same : k = key item
        · simp [same]
        · simp [same, Ne.symm same]
  exact general ∅

theorem mem_keys_groupBy {α : Type} {key : α → κ} {items : List α} {k : κ}
    : k ∈ (groupBy key items).keys ↔ ∃ item ∈ items, key item = k := by
  have general : ∀ dict : Dict κ (List α),
      k ∈ (items.foldl (fun dict item => dict.set (key item) (dict.getD (key item) [] ++ [item]))
        dict).keys ↔ k ∈ dict.keys ∨ ∃ item ∈ items, key item = k := by
    induction items with
    | nil => simp
    | cons item rest ih =>
        intro dict
        rw [List.foldl_cons, ih, mem_keys_set, List.exists_mem_cons_iff, eq_comm (a := k),
          or_assoc, or_left_comm]
  rw [groupBy, general]
  exact or_iff_right (List.not_mem_nil)

/-- The groups are the items of each key that occurs. -/
theorem mem_items_groupBy {α : Type} {key : α → κ} {items : List α} {group : κ × List α}
    : group ∈ (groupBy key items).items
      ↔ group.2 = items.filter (fun item => key item = group.1)
        ∧ ∃ item ∈ items, key item = group.1 := by
  obtain ⟨k, members⟩ := group
  rw [← get?_eq_some, ← mem_keys_groupBy, mem_keys, ← getD_groupBy key items k, getD]
  cases (groupBy key items).get? k with
  | none => simp
  | some found => simp [eq_comm]

/-- Items with distinct new keys are appended in their order. -/
theorem items_update {dict : Dict κ ν} {items : List (κ × ν)} (nodup : (items.map Prod.fst).Nodup)
    (fresh : ∀ item ∈ items, item.1 ∉ dict.keys)
    : (dict.update items).items = dict.items ++ items := by
  induction items generalizing dict with
  | nil => simp [update]
  | cons item rest ih =>
      obtain ⟨notIn, restNodup⟩ := List.nodup_cons.mp nodup
      have added := items_set_of_not_mem (fresh item (List.mem_cons_self ..)) item.2
      have step : dict.update (item :: rest) = (dict.set item.1 item.2).update rest := rfl
      rw [step, ih restNodup, added, List.append_assoc, List.singleton_append]
      intro other member
      have old := fresh other (List.mem_cons_of_mem _ member)
      rw [keys, added, List.map_append, List.mem_append]
      rintro (inOld | inNew)
      · exact old inOld
      · have same : other.1 = item.1 := by simpa using inNew
        exact notIn (same ▸ List.mem_map_of_mem member)

theorem items_ofItems {items : List (κ × ν)} (nodup : (items.map Prod.fst).Nodup)
    : (ofItems items).items = items :=
  (items_update nodup (fun _ _ => List.not_mem_nil)).trans (List.nil_append _)

/-- A dictionary is built from its own items. -/
theorem ofItems_items (dict : Dict κ ν) : ofItems dict.items = dict := by
  have items := items_ofItems dict.nodup
  generalize ofItems dict.items = built at items ⊢
  cases built
  cases dict
  obtain rfl := items
  rfl

omit [DecidableEq κ] in
/-- Apply a function to every value. -/
def mapValues {μ : Type} (change : ν → μ) (dict : Dict κ ν) : Dict κ μ where
  items := dict.items.map (fun item => (item.1, change item.2))
  nodup := by
    rw [List.map_map]
    exact dict.nodup

omit [DecidableEq κ] in
@[simp]
theorem keys_mapValues {μ : Type} (change : ν → μ) (dict : Dict κ ν)
    : (dict.mapValues change).keys = dict.keys := by
  simp only [keys, mapValues, List.map_map]
  rfl

theorem mapValues_set {μ : Type} (change : ν → μ) (dict : Dict κ ν) (key : κ) (value : ν)
    : (dict.set key value).mapValues change = (dict.mapValues change).set key (change value) := by
  ext1
  by_cases present : key ∈ dict.keys
  · rw [items_set_of_mem (by simpa using present)]
    simp only [mapValues, items_set_of_mem present, List.map_map]
    refine List.map_congr_left (fun item _ => ?_)
    by_cases hit : item.1 = key <;> simp [hit]
  · rw [items_set_of_not_mem (by simpa using present)]
    simp [mapValues, items_set_of_not_mem present]

theorem get?_mapValues {μ : Type} (change : ν → μ) (dict : Dict κ ν) (key : κ)
    : (dict.mapValues change).get? key = (dict.get? key).map change := by
  simp only [get?, mapValues, List.find?_map, Function.comp_def, Option.map_map]

theorem getD_mapValues {μ : Type} (change : ν → μ) (dict : Dict κ ν) (key : κ) (default : ν)
    : (dict.mapValues change).getD key (change default) = change (dict.getD key default) := by
  rw [getD, getD, get?_mapValues, Option.getD_map]

/-- Grouping commutes with a change of the items that the keys do not notice. -/
theorem groupBy_map {α β : Type} (change : α → β) (key : β → κ) (items : List α)
    : groupBy key (items.map change)
      = (groupBy (fun item => key (change item)) items).mapValues (List.map change) := by
  have general : ∀ dict : Dict κ (List α),
      (items.map change).foldl
          (fun dict item => dict.set (key item) (dict.getD (key item) [] ++ [item]))
          (dict.mapValues (List.map change))
        = (items.foldl (fun dict item => dict.set (key (change item))
            (dict.getD (key (change item)) [] ++ [item])) dict).mapValues (List.map change) := by
    induction items with
    | nil => simp
    | cons item rest ih =>
        intro dict
        have read := getD_mapValues (List.map change) dict (key (change item)) []
        rw [List.map_nil] at read
        rw [List.map_cons, List.foldl_cons, List.foldl_cons, ← ih, mapValues_set, read,
          List.map_append, List.map_singleton]
  exact general ∅

end Dict

end Py
