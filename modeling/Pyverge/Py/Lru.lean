import Pyverge.Py.Dict

/-! Tables of recent answers with an optional bound, kept in an ordered dictionary.
The oldest item comes first. Reading an item and storing one move it to the end, and a bounded
table drops its oldest items.
-/

namespace Py

variable {κ ν : Type} [DecidableEq κ]

namespace Dict

/-- `move_to_end` of a stored key -/
def moveToEnd (dict : Dict κ ν) (key : κ) : Dict κ ν :=
  match dict.get? key with
  | some value => (dict.erase key).set key value
  | none => dict

omit [DecidableEq κ] in
/-- Drop the oldest items until at most `count` are left. -/
def keepNewest (dict : Dict κ ν) (count : Nat) : Dict κ ν where
  items := dict.items.drop (dict.items.length - count)
  nodup := dict.nodup.sublist ((List.drop_sublist _ _).map Prod.fst)

theorem get?_moveToEnd (dict : Dict κ ν) (key other : κ)
    : (dict.moveToEnd key).get? other = dict.get? other := by
  unfold moveToEnd
  cases stored : dict.get? key with
  | none => rfl
  | some value =>
      simp only [get?_set, get?_erase]
      split
      case isTrue same => rw [same, stored]
      case isFalse => rfl

omit [DecidableEq κ] in
theorem length_keepNewest (dict : Dict κ ν) (count : Nat)
    : (dict.keepNewest count).items.length ≤ count := by
  rw [keepNewest, List.length_drop]
  omega

theorem get?_of_keepNewest {dict : Dict κ ν} {count : Nat} {key : κ} {value : ν}
    (found : (dict.keepNewest count).get? key = some value)
    : dict.get? key = some value := by
  rw [get?_eq_some] at found ⊢
  exact List.mem_of_mem_drop found

theorem length_set_le (dict : Dict κ ν) (key : κ) (value : ν)
    : (dict.set key value).items.length ≤ dict.items.length + 1 := by
  by_cases present : key ∈ dict.keys
  · simp [items_set_of_mem present]
  · simp [items_set_of_not_mem present]

/-- Moving a key does not change the number of items. -/
theorem length_moveToEnd (dict : Dict κ ν) (key : κ)
    : (dict.moveToEnd key).items.length ≤ dict.items.length := by
  unfold moveToEnd
  cases stored : dict.get? key with
  | none => exact Nat.le_refl _
  | some value =>
      have listed := get?_eq_some.mp stored
      have shorter : (dict.erase key).items.length < dict.items.length := by
        rw [erase, List.length_filter_lt_length_iff_exists]
        exact ⟨(key, value), listed, by simp⟩
      exact Nat.le_trans (length_set_le _ _ _) shorter

end Dict

/-- A table of recent answers: `0` disables it, a negative size keeps every item. -/
structure Lru (κ ν : Type) where
  size : Int
  entries : Dict κ ν
  bounded : 0 ≤ size → entries.items.length ≤ size

namespace Lru

omit [DecidableEq κ] in
def new (size : Int) : Lru κ ν := ⟨size, ∅, fun nonneg => nonneg⟩

/-- The stored answer, with the table it leaves. -/
def get (cache : Lru κ ν) (key : κ) : Option ν × Lru κ ν :=
  if cache.size = 0 then (none, cache)
  else (cache.entries.get? key, { cache with
    entries := cache.entries.moveToEnd key
    bounded := fun nonneg =>
      Int.le_trans (Int.ofNat_le.mpr (Dict.length_moveToEnd _ _)) (cache.bounded nonneg) })

/-- The items after storing one, before the bound is looked at. -/
def stored (cache : Lru κ ν) (key : κ) (value : ν) : Dict κ ν :=
  (cache.entries.set key value).moveToEnd key

def put (cache : Lru κ ν) (key : κ) (value : ν) : Lru κ ν :=
  if disabled : cache.size = 0 then cache
  else if bound : 0 < cache.size then {
    size := cache.size
    entries := (cache.stored key value).keepNewest cache.size.toNat
    bounded := fun nonneg => by
      have few := Dict.length_keepNewest (cache.stored key value) cache.size.toNat
      omega
  }
  else {
    size := cache.size
    entries := cache.stored key value
    bounded := fun nonneg => by omega
  }

/-- Every stored answer is as required of its key. -/
def Holds (Expected : κ → ν → Prop) (cache : Lru κ ν) : Prop :=
  ∀ key value, cache.entries.get? key = some value → Expected key value

variable {Expected : κ → ν → Prop} {cache : Lru κ ν}

theorem holds_new (size : Int) : Holds Expected (new size : Lru κ ν) := by
  intro key value found
  cases found

@[simp]
theorem size_get (key : κ) : (cache.get key).2.size = cache.size := by
  unfold get
  split <;> rfl

@[simp]
theorem size_put (key : κ) (value : ν) : (cache.put key value).size = cache.size := by
  unfold put
  split
  · rfl
  · split <;> rfl

/-- An answer that is read was stored. -/
theorem get?_of_get {key : κ} {value : ν} (read : (cache.get key).1 = some value)
    : cache.entries.get? key = some value := by
  unfold get at read
  split at read
  · cases read
  · exact read

theorem Holds.get (holds : cache.Holds Expected) (key : κ) : (cache.get key).2.Holds Expected := by
  intro other value found
  unfold Lru.get at found
  split at found
  · exact holds other value found
  · rw [Dict.get?_moveToEnd] at found
    exact holds other value found

theorem Holds.put (holds : cache.Holds Expected) {key : κ} {value : ν}
    (expected : Expected key value)
    : (cache.put key value).Holds Expected := by
  have both : ∀ other found, (cache.stored key value).get? other = some found →
      Expected other found := by
    intro other found read
    rw [stored, Dict.get?_moveToEnd, Dict.get?_set] at read
    split at read
    case isTrue same =>
      obtain rfl := Option.some.inj read
      exact same ▸ expected
    case isFalse => exact holds other found read
  intro other found read
  unfold Lru.put at read
  split at read
  · exact holds other found read
  · split at read
    · exact both other found (Dict.get?_of_keepNewest read)
    · exact both other found read

end Lru

end Py
