import Pyverge.Py.Dict

/-! Indexes whose buckets are sets: a dictionary from keys to the elements filed under them.
Elements of a set are told apart by a tag, which stands for their equality. No bucket is empty,
since a bucket that loses its last element is deleted.
-/

namespace Py.Dict

variable {κ ι α : Type} [DecidableEq κ] [DecidableEq ι]

-----------------------------------------------------------------------------------------
-- Buckets
-----------------------------------------------------------------------------------------

/-- Take a tag out of the bucket of a key; an empty bucket is deleted. -/
def discardIn (tag : α → ι) (gone : ι) (index : Dict κ (List α)) (key : κ) : Dict κ (List α) :=
  match index.get? key with
  | none => index
  | some bucket =>
      let remaining := bucket.filter (fun other => tag other ≠ gone)
      if remaining.isEmpty then index.erase key else index.set key remaining

/-- Add an element to the bucket of a key; a set keeps the equal element it has. -/
def addIn (tag : α → ι) (item : α) (index : Dict κ (List α)) (key : κ) : Dict κ (List α) :=
  let bucket := index.getD key []
  index.set key (if bucket.any (fun other => tag other = tag item) then bucket else bucket ++ [item])

/-- The buckets hold exactly the tags that are under their keys, each once. -/
structure Files (tag : α → ι) (index : Dict κ (List α)) (Under : κ → ι → Prop) : Prop where
  filled : ∀ key, index.get? key ≠ some []
  distinct : ∀ key, ((index.getD key []).map tag).Nodup
  listed : ∀ key id, id ∈ (index.getD key []).map tag ↔ Under key id

variable {tag : α → ι} {index : Dict κ (List α)} {Under Other : κ → ι → Prop}

omit [DecidableEq ι] in
theorem Files.empty (tag : α → ι)
    : Files tag (∅ : Dict κ (List α)) (fun _ _ => False) := by
  refine ⟨?_, fun _ => List.nodup_nil, fun _ _ => ?_⟩
  · intro key found
    cases found
  · exact ⟨fun member => (List.not_mem_nil member).elim, False.elim⟩

omit [DecidableEq ι] in
theorem Files.congr (files : Files tag index Under)
    (same : ∀ key id, Under key id ↔ Other key id)
    : Files tag index Other :=
  ⟨files.filled, files.distinct, fun key id => (files.listed key id).trans (same key id)⟩

-----------------------------------------------------------------------------------------
-- Discarding
-----------------------------------------------------------------------------------------

/-- The bucket of the key loses the tag, and every other bucket stays. -/
theorem getD_discardIn (gone : ι) (index : Dict κ (List α)) (key other : κ)
    : (index.discardIn tag gone key).getD other []
      = if other = key then (index.getD key []).filter (fun item => tag item ≠ gone)
        else index.getD other [] := by
  unfold discardIn
  cases found : index.get? key with
  | none =>
      by_cases here : other = key
      · subst here
        simp [getD, found]
      · simp [here]
  | some bucket =>
      have held : index.getD key [] = bucket := by simp [getD, found]
      rw [held]
      simp only
      split
      case isTrue none =>
        rw [getD_erase, List.isEmpty_iff.mp none]
      case isFalse => rw [getD_set]

theorem Files.discardIn (files : Files tag index Under) (gone : ι) (key : κ)
    : Files tag (index.discardIn tag gone key)
        (fun other id => Under other id ∧ ¬ (other = key ∧ id = gone)) := by
  refine ⟨?_, ?_, ?_⟩
  · intro other
    unfold Dict.discardIn
    cases found : index.get? key with
    | none => exact files.filled other
    | some bucket =>
        simp only
        split
        case isTrue =>
          rw [get?_erase]
          split
          · simp
          · exact files.filled other
        case isFalse remaining =>
          rw [get?_set]
          split
          · intro empty
            rw [Option.some.inj empty] at remaining
            exact remaining rfl
          · exact files.filled other
  · intro other
    rw [getD_discardIn]
    split
    · exact (files.distinct key).sublist (List.filter_sublist.map tag)
    · exact files.distinct other
  · intro other id
    rw [getD_discardIn]
    by_cases here : other = key
    · subst here
      rw [if_pos rfl, ← files.listed]
      simp only [List.mem_map, List.mem_filter, decide_eq_true_eq, true_and]
      constructor
      · intro held
        obtain ⟨item, ⟨member, different⟩, same⟩ := held
        exact ⟨⟨item, member, same⟩, fun gone => different (same.trans gone)⟩
      · intro held
        obtain ⟨⟨item, member, same⟩, different⟩ := held
        exact ⟨item, ⟨member, fun gone => different (same.symm.trans gone)⟩, same⟩
    · rw [if_neg here, files.listed]
      simp [here]

/-- Discarding a tag from several buckets, by list induction. -/
theorem Files.discardAll (files : Files tag index Under) (gone : ι) (keys : List κ)
    : Files tag (keys.foldl (Dict.discardIn tag gone) index)
        (fun other id => Under other id ∧ ¬ (other ∈ keys ∧ id = gone)) := by
  induction keys generalizing index Under with
  | nil => exact files.congr (fun other id => by simp)
  | cons key rest ih =>
      apply (ih (files.discardIn gone key)).congr
      intro other id
      simp only [List.mem_cons]
      tauto

-----------------------------------------------------------------------------------------
-- Adding
-----------------------------------------------------------------------------------------

theorem Files.addIn (files : Files tag index Under) (item : α) (key : κ)
    : Files tag (index.addIn tag item key)
        (fun other id => Under other id ∨ other = key ∧ id = tag item) := by
  have held : (index.getD key []).any (fun other => tag other = tag item) = true
      ↔ tag item ∈ (index.getD key []).map tag := by
    simp [List.any_eq_true, List.mem_map]
  refine ⟨?_, ?_, ?_⟩
  · intro other
    rw [Dict.addIn, get?_set]
    split
    · split
      case isTrue present =>
        intro empty
        rw [Option.some.inj empty] at present
        cases present
      case isFalse => simp
    · exact files.filled other
  · intro other
    rw [Dict.addIn, getD_set]
    split
    · split
      · exact files.distinct key
      case isFalse absent =>
        rw [List.map_append, List.nodup_append]
        refine ⟨files.distinct key, List.nodup_singleton _, ?_⟩
        intro id member other single same
        rw [List.mem_singleton.mp single] at same
        exact absent (held.mpr (same ▸ member))
    · exact files.distinct other
  · intro other id
    rw [Dict.addIn, getD_set]
    by_cases here : other = key
    · subst here
      rw [if_pos rfl, ← files.listed]
      split
      case isTrue present =>
        constructor
        · exact .inl
        · intro known
          rcases known with known | ⟨_, same⟩
          · exact known
          · exact same ▸ held.mp present
      case isFalse => simp [List.map_append]
    · rw [if_neg here, files.listed]
      simp [here]

/-- Adding an element to several buckets, by list induction. -/
theorem Files.addAll (files : Files tag index Under) (item : α) (keys : List κ)
    : Files tag (keys.foldl (Dict.addIn tag item) index)
        (fun other id => Under other id ∨ other ∈ keys ∧ id = tag item) := by
  induction keys generalizing index Under with
  | nil => exact files.congr (fun other id => by simp)
  | cons key rest ih =>
      apply (ih (files.addIn item key)).congr
      intro other id
      simp only [List.mem_cons]
      tauto

end Py.Dict
