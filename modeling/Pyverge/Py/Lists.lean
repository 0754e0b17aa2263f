import Mathlib.Algebra.Order.BigOperators.Group.Finset
import Mathlib.Data.List.Forall2
import Mathlib.Data.List.Perm.Basic
import Mathlib.Data.List.Sort
import Mathlib.Data.String.Basic
import Mathlib.Logic.Function.Basic

/-! Lists compared item by item, as multisets, after a split at a separator and in groups, and
finite sets covered by their own members.
-/

namespace Py

variable {α β γ : Type}

-----------------------------------------------------------------------------------------
-- Item by item
-----------------------------------------------------------------------------------------

/-- A list of images is the image of a list. -/
theorem exists_map_eq (image : α → β) (P : α → Prop) {items : List β}
    (images : ∀ item ∈ items, ∃ origin, P origin ∧ image origin = item)
    : ∃ origins : List α, origins.map image = items ∧ ∀ origin ∈ origins, P origin := by
  induction items with
  | nil => exact ⟨[], rfl, by simp⟩
  | cons item rest ih =>
      obtain ⟨origin, holds, rfl⟩ := images item (List.mem_cons_self ..)
      obtain ⟨origins, rfl, all⟩ :=
        ih (fun other member => images other (List.mem_cons_of_mem _ member))
      refine ⟨origin :: origins, rfl, ?_⟩
      simpa using ⟨holds, all⟩

theorem map_eq_map_iff {first : α → γ} {second : β → γ} {items : List α} {others : List β}
    : items.map first = others.map second
      ↔ List.Forall₂ (fun item other => first item = second other) items others := by
  rw [← List.forall₂_eq_eq_eq, List.forall₂_map_left_iff, List.forall₂_map_right_iff]

/-- Lists that agree on a selection agree on every narrower one. -/
theorem filter_eq_of_imp {narrow wide : α → Bool} (imp : ∀ item, narrow item = true → wide item = true)
    {left right : List α} (same : left.filter wide = right.filter wide)
    : left.filter narrow = right.filter narrow := by
  have split : ∀ items : List α, items.filter narrow = (items.filter wide).filter narrow := by
    intro items
    rw [List.filter_filter]
    refine List.filter_congr (fun item _ => ?_)
    cases chosen : narrow item with
    | false => rfl
    | true => rw [imp item chosen, Bool.and_self]
  rw [split left, same, ← split right]

/-- Selecting items by a list of answers about them. -/
theorem filter_zip_map (answer : α → Bool) (items : List α)
    : ((items.zip (items.map answer)).filter Prod.snd).map Prod.fst = items.filter answer := by
  induction items with
  | nil => rfl
  | cons item rest ih => cases told : answer item <;> simp [told, ih]

/-- A member of a list has a member of a related one that it is related to. -/
theorem exists_of_forall₂_left {R : α → β → Prop} {items : List α} {others : List β}
    (related : List.Forall₂ R items others) {item : α} (member : item ∈ items)
    : ∃ other ∈ others, R item other := by
  induction related with
  | nil => cases member
  | @cons first other _ _ own _ ih =>
      rcases List.mem_cons.mp member with rfl | later
      · exact ⟨other, List.mem_cons_self, own⟩
      · obtain ⟨found, inside, relates⟩ := ih later
        exact ⟨found, List.mem_cons_of_mem _ inside, relates⟩

theorem exists_of_forall₂_right {R : α → β → Prop} {items : List α} {others : List β}
    (related : List.Forall₂ R items others) {other : β} (member : other ∈ others)
    : ∃ item ∈ items, R item other :=
  exists_of_forall₂_left related.flip member

/-- Only the members of the lists matter to what relates them. -/
theorem forall₂_congr_mem {R S : α → β → Prop} {items : List α} {others : List β}
    (agree : ∀ item ∈ items, ∀ other ∈ others, R item other ↔ S item other)
    : List.Forall₂ R items others ↔ List.Forall₂ S items others := by
  induction items generalizing others with
  | nil => simp
  | cons item items ih =>
      cases others with
      | nil => simp
      | cons other others =>
          rw [List.forall₂_cons, List.forall₂_cons, agree item (by simp) other (by simp),
            ih (fun first inFirst second inSecond => agree first (List.mem_cons_of_mem _ inFirst)
              second (List.mem_cons_of_mem _ inSecond))]

/-- Two selections of tagged values are equal exactly if all values are; what is not selected has
the default value.
-/
theorem filter_map_eq_iff {tag : α → β} {items : List α} {keep other : α → Bool}
    {first second : α → γ} {default : γ}
    (tags : ∀ left ∈ items, ∀ right ∈ items, tag left = tag right → left = right)
    (kept : ∀ item, keep item = false ↔ first item = default)
    (otherKept : ∀ item, other item = false ↔ second item = default)
    : (items.filter keep).map (fun item => (tag item, first item))
        = (items.filter other).map (fun item => (tag item, second item))
      ↔ ∀ item ∈ items, first item = second item := by
  have found : ∀ {keep other : α → Bool} {first second : α → γ},
      (items.filter keep).map (fun item => (tag item, first item))
        = (items.filter other).map (fun item => (tag item, second item)) →
      ∀ item ∈ items, keep item = true → first item = second item := by
    intro keep other first second same item member selected
    have listed : (tag item, first item)
        ∈ (items.filter keep).map (fun item => (tag item, first item)) :=
      List.mem_map.mpr ⟨item, List.mem_filter.mpr ⟨member, selected⟩, rfl⟩
    rw [same] at listed
    obtain ⟨origin, inside, equal⟩ := List.mem_map.mp listed
    obtain ⟨sameTag, sameValue⟩ := Prod.mk.inj equal
    rw [← tags origin (List.mem_filter.mp inside).1 item member sameTag] at sameValue ⊢
    exact sameValue.symm
  constructor
  · intro same item member
    cases selected : keep item with
    | true => exact found same item member selected
    | false =>
        cases otherSelected : other item with
        | true => exact (found same.symm item member otherSelected).symm
        | false => rw [(kept item).mp selected, (otherKept item).mp otherSelected]
  · intro same
    have selections : items.filter keep = items.filter other := by
      refine List.filter_congr (fun item member => ?_)
      rw [Bool.eq_iff_iff, ← not_iff_not, Bool.not_eq_true, Bool.not_eq_true, kept, otherKept,
        same item member]
    rw [selections]
    refine List.map_congr_left (fun item member => ?_)
    rw [same item (List.mem_filter.mp member).1]

-----------------------------------------------------------------------------------------
-- Multisets
-----------------------------------------------------------------------------------------

/-- Sorted lists of texts are equal exactly if the lists are permutations of each other. -/
theorem insertionSort_eq_iff {left right : List String}
    : left.insertionSort (· ≤ ·) = right.insertionSort (· ≤ ·) ↔ left.Perm right := by
  have first := List.perm_insertionSort (fun l r : String => l ≤ r) left
  have second := List.perm_insertionSort (fun l r : String => l ≤ r) right
  constructor
  · intro same
    exact first.symm.trans ((List.Perm.of_eq same).trans second)
  · intro perm
    exact List.Perm.eq_of_pairwise (fun _ _ _ _ below above => le_antisymm below above)
      (List.pairwise_insertionSort _ _) (List.pairwise_insertionSort _ _)
      (first.trans (perm.trans second.symm))

/-- Two ways to tell items apart that agree leave the same multisets. -/
theorem perm_map_iff {first : α → β} {second : α → γ}
    (agree : ∀ left right, first left = first right ↔ second left = second right)
    {items others : List α}
    : (items.map first).Perm (others.map first) ↔ (items.map second).Perm (others.map second) := by
  have factor : ∀ {δ η : Type} {one : α → δ} {other : α → η},
      (∀ left right, one left = one right → other left = other right) →
      (items.map one).Perm (others.map one) → (items.map other).Perm (others.map other) := by
    intro δ η one other same perm
    cases items with
    | nil =>
        have none := List.perm_nil.mp perm.symm
        rw [List.map_eq_nil_iff.mp none]
    | cons item rest =>
        have through : ∀ list : List α, list.map other
            = (list.map one).map (Function.extend one other (fun _ => other item)) := by
          intro list
          rw [List.map_map]
          refine List.map_congr_left (fun value _ => ?_)
          have factors : Function.FactorsThrough other one := fun left right => same left right
          exact (factors.extend_apply (fun _ => other item) value).symm
        rw [through, through]
        exact perm.map _
  exact ⟨factor (fun left right => (agree left right).mp),
    factor (fun left right => (agree left right).mpr)⟩

-----------------------------------------------------------------------------------------
-- Separators
-----------------------------------------------------------------------------------------

/-- A separator that the second part does not contain splits a list in one way. -/
theorem append_separator_inj {separator : α} {left right after rest : List α}
    (leftFree : separator ∉ after) (rightFree : separator ∉ rest)
    (same : left ++ separator :: after = right ++ separator :: rest)
    : left = right ∧ after = rest := by
  induction left generalizing right with
  | nil =>
      cases right with
      | nil => exact ⟨rfl, (List.cons.inj same).2⟩
      | cons char right =>
          refine (leftFree ?_).elim
          rw [(List.cons.inj same).2]
          simp
  | cons char left ih =>
      cases right with
      | nil =>
          refine (rightFree ?_).elim
          rw [← (List.cons.inj same).2]
          simp
      | cons other right =>
          obtain ⟨rfl, later⟩ := List.cons.inj same
          obtain ⟨rfl, tail⟩ := ih later
          exact ⟨rfl, tail⟩

/-- A separator that the first part does not contain splits a list in one way. -/
theorem separator_append_inj {separator : α} {left right after rest : List α}
    (leftFree : separator ∉ left) (rightFree : separator ∉ right)
    (same : left ++ separator :: after = right ++ separator :: rest)
    : left = right ∧ after = rest := by
  induction left generalizing right with
  | nil =>
      cases right with
      | nil => exact ⟨rfl, (List.cons.inj same).2⟩
      | cons item right =>
          obtain ⟨rfl, _⟩ := List.cons.inj same
          exact (rightFree (List.mem_cons_self ..)).elim
  | cons item left ih =>
      cases right with
      | nil =>
          obtain ⟨rfl, _⟩ := List.cons.inj same
          exact (leftFree (List.mem_cons_self ..)).elim
      | cons other right =>
          obtain ⟨rfl, later⟩ := List.cons.inj same
          obtain ⟨rfl, tail⟩ := ih (fun member => leftFree (List.mem_cons_of_mem _ member))
            (fun member => rightFree (List.mem_cons_of_mem _ member)) later
          exact ⟨rfl, tail⟩

/-- Parts with a separator between them. -/
def joinWith (separator : α) : List (List α) → List α
  | [] => []
  | [part] => part
  | part :: next :: rest => part ++ separator :: joinWith separator (next :: rest)

/-- Parts that do not contain the separator can be read back, unless there are none. -/
theorem joinWith_inj {separator : α} {left right : List (List α)}
    (leftFree : ∀ part ∈ left, separator ∉ part) (rightFree : ∀ part ∈ right, separator ∉ part)
    (leftSome : left ≠ []) (rightSome : right ≠ [])
    (same : joinWith separator left = joinWith separator right)
    : left = right := by
  induction left generalizing right with
  | nil => exact (leftSome rfl).elim
  | cons part left ih =>
      cases right with
      | nil => exact (rightSome rfl).elim
      | cons other right =>
          have free := leftFree part (List.mem_cons_self ..)
          have otherFree := rightFree other (List.mem_cons_self ..)
          cases left with
          | nil =>
              cases right with
              | nil => exact congrArg (fun part => [part]) same
              | cons next more =>
                  have whole : part = other ++ separator :: joinWith separator (next :: more) :=
                    same
                  rw [whole] at free
                  simp at free
          | cons second later =>
              cases right with
              | nil =>
                  have whole : part ++ separator :: joinWith separator (second :: later) = other :=
                    same
                  rw [← whole] at otherFree
                  simp at otherFree
              | cons next more =>
                  obtain ⟨rfl, tail⟩ := separator_append_inj free otherFree same
                  rw [ih (fun inner member => leftFree inner (List.mem_cons_of_mem _ member))
                    (fun inner member => rightFree inner (List.mem_cons_of_mem _ member))
                    (by simp) (by simp) tail]

theorem mem_joinWith {separator item : α} {parts : List (List α)}
    (member : item ∈ joinWith separator parts)
    : item = separator ∨ ∃ part ∈ parts, item ∈ part := by
  induction parts with
  | nil => cases member
  | cons part rest ih =>
      cases rest with
      | nil => exact .inr ⟨part, by simp, member⟩
      | cons next more =>
          rcases List.mem_append.mp member with inPart | later
          · exact .inr ⟨part, by simp, inPart⟩
          · rcases List.mem_cons.mp later with rfl | inRest
            · exact .inl rfl
            · rcases ih inRest with same | ⟨other, inside, inOther⟩
              · exact .inl same
              · exact .inr ⟨other, List.mem_cons_of_mem _ inside, inOther⟩

-----------------------------------------------------------------------------------------
-- Groups
-----------------------------------------------------------------------------------------

/-- Empty groups do not show when groups are laid out one after the other. -/
theorem flatMap_filter_full {κ : Type} {group : κ → List α} (keys : List κ)
    : (keys.filter (fun key => !(group key).isEmpty)).flatMap group = keys.flatMap group := by
  induction keys with
  | nil => rfl
  | cons key rest ih =>
      cases full : group key with
      | nil => simp [full, ih]
      | cons item items => simp [full, ih]

/-- Groups laid out one after the other tell in which order they come, if each item knows its
group.
-/
theorem keys_eq_of_flatMap {κ : Type} {group : κ → List α} {tag : α → κ}
    (tagged : ∀ key, ∀ item ∈ group key, tag item = key) {left right : List κ}
    (leftFull : ∀ key ∈ left, group key ≠ []) (rightFull : ∀ key ∈ right, group key ≠ [])
    (same : (left.flatMap group).map tag = (right.flatMap group).map tag)
    : left = right := by
  have first : ∀ key rest, group key ≠ [] →
      (((key :: rest).flatMap group).map tag).head? = some key := by
    intro key rest full
    cases items : group key with
    | nil => exact absurd items full
    | cons item others =>
        have known := tagged key item (items ▸ List.mem_cons_self)
        simp [items, known]
  induction left generalizing right with
  | nil =>
      cases right with
      | nil => rfl
      | cons key rest =>
          have head := first key rest (rightFull key List.mem_cons_self)
          rw [← same] at head
          cases head
  | cons key rest ih =>
      have head := first key rest (leftFull key List.mem_cons_self)
      cases right with
      | nil =>
          rw [same] at head
          cases head
      | cons other others =>
          rw [same, first other others (rightFull other List.mem_cons_self)] at head
          obtain rfl := Option.some.inj head
          rw [List.flatMap_cons, List.flatMap_cons, List.map_append, List.map_append] at same
          rw [ih (fun k member => leftFull k (.tail _ member))
            (fun k member => rightFull k (.tail _ member)) (List.append_cancel_left same)]

/-- If a finite set is covered by its own members through a relation that leads each of them to at
most one member and never to a heavier one, every member leads to one of its own weight.
-/
theorem exists_same_weight {α : Type} [DecidableEq α] {items : Finset α} {weight : α → Nat}
    {Leads : α → α → Prop} (covered : ∀ item ∈ items, ∃ origin ∈ items, Leads origin item)
    (functional : ∀ origin item other, Leads origin item → Leads origin other → item = other)
    (lighter : ∀ origin item, Leads origin item → weight item ≤ weight origin)
    {origin : α} (member : origin ∈ items)
    : ∃ item ∈ items, Leads origin item ∧ weight item = weight origin := by
  have chosen : ∀ item, ∃ origin, item ∈ items → origin ∈ items ∧ Leads origin item := by
    intro item
    by_cases inside : item ∈ items
    · obtain ⟨origin, there, leads⟩ := covered item inside
      exact ⟨origin, fun _ => ⟨there, leads⟩⟩
    · exact ⟨item, fun given => absurd given inside⟩
  choose origins told using chosen
  have injective : Set.InjOn origins items := by
    intro left inLeft right inRight same
    have leads := (told left inLeft).2
    rw [same] at leads
    exact functional _ _ _ leads (told right inRight).2
  have image : items.image origins = items := by
    refine Finset.eq_of_subset_of_card_le ?_ (Finset.card_image_of_injOn injective).ge
    intro origin inImage
    obtain ⟨item, inside, rfl⟩ := Finset.mem_image.mp inImage
    exact (told item inside).1
  have sums : ∑ item ∈ items, weight (origins item) = ∑ item ∈ items, weight item := by
    conv_rhs => rw [← image]
    exact (Finset.sum_image injective).symm
  have equal := (Finset.sum_eq_sum_iff_of_le
    (fun item inside => lighter _ _ (told item inside).2)).mp sums.symm
  rw [← image] at member
  obtain ⟨item, inside, rfl⟩ := Finset.mem_image.mp member
  exact ⟨item, inside, (told item inside).2, equal item inside⟩

end Py
