import Mathlib.Data.List.Chain
import Mathlib.Data.List.Sort
import Pyverge.Py.Bisect
import Pyverge.Py.Effects

/-! Sorting with a comparison that may raise.
Which pairs a sort compares is its own business, except that it has to compare every two items
that end up next to each other.
-/

namespace Py

variable {ε α : Type}

/-- Place an item before the first one that is not smaller. -/
def insertSorted (lt : α → α → Except ε Bool) (item : α) : List α → Except ε (List α)
  | [] => .ok [item]
  | head :: rest => do
      if ← lt head item then return head :: (← insertSorted lt item rest)
      return item :: head :: rest

/-- A stable sort; `lt` is the only comparison it makes. -/
def sorted (lt : α → α → Except ε Bool) : List α → Except ε (List α)
  | [] => .ok []
  | item :: rest => do
      let ordered ← sorted lt rest
      insertSorted lt item ordered

theorem perm_of_insertSorted {lt : α → α → Except ε Bool} {item : α} {items result : List α}
    (run : insertSorted lt item items = .ok result)
    : result.Perm (item :: items) := by
  induction items generalizing result with
  | nil =>
      obtain rfl := Except.ok.inj run
      exact .rfl
  | cons head rest ih =>
      simp only [insertSorted, bind, Except.bind, pure, Except.pure] at run
      cases compared : lt head item with
      | error error => simp [compared] at run
      | ok smaller =>
          cases smaller with
          | false =>
              simp only [compared] at run
              obtain rfl := Except.ok.inj run
              exact .rfl
          | true =>
              cases placed : insertSorted lt item rest with
              | error error => simp [compared, placed] at run
              | ok later =>
                  simp only [compared, placed, if_true] at run
                  obtain rfl := Except.ok.inj run
                  exact ((ih placed).cons head).trans (.swap item head rest)

/-- A sort that returns, returns the items it was given, by list induction. -/
theorem perm_of_sorted {lt : α → α → Except ε Bool} {items result : List α}
    (run : sorted lt items = .ok result)
    : result.Perm items := by
  induction items generalizing result with
  | nil =>
      obtain rfl := Except.ok.inj run
      exact .rfl
  | cons item rest ih =>
      simp only [sorted, bind, Except.bind] at run
      cases ordered : sorted lt rest with
      | error error => simp [ordered] at run
      | ok later =>
          rw [ordered] at run
          exact (perm_of_insertSorted run).trans ((ih ordered).cons item)

/-- Sorting leaves a list alone whose later items are not smaller than earlier ones. -/
theorem sorted_of_pairwise {lt : α → α → Except ε Bool} {items : List α}
    (ordered : items.Pairwise (fun left right => lt right left = .ok false))
    : sorted lt items = .ok items := by
  induction items with
  | nil => rfl
  | cons item rest ih =>
      obtain ⟨first, later⟩ := List.pairwise_cons.mp ordered
      rw [sorted, ih later]
      cases rest with
      | nil => rfl
      | cons head tail =>
          have answer := first head (List.mem_cons_self ..)
          simp only [bind, Except.bind, insertSorted, answer]
          rfl

-----------------------------------------------------------------------------------------
-- Comparisons a sort makes
-----------------------------------------------------------------------------------------

theorem exists_insertSorted {lt : α → α → Except ε Bool} {item : α} {items : List α}
    (answers : ∀ other ∈ items, ∃ answer, lt other item = .ok answer)
    : ∃ result, insertSorted lt item items = .ok result := by
  induction items with
  | nil => exact ⟨[item], rfl⟩
  | cons head rest ih =>
      obtain ⟨smaller, compared⟩ := answers head List.mem_cons_self
      obtain ⟨placed, inserted⟩ :=
        ih (fun other inside => answers other (List.mem_cons_of_mem _ inside))
      simp only [insertSorted, compared, inserted, bind, Except.bind]
      cases smaller with
      | true => exact ⟨_, rfl⟩
      | false => exact ⟨_, rfl⟩

/-- A sort whose comparisons do not raise returns. -/
theorem exists_sorted {lt : α → α → Except ε Bool} {items : List α}
    (answers : ∀ left ∈ items, ∀ right ∈ items, ∃ answer, lt left right = .ok answer)
    : ∃ result, sorted lt items = .ok result := by
  induction items with
  | nil => exact ⟨[], rfl⟩
  | cons item rest ih =>
      obtain ⟨ordered, sortedRest⟩ := ih (fun left inLeft right inRight =>
        answers left (List.mem_cons_of_mem _ inLeft) right (List.mem_cons_of_mem _ inRight))
      rw [sorted, sortedRest]
      refine exists_insertSorted ?_
      intro other member
      have inside := (perm_of_sorted sortedRest).mem_iff.mp member
      exact answers other (List.mem_cons_of_mem _ inside) item List.mem_cons_self

/-- One of the two comparisons of the items has been answered. -/
def Compared (lt : α → α → Except ε Bool) (left right : α) : Prop :=
  (∃ answer, lt left right = .ok answer) ∨ ∃ answer, lt right left = .ok answer

theorem compared_insertSorted {lt : α → α → Except ε Bool} {item : α} {items result : List α}
    (run : insertSorted lt item items = .ok result) (compared : items.IsChain (Compared lt))
    : result.IsChain (Compared lt) ∧ (result.head? = some item ∨ result.head? = items.head?) := by
  induction items generalizing result with
  | nil =>
      obtain rfl := Except.ok.inj run
      exact ⟨.singleton _, .inl rfl⟩
  | cons head rest ih =>
      obtain ⟨smaller, asked, run⟩ := ok_bind_iff.mp run
      cases smaller with
      | true =>
          obtain ⟨placed, inserted, run⟩ := ok_bind_iff.mp run
          obtain rfl := Except.ok.inj run
          obtain ⟨first, later⟩ := List.isChain_cons.mp compared
          obtain ⟨chain, start⟩ := ih inserted later
          refine ⟨List.isChain_cons.mpr ⟨?_, chain⟩, .inr rfl⟩
          intro next isNext
          rcases start with isItem | isOld
          · obtain rfl := Option.some.inj (isItem.symm.trans isNext)
            exact .inl ⟨true, asked⟩
          · exact first next (isOld ▸ isNext)
      | false =>
          obtain rfl := Except.ok.inj run
          refine ⟨List.isChain_cons_cons.mpr ⟨.inr ⟨false, asked⟩, compared⟩, .inl rfl⟩

/-- A sort has compared every two items that end up next to each other. -/
theorem compared_sorted {lt : α → α → Except ε Bool} {items result : List α}
    (run : sorted lt items = .ok result)
    : result.IsChain (Compared lt) := by
  induction items generalizing result with
  | nil =>
      obtain rfl := Except.ok.inj run
      exact .nil
  | cons item rest ih =>
      obtain ⟨later, ordered, run⟩ := ok_bind_iff.mp run
      exact (compared_insertSorted run (ih ordered)).1

-----------------------------------------------------------------------------------------
-- Sorting by an order
-----------------------------------------------------------------------------------------

section Ordered

variable {cmp : α → α → Ordering} [Std.TransCmp cmp] {lt : α → α → Except ε Bool}

theorem insertSorted_ordered
    (agrees : ∀ left right answer, lt left right = .ok answer → (cmp left right == .lt) = answer)
    {item : α} {items result : List α}
    (ordered : items.Pairwise (fun left right => cmp left right ≠ .gt))
    (run : insertSorted lt item items = .ok result)
    : result.Pairwise (fun left right => cmp left right ≠ .gt) := by
  induction items generalizing result with
  | nil =>
      obtain rfl := Except.ok.inj run
      exact List.pairwise_singleton _ _
  | cons head rest ih =>
      obtain ⟨first, later⟩ := List.pairwise_cons.mp ordered
      obtain ⟨smaller, compared, run⟩ := ok_bind_iff.mp run
      have answer := agrees head item smaller compared
      cases smaller with
      | true =>
          obtain ⟨placed, inserted, run⟩ := ok_bind_iff.mp run
          obtain rfl := Except.ok.inj run
          refine List.pairwise_cons.mpr ⟨?_, ih later inserted⟩
          intro other member
          rcases List.mem_cons.mp ((perm_of_insertSorted inserted).mem_iff.mp member) with rfl | old
          · simp_all
          · exact first other old
      | false =>
          obtain rfl := Except.ok.inj run
          have below : cmp item head ≠ .gt := by
            intro above
            have lt : cmp head item = .lt := Std.OrientedCmp.lt_of_gt above
            simp [lt] at answer
          refine List.pairwise_cons.mpr ⟨?_, ordered⟩
          intro other member
          rcases List.mem_cons.mp member with rfl | old
          · exact below
          · exact Ordering.isLE_iff_ne_gt.mp (Std.TransCmp.isLE_trans
              (Ordering.isLE_iff_ne_gt.mpr below) (Ordering.isLE_iff_ne_gt.mpr (first other old)))

/-- A sort that returns has put the items in order, by list induction. -/
theorem sorted_ordered
    (agrees : ∀ left right answer, lt left right = .ok answer → (cmp left right == .lt) = answer)
    {items result : List α} (run : sorted lt items = .ok result)
    : result.Pairwise (fun left right => cmp left right ≠ .gt) := by
  induction items generalizing result with
  | nil =>
      obtain rfl := Except.ok.inj run
      exact .nil
  | cons item rest ih =>
      obtain ⟨later, ordered, run⟩ := ok_bind_iff.mp run
      exact insertSorted_ordered agrees (ih ordered) run

end Ordered

/-- A sort of distinct items is strict if no two of them compare equal. -/
theorem sortedBy_of_sorted {κ : Type} {key : α → κ} {cmp : κ → κ → Ordering} [Std.TransCmp cmp]
    {lt : α → α → Except ε Bool}
    (agrees : ∀ left right answer, lt left right = .ok answer →
      (cmp (key left) (key right) == .lt) = answer)
    {items result : List α} (distinct : items.Nodup)
    (unique : ∀ left ∈ items, ∀ right ∈ items, cmp (key left) (key right) = .eq → left = right)
    (run : sorted lt items = .ok result)
    : SortedBy key cmp result := by
  have ordered : result.Pairwise (fun left right => cmp (key left) (key right) ≠ .gt) :=
    haveI := transCmp_on cmp key
    sorted_ordered agrees run
  have members := perm_of_sorted run
  refine (ordered.and (members.nodup_iff.mpr distinct)).imp_of_mem ?_
  intro left right inLeft inRight related
  cases order : cmp (key left) (key right) with
  | lt => rfl
  | gt => exact (related.1 order).elim
  | eq =>
      have same := unique left (members.mem_iff.mp inLeft) right (members.mem_iff.mp inRight) order
      exact (related.2 same).elim

/-- The answers of `==`, `<` and `>` among values that may be compared: a total order in which
exactly the values that are equal take the same place.
-/
structure TotalOrder (Comparable : α → α → Prop) (eq lt gt : α → α → Except ε Bool) : Prop where
  refl : ∀ one, eq one one = .ok true
  symm : ∀ one other, Comparable one other → eq one other = .ok true → eq other one = .ok true
  trans : ∀ one two three, Comparable one two → Comparable two three →
    eq one two = .ok true → eq two three = .ok true → eq one three = .ok true
  trichotomy : ∀ one other, Comparable one other →
    (lt one other = .ok true ∧ eq one other = .ok false ∧ gt one other = .ok false)
      ∨ (lt one other = .ok false ∧ eq one other = .ok true ∧ gt one other = .ok false)
      ∨ (lt one other = .ok false ∧ eq one other = .ok false ∧ gt one other = .ok true)
  converse : ∀ one other, Comparable one other → gt one other = lt other one
  ltTrans : ∀ one two three, Comparable one two → Comparable two three →
    lt one two = .ok true → lt two three = .ok true → lt one three = .ok true
  ltOfEqOfLt : ∀ one two three, Comparable one two → Comparable two three →
    eq one two = .ok true → lt two three = .ok true → lt one three = .ok true
  ltOfLtOfEq : ∀ one two three, Comparable one two → Comparable two three →
    lt one two = .ok true → eq two three = .ok true → lt one three = .ok true

/-- Comparisons that follow a lawful order are total. -/
theorem TotalOrder.of_cmp {Comparable : α → α → Prop} {eq lt gt : α → α → Except ε Bool}
    (cmp : α → α → Ordering) [Std.TransCmp cmp] (equivalence : Equivalence Comparable)
    (eqAnswer : ∀ one other, Comparable one other → eq one other = .ok (cmp one other == .eq))
    (ltAnswer : ∀ one other, Comparable one other → lt one other = .ok (cmp one other == .lt))
    (gtAnswer : ∀ one other, Comparable one other → gt one other = .ok (cmp one other == .gt))
    : TotalOrder Comparable eq lt gt := by
  have isEq : ∀ {one other}, Comparable one other →
      (eq one other = .ok true ↔ cmp one other = .eq) := by
    intro one other comparable
    simp [eqAnswer one other comparable]
  have isLt : ∀ {one other}, Comparable one other →
      (lt one other = .ok true ↔ cmp one other = .lt) := by
    intro one other comparable
    simp [ltAnswer one other comparable]
  constructor
  case refl =>
    intro one
    exact (isEq (equivalence.refl one)).mpr Std.ReflCmp.compare_self
  case symm =>
    intro one other comparable equal
    apply (isEq (equivalence.symm comparable)).mpr
    exact Std.OrientedCmp.eq_symm ((isEq comparable).mp equal)
  case trans =>
    intro one two three first second equal more
    apply (isEq (equivalence.trans first second)).mpr
    exact Std.TransCmp.eq_trans ((isEq first).mp equal) ((isEq second).mp more)
  case trichotomy =>
    intro one other comparable
    rw [eqAnswer _ _ comparable, ltAnswer _ _ comparable, gtAnswer _ _ comparable]
    cases cmp one other with
    | lt => exact .inl ⟨rfl, rfl, rfl⟩
    | eq => exact .inr (.inl ⟨rfl, rfl, rfl⟩)
    | gt => exact .inr (.inr ⟨rfl, rfl, rfl⟩)
  case converse =>
    intro one other comparable
    have swapped : cmp one other = (cmp other one).swap := Std.OrientedCmp.eq_swap
    rw [gtAnswer _ _ comparable, ltAnswer _ _ (equivalence.symm comparable), swapped]
    cases cmp other one <;> rfl
  case ltTrans =>
    intro one two three first second below further
    apply (isLt (equivalence.trans first second)).mpr
    exact Std.TransCmp.lt_trans ((isLt first).mp below) ((isLt second).mp further)
  case ltOfEqOfLt =>
    intro one two three first second equal below
    apply (isLt (equivalence.trans first second)).mpr
    exact Std.TransCmp.lt_of_eq_of_lt ((isEq first).mp equal) ((isLt second).mp below)
  case ltOfLtOfEq =>
    intro one two three first second below equal
    apply (isLt (equivalence.trans first second)).mpr
    exact Std.TransCmp.lt_of_lt_of_eq ((isLt first).mp below) ((isEq second).mp equal)

end Py
