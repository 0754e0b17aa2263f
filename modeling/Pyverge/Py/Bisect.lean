import Mathlib.Data.List.Basic
import Mathlib.Data.List.Forall2
import Mathlib.Data.List.InsertIdx
import Mathlib.Data.List.Sort
import Mathlib.Order.Compare

/-! Binary search with a comparison that may raise, and the sorted lists it maintains.
The search only looks at the midpoints it needs, so an error of the comparison escapes exactly
when such a midpoint is compared.
-/

namespace Py

variable {ε α κ : Type}

-----------------------------------------------------------------------------------------
-- The search loop
-----------------------------------------------------------------------------------------

/-- The half-open search window `[lo, hi)`; `below item` answers `item < x`. -/
def bisectLoop (below : α → Except ε Bool) (items : List α) : Nat → Nat → Nat → Except ε Nat
  | 0, lo, _ => .ok lo
  | fuel + 1, lo, hi =>
      if lo < hi then
        match items[(lo + hi) / 2]? with
        | none => .ok lo
        | some item =>
            match below item with
            | .error error => .error error
            | .ok true => bisectLoop below items fuel ((lo + hi) / 2 + 1) hi
            | .ok false => bisectLoop below items fuel lo ((lo + hi) / 2)
      else .ok lo

/-- The index of `bisect_left`; every pass shrinks the window, so its length is enough fuel. -/
def bisectLeft (below : α → Except ε Bool) (items : List α) : Except ε Nat :=
  bisectLoop below items items.length 0 items.length

/-- The index of `bisect_right`, whose loop asks whether `x < item` instead. -/
def bisectRight (above : α → Except ε Bool) (items : List α) : Except ε Nat :=
  bisectLeft (fun item => (above item).map (!·)) items

/-- An element at or left of a `below` element is `below` too. -/
def Partitioned (below : α → Bool) (items : List α) : Prop :=
  items.Pairwise (fun left right => below right = true → below left = true)

theorem Partitioned.getElem {below : α → Bool} {items : List α}
    (part : Partitioned below items) {i j : Nat} (hi : i < items.length)
    (hj : j < items.length) (le : i ≤ j) (hit : below items[j] = true)
    : below items[i] = true := by
  rcases Nat.lt_or_eq_of_le le with lt | rfl
  · exact List.pairwise_iff_getElem.mp part i j hi hj lt hit
  · exact hit

/-- The loop ends at the boundary it is told of, by induction on the fuel: the boundary stays
inside the window.
-/
theorem bisectLoop_eq {below : α → Except ε Bool} {holds : α → Bool} {items : List α}
    (total : ∀ item ∈ items, below item = .ok (holds item)) {cut : Nat}
    (low : ∀ i (bound : i < items.length), i < cut → holds items[i] = true)
    (high : ∀ i (bound : i < items.length), cut ≤ i → holds items[i] = false)
    (fuel lo hi : Nat) (room : hi - lo ≤ fuel) (lower : lo ≤ cut) (upper : cut ≤ hi)
    (inside : hi ≤ items.length)
    : bisectLoop below items fuel lo hi = .ok cut := by
  induction fuel generalizing lo hi with
  | zero =>
      have same : lo = cut := by omega
      simp only [bisectLoop, same]
  | succ fuel ih =>
      unfold bisectLoop
      by_cases active : lo < hi
      · have mid : (lo + hi) / 2 < items.length := by omega
        rw [if_pos active, List.getElem?_eq_getElem mid]
        simp only [total _ (List.getElem_mem mid)]
        cases answer : holds items[(lo + hi) / 2] with
        | true =>
            have beyond : (lo + hi) / 2 < cut := by
              by_contra not
              have falsum := high _ mid (by omega)
              simp [answer] at falsum
            exact ih ((lo + hi) / 2 + 1) hi (by omega) (by omega) upper inside
        | false =>
            have before : cut ≤ (lo + hi) / 2 := by
              by_contra not
              have verum := low _ mid (by omega)
              simp [answer] at verum
            exact ih lo ((lo + hi) / 2) (by omega) lower before (by omega)
      · have same : lo = cut := by omega
        rw [if_neg active, same]

/-- On a partitioned list the search returns the index of the first item not `below`. -/
theorem bisectLeft_eq {below : α → Except ε Bool} {holds : α → Bool} {items : List α}
    (total : ∀ item ∈ items, below item = .ok (holds item)) (part : Partitioned holds items)
    : bisectLeft below items = .ok (items.findIdx (fun item => !holds item)) := by
  refine bisectLoop_eq total ?_ ?_ _ _ _ (by omega) (Nat.zero_le _) List.findIdx_le_length
    (Nat.le_refl _)
  · intro i inside lt
    simpa using List.not_of_lt_findIdx lt
  · intro i inside ge
    by_contra truth
    rw [Bool.not_eq_false] at truth
    have cut : items.findIdx (fun item => !holds item) < items.length := by omega
    have first := part.getElem cut inside ge truth
    have stop := List.findIdx_getElem (w := cut)
    simp [first] at stop

/-- A search that returns has followed the answers its comparison gave, by induction on the
fuel.
-/
theorem bisectLoop_of_ok {below : α → Except ε Bool} {holds : α → Bool} {items : List α}
    (agree : ∀ item ∈ items, ∀ answer, below item = .ok answer → holds item = answer)
    {fuel lo hi index : Nat} (run : bisectLoop below items fuel lo hi = .ok index)
    : bisectLoop (ε := ε) (fun item => .ok (holds item)) items fuel lo hi = .ok index := by
  induction fuel generalizing lo hi with
  | zero => exact run
  | succ fuel ih =>
      unfold bisectLoop at run ⊢
      by_cases active : lo < hi
      · rw [if_pos active] at run ⊢
        cases at_ : items[(lo + hi) / 2]? with
        | none => simpa [at_] using run
        | some item =>
            simp only [at_] at run ⊢
            cases asked : below item with
            | error error => simp [asked] at run
            | ok answer =>
                rw [agree item (List.mem_of_getElem? at_) answer asked]
                rw [asked] at run
                cases answer <;> exact ih run
      · rwa [if_neg active] at run ⊢

/-- On a partitioned list a search that returns, returns the boundary. -/
theorem bisectLeft_of_ok {below : α → Except ε Bool} {holds : α → Bool} {items : List α}
    (agree : ∀ item ∈ items, ∀ answer, below item = .ok answer → holds item = answer)
    (part : Partitioned holds items) {index : Nat} (run : bisectLeft below items = .ok index)
    : index = items.findIdx (fun item => !holds item) := by
  have followed := bisectLoop_of_ok agree run
  have boundary := bisectLeft_eq (ε := ε) (fun item _ => rfl) part
  exact Except.ok.inj (followed.symm.trans boundary)

/-- A search that returns has asked about the items on both sides of its result, by induction on
the fuel: the window is always enclosed by items it has asked about.
-/
theorem bisectLoop_asked {below : α → Except ε Bool} {items : List α} {fuel lo hi index : Nat}
    (run : bisectLoop below items fuel lo hi = .ok index) (room : hi - lo ≤ fuel)
    (window : lo ≤ hi) (inside : hi ≤ items.length)
    (low : ∀ i (bound : i < items.length), i + 1 = lo → below items[i] = .ok true)
    (high : ∀ bound : hi < items.length, below items[hi] = .ok false)
    : (∀ i (bound : i < items.length), i + 1 = index → below items[i] = .ok true)
      ∧ ∀ bound : index < items.length, below items[index] = .ok false := by
  induction fuel generalizing lo hi with
  | zero =>
      obtain rfl := Except.ok.inj run
      obtain rfl : lo = hi := by omega
      exact ⟨low, high⟩
  | succ fuel ih =>
      unfold bisectLoop at run
      by_cases active : lo < hi
      · have mid : (lo + hi) / 2 < items.length := by omega
        rw [if_pos active, List.getElem?_eq_getElem mid] at run
        cases asked : below items[(lo + hi) / 2] with
        | error error => simp [asked] at run
        | ok answer =>
            simp only [asked] at run
            cases answer with
            | true =>
                refine ih run (by omega) (by omega) inside ?_ high
                intro i bound next
                obtain rfl : i = (lo + hi) / 2 := by omega
                exact asked
            | false => exact ih run (by omega) (by omega) (by omega) low (fun _ => asked)
      · rw [if_neg active] at run
        obtain rfl := Except.ok.inj run
        obtain rfl : lo = hi := by omega
        exact ⟨low, high⟩

theorem bisectLeft_asked {below : α → Except ε Bool} {items : List α} {index : Nat}
    (run : bisectLeft below items = .ok index)
    : (∀ i (bound : i < items.length), i + 1 = index → below items[i] = .ok true)
      ∧ ∀ bound : index < items.length, below items[index] = .ok false :=
  bisectLoop_asked run (by omega) (Nat.zero_le _) (Nat.le_refl _) (fun _ _ next => by omega)
    (fun bound => by omega)

/-- A comparison that always raises lets no search of a nonempty list return. -/
theorem bisectLeft_error {below : α → Except ε Bool} {items : List α} {error : ε}
    (raises : ∀ item ∈ items, below item = .error error) (nonempty : items ≠ [])
    : bisectLeft below items = .error error := by
  obtain ⟨count, length⟩ := Nat.exists_eq_succ_of_ne_zero
    (mt List.length_eq_zero_iff.mp nonempty)
  have mid : (0 + items.length) / 2 < items.length := by omega
  unfold bisectLeft
  rw [length]
  unfold bisectLoop
  rw [if_pos (Nat.succ_pos count), ← length, List.getElem?_eq_getElem mid]
  simp only [raises _ (List.getElem_mem mid)]

/-- A search raises what one of its comparisons raises, by induction on the fuel. -/
theorem exists_of_bisectLoop_error {below : α → Except ε Bool} {items : List α}
    {fuel lo hi : Nat} {error : ε} (run : bisectLoop below items fuel lo hi = .error error)
    : ∃ item ∈ items, below item = .error error := by
  induction fuel generalizing lo hi with
  | zero => cases run
  | succ fuel ih =>
      unfold bisectLoop at run
      by_cases active : lo < hi
      · rw [if_pos active] at run
        cases place : items[(lo + hi) / 2]? with
        | none => simp [place] at run
        | some item =>
            simp only [place] at run
            cases asked : below item with
            | error raised =>
                rw [asked] at run
                obtain rfl := Except.error.inj run
                exact ⟨item, List.mem_of_getElem? place, asked⟩
            | ok answer =>
                rw [asked] at run
                cases answer <;> exact ih run
      · rw [if_neg active] at run
        cases run

theorem exists_of_bisectLeft_error {below : α → Except ε Bool} {items : List α} {error : ε}
    (run : bisectLeft below items = .error error)
    : ∃ item ∈ items, below item = .error error :=
  exists_of_bisectLoop_error run

-----------------------------------------------------------------------------------------
-- Strictly sorted lists
-----------------------------------------------------------------------------------------

/-- Comparing items by a part of them is as transitive as comparing the parts. -/
theorem transCmp_on (cmp : κ → κ → Ordering) [Std.TransCmp cmp] (part : α → κ)
    : Std.TransCmp (fun left right : α => cmp (part left) (part right)) where
  eq_swap {_ _} := Std.OrientedCmp.eq_swap
  isLE_trans {_ _ _} := Std.TransCmp.isLE_trans

section Sorted

variable (key : α → κ) (cmp : κ → κ → Ordering)

/-- Keys strictly increase from left to right, so no two items have equal keys. -/
def SortedBy (items : List α) : Prop :=
  items.Pairwise (fun left right => cmp (key left) (key right) = .lt)

/-- The first index whose key is not smaller than `x`. -/
def lowerBound (x : κ) (items : List α) : Nat :=
  items.findIdx (fun item => !(cmp (key item) x == .lt))

variable {key cmp} [Std.TransCmp cmp]

theorem SortedBy.nodup_keys {items : List α} (sorted : SortedBy key cmp items)
    : (items.map key).Nodup := by
  refine List.pairwise_map.mpr (sorted.imp ?_)
  intro left right lt same
  simp [same, Std.ReflCmp.compare_self] at lt

theorem SortedBy.partitioned {items : List α} (sorted : SortedBy key cmp items) (x : κ)
    : Partitioned (fun item => cmp (key item) x == .lt) items := by
  refine sorted.imp ?_
  intro left right lt hit
  simp only [beq_iff_eq] at hit ⊢
  exact Std.TransCmp.lt_trans lt hit

theorem SortedBy.bisectLeft_eq {items : List α} (sorted : SortedBy key cmp items) (x : κ)
    {below : α → Except ε Bool}
    (total : ∀ item ∈ items, below item = .ok (cmp (key item) x == .lt))
    : bisectLeft below items = .ok (lowerBound key cmp x items) :=
  Py.bisectLeft_eq total (sorted.partitioned x)

/-- Without an equal key, searching from the right finds the same index. -/
theorem SortedBy.bisectRight_eq {items : List α} (sorted : SortedBy key cmp items) (x : κ)
    {above : α → Except ε Bool}
    (total : ∀ item ∈ items, above item = .ok (cmp x (key item) == .lt))
    (absent : ∀ item ∈ items, cmp (key item) x ≠ .eq)
    : bisectRight above items = .ok (lowerBound key cmp x items) := by
  refine sorted.bisectLeft_eq x ?_
  intro item member
  have neq := absent item member
  rw [total item member]
  have swapped : cmp x (key item) = (cmp (key item) x).swap := Std.OrientedCmp.eq_swap
  rw [swapped]
  cases order : cmp (key item) x <;> simp_all [Except.map]

theorem SortedBy.bisectLeft_of_ok {items : List α} (sorted : SortedBy key cmp items) (x : κ)
    {below : α → Except ε Bool}
    (agree : ∀ item ∈ items, ∀ answer, below item = .ok answer
      → (cmp (key item) x == .lt) = answer)
    {index : Nat} (run : bisectLeft below items = .ok index)
    : index = lowerBound key cmp x items :=
  Py.bisectLeft_of_ok agree (sorted.partitioned x) run

theorem SortedBy.bisectRight_of_ok {items : List α} (sorted : SortedBy key cmp items) (x : κ)
    {above : α → Except ε Bool}
    (agree : ∀ item ∈ items, ∀ answer, above item = .ok answer
      → (cmp x (key item) == .lt) = answer)
    (absent : ∀ item ∈ items, cmp (key item) x ≠ .eq)
    {index : Nat} (run : bisectRight above items = .ok index)
    : index = lowerBound key cmp x items := by
  refine sorted.bisectLeft_of_ok x ?_ run
  intro item member answer asked
  have neq := absent item member
  have swapped : cmp x (key item) = (cmp (key item) x).swap := Std.OrientedCmp.eq_swap
  cases compared : above item with
  | error error => simp [compared, Except.map] at asked
  | ok greater =>
      have same := agree item member greater compared
      rw [swapped] at same
      rw [compared] at asked
      obtain rfl := Except.ok.inj asked
      cases order : cmp (key item) x <;> simp_all

/-- The search stops at the item with an equal key if there is one, by list induction. -/
theorem SortedBy.getElem?_lowerBound {items : List α} (sorted : SortedBy key cmp items) (x : κ)
    : (items[lowerBound key cmp x items]?).filter (fun item => cmp (key item) x == .eq)
      = items.find? (fun item => cmp (key item) x == .eq) := by
  induction items with
  | nil => rfl
  | cons head rest ih =>
      obtain ⟨above, tail⟩ := List.pairwise_cons.mp sorted
      cases order : cmp (key head) x with
      | lt =>
          have next := ih tail
          simpa [lowerBound, List.findIdx_cons, List.find?_cons, order] using next
      | eq => simp [lowerBound, List.findIdx_cons, order]
      | gt =>
          have none : rest.find? (fun item => cmp (key item) x == .eq) = none := by
            rw [List.find?_eq_none]
            intro item member
            have lt := above item member
            have gt : cmp (key item) x = .gt :=
              Std.TransCmp.gt_trans (Std.OrientedCmp.gt_of_lt lt) order
            simp [gt]
          simp [lowerBound, List.findIdx_cons, order, none]

omit [Std.TransCmp cmp] in
theorem lowerBound_le (x : κ) (items : List α)
    : lowerBound key cmp x items ≤ items.length :=
  List.findIdx_le_length

/-- Inserting a new key at its lower bound keeps the list sorted, by list induction. -/
theorem SortedBy.insertIdx {items : List α} (sorted : SortedBy key cmp items) {item : α}
    (absent : ∀ other ∈ items, cmp (key other) (key item) ≠ .eq)
    : SortedBy key cmp (items.insertIdx (lowerBound key cmp (key item) items) item) := by
  induction items with
  | nil => simp [SortedBy, lowerBound]
  | cons head rest ih =>
      obtain ⟨above, tail⟩ := List.pairwise_cons.mp sorted
      have absentTail := fun other member => absent other (List.mem_cons_of_mem head member)
      cases order : cmp (key head) (key item) with
      | lt =>
          have next := ih tail absentTail
          have step : lowerBound key cmp (key item) (head :: rest)
              = lowerBound key cmp (key item) rest + 1 := by
            simp [lowerBound, List.findIdx_cons, order]
          rw [step, List.insertIdx_succ_cons]
          refine List.pairwise_cons.mpr ⟨?_, next⟩
          intro other member
          rcases List.eq_or_mem_of_mem_insertIdx member with rfl | member
          · exact order
          · exact above other member
      | eq => exact (absent head (by simp) order).elim
      | gt =>
          have step : lowerBound key cmp (key item) (head :: rest) = 0 := by
            simp [lowerBound, List.findIdx_cons, order]
          rw [step, List.insertIdx_zero]
          have first : cmp (key item) (key head) = .lt := Std.OrientedCmp.lt_of_gt order
          refine List.pairwise_cons.mpr ⟨?_, sorted⟩
          intro other member
          rcases List.mem_cons.mp member with rfl | member
          · exact first
          · exact Std.TransCmp.lt_trans first (above other member)

/-- Deleting the found index drops exactly the item with an equal key. -/
theorem SortedBy.eraseIdx_eq_filter {items : List α} (sorted : SortedBy key cmp items) {x : κ}
    {found : α} (hit : items[lowerBound key cmp x items]? = some found)
    (equal : cmp (key found) x = .eq)
    : items.eraseIdx (lowerBound key cmp x items)
      = items.filter (fun item => !(cmp (key item) x == .eq)) := by
  induction items with
  | nil => simp [lowerBound] at hit
  | cons head rest ih =>
      obtain ⟨above, tail⟩ := List.pairwise_cons.mp sorted
      cases order : cmp (key head) x with
      | lt =>
          have step : lowerBound key cmp x (head :: rest) = lowerBound key cmp x rest + 1 := by
            simp [lowerBound, List.findIdx_cons, order]
          rw [step] at hit ⊢
          have next := ih tail (by simpa using hit)
          simp [order, next]
      | eq =>
          have step : lowerBound key cmp x (head :: rest) = 0 := by
            simp [lowerBound, List.findIdx_cons, order]
          have others : rest.filter (fun item => !(cmp (key item) x == .eq)) = rest := by
            rw [List.filter_eq_self]
            intro item member
            have gt : cmp x (key item) = .lt :=
              Std.TransCmp.lt_of_eq_of_lt (Std.OrientedCmp.eq_symm order) (above item member)
            simp [Std.OrientedCmp.gt_of_lt gt]
          simp [step, order, others]
      | gt =>
          have step : lowerBound key cmp x (head :: rest) = 0 := by
            simp [lowerBound, List.findIdx_cons, order]
          rw [step] at hit
          have same : head = found := by simpa using hit
          subst same
          simp [order] at equal

theorem SortedBy.eraseIdx_of_find? {items : List α} (sorted : SortedBy key cmp items) {x : κ}
    {found : α} (hit : items.find? (fun item => cmp (key item) x == .eq) = some found)
    : items.eraseIdx (lowerBound key cmp x items)
      = items.filter (fun item => !(cmp (key item) x == .eq)) := by
  have search := sorted.getElem?_lowerBound x
  rw [hit] at search
  obtain ⟨at_, equal⟩ := Option.filter_eq_some_iff.mp search
  exact sorted.eraseIdx_eq_filter at_ (by simpa using equal)

theorem SortedBy.eq_of_mem {items others : List α} (left : SortedBy key cmp items)
    (right : SortedBy key cmp others) (same : ∀ item, item ∈ items ↔ item ∈ others)
    : items = others := by
  let less : α → α → Prop := fun a b => cmp (key a) (key b) = .lt
  have irrefl : Std.Irrefl less :=
    ⟨fun item lt => by simp [less, Std.ReflCmp.compare_self] at lt⟩
  have asymm : Std.Antisymm less :=
    ⟨fun a b lt gt => by simp [less, Std.OrientedCmp.gt_of_lt lt] at gt⟩
  exact List.Pairwise.eq_of_mem_iff (r := less) left right same

omit [Std.TransCmp cmp] in
theorem SortedBy.filter {items : List α} (sorted : SortedBy key cmp items) (keep : α → Bool)
    : SortedBy key cmp (items.filter keep) :=
  sorted.sublist List.filter_sublist

/-- The keys at two places compare as the places do. -/
theorem SortedBy.lt_iff {items : List α} (sorted : SortedBy key cmp items) {i j : Nat}
    {left right : α} (atLeft : items[i]? = some left) (atRight : items[j]? = some right)
    : cmp (key left) (key right) = .lt ↔ i < j := by
  obtain ⟨inLeft, rfl⟩ := List.getElem?_eq_some_iff.mp atLeft
  obtain ⟨inRight, rfl⟩ := List.getElem?_eq_some_iff.mp atRight
  have places := List.pairwise_iff_getElem.mp sorted
  constructor
  · intro lt
    rcases Nat.lt_trichotomy i j with before | rfl | after
    · exact before
    · simp [Std.ReflCmp.compare_self] at lt
    · have gt := places j i inRight inLeft after
      simp [Std.OrientedCmp.gt_of_lt gt] at lt
  · exact places i j inLeft inRight

/-- Places are neighbours exactly if no key lies strictly between theirs. -/
theorem SortedBy.succ_iff {items : List α} (sorted : SortedBy key cmp items) {i j : Nat}
    {left right : α} (atLeft : items[i]? = some left) (atRight : items[j]? = some right)
    (before : i < j)
    : j = i + 1
      ↔ ∀ item ∈ items, ¬ (cmp (key left) (key item) = .lt ∧ cmp (key item) (key right) = .lt) := by
  constructor
  · intro next item member strictly
    obtain ⟨k, atItem⟩ := List.mem_iff_getElem?.mp member
    have lower := (sorted.lt_iff atLeft atItem).mp strictly.1
    have upper := (sorted.lt_iff atItem atRight).mp strictly.2
    omega
  · intro nothing
    by_contra apart
    obtain ⟨inside, _⟩ := List.getElem?_eq_some_iff.mp atRight
    have atNext : items[i + 1]? = some (items[i + 1]) := List.getElem?_eq_getElem (by omega)
    refine nothing _ (List.mem_of_getElem? atNext) ⟨?_, ?_⟩
    · exact (sorted.lt_iff atLeft atNext).mpr (by omega)
    · exact (sorted.lt_iff atNext atRight).mpr (by omega)

/-- Keys that compare equal have one lower bound. -/
theorem lowerBound_congr {x y : κ} (equal : cmp x y = .eq) (items : List α)
    : lowerBound key cmp x items = lowerBound key cmp y items := by
  unfold lowerBound
  congr 1
  funext item
  rw [Std.TransCmp.congr_right equal]

/-- Items with equal keys are the same item, since different places compare strictly. -/
theorem SortedBy.eq_of_cmp_eq {items : List α} (sorted : SortedBy key cmp items)
    {left right : α} (inLeft : left ∈ items) (inRight : right ∈ items)
    (equal : cmp (key left) (key right) = .eq)
    : left = right := by
  obtain ⟨i, hi, rfl⟩ := List.getElem_of_mem inLeft
  obtain ⟨j, hj, rfl⟩ := List.getElem_of_mem inRight
  have places := List.pairwise_iff_getElem.mp sorted
  rcases Nat.lt_trichotomy i j with lt | rfl | gt
  · rw [places i j hi hj lt] at equal
    cases equal
  · rfl
  · rw [Std.OrientedCmp.gt_of_lt (places j i hj hi gt)] at equal
    cases equal

/-- In a sorted list the lower bound counts the smaller keys, by list induction. -/
theorem SortedBy.lowerBound_eq_countP {items : List α} (sorted : SortedBy key cmp items) (x : κ)
    : lowerBound key cmp x items = items.countP (fun item => cmp (key item) x == .lt) := by
  induction items with
  | nil => rfl
  | cons head rest ih =>
      obtain ⟨above, tail⟩ := List.pairwise_cons.mp sorted
      cases smaller : cmp (key head) x == .lt with
      | true =>
          have later := ih tail
          unfold lowerBound at later
          simp [lowerBound, List.findIdx_cons, smaller, later]
      | false =>
          have none : ∀ item ∈ head :: rest, ¬ (cmp (key item) x == .lt) = true := by
            intro item member below
            rcases List.mem_cons.mp member with rfl | inRest
            · exact absurd below (by simp [smaller])
            · have head := Std.TransCmp.lt_trans (above item inRest) (by simpa using below)
              simp [head] at smaller
          rw [List.countP_eq_zero.mpr none]
          simp [lowerBound, List.findIdx_cons, smaller]

/-- Of equal items a sorted list holds one, so a search finds the one there is. -/
theorem SortedBy.find?_eq_some {items : List α} (sorted : SortedBy key cmp items) {x : κ}
    {found : α}
    : items.find? (fun item => cmp (key item) x == .eq) = some found
      ↔ found ∈ items ∧ cmp (key found) x = .eq := by
  constructor
  · intro hit
    exact ⟨List.mem_of_find?_eq_some hit, by simpa using List.find?_some hit⟩
  · intro given
    rcases given with ⟨member, equal⟩
    cases hit : items.find? (fun item => cmp (key item) x == .eq) with
    | none =>
        have miss := List.find?_eq_none.mp hit found member
        simp [equal] at miss
    | some other =>
        have like : cmp (key other) x = .eq := by simpa using List.find?_some hit
        have alike := Std.TransCmp.eq_trans like (Std.OrientedCmp.eq_symm equal)
        rw [sorted.eq_of_cmp_eq (List.mem_of_find?_eq_some hit) member alike]

/-- The lower bound of a key that stands in the list is its place. -/
theorem SortedBy.lowerBound_of_getElem? {items : List α} (sorted : SortedBy key cmp items)
    {i : Nat} {item : α} (at_ : items[i]? = some item)
    : lowerBound key cmp (key item) items = i := by
  have found : items.find? (fun other => cmp (key other) (key item) == .eq) = some item :=
    sorted.find?_eq_some.mpr ⟨List.mem_of_getElem? at_, Std.ReflCmp.compare_self⟩
  have search := sorted.getElem?_lowerBound (key item)
  rw [found] at search
  have place := (Option.filter_eq_some_iff.mp search).1
  rcases Nat.lt_trichotomy (lowerBound key cmp (key item) items) i with lt | same | gt
  · have strict := (sorted.lt_iff place at_).mpr lt
    simp [Std.ReflCmp.compare_self] at strict
  · exact same
  · have strict := (sorted.lt_iff at_ place).mpr gt
    simp [Std.ReflCmp.compare_self] at strict

/-- Before the lower bound of a key stand the smaller keys. -/
theorem SortedBy.lt_lowerBound_iff {items : List α} (sorted : SortedBy key cmp items) {x : κ}
    {index : Nat} {item : α} (at_ : items[index]? = some item)
    : index < lowerBound key cmp x items ↔ cmp (key item) x = .lt := by
  obtain ⟨inside, rfl⟩ := List.getElem?_eq_some_iff.mp at_
  constructor
  · intro before
    simpa using List.not_of_lt_findIdx before
  · intro smaller
    by_contra notBefore
    have place : lowerBound key cmp x items < items.length := by omega
    have least : cmp (key items[lowerBound key cmp x items]) x ≠ .lt := by
      have stop : (!(cmp (key items[lowerBound key cmp x items]) x == .lt)) = true :=
        List.findIdx_getElem (w := place)
      intro below
      simp [below] at stop
    rcases Nat.lt_or_eq_of_le (Nat.le_of_not_lt notBefore) with later | same
    · exact least (Std.TransCmp.lt_trans ((sorted.lt_iff
        (List.getElem?_eq_getElem place) at_).mpr later) smaller)
    · exact least (by simpa [same] using smaller)

/-- Sorted lists are alike item by item exactly if each item has its like in the other list, by
induction on the first list.
-/
theorem SortedBy.forall₂_iff {Alike : α → α → Prop}
    (keys : ∀ item other, Alike item other → key item = key other) {items others : List α}
    (left : SortedBy key cmp items) (right : SortedBy key cmp others)
    : List.Forall₂ Alike items others
      ↔ (∀ item ∈ items, ∃ other ∈ others, Alike item other)
        ∧ ∀ other ∈ others, ∃ item ∈ items, Alike item other := by
  have irrefl : ∀ {x y : α}, key x = key y → cmp (key x) (key y) ≠ .lt := by
    intro x y same lt
    have self : cmp (key y) (key y) = .eq := Std.ReflCmp.compare_self
    rw [same, self] at lt
    cases lt
  constructor
  · intro alike
    induction alike with
    | nil => simp
    | cons head _ ih =>
        obtain ⟨ihLeft, ihRight⟩ := ih left.of_cons right.of_cons
        simp only [List.mem_cons]
        constructor
        · rintro item (rfl | member)
          · exact ⟨_, .inl rfl, head⟩
          · obtain ⟨other, inside, related⟩ := ihLeft item member
            exact ⟨other, .inr inside, related⟩
        · rintro other (rfl | member)
          · exact ⟨_, .inl rfl, head⟩
          · obtain ⟨item, inside, related⟩ := ihRight other member
            exact ⟨item, .inr inside, related⟩
  · rintro ⟨forward, backward⟩
    induction items generalizing others with
    | nil =>
        cases others with
        | nil => exact .nil
        | cons other rest =>
            obtain ⟨_, member, _⟩ := backward other (List.mem_cons_self ..)
            cases member
    | cons item items ih =>
        cases others with
        | nil =>
            obtain ⟨_, member, _⟩ := forward item (List.mem_cons_self ..)
            cases member
        | cons other others =>
            obtain ⟨firstLeft, tailLeft⟩ := List.pairwise_cons.mp left
            obtain ⟨firstRight, tailRight⟩ := List.pairwise_cons.mp right
            have head : Alike item other := by
              obtain ⟨match₁, inside₁, related₁⟩ := forward item (List.mem_cons_self ..)
              obtain ⟨match₂, inside₂, related₂⟩ := backward other (List.mem_cons_self ..)
              rcases List.mem_cons.mp inside₁ with rfl | later₁
              · exact related₁
              rcases List.mem_cons.mp inside₂ with rfl | later₂
              · exact related₂
              have below := firstRight match₁ later₁
              have above := firstLeft match₂ later₂
              rw [keys _ _ related₂] at above
              rw [← keys _ _ related₁] at below
              exact (irrefl rfl (Std.TransCmp.lt_trans above below)).elim
            refine .cons head (ih tailLeft tailRight ?_ ?_)
            · intro x member
              obtain ⟨y, inside, related⟩ := forward x (List.mem_cons_of_mem _ member)
              rcases List.mem_cons.mp inside with rfl | later
              · have same := (keys _ _ head).trans (keys _ _ related).symm
                exact (irrefl same (firstLeft x member)).elim
              · exact ⟨y, later, related⟩
            · intro y member
              obtain ⟨x, inside, related⟩ := backward y (List.mem_cons_of_mem _ member)
              rcases List.mem_cons.mp inside with rfl | later
              · have same := (keys _ _ head).symm.trans (keys _ _ related)
                exact (irrefl same (firstRight y member)).elim
              · exact ⟨x, later, related⟩

/-- The last item of a sorted list is its greatest one. -/
theorem SortedBy.getLast?_eq_some {items : List α} (sorted : SortedBy key cmp items) {item : α}
    : items.getLast? = some item
      ↔ item ∈ items ∧ ∀ other ∈ items, other ≠ item → cmp (key other) (key item) = .lt := by
  constructor
  · intro last
    obtain ⟨front, rfl⟩ := List.getLast?_eq_some_iff.mp last
    refine ⟨by simp, ?_⟩
    intro other member ne
    have front : other ∈ front := by simpa [ne] using member
    exact (List.pairwise_append.mp sorted).2.2 other front item (by simp)
  · rintro ⟨member, greatest⟩
    obtain ⟨last, found⟩ := Option.ne_none_iff_exists'.mp
      (mt List.getLast?_eq_none_iff.mp (List.ne_nil_of_mem member))
    by_cases same : last = item
    · rwa [same] at found
    · exfalso
      obtain ⟨front, rfl⟩ := List.getLast?_eq_some_iff.mp found
      have before : item ∈ front := by simpa [Ne.symm same] using member
      have below := greatest last (by simp) same
      have above := (List.pairwise_append.mp sorted).2.2 item before last (by simp)
      rw [Std.OrientedCmp.gt_of_lt above] at below
      cases below

/-- The first item of a sorted list is its least one. -/
theorem SortedBy.head?_eq_some {items : List α} (sorted : SortedBy key cmp items) {item : α}
    : items.head? = some item
      ↔ item ∈ items ∧ ∀ other ∈ items, other ≠ item → cmp (key item) (key other) = .lt := by
  cases items with
  | nil => simp
  | cons head rest =>
      obtain ⟨above, _⟩ := List.pairwise_cons.mp sorted
      simp only [List.head?_cons, Option.some.injEq, List.mem_cons]
      constructor
      · rintro rfl
        refine ⟨.inl rfl, ?_⟩
        rintro other (rfl | member) ne
        · exact (ne rfl).elim
        · exact above other member
      · rintro ⟨rfl | member, least⟩
        · rfl
        · by_contra ne
          have below := least head (.inl rfl) ne
          rw [Std.OrientedCmp.gt_of_lt (above item member)] at below
          cases below

end Sorted

end Py
