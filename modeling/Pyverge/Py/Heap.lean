import Mathlib.Logic.Function.Basic
import Pyverge.Py.Effects

/-! Objects by address, and programs that act alike wherever their objects are placed. -/

namespace Py

variable {α σ τ ε β γ δ C : Type}

/-- An atom, or a reference to an object. -/
inductive Value (α : Type) where
  | atom (value : α)
  | ref (address : Nat)
  deriving DecidableEq

/-- The contents of an object. -/
inductive Object (σ : Type) where
  | list (items : List σ)
  | dict (members : List (String × σ))
  deriving DecidableEq

abbrev Heap (α : Type) := List (Object (Value α))

def Object.map (f : σ → τ) : Object σ → Object τ
  | .list items => .list (items.map f)
  | .dict members => .dict (members.map (fun member => (member.1, f member.2)))

def Value.move (place : Nat → Nat) : Value α → Value α
  | .atom value => .atom value
  | .ref address => .ref (place address)

theorem Object.map_map (f : σ → τ) (g : τ → β) (contents : Object σ)
    : (contents.map f).map g = contents.map (fun item => g (f item)) := by
  cases contents <;> simp [Object.map, Function.comp_def]

-----------------------------------------------------------------------------------------
-- Placements
-----------------------------------------------------------------------------------------

/-- The other heap holds the objects of the first at other addresses, also those to come. -/
structure Places (place : Nat → Nat) (heap other : Heap α) : Prop where
  injective : Function.Injective place
  objects : ∀ address, other[place address]? = heap[address]?.map (Object.map (Value.move place))
  fresh : ∀ offset, place (heap.length + offset) = other.length + offset

namespace Places

variable {place : Nat → Nat} {heap other : Heap α}

theorem length (places : Places place heap other) : place heap.length = other.length :=
  places.fresh 0

/-- New objects are placed alike. -/
theorem append (places : Places place heap other) (created : Heap α)
    : Places place (heap ++ created)
        (other ++ created.map (Object.map (Value.move place))) where
  injective := places.injective
  objects := by
    intro address
    rcases Nat.lt_or_ge address heap.length with old | new
    · have there := places.objects address
      rw [List.getElem?_append_left old]
      have found : place address < other.length := by
        rw [List.getElem?_eq_getElem old] at there
        exact (List.getElem?_eq_some_iff.mp there).1
      rw [List.getElem?_append_left found, there]
    · obtain ⟨offset, rfl⟩ := Nat.exists_eq_add_of_le new
      rw [places.fresh, List.getElem?_append_right (Nat.le_add_right _ _),
        List.getElem?_append_right (Nat.le_add_right _ _), List.getElem?_map]
      simp
  fresh := by
    intro offset
    have later := places.fresh (created.length + offset)
    simp only [List.length_append, List.length_map, ← Nat.add_assoc] at later ⊢
    exact later

/-- An object that is changed is changed alike. -/
theorem set (places : Places place heap other) (address : Nat) (contents : Object (Value α))
    : Places place (heap.set address contents)
        (other.set (place address) (contents.map (Value.move place))) where
  injective := places.injective
  objects := by
    intro asked
    by_cases same : address = asked
    · subst same
      have there := places.objects address
      rw [List.getElem?_set_self', List.getElem?_set_self', there]
      cases heap[address]? <;> rfl
    · have differ : place address ≠ place asked := fun equal => same (places.injective equal)
      rw [List.getElem?_set_ne same, List.getElem?_set_ne differ]
      exact places.objects asked
  fresh := by
    simp only [List.length_set]
    exact places.fresh

/-- Changes one after the other. -/
theorem setAll (places : Places place heap other) (updates : List (Nat × Object (Value α)))
    : Places place (updates.foldl (fun heap update => heap.set update.1 update.2) heap)
        ((updates.map (fun update => (place update.1, update.2.map (Value.move place)))).foldl
          (fun heap update => heap.set update.1 update.2) other) := by
  induction updates generalizing heap other with
  | nil => exact places
  | cons update rest ih => exact ih (places.set update.1 update.2)

end Places

/-- Whatever refers to an object of the heap only. -/
def Value.Within (bound : Nat) : Value α → Prop
  | .atom _ => True
  | .ref address => address < bound

def Object.slots : Object σ → List σ
  | .list items => items
  | .dict members => members.map Prod.snd

/-- A heap without references that lead out of it. -/
def Heap.Closed (heap : Heap α) : Prop :=
  ∀ contents ∈ heap, ∀ value ∈ contents.slots, value.Within heap.length

/-- Where objects go if others have been created after some. -/
def shift (count added address : Nat) : Nat := if address < count then address else address + added

theorem Value.move_shift {count : Nat} (added : Nat) {value : Value α} (within : value.Within count)
    : value.move (shift count added) = value := by
  cases value with
  | atom value => rfl
  | ref address =>
      have inside : address < count := within
      rw [Value.move, shift, if_pos inside]

theorem Object.map_shift {count : Nat} (added : Nat) {contents : Object (Value α)}
    (within : ∀ value ∈ contents.slots, value.Within count)
    : contents.map (Value.move (shift count added)) = contents := by
  cases contents with
  | list items =>
      have same : items.map (Value.move (shift count added)) = items :=
        (List.map_congr_left (fun value member => Value.move_shift added (within value member))).trans
          (List.map_id _)
      rw [Object.map, same]
  | dict members =>
      have same : members.map (fun member => (member.1, member.2.move (shift count added)))
          = members := by
        refine (List.map_congr_left (fun member inside => ?_)).trans (List.map_id _)
        rw [Value.move_shift added (within _ (List.mem_map_of_mem inside))]
        rfl
      rw [Object.map, same]

/-- A closed heap is found again where other objects have been added to it. -/
theorem Heap.Closed.places {heap : Heap α} (closed : heap.Closed) (added : Heap α)
    : Places (shift heap.length added.length) heap (heap ++ added) where
  injective := by
    intro left right same
    unfold shift at same
    split at same <;> split at same <;> omega
  objects := by
    intro address
    unfold shift
    split
    case isTrue inside =>
      rw [List.getElem?_append_left inside, List.getElem?_eq_getElem inside]
      exact congrArg some (Object.map_shift _ (closed _ (List.getElem_mem inside))).symm
    case isFalse outside =>
      rw [List.getElem?_eq_none (Nat.le_of_not_lt outside), List.getElem?_eq_none]
      · rfl
      · rw [List.length_append]
        omega
  fresh := by
    intro offset
    rw [shift, if_neg (by omega), List.length_append]
    omega

-----------------------------------------------------------------------------------------
-- Programs
-----------------------------------------------------------------------------------------

/-- A heap with a log of what has been called on it. -/
structure Memory (α C : Type) where
  heap : Heap α
  calls : List C

theorem after_bind_of_outcome {s : Type} {first : EStateM ε s β} {next : β → EStateM ε s γ}
    {state : s} {value : β} (ran : outcome first state = .ok value)
    : after (first >>= next) state = after (next value) (after first state) := by
  unfold outcome at ran
  unfold after
  rw [bind_apply]
  cases run : first state with
  | ok found reached =>
      rw [run] at ran
      obtain rfl := Except.ok.inj ran
      rfl
  | error error reached =>
      rw [run] at ran
      cases ran

theorem after_bind_of_outcome_error {s : Type} {first : EStateM ε s β} {next : β → EStateM ε s γ}
    {state : s} {error : ε} (ran : outcome first state = .error error)
    : after (first >>= next) state = after first state := by
  unfold outcome at ran
  unfold after
  rw [bind_apply]
  cases run : first state with
  | ok found reached =>
      rw [run] at ran
      cases ran
  | error raised reached => rfl

/-- From heaps placed alike, the programs end alike in such heaps. -/
def Alike (place : Nat → Nat) (carry : β → γ) (left : EStateM ε (Memory α C) β)
    (right : EStateM ε (Memory α C) γ) : Prop :=
  ∀ memory other, Places place memory.heap other.heap →
    outcome right other = (outcome left memory).map carry
      ∧ Places place (after left memory).heap (after right other).heap

namespace Alike

variable {place : Nat → Nat} {carry : β → γ}

theorem pure {value : β} {moved : γ} (same : carry value = moved)
    : Alike place carry (Pure.pure value : EStateM ε (Memory α C) β) (Pure.pure moved) :=
  fun _ _ places => ⟨congrArg Except.ok same.symm, places⟩

theorem throw (error : ε)
    : Alike place carry (MonadExcept.throw error : EStateM ε (Memory α C) β)
        (MonadExcept.throw error) :=
  fun _ _ places => ⟨rfl, places⟩

/-- Reading what does not depend on the placement. -/
theorem query {read : Memory α C → Except ε β} {other : Memory α C → Except ε γ}
    (same : ∀ memory later, Places place memory.heap later.heap →
      other later = (read memory).map carry)
    : Alike place carry (Py.query read) (Py.query other) := by
  intro memory later places
  rw [outcome_query, outcome_query, after_query, after_query]
  exact ⟨same memory later places, places⟩

theorem bind {carried : δ → τ} {first : EStateM ε (Memory α C) β}
    {second : EStateM ε (Memory α C) γ} {next : β → EStateM ε (Memory α C) δ}
    {later : γ → EStateM ε (Memory α C) τ} (alike : Alike place carry first second)
    (go : ∀ value, Alike place carried (next value) (later (carry value)))
    : Alike place carried (first >>= next) (second >>= later) := by
  intro memory other places
  obtain ⟨told, reached⟩ := alike memory other places
  rw [outcome_bind, outcome_bind, told]
  cases ran : outcome first memory with
  | error error =>
      rw [ran] at told
      rw [after_bind_of_outcome_error ran, after_bind_of_outcome_error told]
      exact ⟨rfl, reached⟩
  | ok value =>
      rw [ran] at told
      rw [after_bind_of_outcome ran, after_bind_of_outcome told]
      exact go value _ _ reached

theorem mapM {body : σ → EStateM ε (Memory α C) β} {other : σ → EStateM ε (Memory α C) γ}
    {items : List σ} (each : ∀ item ∈ items, Alike place carry (body item) (other item))
    : Alike place (List.map carry) (items.mapM body) (items.mapM other) := by
  induction items with
  | nil => exact pure rfl
  | cons item rest ih =>
      rw [List.mapM_cons, List.mapM_cons]
      refine bind (each item List.mem_cons_self) (fun value => ?_)
      refine bind (ih (fun later member => each later (List.mem_cons_of_mem _ member))) ?_
      exact fun values => pure rfl

end Alike

end Py
