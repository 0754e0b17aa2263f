import Pyverge.Runtime.InPlace
import Pyverge.Runtime.Runner

/-! Retrying a plan whose steps work in place.
`Runner.execute` copies the payload once, before the first attempt of `RetryMiddleware`.
-/

namespace Pyverge.InPlace

open Py (Json Places)

variable {V F H : Type}

-----------------------------------------------------------------------------------------
-- Objects in other places
-----------------------------------------------------------------------------------------

section Moves

variable {place : Nat → Nat} {heap other : Heap}

theorem memberOf_map {σ τ : Type} (f : σ → τ) (name : String) (members : List (String × σ))
    : memberOf name (members.map (fun member => (member.1, f member.2)))
      = (memberOf name members).map f := by
  induction members with
  | nil => rfl
  | cons member rest ih =>
      rw [List.map_cons, memberOf, memberOf]
      split
      · rfl
      · exact ih

theorem setMemberOf_map {σ τ : Type} (f : σ → τ) (name : String) (value : σ)
    (members : List (String × σ))
    : setMemberOf name (f value) (members.map (fun member => (member.1, f member.2)))
      = (setMemberOf name value members).map (fun member => (member.1, f member.2)) := by
  induction members with
  | nil => rfl
  | cons member rest ih =>
      rw [List.map_cons, setMemberOf, setMemberOf]
      split
      · rfl
      · rw [ih, List.map_cons]

theorem itemOf_map {σ τ : Type} (f : σ → τ) (contents : Py.Object σ) (step : PathStep)
    : itemOf (contents.map f) step = (itemOf contents step).map f := by
  cases contents with
  | list items =>
      cases step with
      | index place =>
          simp only [Py.Object.map, itemOf, List.getElem?_map]
          cases items[place]? <;> rfl
      | key name => rfl
  | dict members =>
      cases step with
      | index place => rfl
      | key name =>
          simp only [Py.Object.map, itemOf, memberOf_map]
          cases memberOf name members <;> rfl

theorem putItem_map {σ τ : Type} (f : σ → τ) (contents : Py.Object σ) (step : PathStep) (value : σ)
    : putItem (contents.map f) step (f value) = (putItem contents step value).map f := by
  cases contents <;> cases step <;> simp [Py.Object.map, putItem, setMemberOf_map]

theorem getItem_moved (places : Places place heap other) (value : Value) (step : PathStep)
    : Heap.getItem other (value.move place) step
      = (Heap.getItem heap value step).map (Py.Value.move place) := by
  cases value with
  | atom value =>
      simp only [Py.Value.move, Heap.getItem]
      cases Pyverge.getItem value step <;> rfl
  | ref address =>
      simp only [Py.Value.move, Heap.getItem, places.objects]
      cases heap[address]? with
      | none => rfl
      | some contents => exact itemOf_map _ _ _

theorem get_moved (places : Places place heap other) (path : Path) (value : Value)
    : Heap.get other path (value.move place) = (Heap.get heap path value).map (Py.Value.move place)
    := by
  induction path generalizing value with
  | nil => rfl
  | cons step rest ih =>
      rw [Heap.get, Heap.get, getItem_moved places]
      cases Heap.getItem heap value step with
      | error error => rfl
      | ok child => exact ih child

theorem shapeOf_moved (places : Places place heap other) (value : Value)
    : Heap.shapeOf other (value.move place) = Heap.shapeOf heap value := by
  cases value with
  | atom value => rfl
  | ref address =>
      simp only [Py.Value.move, Heap.shapeOf, places.objects, Option.map_map]
      congr 1
      funext contents
      exact congrArg Shape.object (Py.Object.map_map _ _ contents)

theorem isSame_moved (places : Places place heap other) (left right : Value)
    : Value.isSame (left.move place) (right.move place) = Value.isSame left right := by
  cases left <;> cases right <;> simp [Py.Value.move, Value.isSame, places.injective.eq_iff]

/-- What is seen does not depend on where the objects are. -/
theorem view_moved (places : Places place heap other) (value : Value)
    : Heap.view other (value.move place) = Heap.view heap value := by
  unfold Heap.view
  congr 1
  · funext path
    rw [get_moved places]
    cases Heap.get heap path value with
    | error error => rfl
    | ok found => exact shapeOf_moved places found
  · funext path later
    rw [get_moved places, get_moved places]
    cases Heap.get heap path value with
    | error error => rfl
    | ok found =>
        cases Heap.get heap later value with
        | error error => rfl
        | ok second => exact isSame_moved places found second

theorem resolve_moved (places : Places place heap other) (given : Value) (slot : Slot)
    : slot.resolve other (given.move place) = (slot.resolve heap given).move place := by
  cases slot with
  | atom value => rfl
  | given path =>
      simp only [Slot.resolve, get_moved places]
      cases Heap.get heap path given <;> rfl
  | created index =>
      simp only [Slot.resolve, Py.Value.move, places.fresh]

theorem target_moved (places : Places place heap other) (given : Value) (path : Path)
    : Heap.target other (given.move place) path = (Heap.target heap given path).map place := by
  unfold Heap.target
  rw [get_moved places]
  cases Heap.get heap path given with
  | error error => rfl
  | ok found => cases found <;> rfl

/-- A step does alike wherever the objects are. -/
theorem Work.apply_moved (places : Places place heap other) (work : Work) (given : Value)
    : Places place (work.apply heap given) (work.apply other (given.move place)) := by
  have resolves : ∀ contents : Py.Object Slot,
      contents.map (Slot.resolve other (given.move place))
        = (contents.map (Slot.resolve heap given)).map (Py.Value.move place) := by
    intro contents
    rw [Py.Object.map_map]
    congr 1
    funext slot
    exact resolve_moved places given slot
  have objects : work.objects other (given.move place)
      = (work.objects heap given).map (Py.Object.map (Py.Value.move place)) := by
    unfold Work.objects
    rw [List.map_map]
    exact List.map_congr_left (fun contents _ => resolves contents)
  have updates : work.updates other (given.move place)
      = (work.updates heap given).map (fun update =>
          (place update.1, update.2.map (Py.Value.move place))) := by
    unfold Work.updates
    rw [List.map_filterMap]
    congr 1
    funext write
    rw [target_moved places]
    cases Heap.target heap given write.1 with
    | none => rfl
    | some address => exact congrArg (fun contents => some (place address, contents)) (resolves _)
  unfold Work.apply
  rw [objects, updates]
  exact (places.append _).setAll _

theorem stamp_moved (places : Places place heap other) (property version : String) (value : Value)
    : Places place (Heap.stamp heap property version value)
        (Heap.stamp other property version (value.move place)) := by
  cases value with
  | atom value => exact places
  | ref address =>
      simp only [Py.Value.move, Heap.stamp, places.objects]
      cases heap[address]? with
      | none => exact places
      | some contents =>
          cases contents with
          | list items => exact places
          | dict members =>
              have set := places.set address
                (.dict (setMemberOf property (.atom (.str version)) members))
              simp only [Py.Object.map] at set ⊢
              rw [← setMemberOf_map] at set
              exact set

end Moves

-----------------------------------------------------------------------------------------
-- Programs in other places
-----------------------------------------------------------------------------------------

section Programs

variable [VersionValue V] {place : Nat → Nat}

theorem turn_alike (steps : Steps V F H) (property : String) (step : BoundStep V F H)
    (given : Value)
    : Py.Alike place (Py.Value.move place) (turn steps property step given)
        (turn steps property step (given.move place)) := by
  intro memory other places
  unfold Py.outcome Py.after turn
  simp only [view_moved places]
  have reached : Places place
      ((⟨step, given, memory.heap, steps step (Heap.view memory.heap given)⟩ :
        Call V F H).left property)
      ((⟨step, given.move place, other.heap, steps step (Heap.view memory.heap given)⟩ :
        Call V F H).left property) := by
    unfold Call.left
    have applied := Work.apply_moved places (steps step (Heap.view memory.heap given)) given
    cases (steps step (Heap.view memory.heap given)).result with
    | error error => exact applied
    | ok slot =>
        simp only [resolve_moved places]
        exact stamp_moved applied _ _ _
  cases result : (steps step (Heap.view memory.heap given)).result with
  | error error => exact ⟨rfl, reached⟩
  | ok slot => exact ⟨congrArg Except.ok (resolve_moved places given slot), reached⟩

theorem turns_alike (steps : Steps V F H) (property : String) (listed : List (BoundStep V F H))
    (given : Value)
    : Py.Alike place (Py.Value.move place) (turns steps property listed given)
        (turns steps property listed (given.move place)) := by
  induction listed generalizing given with
  | nil => exact .pure rfl
  | cons step rest ih => exact .bind (turn_alike steps property step given) (fun value => ih value)

omit [VersionValue V] in
theorem alloc_alike (contents : Py.Object Value)
    : Py.Alike place (Py.Value.move place) (alloc contents : HeapM V F H Value)
        (alloc (contents.map (Py.Value.move place))) := by
  intro memory other places
  exact ⟨congrArg (fun address => Except.ok (Py.Value.ref address)) places.length.symm,
    places.append [contents]⟩

/-- What is cloned and gone on with. -/
theorem entry_moved {heap other : Heap} (places : Places place heap other) (value : Value)
    (step : PathStep)
    : Heap.entry other (value.move place) step
      = (Heap.entry heap value step).map (fun found =>
          (found.1.map (Py.Value.move place), found.2.move place)) := by
  cases value with
  | atom value => cases step <;> cases value <;> rfl
  | ref address =>
      simp only [Py.Value.move, Heap.entry, places.objects]
      cases heap[address]? with
      | none => cases step <;> rfl
      | some contents =>
          have told := itemOf_map (@Py.Value.move Json place) contents step
          have same : ((itemOf (contents.map (Py.Value.move place)) step).map
              (contents.map (Py.Value.move place), ·))
              = ((itemOf contents step).map (contents, ·)).map (fun found =>
                (found.1.map (Py.Value.move place), found.2.move place)) := by
            rw [told]
            cases itemOf contents step <;> rfl
          cases contents with
          | list items =>
              cases step with
              | key name => rfl
              | index index => exact same
          | dict members =>
              cases step with
              | index index => rfl
              | key name => exact same

omit [VersionValue V] in
theorem replaceOn_alike (path : Path) (value replacement : Value)
    : Py.Alike place (Py.Value.move place) (replaceOn value path replacement : HeapM V F H Value)
        (replaceOn (value.move place) path (replacement.move place)) := by
  induction path generalizing value with
  | nil => exact .pure rfl
  | cons head tail ih =>
      refine .bind (.query (fun memory later places => entry_moved places value head)) ?_
      intro found
      refine .bind (ih found.2) (fun child => ?_)
      simp only [putItem_map]
      exact alloc_alike _

omit [VersionValue V] in
theorem applyResultsOn_alike (results : List (Path × Value)) (data : Value)
    : Py.Alike place (Py.Value.move place) (applyResultsOn results data : HeapM V F H Value)
        (applyResultsOn (results.map (fun result => (result.1, result.2.move place)))
          (data.move place)) := by
  induction results generalizing data with
  | nil => exact .pure rfl
  | cons result rest ih =>
      exact .bind (replaceOn_alike result.1 data result.2) (fun updated => ih updated)

theorem runEntryOn_alike (steps : Steps V F H) (property : String) (data : Value)
    (entry : ExecutionEntry V F H)
    : Py.Alike place (fun result => (result.1, result.2.move place))
        (runEntryOn steps property data entry)
        (runEntryOn steps property (data.move place) entry) := by
  refine .bind (.query (fun memory later places => get_moved places entry.path data)) ?_
  exact fun value => .bind (turns_alike steps property _ value) (fun result => .pure rfl)

/-- A plan is executed alike wherever the objects are. -/
theorem executeOn_alike (steps : Steps V F H) (property : String)
    (levels : List (List (ExecutionEntry V F H))) (data : Value)
    : Py.Alike place (Py.Value.move place) (executeOn steps property levels data)
        (executeOn steps property levels (data.move place)) := by
  induction levels generalizing data with
  | nil => exact .pure rfl
  | cons level rest ih =>
      refine .bind (.mapM (fun entry _ => runEntryOn_alike steps property data entry)) ?_
      intro results
      exact .bind (applyResultsOn_alike results data) (fun next => ih next)

end Programs

-----------------------------------------------------------------------------------------
-- What failed attempts leave
-----------------------------------------------------------------------------------------

section Frames

variable [VersionValue V]

/-- The call leaves the first objects of the heap as they were. -/
def Call.Spares (property : String) (bound : Nat) (call : Call V F H) : Prop :=
  ∀ address < bound, (call.left property)[address]? = call.heap[address]?

/-- A program adds to the log, and keeps the payload if all that is logged then does. -/
def Frames {α : Type} (property : String) (payload : Heap) (program : HeapM V F H α) : Prop :=
  ∀ memory, memory.calls <+: (Py.after program memory).calls
    ∧ ((∀ call ∈ (Py.after program memory).calls, call.Spares property payload.length) →
        payload <+: memory.heap → payload <+: (Py.after program memory).heap)

namespace Frames

variable {α β : Type} {property : String} {payload : Heap}

theorem of_keeps {program : HeapM V F H α} (kept : ∀ memory, Py.after program memory = memory)
    : Frames property payload program := by
  intro memory
  rw [kept memory]
  exact ⟨List.prefix_rfl, fun _ held => held⟩

theorem bind {first : HeapM V F H α} {next : α → HeapM V F H β}
    (frames : Frames property payload first) (later : ∀ value, Frames property payload (next value))
    : Frames property payload (first >>= next) := by
  intro memory
  obtain ⟨logged, kept⟩ := frames memory
  cases ran : Py.outcome first memory with
  | error error =>
      rw [Py.after_bind_of_outcome_error ran]
      exact ⟨logged, kept⟩
  | ok value =>
      rw [Py.after_bind_of_outcome ran]
      obtain ⟨more, held⟩ := later value (Py.after first memory)
      refine ⟨logged.trans more, fun spares before => held spares ?_⟩
      exact kept (fun call member => spares call (more.subset member)) before

theorem mapM {body : α → HeapM V F H β} (each : ∀ item, Frames property payload (body item))
    (items : List α)
    : Frames property payload (items.mapM body) := by
  induction items with
  | nil => exact of_keeps (fun _ => rfl)
  | cons item rest ih =>
      rw [List.mapM_cons]
      exact bind (each item) (fun _ => bind ih (fun _ => of_keeps (fun _ => rfl)))

end Frames

theorem turn_frames (steps : Steps V F H) (property : String) (payload : Heap)
    (step : BoundStep V F H) (given : Value)
    : Frames property payload (turn steps property step given) := by
  intro memory
  have reached : Py.after (turn steps property step given) memory
      = ⟨(⟨step, given, memory.heap, steps step (Heap.view memory.heap given)⟩ :
          Call V F H).left property,
        memory.calls ++ [⟨step, given, memory.heap, steps step (Heap.view memory.heap given)⟩]⟩
      := by
    unfold Py.after turn
    generalize steps step (Heap.view memory.heap given) = work
    obtain ⟨created, writes, result⟩ := work
    cases result <;> rfl
  rw [reached]
  refine ⟨List.prefix_append _ _, fun spares before => ?_⟩
  have own := spares _ (List.mem_append_right _ (List.mem_singleton_self _))
  rw [List.prefix_iff_getElem?] at before ⊢
  intro address inside
  rw [own address inside]
  exact before address inside

theorem turns_frames (steps : Steps V F H) (property : String) (payload : Heap)
    (listed : List (BoundStep V F H)) (given : Value)
    : Frames property payload (turns steps property listed given) := by
  induction listed generalizing given with
  | nil => exact .of_keeps (fun _ => rfl)
  | cons step rest ih =>
      exact .bind (turn_frames steps property payload step given) (fun value => ih value)

/-- Cloning creates objects and changes none. -/
theorem replaceOn_frames (property : String) (payload : Heap) (path : Path)
    (value replacement : Value)
    : Frames property payload (replaceOn value path replacement : HeapM V F H Value) := by
  induction path generalizing value with
  | nil => exact .of_keeps (fun _ => rfl)
  | cons head tail ih =>
      refine .bind (.of_keeps (Py.after_query _)) (fun found => ?_)
      refine .bind (ih found.2) (fun child => ?_)
      exact fun memory => ⟨List.prefix_rfl, fun _ before => before.trans (List.prefix_append _ _)⟩

theorem executeOn_frames (steps : Steps V F H) (property : String) (payload : Heap)
    (levels : List (List (ExecutionEntry V F H))) (data : Value)
    : Frames property payload (executeOn steps property levels data) := by
  induction levels generalizing data with
  | nil => exact .of_keeps (fun _ => rfl)
  | cons level rest ih =>
      refine .bind (.mapM (fun entry => ?_) level) (fun results => .bind ?_ (fun next => ih next))
      · refine .bind (.of_keeps (Py.after_query _)) (fun value => ?_)
        exact .bind (turns_frames steps property payload _ value)
          (fun _ => .of_keeps (fun _ => rfl))
      · induction results generalizing data with
        | nil => exact .of_keeps (fun _ => rfl)
        | cons result others again =>
            exact .bind (replaceOn_frames property payload _ _ _) (fun updated => again updated)

end Frames

-----------------------------------------------------------------------------------------
-- The copy
-----------------------------------------------------------------------------------------

theorem within_mono {value : Value} {bound more : Nat} (within : value.Within bound)
    (le : bound ≤ more)
    : value.Within more := by
  cases value with
  | atom value => trivial
  | ref address => exact Nat.lt_of_lt_of_le within le

/-- A new object that refers to older ones. -/
theorem closed_append {heap : Heap} (closed : Py.Heap.Closed heap) {contents : Py.Object Value}
    (within : ∀ value ∈ contents.slots, value.Within heap.length)
    : Py.Heap.Closed (heap ++ [contents]) := by
  intro other member value slot
  rw [List.length_append]
  rcases List.mem_append.mp member with old | own
  · exact within_mono (closed other old value slot) (Nat.le_add_right _ _)
  · rw [List.mem_singleton.mp own] at slot
    exact within_mono (within value slot) (Nat.le_add_right _ _)

/-- Copying adds objects to a closed heap that stays closed. -/
structure Copies (heap : Heap) (values : List Value) (reached : Heap) : Prop where
  closed : Py.Heap.Closed reached
  longer : heap.length ≤ reached.length
  within : ∀ value ∈ values, value.Within reached.length

mutual

theorem deepcopy_copies (value : Json) {heap : Heap} (closed : Py.Heap.Closed heap)
    : Copies heap [(deepcopy value heap).1] (deepcopy value heap).2 := by
  have atom : Copies heap [.atom value] heap := {
    closed
    longer := Nat.le_refl _
    within := fun found member => by
      rw [List.mem_singleton.mp member]
      trivial
  }
  cases value with
  | arr items =>
      have copies := deepcopyItems_copies items closed
      rw [deepcopy]
      exact {
        closed := closed_append copies.closed copies.within
        longer := Nat.le_trans copies.longer (List.prefix_append _ _).length_le
        within := fun found member => by
          rw [List.mem_singleton.mp member, List.length_append]
          exact Nat.lt_add_one _
      }
  | obj members =>
      have copies := deepcopyMembers_copies members closed
      rw [deepcopy]
      exact {
        closed := closed_append copies.closed copies.within
        longer := Nat.le_trans copies.longer (List.prefix_append _ _).length_le
        within := fun found member => by
          rw [List.mem_singleton.mp member, List.length_append]
          exact Nat.lt_add_one _
      }
  | null => exact atom
  | bool value => exact atom
  | int value => exact atom
  | float value => exact atom
  | str value => exact atom
termination_by sizeOf value

theorem deepcopyItems_copies (items : List Json) {heap : Heap} (closed : Py.Heap.Closed heap)
    : Copies heap (deepcopyItems items heap).1 (deepcopyItems items heap).2 := by
  cases items with
  | nil => exact ⟨closed, Nat.le_refl _, fun _ member => absurd member List.not_mem_nil⟩
  | cons item rest =>
      have first := deepcopy_copies item closed
      have later := deepcopyItems_copies rest first.closed
      rw [deepcopyItems]
      refine ⟨later.closed, Nat.le_trans first.longer later.longer, fun value member => ?_⟩
      rcases List.mem_cons.mp member with rfl | inside
      · exact within_mono (first.within _ (List.mem_singleton_self _)) later.longer
      · exact later.within value inside
termination_by sizeOf items

theorem deepcopyMembers_copies (members : List (String × Json)) {heap : Heap}
    (closed : Py.Heap.Closed heap)
    : Copies heap ((deepcopyMembers members heap).1.map Prod.snd) (deepcopyMembers members heap).2
    := by
  cases members with
  | nil => exact ⟨closed, Nat.le_refl _, fun _ member => absurd member List.not_mem_nil⟩
  | cons member rest =>
      cases member with
      | mk name item =>
          have first := deepcopy_copies item closed
          have later := deepcopyMembers_copies rest first.closed
          rw [deepcopyMembers]
          refine ⟨later.closed, Nat.le_trans first.longer later.longer, fun value member => ?_⟩
          rcases List.mem_cons.mp member with rfl | inside
          · exact within_mono (first.within _ (List.mem_singleton_self _)) later.longer
          · exact later.within value inside
termination_by sizeOf members

end

-----------------------------------------------------------------------------------------
-- Attempts
-----------------------------------------------------------------------------------------

section Attempts

variable [VersionValue V]

/-- Where the one program returns, so does the other, and leaves the same. -/
def Follows {α : Type} (left right : HeapM V F H α) : Prop :=
  ∀ memory value reached, left memory = .ok value reached → right memory = .ok value reached

namespace Follows

variable {α β : Type}

omit [VersionValue V] in
theorem refl (program : HeapM V F H α) : Follows program program := fun _ _ _ ran => ran

omit [VersionValue V] in
theorem bind {first second : HeapM V F H α} {next later : α → HeapM V F H β}
    (follows : Follows first second) (go : ∀ value, Follows (next value) (later value))
    : Follows (first >>= next) (second >>= later) := by
  intro memory value reached ran
  obtain ⟨middle, between, began, ended⟩ := Py.bind_ok.mp ran
  exact Py.bind_ok.mpr ⟨middle, between, follows _ _ _ began, go _ _ _ _ ended⟩

omit [VersionValue V] in
theorem mapM {body other : α → HeapM V F H β} (each : ∀ item, Follows (body item) (other item))
    (items : List α)
    : Follows (items.mapM body) (items.mapM other) := by
  induction items with
  | nil => exact refl _
  | cons item rest ih =>
      rw [List.mapM_cons, List.mapM_cons]
      exact bind (each item) (fun _ => bind ih (fun _ => refl _))

end Follows

variable {workload : Workload V F H} {property : String} {plan : ExecutionPlan V F H}

theorem turn_follows (number : Nat) (step : BoundStep V F H) (given : Value)
    : Follows (turn (workload.during number) property step given)
        (turn workload.calm property step given) := by
  intro memory value reached ran
  cases fault : workload.faults number step (Heap.view memory.heap given) with
  | some fault =>
      simp only [turn, Workload.during, fault] at ran
      cases ran
  | none =>
      simp only [turn, Workload.during, fault] at ran
      exact ran

theorem turns_follows (number : Nat) (listed : List (BoundStep V F H)) (given : Value)
    : Follows (turns (workload.during number) property listed given)
        (turns workload.calm property listed given) := by
  induction listed generalizing given with
  | nil => exact .refl _
  | cons step rest ih => exact .bind (turn_follows number step given) (fun value => ih value)

/-- An attempt that succeeds is an execution without faults. -/
theorem executeOn_follows (number : Nat) (levels : List (List (ExecutionEntry V F H)))
    (data : Value)
    : Follows (executeOn (workload.during number) property levels data)
        (executeOn workload.calm property levels data) := by
  induction levels generalizing data with
  | nil => exact .refl _
  | cons level rest ih =>
      refine .bind (.mapM (fun entry => ?_) level)
        (fun results => .bind (.refl _) (fun next => ih next))
      refine .bind (.refl _) (fun value => .bind (turns_follows number _ value) ?_)
      exact fun _ => .refl _

/-- The memories in which the attempts of a run start. -/
inductive Workload.Starts (workload : Workload V F H) (property : String)
    (plan : ExecutionPlan V F H) (attempts : Nat)
    : Nat → Py.Memory Json (Call V F H) → Prop where
  | first : Starts workload property plan attempts 0 ⟨payloadHeap plan, []⟩
  | next {number : Nat} {memory reached : Py.Memory Json (Call V F H)} {error : Raised}
      (started : Starts workload property plan attempts number memory)
      (raised : workload.attempt property plan number memory = .error error reached)
      (caught : error.isException = true) (more : number + 1 < attempts)
      : Starts workload property plan attempts (number + 1) reached

/-- Every attempt of a run starts from the payload as it was copied, and the run returns what one
without faults returns.
-/
structure Workload.Restarts (workload : Workload V F H) (property : String)
    (plan : ExecutionPlan V F H) (attempts : Nat) : Prop where
  starts : ∀ number memory, workload.Starts property plan attempts number memory →
    payloadHeap plan <+: memory.heap
  returned : ∀ value reached, workload.execute property plan attempts = .ok value reached →
    ∃ expected final,
      executeOn workload.calm property plan.levels (copied plan) ⟨payloadHeap plan, []⟩
        = .ok expected final
      ∧ Heap.view reached.heap value = Heap.view final.heap expected

/-- A run that returns has got to an attempt that returns. -/
theorem Workload.exists_of_retrying {attempts number more : Nat}
    (within : number + more ≤ attempts - 1) {memory : Py.Memory Json (Call V F H)}
    (started : workload.Starts property plan attempts number memory) {value : Value}
    {reached : Py.Memory Json (Call V F H)}
    (ran : workload.retrying property plan number more memory = .ok value reached)
    : ∃ last start, workload.Starts property plan attempts last start
        ∧ workload.attempt property plan last start = .ok value reached := by
  induction more generalizing number memory with
  | zero => exact ⟨number, memory, started, ran⟩
  | succ more ih =>
      rw [Workload.retrying, Py.tryCatch_apply] at ran
      cases outcome : workload.attempt property plan number memory with
      | ok found left =>
          rw [outcome] at ran
          exact ⟨number, memory, started, outcome.trans ran⟩
      | error error left =>
          rw [outcome] at ran
          cases caught : error.isException with
          | false =>
              simp only [caught] at ran
              cases ran
          | true =>
              simp only [caught] at ran
              exact ih (by omega) (.next started outcome caught (by omega)) ran

/-- If what was called before an attempt leaves the objects of the payload as they were, the attempt
starts from the payload; the last one then does what a first one would.
-/
theorem Workload.restarts_of_spares {attempts : Nat}
    (spares : ∀ number memory, workload.Starts property plan attempts number memory →
      ∀ call ∈ memory.calls, call.Spares property (payloadHeap plan).length)
    : workload.Restarts property plan attempts := by
  have starts : ∀ number memory, workload.Starts property plan attempts number memory →
      payloadHeap plan <+: memory.heap := by
    intro number memory started
    induction started with
    | first => exact List.prefix_rfl
    | @next number memory reached error started raised caught more ih =>
        have frames : Frames property (payloadHeap plan) (workload.attempt property plan number) :=
          executeOn_frames _ property _ plan.levels (copied plan)
        obtain ⟨_, kept⟩ := frames memory
        have left := Py.after_of_error raised
        rw [left] at kept
        exact kept (spares _ _ (.next started raised caught more)) ih
  refine ⟨starts, fun value reached ran => ?_⟩
  have within : 0 + (attempts - 1) ≤ attempts - 1 := by omega
  obtain ⟨last, start, started, returned⟩ := Workload.exists_of_retrying within .first ran
  have calm := executeOn_follows last plan.levels (copied plan) start value reached returned
  obtain ⟨garbage, heap⟩ := starts last start started
  have copies := deepcopy_copies plan.payload
    (fun contents member => absurd member List.not_mem_nil : Py.Heap.Closed ([] : Heap))
  have places : Places (Py.shift (payloadHeap plan).length garbage.length) (payloadHeap plan)
      start.heap := heap ▸ Py.Heap.Closed.places copies.closed garbage
  have root : (copied plan).move (Py.shift (payloadHeap plan).length garbage.length)
      = copied plan :=
    Py.Value.move_shift _ (copies.within _ (List.mem_singleton_self _))
  have alike := executeOn_alike workload.calm property plan.levels (copied plan)
    ⟨payloadHeap plan, []⟩ start places
  rw [root] at alike
  obtain ⟨told, placed⟩ := alike
  cases expected : executeOn workload.calm property plan.levels (copied plan)
      ⟨payloadHeap plan, []⟩ with
  | error error final =>
      rw [Py.outcome, calm, Py.outcome, expected] at told
      cases told
  | ok found final =>
      rw [Py.outcome, calm, Py.outcome, expected] at told
      rw [Py.after_of_ok expected, Py.after_of_ok calm] at placed
      obtain rfl := Except.ok.inj told
      exact ⟨found, final, rfl, view_moved placed found⟩

end Attempts

-----------------------------------------------------------------------------------------
-- A list that is appended to in place
-----------------------------------------------------------------------------------------

/-- `data["visits"].append("moved")` -/
def appendVisit (view : View) : List (Path × Py.Object Slot) :=
  match view.shape [.key "visits"] with
  | some (.object (.list items)) =>
      let kept := (List.range items.length).map (fun index =>
        Slot.given [.key "visits", .index index])
      [([.key "visits"], .list (kept ++ [.atom (.str "moved")]))]
  | _ => []

/-- Append and return the mapping that was given; the first attempt fails for want of a service. -/
def visiting (before : View → List (Path × Py.Object Slot)) : Workload Release Unit Unit where
  calm := fun _ view => ⟨[], appendVisit view, .ok (.given [])⟩
  faults := fun attempt _ view =>
    if attempt = 0 then some ⟨[], before view, .exception "unavailable"⟩ else none

def visitedUser : ExecutionPlan Release Unit Unit where
  path := ⟨[Pyverge.userEntry []]⟩
  payload := .obj [("visits", .arr [])]
  levels := [[{
    plan := Pyverge.userEntry []
    migrations := [⟨⟨(), some "visit", none, none, none, none, none⟩,
      ⟨"callable", "app.visit"⟩, "visit"⟩]
    hooks := [[]]
    boundMigrations := rfl
    boundHooks := rfl
  }]]

/-- Counterexample: the second of two attempts appends to what the first has appended. -/
theorem not_restarts_visiting
    : ¬ ∀ (workload : Workload Release Unit Unit) (property : String)
          (plan : ExecutionPlan Release Unit Unit) (attempts : Nat),
        workload.Restarts property plan attempts := by
  intro restarts
  obtain ⟨_, returned⟩ := restarts (visiting appendVisit) "version" visitedUser 2
  obtain ⟨expected, final, calm, same⟩ := returned _ _ rfl
  have seen := congrArg (fun view => view.shape [.key "visits"]) same
  cases calm
  revert seen
  decide

/-- Witness: a first attempt that fails before it writes is made up for by the second. -/
theorem restarts_visiting
    : (∃ value reached, (visiting (fun _ => [])).execute "version" visitedUser 2
        = .ok value reached)
      ∧ (visiting (fun _ => [])).Restarts "version" visitedUser 2 := by
  refine ⟨⟨_, _, rfl⟩, Workload.restarts_of_spares ?_⟩
  intro number memory started call member
  cases started with
  | first => exact absurd member List.not_mem_nil
  | next started raised caught more =>
      cases started with
      | next _ _ _ _ => omega
      | first =>
          cases raised
          rw [List.mem_singleton.mp member]
          exact fun _ _ => rfl

end Pyverge.InPlace
