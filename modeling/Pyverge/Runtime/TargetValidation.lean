import Pyverge.Runtime.Guided
import Pyverge.Runtime.PlanTable
import Pyverge.Planning.Preorder

/-! The final validation of a run: every entry of the plan is read at the path it had in the
payload, finalized against its target model and put back, those above before those below.
A parent that is finalized to less than it was may leave nothing there to validate.
-/

namespace Pyverge

open Py (Json)

variable {V M F H T : Type}

abbrev Members := List (String × Json)

/-- `TargetValidationError`, and whatever else may escape. -/
inductive ValidationError where
  | target (path : Path) (model : ModelRef) (error : Raised)
  | raised (error : Raised)
  deriving DecidableEq

/-- `current[step] = value` -/
def assignItem : Json → PathStep → Json → Except Raised Json
  | .arr items, .index place, value =>
      if place < items.length then .ok (.arr (items.set place value))
      else .error (.indexError "list assignment index out of range")
  | .obj members, .key name, value => .ok (.obj (Json.setMember members name value))
  | .obj _, .index _, _ => .error (.typeError "keys of a payload are strings")
  | .arr _, .key _, _ => .error (.typeError "list indices must be integers or slices, not str")
  | container, _, _ =>
      .error (.typeError ("'" ++ container.typeName ++ "' object does not support item assignment"))

/-- `Path.set`: containers on the way are changed in place, and the payload itself is emptied and
filled.
-/
def Path.set : Path → Json → Members → Except Raised Json
  | [], .obj _, members => .ok (.obj members)
  | [], _, _ => .error (.exception "AttributeError")
  | [step], data, members => assignItem data step (.obj members)
  | step :: next :: rest, data, members => do
      let child ← getItem data step
      let updated ← Path.set (next :: rest) child members
      assignItem data step updated

/-- The target models of an adapter: how a reference is resolved and a mapping finalized. -/
structure TargetModels (T : Type) where
  resolve : ModelRef → Except Raised T
  identify : T → Bool
  finalize : T → Members → Except Raised Members

namespace TargetModels

variable (targets : TargetModels T)

/-- What the `try` block of the validation does for one entry. -/
def replace (data : Json) (entry : PathPlanEntry V) (model : T) (members : Members)
    : Except Raised Json := do
  let finalized ← targets.finalize model members
  entry.path.set data finalized

/-- The loop body of `_validate_target` -/
def validateEntry (data : Json) (entry : PathPlanEntry V) : Except ValidationError Json := do
  let value ← (entry.path.get data).mapError .raised
  match value with
  | .obj members =>
      let model ← (targets.resolve entry.targetModel).mapError .raised
      (targets.replace data entry model members).mapError (fun error =>
        if error.isException then .target entry.path entry.targetModel error else .raised error)
  | _ =>
      .error (.target entry.path entry.targetModel (.typeError "target payload is not a mapping"))

/-- `Runner._validate_target` -/
def validateTarget (entries : List (PathPlanEntry V)) (data : Json)
    : Except ValidationError Json :=
  entries.foldlM targets.validateEntry data

end TargetModels

/-- A runner with the target models of its adapter, by which it identifies the models of a plan. -/
structure ValidatingRunner (V M F H T : Type) extends Runner V M F H where
  targets : TargetModels T
  identifies_eq : ∀ ref, identifies ref = (targets.resolve ref).map targets.identify

/-- `Runner.run` with a final validation of what a synchronous backend returns. -/
def ValidatingRunner.runValidated [DecidableEq V] [VersionValue V]
    (runner : ValidatingRunner V M F H T)
    (backend : ExecutionPlan V F H → Except Raised Json) (request : PlanRequest V M)
    : EStateM (RunError V ⊕ ValidationError) (CoordinatorState V M) Json := do
  let plan ← Py.zoom id (fun reached _ => reached) .inl (runner.plan request)
  let data ← Py.query (fun _ => (backend plan).mapError (fun error => .inl (.raised error)))
  Py.query (fun _ => (runner.targets.validateTarget plan.path.entries data).mapError .inr)

-----------------------------------------------------------------------------------------
-- Paths
-----------------------------------------------------------------------------------------

theorem Path.get_append (path below : Path) (data : Json)
    : (path ++ below).get data = (path.get data).bind below.get := by
  induction path generalizing data with
  | nil => rfl
  | cons step rest ih =>
      rw [List.cons_append, Path.get, Path.get]
      cases getItem data step with
      | error raised => rfl
      | ok child => exact ih child

/-- A text leads to texts only. -/
theorem Path.get_str {path : Path} {text : String} {members : Members}
    : path.get (.str text) ≠ .ok (.obj members) := by
  induction path generalizing text with
  | nil => simp [Path.get]
  | cons step rest ih =>
      rw [Path.get]
      cases step with
      | key name => simp [getItem, bind, Except.bind]
      | index place =>
          cases letter : text.toList[place]? with
          | none => simp [getItem, letter, bind, Except.bind]
          | some letter => simpa [getItem, letter, bind, Except.bind] using ih

/-- A mapping is reached through lists and mappings. -/
theorem Path.item?_of_get {step : PathStep} {rest : Path} {data : Json} {members : Members}
    (found : Path.get (step :: rest) data = .ok (.obj members))
    : ∃ child, item? data step = some child ∧ Path.get rest child = .ok (.obj members) := by
  obtain ⟨child, first, below⟩ := Py.ok_bind_iff.mp found
  refine ⟨child, ?_, below⟩
  cases data with
  | str text =>
      exact absurd found Path.get_str
  | arr items =>
      cases step with
      | key name => cases first
      | index place =>
          cases here : items[place]? with
          | none => simp [getItem, here] at first
          | some item => simpa [getItem, here, item?] using first
  | obj fields =>
      cases step with
      | index place => cases first
      | key name =>
          cases here : Json.getMember fields name with
          | none => simp [getItem, here] at first
          | some item => simpa [getItem, here, item?] using first
  | null => cases first
  | bool value => cases first
  | int value => cases first
  | float value => cases first

theorem assignItem_of_item? {data child : Json} {step : PathStep}
    (found : item? data step = some child) (value : Json)
    : assignItem data step value = .ok (setItem data step value) := by
  cases data <;> cases step <;> simp [item?] at found <;> simp [assignItem, setItem]
  case arr.index items place => exact (List.getElem?_eq_some_iff.mp found).1

/-- Putting a mapping where one was replaces it. -/
theorem Path.exists_set {path : Path} {data : Json} {members : Members}
    (found : path.get data = .ok (.obj members)) (final : Members)
    : ∃ updated, path.set data final = .ok updated
        ∧ replaceAt data path (.obj final) = .ok updated := by
  induction path generalizing data with
  | nil =>
      obtain rfl := Except.ok.inj found
      exact ⟨.obj final, rfl, rfl⟩
  | cons step rest ih =>
      obtain ⟨child, here, below⟩ := Path.item?_of_get found
      obtain ⟨updated, put, replaced⟩ := ih below
      refine ⟨setItem data step updated, ?_,
        replaceAt_cons.mpr ⟨child, updated, here, replaced, rfl⟩⟩
      cases rest with
      | nil =>
          obtain rfl := Except.ok.inj replaced
          exact assignItem_of_item? here _
      | cons next others =>
          rw [Path.set, getItem_of_item? here]
          change (Path.set (next :: others) child final).bind _ = _
          rw [put]
          exact assignItem_of_item? here updated

/-- Below a replaced mapping there is what the new one holds. -/
theorem Path.get_replaceAt_below {path other : Path} {data updated replacement : Json}
    (replaced : replaceAt data path replacement = .ok updated) (above : path <+: other)
    : other.get updated = Path.get (other.drop path.length) replacement := by
  obtain ⟨below, rfl⟩ := above
  rw [Path.get_append, Path.get_replaceAt_self replaced, List.drop_left]
  rfl

/-- A replacement below a path replaces within the value there. -/
theorem replaceAt_under {path below : Path} {data updated value replacement : Json}
    (replaced : replaceAt data (path ++ below) replacement = .ok updated)
    (found : path.get data = .ok value)
    : ∃ next, replaceAt value below replacement = .ok next ∧ path.get updated = .ok next := by
  induction path generalizing data updated with
  | nil =>
      obtain rfl := Except.ok.inj found
      exact ⟨updated, replaced, rfl⟩
  | cons step rest ih =>
      obtain ⟨child, next, here, inner, rfl⟩ := replaceAt_cons.mp replaced
      rw [Path.get_cons (getItem_of_item? here)] at found
      obtain ⟨final, within, told⟩ := ih inner found
      refine ⟨final, within, ?_⟩
      rw [Path.get_cons (getItem_of_item? (item?_setItem_self here))]
      exact told

-----------------------------------------------------------------------------------------
-- What the validation comes to
-----------------------------------------------------------------------------------------

/-- No entry lies at or above an earlier one, as discovery lists them. -/
def ParentsFirst (entries : List (PathPlanEntry V)) : Prop :=
  entries.Pairwise (fun earlier later => ¬ later.path <+: earlier.path)

def PathPlanEntry.Above (parent entry : PathPlanEntry V) : Prop :=
  parent.path <+: entry.path ∧ parent.path ≠ entry.path

namespace TargetModels

section Sees

variable (targets : TargetModels T) (entries : List (PathPlanEntry V)) (data : Json)

/-- The value of an entry: in the result of the run if no entry lies above it, else in what the
nearest one above is finalized to.
-/
inductive Sees : PathPlanEntry V → Json → Prop where
  | top {entry : PathPlanEntry V} {value : Json}
      (free : ∀ other ∈ entries, ¬ other.Above entry)
      (found : entry.path.get data = .ok value)
      : Sees entry value
  | within {parent entry : PathPlanEntry V} {model : T} {members final : Members} {value : Json}
      (member : parent ∈ entries) (above : parent.Above entry)
      (nearest : ∀ other ∈ entries, other.Above entry → other.path <+: parent.path)
      (seen : Sees parent (.obj members))
      (resolved : targets.resolve parent.targetModel = .ok model)
      (finalized : targets.finalize model members = .ok final)
      (found : Path.get (entry.path.drop parent.path.length) (.obj final) = .ok value)
      : Sees entry value

/-- An entry is a mapping that its target model finalizes. -/
def Settles (entry : PathPlanEntry V) (final : Members) : Prop :=
  ∃ model members, targets.Sees entries data entry (.obj members)
    ∧ targets.resolve entry.targetModel = .ok model ∧ targets.finalize model members = .ok final

/-- All entries before one are mappings that their target models finalize. -/
def ComesTo (entry : PathPlanEntry V) : Prop :=
  ∃ earlier later, entries = earlier ++ entry :: later
    ∧ ∀ other ∈ earlier, ∃ final, targets.Settles entries data other final

end Sees

variable {targets : TargetModels T} {entries : List (PathPlanEntry V)} {data : Json}

theorem ParentsFirst.eq_of_path (ordered : ParentsFirst entries) {left right : PathPlanEntry V}
    (leftMember : left ∈ entries) (rightMember : right ∈ entries) (same : left.path = right.path)
    : left = right := by
  have nodup : (entries.map PathPlanEntry.path).Nodup := by
    rw [List.Nodup, List.pairwise_map]
    refine ordered.imp (fun apart same => apart ?_)
    rw [same]
  exact List.inj_on_of_nodup_map nodup leftMember rightMember same

/-- The value of an entry is one value. -/
theorem Sees.unique (ordered : ParentsFirst entries) {entry : PathPlanEntry V} {left right : Json}
    (first : targets.Sees entries data entry left) (second : targets.Sees entries data entry right)
    : left = right := by
  induction first generalizing right with
  | top free found =>
      cases second with
      | top _ again => exact Except.ok.inj (found.symm.trans again)
      | within member above => exact (free _ member above).elim
  | within member above nearest seen resolved finalized found ih =>
      cases second with
      | top free _ => exact (free _ member above).elim
      | within other otherAbove otherNearest otherSeen otherResolved otherFinalized again =>
          have same := (otherNearest _ member above).eq_of_length_le
            (nearest _ other otherAbove).length_le
          obtain rfl := ParentsFirst.eq_of_path ordered member other same
          obtain rfl := Except.ok.inj (resolved.symm.trans otherResolved)
          obtain rfl := (Json.obj.inj (ih otherSeen))
          obtain rfl := Except.ok.inj (finalized.symm.trans otherFinalized)
          exact Except.ok.inj (found.symm.trans again)

/-- What the validation of one entry does when it returns. -/
theorem validateEntry_ok {reached next : Json} {entry : PathPlanEntry V}
    (ran : targets.validateEntry reached entry = .ok next)
    : ∃ model members final, entry.path.get reached = .ok (.obj members)
        ∧ targets.resolve entry.targetModel = .ok model
        ∧ targets.finalize model members = .ok final
        ∧ replaceAt reached entry.path (.obj final) = .ok next := by
  obtain ⟨value, read, later⟩ := Py.ok_bind_iff.mp ran
  have found := Py.mapError_eq_ok.mp read
  cases value with
  | obj members =>
      obtain ⟨model, resolved, replaced⟩ := Py.ok_bind_iff.mp later
      obtain ⟨final, finalized, put⟩ := Py.ok_bind_iff.mp (Py.mapError_eq_ok.mp replaced)
      obtain ⟨updated, again, at_⟩ := Path.exists_set found final
      obtain rfl := Except.ok.inj (again.symm.trans put)
      exact ⟨model, members, final, found, Py.mapError_eq_ok.mp resolved, finalized, at_⟩
  | null => cases later
  | bool value => cases later
  | int value => cases later
  | float value => cases later
  | str value => cases later
  | arr value => cases later

/-- Where a path that leads at or above none of them is read after validating some entries: in what
the nearest one above was finalized to, or else unchanged.
-/
def ReadsAfter (targets : TargetModels T) (entries : List (PathPlanEntry V)) (data : Json)
    (earlier : List (PathPlanEntry V)) (reached : Json) (path : Path) : Prop :=
  ((∀ other ∈ earlier, ¬ other.path <+: path) ∧ path.get reached = path.get data)
  ∨ ∃ parent ∈ earlier, parent.path <+: path
    ∧ (∀ other ∈ earlier, other.path <+: path → other.path <+: parent.path)
    ∧ ∃ final, targets.Settles entries data parent final
      ∧ path.get reached = Path.get (path.drop parent.path.length) (.obj final)

/-- An entry is read after those before it as its value is told. -/
theorem sees_iff (ordered : ParentsFirst entries) {earlier later : List (PathPlanEntry V)}
    {entry : PathPlanEntry V} (split : entries = earlier ++ entry :: later) {reached value : Json}
    (reads : targets.ReadsAfter entries data earlier reached entry.path)
    : targets.Sees entries data entry value ↔ entry.path.get reached = .ok value := by
  have inside : ∀ other ∈ earlier, other ∈ entries := by
    intro other member
    rw [split]
    exact List.mem_append_left _ member
  have order := ordered
  rw [ParentsFirst, split, List.pairwise_append] at order
  obtain ⟨_, tail, across⟩ := order
  have before : ∀ other ∈ entries, other.Above entry → other ∈ earlier := by
    intro other member above
    rw [split] at member
    rcases List.mem_append.mp member with first | rest
    · exact first
    · rcases List.mem_cons.mp rest with rfl | later
      · exact (above.2 rfl).elim
      · exact ((List.pairwise_cons.mp tail).1 other later above.1).elim
  have above_of : ∀ other ∈ earlier, other.path <+: entry.path → other.Above entry := by
    intro other member initial
    refine ⟨initial, fun same => across other member entry List.mem_cons_self ?_⟩
    rw [same]
  rcases reads with ⟨free, same⟩ | ⟨parent, member, initial, nearest, final, settles, same⟩
  · rw [same]
    constructor
    · intro sees
      cases sees with
      | top _ found => exact found
      | within other above => exact (free _ (before _ other above) above.1).elim
    · intro found
      exact .top (fun other listed above => free other (before other listed above) above.1) found
  · rw [same]
    obtain ⟨model, members, seen, resolved, finalized⟩ := settles
    have closest : ∀ other ∈ entries, other.Above entry → other.path <+: parent.path :=
      fun other listed above => nearest other (before other listed above) above.1
    constructor
    · intro sees
      cases sees with
      | top free _ =>
          exact (free parent (inside parent member) (above_of parent member initial)).elim
      | within other above otherNearest otherSeen otherResolved otherFinalized found =>
          have equal := (closest _ other above).eq_of_length_le
            (otherNearest parent (inside parent member) (above_of parent member initial)).length_le
          obtain rfl := ParentsFirst.eq_of_path ordered other (inside parent member) equal
          obtain rfl := Except.ok.inj (resolved.symm.trans otherResolved)
          obtain rfl := Json.obj.inj (Sees.unique ordered seen otherSeen)
          obtain rfl := Except.ok.inj (finalized.symm.trans otherFinalized)
          exact found
    · intro found
      exact .within (inside parent member) (above_of parent member initial) closest seen resolved
        finalized found

/-- Validating entries one after the other, by induction from the last. -/
theorem readsAfter (ordered : ParentsFirst entries) {earlier later : List (PathPlanEntry V)}
    (split : entries = earlier ++ later) {reached : Json}
    (ran : targets.validateTarget earlier data = .ok reached) {path : Path}
    (ahead : ∀ other ∈ earlier, ¬ path <+: other.path)
    : targets.ReadsAfter entries data earlier reached path := by
  induction earlier using List.reverseRecOn generalizing later reached path with
  | nil =>
      obtain rfl := Except.ok.inj ran
      exact Or.inl ⟨fun _ member => absurd member List.not_mem_nil, rfl⟩
  | append_singleton init last ih =>
      rw [validateTarget, List.foldlM_append] at ran
      obtain ⟨middle, first, rest⟩ := Py.ok_bind_iff.mp ran
      rw [List.foldlM_cons] at rest
      obtain ⟨next, step, ended⟩ := Py.ok_bind_iff.mp rest
      obtain rfl := Except.ok.inj ended
      obtain ⟨model, members, final, found, resolved, finalized, replaced⟩ := validateEntry_ok step
      have split' : entries = init ++ last :: later := by rw [split, List.append_assoc]; rfl
      have order := ordered
      rw [ParentsFirst, split', List.pairwise_append] at order
      have apart : ∀ other ∈ init, ¬ last.path <+: other.path :=
        fun other member => order.2.2 other member last List.mem_cons_self
      have sees := (sees_iff ordered split' (ih split' first apart)).mpr found
      by_cases above : last.path <+: path
      · refine Or.inr ⟨last, List.mem_append_right _ (List.mem_singleton_self _), above,
          fun other member initial => ?_, final, ⟨model, members, sees, resolved, finalized⟩,
          Path.get_replaceAt_below replaced above⟩
        rcases List.mem_append.mp member with old | own
        · rcases List.prefix_or_prefix_of_prefix initial above with left | right
          · exact left
          · exact (apart other old right).elim
        · rw [List.mem_singleton.mp own]
      · have unchanged := Path.get_replaceAt_apart replaced
          ⟨above, ahead last (List.mem_append_right _ (List.mem_singleton_self _))⟩
        have reads := ih split' first
          (fun other member => ahead other (List.mem_append_left _ member))
        rcases reads with ⟨free, same⟩ | ⟨parent, member, initial, nearest, rest⟩
        · refine Or.inl ⟨fun other member => ?_, unchanged.trans same⟩
          rcases List.mem_append.mp member with old | own
          · exact free other old
          · rwa [List.mem_singleton.mp own]
        · obtain ⟨result, settles, same⟩ := rest
          refine Or.inr ⟨parent, List.mem_append_left _ member, initial,
            fun other listed lies => ?_,
            result, settles, unchanged.trans same⟩
          rcases List.mem_append.mp listed with old | own
          · exact nearest other old lies
          · rw [List.mem_singleton.mp own] at lies
            exact (above lies).elim

/-- After the entries before it, an entry is read as its value is told. -/
theorem sees_iff_of_passed (ordered : ParentsFirst entries) {earlier later : List (PathPlanEntry V)}
    {entry : PathPlanEntry V} (split : entries = earlier ++ entry :: later) {reached value : Json}
    (passed : targets.validateTarget earlier data = .ok reached)
    : targets.Sees entries data entry value ↔ entry.path.get reached = .ok value := by
  have order := ordered
  rw [ParentsFirst, split, List.pairwise_append] at order
  apply sees_iff ordered split
  exact readsAfter ordered split passed
    (fun other member => order.2.2 other member entry List.mem_cons_self)

-----------------------------------------------------------------------------------------
-- The entries that a validation passes
-----------------------------------------------------------------------------------------

/-- What an entry is read as decides what its validation does. -/
theorem validateEntry_obj {reached : Json} {entry : PathPlanEntry V} {members : Members} {model : T}
    (found : entry.path.get reached = .ok (.obj members))
    (resolved : targets.resolve entry.targetModel = .ok model)
    : (∀ final, targets.finalize model members = .ok final →
        ∃ next, targets.validateEntry reached entry = .ok next)
      ∧ ∀ error, targets.finalize model members = .error error →
        targets.validateEntry reached entry = .error (if error.isException
          then .target entry.path entry.targetModel error else .raised error) := by
  have told : targets.validateEntry reached entry
      = (targets.replace reached entry model members).mapError (fun error =>
          if error.isException then .target entry.path entry.targetModel error
          else .raised error) := by
    rw [validateEntry, found]
    change ((targets.resolve entry.targetModel).mapError ValidationError.raised).bind _ = _
    rw [resolved]
    rfl
  rw [told, replace]
  refine ⟨fun final finalized => ?_, fun error failed => ?_⟩
  · obtain ⟨updated, put, _⟩ := Path.exists_set found final
    rw [finalized]
    change ∃ next, (entry.path.set reached final).mapError _ = .ok next
    rw [put]
    exact ⟨updated, rfl⟩
  · rw [failed]
    rfl

theorem validateEntry_absent {reached : Json} {entry : PathPlanEntry V} {error : Raised}
    (absent : entry.path.get reached = .error error)
    : targets.validateEntry reached entry = .error (.raised error) := by
  rw [validateEntry, absent]
  rfl

theorem validateEntry_other {reached value : Json} {entry : PathPlanEntry V}
    (found : entry.path.get reached = .ok value) (other : ∀ members, value ≠ .obj members)
    : targets.validateEntry reached entry = .error (.target entry.path entry.targetModel
        (.typeError "target payload is not a mapping")) := by
  rw [validateEntry, found]
  cases value with
  | obj members => exact (other members rfl).elim
  | null => rfl
  | bool value => rfl
  | int value => rfl
  | float value => rfl
  | str value => rfl
  | arr value => rfl

/-- Some entries are passed exactly if each of them is a mapping that its target model finalizes, by
induction from the last.
-/
theorem validated_iff (ordered : ParentsFirst entries) {earlier later : List (PathPlanEntry V)}
    (split : entries = earlier ++ later)
    : (∃ reached, targets.validateTarget earlier data = .ok reached)
      ↔ ∀ other ∈ earlier, ∃ final, targets.Settles entries data other final := by
  induction earlier using List.reverseRecOn generalizing later with
  | nil => exact ⟨fun _ _ member => absurd member List.not_mem_nil, fun _ => ⟨data, rfl⟩⟩
  | append_singleton init last ih =>
      have split' : entries = init ++ last :: later := by rw [split, List.append_assoc]; rfl
      have steps : ∀ middle, targets.validateTarget init data = .ok middle →
          targets.validateTarget (init ++ [last]) data = targets.validateEntry middle last := by
        intro middle first
        rw [validateTarget, List.foldlM_append]
        change (targets.validateTarget init data).bind _ = _
        rw [first]
        change targets.validateEntry middle last >>= pure = _
        exact bind_pure _
      constructor
      · intro ran other member
        obtain ⟨reached, ran⟩ := ran
        obtain ⟨middle, first, _⟩ := Py.ok_bind_iff.mp (List.foldlM_append.symm.trans ran)
        rcases List.mem_append.mp member with old | own
        · exact (ih split').mp ⟨middle, first⟩ other old
        · obtain rfl := List.mem_singleton.mp own
          obtain ⟨model, members, final, found, resolved, finalized, _⟩ :=
            validateEntry_ok ((steps middle first).symm.trans ran)
          have sees := (sees_iff_of_passed ordered split' first).mpr found
          exact ⟨final, model, members, sees, resolved, finalized⟩
      · intro settled
        obtain ⟨middle, first⟩ := (ih split').mpr
          (fun other member => settled other (List.mem_append_left _ member))
        obtain ⟨final, model, members, sees, resolved, finalized⟩ :=
          settled last (List.mem_append_right _ (List.mem_singleton_self _))
        have found := (sees_iff_of_passed ordered split' first).mp sees
        rw [steps middle first]
        exact (validateEntry_obj found resolved).1 final finalized

-----------------------------------------------------------------------------------------
-- What the entries end as
-----------------------------------------------------------------------------------------

/-- What an entry ends as: what its model finalized it to, with the entries below it replaced by
what theirs finalized them to.
-/
def Finalized (targets : TargetModels T) (entries : List (PathPlanEntry V)) (data : Json)
    (entry : PathPlanEntry V) (value : Json) : Prop :=
  ∃ final replaced, targets.Settles entries data entry final
    ∧ List.Forall₂ (fun inner result => ∃ within, targets.Settles entries data inner within
        ∧ result = (inner.path.drop entry.path.length, .obj within))
      (entries.filter (fun inner => inner.path.isDescendantOf entry.path)) replaced
    ∧ applyResults (.obj final) replaced = .ok value

/-- What was finalized is kept but for the entries below it, by induction from the last one after
it.
-/
theorem finalized_after (ordered : ParentsFirst entries)
    {earlier between later : List (PathPlanEntry V)} {entry : PathPlanEntry V}
    (split : entries = earlier ++ entry :: (between ++ later)) {final : Members}
    {start reached : Json}
    (ran : targets.validateTarget (earlier ++ [entry]) data = .ok start)
    (put : entry.path.get start = .ok (.obj final))
    (rest : targets.validateTarget between start = .ok reached)
    : ∃ value replaced, entry.path.get reached = .ok value
        ∧ List.Forall₂ (fun inner result => ∃ within, targets.Settles entries data inner within
            ∧ result = (inner.path.drop entry.path.length, .obj within))
          (between.filter (fun inner => inner.path.isDescendantOf entry.path)) replaced
        ∧ applyResults (.obj final) replaced = .ok value := by
  induction between using List.reverseRecOn generalizing later reached with
  | nil =>
      obtain rfl := Except.ok.inj rest
      exact ⟨_, [], put, .nil, rfl⟩
  | append_singleton init last ih =>
      obtain ⟨middle, first, ended⟩ := Py.ok_bind_iff.mp (List.foldlM_append.symm.trans rest)
      have step : targets.validateEntry middle last = .ok reached := by
        rw [← ended]
        exact (bind_pure _).symm
      have split' : entries = earlier ++ entry :: (init ++ last :: later) := by
        rw [split, List.append_assoc]
        rfl
      have whole : entries = (earlier ++ [entry] ++ init) ++ last :: later := by
        rw [split']
        simp
      have order := ordered
      rw [ParentsFirst, whole, List.pairwise_append] at order
      have apart : ∀ other ∈ earlier ++ [entry] ++ init, ¬ last.path <+: other.path :=
        fun other member => order.2.2 other member last List.mem_cons_self
      have prior : targets.validateTarget (earlier ++ [entry] ++ init) data = .ok middle := by
        rw [validateTarget, List.foldlM_append]
        change (targets.validateTarget (earlier ++ [entry]) data).bind _ = _
        rw [ran]
        exact first
      obtain ⟨model, members, within, found, resolved, finalized, replacedAt⟩ :=
        validateEntry_ok step
      have sees := (sees_iff_of_passed ordered whole prior).mpr found
      have settles : targets.Settles entries data last within :=
        ⟨model, members, sees, resolved, finalized⟩
      obtain ⟨value, replaced, held, pairs, applied⟩ := ih split' first
      have notAbove : ¬ last.path <+: entry.path := apart entry (by simp)
      rw [List.filter_append]
      by_cases below : entry.path <+: last.path
      · have descends : last.path.isDescendantOf entry.path = true := by
          refine Path.isDescendantOf_iff.mpr ⟨below, ?_⟩
          intro same
          exact notAbove (same ▸ List.prefix_rfl)
        obtain ⟨tail, same⟩ := below
        rw [← same] at replacedAt
        obtain ⟨next, inner, told⟩ := replaceAt_under replacedAt held
        refine ⟨next, replaced ++ [(tail, .obj within)], told, ?_, ?_⟩
        · refine List.rel_append pairs ?_
          have kept : [last].filter (fun inner => inner.path.isDescendantOf entry.path)
              = [last] := by
            simp [descends]
          rw [kept]
          refine .cons ⟨within, settles, ?_⟩ .nil
          rw [← same, List.drop_left]
        · rw [applyResults, List.foldlM_append]
          change (applyResults (.obj final) replaced).bind _ = _
          rw [applied]
          change replaceAt value tail (.obj within) >>= pure = _
          rw [bind_pure]
          exact inner
      · have descends : ¬ last.path.isDescendantOf entry.path = true :=
          fun descends => below (Path.isDescendantOf_iff.mp descends).1
        have dropped : [last].filter (fun inner => inner.path.isDescendantOf entry.path) = [] := by
          simp [descends]
        rw [dropped, List.append_nil]
        refine ⟨value, replaced, ?_, pairs, applied⟩
        rw [Path.get_replaceAt_apart replacedAt ⟨notAbove, below⟩]
        exact held

/-- Whatever is at the path of an entry in the end is what the entry ends as. -/
theorem finalized_of_validated (ordered : ParentsFirst entries) {result : Json}
    (ran : targets.validateTarget entries data = .ok result) {entry : PathPlanEntry V}
    (member : entry ∈ entries) {value : Json} (present : entry.path.get result = .ok value)
    : targets.Finalized entries data entry value := by
  obtain ⟨earlier, later, split⟩ := List.append_of_mem member
  have whole : entries = (earlier ++ [entry]) ++ later := by rw [split]; simp
  rw [whole] at ran
  obtain ⟨start, first, rest⟩ := Py.ok_bind_iff.mp (List.foldlM_append.symm.trans ran)
  obtain ⟨middle, before, ended⟩ := Py.ok_bind_iff.mp (List.foldlM_append.symm.trans first)
  have step : targets.validateEntry middle entry = .ok start := by
    rw [← ended]
    exact (bind_pure _).symm
  obtain ⟨model, members, final, found, resolved, finalized, replacedAt⟩ := validateEntry_ok step
  have order := ordered
  rw [ParentsFirst, split, List.pairwise_append] at order
  obtain ⟨_, tail, across⟩ := order
  have apart : ∀ other ∈ earlier, ¬ entry.path <+: other.path :=
    fun other member => across other member entry List.mem_cons_self
  have sees := (sees_iff_of_passed ordered split before).mpr found
  have split' : entries = earlier ++ entry :: (later ++ []) := by rw [split, List.append_nil]
  obtain ⟨told, replaced, held, pairs, applied⟩ := finalized_after ordered split' first
    (Path.get_replaceAt_self replacedAt) rest
  obtain rfl := Except.ok.inj (present.symm.trans held)
  refine ⟨final, replaced, ⟨model, members, sees, resolved, finalized⟩, ?_, applied⟩
  have none : (earlier ++ [entry]).filter (fun inner => inner.path.isDescendantOf entry.path)
      = [] := by
    rw [List.filter_eq_nil_iff]
    intro inner listed descends
    obtain ⟨initial, differ⟩ := Path.isDescendantOf_iff.mp descends
    rcases List.mem_append.mp listed with old | own
    · exact apart inner old initial
    · exact differ (by rw [List.mem_singleton.mp own])
  rw [whole, List.filter_append, none, List.nil_append]
  rw [← whole]
  exact pairs

end TargetModels

-----------------------------------------------------------------------------------------
-- Planned entries
-----------------------------------------------------------------------------------------

/-- What comes later in a payload lies neither at nor above what comes before. -/
theorem Precedes.not_prefix {value : Json} {path later : Path} (before : Precedes value path later)
    : ¬ later <+: path := by
  induction path generalizing value later with
  | nil =>
      intro initial
      exact before (List.prefix_nil.mp initial)
  | cons step rest ih =>
      cases later with
      | nil => exact before.elim
      | cons next others =>
          intro initial
          obtain ⟨rfl, inner⟩ := List.cons_prefix_cons.mp initial
          rw [Precedes, if_pos rfl] at before
          obtain ⟨_, _, below⟩ := before
          exact ih below inner

section Planning

variable [DecidableEq V] [VersionValue V]

/-- What a discovery looks at has every key once, as mappings do. -/
def PlanRequest.IsWellFormed (coordinator : ExecutionCoordinator V M F H)
    (request : PlanRequest V M) : Prop :=
  match request.sourceModel with
  | none => WellFormed request.payload
  | some model =>
      ∀ seen, validatedPayload coordinator.adapter coordinator.validation request.payload model
        = .ok seen → seen.WellFormed

variable {coordinator : ExecutionCoordinator V M F H}

/-- What a discovery finds, it finds before what is nested in it. -/
theorem PlanRequest.IsWellFormed.parents_first {request : PlanRequest V M}
    (wellFormed : request.IsWellFormed coordinator) {found : List (Path × VersionNode V)}
    (discovers : Discovers coordinator.finder.graph coordinator.adapter coordinator.validation
      request.payload request.sourceModel found)
    : (found.map Prod.fst).Pairwise (fun earlier later => ¬ later <+: earlier) := by
  obtain ⟨payload, target, sourceModel, maxDepth⟩ := request
  cases discovers with
  | containerless =>
      have order := @finds_preorder _ true (coordinator.finder.graph.matchPayload
        coordinator.adapter.kindProperty coordinator.adapter.versionProperty) _ wellFormed
      exact order.imp Precedes.not_prefix
  | guided handles validated =>
      have apart := @Dumped.outermost_apart _ (coordinator.finder.graph.matchDumped
        coordinator.adapter.kindProperty coordinator.adapter.versionProperty) _
        (wellFormed _ validated)
      exact List.pairwise_map.mpr (apart.imp (fun away => away.2))

/-- A plan that is found for the entries of a request lists parents first. -/
theorem ExecutionCoordinator.found_parentsFirst {request : PlanRequest V M}
    (wellFormed : request.IsWellFormed coordinator) {entries : List (ExtractedEntry V)}
    (discovered : coordinator.extract request = .ok entries) {found : FoundPlan V M}
    (finds : coordinator.found request entries = .ok found)
    : ParentsFirst found.plan.entries := by
  obtain ⟨resolver, _, later⟩ := Py.ok_bind_iff.mp finds
  obtain ⟨plan, walked, same⟩ := Py.ok_bind_iff.mp later
  obtain rfl := Except.ok.inj same
  have listed : (entries.map ExtractedEntry.path).Pairwise
      (fun earlier later => ¬ later <+: earlier) := by
    obtain ⟨yields, extracted, rfl⟩ := Py.map_eq_ok.mp (Py.mapError_eq_ok.mp discovered)
    obtain ⟨found, discovers, rfl⟩ := extract_of_ok extracted
    rw [List.map_map, List.map_map]
    exact wellFormed.parents_first discovers
  have sublist := (PathFinder.found_sublist walked).map Prod.fst
  rw [List.map_map, List.map_map] at sublist
  exact List.pairwise_map.mp (listed.sublist sublist)

/-- A plan comes from the table or from the finder. -/
theorem ExecutionCoordinator.pathPlan_ok {Expected : PlanKey → FoundPlan V M → Prop} {size : Int}
    {request : PlanRequest V M} {entries : List (ExtractedEntry V)} {state : CoordinatorState V M}
    (remembers : coordinator.Remembers Expected size state) {found : FoundPlan V M}
    (ran : Py.outcome (coordinator.pathPlan request entries) state = .ok found)
    : (∃ key, Expected key found) ∨ coordinator.found request entries = .ok found := by
  have fresh : ∀ {reached : CoordinatorState V M}, coordinator.Remembers Expected size reached →
      Py.outcome (coordinator.findNow request entries) reached = .ok found →
      coordinator.found request entries = .ok found := by
    intro reached valid now
    rw [(findNow_answers request entries reached valid).1] at now
    exact Py.mapError_eq_ok.mp now
  unfold pathPlan at ran
  cases keyed : coordinator.key request entries with
  | none =>
      rw [keyed] at ran
      exact .inr (fresh remembers ran)
  | some key =>
      rw [keyed] at ran
      change Py.outcome (readPlan key >>= _) state = _ at ran
      rw [Py.outcome_bind] at ran
      have kept : coordinator.Remembers Expected size
          { state with plans := (state.plans.get key).2 } := {
        paths := remembers.paths
        sized := (Py.Lru.size_get key).trans remembers.sized
        plans := fun enabled => (remembers.plans enabled).get key
      }
      have read : Py.outcome (readPlan (V := V) (M := M) key) state
          = .ok (state.plans.get key).1 := rfl
      rw [read] at ran
      cases answer : (state.plans.get key).1 with
      | some plan =>
          rw [answer] at ran
          obtain rfl := Except.ok.inj ran
          have enabled : size ≠ 0 := by
            intro disabled
            simp [Py.Lru.get, remembers.sized, disabled] at answer
          exact .inl ⟨key, remembers.plans enabled key plan (Py.Lru.get?_of_get answer)⟩
      | none =>
          rw [answer] at ran
          change Py.outcome (coordinator.findNow request entries >>= _) _ = _ at ran
          rw [Py.outcome_bind] at ran
          obtain ⟨plan, now, same⟩ := Py.ok_bind_iff.mp ran
          obtain rfl := Except.ok.inj same
          exact .inr (fresh kept now)

/-- Planning well-formed requests keeps plans in the table that list parents first. -/
theorem ExecutionCoordinator.planAll_parentsFirst {size : Int} {earlier : List (PlanRequest V M)}
    (wellFormed : ∀ request ∈ earlier, request.IsWellFormed coordinator)
    {state : CoordinatorState V M}
    (remembers : coordinator.Remembers (fun _ found => ParentsFirst found.plan.entries) size state)
    : coordinator.Remembers (fun _ found => ParentsFirst found.plan.entries) size
        (coordinator.planAll state earlier) := by
  induction earlier generalizing state with
  | nil => exact remembers
  | cons request rest ih =>
      refine ih (fun other member => wellFormed other (List.mem_cons_of_mem _ member)) ?_
      refine plan_preserves ?_ state remembers
      intro _ entries _ _ discovered _ finds
      exact found_parentsFirst (wellFormed request List.mem_cons_self) discovered finds

/-- What a coordinator plans lists parents first. -/
theorem ExecutionCoordinator.plan_parentsFirst {size : Int} {earlier : List (PlanRequest V M)}
    {request : PlanRequest V M}
    (wellFormed : ∀ other ∈ request :: earlier, other.IsWellFormed coordinator)
    {plan : ExecutionPlan V F H}
    (planned : Py.outcome (coordinator.plan request) (coordinator.planAll (start size) earlier)
      = .ok plan)
    : ParentsFirst plan.path.entries := by
  have initial : coordinator.Remembers (fun _ found => ParentsFirst found.plan.entries) size
      (start size) :=
    ⟨(@PathFinder.CacheReached.empty V _ _ coordinator.finder).valid, rfl,
      fun _ => Py.Lru.holds_new size⟩
  have remembers := planAll_parentsFirst
    (fun other member => wellFormed other (List.mem_cons_of_mem _ member)) initial
  rw [ExecutionCoordinator.plan, Py.outcome_bind, Py.outcome_query] at planned
  obtain ⟨entries, discovered, later⟩ := Py.ok_bind_iff.mp planned
  rw [Py.after_query, Py.outcome_bind] at later
  obtain ⟨found, ran, bound⟩ := Py.ok_bind_iff.mp later
  rw [Py.outcome_query] at bound
  rw [(buildPlan_ok (Py.mapError_eq_ok.mp bound)).1]
  rcases pathPlan_ok remembers ran with ⟨_, ordered⟩ | finds
  · exact ordered
  · exact found_parentsFirst (wellFormed request List.mem_cons_self) discovered finds

end Planning

-----------------------------------------------------------------------------------------
-- Runs that are validated
-----------------------------------------------------------------------------------------

/-- Every entry that the validation comes to is found where it looks, and finalizing it raises
nothing that an `except Exception` lets through.
-/
structure TargetModels.Present (targets : TargetModels T) (entries : List (PathPlanEntry V))
    (data : Json) : Prop where
  found : ∀ entry, targets.ComesTo entries data entry →
    ∃ value, targets.Sees entries data entry value
  caught : ∀ entry members model error, targets.ComesTo entries data entry →
    targets.Sees entries data entry (.obj members) →
    targets.resolve entry.targetModel = .ok model → targets.finalize model members = .error error →
    error.isException = true

/-- A run returns a payload in which all entries that are present are finalized, or names an entry
of the plan.
-/
def TargetModels.Validates (targets : TargetModels T) (entries : List (PathPlanEntry V))
    (data : Json) (outcome : Except (RunError V ⊕ ValidationError) Json) : Prop :=
  (∃ result, outcome = .ok result ∧ ∀ entry ∈ entries, ∀ value,
      entry.path.get result = .ok value → targets.Finalized entries data entry value)
    ∨ ∃ entry ∈ entries, ∃ error,
        outcome = .error (.inr (.target entry.path entry.targetModel error))

/-- A validation that fails has passed the entries before the one it fails at. -/
theorem TargetModels.validateTarget_error {targets : TargetModels T}
    {entries : List (PathPlanEntry V)} {data : Json} {error : ValidationError}
    : targets.validateTarget entries data = .error error
      ↔ ∃ earlier entry later reached, entries = earlier ++ entry :: later
          ∧ targets.validateTarget earlier data = .ok reached
          ∧ targets.validateEntry reached entry = .error error := by
  induction entries generalizing data with
  | nil =>
      constructor
      · intro failed
        cases failed
      · intro stopped
        obtain ⟨earlier, entry, later, reached, split, _⟩ := stopped
        simp at split
  | cons first rest ih =>
      have unfolded : ∀ others, targets.validateTarget (first :: others) data
          = (targets.validateEntry data first).bind (targets.validateTarget others) :=
        fun others => rfl
      rw [unfolded]
      cases step : targets.validateEntry data first with
      | error failure =>
          constructor
          · intro failed
            obtain rfl := Except.error.inj failed
            exact ⟨[], first, rest, data, rfl, rfl, step⟩
          · intro stopped
            obtain ⟨earlier, entry, later, reached, split, passed, failed⟩ := stopped
            cases earlier with
            | nil =>
                obtain ⟨rfl, rfl⟩ := List.cons.inj split
                obtain rfl := Except.ok.inj passed
                exact step.symm.trans failed
            | cons head tail =>
                obtain ⟨rfl, rfl⟩ := List.cons.inj split
                rw [unfolded, step] at passed
                cases passed
      | ok next =>
          refine Iff.trans ih ?_
          constructor
          · intro stopped
            obtain ⟨earlier, entry, later, reached, rfl, passed, failed⟩ := stopped
            refine ⟨first :: earlier, entry, later, reached, rfl, ?_, failed⟩
            rw [unfolded, step]
            exact passed
          · intro stopped
            obtain ⟨earlier, entry, later, reached, split, passed, failed⟩ := stopped
            cases earlier with
            | nil =>
                obtain ⟨rfl, rfl⟩ := List.cons.inj split
                obtain rfl := Except.ok.inj passed
                rw [step] at failed
                cases failed
            | cons head tail =>
                obtain ⟨rfl, rfl⟩ := List.cons.inj split
                rw [unfolded, step] at passed
                exact ⟨tail, entry, later, reached, rfl, passed, failed⟩

/-- The models of a plan that passes the check of the runner resolve. -/
theorem Runner.identifies_of_checkModels {runner : Runner V M F H}
    {entries : List (PathPlanEntry V)} (checked : runner.checkModels entries = .ok ⟨⟩)
    {entry : PathPlanEntry V} (member : entry ∈ entries)
    : runner.identifies entry.targetModel = .ok true := by
  induction entries with
  | nil => exact absurd member List.not_mem_nil
  | cons first rest ih =>
      obtain ⟨known, identified, later⟩ := Py.ok_bind_iff.mp checked
      have told := Py.mapError_eq_ok.mp identified
      cases known with
      | false => cases later
      | true =>
          rcases List.mem_cons.mp member with rfl | inRest
          · exact told
          · exact ih later inRest

/-- Validating the entries of a plan that lists parents first ends as the run should exactly if what
it comes to is present.
-/
theorem TargetModels.validates_iff_present {targets : TargetModels T}
    {entries : List (PathPlanEntry V)} (ordered : ParentsFirst entries)
    (resolves : ∀ entry ∈ entries, ∃ model, targets.resolve entry.targetModel = .ok model)
    (data : Json)
    : targets.Validates (V := V) entries data
        ((targets.validateTarget entries data).mapError .inr)
      ↔ targets.Present entries data := by
  constructor
  · intro validates
    -- An entry that the validation comes to does not fail otherwise.
    have fails : ∀ {earlier entry later reached error}, entries = earlier ++ entry :: later →
        targets.validateTarget earlier data = .ok reached →
        targets.validateEntry reached entry ≠ .error (.raised error) := by
      intro earlier entry later reached error split passed failed
      rw [validateTarget_error.mpr ⟨earlier, entry, later, reached, split, passed, failed⟩]
        at validates
      rcases validates with ⟨_, returned, _⟩ | ⟨_, _, _, named⟩
      · cases returned
      · cases named
    refine ⟨fun entry comesTo => ?_,
      fun entry members model error comesTo seen resolved failed => ?_⟩
    · obtain ⟨earlier, later, split, settled⟩ := comesTo
      obtain ⟨reached, passed⟩ := (validated_iff ordered split).mpr settled
      cases found : entry.path.get reached with
      | ok value => exact ⟨value, (sees_iff_of_passed ordered split passed).mpr found⟩
      | error error => exact (fails split passed (validateEntry_absent found)).elim
    · obtain ⟨earlier, later, split, settled⟩ := comesTo
      obtain ⟨reached, passed⟩ := (validated_iff ordered split).mpr settled
      have found := (sees_iff_of_passed ordered split passed).mp seen
      have stops := (validateEntry_obj found resolved).2 error failed
      cases caught : error.isException with
      | true => rfl
      | false =>
          rw [caught] at stops
          exact (fails split passed stops).elim
  · intro present
    cases ran : targets.validateTarget entries data with
    | ok result =>
        exact .inl ⟨result, rfl, fun entry member value held =>
          finalized_of_validated ordered ran member held⟩
    | error error =>
        obtain ⟨earlier, entry, later, reached, split, passed, failed⟩ :=
          validateTarget_error.mp ran
        have comesTo : targets.ComesTo entries data entry :=
          ⟨earlier, later, split, (validated_iff ordered split).mp ⟨reached, passed⟩⟩
        have member : entry ∈ entries := by
          rw [split]
          exact List.mem_append_right _ List.mem_cons_self
        obtain ⟨value, seen⟩ := present.found entry comesTo
        obtain ⟨model, resolved⟩ := resolves entry member
        have found := (sees_iff_of_passed ordered split passed).mp seen
        refine .inr ⟨entry, member, ?_⟩
        by_cases mapping : ∃ members, value = .obj members
        · obtain ⟨members, rfl⟩ := mapping
          cases finalized : targets.finalize model members with
          | ok final =>
              obtain ⟨next, passes⟩ := (validateEntry_obj found resolved).1 final finalized
              rw [passes] at failed
              cases failed
          | error raised =>
              have caught := present.caught entry members model raised comesTo seen resolved
                finalized
              have stops := (validateEntry_obj found resolved).2 raised finalized
              rw [caught, failed] at stops
              obtain rfl := Except.error.inj stops
              exact ⟨raised, rfl⟩
        · have stops : targets.validateEntry reached entry = _ :=
            validateEntry_other found (fun members same => mapping ⟨members, same⟩)
          rw [failed] at stops
          obtain rfl := Except.error.inj stops
          exact ⟨_, rfl⟩


variable [DecidableEq V] [VersionValue V]

/-- After the same requests, a run with a final validation returns a payload in which what is
present is finalized or names an entry of its plan, exactly if all that the validation comes to is
still where it looks.
-/
theorem ValidatingRunner.validates_iff {runner : ValidatingRunner V M F H T}
    {backend : ExecutionPlan V F H → Except Raised Json} {size : Int}
    {earlier : List (PlanRequest V M)} {request : PlanRequest V M}
    (wellFormed : ∀ other ∈ request :: earlier, other.IsWellFormed runner.coordinator)
    {plan : ExecutionPlan V F H} {data : Json}
    (planned : Py.outcome (runner.plan request)
      (runner.coordinator.planAll (ExecutionCoordinator.start size) earlier) = .ok plan)
    (executed : backend plan = .ok data)
    : runner.targets.Validates plan.path.entries data
        (Py.outcome (runner.runValidated backend request)
          (runner.coordinator.planAll (ExecutionCoordinator.start size) earlier))
      ↔ runner.targets.Present plan.path.entries data := by
  have run : Py.outcome (runner.runValidated backend request)
      (runner.coordinator.planAll (ExecutionCoordinator.start size) earlier)
      = (runner.targets.validateTarget plan.path.entries data).mapError .inr := by
    rw [runValidated, Py.outcome_bind, Py.outcome_zoom, id_eq, planned]
    change Py.outcome (_ >>= _) _ = _
    rw [Py.outcome_bind, Py.outcome_query, executed]
    exact Py.outcome_query _ _
  rw [Runner.plan, Py.outcome_bind, Py.outcome_zoom] at planned
  obtain ⟨found, coordinated, later⟩ := Py.ok_bind_iff.mp planned
  rw [Py.outcome_bind, Py.outcome_query] at later
  obtain ⟨_, checked, same⟩ := Py.ok_bind_iff.mp later
  obtain rfl := Except.ok.inj same
  have ordered :=
    ExecutionCoordinator.plan_parentsFirst wellFormed (Py.mapError_eq_ok.mp coordinated)
  rw [run]
  apply TargetModels.validates_iff_present ordered
  intro entry member
  have identified := Runner.identifies_of_checkModels checked member
  rw [runner.identifies_eq] at identified
  obtain ⟨model, resolved, _⟩ := Py.map_eq_ok.mp identified
  exact ⟨model, resolved⟩

/-- A runner whose models finalize a mapping by itself. -/
def finalizingRunner (graph : MigrationGraph Release) (finalize : Members → Except Raised Members)
    : ValidatingRunner Release Unit Unit Unit Unit := {
  plainRunner graph with
  targets := ⟨fun _ => .ok (), fun _ => true, fun _ => finalize⟩
  identifies_eq := fun _ => rfl }

theorem isWellFormed_of_plain {graph : MigrationGraph Release} {payload : Json}
    {target : TargetPolicy Release Unit} (wellFormed : WellFormed payload)
    : (⟨payload, target, none, -1⟩ : PlanRequest Release Unit).IsWellFormed
        (plainCoordinator graph .any) :=
  wellFormed

/-- A model that knows the identity of an entry and drops all else. -/
def keepIdentity (members : Members) : Except Raised Members :=
  .ok (members.filter (fun member => member.1 = "kind" || member.1 = "version"))

/-- Witness: two users in a list are validated one after the other. -/
theorem validates_listedUsers
    : ∃ graph, buildGraph plainConfig.hasher (userCatalogIn "default") none = .ok graph
        ∧ ∃ plan : ExecutionPlan Release Unit Unit,
          plan.path.entries.map PathPlanEntry.path = listedEntries.map ExtractedEntry.path
          ∧ (finalizingRunner graph keepIdentity).targets.Validates plan.path.entries
            listedUsers.payload
            (Py.outcome ((finalizingRunner graph keepIdentity).runValidated
              ((plainRunner graph).execute .sync) listedUsers) (ExecutionCoordinator.start 0)) := by
  have shown : (buildGraph plainConfig.hasher (userCatalogIn "default") none).map (fun graph =>
      (Py.outcome ((plainRunner graph).plan listedUsers) (ExecutionCoordinator.start 0)).map
        (fun plan => (plan.path.entries.map PathPlanEntry.path,
          (plainRunner graph).execute .sync plan)))
      = .ok (.ok (listedEntries.map ExtractedEntry.path, .ok listedUsers.payload)) := by
    decide +kernel
  obtain ⟨graph, built, told⟩ := Py.map_eq_ok.mp shown
  obtain ⟨plan, planned, both⟩ := Py.map_eq_ok.mp told
  obtain ⟨paths, executed⟩ := Prod.mk.inj both
  have listed : ∀ entry ∈ plan.path.entries,
      entry.path = [.key "users", .index 0] ∨ entry.path = [.key "users", .index 1] := by
    intro entry member
    have inPaths : entry.path ∈ plan.path.entries.map PathPlanEntry.path :=
      List.mem_map.mpr ⟨entry, member, rfl⟩
    rw [paths] at inPaths
    simpa [listedEntries] using inPaths
  refine ⟨graph, built, plan, paths, ?_⟩
  refine (@ValidatingRunner.validates_iff _ _ _ _ _ _ _ (finalizingRunner graph keepIdentity)
    _ 0 [] listedUsers ?_ plan listedUsers.payload planned executed).mpr ⟨?_, ?_⟩
  · intro other member
    rw [List.mem_singleton.mp member]
    exact isWellFormed_of_plain wellFormed_listedUsers
  · intro entry comesTo
    obtain ⟨before, after, split, _⟩ := comesTo
    have member : entry ∈ plan.path.entries := by
      rw [split]
      exact List.mem_append_right _ List.mem_cons_self
    refine ⟨firstUser.payload, .top ?_ ?_⟩
    · rintro other inEntries ⟨initial, differ⟩
      rcases listed entry member with own | own <;>
        rcases listed other inEntries with theirs | theirs <;>
        simp [own, theirs] at initial differ
    · rcases listed entry member with own | own
      · rw [own]
        rfl
      · rw [own]
        rfl
  · intro entry members model error _ _ _ failed
    cases failed

/-- Counterexample: the inner user is gone after the outer one was finalized. -/
theorem not_validates_nestedUsers
    : ¬ ∀ (runner : ValidatingRunner Release Unit Unit Unit Unit)
        (backend : ExecutionPlan Release Unit Unit → Except Raised Json) (size : Int)
        (earlier : List (PlanRequest Release Unit)) (request : PlanRequest Release Unit)
        (plan : ExecutionPlan Release Unit Unit) (data : Json),
        (∀ other ∈ request :: earlier, other.IsWellFormed runner.coordinator)
        → Py.outcome (runner.plan request)
            (runner.coordinator.planAll (ExecutionCoordinator.start size) earlier) = .ok plan
        → backend plan = .ok data
        → runner.targets.Validates plan.path.entries data
            (Py.outcome (runner.runValidated backend request)
              (runner.coordinator.planAll (ExecutionCoordinator.start size) earlier)) := by
  intro claim
  have shown : (buildGraph plainConfig.hasher (userCatalogIn "default") none).map (fun graph =>
      ((Py.outcome ((plainRunner graph).plan ⟨nestedUsers, .text "latest", none, -1⟩)
          (ExecutionCoordinator.start 0)).map ((plainRunner graph).execute .sync),
        Py.outcome ((finalizingRunner graph keepIdentity).runValidated
          ((plainRunner graph).execute .sync) ⟨nestedUsers, .text "latest", none, -1⟩)
          (ExecutionCoordinator.start 0)))
      = .ok (.ok (.ok nestedUsers), .error (.inr (.raised (.keyError "'friend'")))) := by
    decide +kernel
  obtain ⟨graph, _, both⟩ := Py.map_eq_ok.mp shown
  obtain ⟨told, ran⟩ := Prod.mk.inj both
  obtain ⟨plan, planned, executed⟩ := Py.map_eq_ok.mp told
  have wellFormed : WellFormed nestedUsers := by
    simp [nestedUsers, WellFormed, WellFormedMembers]
  have validates := claim (finalizingRunner graph keepIdentity) ((plainRunner graph).execute .sync)
    0 [] ⟨nestedUsers, .text "latest", none, -1⟩ plan nestedUsers ?_ planned executed
  · change TargetModels.Validates _ _ _ (Py.outcome ((finalizingRunner graph
      keepIdentity).runValidated _ _) (ExecutionCoordinator.start 0)) at validates
    rw [ran] at validates
    rcases validates with ⟨_, returned, _⟩ | ⟨_, _, _, named⟩
    · cases returned
    · cases named
  · intro other member
    rw [List.mem_singleton.mp member]
    exact isWellFormed_of_plain wellFormed

end Pyverge
