import Pyverge.Reflection.Binding

/-! Predicates of a diff and of its inverse.
Inversion swaps additions and removals but leaves the details of each change, so predicates that
read details answer as if the diff still led forward.
-/

namespace Pyverge

variable {V : Type}

-----------------------------------------------------------------------------------------
-- Predicates
-----------------------------------------------------------------------------------------

namespace Diff

def isAdded (diff : Diff V) (field : String) : Bool := diff.status? field = some .added

def isRemoved (diff : Diff V) (field : String) : Bool := diff.status? field = some .removed

def isModified (diff : Diff V) (field : String) : Bool := diff.status? field = some .modified

def isAddedRequired (diff : Diff V) (field : String) : Bool :=
  (diff.addedFieldInfo.get? field).any (fun info =>
    ((Py.Json.getMember info "required").getD .null).truthy)

/-- One recorded change of a modified field, null if there is none. -/
def modifiedChange (diff : Diff V) (field key : String) : Py.Json :=
  ((diff.modifiedFields.get? field).bind (Py.Json.getMember · key)).getD .null

/-- Whether a recorded change leads from a true value to a false one. -/
def leadsDown (change : Py.Json) : Bool :=
  change ≠ .null && ((change.child? "from").getD .null).truthy
  && !((change.child? "to").getD .null).truthy

def leadsUp (change : Py.Json) : Bool :=
  change ≠ .null && !((change.child? "from").getD .null).truthy
  && ((change.child? "to").getD .null).truthy

def isUnionExpansion (diff : Diff V) (field : String) : Bool :=
  leadsDown (diff.modifiedChange field "required_changed")

def isUnionContraction (diff : Diff V) (field : String) : Bool :=
  leadsUp (diff.modifiedChange field "required_changed")

/-- Two diffs answer every predicate alike for every field. -/
structure SameAnswers (left right : Diff V) : Prop where
  added : ∀ field, left.isAdded field = right.isAdded field
  removed : ∀ field, left.isRemoved field = right.isRemoved field
  modified : ∀ field, left.isModified field = right.isModified field
  addedRequired : ∀ field, left.isAddedRequired field = right.isAddedRequired field
  unionExpansion : ∀ field, left.isUnionExpansion field = right.isUnionExpansion field
  unionContraction : ∀ field, left.isUnionContraction field = right.isUnionContraction field

theorem SameAnswers.refl (diff : Diff V) : diff.SameAnswers diff :=
  ⟨fun _ => rfl, fun _ => rfl, fun _ => rfl, fun _ => rfl, fun _ => rfl, fun _ => rfl⟩

-----------------------------------------------------------------------------------------
-- Predicates by the change of a field
-----------------------------------------------------------------------------------------

/-- The details of a field with this status. -/
theorem get?_detailsWith_eq (diff : Diff V) (status : FieldStatus) (name : String)
    : (diff.detailsWith status).get? name
      = (diff.fields.get? name).bind (fun change =>
          if change.status = status then some change.details else none) := by
  apply Option.ext
  intro details
  rw [get?_detailsWith, Option.bind_eq_some_iff]
  constructor
  · intro found
    exact ⟨_, found, if_pos rfl⟩
  · intro given
    obtain ⟨⟨other, recorded⟩, found, kept⟩ := given
    by_cases same : other = status
    · rw [if_pos same, Option.some.injEq] at kept
      subst same kept
      exact found
    · rw [if_neg same] at kept
      cases kept

@[simp]
theorem get?_inverted (diff : Diff V) (name : String)
    : diff.inverted.fields.get? name
      = (diff.fields.get? name).map (fun change => ⟨change.status.inverted, change.details⟩) :=
  Py.Dict.get?_mapValues _ _ _

/-- Swapping additions and removals twice gives the diff back. -/
theorem inverted_inverted (diff : Diff V) : diff.inverted.inverted = diff := by
  have items : diff.inverted.inverted.fields.items = diff.fields.items := by
    simp only [inverted, Py.Dict.mapValues, List.map_map]
    rw [List.map_congr_left (g := id)]
    · exact List.map_id _
    · intro field _
      obtain ⟨name, ⟨status, details⟩⟩ := field
      cases status <;> rfl
  have fields : diff.inverted.inverted.fields = diff.fields := Py.Dict.ext items
  calc diff.inverted.inverted
      = ⟨diff.source, diff.target, diff.inverted.inverted.fields, diff.origin⟩ := rfl
    _ = diff := by rw [fields]

theorem isAddedRequired_eq (diff : Diff V) (name : String)
    : diff.isAddedRequired name = (diff.fields.get? name).any (fun change =>
        change.status = .added
        && ((Py.Json.getMember change.details "required").getD .null).truthy) := by
  rw [isAddedRequired, addedFieldInfo, get?_detailsWith_eq]
  cases diff.fields.get? name with
  | none => rfl
  | some change => by_cases added : change.status = .added <;> simp [added]

theorem modifiedChange_eq (diff : Diff V) (name key : String)
    : diff.modifiedChange name key = ((diff.fields.get? name).bind (fun change =>
        if change.status = .modified then Py.Json.getMember change.details key else none)).getD
          .null := by
  rw [modifiedChange, modifiedFields, get?_detailsWith_eq]
  cases diff.fields.get? name with
  | none => rfl
  | some change => by_cases modified : change.status = .modified <;> simp [modified]

end Diff

-----------------------------------------------------------------------------------------
-- The inverse of a diff and the diff of the other direction
-----------------------------------------------------------------------------------------

section Laws

variable (equal : Py.Json → Py.Json → Bool) (source target : ModelDescriptor V)

/-- The statuses of a diff of two schemas part their fields, lead from the fields of one to those
of the other, and tell which common fields differ.
-/
structure Partitions (diff : Diff V) : Prop where
  covers : ∀ name, (∃ status, diff.status? name = some status)
    ↔ name ∈ source.fields.keys ∨ name ∈ target.fields.keys
  leads : ∀ name, name ∈ target.fields.keys
    ↔ (name ∈ source.fields.keys ∧ diff.isRemoved name = false) ∨ diff.isAdded name = true
  modified : ∀ name, diff.isModified name = true
    ↔ ∃ before after, source.fields.get? name = some before
        ∧ target.fields.get? name = some after
        ∧ (equal before.typeRef after.typeRef = false ∨ before.required ≠ after.required
          ∨ defaultsDiffer equal before.default after.default = true)

/-- The diffs of both directions part the fields, the inverse of the one answers like the other,
and inverting twice restores every answer.
-/
structure InversionLaws (forward backward : Diff V) : Prop where
  partitions : Partitions equal source target forward
  inverse : forward.inverted.SameAnswers backward
  twice : forward.inverted.inverted.SameAnswers forward

/-- No field that only the source has is required, and no common field changes whether it is. -/
structure KeepsRequired : Prop where
  removed : ∀ name field, source.fields.get? name = some field → target.fields.get? name = none →
    field.required = false
  common : ∀ name before after, source.fields.get? name = some before →
    target.fields.get? name = some after → before.required = after.required

variable {equal source target}

/-- The changes of a common field are none exactly if nothing of it differs. -/
theorem commonChanges_eq_nil {before after : FieldDescriptor V}
    : commonChanges equal before after = []
      ↔ equal before.typeRef after.typeRef = true ∧ before.required = after.required
        ∧ defaultsDiffer equal before.default after.default = false := by
  unfold commonChanges
  cases equal before.typeRef after.typeRef <;>
    by_cases required : before.required = after.required <;>
    cases defaultsDiffer equal before.default after.default <;>
    simp [required]

theorem commonChanges_symm (symmetric : ∀ left right, equal left right = equal right left)
    {before after : FieldDescriptor V}
    : commonChanges equal before after = [] ↔ commonChanges equal after before = [] := by
  have defaults : defaultsDiffer equal before.default after.default
      = defaultsDiffer equal after.default before.default := by
    cases before.default <;> cases after.default <;> simp [defaultsDiffer, symmetric]
  rw [commonChanges_eq_nil, commonChanges_eq_nil, symmetric, defaults,
    eq_comm (a := before.required)]

theorem getMember_required {before after : FieldDescriptor V}
    : Py.Json.getMember (commonChanges equal before after) "required_changed"
      = if before.required = after.required then none
        else some (fromTo (.bool before.required) (.bool after.required)) := by
  unfold commonChanges
  cases equal before.typeRef after.typeRef <;>
    by_cases required : before.required = after.required <;>
    cases defaultsDiffer equal before.default after.default <;>
    simp [required, Py.Json.getMember]

theorem status?_diffFields {diff : Diff V} (fields : diff.fields = diffFields equal source target)
    (name : String)
    : diff.status? name
      = (fieldChange? equal (source.fields.get? name) (target.fields.get? name)).map
          FieldChange.status := by
  rw [Diff.status?, fields, get?_diffFields]

theorem partitions_diffFields {diff : Diff V}
    (fields : diff.fields = diffFields equal source target)
    : Partitions equal source target diff := by
  have status := status?_diffFields fields
  constructor
  · intro name
    rw [status, Py.Dict.mem_keys, Py.Dict.mem_keys]
    cases source.fields.get? name <;> cases target.fields.get? name <;> simp [fieldChange?]
  · intro name
    rw [Diff.isRemoved, Diff.isAdded, status, Py.Dict.mem_keys, Py.Dict.mem_keys]
    cases source.fields.get? name <;> cases target.fields.get? name <;> simp [fieldChange?]
    split <;> simp
  · intro name
    rw [Diff.isModified, status]
    cases source.fields.get? name with
    | none => cases target.fields.get? name <;> simp [fieldChange?]
    | some before =>
        cases target.fields.get? name with
        | none => simp [fieldChange?]
        | some after =>
            have same := @commonChanges_eq_nil V equal before after
            by_cases unchanged : commonChanges equal before after = []
            · obtain ⟨types, required, defaults⟩ := same.mp unchanged
              simp [fieldChange?, unchanged, types, required, defaults]
            · have differs := mt same.mpr unchanged
              simp only [fieldChange?, if_neg unchanged, Option.map_some, decide_true,
                Option.some.injEq, exists_and_left, existsAndEq, true_and, true_iff]
              rw [not_and_or, not_and_or] at differs
              rcases differs with types | required | defaults
              · exact Or.inl (Bool.eq_false_of_not_eq_true types)
              · exact Or.inr (Or.inl required)
              · exact Or.inr (Or.inr (Bool.eq_true_of_not_eq_false defaults))

/-- The recorded change of a required flag, by what both schemas have under the name. -/
def requiredChange : Option (FieldDescriptor V) → Option (FieldDescriptor V) → Py.Json
  | some before, some after =>
      if before.required = after.required then .null
      else fromTo (.bool before.required) (.bool after.required)
  | _, _ => .null

theorem modifiedChange_required {diff : Diff V}
    (fields : diff.fields = diffFields equal source target) (name : String)
    : diff.modifiedChange name "required_changed"
      = requiredChange (source.fields.get? name) (target.fields.get? name) := by
  rw [Diff.modifiedChange_eq, fields, get?_diffFields]
  cases source.fields.get? name with
  | none => cases target.fields.get? name <;> rfl
  | some before =>
      cases target.fields.get? name with
      | none => rfl
      | some after =>
          by_cases unchanged : commonChanges equal before after = []
          · obtain ⟨_, required, _⟩ := commonChanges_eq_nil.mp unchanged
            simp [fieldChange?, requiredChange, unchanged, required]
          · simp only [fieldChange?, Option.bind_some, if_neg unchanged, if_true,
              getMember_required, requiredChange]
            split <;> rfl

-----------------------------------------------------------------------------------------
-- Predicates of statuses
-----------------------------------------------------------------------------------------

variable {forward backward : Diff V}

/-- A field has in the inverse the status it has in the diff of the other direction. -/
theorem status?_inverse (symmetric : ∀ left right, equal left right = equal right left)
    (ahead : forward.fields = diffFields equal source target)
    (back : backward.fields = diffFields equal target source) (name : String)
    : forward.inverted.status? name = backward.status? name := by
  rw [Diff.status?_inverted, status?_diffFields ahead, status?_diffFields back]
  cases source.fields.get? name with
  | none => cases target.fields.get? name <;> rfl
  | some before =>
      cases target.fields.get? name with
      | none => rfl
      | some after =>
          have same := @commonChanges_symm V equal symmetric before after
          by_cases unchanged : commonChanges equal before after = []
          · simp [fieldChange?, unchanged, same.mp unchanged, FieldStatus.inverted]
          · simp [fieldChange?, unchanged, mt same.mpr unchanged, FieldStatus.inverted]

-----------------------------------------------------------------------------------------
-- Predicates of details
-----------------------------------------------------------------------------------------

/-- The inverse calls no added field required: what it adds was removed, without details. -/
theorem isAddedRequired_inverted (ahead : forward.fields = diffFields equal source target)
    (name : String)
    : forward.inverted.isAddedRequired name = false := by
  rw [Diff.isAddedRequired_eq, Diff.get?_inverted, ahead, get?_diffFields]
  cases source.fields.get? name with
  | none => cases target.fields.get? name <;> rfl
  | some before =>
      cases target.fields.get? name with
      | none => rfl
      | some after =>
          by_cases unchanged : commonChanges equal before after = [] <;>
            simp [fieldChange?, unchanged, FieldStatus.inverted]

theorem isAddedRequired_diffFields {diff : Diff V}
    (fields : diff.fields = diffFields equal source target) (name : String)
    : diff.isAddedRequired name = true
      ↔ ∃ field, target.fields.get? name = some field ∧ source.fields.get? name = none
          ∧ field.required = true := by
  rw [Diff.isAddedRequired_eq, fields, get?_diffFields]
  cases source.fields.get? name with
  | none =>
      cases target.fields.get? name <;>
        simp [fieldChange?, addedDetails, Py.Json.getMember, Py.Json.truthy]
  | some before =>
      cases target.fields.get? name with
      | none => simp [fieldChange?]
      | some after =>
          by_cases unchanged : commonChanges equal before after = [] <;>
            simp [fieldChange?, unchanged]

/-- Modified fields keep their details in the inverse. -/
theorem modifiedChange_inverted (diff : Diff V) (name key : String)
    : diff.inverted.modifiedChange name key = diff.modifiedChange name key := by
  rw [Diff.modifiedChange_eq, Diff.modifiedChange_eq, Diff.get?_inverted]
  cases diff.fields.get? name with
  | none => rfl
  | some change =>
      obtain ⟨status, details⟩ := change
      cases status <;> rfl

theorem leadsDown_fromTo (before after : Bool)
    : Diff.leadsDown (fromTo (.bool before) (.bool after)) = (before && !after) := by
  cases before <;> cases after <;> rfl

/-- The inverse reads a change of a required flag the way the other direction reads it exactly if
the flag does not change.
-/
theorem requiredChange_agrees_iff {before after : FieldDescriptor V}
    : Diff.leadsDown (requiredChange (some before) (some after))
        = Diff.leadsDown (requiredChange (some after) (some before))
      ↔ before.required = after.required := by
  constructor
  · intro agrees
    by_contra differs
    simp only [requiredChange, if_neg differs, if_neg (Ne.symm differs), leadsDown_fromTo]
      at agrees
    cases old : before.required <;> cases new : after.required <;> simp [old, new] at agrees differs
  · intro same
    simp [requiredChange, same]

/-- Exactly while no required flag is lost or changed do the inverse and the diff of the other
direction answer alike, by what the predicates of details read.
-/
theorem inversion_lawful_iff (symmetric : ∀ left right, equal left right = equal right left)
    (ahead : forward.fields = diffFields equal source target)
    (back : backward.fields = diffFields equal target source)
    : InversionLaws equal source target forward backward ↔ KeepsRequired source target := by
  have statuses := status?_inverse symmetric ahead back
  constructor
  · intro laws
    constructor
    · intro name field before after
      have answers := laws.inverse.addedRequired name
      rw [isAddedRequired_inverted ahead] at answers
      apply Bool.eq_false_of_not_eq_true
      intro required
      have added := (isAddedRequired_diffFields back name).mpr ⟨field, before, after, required⟩
      exact absurd (answers.trans added) Bool.false_ne_true
    · intro name old new before after
      have answers := laws.inverse.unionExpansion name
      rw [Diff.isUnionExpansion, Diff.isUnionExpansion, modifiedChange_inverted,
        modifiedChange_required ahead, modifiedChange_required back, before, after] at answers
      exact requiredChange_agrees_iff.mp answers
  · intro keeps
    have changes : ∀ name, forward.inverted.modifiedChange name "required_changed"
        = backward.modifiedChange name "required_changed" := by
      intro name
      rw [modifiedChange_inverted, modifiedChange_required ahead, modifiedChange_required back]
      cases before : source.fields.get? name with
      | none => cases target.fields.get? name <;> rfl
      | some old =>
          cases after : target.fields.get? name with
          | none => rfl
          | some new =>
              have same := keeps.common name old new before after
              simp [requiredChange, same]
    refine ⟨partitions_diffFields ahead, ⟨?_, ?_, ?_, ?_, ?_, ?_⟩, ?_⟩
    · intro name
      rw [Diff.isAdded, Diff.isAdded, statuses]
    · intro name
      rw [Diff.isRemoved, Diff.isRemoved, statuses]
    · intro name
      rw [Diff.isModified, Diff.isModified, statuses]
    · intro name
      rw [isAddedRequired_inverted ahead, eq_comm]
      apply Bool.eq_false_of_not_eq_true
      intro added
      obtain ⟨field, before, after, required⟩ := (isAddedRequired_diffFields back name).mp added
      have optional := keeps.removed name field before after
      exact Bool.false_ne_true (optional.symm.trans required)
    · intro name
      rw [Diff.isUnionExpansion, Diff.isUnionExpansion, changes]
    · intro name
      rw [Diff.isUnionContraction, Diff.isUnionContraction, changes]
    · rw [Diff.inverted_inverted]
      exact Diff.SameAnswers.refl forward

end Laws

-----------------------------------------------------------------------------------------
-- Schemas of two releases
-----------------------------------------------------------------------------------------

/-- The diff of two nodes under structural equality. -/
def plainDiff (source target : VersionNode Release) : Diff Release :=
  schemaDiff (fun left right => left == right) source target

/-- Witness: a release that adds a required name to one without fields. -/
theorem inversion_lawful_name
    : InversionLaws (fun left right => left == right) (userNode 1 "User").descriptor
        (fieldedUser 2 "name").descriptor (plainDiff (userNode 1 "User") (fieldedUser 2 "name"))
        (plainDiff (fieldedUser 2 "name") (userNode 1 "User")) := by
  apply (inversion_lawful_iff (fun left right => Bool.beq_comm) rfl rfl).mpr
  constructor
  · intro name field found
    cases found
  · intro name before after found
    cases found

/-- Counterexample: the other way round, the inverse adds the name without requiring it. -/
theorem inversion_drops_required
    : ¬ ∀ (equal : Py.Json → Py.Json → Bool) (source target : ModelDescriptor Release)
        (forward backward : Diff Release),
        (∀ left right, equal left right = equal right left) →
        forward.fields = diffFields equal source target →
        backward.fields = diffFields equal target source →
        InversionLaws equal source target forward backward := by
  intro lawful
  have laws := lawful (fun left right => left == right) (fieldedUser 2 "name").descriptor
    (userNode 1 "User").descriptor (plainDiff (fieldedUser 2 "name") (userNode 1 "User"))
    (plainDiff (userNode 1 "User") (fieldedUser 2 "name")) (fun left right => Bool.beq_comm)
    rfl rfl
  have answers := laws.inverse.addedRequired "name"
  have lost : (plainDiff (fieldedUser 2 "name") (userNode 1 "User")).inverted.isAddedRequired "name"
      = false := by decide +kernel
  have required : (plainDiff (userNode 1 "User") (fieldedUser 2 "name")).isAddedRequired "name"
      = true := by decide +kernel
  exact Bool.false_ne_true (lost.symm.trans (answers.trans required))

end Pyverge
