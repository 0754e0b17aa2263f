import Pyverge.Py.Walks
import Pyverge.Reflection.Binding
import Pyverge.Reflection.Inversion
import Pyverge.Registry.State

/-! Reports on whether a transition between two versions breaks, and what they promise.
Identity fields change with every version and are left out.
-/

namespace Pyverge

variable {V : Type}

-----------------------------------------------------------------------------------------
-- Reports
-----------------------------------------------------------------------------------------

structure CompatibilityReport where
  kind : ModelKind
  sourceVersion : String
  targetVersion : String
  addedFields : List String
  removedFields : List String
  modifiedFields : List String
  structuralBreaking : Bool

namespace CompatibilityReport

variable [VersionValue V] (identityFields : List String) (diff : Diff V)

/-- The fields of one status that carry no identity. -/
def reported (names : List String) : List String := names.filter (· ∉ identityFields)

/-- Whether a modified field that carries no identity has a change under the key. -/
def changes (key : String) : Bool :=
  diff.modifiedFields.items.any (fun field =>
    decide (field.1 ∉ identityFields) && (Py.Json.getMember field.2 key).isSome)

/-- `from_diff` -/
def fromDiff : CompatibilityReport where
  kind := diff.source.id.kind
  sourceVersion := VersionValue.str diff.source.id.version
  targetVersion := VersionValue.str diff.target.id.version
  addedFields := reported identityFields diff.addedFields
  removedFields := reported identityFields diff.removedFields
  modifiedFields := (reported identityFields diff.modifiedFields.keys).insertionSort (· ≤ ·)
  structuralBreaking := !(reported identityFields diff.removedFields).isEmpty
    || changes identityFields diff "type_changed"
    || changes identityFields diff "required_changed"
    || (reported identityFields diff.addedFields).any diff.isAddedRequired

/-- `required_additions` -/
def requiredAdditions (report : CompatibilityReport) : List String :=
  report.addedFields.filter diff.isAddedRequired

end CompatibilityReport

/-- The finding of the compatibility linter on an edge. -/
structure CompatibilityIssue (V : Type) where
  code : String
  severity : HealthSeverity
  entity : EdgeId V
  message : String
  removed : List String
  modified : List String
  requiredAdditions : List String

/-- `CompatibilityLinter.__call__` -/
def compatibilityLinter [VersionValue V] (identityFields : List String)
    : Entity V → List (CompatibilityIssue V)
  | .edge (.stored (.versionEdge edge)) =>
      let report := CompatibilityReport.fromDiff identityFields edge.diff
      if !report.structuralBreaking then []
      else [{
        code := "migration.structural_breaking"
        severity := .warning
        entity := edge.id
        message := edge.source.id.str ++ " → " ++ edge.target.id.str ++ " is structurally breaking"
        removed := report.removedFields
        modified := report.modifiedFields
        requiredAdditions := report.requiredAdditions edge.diff
      }]
  | _ => []

-----------------------------------------------------------------------------------------
-- Schemas and their payloads
-----------------------------------------------------------------------------------------

/-- A payload of a schema: every field of it is one of the schema and has its type, and the required
ones are there. Types are compared by what they admit.
-/
structure Conforms (admits : Py.Json → Py.Json → Prop) (identityFields : List String)
    (descriptor : ModelDescriptor V) (payload : Py.Dict String Py.Json)
    : Prop where
  known : ∀ name value, name ∉ identityFields → payload.get? name = some value →
    ∃ field, descriptor.fields.get? name = some field ∧ admits field.typeRef value
  present : ∀ name field, name ∉ identityFields → descriptor.fields.get? name = some field →
    field.required = true → ∃ value, payload.get? name = some value

/-- What breaks a transition at a field that the two schemas may have. -/
def BreaksAt (equal : Py.Json → Py.Json → Bool)
    : Option (FieldDescriptor V) → Option (FieldDescriptor V) → Prop
  | none, none => False
  | none, some after => after.required = true
  | some _, none => True
  | some before, some after =>
      equal before.typeRef after.typeRef = false ∨ before.required ≠ after.required

/-- A field that a payload of the source may have and the target does not know, or that the target
requires and the source does not.
-/
def Narrows (identityFields : List String) (source target : ModelDescriptor V) : Prop :=
  ∃ name, name ∉ identityFields
    ∧ ((∃ field, source.fields.get? name = some field) ∧ target.fields.get? name = none
      ∨ (∃ after, target.fields.get? name = some after ∧ after.required = true)
        ∧ ∀ before, source.fields.get? name = some before → before.required = false)

-----------------------------------------------------------------------------------------
-- What a report says
-----------------------------------------------------------------------------------------

section Schemas

variable {equal : Py.Json → Py.Json → Bool} {identityFields : List String}

/-- A modified field has a change under a key exactly if the two schemas record one there. -/
theorem changes_iff {source target : VersionNode V} {key : String}
    : CompatibilityReport.changes identityFields (schemaDiff equal source target) key = true
      ↔ ∃ name, name ∉ identityFields ∧ ∃ before after,
          source.descriptor.fields.get? name = some before
          ∧ target.descriptor.fields.get? name = some after
          ∧ (Py.Json.getMember (commonChanges equal before after) key).isSome = true := by
  unfold CompatibilityReport.changes
  simp only [List.any_eq_true, Bool.and_eq_true, decide_eq_true_eq]
  constructor
  · rintro ⟨⟨name, details⟩, member, outside, recorded⟩
    obtain ⟨before, after, inSource, inTarget, rfl, _⟩ :=
      get?_modifiedFields_schemaDiff.mp (Py.Dict.get?_eq_some.mpr member)
    exact ⟨name, outside, before, after, inSource, inTarget, recorded⟩
  · rintro ⟨name, outside, before, after, inSource, inTarget, recorded⟩
    refine ⟨(name, commonChanges equal before after), ?_, outside, recorded⟩
    refine Py.Dict.get?_eq_some.mp
      (get?_modifiedFields_schemaDiff.mpr ⟨before, after, inSource, inTarget, rfl, ?_⟩)
    intro none
    rw [none] at recorded
    cases recorded

theorem typeChanged_iff {before after : FieldDescriptor V}
    : (Py.Json.getMember (commonChanges equal before after) "type_changed").isSome = true
      ↔ equal before.typeRef after.typeRef = false := by
  unfold commonChanges
  cases equal before.typeRef after.typeRef
  · simp [Py.Json.getMember]
  · by_cases required : before.required = after.required
    · cases defaultsDiffer equal before.default after.default <;> simp [Py.Json.getMember, required]
    · cases defaultsDiffer equal before.default after.default <;> simp [Py.Json.getMember, required]

theorem requiredChanged_iff {before after : FieldDescriptor V}
    : (Py.Json.getMember (commonChanges equal before after) "required_changed").isSome = true
      ↔ before.required ≠ after.required := by
  unfold commonChanges
  cases equal before.typeRef after.typeRef <;>
    cases defaultsDiffer equal before.default after.default <;>
    by_cases required : before.required = after.required <;> simp [Py.Json.getMember, required]

theorem mem_reported {names : List String} {name : String}
    : name ∈ CompatibilityReport.reported identityFields names
      ↔ name ∈ names ∧ name ∉ identityFields := by
  simp [CompatibilityReport.reported]

/-- A transition between two schemas is reported as breaking exactly if some field breaks it. -/
theorem structuralBreaking_iff [VersionValue V] {source target : VersionNode V}
    : (CompatibilityReport.fromDiff identityFields
          (schemaDiff equal source target)).structuralBreaking = true
      ↔ ∃ name, name ∉ identityFields
          ∧ BreaksAt equal (source.descriptor.fields.get? name)
            (target.descriptor.fields.get? name) := by
  have required : ∀ name, (schemaDiff equal source target).isAddedRequired name = true
      ↔ ∃ after, target.descriptor.fields.get? name = some after
        ∧ source.descriptor.fields.get? name = none ∧ after.required = true :=
    fun name => isAddedRequired_diffFields rfl name
  simp only [CompatibilityReport.fromDiff, Bool.or_eq_true, changes_iff, typeChanged_iff,
    requiredChanged_iff, List.any_eq_true, mem_reported, required, Bool.not_eq_true',
    List.isEmpty_eq_false_iff_exists_mem, mem_removedFields_schemaDiff, mem_lostNames,
    mem_addedFields_schemaDiff, mem_gainedNames]
  constructor
  · rintro (((⟨name, ⟨listed, gone⟩, outside⟩ | changed) | changed) | added)
    · obtain ⟨before, inSource⟩ := mem_fields.mp listed
      rw [not_mem_fields] at gone
      exact ⟨name, outside, by rw [inSource, gone]; trivial⟩
    · obtain ⟨name, outside, before, after, inSource, inTarget, differs⟩ := changed
      exact ⟨name, outside, by rw [inSource, inTarget]; exact .inl differs⟩
    · obtain ⟨name, outside, before, after, inSource, inTarget, differs⟩ := changed
      exact ⟨name, outside, by rw [inSource, inTarget]; exact .inr differs⟩
    · obtain ⟨name, ⟨_, outside⟩, after, inTarget, fresh, needed⟩ := added
      exact ⟨name, outside, by rw [fresh, inTarget]; exact needed⟩
  · rintro ⟨name, outside, breaks⟩
    cases inSource : source.descriptor.fields.get? name with
    | none =>
        cases inTarget : target.descriptor.fields.get? name with
        | none => simp [inSource, inTarget, BreaksAt] at breaks
        | some after =>
            rw [inSource, inTarget] at breaks
            exact .inr ⟨name, ⟨⟨not_mem_fields.mpr inSource, mem_fields.mpr ⟨after, inTarget⟩⟩,
              outside⟩, after, inTarget, inSource, breaks⟩
    | some before =>
        cases inTarget : target.descriptor.fields.get? name with
        | none => exact .inl (.inl (.inl ⟨name,
            ⟨mem_fields.mpr ⟨before, inSource⟩, not_mem_fields.mpr inTarget⟩, outside⟩))
        | some after =>
            rw [inSource, inTarget] at breaks
            rcases breaks with differs | differs
            · exact .inl (.inl (.inr ⟨name, outside, before, after, inSource, inTarget, differs⟩))
            · exact .inl (.inr ⟨name, outside, before, after, inSource, inTarget, differs⟩)

-----------------------------------------------------------------------------------------
-- What the linter promises
-----------------------------------------------------------------------------------------

variable {admits : Py.Json → Py.Json → Prop}

/-- What is no break at a field keeps its type, and requires no more of it. -/
theorem kept_of_not_breaksAt {before : FieldDescriptor V} {after : Option (FieldDescriptor V)}
    (unbroken : ¬ BreaksAt equal (some before) after)
    : ∃ field, after = some field ∧ equal before.typeRef field.typeRef = true
        ∧ before.required = field.required := by
  cases after with
  | none => exact (unbroken trivial).elim
  | some field =>
      have parts := not_or.mp unbroken
      exact ⟨field, rfl, by simpa using parts.1, not_not.mp parts.2⟩

/-- A payload stays one where no field breaks the transition. -/
theorem Conforms.of_unbroken {source target : ModelDescriptor V} {payload : Py.Dict String Py.Json}
    (same : ∀ left right, equal left right = true → ∀ value, admits left value → admits right value)
    (unbroken : ∀ name, name ∉ identityFields →
      ¬ BreaksAt equal (source.fields.get? name) (target.fields.get? name))
    (conforms : Conforms admits identityFields source payload)
    : Conforms admits identityFields target payload where
  known name value outside given := by
    obtain ⟨before, inSource, typed⟩ := conforms.known name value outside given
    have kept := unbroken name outside
    rw [inSource] at kept
    obtain ⟨after, inTarget, types, _⟩ := kept_of_not_breaksAt kept
    exact ⟨after, inTarget, same _ _ types value typed⟩
  present name after outside inTarget required := by
    have kept := unbroken name outside
    rw [inTarget] at kept
    cases inSource : source.fields.get? name with
    | none =>
        rw [inSource] at kept
        exact (kept required).elim
    | some before =>
        rw [inSource] at kept
        obtain ⟨field, isField, _, flags⟩ := kept_of_not_breaksAt kept
        obtain rfl := Option.some.inj isField
        exact conforms.present name before outside inSource (flags.trans required)

theorem compatibilityLinter_eq_nil [VersionValue V] {edge : VersionEdge V}
    : compatibilityLinter identityFields (.edge (.stored (.versionEdge edge))) = []
      ↔ (CompatibilityReport.fromDiff identityFields edge.diff).structuralBreaking = false := by
  cases breaking : (CompatibilityReport.fromDiff identityFields edge.diff).structuralBreaking <;>
    simp [compatibilityLinter, breaking]

/-- Along edges that the linter passes a payload stays one of every version, by induction over the
walk.
-/
theorem Conforms.of_walk [VersionValue V] {first last : VersionNode V} {path : List (VersionEdge V)}
    {payload : Py.Dict String Py.Json}
    (same : ∀ left right, equal left right = true → ∀ value, admits left value → admits right value)
    (walk : Py.Walk VersionEdge.source VersionEdge.target
      (fun edge => edge.diff = schemaDiff equal edge.source edge.target
        ∧ compatibilityLinter identityFields (.edge (.stored (.versionEdge edge))) = [])
      first path last)
    (conforms : Conforms admits identityFields first.descriptor payload)
    : Conforms admits identityFields last.descriptor payload := by
  induction walk with
  | stay node => exact conforms
  | @step first last edge rest accepted from_ _ ih =>
      obtain ⟨diff, silent⟩ := accepted
      subst from_
      apply ih
      apply conforms.of_unbroken same
      intro name outside breaks
      rw [compatibilityLinter_eq_nil, diff, ← Bool.not_eq_true] at silent
      exact silent (structuralBreaking_iff.mpr ⟨name, outside, breaks⟩)

/-- A field that narrows a schema breaks the transition. -/
theorem Narrows.breaks {source target : ModelDescriptor V}
    (narrows : Narrows identityFields source target)
    : ∃ name, name ∉ identityFields
        ∧ BreaksAt equal (source.fields.get? name) (target.fields.get? name) := by
  obtain ⟨name, outside, lost | gained⟩ := narrows
  · obtain ⟨⟨field, inSource⟩, gone⟩ := lost
    exact ⟨name, outside, by rw [inSource, gone]; trivial⟩
  · obtain ⟨⟨after, inTarget, required⟩, free⟩ := gained
    refine ⟨name, outside, ?_⟩
    rw [inTarget]
    cases inSource : source.fields.get? name with
    | none => exact required
    | some before =>
        refine .inr ?_
        rw [free before inSource, required]
        exact Bool.false_ne_true

/-- Sample values of every field are a payload, with or without a field that is not required. -/
theorem conforms_samples {source : ModelDescriptor V} {sample : Py.Json → Py.Json}
    (typed : ∀ name field, source.fields.get? name = some field →
      admits field.typeRef (sample field.typeRef))
    : Conforms admits identityFields source
        (source.fields.mapValues (fun field => sample field.typeRef)) where
  known name value _ given := by
    rw [Py.Dict.get?_mapValues, Option.map_eq_some_iff] at given
    obtain ⟨field, inSource, rfl⟩ := given
    exact ⟨field, inSource, typed name field inSource⟩
  present name field _ inSource _ := by
    rw [Py.Dict.get?_mapValues, inSource]
    exact ⟨_, rfl⟩

theorem Conforms.erase {source : ModelDescriptor V} {payload : Py.Dict String Py.Json}
    (conforms : Conforms admits identityFields source payload) {dropped : String}
    (free : ∀ field, source.fields.get? dropped = some field → field.required = false)
    : Conforms admits identityFields source (payload.erase dropped) where
  known name value outside given := by
    rw [Py.Dict.get?_erase] at given
    split at given
    · cases given
    · exact conforms.known name value outside given
  present name field outside inSource required := by
    have kept : name ≠ dropped := by
      rintro rfl
      rw [free field inSource] at required
      cases required
    rw [Py.Dict.get?_erase_ne _ kept]
    exact conforms.present name field outside inSource required

/-- A schema that narrows another one refuses some payload of it. -/
theorem Narrows.exists_refused {source target : ModelDescriptor V}
    (narrows : Narrows identityFields source target)
    (inhabited : ∀ name field, source.fields.get? name = some field → ∃ value,
      admits field.typeRef value)
    : ∃ payload, Conforms admits identityFields source payload
        ∧ ¬ Conforms admits identityFields target payload := by
  have samples : ∀ type, ∃ value, (∃ other, admits type other) → admits type value := by
    intro type
    by_cases some : ∃ other, admits type other
    · obtain ⟨value, typed⟩ := some
      exact ⟨value, fun _ => typed⟩
    · exact ⟨.null, fun other => (some other).elim⟩
  choose sample typed using samples
  have whole : Conforms admits identityFields source
      (source.fields.mapValues (fun field => sample field.typeRef)) :=
    conforms_samples (fun name field inSource => typed _ (inhabited name field inSource))
  obtain ⟨name, outside, lost | gained⟩ := narrows
  · obtain ⟨⟨field, inSource⟩, gone⟩ := lost
    refine ⟨_, whole, ?_⟩
    intro accepted
    obtain ⟨after, inTarget, _⟩ := accepted.known name (sample field.typeRef) outside
      (by rw [Py.Dict.get?_mapValues, inSource]; rfl)
    rw [gone] at inTarget
    cases inTarget
  · obtain ⟨⟨after, inTarget, required⟩, free⟩ := gained
    refine ⟨_, whole.erase free, ?_⟩
    intro accepted
    obtain ⟨value, given⟩ := accepted.present name after outside inTarget required
    rw [Py.Dict.get?_erase_self] at given
    cases given

/-- The linter passes an edge of two schemas exactly if no field breaks it, and a payload stays one
along every walk of such edges. Where a schema narrows the one before, the linter reports the edge,
and if its types have values some payload is refused after it.
-/
theorem compatibilityLinter_exact [VersionValue V]
    (same : ∀ left right, equal left right = true → ∀ value, admits left value → admits right value)
    : (∀ edge : VersionEdge V, edge.diff = schemaDiff equal edge.source edge.target →
        (compatibilityLinter identityFields (.edge (.stored (.versionEdge edge))) = []
          ↔ ∀ name, name ∉ identityFields → ¬ BreaksAt equal
              (edge.source.descriptor.fields.get? name) (edge.target.descriptor.fields.get? name))
        ∧ (Narrows identityFields edge.source.descriptor edge.target.descriptor →
          (∃ issue, compatibilityLinter identityFields (.edge (.stored (.versionEdge edge)))
              = [issue] ∧ issue.entity = edge.id)
          ∧ ((∀ name field, edge.source.descriptor.fields.get? name = some field → ∃ value,
              admits field.typeRef value) →
            ∃ payload, Conforms admits identityFields edge.source.descriptor payload
              ∧ ¬ Conforms admits identityFields edge.target.descriptor payload)))
      ∧ ∀ first path (last : VersionNode V), Py.Walk VersionEdge.source VersionEdge.target
          (fun edge => edge.diff = schemaDiff equal edge.source edge.target
            ∧ compatibilityLinter identityFields (.edge (.stored (.versionEdge edge))) = [])
          first path last →
        ∀ payload, Conforms admits identityFields first.descriptor payload →
          Conforms admits identityFields last.descriptor payload := by
  refine ⟨?_, fun first path last walk payload conforms => conforms.of_walk same walk⟩
  intro edge diff
  have reported : (CompatibilityReport.fromDiff identityFields
        (schemaDiff equal edge.source edge.target)).structuralBreaking = true ↔ _ :=
    structuralBreaking_iff
  rw [← diff] at reported
  refine ⟨?_, ?_⟩
  · rw [compatibilityLinter_eq_nil, ← Bool.not_eq_true, reported]
    simp only [not_exists, not_and]
  · intro narrows
    refine ⟨?_, narrows.exists_refused⟩
    have breaking := reported.mpr narrows.breaks
    exact ⟨_, by simp only [compatibilityLinter, breaking]; rfl, rfl⟩

end Schemas

-----------------------------------------------------------------------------------------
-- Releases that gain fields
-----------------------------------------------------------------------------------------

/-- A release of `User` whose fields hold texts. -/
def textUser (major : Nat) (fields : List (String × Bool)) : VersionNode Release where
  id := userId major
  descriptor := {
    ref := ⟨"app", "User"⟩
    fields := Py.Dict.ofItems (fields.map (fun field =>
      (field.1, { name := field.1, typeRef := .str "text", required := field.2 })))
  }

/-- The edge between two releases, with the changes of their schemas. -/
def textUpgrade (source target : Nat) (before after : List (String × Bool))
    : VersionEdge Release :=
  let diff := schemaDiff (fun left right => decide (left = right)) (textUser source before)
    (textUser target after)
  {
    source := textUser source before
    target := textUser target after
    discriminator := defaultDiscriminator
    ref := ⟨"callable", "upgrade"⟩
    diff
    migration := ⟨"callable", "upgrade"⟩
    named := userEdge.named
    sameNamespace := rfl
    sameKind := rfl
  }

/-- Witness: an optional nickname keeps the payloads, a required one does not. -/
theorem compatibilityLinter_textUser
    : (∀ payload, Conforms (fun _ value => ∃ text, value = .str text) ["version"]
          (textUser 1 [("name", true)]).descriptor payload →
        Conforms (fun _ value => ∃ text, value = .str text) ["version"]
          (textUser 2 [("name", true), ("nick", false)]).descriptor payload)
      ∧ ∃ payload, Conforms (fun _ value => ∃ text, value = .str text) ["version"]
            (textUser 2 [("name", true), ("nick", false)]).descriptor payload
          ∧ ¬ Conforms (fun _ value => ∃ text, value = .str text) ["version"]
            (textUser 3 [("name", true), ("nick", true)]).descriptor payload := by
  obtain ⟨each, walks⟩ := @compatibilityLinter_exact Release
    (fun left right => decide (left = right)) ["version"]
    (fun _ value => ∃ text, value = .str text) _ (fun _ _ _ _ typed => typed)
  constructor
  · refine walks _ [textUpgrade 1 2 [("name", true)] [("name", true), ("nick", false)]] _ ?_
    exact .step ⟨rfl, by decide +kernel⟩ rfl (.stay _)
  · refine ((each (textUpgrade 2 3 [("name", true), ("nick", false)]
      [("name", true), ("nick", true)]) rfl).2 ?_).2 ?_
    · refine ⟨"nick", by decide, .inr ⟨⟨_, rfl, rfl⟩, ?_⟩⟩
      intro before inSource
      obtain rfl := Option.some.inj inSource
      rfl
    · exact fun _ _ _ => ⟨.str "", "", rfl⟩

end Pyverge
