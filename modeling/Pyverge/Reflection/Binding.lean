import Pyverge.Reflection.SchemaDiff
import Pyverge.Registry.Runs
import Pyverge.Py.JsonPatch

/-! JSON Patch migrations bound from schema diffs.
The renderer spells a field name as a pointer without escaping it and gives a replacement no value
unless the type changed or the field became required; a patch of no operations is refused.
-/

namespace Pyverge

open Py (PatchOperation)

variable {V F : Type}

-----------------------------------------------------------------------------------------
-- Rendering and binding
-----------------------------------------------------------------------------------------

/-- Whether the replacement of a modified field gets a value, which is null. -/
def hasValue (changes : List (String × Py.Json)) : Bool :=
  (Py.Json.getMember changes "type_changed").isSome
  || (Py.Json.getMember changes "required_changed").any (fun change =>
    !((change.child? "from").getD .null).truthy)

/-- `JsonPatchRenderer.render`; the list of changes in a replacement is no part of RFC 6902. -/
def Diff.render (diff : Diff V) : List PatchOperation :=
  diff.addedFields.map (fun field => .add ("/" ++ field) (some (diff.addedDefault field)))
  ++ diff.removedFields.map (fun field => .remove ("/" ++ field))
  ++ diff.modifiedFields.items.map (fun field =>
    .replace ("/" ++ field.1) (if hasValue field.2 then some .null else none))

/-- A migration that applies a patch. Translating its operations only touches moves and copies,
which the renderer does not make.
-/
structure JsonPatchMigration where
  source : String
  target : String
  patch : List PatchOperation
  sourceNamed : source ≠ ""
  targetNamed : target ≠ ""
  nonempty : patch ≠ []

/-- `JsonPatchMigration.__init__` -/
def JsonPatchMigration.make (source target : String) (patch : List PatchOperation)
    : Except (Error V) JsonPatchMigration :=
  if sourceNamed : source = "" then
    .error (.valueError "Migration spec requires a non-empty 'from' version string")
  else if targetNamed : target = "" then
    .error (.valueError "Migration spec requires a non-empty 'to' version string")
  else if nonempty : patch = [] then
    .error (.valueError "Migration spec requires a non-empty 'ops' list")
  else .ok { source, target, patch, sourceNamed, targetNamed, nonempty }

section Bind

variable [VersionValue V]

/-- `JsonPatchMigrationBackend.materialize` -/
def materializePatch (diff : Diff V) : Except (Error V) JsonPatchMigration :=
  JsonPatchMigration.make (VersionValue.str diff.source.id.version)
    (VersionValue.str diff.target.id.version) diff.render

/-- Bind a migration artifact from the diff between two models, through the materializer of the
reflection port.
-/
def Registry.bind {β : Type} (config : Config V F) (materialize : Diff V → Except (Error V) β)
    (registry : Registry V) (source target : VersionNode V) : Except (Error V) β :=
  if source.id.kind ≠ target.id.kind then
    .error (.catalogError registry.nameSpace ("Cannot bind migration across kinds: "
      ++ source.id.kind ++ " != " ++ target.id.kind))
  else if source.id.strategy ≠ target.id.strategy then
    .error (.catalogError registry.nameSpace ("Cannot bind migration across strategies: "
      ++ source.id.strategy ++ " != " ++ target.id.strategy))
  else
    match config.reflection with
    | none => .error (.catalogError registry.nameSpace
        "Migration registration requires a reflection port")
    | some reflection => do
        let diff ← reflection.diff source (.versioned (.versionNode target)) none
        materialize diff

end Bind

/-- The keys are the given fields plus kind and version. -/
def ModelCodec.Holds (codec : ModelCodec) (keys fields : List String) : Prop :=
  ∀ name, name ∈ keys ↔ name ∈ fields ∨ name ∈ codec.identity

section Rendering

variable (equal : Py.Json → Py.Json → Bool) (codec : ModelCodec) (source target : VersionNode V)

/-- A patch turns every payload with exactly the fields of the source into one with exactly those
of the target, and leaves the fields alone that the diff reports unchanged.
-/
def Carries (patch : List PatchOperation) : Prop :=
  ∀ payload : Py.Dict String Py.Json, codec.Holds payload.keys source.fields →
    ∃ result, Py.applyPatch equal patch (.obj payload.items) = some (.obj result)
      ∧ codec.Holds (result.map Prod.fst) target.fields
      ∧ ∀ name ∈ (schemaDiff equal source target).unchangedFields,
          Py.Json.getMember result name = payload.get? name

/-- The fields that only the target has. -/
def gainedNames : List String := target.fields.filter (· ∉ source.fields)

/-- The fields that only the source has. -/
def lostNames : List String := source.fields.filter (· ∉ target.fields)

/-- Whether both nodes have a field and describe it differently. -/
def isAltered (name : String) : Bool :=
  match source.descriptor.fields.get? name, target.descriptor.fields.get? name with
  | some before, some after => commonChanges equal before after ≠ []
  | _, _ => false

/-- The fields that both nodes have and describe differently, in the order of their names. -/
def alteredNames : List String :=
  (source.fields.filter (isAltered equal source target)).insertionSort (· ≤ ·)

/-- The default that the target gives a field, null if it gives none. -/
def defaultIn (name : String) : Py.Json :=
  ((target.descriptor.fields.get? name).bind FieldDescriptor.default).getD .null

/-- The fields whose values the patch decides: gained ones with their defaults, and altered ones
as null, beside a kind and a version of null.
-/
def knownMembers : List (String × Py.Json) :=
  (gainedNames source target).map (fun name => (name, defaultIn target name))
  ++ (alteredNames equal source target ++ codec.identity).map (fun name => (name, .null))

/-- The type of a field changed, or it became required. -/
def Nullable (before after : FieldDescriptor V) : Prop :=
  equal before.typeRef after.typeRef = false ∨ before.required = false ∧ after.required = true

/-- There is a change to render, every changed field renders to an operation that applies, and
both versions have a text.
-/
structure Renderable [VersionValue V] : Prop where
  sourceNamed : VersionValue.str source.id.version ≠ ""
  targetNamed : VersionValue.str target.id.version ≠ ""
  changed : ∃ name, name ∈ gainedNames source target ∨ name ∈ lostNames source target
    ∨ name ∈ alteredNames equal source target
  clean : ∀ name, name ∈ gainedNames source target ∨ name ∈ lostNames source target →
    Py.Pointer.Clean name
  nullable : ∀ name before after, source.descriptor.fields.get? name = some before →
    target.descriptor.fields.get? name = some after → name ∈ alteredNames equal source target →
    Nullable equal before after
  reached : (Py.applyPatch equal (Py.nullings (alteredNames equal source target))
    (.obj (knownMembers equal codec source target))).isSome

end Rendering

-----------------------------------------------------------------------------------------
-- What is rendered for a schema diff
-----------------------------------------------------------------------------------------

section SchemaPatch

variable {equal : Py.Json → Py.Json → Bool} {codec : ModelCodec} {source target : VersionNode V}
  {name : String}

theorem mem_fields {node : VersionNode V}
    : name ∈ node.fields ↔ ∃ field, node.descriptor.fields.get? name = some field :=
  Py.Dict.mem_keys

theorem not_mem_fields {node : VersionNode V}
    : name ∉ node.fields ↔ node.descriptor.fields.get? name = none :=
  Py.Dict.get?_eq_none.symm

theorem mem_gainedNames : name ∈ gainedNames source target
    ↔ name ∉ source.fields ∧ name ∈ target.fields := by
  simp [gainedNames, and_comm]

theorem mem_lostNames : name ∈ lostNames source target
    ↔ name ∈ source.fields ∧ name ∉ target.fields := by
  simp [lostNames]

theorem mem_alteredNames : name ∈ alteredNames equal source target
    ↔ ∃ before after, source.descriptor.fields.get? name = some before
      ∧ target.descriptor.fields.get? name = some after
      ∧ commonChanges equal before after ≠ [] := by
  rw [alteredNames, List.mem_insertionSort, List.mem_filter, mem_fields, isAltered]
  cases source.descriptor.fields.get? name with
  | none => simp
  | some before => cases target.descriptor.fields.get? name <;> simp

theorem not_mem_lostNames (source : VersionNode V) (inTarget : name ∈ target.fields)
    : name ∉ lostNames source target :=
  fun lost => (mem_lostNames.mp lost).2 inTarget

theorem fields_of_mem_alteredNames (altered : name ∈ alteredNames equal source target)
    : name ∈ source.fields ∧ name ∈ target.fields := by
  obtain ⟨before, after, inSource, inTarget, _⟩ := mem_alteredNames.mp altered
  exact ⟨mem_fields.mpr ⟨before, inSource⟩, mem_fields.mpr ⟨after, inTarget⟩⟩

theorem status?_schemaDiff : (schemaDiff equal source target).status? name
    = (fieldChange? equal (source.descriptor.fields.get? name)
        (target.descriptor.fields.get? name)).map FieldChange.status := by
  rw [Diff.status?, schemaDiff, get?_diffFields]

theorem mem_addedFields_schemaDiff
    : name ∈ (schemaDiff equal source target).addedFields ↔ name ∈ gainedNames source target := by
  rw [Diff.mem_addedFields, status?_schemaDiff, mem_gainedNames, not_mem_fields, mem_fields]
  cases source.descriptor.fields.get? name <;> cases target.descriptor.fields.get? name
  case some.some before after =>
    by_cases same : commonChanges equal before after = [] <;> simp [fieldChange?, same]
  all_goals simp [fieldChange?]

theorem mem_removedFields_schemaDiff
    : name ∈ (schemaDiff equal source target).removedFields ↔ name ∈ lostNames source target := by
  rw [Diff.mem_removedFields, status?_schemaDiff, mem_lostNames, not_mem_fields, mem_fields]
  cases source.descriptor.fields.get? name <;> cases target.descriptor.fields.get? name
  case some.some before after =>
    by_cases same : commonChanges equal before after = [] <;> simp [fieldChange?, same]
  all_goals simp [fieldChange?]

theorem mem_unchangedFields_schemaDiff
    : name ∈ (schemaDiff equal source target).unchangedFields
      ↔ name ∈ source.fields ∧ name ∈ target.fields ∧ name ∉ alteredNames equal source target := by
  rw [Diff.mem_unchangedFields, status?_schemaDiff, mem_alteredNames, mem_fields, mem_fields]
  cases source.descriptor.fields.get? name <;> cases target.descriptor.fields.get? name
  case some.some before after =>
    by_cases same : commonChanges equal before after = [] <;> simp [fieldChange?, same]
  all_goals simp [fieldChange?]

theorem get?_modifiedFields_schemaDiff {changes : List (String × Py.Json)}
    : (schemaDiff equal source target).modifiedFields.get? name = some changes
      ↔ ∃ before after, source.descriptor.fields.get? name = some before
        ∧ target.descriptor.fields.get? name = some after
        ∧ commonChanges equal before after = changes ∧ changes ≠ [] := by
  rw [Diff.modifiedFields, Diff.get?_detailsWith, schemaDiff, get?_diffFields]
  cases source.descriptor.fields.get? name <;> cases target.descriptor.fields.get? name
  case some.some before after =>
    by_cases same : commonChanges equal before after = []
    · simp only [fieldChange?, same, if_true, Option.some.injEq, FieldChange.mk.injEq,
        reduceCtorEq, false_and, false_iff]
      intro given
      obtain ⟨_, _, rfl, rfl, rfl, changed⟩ := given
      exact changed same
    · simp only [fieldChange?, if_neg same, Option.some.injEq, FieldChange.mk.injEq, true_and]
      constructor
      · intro given
        exact ⟨before, after, rfl, rfl, given, given ▸ same⟩
      · intro given
        obtain ⟨_, _, rfl, rfl, changes, _⟩ := given
        exact changes
  all_goals simp [fieldChange?]

/-- The modified fields of the diff are the altered ones, in the same order. -/
theorem keys_modifiedFields_schemaDiff
    : (schemaDiff equal source target).modifiedFields.keys = alteredNames equal source target := by
  rw [Diff.modifiedFields, Diff.keys_detailsWith, Diff.namesWith, alteredNames,
    Py.insertionSort_eq_iff]
  refine (List.perm_ext_iff_of_nodup ?_ ?_).mpr (fun name => ?_)
  · exact (schemaDiff equal source target).fields.nodup.sublist (List.filter_sublist.map _)
  · exact source.descriptor.fields.nodup.sublist List.filter_sublist
  · have modified := @Diff.mem_namesWith _ (schemaDiff equal source target) name .modified
    have altered := @mem_alteredNames _ equal source target name
    rw [Diff.namesWith, List.mem_insertionSort] at modified
    rw [alteredNames, List.mem_insertionSort] at altered
    rw [modified, altered, status?_schemaDiff]
    cases source.descriptor.fields.get? name <;> cases target.descriptor.fields.get? name
    case some.some before after =>
      by_cases same : commonChanges equal before after = [] <;> simp [fieldChange?, same]
    all_goals simp [fieldChange?]

theorem addedDefault_schemaDiff (gained : name ∈ gainedNames source target)
    : (schemaDiff equal source target).addedDefault name = defaultIn target name := by
  obtain ⟨fresh, listed⟩ := mem_gainedNames.mp gained
  obtain ⟨field, found⟩ := mem_fields.mp listed
  have info : (schemaDiff equal source target).addedFieldInfo.get? name
      = some (addedDetails field) := by
    rw [Diff.addedFieldInfo, Diff.get?_detailsWith, schemaDiff, get?_diffFields,
      not_mem_fields.mp fresh, found]
    rfl
  rw [Diff.addedDefault, info, defaultIn, found]
  rfl

/-- A replacement gets a value exactly if the type changed or the field became required. -/
theorem hasValue_commonChanges {before after : FieldDescriptor V}
    : hasValue (commonChanges equal before after) = true ↔ Nullable equal before after := by
  cases types : equal before.typeRef after.typeRef <;> cases was : before.required
    <;> cases becomes : after.required
    <;> cases defaults : defaultsDiffer equal before.default after.default
    <;> simp [hasValue, commonChanges, Nullable, Py.Json.getMember, fromTo, Py.Json.child?,
      Py.Json.truthy, types, was, becomes, defaults]

/-- Once every altered field gets a value, the patch is additions, removals and replacements by
null.
-/
theorem render_schemaDiff
    (nullable : ∀ name before after, source.descriptor.fields.get? name = some before →
      target.descriptor.fields.get? name = some after → name ∈ alteredNames equal source target →
      Nullable equal before after)
    : (schemaDiff equal source target).render
      = ((schemaDiff equal source target).addedFields.map
            (fun name => .add ("/" ++ name) (some (defaultIn target name)))
          ++ (schemaDiff equal source target).removedFields.map (fun name => .remove ("/" ++ name)))
        ++ Py.nullings (alteredNames equal source target) := by
  have adds : (schemaDiff equal source target).addedFields.map
        (fun field => PatchOperation.add ("/" ++ field)
          (some ((schemaDiff equal source target).addedDefault field)))
      = (schemaDiff equal source target).addedFields.map
        (fun name => .add ("/" ++ name) (some (defaultIn target name))) := by
    refine List.map_congr_left (fun name member => ?_)
    rw [addedDefault_schemaDiff (mem_addedFields_schemaDiff.mp member)]
  have replaces : (schemaDiff equal source target).modifiedFields.items.map
        (fun field => PatchOperation.replace ("/" ++ field.1)
          (if hasValue field.2 then some .null else none))
      = Py.nullings (alteredNames equal source target) := by
    rw [← keys_modifiedFields_schemaDiff, Py.nullings, Py.Dict.keys, List.map_map]
    refine List.map_congr_left (fun field member => ?_)
    have found := Py.Dict.get?_eq_some.mpr member
    obtain ⟨before, after, inSource, inTarget, changes, changed⟩ :=
      get?_modifiedFields_schemaDiff.mp found
    have altered : field.1 ∈ alteredNames equal source target :=
      mem_alteredNames.mpr ⟨before, after, inSource, inTarget, changes ▸ changed⟩
    have valued := hasValue_commonChanges.mpr (nullable _ before after inSource inTarget altered)
    rw [changes] at valued
    simp [valued]
  rw [Diff.render, adds, replaces]

theorem getMember_items (payload : Py.Dict String Py.Json) (name : String)
    : Py.Json.getMember payload.items name = payload.get? name := by
  have general : ∀ members : List (String × Py.Json), Py.Json.getMember members name
      = (members.find? (fun item => item.1 = name)).map Prod.snd := by
    intro members
    induction members with
    | nil => rfl
    | cons head rest ih =>
        by_cases hit : head.1 = name
        · simp [Py.Json.getMember, hit]
        · simp [Py.Json.getMember, hit, ih]
  exact general payload.items

/-- With plain names, the additions and removals take a payload from the fields of the source to
those of the target.
-/
theorem applyPatch_addsRemoves
    (clean : ∀ name, name ∈ gainedNames source target ∨ name ∈ lostNames source target →
      Py.Pointer.Clean name)
    {payload : Py.Dict String Py.Json} (holds : codec.Holds payload.keys source.fields)
    : ∃ members, Py.applyPatch equal
          ((schemaDiff equal source target).addedFields.map
              (fun name => .add ("/" ++ name) (some (defaultIn target name)))
            ++ (schemaDiff equal source target).removedFields.map
              (fun name => .remove ("/" ++ name)))
          (.obj payload.items) = some (.obj members)
      ∧ ∀ name, Py.Json.getMember members name
          = if name ∈ lostNames source target then none
            else if name ∈ gainedNames source target then some (defaultIn target name)
            else payload.get? name := by
  obtain ⟨added, addRun, addFound⟩ := @Py.applyPatch_adds equal
    (schemaDiff equal source target).addedFields
    (fun name member => clean name (.inl (mem_addedFields_schemaDiff.mp member)))
    (defaultIn target) payload.items
  obtain ⟨members, removeRun, removeFound⟩ := @Py.applyPatch_removes equal
    (schemaDiff equal source target).removedFields
    (fun name member => clean name (.inr (mem_removedFields_schemaDiff.mp member)))
    ((List.perm_insertionSort _ _).nodup_iff.mpr
      ((schemaDiff equal source target).fields.nodup.sublist (List.filter_sublist.map _)))
    added (by
      intro name member
      have lost := mem_lostNames.mp (mem_removedFields_schemaDiff.mp member)
      have present : name ∈ payload.keys := (holds name).mpr (.inl lost.1)
      obtain ⟨value, found⟩ := Py.Dict.mem_keys.mp present
      rw [addFound name, getMember_items, found]
      split <;> rfl)
  refine ⟨members, ?_, ?_⟩
  · rw [Py.applyPatch_append, addRun]
    exact removeRun
  · intro name
    rw [removeFound name, addFound name, getMember_items]
    simp only [mem_addedFields_schemaDiff, mem_removedFields_schemaDiff]

/-- The known members are the gained fields, the altered fields, and kind and version. -/
theorem getMember_knownMembers (name : String)
    : Py.Json.getMember (knownMembers equal codec source target) name
      = if name ∈ gainedNames source target then some (defaultIn target name)
        else if name ∈ alteredNames equal source target ++ codec.identity then some .null
        else none := by
  have mapped : ∀ (names : List String) (value : String → Py.Json)
      (rest : List (String × Py.Json)),
      Py.Json.getMember (names.map (fun name => (name, value name)) ++ rest) name
        = if name ∈ names then some (value name) else Py.Json.getMember rest name := by
    intro names value rest
    induction names with
    | nil => simp
    | cons head others ih =>
        by_cases hit : head = name
        · simp [Py.Json.getMember, hit]
        · simp [Py.Json.getMember, hit, Ne.symm hit, ih]
  have nulls := mapped (alteredNames equal source target ++ codec.identity) (fun _ => .null) []
  rw [List.append_nil] at nulls
  rw [knownMembers, mapped, nulls]
  rfl

/-- There are payloads with exactly the fields of a node and values of one's choice. -/
theorem exists_payload (codec : ModelCodec) (node : VersionNode V) (value : String → Py.Json)
    : ∃ payload : Py.Dict String Py.Json, codec.Holds payload.keys node.fields
      ∧ ∀ name ∈ payload.keys, payload.get? name = some (value name) := by
  let items := (node.fields ++ codec.identity).map (fun name => (name, value name))
  have functional : ∀ left ∈ items, ∀ right ∈ items, left.1 = right.1 → left = right := by
    intro left inLeft right inRight same
    obtain ⟨first, _, rfl⟩ := List.mem_map.mp inLeft
    obtain ⟨second, _, rfl⟩ := List.mem_map.mp inRight
    obtain rfl : first = second := same
    rfl
  have read : ∀ {name found}, (Py.Dict.ofItems items).get? name = some found
      ↔ name ∈ node.fields ++ codec.identity ∧ value name = found := by
    intro name found
    rw [Py.Dict.get?_ofItems functional]
    simp [items, or_and_right]
  refine ⟨Py.Dict.ofItems items, ?_, ?_⟩
  · intro name
    rw [Py.Dict.mem_keys, ← List.mem_append]
    simp [read]
  · intro name present
    obtain ⟨found, there⟩ := Py.Dict.mem_keys.mp present
    rw [there, (read.mp there).2]

/-- Whatever a rendered patch decides about a field is spelled by a gained or a lost field. -/
theorem spelled_of_patchFate {document : Py.Json} {key : String} {fate : Py.Fate}
    (decided : Py.patchFate equal key (schemaDiff equal source target).render document = fate)
    (decides : fate ≠ .kept)
    : fate = .put ∧ (∃ other ∈ gainedNames source target,
          Py.Pointer.tokens ("/" ++ other) = some [key])
      ∨ fate = .taken ∧ ∃ other ∈ lostNames source target,
          Py.Pointer.tokens ("/" ++ other) = some [key] := by
  obtain ⟨operation, member, before, does⟩ := Py.exists_of_patchFate decided decides
  rw [Diff.render, List.mem_append, List.mem_append, List.mem_map, List.mem_map,
    List.mem_map] at member
  rcases member with (⟨other, added, rfl⟩ | ⟨other, removed, rfl⟩) | ⟨field, _, rfl⟩
  · rcases PatchOperation.fate_add _ with keeps | ⟨puts, parsed⟩
    · exact absurd (does.symm.trans keeps) decides
    · exact .inl ⟨does.symm.trans puts, other, mem_addedFields_schemaDiff.mp added, parsed⟩
  · rcases PatchOperation.fate_remove with keeps | ⟨takes, parsed⟩
    · exact absurd (does.symm.trans keeps) decides
    · exact .inr ⟨does.symm.trans takes, other, mem_removedFields_schemaDiff.mp removed, parsed⟩
  · exact absurd (does.symm.trans (PatchOperation.fate_replace _)) decides

/-- Names that are all reached by spelling names among them spell themselves: spelling another
name takes more letters.
-/
theorem clean_of_spelled {names : List String}
    (spelled : ∀ name ∈ names, ∃ other ∈ names, Py.Pointer.tokens ("/" ++ other) = some [name])
    (member : name ∈ names)
    : Py.Pointer.Clean name := by
  have covered : ∀ item ∈ names.toFinset, ∃ origin ∈ names.toFinset,
      Py.Pointer.tokens ("/" ++ origin) = some [item] := by
    simpa only [List.mem_toFinset] using spelled
  have functional : ∀ origin item other : String,
      Py.Pointer.tokens ("/" ++ origin) = some [item] →
      Py.Pointer.tokens ("/" ++ origin) = some [other] → item = other := by
    intro origin item other leads leadsAgain
    exact (List.cons.inj (Option.some.inj (leads.symm.trans leadsAgain))).1
  have lighter : ∀ origin item : String, Py.Pointer.tokens ("/" ++ origin) = some [item] →
      item.toList.length ≤ origin.toList.length :=
    fun origin item leads =>
      (Py.Pointer.length_of_unescape (Py.Pointer.spelled_of_single leads).2).1
  obtain ⟨item, _, leads, same⟩ := Py.exists_same_weight covered functional lighter
    (List.mem_toFinset.mpr member)
  obtain ⟨single, unescaped⟩ := Py.Pointer.spelled_of_single leads
  refine ⟨single, ?_⟩
  intro escaped
  have shorter := (Py.Pointer.length_of_unescape unescaped).2 escaped
  omega

/-- A patch that carries payloads over gives every replacement a value. -/
theorem Carries.nullable
    (carries : Carries equal codec source target (schemaDiff equal source target).render)
    {before after : FieldDescriptor V} (inSource : source.descriptor.fields.get? name = some before)
    (inTarget : target.descriptor.fields.get? name = some after)
    (altered : name ∈ alteredNames equal source target)
    : Nullable equal before after := by
  obtain ⟨payload, holds, _⟩ := exists_payload codec source (fun _ => .null)
  obtain ⟨result, run, _⟩ := carries payload holds
  obtain ⟨first, second, found, foundAgain, changed⟩ := mem_alteredNames.mp altered
  obtain rfl := Option.some.inj (inSource.symm.trans found)
  obtain rfl := Option.some.inj (inTarget.symm.trans foundAgain)
  have listed := Py.Dict.get?_eq_some.mp (get?_modifiedFields_schemaDiff.mpr
    ⟨before, after, inSource, inTarget, rfl, changed⟩)
  rw [← hasValue_commonChanges]
  by_contra valueless
  have member : PatchOperation.replace ("/" ++ name) none
      ∈ (schemaDiff equal source target).render := by
    rw [Diff.render, List.mem_append, List.mem_map]
    exact .inr ⟨_, listed, by simp [valueless]⟩
  obtain ⟨document, next, applied⟩ := Py.applied_of_mem run member
  obtain ⟨path, _, applied⟩ := Option.bind_eq_some_iff.mp applied
  obtain ⟨value, none_, _⟩ := Option.bind_eq_some_iff.mp applied
  cases none_

section Carrying

variable (apart : ∀ name ∈ codec.identity, name ∉ source.fields ∧ name ∉ target.fields)

include apart

/-- A rendered patch carries every payload over. -/
theorem Renderable.carries [VersionValue V] (renders : Renderable equal codec source target)
    : Carries equal codec source target (schemaDiff equal source target).render := by
  intro payload holds
  obtain ⟨members, run, found⟩ := @applyPatch_addsRemoves _ equal codec source target
    renders.clean payload holds
  obtain ⟨known, knownRun⟩ := Option.isSome_iff_exists.mp renders.reached
  obtain ⟨result, replaced, apartFrom, kept⟩ := @Py.nullings_extend equal
    (alteredNames equal source target) members (knownMembers equal codec source target) known
    knownRun (by
      intro name value read
      rw [getMember_knownMembers] at read
      rw [found name]
      by_cases gained : name ∈ gainedNames source target
      · have kept := not_mem_lostNames source (mem_gainedNames.mp gained).2
        rw [if_pos gained] at read
        rw [if_neg kept, if_pos gained]
        exact .inl read
      · rw [if_neg gained] at read
        obtain ⟨member, same⟩ := Option.ite_none_right_eq_some.mp read
        refine .inr ⟨(Option.some.inj same).symm, ?_⟩
        obtain ⟨kept, present⟩ : name ∉ lostNames source target ∧ name ∈ payload.keys := by
          rcases List.mem_append.mp member with altered | identity
          · obtain ⟨inSource, inTarget⟩ := fields_of_mem_alteredNames altered
            exact ⟨not_mem_lostNames source inTarget, (holds name).mpr (.inl inSource)⟩
          · exact ⟨fun lost => (apart name identity).1 (mem_lostNames.mp lost).1,
              (holds name).mpr (.inr identity)⟩
        obtain ⟨value, there⟩ := Py.Dict.mem_keys.mp present
        rw [if_neg kept, if_neg gained, there]
        rfl)
  refine ⟨result, ?_, ?_, ?_⟩
  · rw [render_schemaDiff renders.nullable, Py.applyPatch_append, run]
    exact replaced
  · intro name
    rw [← Py.Json.isSome_getMember, kept name, found name]
    by_cases lost : name ∈ lostNames source target
    · obtain ⟨inSource, gone⟩ := mem_lostNames.mp lost
      rw [if_pos lost]
      refine iff_of_false (by simp) ?_
      intro given
      rcases given with inTarget | identity
      · exact gone inTarget
      · exact (apart name identity).1 inSource
    · by_cases gained : name ∈ gainedNames source target
      · rw [if_neg lost, if_pos gained]
        exact iff_of_true rfl (.inl (mem_gainedNames.mp gained).2)
      · have same : name ∈ source.fields ↔ name ∈ target.fields := by
          rw [mem_lostNames] at lost
          rw [mem_gainedNames] at gained
          tauto
        rw [if_neg lost, if_neg gained, ← same, ← holds name, Py.Dict.mem_keys,
          Option.isSome_iff_exists]
  · intro name unchanged
    obtain ⟨inSource, inTarget, unaltered⟩ := mem_unchangedFields_schemaDiff.mp unchanged
    have kept := not_mem_lostNames source inTarget
    have old : name ∉ gainedNames source target :=
      fun gained => (mem_gainedNames.mp gained).1 inSource
    have unknown : name ∉ alteredNames equal source target ++ codec.identity := by
      intro member
      rcases List.mem_append.mp member with altered | identity
      · exact unaltered altered
      · exact (apart name identity).1 inSource
    rw [apartFrom name (by rw [getMember_knownMembers, if_neg old, if_neg unknown]), found name,
      if_neg kept, if_neg old]

/-- A patch that carries payloads over names the gained and the lost fields plainly. -/
theorem Carries.clean
    (carries : Carries equal codec source target (schemaDiff equal source target).render)
    (moved : name ∈ gainedNames source target ∨ name ∈ lostNames source target)
    : Py.Pointer.Clean name := by
  obtain ⟨payload, holds, _⟩ := exists_payload codec source (fun _ => .null)
  obtain ⟨result, run, carried, _⟩ := carries payload holds
  have decided := fun key => (Py.mem_keys_applyPatch run key).symm.trans (carried key)
  have before : ∀ key, key ∈ (Py.Json.obj payload.items).keys
      ↔ key ∈ source.fields ∨ key ∈ codec.identity := holds
  rcases moved with gained | lost
  · refine clean_of_spelled ?_ gained
    intro key member
    obtain ⟨fresh, listed⟩ := mem_gainedNames.mp member
    have stands := (decided key).mpr (.inl listed)
    cases fate : Py.patchFate equal key (schemaDiff equal source target).render
        (.obj payload.items) with
    | put =>
        rcases spelled_of_patchFate fate (by simp) with ⟨_, reached⟩ | ⟨other, _⟩
        · exact reached
        · cases other
    | taken =>
        rw [fate] at stands
        exact stands.elim
    | kept =>
        rw [fate] at stands
        rcases (before key).mp stands with old | identity
        · exact absurd old fresh
        · exact absurd listed (apart key identity).2
  · refine clean_of_spelled ?_ lost
    intro key member
    obtain ⟨old, gone⟩ := mem_lostNames.mp member
    have ends : ¬ (Py.patchFate equal key (schemaDiff equal source target).render
        (.obj payload.items)).Stands (key ∈ (Py.Json.obj payload.items).keys) := by
      intro stands
      rcases (decided key).mp stands with inTarget | identity
      · exact gone inTarget
      · exact (apart key identity).1 old
    cases fate : Py.patchFate equal key (schemaDiff equal source target).render
        (.obj payload.items) with
    | put =>
        rw [fate] at ends
        exact (ends trivial).elim
    | taken =>
        rcases spelled_of_patchFate fate (by simp) with ⟨other, _⟩ | ⟨_, reached⟩
        · cases other
        · exact reached
    | kept =>
        rw [fate] at ends
        exact absurd ((before key).mpr (.inl old)) ends

/-- A patch that carries payloads over renders its operations from a renderable diff. -/
theorem Carries.reached
    (carries : Carries equal codec source target (schemaDiff equal source target).render)
    : (Py.applyPatch equal (Py.nullings (alteredNames equal source target))
        (.obj (knownMembers equal codec source target))).isSome := by
  classical
  -- Unchanged fields are true in this payload, so that replacing one would be seen.
  obtain ⟨payload, holds, told⟩ := exists_payload codec source (fun name =>
    if name ∈ (schemaDiff equal source target).unchangedFields then .bool true else .null)
  obtain ⟨result, run, _, unchanged⟩ := carries payload holds
  obtain ⟨members, first, found⟩ := @applyPatch_addsRemoves _ equal codec source target
    (fun name moved => Carries.clean apart carries moved) payload holds
  rw [render_schemaDiff (fun name before after inSource inTarget altered =>
    Carries.nullable carries inSource inTarget altered), Py.applyPatch_append, first] at run
  have value : ∀ key, payload.get? key = none
      ∨ key ∈ payload.keys ∧ payload.get? key
        = some (if key ∈ (schemaDiff equal source target).unchangedFields then .bool true
          else .null) := by
    intro key
    by_cases present : key ∈ payload.keys
    · exact .inr ⟨present, told key present⟩
    · exact .inl (Py.Dict.get?_eq_none.mpr present)
  refine Py.nullings_restrict run ?_ ?_
  · intro key
    rw [getMember_knownMembers, found key]
    by_cases gained : key ∈ gainedNames source target
    · have kept := not_mem_lostNames source (mem_gainedNames.mp gained).2
      rw [if_pos gained, if_neg kept, if_pos gained]
      exact .inl rfl
    · rw [if_neg gained, if_neg gained]
      by_cases lost : key ∈ lostNames source target
      · have unknown : key ∉ alteredNames equal source target ++ codec.identity := by
          obtain ⟨old, gone⟩ := mem_lostNames.mp lost
          intro member
          rcases List.mem_append.mp member with altered | identity
          · exact gone (fields_of_mem_alteredNames altered).2
          · exact (apart key identity).1 old
        rw [if_neg unknown, if_pos lost]
        exact .inl rfl
      · rw [if_neg lost]
        by_cases decided : key ∈ alteredNames equal source target ++ codec.identity
        · have changing : key ∉ (schemaDiff equal source target).unchangedFields := by
            rw [mem_unchangedFields_schemaDiff]
            intro given
            rcases List.mem_append.mp decided with altered | identity
            · exact given.2.2 altered
            · exact (apart key identity).1 given.1
          have present : key ∈ payload.keys := by
            refine (holds key).mpr ?_
            rcases List.mem_append.mp decided with altered | identity
            · exact .inl (fields_of_mem_alteredNames altered).1
            · exact .inr identity
          rw [if_pos decided, told key present, if_neg changing]
          exact .inl rfl
        · rw [if_neg decided]
          rcases value key with absent | ⟨present, there⟩
          · exact .inl absent.symm
          · have old : key ∈ source.fields := by
              rcases (holds key).mp present with old | identity
              · exact old
              · exact absurd (List.mem_append_right _ identity) decided
            have unchanging : key ∈ (schemaDiff equal source target).unchangedFields := by
              refine mem_unchangedFields_schemaDiff.mpr ⟨old, ?_, ?_⟩
              · by_contra gone
                exact lost (mem_lostNames.mpr ⟨old, gone⟩)
              · exact fun altered => decided (List.mem_append_left _ altered)
            rw [there, if_pos unchanging]
            exact .inr ⟨rfl, rfl⟩
  · intro key unknown whole
    rw [getMember_knownMembers] at unknown
    rw [found key] at whole
    split at unknown
    case isTrue => cases unknown
    case isFalse old =>
      split at whole
      case isTrue => cases whole
      case isFalse kept =>
        rcases value key with absent | ⟨_, there⟩
        · rw [absent] at whole
          cases whole
        · by_cases unchanging : key ∈ (schemaDiff equal source target).unchangedFields
          · rw [unchanged key unchanging, whole]
          · rw [there, if_neg unchanging] at whole
            cases whole

end Carrying

end SchemaPatch

-----------------------------------------------------------------------------------------
-- Migrations that carry every payload over
-----------------------------------------------------------------------------------------

theorem JsonPatchMigration.make_eq_ok {source target : String} {patch : List PatchOperation}
    {migration : JsonPatchMigration}
    : (JsonPatchMigration.make source target patch : Except (Error V) _) = .ok migration
      ↔ migration.source = source ∧ migration.target = target ∧ migration.patch = patch := by
  unfold make
  obtain ⟨source', target', patch', sourceNamed, targetNamed, nonempty⟩ := migration
  by_cases first : source = ""
  · rw [dif_pos first]
    exact iff_of_false (by simp) (fun given => sourceNamed (given.1.trans first))
  · by_cases second : target = ""
    · rw [dif_neg first, dif_pos second]
      exact iff_of_false (by simp) (fun given => targetNamed (given.2.1.trans second))
    · by_cases empty : patch = []
      · rw [dif_neg first, dif_neg second, dif_pos empty]
        exact iff_of_false (by simp) (fun given => nonempty (given.2.2.trans empty))
      · rw [dif_neg first, dif_neg second, dif_neg empty]
        simp [eq_comm]

/-- A rendered schema diff has an operation exactly if some field changed. -/
theorem render_schemaDiff_ne_nil {equal : Py.Json → Py.Json → Bool} {source target : VersionNode V}
    : (schemaDiff equal source target).render ≠ []
      ↔ ∃ name, name ∈ gainedNames source target ∨ name ∈ lostNames source target
        ∨ name ∈ alteredNames equal source target := by
  have keys : (schemaDiff equal source target).modifiedFields.items = []
      ↔ alteredNames equal source target = [] := by
    rw [← keys_modifiedFields_schemaDiff, Py.Dict.keys, List.map_eq_nil_iff]
  rw [Diff.render, ne_eq, List.append_eq_nil_iff, List.append_eq_nil_iff, List.map_eq_nil_iff,
    List.map_eq_nil_iff, List.map_eq_nil_iff, keys]
  simp only [List.eq_nil_iff_forall_not_mem, mem_addedFields_schemaDiff,
    mem_removedFields_schemaDiff, not_and_or, not_forall, not_not, exists_or, or_assoc]

section Claims

variable [VersionValue V]

/-- Binding two nodes of one kind and strategy gives a migration that carries every payload of the
source over exactly if their diff is renderable. Descriptors leave kind and version out, as the
adapters make them.
-/
theorem Registry.bind_carries_iff {config : Config V F} {equal : Py.Json → Py.Json → Bool}
    {discover : MigrationFunc F → Except (Error V) (Py.Dict String FieldChange)}
    {materialize : Diff V → Except (Error V) (VersionNode V)}
    (port : config.reflection = some (reflector equal discover materialize))
    (registry : Registry V) {codec : ModelCodec} {source target : VersionNode V}
    (kinds : source.id.kind = target.id.kind)
    (strategies : source.id.strategy = target.id.strategy)
    (apart : ∀ name ∈ codec.identity, name ∉ source.fields ∧ name ∉ target.fields)
    : (∃ migration, Registry.bind config materializePatch registry source target = .ok migration
          ∧ Carries equal codec source target migration.patch)
      ↔ Renderable equal codec source target := by
  have bound : Registry.bind config materializePatch registry source target
      = JsonPatchMigration.make (VersionValue.str source.id.version)
          (VersionValue.str target.id.version) (schemaDiff equal source target).render := by
    unfold Registry.bind
    rw [port]
    simp only [kinds, strategies, ne_eq, not_true_eq_false, if_false, reflector, buildDiff]
    rfl
  rw [bound]
  constructor
  · intro given
    obtain ⟨migration, made, carries⟩ := given
    obtain ⟨sources, targets, patch⟩ := JsonPatchMigration.make_eq_ok.mp made
    rw [patch] at carries
    exact {
      sourceNamed := sources ▸ migration.sourceNamed
      targetNamed := targets ▸ migration.targetNamed
      changed := render_schemaDiff_ne_nil.mp (patch ▸ migration.nonempty)
      clean := fun name moved => carries.clean apart moved
      nullable := fun name before after inSource inTarget altered =>
        carries.nullable inSource inTarget altered
      reached := carries.reached apart
    }
  · intro renders
    refine ⟨⟨_, _, (schemaDiff equal source target).render, renders.sourceNamed,
      renders.targetNamed, render_schemaDiff_ne_nil.mpr renders.changed⟩,
      JsonPatchMigration.make_eq_ok.mpr ⟨rfl, rfl, rfl⟩, renders.carries apart⟩

end Claims

/-- Kind and version properties for the namespace `default`. -/
def plainCodec : ModelCodec where
  versionProperty := "version"
  kindProperty := "kind"
  nameSpace := "default"
  named := (userId 1).named

/-- A release of `User` with a single text field. -/
def fieldedUser (major : Nat) (name : String) : VersionNode Release where
  id := userId major
  descriptor := ⟨⟨"app", "User"⟩, (∅ : Py.Dict _ _).set name
    { name, typeRef := .obj [("kind", .str "string")], required := true }⟩

/-- A registry configuration over the schema diffs, which cannot make up models. -/
def schemaConfig : Config Release Unit :=
  { plainConfig with
    reflection := some (reflector (fun left right => left == right) (fun _ => .ok ∅)
      (fun _ => .error (.raised "TypeError"))) }

/-- Witness: binding two releases that differ by one plain field. -/
theorem Registry.bind_carries_name
    : ∃ migration, Registry.bind schemaConfig materializePatch (Registry.new "default" false)
          (userNode 1 "User") (fieldedUser 2 "name") = .ok migration
        ∧ Carries (fun left right => left == right) plainCodec (userNode 1 "User")
            (fieldedUser 2 "name") migration.patch := by
  refine (@Registry.bind_carries_iff Release Unit _ schemaConfig _ _ _ rfl
    (Registry.new "default" false) plainCodec (userNode 1 "User") (fieldedUser 2 "name") rfl rfl
    (by decide +kernel)).mpr ?_
  have gained : gainedNames (userNode 1 "User") (fieldedUser 2 "name") = ["name"] := by
    decide +kernel
  have lost : lostNames (userNode 1 "User") (fieldedUser 2 "name") = [] := rfl
  refine ⟨by decide +kernel, by decide +kernel, ⟨"name", .inl (by simp [gained])⟩, ?_, ?_, rfl⟩
  · intro name moved
    rw [gained, lost] at moved
    obtain rfl : name = "name" := by simpa using moved
    exact ⟨by decide +kernel, by decide +kernel⟩
  · intro name before after inSource
    cases inSource

/-- Counterexample: two releases that do not differ bind to no migration at all. -/
theorem Registry.bind_refuses_identity
    : (userNode 1 "User").id.kind = (userNode 2 "User").id.kind
      ∧ (userNode 1 "User").id.strategy = (userNode 2 "User").id.strategy
      ∧ Registry.bind schemaConfig materializePatch (Registry.new "default" false)
          (userNode 1 "User") (userNode 2 "User")
        = .error (.valueError "Migration spec requires a non-empty 'ops' list") :=
  ⟨rfl, rfl, rfl⟩

end Pyverge
