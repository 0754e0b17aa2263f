import Pyverge.Reflection.Binding
import Pyverge.Py.Repr

/-! Model classes built from an anchor class and a diff, with pydantic and as dataclasses.
Both builders put the version property first, keep the fields of the anchor that the diff does not
remove, and append the added ones. Only the first looks whether a name is taken already.
-/

namespace Pyverge

variable {V : Type}

-----------------------------------------------------------------------------------------
-- Model classes
-----------------------------------------------------------------------------------------

/-- The default of a class field: none at all, a value, or a factory. -/
inductive FieldDefault where
  | required
  | value (value : Py.Json)
  | factory (name : String)
  deriving DecidableEq

structure ClassField where
  type : Py.Json
  default : FieldDefault
  deriving DecidableEq

/-- `FieldInfo.is_required()`, and of a dataclass field that both of its defaults are missing. -/
def ClassField.isRequired (field : ClassField) : Bool := field.default == .required

/-- A model class as adapters see it: its name and its fields in order. -/
structure ModelClass where
  name : String
  fields : Py.Dict String ClassField
  deriving DecidableEq

def strType : Py.Json := .str "str"

def anyType : Py.Json := .str "typing.Any"

/-- `runtime.resolve`, from the handles that the runtime remembers. -/
def resolveHandle (handles : Py.Dict ModelRef ModelClass) (ref : ModelRef)
    : Except (Error V) ModelClass :=
  match handles.get? ref with
  | some handle => .ok handle
  | none => .error (.raised "KeyError")

/-- `f"{anchor.__name__}V{str(version).replace('.', '_')}"` -/
def builtName (anchor : ModelClass) (version : String) : String :=
  anchor.name ++ "V"
    ++ String.ofList (version.toList.map (fun letter => if letter = '.' then '_' else letter))

/-- The version property of a built model, with the target version as its default. -/
def versionField (version : String) : ClassField := ⟨strType, .value (.str version)⟩

/-- An added field with the default that the diff records; without one it defaults to null. -/
def addedField (fieldType : Py.Json) (info : List (String × Py.Json)) : ClassField :=
  if ((Py.Json.getMember info "required").getD .null).truthy then ⟨fieldType, .required⟩
  else ⟨fieldType, .value ((Py.Json.getMember info "default").getD .null)⟩

/-- The fields of the anchor that stay. -/
def keptFields (codec : ModelCodec) (anchor : ModelClass) (diff : Diff V)
    : List (String × ClassField) :=
  anchor.fields.items.filter (fun field =>
    field.1 ≠ codec.versionProperty ∧ field.1 ∉ diff.removedFields)

-----------------------------------------------------------------------------------------
-- Pydantic models
-----------------------------------------------------------------------------------------

/-- `info.get("type") or Any` -/
def pydanticType (info : List (String × Py.Json)) : Py.Json :=
  let given := (Py.Json.getMember info "type").getD .null
  if given.truthy then given else anyType

variable [VersionValue V]

/-- The fields that `build_model` hands to `create_model`; an added one that is there already is
skipped.
-/
def mergedFields (codec : ModelCodec) (anchor : ModelClass) (diff : Diff V)
    : Py.Dict String ClassField :=
  let version := versionField (VersionValue.str diff.target.id.version)
  let kept := (Py.Dict.ofItems [(codec.versionProperty, version)]).update
    (keptFields codec anchor diff)
  diff.addedFields.foldl (fun fields name =>
    let info := diff.addedFieldInfo.getD name []
    if name ∈ fields.keys then fields
    else fields.set name (addedField (pydanticType info) info)) kept

/-- `PythonModelRuntime.build_model` -/
def buildModel (createModel : String → Py.Dict String ClassField → Except (Error V) ModelClass)
    (codec : ModelCodec) (handles : Py.Dict ModelRef ModelClass) (diff : Diff V)
    : Except (Error V) ModelClass := do
  let anchor ← resolveHandle handles diff.source.modelref
  createModel (builtName anchor (VersionValue.str diff.target.id.version))
    (mergedFields codec anchor diff)

/-- What `create_model` does with field definitions: it makes a model with exactly these fields if
it accepts each name with its type, and raises otherwise.
-/
structure CreatesModels
    (createModel : String → Py.Dict String ClassField → Except (Error V) ModelClass)
    (accepts : String → Py.Json → Prop) : Prop where
  creates : ∀ name fields, (∀ field ∈ fields.items, accepts field.1 field.2.type) →
    ∃ built, createModel name fields = .ok built ∧ built.fields = fields
  refuses : ∀ name fields built, createModel name fields = .ok built →
    ∀ field ∈ fields.items, accepts field.1 field.2.type

-----------------------------------------------------------------------------------------
-- Dataclasses
-----------------------------------------------------------------------------------------

/-- `keyword.kwlist` -/
def keywords : List String := [
  "False", "None", "True", "and", "as", "assert", "async", "await", "break", "class", "continue",
  "def", "del", "elif", "else", "except", "finally", "for", "from", "global", "if", "import", "in",
  "is", "lambda", "nonlocal", "not", "or", "pass", "raise", "return", "try", "while", "with",
  "yield"]

/-- The type of a default value that dataclasses refuse because it cannot be hashed. -/
def mutableType : FieldDefault → Option String
  | .value (.arr _) => some "<class 'list'>"
  | .value (.obj _) => some "<class 'dict'>"
  | .value _ | .required | .factory _ => none

section Dataclasses

variable (identifier : String → Bool) (printable : Char → Bool)

/-- The names that a dataclass field may have, over `str.isidentifier`. -/
def isFieldName (name : String) : Bool := identifier name && name ∉ keywords

omit [VersionValue V] in
/-- The checks of `make_dataclass`, name by name, after the names seen before. -/
def checkFieldNames (seen : List String) : List String → Except (Error V) Unit
  | [] => .ok ()
  | name :: rest =>
      if !identifier name then
        .error (.typeError ("Field names must be valid identifiers: " ++ Py.reprStr printable name))
      else if name ∈ keywords then
        .error (.typeError ("Field names must not be keywords: " ++ Py.reprStr printable name))
      else if name ∈ seen then
        .error (.typeError ("Field name duplicated: " ++ Py.reprStr printable name))
      else checkFieldNames (name :: seen) rest

omit [VersionValue V] in
def checkDefaults : List (String × ClassField) → Except (Error V) Unit
  | [] => .ok ()
  | (name, field) :: rest =>
      match mutableType field.default with
      | some type => .error (.valueError ("mutable default " ++ type ++ " for field " ++ name
          ++ " is not allowed: use default_factory"))
      | none => checkDefaults rest

omit [VersionValue V] in
/-- `dataclasses.make_dataclass` with keyword-only fields -/
def makeDataclass (name : String) (fields : List (String × ClassField))
    : Except (Error V) ModelClass := do
  checkFieldNames identifier printable [] (fields.map Prod.fst)
  checkDefaults fields
  return ⟨name, Py.Dict.ofItems fields⟩

/-- The fields that the dataclass builder lists. -/
def listedFields (codec : ModelCodec) (anchor : ModelClass) (diff : Diff V)
    : List (String × ClassField) :=
  (codec.versionProperty, versionField (VersionValue.str diff.target.id.version))
    :: keptFields codec anchor diff
    ++ diff.addedFields.map (fun name =>
      let info := diff.addedFieldInfo.getD name []
      (name, addedField ((Py.Json.getMember info "type").getD anyType) info))

/-- `DataclassModelAdapter._build_model` -/
def buildDataclass (codec : ModelCodec) (handles : Py.Dict ModelRef ModelClass) (diff : Diff V)
    : Except (Error V) ModelClass := do
  let anchor ← resolveHandle handles diff.source.modelref
  makeDataclass identifier printable (builtName anchor (VersionValue.str diff.target.id.version))
    (listedFields codec anchor diff)

/-- A class that `dataclass` can have made. -/
structure IsDataclass (handle : ModelClass) : Prop where
  named : ∀ name ∈ handle.fields.keys, isFieldName identifier name = true
  hashable : ∀ field ∈ handle.fields.values, mutableType field.default = none

end Dataclasses

-----------------------------------------------------------------------------------------
-- Fields of the built models
-----------------------------------------------------------------------------------------

omit [VersionValue V] in
theorem mem_keptFields {codec : ModelCodec} {anchor : ModelClass} {diff : Diff V} {name : String}
    {field : ClassField}
    : (name, field) ∈ keptFields codec anchor diff
      ↔ anchor.fields.get? name = some field ∧ name ≠ codec.versionProperty
        ∧ name ∉ diff.removedFields := by
  simp [keptFields, Py.Dict.get?_eq_some]

omit [VersionValue V] in
/-- The version property and the fields of the anchor that stay, as a dictionary. -/
theorem get?_keptFields {codec : ModelCodec} {anchor : ModelClass} {diff : Diff V}
    {version : ClassField} {name : String}
    : ((Py.Dict.ofItems [(codec.versionProperty, version)]).update
        (keptFields codec anchor diff)).get? name
      = if name = codec.versionProperty then some version
        else if name ∈ diff.removedFields then none
        else anchor.fields.get? name := by
  have nodup : ((keptFields codec anchor diff).map Prod.fst).Nodup :=
    anchor.fields.nodup.sublist (List.filter_sublist.map _)
  have single : (Py.Dict.ofItems [(codec.versionProperty, version)]).items
      = [(codec.versionProperty, version)] := Py.Dict.items_ofItems (List.nodup_singleton _)
  have fresh : ∀ field ∈ keptFields codec anchor diff,
      field.1 ∉ (Py.Dict.ofItems [(codec.versionProperty, version)]).keys := by
    intro field member
    have apart := (mem_keptFields.mp member).2.1
    simpa [Py.Dict.keys, single] using apart
  apply Option.ext
  intro field
  rw [Py.Dict.get?_eq_some, Py.Dict.items_update nodup fresh, single, List.mem_append,
    mem_keptFields]
  by_cases own : name = codec.versionProperty
  · simp [own, eq_comm]
  · by_cases gone : name ∈ diff.removedFields <;> simp [own, gone]

/-- Adding fields that are not there yet: the first one of each name stays. -/
theorem get?_addFields (value : String → ClassField) (names : List String)
    (fields : Py.Dict String ClassField) (name : String)
    : (names.foldl (fun fields name =>
        if name ∈ fields.keys then fields else fields.set name (value name)) fields).get? name
      = (fields.get? name).or (if name ∈ names then some (value name) else none) := by
  induction names generalizing fields with
  | nil => simp
  | cons head rest ih =>
      rw [List.foldl_cons, ih]
      by_cases taken : head ∈ fields.keys
      · rw [if_pos taken]
        by_cases same : name = head
        · obtain ⟨field, found⟩ := Py.Dict.mem_keys.mp taken
          simp [same, found]
        · simp [same]
      · rw [if_neg taken, Py.Dict.get?_set]
        by_cases same : name = head
        · simp [same, Py.Dict.get?_eq_none.mpr taken]
        · simp [same]

/-- A field of the built model is the version property, or a field of the anchor that stays, or an
added one.
-/
theorem get?_mergedFields {codec : ModelCodec} {anchor : ModelClass} {diff : Diff V}
    {name : String}
    : (mergedFields codec anchor diff).get? name
      = (if name = codec.versionProperty then
          some (versionField (VersionValue.str diff.target.id.version))
        else if name ∈ diff.removedFields then none
        else anchor.fields.get? name).or
          (if name ∈ diff.addedFields then
            some (addedField (pydanticType (diff.addedFieldInfo.getD name []))
              (diff.addedFieldInfo.getD name []))
          else none) := by
  have added := get?_addFields (fun name =>
      addedField (pydanticType (diff.addedFieldInfo.getD name []))
        (diff.addedFieldInfo.getD name []))
    diff.addedFields
    ((Py.Dict.ofItems [(codec.versionProperty,
      versionField (VersionValue.str diff.target.id.version))]).update
        (keptFields codec anchor diff)) name
  rw [get?_keptFields] at added
  exact added

-----------------------------------------------------------------------------------------
-- What make_dataclass accepts
-----------------------------------------------------------------------------------------

section Dataclasses

variable {identifier : String → Bool} {printable : Char → Bool}

omit [VersionValue V] in
/-- Field names pass if each is one that a field may have and none comes twice. -/
theorem checkFieldNames_ok {seen names : List String}
    : checkFieldNames (V := V) identifier printable seen names = .ok ()
      ↔ (∀ name ∈ names, isFieldName identifier name = true ∧ name ∉ seen) ∧ names.Nodup := by
  induction names generalizing seen with
  | nil => simp [checkFieldNames]
  | cons name rest ih =>
      rw [checkFieldNames, List.nodup_cons, List.forall_mem_cons]
      by_cases valid : identifier name = true
      · by_cases reserved : name ∈ keywords
        · simp [valid, reserved, isFieldName]
        · by_cases twice : name ∈ seen
          · simp [valid, reserved, twice]
          · have shape : isFieldName identifier name = true := by
              simp [isFieldName, valid, reserved]
            rw [if_neg (by simp [valid]), if_neg reserved, if_neg twice, ih]
            constructor
            · intro given
              obtain ⟨each, nodup⟩ := given
              refine ⟨⟨⟨shape, twice⟩, fun other member => ?_⟩, fun again => ?_, nodup⟩
              · exact ⟨(each other member).1, fun old => (each other member).2 (.tail _ old)⟩
              · exact (each name again).2 List.mem_cons_self
            · intro given
              obtain ⟨⟨_, each⟩, once, nodup⟩ := given
              refine ⟨fun other member => ⟨(each other member).1, fun old => ?_⟩, nodup⟩
              rcases List.mem_cons.mp old with same | earlier
              · exact once (same ▸ member)
              · exact (each other member).2 earlier
      · simp [valid, isFieldName]

omit [VersionValue V] in
theorem checkDefaults_ok {fields : List (String × ClassField)}
    : checkDefaults (V := V) fields = .ok ()
      ↔ ∀ field ∈ fields, mutableType field.2.default = none := by
  induction fields with
  | nil => simp [checkDefaults]
  | cons field rest ih =>
      obtain ⟨name, field⟩ := field
      rw [checkDefaults, List.forall_mem_cons]
      cases kind : mutableType field.default with
      | none => simp [ih]
      | some type => simp

omit [VersionValue V] in
/-- A dataclass is made of its fields exactly if their names may be fields, come once each, and no
default is mutable.
-/
theorem makeDataclass_ok {name : String} {fields : List (String × ClassField)} {made : ModelClass}
    : makeDataclass (V := V) identifier printable name fields = .ok made
      ↔ (∀ field ∈ fields, isFieldName identifier field.1 = true)
        ∧ (fields.map Prod.fst).Nodup
        ∧ (∀ field ∈ fields, mutableType field.2.default = none)
        ∧ made = ⟨name, Py.Dict.ofItems fields⟩ := by
  have named : checkFieldNames (V := V) identifier printable [] (fields.map Prod.fst) = .ok ()
      ↔ (∀ field ∈ fields, isFieldName identifier field.1 = true)
        ∧ (fields.map Prod.fst).Nodup := by
    rw [checkFieldNames_ok]
    simp
  have hashed : checkDefaults (V := V) fields = .ok ()
      ↔ ∀ field ∈ fields, mutableType field.2.default = none := checkDefaults_ok
  rw [makeDataclass]
  cases names : checkFieldNames (V := V) identifier printable [] (fields.map Prod.fst) with
  | error error =>
      refine ⟨fun built => (nomatch built), fun given => ?_⟩
      have passed := named.mpr ⟨given.1, given.2.1⟩
      rw [names] at passed
      cases passed
  | ok _ =>
      obtain ⟨shapes, nodup⟩ := named.mp names
      cases defaults : checkDefaults (V := V) fields with
      | error error =>
          refine ⟨fun built => (nomatch built), fun given => ?_⟩
          have passed := hashed.mpr given.2.2.1
          rw [defaults] at passed
          cases passed
      | ok _ =>
          have hashable := hashed.mp defaults
          constructor
          · intro built
            cases built
            exact ⟨shapes, nodup, hashable, rfl⟩
          · intro given
            rw [given.2.2.2]
            rfl

end Dataclasses

-----------------------------------------------------------------------------------------
-- The two builders
-----------------------------------------------------------------------------------------

/-- A class that pydantic can have made, for each of its fields is one that it accepts. -/
def IsPydantic (accepts : String → Py.Json → Prop) (handle : ModelClass) : Prop :=
  ∀ field ∈ handle.fields.items, accepts field.1 field.2.type

/-- Two classes have the same fields and require the same ones. -/
def SameFields (left right : ModelClass) : Prop :=
  ∀ name, (left.fields.get? name).map ClassField.isRequired
    = (right.fields.get? name).map ClassField.isRequired

/-- The default of the version property is this version. -/
def HasVersion (codec : ModelCodec) (version : String) (handle : ModelClass) : Prop :=
  (handle.fields.get? codec.versionProperty).map ClassField.default = some (.value (.str version))

/-- Both providers can build the diff: each added field is new to the anchor, both accept its name,
pydantic accepts its type, and its default can be that of a dataclass field; the version property
passes too.
-/
structure BuildsAlike (identifier : String → Bool) (accepts : String → Py.Json → Prop)
    (codec : ModelCodec) (diff : Diff V) (anchor : ModelClass) : Prop where
  versionNamed : isFieldName identifier codec.versionProperty = true
  versionAccepted : accepts codec.versionProperty strType
  fresh : ∀ name ∈ diff.addedFields, name ≠ codec.versionProperty ∧ name ∉ anchor.fields.keys
  named : ∀ name ∈ diff.addedFields, isFieldName identifier name = true
  accepted : ∀ name ∈ diff.addedFields,
    accepts name (pydanticType (diff.addedFieldInfo.getD name []))
  hashable : ∀ name ∈ diff.addedFields,
    mutableType (addedField anyType (diff.addedFieldInfo.getD name [])).default = none

omit [VersionValue V] in
/-- Classes with the same fields have the same names. -/
theorem SameFields.mem_keys {left right : ModelClass} (same : SameFields left right) {name : String}
    : name ∈ left.fields.keys ↔ name ∈ right.fields.keys := by
  have equal := congrArg Option.isSome (same name)
  rw [Option.isSome_map, Option.isSome_map] at equal
  rw [← Py.Dict.contains_iff, ← Py.Dict.contains_iff, Py.Dict.contains, Py.Dict.contains, equal]

omit [VersionValue V] in
/-- The default of an added field does not depend on its type. -/
theorem default_addedField (fieldType : Py.Json) (info : List (String × Py.Json))
    : (addedField fieldType info).default = (addedField anyType info).default := by
  unfold addedField
  split <;> rfl

omit [VersionValue V] in
theorem isRequired_addedField (fieldType : Py.Json) (info : List (String × Py.Json))
    : (addedField fieldType info).isRequired = (addedField anyType info).isRequired := by
  rw [ClassField.isRequired, ClassField.isRequired, default_addedField]

omit [VersionValue V] in
theorem addedFields_nodup (diff : Diff V) : diff.addedFields.Nodup := by
  have names : ((diff.fields.items.filter (fun field => field.2.status = .added)).map
      Prod.fst).Nodup := diff.fields.nodup.sublist (List.filter_sublist.map _)
  exact (List.perm_insertionSort _ _).nodup_iff.mpr names

omit [VersionValue V] in
/-- A diff that adds a field does not remove it. -/
theorem not_mem_removedFields {diff : Diff V} {name : String} (added : name ∈ diff.addedFields)
    : name ∉ diff.removedFields := by
  intro removed
  rw [Diff.mem_removedFields, Diff.mem_addedFields.mp added] at removed
  cases removed

/-- A listed field is the version property, or a field of the anchor that stays, or an added one. -/
theorem mem_listedFields {codec : ModelCodec} {anchor : ModelClass} {diff : Diff V} {name : String}
    {field : ClassField}
    : (name, field) ∈ listedFields codec anchor diff
      ↔ (name = codec.versionProperty
          ∧ field = versionField (VersionValue.str diff.target.id.version))
        ∨ (anchor.fields.get? name = some field ∧ name ≠ codec.versionProperty
          ∧ name ∉ diff.removedFields)
        ∨ (name ∈ diff.addedFields
          ∧ field = addedField ((Py.Json.getMember (diff.addedFieldInfo.getD name []) "type").getD
              anyType) (diff.addedFieldInfo.getD name [])) := by
  rw [listedFields, List.cons_append, List.mem_cons, List.mem_append, mem_keptFields,
    Prod.mk.injEq]
  refine or_congr_right (or_congr_right ?_)
  constructor
  · intro member
    obtain ⟨other, added, same⟩ := List.mem_map.mp member
    obtain ⟨rfl, rfl⟩ := Prod.mk.inj same
    exact ⟨added, rfl⟩
  · intro given
    obtain ⟨added, rfl⟩ := given
    exact List.mem_map.mpr ⟨name, added, rfl⟩

/-- No field is listed twice exactly if each added one is new to the anchor. -/
theorem nodup_listedFields {codec : ModelCodec} {anchor : ModelClass} {diff : Diff V}
    : ((listedFields codec anchor diff).map Prod.fst).Nodup
      ↔ ∀ name ∈ diff.addedFields,
          name ≠ codec.versionProperty ∧ name ∉ anchor.fields.keys := by
  have names : (listedFields codec anchor diff).map Prod.fst
      = codec.versionProperty :: ((keptFields codec anchor diff).map Prod.fst
        ++ diff.addedFields) := by
    simp [listedFields, Function.comp_def]
  have keptNodup : ((keptFields codec anchor diff).map Prod.fst).Nodup :=
    anchor.fields.nodup.sublist (List.filter_sublist.map _)
  have stays : ∀ name, name ∈ (keptFields codec anchor diff).map Prod.fst
      ↔ name ∈ anchor.fields.keys ∧ name ≠ codec.versionProperty
        ∧ name ∉ diff.removedFields := by
    intro name
    rw [Py.Dict.mem_keys]
    constructor
    · intro member
      obtain ⟨⟨_, field⟩, kept, rfl⟩ := List.mem_map.mp member
      obtain ⟨found, own, removed⟩ := mem_keptFields.mp kept
      exact ⟨⟨field, found⟩, own, removed⟩
    · intro given
      obtain ⟨⟨field, found⟩, own, removed⟩ := given
      exact List.mem_map.mpr ⟨(name, field), mem_keptFields.mpr ⟨found, own, removed⟩, rfl⟩
  rw [names, List.nodup_cons, List.mem_append, List.nodup_append]
  constructor
  · intro nodup name added
    obtain ⟨own, _, _, apart⟩ := nodup
    have other : name ≠ codec.versionProperty := fun same => own (.inr (same ▸ added))
    refine ⟨other, fun present => ?_⟩
    exact apart name ((stays name).mpr ⟨present, other, not_mem_removedFields added⟩) name added rfl
  · intro fresh
    refine ⟨fun own => ?_, keptNodup, addedFields_nodup diff, ?_⟩
    · rcases own with kept | added
      · exact ((stays _).mp kept).2.1 rfl
      · exact (fresh _ added).1 rfl
    · intro name kept other added same
      exact (fresh other added).2 (same ▸ ((stays name).mp kept).1)

/-- What the dataclass holds when nothing is listed twice. -/
theorem get?_listedFields {codec : ModelCodec} {anchor : ModelClass} {diff : Diff V}
    (nodup : ((listedFields codec anchor diff).map Prod.fst).Nodup) {name : String}
    : (Py.Dict.ofItems (listedFields codec anchor diff)).get? name
      = (if name = codec.versionProperty then
          some (versionField (VersionValue.str diff.target.id.version))
        else if name ∈ diff.removedFields then none
        else anchor.fields.get? name).or
          (if name ∈ diff.addedFields then
            some (addedField ((Py.Json.getMember (diff.addedFieldInfo.getD name []) "type").getD
              anyType) (diff.addedFieldInfo.getD name []))
          else none) := by
  have fresh := nodup_listedFields.mp nodup
  apply Option.ext
  intro field
  rw [Py.Dict.get?_eq_some, Py.Dict.items_ofItems nodup, mem_listedFields]
  by_cases added : name ∈ diff.addedFields
  · have gone := not_mem_removedFields added
    obtain ⟨own, absent⟩ := fresh name added
    have unset := Py.Dict.get?_eq_none.mpr absent
    simp [added, own, gone, unset, eq_comm]
  · by_cases own : name = codec.versionProperty
    · subst own
      simp [added, eq_comm]
    · by_cases gone : name ∈ diff.removedFields <;> simp [added, own, gone]

/-- Two lookups that agree in a first place and then in a second agree after both. -/
theorem map_or_congr {α β γ : Type} {f : α → γ} {g : β → γ} {first second : Option α}
    {other later : Option β} (same : first.map f = other.map g)
    (rest : second.map f = later.map g)
    : (first.or second).map f = (other.or later).map g := by
  cases first with
  | none =>
      cases other with
      | none => exact rest
      | some _ => cases same
  | some _ =>
      cases other with
      | none => cases same
      | some _ => exact same

section Builders

variable {createModel : String → Py.Dict String ClassField → Except (Error V) ModelClass}
  {accepts : String → Py.Json → Prop} {identifier : String → Bool} {printable : Char → Bool}
  {codec : ModelCodec} {diff : Diff V} {model dataclass : ModelClass}

/-- Pydantic accepts the fields of the model to build exactly if it accepts the version property
and each added field, when these are new.
-/
theorem accepts_mergedFields_iff (isModel : IsPydantic accepts model)
    (fresh : ∀ name ∈ diff.addedFields, name ≠ codec.versionProperty ∧ name ∉ model.fields.keys)
    : (∀ field ∈ (mergedFields codec model diff).items, accepts field.1 field.2.type)
      ↔ accepts codec.versionProperty strType
        ∧ ∀ name ∈ diff.addedFields,
            accepts name (pydanticType (diff.addedFieldInfo.getD name [])) := by
  have annotated : ∀ (fieldType : Py.Json) info, (addedField fieldType info).type = fieldType := by
    intro fieldType info
    unfold addedField
    split <;> rfl
  constructor
  · intro accepted
    constructor
    · have found : (mergedFields codec model diff).get? codec.versionProperty
          = some (versionField (VersionValue.str diff.target.id.version)) := by
        rw [get?_mergedFields]
        simp
      exact accepted _ (Py.Dict.get?_eq_some.mp found)
    · intro name added
      obtain ⟨own, absent⟩ := fresh name added
      have unset := Py.Dict.get?_eq_none.mpr absent
      have found : (mergedFields codec model diff).get? name
          = some (addedField (pydanticType (diff.addedFieldInfo.getD name []))
            (diff.addedFieldInfo.getD name [])) := by
        rw [get?_mergedFields]
        simp [own, unset, added]
      have passed := accepted _ (Py.Dict.get?_eq_some.mp found)
      rwa [annotated] at passed
  · intro given field member
    obtain ⟨name, field⟩ := field
    have found := Py.Dict.get?_eq_some.mpr member
    rw [get?_mergedFields, Option.or_eq_some_iff] at found
    rcases found with earlier | ⟨_, later⟩
    · by_cases own : name = codec.versionProperty
      · rw [if_pos own, Option.some.injEq] at earlier
        subst own earlier
        exact given.1
      · rw [if_neg own] at earlier
        by_cases gone : name ∈ diff.removedFields
        · rw [if_pos gone] at earlier
          cases earlier
        · rw [if_neg gone] at earlier
          exact isModel (name, field) (Py.Dict.get?_eq_some.mp earlier)
    · by_cases added : name ∈ diff.addedFields
      · rw [if_pos added, Option.some.injEq] at later
        subst later
        rw [annotated]
        exact given.2 name added
      · rw [if_neg added] at later
        cases later

/-- The listed fields can be those of a dataclass exactly if the version property and the added
fields have names for one and the added defaults are not mutable.
-/
theorem checks_listedFields_iff (isDataclass : IsDataclass identifier dataclass)
    : ((∀ field ∈ listedFields codec dataclass diff, isFieldName identifier field.1 = true)
        ∧ ∀ field ∈ listedFields codec dataclass diff, mutableType field.2.default = none)
      ↔ isFieldName identifier codec.versionProperty = true
        ∧ (∀ name ∈ diff.addedFields, isFieldName identifier name = true)
        ∧ ∀ name ∈ diff.addedFields,
            mutableType (addedField anyType (diff.addedFieldInfo.getD name [])).default
              = none := by
  constructor
  · intro given
    obtain ⟨named, hashable⟩ := given
    refine ⟨named _ (mem_listedFields.mpr (.inl ⟨rfl, rfl⟩)), fun name added => ?_,
      fun name added => ?_⟩
    · exact named _ (mem_listedFields.mpr (.inr (.inr ⟨added, rfl⟩)))
    · have passed := hashable _ (mem_listedFields.mpr (.inr (.inr ⟨added, rfl⟩)))
      rwa [default_addedField] at passed
  · intro given
    obtain ⟨versionNamed, named, hashable⟩ := given
    constructor
    · intro field member
      obtain ⟨name, field⟩ := field
      rcases mem_listedFields.mp member with ⟨rfl, _⟩ | ⟨found, _⟩ | ⟨added, _⟩
      · exact versionNamed
      · exact isDataclass.named name (Py.Dict.mem_keys.mpr ⟨field, found⟩)
      · exact named name added
    · intro field member
      obtain ⟨name, field⟩ := field
      rcases mem_listedFields.mp member with ⟨_, rfl⟩ | ⟨found, _⟩ | ⟨added, rfl⟩
      · rfl
      · exact isDataclass.hashable field (Py.Dict.mem_values.mpr ⟨name, found⟩)
      · rw [default_addedField]
        exact hashable name added

/-- Pydantic and the dataclass machinery build the same model from a diff, with the same fields,
the same ones required and the target version as the default of the version property, exactly if
each added field is new to the anchor and can be a field for both.
-/
theorem builders_agree_iff (creates : CreatesModels createModel accepts)
    {handles dataHandles : Py.Dict ModelRef ModelClass} {dataSource : VersionNode V}
    (found : handles.get? diff.source.modelref = some model)
    (dataFound : dataHandles.get? dataSource.modelref = some dataclass)
    (isModel : IsPydantic accepts model) (isDataclass : IsDataclass identifier dataclass)
    (described : SameFields model dataclass)
    : (∃ built made, buildModel createModel codec handles diff = .ok built
        ∧ buildDataclass identifier printable codec dataHandles { diff with source := dataSource }
          = .ok made
        ∧ SameFields built made
        ∧ HasVersion codec (VersionValue.str diff.target.id.version) built
        ∧ HasVersion codec (VersionValue.str diff.target.id.version) made)
      ↔ BuildsAlike identifier accepts codec diff dataclass := by
  have resolved : buildModel createModel codec handles diff
      = createModel (builtName model (VersionValue.str diff.target.id.version))
        (mergedFields codec model diff) := by
    simp only [buildModel, resolveHandle, found]
    rfl
  have dataResolved : buildDataclass identifier printable codec dataHandles
        { diff with source := dataSource }
      = makeDataclass identifier printable
        (builtName dataclass (VersionValue.str diff.target.id.version))
        (listedFields codec dataclass diff) := by
    simp only [buildDataclass, resolveHandle, dataFound]
    rfl
  rw [resolved, dataResolved]
  constructor
  · intro given
    obtain ⟨built, made, created, listed, _⟩ := given
    obtain ⟨names, nodup, defaults, _⟩ := makeDataclass_ok.mp listed
    have fresh := nodup_listedFields.mp nodup
    have modelFresh : ∀ name ∈ diff.addedFields,
        name ≠ codec.versionProperty ∧ name ∉ model.fields.keys := by
      intro name added
      exact ⟨(fresh name added).1, fun present => (fresh name added).2
        (described.mem_keys.mp present)⟩
    obtain ⟨versionNamed, named, hashable⟩ :=
      (checks_listedFields_iff isDataclass).mp ⟨names, defaults⟩
    obtain ⟨versionAccepted, accepted⟩ := (accepts_mergedFields_iff isModel modelFresh).mp
      (creates.refuses _ _ built created)
    exact { versionNamed, versionAccepted, fresh, named, accepted, hashable }
  · intro alike
    have modelFresh : ∀ name ∈ diff.addedFields,
        name ≠ codec.versionProperty ∧ name ∉ model.fields.keys := by
      intro name added
      exact ⟨(alike.fresh name added).1, fun present => (alike.fresh name added).2
        (described.mem_keys.mp present)⟩
    have nodup := nodup_listedFields.mpr alike.fresh
    obtain ⟨names, defaults⟩ := (checks_listedFields_iff isDataclass).mpr
      ⟨alike.versionNamed, alike.named, alike.hashable⟩
    obtain ⟨built, created, fields⟩ := creates.creates
      (builtName model (VersionValue.str diff.target.id.version)) (mergedFields codec model diff)
      ((accepts_mergedFields_iff isModel modelFresh).mpr ⟨alike.versionAccepted, alike.accepted⟩)
    refine ⟨built, _, created, makeDataclass_ok.mpr ⟨names, nodup, defaults, rfl⟩, ?_, ?_, ?_⟩
    · intro name
      rw [fields, get?_mergedFields, get?_listedFields nodup]
      apply map_or_congr
      · by_cases own : name = codec.versionProperty
        · rw [if_pos own, if_pos own]
        · by_cases gone : name ∈ diff.removedFields
          · rw [if_neg own, if_neg own, if_pos gone, if_pos gone]
          · rw [if_neg own, if_neg own, if_neg gone, if_neg gone]
            exact described name
      · by_cases added : name ∈ diff.addedFields
        · rw [if_pos added, if_pos added]
          exact congrArg some ((isRequired_addedField _ _).trans (isRequired_addedField _ _).symm)
        · rw [if_neg added, if_neg added]
    · rw [HasVersion, fields, get?_mergedFields]
      simp [versionField]
    · rw [HasVersion, get?_listedFields nodup]
      simp [versionField]

end Builders

-----------------------------------------------------------------------------------------
-- Overwritten keys
-----------------------------------------------------------------------------------------

/-- Names of letters, digits and underscores that do not start with a digit. -/
def plainIdentifier (name : String) : Bool :=
  match name.toList with
  | [] => false
  | first :: rest =>
      (first.isAlpha || first == '_')
      && rest.all (fun character => character.isAlphanum || character == '_')

/-- A provider that accepts names without a leading underscore. -/
def createPlain (name : String) (fields : Py.Dict String ClassField)
    : Except (Error Release) ModelClass :=
  if fields.keys.all (fun key => key.toList.head? != some '_') then .ok ⟨name, fields⟩
  else .error (.raised "NameError")

/-- The class of the first release of `User`, with one text field. -/
def userClass : ModelClass :=
  ⟨"User", Py.Dict.ofItems [("version", ⟨strType, .value (.str "1.0.0")⟩),
    ("kind", ⟨strType, .value (.str "User")⟩), ("name", ⟨strType, .required⟩)]⟩

def userHandles : Py.Dict ModelRef ModelClass := Py.Dict.ofItems [(⟨"app", "User"⟩, userClass)]

/-- What callable discovery reports of a migration that writes one key. -/
def writtenKey (key : String) : Diff Release where
  source := userNode 1 "User"
  target := .versioned (.versionNode (userNode 2 "User"))
  fields := (∅ : Py.Dict _ _).set key ⟨.added, []⟩
  origin := .migration

theorem createPlain_creates
    : CreatesModels createPlain (fun name _ => name.toList.head? ≠ some '_') where
  creates := by
    intro name fields accepted
    refine ⟨⟨name, fields⟩, ?_, rfl⟩
    rw [createPlain, if_pos]
    rw [List.all_eq_true]
    intro key member
    obtain ⟨field, inside, rfl⟩ := List.mem_map.mp member
    simpa using accepted field inside
  refuses := by
    intro name fields built created field member
    by_cases passed : fields.keys.all (fun key => key.toList.head? != some '_') = true
    · have each := List.all_eq_true.mp passed field.1 (List.mem_map_of_mem member)
      simpa using each
    · rw [createPlain, if_neg passed] at created
      cases created

theorem userClass_isPydantic
    : IsPydantic (fun name _ => name.toList.head? ≠ some '_') userClass := by
  unfold IsPydantic
  decide +kernel

theorem userClass_isDataclass : IsDataclass plainIdentifier userClass where
  named := by decide +kernel
  hashable := by decide +kernel

/-- Witness: a migration that writes a key which the anchor does not have. -/
theorem builders_agree_email
    : ∃ built made, buildModel createPlain plainCodec userHandles (writtenKey "email") = .ok built
        ∧ buildDataclass plainIdentifier (fun _ => true) plainCodec userHandles
            { writtenKey "email" with source := userNode 1 "User" } = .ok made
        ∧ SameFields built made
        ∧ HasVersion plainCodec (VersionValue.str (userId 2).version) built
        ∧ HasVersion plainCodec (VersionValue.str (userId 2).version) made := by
  have found : userHandles.get? (writtenKey "email").source.modelref = some userClass := by
    decide +kernel
  refine (builders_agree_iff createPlain_creates found found userClass_isPydantic
    userClass_isDataclass (fun _ => rfl)).mpr ?_
  have added : (writtenKey "email").addedFields = ["email"] := by decide +kernel
  constructor
  · decide +kernel
  · decide +kernel
  · rw [added]
    decide +kernel
  · rw [added]
    decide +kernel
  · rw [added]
    decide +kernel
  · rw [added]
    decide +kernel

/-- Counterexample: the key which the migration writes is a field of the anchor. Pydantic skips it,
and the dataclass gets it twice.
-/
theorem buildDataclass_repeats_name
    : IsPydantic (fun name _ => name.toList.head? ≠ some '_') userClass
      ∧ IsDataclass plainIdentifier userClass
      ∧ (∃ built, buildModel createPlain plainCodec userHandles (writtenKey "name") = .ok built)
      ∧ buildDataclass plainIdentifier (fun _ => true) plainCodec userHandles (writtenKey "name")
        = .error (.typeError "Field name duplicated: 'name'") := by
  refine ⟨userClass_isPydantic, userClass_isDataclass, ?_, ?_⟩
  · exact ⟨_, rfl⟩
  · rfl

end Pyverge
