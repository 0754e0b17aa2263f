import Pyverge.Reflection.FieldChanges
import Pyverge.Registry.Operations

/-! Diffs between the schemas of two nodes, and the reflector that serves a registry.
A field that both schemas have is modified if its type, its required flag or its default differ.
-/

namespace Pyverge

variable {V F : Type}

-----------------------------------------------------------------------------------------
-- Changes of a single field
-----------------------------------------------------------------------------------------

section Fields

variable (equal : Py.Json → Py.Json → Bool)

/-- Whether two defaults differ, either of which may be absent. -/
def defaultsDiffer : Option Py.Json → Option Py.Json → Bool
  | none, none => false
  | some left, some right => !equal left right
  | none, some _ | some _, none => true

/-- A change from one value to another; an absent default is shown as null. -/
def fromTo (before after : Py.Json) : Py.Json := .obj [("from", before), ("to", after)]

/-- The changes of a field that both schemas have. -/
def commonChanges (source target : FieldDescriptor V) : List (String × Py.Json) :=
  (if !equal source.typeRef target.typeRef then
    [("type_changed", fromTo source.typeRef target.typeRef)] else [])
  ++ (if source.required ≠ target.required then
    [("required_changed", fromTo (.bool source.required) (.bool target.required))] else [])
  ++ (if defaultsDiffer equal source.default target.default then
    [("default_changed", fromTo (source.default.getD .null) (target.default.getD .null))] else [])

def addedDetails (field : FieldDescriptor V) : List (String × Py.Json) :=
  [("type", field.annotation), ("type_ref", field.typeRef), ("required", .bool field.required),
    ("default", field.default.getD .null)]

/-- The fields in the order in which `_diff_fields` sets them: added, removed, then common. -/
def diffItems (source target : ModelDescriptor V) : List (String × FieldChange) :=
  let sorted (names : List String) := names.insertionSort (fun left right => left ≤ right)
  (sorted (target.fields.keys.filter (· ∉ source.fields.keys))).filterMap
    (fun name => (target.fields.get? name).map (fun field =>
      (name, FieldChange.mk .added (addedDetails field))))
  ++ (sorted (source.fields.keys.filter (· ∉ target.fields.keys))).map
    (fun name => (name, FieldChange.mk .removed []))
  ++ (sorted (source.fields.keys.filter (· ∈ target.fields.keys))).filterMap
    (fun name => do
      let changes := commonChanges equal (← source.fields.get? name) (← target.fields.get? name)
      return (name, FieldChange.mk (if changes = [] then .unchanged else .modified) changes))

/-- `_diff_fields` -/
def diffFields (source target : ModelDescriptor V) : Py.Dict String FieldChange :=
  Py.Dict.ofItems (diffItems equal source target)

/-- The diff of two hydrated nodes of one kind and strategy. -/
def schemaDiff (source target : VersionNode V) : Diff V :=
  ⟨source, .versioned (.versionNode target), diffFields equal source.descriptor target.descriptor,
    .schema⟩

variable [VersionValue V]

/-- `_build_diff`; a target without a descriptor has no fields to compare. -/
def buildDiff (source : VersionNode V) (target : Comparable V) : Except (Error V) (Diff V) :=
  match target with
  | .versioned (.versionNode node) =>
      if source.id.strategy ≠ node.id.strategy then
        .error (.valueError ("Cannot create diff across strategies: "
          ++ source.id.strategy ++ " != " ++ node.id.strategy))
      else if source.id.kind ≠ node.id.kind then
        .error (.valueError ("Cannot create diff across kinds: "
          ++ source.id.kind ++ " != " ++ node.id.kind))
      else .ok (schemaDiff equal source node)
  | .nodeId _ | .versioned (.versionKey _) => .ok ⟨source, target, ∅, .schema⟩

/-- The reflector over a discovery, which reads field changes off a migration, and over a model
materializer.
-/
def reflector (discover : MigrationFunc F → Except (Error V) (Py.Dict String FieldChange))
    (materialize : Diff V → Except (Error V) (VersionNode V)) : ReflectionPort V F where
  diff source target migration :=
    match migration with
    | some func => (discover func).map (fun fields => ⟨source, target, fields, .migration⟩)
    | none => buildDiff equal source target
  reflect := materialize

end Fields

-----------------------------------------------------------------------------------------
-- What a schema diff holds
-----------------------------------------------------------------------------------------

variable {equal : Py.Json → Py.Json → Bool} {source target : ModelDescriptor V} {name : String}

/-- What a schema diff says of a field that one or both schemas have. -/
def fieldChange? (equal : Py.Json → Py.Json → Bool)
    : Option (FieldDescriptor V) → Option (FieldDescriptor V) → Option FieldChange
  | none, none => none
  | none, some field => some ⟨.added, addedDetails field⟩
  | some _, none => some ⟨.removed, []⟩
  | some before, some after =>
      some ⟨if commonChanges equal before after = [] then .unchanged else .modified,
        commonChanges equal before after⟩

/-- The three groups of items part the names by which of the schemas has them. -/
theorem mem_diffItems {change : FieldChange}
    : (name, change) ∈ diffItems equal source target
      ↔ fieldChange? equal (source.fields.get? name) (target.fields.get? name) = some change := by
  simp only [diffItems, List.mem_append, List.mem_filterMap, List.mem_map,
    List.mem_insertionSort, List.mem_filter, decide_eq_true_eq]
  cases before : source.fields.get? name <;> cases after : target.fields.get? name
  all_goals
    simp [fieldChange?, Py.Dict.mem_keys]
    grind

/-- A schema diff knows the fields of both schemas, each by what the two say of it. -/
theorem get?_diffFields
    : (diffFields equal source target).get? name
      = fieldChange? equal (source.fields.get? name) (target.fields.get? name) := by
  refine Option.ext (fun change => ?_)
  rw [diffFields, Py.Dict.get?_ofItems]
  · exact mem_diffItems
  · intro left inLeft right inRight same
    obtain ⟨first, change⟩ := left
    obtain ⟨second, other⟩ := right
    obtain rfl : first = second := same
    obtain rfl := Option.some.inj ((mem_diffItems.mp inLeft).symm.trans (mem_diffItems.mp inRight))
    rfl

end Pyverge
