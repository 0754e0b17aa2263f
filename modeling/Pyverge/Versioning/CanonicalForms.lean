import Pyverge.Py.CanonicalJson
import Pyverge.Py.Repr
import Pyverge.Versioning.Identity

/-! Canonical forms of nodes, with all that they hold, and how they are read back.
Here types are trees and references carry metadata, which the catalog does not look into. A mapping
inside a type is the list of its items; defaults, literal values and metadata are JSON values.
-/

namespace Pyverge.Identity

open Py (Json)

variable {V : Type}

-----------------------------------------------------------------------------------------
-- Types, fields and models
-----------------------------------------------------------------------------------------

inductive TypeKind where
  | any | null | boolean | integer | number | string | bytes
  | array | object | map | union | literal | model | unknown
  deriving DecidableEq

def TypeKind.value : TypeKind → String
  | any => "any"
  | null => "null"
  | boolean => "boolean"
  | integer => "integer"
  | number => "number"
  | string => "string"
  | bytes => "bytes"
  | array => "array"
  | object => "object"
  | map => "map"
  | union => "union"
  | literal => "literal"
  | model => "model"
  | unknown => "unknown"

def TypeKind.all : List TypeKind :=
  [any, null, boolean, integer, number, string, bytes, array, object, map, union, literal, model,
    unknown]

/-- `TypeKind(text)` -/
def TypeKind.ofValue (value : Json) : Except (Error V) TypeKind :=
  match all.find? (fun kind => .str kind.value = value) with
  | some kind => .ok kind
  | none => .error (.raised "ValueError")

/-- A reference to a model; `==` leaves the metadata out. -/
structure ModelRef where
  providerId : String
  entityId : String
  metadata : Py.Dict String Json := ∅
  deriving DecidableEq

structure TypeRef where
  kind : TypeKind
  item : Option TypeRef := none
  args : List TypeRef := []
  fields : Option (List (String × TypeRef)) := none
  ref : Option ModelRef := none
  version : Option String := none
  values : List Json := []
  name : Option String := none

/-- A field; `==` leaves the annotation out. A field without default differs from one with the
default `None`.
-/
structure FieldDescriptor (V : Type) where
  name : String
  typeRef : TypeRef
  required : Bool := false
  default : Option Json := none
  references : List (NodeId V) := []
  annotation : Json := .null

structure ModelDescriptor (V : Type) where
  ref : ModelRef
  fields : Py.Dict String (FieldDescriptor V)

/-- The references of all fields, each once; the list fixes one iteration order of the set. -/
def ModelDescriptor.references [DecidableEq V] (descriptor : ModelDescriptor V) : List (NodeId V) :=
  (descriptor.fields.values.flatMap FieldDescriptor.references).dedup

structure VersionNode (V : Type) where
  id : NodeId V
  ref : ModelRef
  descriptor : ModelDescriptor V

-----------------------------------------------------------------------------------------
-- Writing
-----------------------------------------------------------------------------------------

/-- A member that is written only where there is a value. -/
def entry (key : String) (value : Option Json) : List (String × Json) :=
  (value.map (fun value => (key, value))).toList

/-- A list that is written only where it has items. -/
def nonEmpty (items : List Json) : Option Json := if items.isEmpty then none else some (.arr items)

def ModelRef.toCanonical (ref : ModelRef) : Json :=
  .obj ([("provider_id", .str ref.providerId), ("entity_id", .str ref.entityId)]
    ++ entry "metadata"
      (if ref.metadata.items.isEmpty then none else some (.obj ref.metadata.items)))

mutual
def TypeRef.toCanonical : TypeRef → Json
  | ⟨kind, item, args, fields, ref, version, values, name⟩ =>
      .obj ([("kind", .str kind.value)]
        ++ entry "name" (name.map .str)
        ++ entry "item" (TypeRef.itemForm item)
        ++ entry "args" (nonEmpty (TypeRef.argForms args))
        ++ entry "fields" (TypeRef.fieldsForm fields)
        ++ entry "ref" (ref.map ModelRef.toCanonical)
        ++ entry "version" (version.map .str)
        ++ entry "values" (nonEmpty values))

def TypeRef.itemForm : Option TypeRef → Option Json
  | none => none
  | some item => some item.toCanonical

def TypeRef.argForms : List TypeRef → List Json
  | [] => []
  | arg :: rest => arg.toCanonical :: argForms rest

def TypeRef.fieldsForm : Option (List (String × TypeRef)) → Option Json
  | none => none
  | some fields => some (.obj (Json.sortMembers (TypeRef.fieldForms fields)))

def TypeRef.fieldForms : List (String × TypeRef) → List (String × Json)
  | [] => []
  | (key, value) :: rest => (key, value.toCanonical) :: fieldForms rest
end

section Writing

variable [VersionValue V]

def referenceMembers (reference : NodeId V) : List (String × Json) :=
  [("namespace", .str reference.nameSpace), ("kind", .str reference.kind),
    ("version", .str (VersionValue.str reference.version))]

def referenceForm (reference : NodeId V) : Json := .obj (referenceMembers reference)

def FieldDescriptor.toCanonical (field : FieldDescriptor V) : Json :=
  .obj ([("name", .str field.name), ("required", .bool field.required),
      ("type_ref", field.typeRef.toCanonical)]
    ++ entry "references" (nonEmpty (field.references.map referenceForm))
    ++ entry "default" field.default)

/-- The order of `(namespace, kind, str(version))`. -/
def referenceOrder (left right : NodeId V) : Bool :=
  (compareLex (compareOn NodeId.nameSpace) (compareLex (compareOn NodeId.kind)
    (compareOn (fun reference => VersionValue.str reference.version))) left right).isLE

def ModelDescriptor.members [DecidableEq V] (descriptor : ModelDescriptor V)
    : List (String × Json) :=
  [
    ("ref", descriptor.ref.toCanonical),
    ("fields", .obj (Json.sortMembers (descriptor.fields.items.map
      (fun field => (field.1, field.2.toCanonical))))),
    ("references", .arr ((descriptor.references.insertionSort
      (fun left right => referenceOrder left right)).map referenceForm))]

def ModelDescriptor.toCanonical [DecidableEq V] (descriptor : ModelDescriptor V) : Json :=
  .obj descriptor.members

def VersionNode.toCanonical [DecidableEq V] (node : VersionNode V) : Json :=
  .obj [
    ("namespace", .str node.id.nameSpace),
    ("kind", .str node.id.kind),
    ("version", .str (VersionValue.str node.id.version)),
    ("ref", node.ref.toCanonical),
    ("model", node.descriptor.toCanonical)]

end Writing

-----------------------------------------------------------------------------------------
-- Reading
-----------------------------------------------------------------------------------------

section Reading

variable (printable : Char → Bool) (parseVersion : String → Except (Error V) V)

/-- `value.get(key)` of a mapping -/
def getKey (value : Json) (key : String) : Except (Error V) (Option Json) :=
  match value with
  | .obj members => .ok (Json.getMember members key)
  | _ => .error (.raised "AttributeError")

/-- `value.get(key)`, where a member that is `None` counts as absent. -/
def getSome (value : Json) (key : String) : Except (Error V) (Option Json) := do
  match ← getKey value key with
  | some .null => return none
  | other => return other

/-- `value[key]` of a mapping -/
def getItem (value : Json) (key : String) : Except (Error V) Json :=
  match value with
  | .obj members => (Json.getMember members key).elim (.error (.raised "KeyError")) .ok
  | _ => .error (.raised "TypeError")

/-- What iterating a value yields. -/
def iterate : Json → Except (Error V) (List Json)
  | .arr items => .ok items
  | .str text => .ok (text.toList.map (fun letter => .str (String.singleton letter)))
  | .obj members => .ok (members.map (fun member => .str member.1))
  | _ => .error (.raised "TypeError")

/-- `value.items()` -/
def itemsOf : Json → Except (Error V) (List (String × Json))
  | .obj members => .ok members
  | _ => .error (.raised "AttributeError")

/-- `dict(value)` of a mapping -/
def dictOf : Json → Except (Error V) (Py.Dict String Json)
  | .obj members => .ok (.ofItems members)
  | _ => .error (.raised "TypeError")

def ModelRef.fromCanonical (value : Json) : Except (Error V) ModelRef := do
  let provider := (← getKey value "provider_id").or (← getKey value "provider")
  let entity := (← getKey value "entity_id").or (← getKey value "model_id")
  match provider.getD .null, entity.getD .null with
  | .null, _ | _, .null => .error (.valueError "ModelRef requires provider_id and entity_id")
  | provider, entity =>
      return {
        providerId := provider.pyStr printable
        entityId := entity.pyStr printable
        metadata := ← dictOf ((← getKey value "metadata").getD (.obj []))
      }

mutual
/-- `TypeRef.from_canonical` -/
def TypeRef.fromCanonical : Json → Except (Error V) TypeRef
  | .obj members => do
      return {
        kind := ← TypeKind.ofValue (← getItem (.obj members) "kind")
        name := (← getSome (.obj members) "name").map (Json.pyStr printable)
        item := ← TypeRef.itemAt "item" members
        args := ← TypeRef.argsAt "args" members
        fields := ← TypeRef.fieldsAt "fields" members
        ref := ← (← getSome (.obj members) "ref").mapM (ModelRef.fromCanonical printable)
        version := (← getSome (.obj members) "version").map (Json.pyStr printable)
        values := ← iterate ((← getKey (.obj members) "values").getD (.arr []))
      }
  | _ => .error (.raised "AttributeError")

/-- The type under a key, absent also where it is `None`. -/
def TypeRef.itemAt (key : String) : List (String × Json) → Except (Error V) (Option TypeRef)
  | [] => .ok none
  | (name, value) :: rest =>
      if name = key then
        if value = .null then .ok none else (TypeRef.fromCanonical value).map some
      else TypeRef.itemAt key rest

/-- The types listed under a key -/
def TypeRef.argsAt (key : String) : List (String × Json) → Except (Error V) (List TypeRef)
  | [] => .ok []
  | (name, value) :: rest =>
      if name = key then TypeRef.argsOf value else TypeRef.argsAt key rest

/-- What can be iterated and is no list yields texts, which are no types. -/
def TypeRef.argsOf : Json → Except (Error V) (List TypeRef)
  | .arr items => TypeRef.eachOf items
  | other => do
      if (← iterate other) = [] then return []
      throw (.raised "AttributeError")

/-- The types mapped under a key -/
def TypeRef.fieldsAt (key : String)
    : List (String × Json) → Except (Error V) (Option (List (String × TypeRef)))
  | [] => .ok none
  | (name, value) :: rest =>
      if name = key then TypeRef.fieldsOf value else TypeRef.fieldsAt key rest

/-- A mapping of types, absent also where it is `None`. -/
def TypeRef.fieldsOf : Json → Except (Error V) (Option (List (String × TypeRef)))
  | .null => .ok none
  | .obj members => (TypeRef.valuesOf members).map some
  | _ => .error (.raised "AttributeError")

def TypeRef.eachOf : List Json → Except (Error V) (List TypeRef)
  | [] => .ok []
  | item :: rest => return (← TypeRef.fromCanonical item) :: (← TypeRef.eachOf rest)

def TypeRef.valuesOf : List (String × Json) → Except (Error V) (List (String × TypeRef))
  | [] => .ok []
  | (key, value) :: rest =>
      return (key, ← TypeRef.fromCanonical value) :: (← TypeRef.valuesOf rest)
end

def referenceFrom (item : Json) : Except (Error V) (NodeId V) := do
  let nameSpace := (← getItem item "namespace").pyStr printable
  let kind := (← getItem item "kind").pyStr printable
  let version ← parseVersion ((← getItem item "version").pyStr printable)
  if named : ¬ nameSpace = "" then return { nameSpace, kind, version, named }
  throw (.valueError "NodeId namespace must be non-empty")

def FieldDescriptor.fromCanonical (value : Json) : Except (Error V) (FieldDescriptor V) := do
  let listed ← iterate ((← getKey value "references").getD (.arr []))
  let references ← listed.mapM (referenceFrom printable parseVersion)
  let default ← getKey value "default"
  return {
    name := (← getItem value "name").pyStr printable
    typeRef := ← TypeRef.fromCanonical printable (← getItem value "type_ref")
    required := ((← getKey value "required").getD (.bool false)).truthy
    default, references
  }

def ModelDescriptor.fromCanonical (value : Json) : Except (Error V) (ModelDescriptor V) := do
  let ref ← ModelRef.fromCanonical printable (← getItem value "ref")
  let members ← itemsOf ((← getKey value "fields").getD (.obj []))
  let fields ← members.mapM (fun member =>
    return (member.1, ← FieldDescriptor.fromCanonical printable parseVersion member.2))
  return { ref, fields := .ofItems fields }

def VersionNode.fromCanonical (value : Json) : Except (Error V) (VersionNode V) := do
  let descriptor ← ModelDescriptor.fromCanonical printable parseVersion (← getItem value "model")
  let ref ← match ← getSome value "ref" with
    | some given => ModelRef.fromCanonical printable given
    | none => pure descriptor.ref
  let id ← referenceFrom printable parseVersion value
  return { id, ref, descriptor }

end Reading

-----------------------------------------------------------------------------------------
-- Equality
-----------------------------------------------------------------------------------------

/-- `==` of JSON values, which does not see the order of members. -/
def sameValue (left right : Json) : Bool := left.canonical = right.canonical

def ModelRef.eq (left right : ModelRef) : Bool :=
  left.providerId = right.providerId && left.entityId = right.entityId

/-- `==` of values that may be absent -/
def optionEq {α : Type} (eq : α → α → Bool) : Option α → Option α → Bool
  | none, none => true
  | some left, some right => eq left right
  | none, some _ | some _, none => false

mutual
/-- `TypeRef.__eq__` -/
def TypeRef.eq : TypeRef → TypeRef → Bool
  | ⟨kind, item, args, fields, ref, version, values, name⟩, other =>
      kind = other.kind && TypeRef.itemEq item other.item && TypeRef.argsEq args other.args
      && TypeRef.fieldsEq fields other.fields && optionEq ModelRef.eq ref other.ref
      && version = other.version && values.map Json.canonical = other.values.map Json.canonical
      && name = other.name
termination_by structural type => type

def TypeRef.itemEq : Option TypeRef → Option TypeRef → Bool
  | none, none => true
  | some left, some right => left.eq right
  | none, some _ | some _, none => false
termination_by structural item => item

def TypeRef.argsEq : List TypeRef → List TypeRef → Bool
  | [], [] => true
  | left :: rest, right :: others => left.eq right && TypeRef.argsEq rest others
  | [], _ :: _ | _ :: _, [] => false
termination_by structural args => args

/-- Mappings are equal if they have as many items and each item of one is in the other. -/
def TypeRef.fieldsEq : Option (List (String × TypeRef)) → Option (List (String × TypeRef)) → Bool
  | none, none => true
  | some left, some right => left.length = right.length && TypeRef.fieldsWithin left right
  | none, some _ | some _, none => false
termination_by structural fields => fields

def TypeRef.fieldsWithin : List (String × TypeRef) → List (String × TypeRef) → Bool
  | [], _ => true
  | (key, value) :: rest, others =>
      others.any (fun other => other.1 = key && value.eq other.2)
      && TypeRef.fieldsWithin rest others
termination_by structural fields => fields
end

def FieldDescriptor.eq [DecidableEq V] (left right : FieldDescriptor V) : Bool :=
  left.name = right.name && left.typeRef.eq right.typeRef && left.required = right.required
  && optionEq sameValue left.default right.default && left.references = right.references

def ModelDescriptor.eq [DecidableEq V] (left right : ModelDescriptor V) : Bool :=
  left.ref.eq right.ref && left.fields.items.length = right.fields.items.length
  && left.fields.items.all (fun field =>
    (right.fields.get? field.1).any (fun other => field.2.eq other))

end Pyverge.Identity
