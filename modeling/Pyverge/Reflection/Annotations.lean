import Pyverge.Reflection.Models
import Pyverge.Versioning.CanonicalForms
import Pyverge.Py.Effects

/-! Model classes whose annotations mention other model classes, and how an adapter reads them.
A class is an object with an identity of its own; two of them may have one module and name. Calls
that lead from class to class have a bounded depth, as the interpreter bounds its stack.
-/

namespace Pyverge.Identity

open Py (Json)

variable {V C : Type}

namespace TypeRef

def any : TypeRef := { kind := .any }

def null : TypeRef := { kind := .null }

def primitive (kind : TypeKind) : TypeRef := { kind }

def array (item : TypeRef) : TypeRef := { kind := .array, item }

def mapping (key value : TypeRef) : TypeRef := { kind := .map, args := [key, value] }

def union (args : List TypeRef) : TypeRef := { kind := .union, args }

def literal (values : List Json) : TypeRef := { kind := .literal, values }

def model (ref : ModelRef) (version : Option String) : TypeRef := { kind := .model, ref, version }

def unknown (name : String) : TypeRef := { kind := .unknown, name }

end TypeRef

-----------------------------------------------------------------------------------------
-- Annotations
-----------------------------------------------------------------------------------------

/-- The keys of `_SIMPLE_TYPES`. -/
inductive SimpleType where
  | bool | int | float | str | bytes
  deriving DecidableEq

/-- `_SIMPLE_TYPES` -/
def SimpleType.kind : SimpleType → TypeKind
  | bool => .boolean
  | int => .integer
  | float => .number
  | str => .string
  | bytes => .bytes

/-- The origins of generic types that are told apart; `collection` is any of set, frozenset,
Sequence and Iterable.
-/
inductive Origin where
  | union | tuple | list | collection | mapping | other
  deriving DecidableEq

/-- An annotation over the model classes `C`. Generic types without arguments are those of `typing`,
as `typing.List`; metadata and the parameters of a callable are seen by one provider only.
-/
inductive AnnotationExpr (C : Type) where
  | none
  | any
  | simple (type : SimpleType)
  | model (handle : C)
  | type (name : String)
  | ellipsis
  | other (text : String)
  | literal (values : List Json)
  | annotated (inner : AnnotationExpr C) (metadata : List (AnnotationExpr C))
  | callable (text : String) (parameters : List (AnnotationExpr C)) (result : AnnotationExpr C)
  | generic (origin : Origin) (text : String) (args : List (AnnotationExpr C))

/-- The name of an unknown type: of a class its qualified name, else the printed annotation. -/
def AnnotationExpr.text : AnnotationExpr C → String
  | .type text | .other text | .callable text _ _ | .generic _ text _ => text
  | .ellipsis => "Ellipsis"
  | .none | .any | .simple _ | .model _ | .literal _ | .annotated _ _ => ""

/-- Pydantic models go through `__args__`, dataclasses through `get_args`. -/
inductive Provider where
  | pydantic | dataclass
  deriving DecidableEq

def Provider.id : Provider → String
  | pydantic => "pydantic"
  | dataclass => "dataclass"

mutual
/-- `resolve_model`: the first model class of an annotation. -/
def resolveModel (provider : Provider) : AnnotationExpr C → Option C
  | .model handle => some handle
  | .annotated inner metadata =>
      match provider with
      | .pydantic => resolveModel provider inner
      | .dataclass => (resolveModel provider inner).or (resolveFirst provider metadata)
  | .callable _ parameters result =>
      match provider with
      | .pydantic => (resolveFirst provider parameters).or (resolveModel provider result)
      | .dataclass => resolveModel provider result
  | .generic .list _ (item :: _) => resolveModel provider item
  | .generic _ _ args => resolveFirst provider args
  | .none | .any | .simple _ | .type _ | .ellipsis | .other _ | .literal _ => none

def resolveFirst (provider : Provider) : List (AnnotationExpr C) → Option C
  | [] => none
  | arg :: rest => (resolveModel provider arg).or (resolveFirst provider rest)
end

mutual
/-- `_iter_models`: all model classes of an annotation. -/
def iterModels (provider : Provider) : AnnotationExpr C → List C
  | .model handle => [handle]
  | .annotated inner metadata =>
      match provider with
      | .pydantic => iterModels provider inner
      | .dataclass => iterModels provider inner ++ iterEach provider metadata
  | .callable _ parameters result =>
      match provider with
      | .pydantic => iterEach provider parameters ++ iterModels provider result
      | .dataclass => iterModels provider result
  | .generic _ _ args => iterEach provider args
  | .none | .any | .simple _ | .type _ | .ellipsis | .other _ | .literal _ => []

def iterEach (provider : Provider) : List (AnnotationExpr C) → List C
  | [] => []
  | arg :: rest => iterModels provider arg ++ iterEach provider rest
end

def recursionError : Error V := .raised "RecursionError"

def indexError : Error V := .raised "IndexError"

/-- Programs over the handles that a runtime remembers. -/
abbrev Reading (V C α : Type) := EStateM (Error V) (Py.Dict ModelRef C) α

section TypeRefs

variable (resolve : AnnotationExpr C → Option C) (modelRef : C → Reading V C ModelRef)
  (version : C → Reading V C String)

/-- The end of `annotation_type_ref`, for what is no type it knows. -/
def resolvedTypeRef (declared : AnnotationExpr C) : Reading V C TypeRef :=
  match resolve declared with
  | some handle => do
      let ref ← modelRef handle
      let version ← version handle
      return .model ref (if version = "" then none else some version)
  | none => return .unknown declared.text

mutual
def annotationTypeRef : AnnotationExpr C → Reading V C TypeRef
  | .none => return .null
  | .any => return .any
  | .simple type => return .primitive type.kind
  | .annotated inner _ => annotationTypeRef inner
  | .literal values => return .literal values
  | .generic .union _ args => return .union (← argTypeRefs args)
  | .generic .tuple _ [item, .ellipsis] => return .array (← annotationTypeRef item)
  | .generic .tuple _ args => return .array (.union (← argTypeRefs args))
  | .generic .list _ (item :: _) => return .array (← annotationTypeRef item)
  | .generic .collection _ (item :: _) => return .array (← annotationTypeRef item)
  | .generic .mapping _ (key :: value :: _) =>
      return .mapping (← annotationTypeRef key) (← annotationTypeRef value)
  | .generic .mapping _ [key] => do
      let _ ← annotationTypeRef key
      throw indexError
  | .generic .list _ [] => throw indexError
  | .generic .collection _ [] => throw indexError
  | .generic .mapping _ [] => throw indexError
  | .generic .other text args =>
      resolvedTypeRef resolve modelRef version (.generic .other text args)
  | .callable text parameters result =>
      resolvedTypeRef resolve modelRef version (.callable text parameters result)
  | .model handle => resolvedTypeRef resolve modelRef version (.model handle)
  | .type name => resolvedTypeRef resolve modelRef version (.type name)
  | .ellipsis => resolvedTypeRef resolve modelRef version .ellipsis
  | .other text => resolvedTypeRef resolve modelRef version (.other text)

def argTypeRefs : List (AnnotationExpr C) → Reading V C (List TypeRef)
  | [] => return []
  | arg :: rest => return (← annotationTypeRef arg) :: (← argTypeRefs rest)
end

end TypeRefs

-----------------------------------------------------------------------------------------
-- Adapters
-----------------------------------------------------------------------------------------

structure Field (C : Type) where
  annotation : AnnotationExpr C
  default : FieldDefault

/-- An adapter and the classes it is given. `produced` is what a default factory returns. -/
structure Adapter (C : Type) where
  provider : Provider
  codec : ModelCodec
  printable : Char → Bool
  fields : C → Py.Dict String (Field C)
  modelId : C → String
  produced : String → Json

/-- What `_collect_references` has found, and the classes it has been at. -/
structure Collected (V C : Type) where
  found : List (NodeId V) := []
  seen : List C := []

/-- The two methods that call each other on nested classes. -/
structure Calls (V C : Type) where
  describeFields : C → Reading V C (Py.Dict String (FieldDescriptor V))
  collectReferences : C → Collected V C → Reading V C (Collected V C)

def Calls.references (calls : Calls V C) (model : C) : Reading V C (List (NodeId V)) := do
  let collected ← calls.collectReferences model {}
  return collected.found

/-- The errors of an `except (TypeError, ValueError)` clause. -/
def isTypeOrValueError : Error V → Bool
  | .typeError _ | .valueError _ => true
  | _ => false

namespace Adapter

variable (adapter : Adapter C)

def ref (handle : C) : ModelRef := ⟨adapter.provider.id, adapter.modelId handle, ∅⟩

/-- `PythonModelRuntime.remember` -/
def remember (handle : C) : Reading V C ModelRef := do
  modify (fun handles => handles.setDefault (adapter.ref handle) handle)
  return adapter.ref handle

/-- The encoded default of a field. Only dataclasses call the factory. -/
def encoded : FieldDefault → Option Json
  | .required => none
  | .value given => some given.canonical
  | .factory name =>
      match adapter.provider with
      | .pydantic => none
      | .dataclass => some (adapter.produced name).canonical

/-- `ModelCodec._default` -/
def defaultText (default : Option Json) : String :=
  default.elim "" (Json.pyStr adapter.printable)

def codecText (fields : Py.Dict String (FieldDescriptor V)) (property : String) : String :=
  adapter.defaultText ((fields.get? property).bind FieldDescriptor.default)

def codecKind (fields : Py.Dict String (FieldDescriptor V)) : String :=
  adapter.codecText fields adapter.codec.kindProperty

def codecVersion (fields : Py.Dict String (FieldDescriptor V)) : String :=
  adapter.codecText fields adapter.codec.versionProperty

/-- `NodeId` with the namespace of the codec -/
def nodeId (kind : String) (version : V) : NodeId V :=
  ⟨adapter.codec.nameSpace, kind, version, adapter.codec.named⟩

/-- `NodeId.parse` with the namespace of the codec -/
def parseId [VersionValue V] (kind version : String) : Except (Error V) (NodeId V) :=
  match VersionValue.parse version with
  | some parsed => .ok ⟨adapter.codec.nameSpace, kind, parsed, adapter.codec.named⟩
  | none => .error (.valueError ("Cannot parse version " ++ Py.reprStr adapter.printable version
      ++ ". Expected semver (e.g. '1.0.0') or ISO date (e.g. '2024-06-01')."))

section Reading

variable [VersionValue V] [DecidableEq V] [DecidableEq C]

def typeRef (calls : Calls V C) (declared : AnnotationExpr C) : Reading V C TypeRef :=
  annotationTypeRef (resolveModel adapter.provider) adapter.remember
    (fun handle => return adapter.codecVersion (← calls.describeFields handle)) declared

/-- The version of a nested class, absent where reading it raises a type or value error. Dataclasses
describe the class once more.
-/
def nestedVersion (calls : Calls V C) (nested : C) (fields : Py.Dict String (FieldDescriptor V))
    : Reading V C (Option String) :=
  match adapter.provider with
  | .pydantic => return some (adapter.codecVersion fields)
  | .dataclass =>
      tryCatch (return some (adapter.codecVersion (← calls.describeFields nested)))
        (fun error => if isTypeOrValueError error then return none else throw error)

/-- The kind and version of a nested class, as both loops over nested classes begin; absent where
they go on to the next one.
-/
def readNested (calls : Calls V C) (nested : C) : Reading V C (Option (String × String)) := do
  let fields ← calls.describeFields nested
  if adapter.codecKind fields = "" then return none
  let version ← adapter.nestedVersion calls nested fields
  return version.map (fun version => (adapter.codecKind fields, version))

/-- The loop body of `_field_references` -/
def citeModel (calls : Calls V C) (model : C) (found : List (NodeId V)) (nested : C)
    : Reading V C (List (NodeId V)) := do
  if nested = model then return found
  match ← adapter.readNested calls nested with
  | none => return found
  | some (kind, version) =>
      match adapter.parseId kind version with
      | .error _ => return found
      | .ok id => return (found.insert id) ∪ (← calls.references nested)

def fieldReferences (calls : Calls V C) (model : C) (declared : AnnotationExpr C)
    : Reading V C (List (NodeId V)) := do
  let found ← (iterModels adapter.provider declared).foldlM (adapter.citeModel calls model) []
  return found.insertionSort (fun left right => referenceOrder left right)

def describeFields (calls : Calls V C) (model : C)
    : Reading V C (Py.Dict String (FieldDescriptor V)) := do
  let described ← (adapter.fields model).items.mapM (fun (name, field) => do
    let typeRef ← adapter.typeRef calls field.annotation
    return (name, ({
      name, typeRef
      required := field.default == .required, default := adapter.encoded field.default
    } : FieldDescriptor V)))
  let references ← (adapter.fields model).items.mapM (fun (_, field) =>
    adapter.fieldReferences calls model field.annotation)
  return Py.Dict.ofItems (described.zipWith (fun (name, descriptor) references =>
    (name, { descriptor with references })) references)

/-- The model classes that the fields of a class mention, field by field. -/
def mentioned (model : C) : List C :=
  (adapter.fields model).values.flatMap (fun field => iterModels adapter.provider field.annotation)

/-- The loop body of `_collect_references`. Here an unreadable version raises. -/
def collectModel (calls : Calls V C) (model : C) (collected : Collected V C) (nested : C)
    : Reading V C (Collected V C) := do
  if nested = model then return collected
  match ← adapter.readNested calls nested with
  | none => return collected
  | some (kind, version) =>
      let id ← Py.query (fun _ => adapter.parseId kind version)
      calls.collectReferences nested { collected with found := collected.found.insert id }

def collectReferences (calls : Calls V C) (model : C) (collected : Collected V C)
    : Reading V C (Collected V C) :=
  if model ∈ collected.seen then return collected
  else (adapter.mentioned model).foldlM (adapter.collectModel calls model)
    { collected with seen := model :: collected.seen }

/-- The methods as they run with a stack for so many nested calls. -/
def calls : Nat → Calls V C
  | 0 => ⟨fun _ => throw recursionError, fun _ _ => throw recursionError⟩
  | depth + 1 => ⟨adapter.describeFields (calls depth), adapter.collectReferences (calls depth)⟩

end Reading

end Adapter

end Pyverge.Identity
