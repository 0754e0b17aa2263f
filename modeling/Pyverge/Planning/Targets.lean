import Pyverge.Planning.Finder
import Pyverge.Py.Repr

/-! Target policies: what a request may ask for, and the resolver it is compiled to. -/

namespace Pyverge

variable {V M : Type}

-----------------------------------------------------------------------------------------
-- Policies
-----------------------------------------------------------------------------------------

/-- A bounded version range. `eq` wins over the bounds. -/
structure VersionRange where
  gte : Option String
  lt : Option String
  eq : Option String
  deriving DecidableEq

/-- A target policy: nothing, a strategy or a version string, a range, a model class, a node, a
callable with the text that shows it, or a dictionary of policies by kind.
-/
inductive TargetPolicy (V M : Type) where
  | nothing
  | text (value : String)
  | range (bounds : VersionRange)
  | model (model : M)
  | node (target : VersionNode V)
  | callable (shown : String) (resolver : TargetResolver V)
  | dict (items : List (String × TargetPolicy V M))

/-- What the compiler and the keys of plans ask of model classes: the reference that the adapter
gives to one, its name and its module with its qualified name.
-/
structure ModelIdentity (M : Type) where
  ref : M → ModelRef
  name : M → String
  qualifiedName : M → String

section Compiling

variable [DecidableEq V] [VersionValue V] (printable : Char → Bool) (graph : MigrationGraph V)

omit [DecidableEq V] in
/-- `parse_version` of a text -/
def parseVersion (text : String) : Except (Error V) V :=
  match VersionValue.parse text with
  | some version => .ok version
  | none => .error (.valueError ("Cannot parse version " ++ Py.reprStr printable text
      ++ ". Expected semver (e.g. '1.0.0') or ISO date (e.g. '2024-06-01')."))

omit [DecidableEq V] in
/-- An order comparison of bare version values, which have no order across strategies. -/
def compareVersions (operator : String) (accepts : Ordering → Bool) (left right : V)
    : Except (Error V) Bool :=
  if VersionValue.strategy left = VersionValue.strategy right then
    .ok (accepts (VersionValue.cmp left right))
  else .error (.typeError ("'" ++ operator ++ "' not supported between instances of '"
    ++ VersionValue.strategy left ++ "' and '" ++ VersionValue.strategy right ++ "'"))

omit [DecidableEq V] in
/-- `VersionRange.matches` -/
def VersionRange.matches (bounds : VersionRange) (version : V) : Except (Error V) Bool :=
  match bounds.eq with
  | some text => do
      let exact_ : V ← parseVersion printable text
      return VersionValue.strategy version = VersionValue.strategy exact_
        ∧ VersionValue.cmp version exact_ = .eq
  | none => do
      let below ← match bounds.gte with
        | some text => do compareVersions "<" Ordering.isLT version (← parseVersion printable text)
        | none => .ok false
      let above ← match bounds.lt with
        | some text =>
            if below then .ok false
            else do compareVersions ">=" Ordering.isGE version (← parseVersion printable text)
        | none => .ok false
      return !below && !above

def skipTargetResolver : TargetResolver V := fun _ => .ok none

def latestTargetResolver : TargetResolver V := fun current =>
  (graph.latest current.id.kind).map some

def earliestTargetResolver : TargetResolver V := fun current =>
  (graph.earliest current.id.kind).map some

omit [DecidableEq V] in
/-- The highest version of the kind that the range matches. -/
def rangeTargetResolver (bounds : VersionRange) : TargetResolver V := fun current => do
  let versions := graph.kindVersions current.id.kind
  let matched ← versions.mapM (fun version => bounds.matches printable version.id.version)
  return ((versions.zip matched).filter Prod.snd).getLast?.map Prod.fst

def fixedTargetResolver (target : VersionNode V) : Except (Error V) (TargetResolver V) :=
  if graph.hasModel target.id then
    .ok (fun current =>
      if current.id.kind ≠ target.id.kind then
        .error (.catalogError graph.nameSpace ("Target " ++ target.id.str ++ " belongs to kind "
          ++ Py.reprStr printable target.id.kind ++ ", but entry kind is "
          ++ Py.reprStr printable current.id.kind))
      else .ok (some target))
  else .error (.catalogError graph.nameSpace ("Target " ++ target.id.str ++ " is not registered"))

/-- `_model` -/
def modelTargetResolver (models : ModelIdentity M) (model : M)
    : Except (Error V) (TargetResolver V) :=
  match graph.getModelByRef (models.ref model) with
  | .error _ => .error (.catalogError graph.nameSpace
      ("Target model " ++ models.name model ++ " is not registered"))
  | .ok target =>
      .ok (fun current =>
        if current.id.kind ≠ target.id.kind then
          .error (.catalogError graph.nameSpace ("Target model " ++ models.name model
            ++ " belongs to kind " ++ Py.reprStr printable target.id.kind
            ++ ", but entry kind is " ++ Py.reprStr printable current.id.kind))
        else .ok (some target))

/-- `_version_string` -/
def versionStringResolver (value : String) : Except (Error V) (TargetResolver V) :=
  match VersionValue.parse value with
  | none => .error (.catalogError graph.nameSpace ("Could not resolve string target "
      ++ Py.reprStr printable value ++ " to a version"))
  | some parsed =>
      .ok (fun current => (graph.getModel { current.id with version := parsed }).map some)

omit [DecidableEq V] [VersionValue V] in
/-- The resolver of the kind, else that of the star; the star is not a kind. -/
def multiTargetResolver (resolvers : List (String × TargetResolver V)) : TargetResolver V :=
  fun current =>
    let byKind := resolvers.filter (fun item => item.1 ≠ "*")
    match (byKind.find? (fun item => item.1 = current.id.kind)).or
        (resolvers.find? (fun item => item.1 = "*")) with
    | some item => item.2 current
    | none => .ok none

mutual
/-- `TargetCompiler.compile` -/
def compile (models : ModelIdentity M) : TargetPolicy V M → Except (Error V) (TargetResolver V)
  | .callable _ resolver => .ok resolver
  | .nothing => .ok skipTargetResolver
  | .text value =>
      if value = "skip" then .ok skipTargetResolver
      else if value = "latest" then .ok (latestTargetResolver graph)
      else if value = "earliest" then .ok (earliestTargetResolver graph)
      else versionStringResolver printable graph value
  | .model model => modelTargetResolver printable graph models model
  | .range bounds => .ok (rangeTargetResolver printable graph bounds)
  | .dict items => do
      let resolvers ← compileItems models items
      return multiTargetResolver resolvers
  | .node target => fixedTargetResolver printable graph target

def compileItems (models : ModelIdentity M)
    : List (String × TargetPolicy V M) → Except (Error V) (List (String × TargetResolver V))
  | [] => .ok []
  | (kind, policy) :: rest => do
      let resolver ← compile models policy
      let others ← compileItems models rest
      return (kind, resolver) :: others
end

end Compiling

end Pyverge
