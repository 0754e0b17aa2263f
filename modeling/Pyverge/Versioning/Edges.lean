import Pyverge.Versioning.Identity
import Mathlib.Data.List.Sort

/-! Edge identities, edge entries and the content digests of nodes and edges.
An edge compares by `(source, target, discriminator)` and stays inside one namespace and kind.
-/

namespace Pyverge

variable {V : Type}

-----------------------------------------------------------------------------------------
-- Edge identity
-----------------------------------------------------------------------------------------

structure EdgeId (V : Type) where
  source : NodeId V
  target : NodeId V
  discriminator : String
  named : discriminator ≠ ""
  sameNamespace : source.nameSpace = target.nameSpace
  sameKind : source.kind = target.kind
  deriving DecidableEq

namespace EdgeId

theorem eq_of_parts {left right : EdgeId V} (sources : left.source = right.source)
    (targets : left.target = right.target) (labels : left.discriminator = right.discriminator)
    : left = right := by
  cases left
  cases right
  simp_all

def nameSpace (edge : EdgeId V) : String := edge.source.nameSpace

def kind (edge : EdgeId V) : ModelKind := edge.source.kind

variable [VersionValue V]

def str (edge : EdgeId V) : String :=
  let label := edge.source.str ++ "->" ++ edge.target.str
  if edge.discriminator = defaultDiscriminator then label
  else label ++ "#" ++ edge.discriminator

/-- The order of the identity tuple `(source, target, discriminator)`. -/
def cmp : EdgeId V → EdgeId V → Ordering :=
  compareLex (fun left right => left.source.cmp right.source)
    (compareLex (fun left right => left.target.cmp right.target)
      (compareOn EdgeId.discriminator))

instance : Std.TransCmp (fun left right : EdgeId V => left.source.cmp right.source) :=
  Py.transCmp_on NodeId.cmp EdgeId.source

instance : Std.TransCmp (fun left right : EdgeId V => left.target.cmp right.target) :=
  Py.transCmp_on NodeId.cmp EdgeId.target

instance : Std.TransCmp (cmp (V := V)) := by
  unfold cmp
  infer_instance

/-- Where equal versions are identical, equal edges are. -/
theorem eq_of_cmp [VersionValue.HashAgrees V] {left right : EdgeId V}
    (equal : left.cmp right = .eq)
    : left = right := by
  simp only [EdgeId.cmp, compareLex_eq_eq] at equal
  obtain ⟨sources, targets, labels⟩ := equal
  exact eq_of_parts (NodeId.eq_of_cmp sources) (NodeId.eq_of_cmp targets)
    (Std.LawfulEqCmp.eq_of_compare labels)

/-- Equality of the identity tuples: endpoints are compared left to right, so a difference of
the sources hides the strategies of the targets.
-/
def eq (left right : EdgeId V) : Except (Error V) Bool := do
  if !(← left.source.eq right.source) then return false
  if !(← left.target.eq right.target) then return false
  return left.discriminator == right.discriminator

/-- Tuple order: the first component that differs decides. -/
def lt (left right : EdgeId V) : Except (Error V) Bool := do
  if !(← left.source.eq right.source) then return ← left.source.lt right.source
  if !(← left.target.eq right.target) then return ← left.target.lt right.target
  return compare left.discriminator right.discriminator == .lt

def gt (left right : EdgeId V) : Except (Error V) Bool := do
  if !(← left.source.eq right.source) then return ← left.source.gt right.source
  if !(← left.target.eq right.target) then return ← left.target.gt right.target
  return compare left.discriminator right.discriminator == .gt

end EdgeId

/-- The endpoints and discriminator an edge identity object holds. -/
structure EdgePair (V : Type) where
  source : Comparable V
  target : Comparable V
  discriminator : String
  named : discriminator ≠ ""
  sameNamespace : source.id.nameSpace = target.id.nameSpace
  sameKind : source.kind = target.kind
  deriving DecidableEq

namespace EdgePair

def id (pair : EdgePair V) : EdgeId V where
  source := pair.source.id
  target := pair.target.id
  discriminator := pair.discriminator
  named := pair.named
  sameNamespace := pair.sameNamespace
  sameKind := pair.sameKind

/-- Quoting of a name in a message. -/
def quoted (name : String) : String := "'" ++ name ++ "'"

/-- `EdgeId.__post_init__` rejects what an identity may not hold. -/
def fromPair (source target : Comparable V) (discriminator : String)
    : Except (Error V) (EdgePair V) :=
  if named : discriminator ≠ "" then
    if sameNamespace : source.id.nameSpace = target.id.nameSpace then
      if sameKind : source.kind = target.kind then
        .ok { source, target, discriminator, named, sameNamespace, sameKind }
      else
        .error (.valueError ("Cross-kind edges are forbidden: "
          ++ quoted source.kind ++ " != " ++ quoted target.kind))
    else
      .error (.valueError ("Cross-namespace edges are forbidden: "
        ++ quoted source.id.nameSpace ++ " != " ++ quoted target.id.nameSpace))
  else .error (.valueError "EdgeId discriminator must be a non-empty string")

theorem eq_of_fromPair {source target : Comparable V} {discriminator : String} {pair : EdgePair V}
    (built : fromPair source target discriminator = .ok pair)
    : pair.source = source ∧ pair.target = target ∧ pair.discriminator = discriminator := by
  unfold fromPair at built
  split at built
  · split at built
    · split at built
      · obtain rfl := Except.ok.inj built
        exact ⟨rfl, rfl, rfl⟩
      · cases built
    · cases built
  · cases built

/-- A pair is built exactly if it is named and does not leave its namespace and kind. -/
theorem exists_fromPair {source target : Comparable V} {discriminator : String}
    : (∃ pair, fromPair source target discriminator = .ok pair)
      ↔ discriminator ≠ "" ∧ source.id.nameSpace = target.id.nameSpace
        ∧ source.kind = target.kind := by
  unfold fromPair
  by_cases named : discriminator ≠ ""
  · by_cases sameNamespace : source.id.nameSpace = target.id.nameSpace
    · by_cases sameKind : source.kind = target.kind <;> simp [named, sameNamespace, sameKind]
    · simp [named, sameNamespace]
  · simp [named]

end EdgePair

-----------------------------------------------------------------------------------------
-- Diffs and executable edges
-----------------------------------------------------------------------------------------

inductive FieldStatus where
  | added
  | removed
  | modified
  | unchanged
  deriving DecidableEq

def FieldStatus.value : FieldStatus → String
  | .added => "added"
  | .removed => "removed"
  | .modified => "modified"
  | .unchanged => "unchanged"

structure FieldChange where
  status : FieldStatus
  details : List (String × Py.Json)
  deriving DecidableEq

inductive DiffOrigin where
  | schema
  | migration
  deriving DecidableEq

def DiffOrigin.value : DiffOrigin → String
  | .schema => "schema"
  | .migration => "migration"

structure Diff (V : Type) where
  source : VersionNode V
  target : Comparable V
  fields : Py.Dict String FieldChange
  origin : DiffOrigin
  deriving DecidableEq

def Diff.fingerprintPayload (diff : Diff V) : Py.Json :=
  .obj [
    ("fields", .obj ((diff.fields.items.insertionSort (fun left right => left.1 ≤ right.1)).map
      (fun field => (field.1, .obj [
        ("status", .str field.2.status.value),
        ("details", .obj field.2.details)])))),
    ("origin", .str diff.origin.value)]

/-- An executable edge: hydrated endpoints, a diff and the identity of its migration. -/
structure VersionEdge (V : Type) where
  source : VersionNode V
  target : VersionNode V
  discriminator : String
  ref : MigrationRef
  diff : Diff V
  migration : MigrationDescriptor
  named : discriminator ≠ ""
  sameNamespace : source.id.nameSpace = target.id.nameSpace
  sameKind : source.id.kind = target.id.kind
  deriving DecidableEq

namespace VersionEdge

def pair (edge : VersionEdge V) : EdgePair V where
  source := .versioned (.versionNode edge.source)
  target := .versioned (.versionNode edge.target)
  discriminator := edge.discriminator
  named := edge.named
  sameNamespace := edge.sameNamespace
  sameKind := edge.sameKind

def id (edge : VersionEdge V) : EdgeId V := edge.pair.id

end VersionEdge

/-- A stored edge: a key-only `EdgeKey` or an executable `VersionEdge`. -/
inductive EdgeEntry (V : Type) where
  | edgeKey (pair : EdgePair V)
  | versionEdge (edge : VersionEdge V)
  deriving DecidableEq

namespace EdgeEntry

def pair : EdgeEntry V → EdgePair V
  | .edgeKey pair => pair
  | .versionEdge edge => edge.pair

def id (entry : EdgeEntry V) : EdgeId V := entry.pair.id

def kind (entry : EdgeEntry V) : ModelKind := entry.id.kind

def isExecutable : EdgeEntry V → Bool
  | .edgeKey _ => false
  | .versionEdge _ => true

def version? : EdgeEntry V → Option (VersionEdge V)
  | .edgeKey _ => none
  | .versionEdge edge => some edge

end EdgeEntry

/-- Any value with an edge identity: a bare `EdgeId` or a stored kind of edge. -/
inductive Transitional (V : Type) where
  | edgeId (pair : EdgePair V)
  | stored (entry : EdgeEntry V)
  deriving DecidableEq

namespace Transitional

def pair : Transitional V → EdgePair V
  | .edgeId pair => pair
  | .stored entry => entry.pair

def id (key : Transitional V) : EdgeId V := key.pair.id

def kind (key : Transitional V) : ModelKind := key.id.kind

/-- `isinstance(key, EdgeKey)` -/
def isEdgeKey : Transitional V → Bool
  | .edgeId _ => false
  | .stored _ => true

end Transitional

-----------------------------------------------------------------------------------------
-- Content digests
-----------------------------------------------------------------------------------------

/-- A digest of canonical values. -/
structure ContentHasher where
  digest : Py.Json → String

/-- Empty metadata leaves no trace in the digest of a hook. -/
def HookRef.digest (hook : HookRef) (hasher : ContentHasher) : String :=
  let fields : List (String × Py.Json) := [
    ("provider_id", .str hook.providerId),
    ("entity_id", .str hook.entityId),
    ("config", .obj hook.config)]
  hasher.digest (.obj (if hook.metadata.isEmpty then fields
    else fields ++ [("metadata", .obj hook.metadata)]))

variable [VersionValue V]

def NodeId.digest (id : NodeId V) (hasher : ContentHasher) : String :=
  hasher.digest (.obj [
    ("namespace", .str id.nameSpace),
    ("kind", .str id.kind),
    ("version", .str (VersionValue.str id.version))])

def VersionNode.contentPayload [DecidableEq V] (node : VersionNode V)
    : Except (Error V) Py.Json :=
  if node.modelId = "" then
    .error (.valueError ("VersionNode " ++ node.id.str ++ " requires model_id for content hashing"))
  else
    .ok (.obj [
      ("id", .str node.id.str),
      ("model", .str node.modelId),
      ("fields", .arr ((node.fields.insertionSort (· ≤ ·)).map .str)),
      ("references", .arr (((node.references.map NodeId.str).insertionSort (· ≤ ·)).map .str))])

def VersionNode.digest [DecidableEq V] (node : VersionNode V) (hasher : ContentHasher)
    : Except (Error V) String :=
  node.contentPayload.map hasher.digest

def VersionEdge.contentPayload [DecidableEq V] (edge : VersionEdge V) (hasher : ContentHasher)
    : Except (Error V) Py.Json := do
  let source ← edge.source.digest hasher
  let target ← edge.target.digest hasher
  return .obj [
    ("id", .str edge.id.str),
    ("source", .str source),
    ("target", .str target),
    ("discriminator", .str edge.discriminator),
    ("diff", edge.diff.fingerprintPayload),
    ("migration", .obj [
      ("strategy", .str edge.migration.strategy),
      ("identity", .str edge.migration.identity)])]

def VersionEdge.digest [DecidableEq V] (edge : VersionEdge V) (hasher : ContentHasher)
    : Except (Error V) String :=
  (edge.contentPayload hasher).map hasher.digest

/-- The digest of an edge identity, which a key-only edge also has. -/
def EdgeId.digest (edge : EdgeId V) (hasher : ContentHasher) : String :=
  let endpoint (id : NodeId V) : Py.Json := .obj [
    ("namespace", .str id.nameSpace),
    ("kind", .str id.kind),
    ("version", .str (VersionValue.str id.version))]
  hasher.digest (.obj [
    ("source", endpoint edge.source),
    ("target", endpoint edge.target),
    ("discriminator", .str edge.discriminator)])

end Pyverge
