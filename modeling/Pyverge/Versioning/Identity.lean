import Pyverge.Py.Bisect
import Pyverge.Py.Dict
import Pyverge.Py.Json
import Mathlib.Order.Compare

/-! Graph identities: nodes, edges, and the values that carry them.
Comparisons (`==`, `<`) follow version precedence and refuse to mix version strategies. A dictionary
or a set finds a key by its hash and `==`, and the hash of a version agrees with `==`. Here keys are
found by Lean's equality, so `V` stands for versions up to `==`; a result that rests on this assumes
`VersionValue.HashAgrees`.
-/

namespace Pyverge

/-- A parsed version value: the name of its strategy type, the name manifests give that type,
its precedence, its text and how text is parsed. Precedence may identify values that differ, as
build metadata does.
-/
class VersionValue (V : Type) where
  strategy : V → String
  strategyName : V → String
  parse : String → Option V
  cmp : V → V → Ordering
  str : V → String
  trans : Std.TransCmp cmp

attribute [instance] VersionValue.trans

/-- `==` and the hash of a version agree, and `V` has one value for each key they tell apart. -/
class VersionValue.HashAgrees (V : Type) [VersionValue V] : Prop where
  eq_of_cmp : ∀ {left right : V}, VersionValue.cmp left right = .eq → left = right

/-- A released semantic version. Build metadata, which counts neither in `==` nor in the hash, is
left out.
-/
structure Release where
  major : Nat
  minor : Nat
  patch : Nat
  deriving DecidableEq

/-- A number without leading zeros. -/
def Release.parseNumber (digits : List Char) : Option Nat :=
  if digits.all Char.isDigit ∧ digits ≠ [] ∧ (digits.length = 1 ∨ digits.head? ≠ some '0') then
    some (digits.foldl (fun number digit => 10 * number + (digit.toNat - '0'.toNat)) 0)
  else none

/-- Parse `major.minor.patch`. -/
def Release.parse (text : String) : Option Release :=
  match text.toList.splitOn '.' with
  | [major, minor, patch] => do
      return ⟨← parseNumber major, ← parseNumber minor, ← parseNumber patch⟩
  | _ => none

instance : VersionValue Release where
  strategy _ := "Version"
  strategyName _ := "semver"
  parse := Release.parse
  cmp := compareLex (compareOn Release.major)
    (compareLex (compareOn Release.minor) (compareOn Release.patch))
  str release := toString release.major ++ "." ++ toString release.minor ++ "."
    ++ toString release.patch
  trans := inferInstance

instance : VersionValue.HashAgrees Release where
  eq_of_cmp {left right} equal := by
    simp only [VersionValue.cmp, compareLex_eq_eq, compareOn,
      Std.LawfulEqCmp.compare_eq_iff_eq] at equal
    obtain ⟨_, _, _⟩ := left
    obtain ⟨_, _, _⟩ := right
    simp_all

abbrev ModelKind := String

def defaultDiscriminator : String := "default"

-----------------------------------------------------------------------------------------
-- Node identity
-----------------------------------------------------------------------------------------

structure NodeId (V : Type) where
  nameSpace : String
  kind : ModelKind
  version : V
  named : ¬ nameSpace = ""
  deriving DecidableEq

/-- Exceptions the catalog raises. A subclass of `CatalogError` keeps its own data. -/
inductive Error (V : Type) where
  | typeError (message : String)
  | valueError (message : String)
  | catalogError (catalog message : String)
  | modelNotFound (catalog key : String)
  | modelAlreadyRegistered (catalog : String) (version : NodeId V)
  | modelConflict (catalog : String) (version : NodeId V) (registered incoming : List String)
  | migrationNotFound (catalog : String) (source target : NodeId V)
  | migrationConflict (catalog : String) (source target : NodeId V)
    (registeredHash incomingHash : String)
  | migrationPath (name : String) (source target : NodeId V) (reason : String)
  | migrationPathPair (name : String) (pair : NodeId V × NodeId V)
  | versionStrategyMismatch (names : List String)
  | revisionMismatch (expected actual : String)
  | raised (name : String)
  deriving DecidableEq

/-- The errors that an `except CatalogError` clause catches. -/
def Error.isCatalogError {V : Type} : Error V → Bool
  | .catalogError .. | .modelNotFound .. | .modelAlreadyRegistered .. | .modelConflict ..
  | .migrationNotFound .. | .migrationConflict .. => true
  | .typeError _ | .valueError _ | .migrationPath .. | .migrationPathPair ..
  | .versionStrategyMismatch _ | .revisionMismatch .. | .raised _ => false

variable {V : Type}

namespace NodeId

variable [VersionValue V]

def strategy (id : NodeId V) : String := VersionValue.strategy id.version

def str (id : NodeId V) : String :=
  id.nameSpace ++ ":" ++ id.kind ++ "@" ++ VersionValue.str id.version

/-- The order of the identity tuple `(namespace, kind, version)`. -/
def cmp : NodeId V → NodeId V → Ordering :=
  compareLex (compareOn NodeId.nameSpace)
    (compareLex (compareOn NodeId.kind)
      (fun left right => VersionValue.cmp left.version right.version))

instance : Std.TransCmp (fun left right : NodeId V =>
    VersionValue.cmp left.version right.version) :=
  Py.transCmp_on VersionValue.cmp NodeId.version

instance : Std.TransCmp (cmp (V := V)) := by
  unfold cmp
  infer_instance

/-- Equal identities share namespace and kind, and their versions have equal precedence. -/
theorem cmp_eq_iff {left right : NodeId V}
    : left.cmp right = .eq
      ↔ left.nameSpace = right.nameSpace ∧ left.kind = right.kind
        ∧ VersionValue.cmp left.version right.version = .eq := by
  simp only [NodeId.cmp, compareLex_eq_eq, compareOn, Std.LawfulEqOrd.compare_eq_iff_eq]

/-- Where equal versions are identical, equal identities are. -/
theorem eq_of_cmp [VersionValue.HashAgrees V] {left right : NodeId V}
    (equal : left.cmp right = .eq)
    : left = right := by
  obtain ⟨nameSpaces, kinds, versions⟩ := cmp_eq_iff.mp equal
  have same := VersionValue.HashAgrees.eq_of_cmp versions
  cases left
  cases right
  simp_all

def mixed (left right : NodeId V) : Error V :=
  .typeError ("Cannot compare " ++ left.strategy ++ " with " ++ right.strategy)

/-- `NodeId.__eq__` -/
def eq (left right : NodeId V) : Except (Error V) Bool :=
  if left.strategy = right.strategy then .ok (left.cmp right == .eq)
  else .error (mixed left right)

/-- `NodeId.__lt__` -/
def lt (left right : NodeId V) : Except (Error V) Bool :=
  if left.strategy = right.strategy then .ok (left.cmp right == .lt)
  else .error (mixed left right)

/-- `NodeId.__gt__` -/
def gt (left right : NodeId V) : Except (Error V) Bool :=
  if left.strategy = right.strategy then .ok (left.cmp right == .gt)
  else .error (mixed left right)

end NodeId

-----------------------------------------------------------------------------------------
-- Model and hook metadata
-----------------------------------------------------------------------------------------

structure ModelRef where
  providerId : String
  entityId : String
  deriving DecidableEq

structure MigrationRef where
  providerId : String
  entityId : String
  deriving DecidableEq

structure MigrationDescriptor where
  strategy : String
  identity : String
  deriving DecidableEq

structure HookRef where
  providerId : String
  entityId : String
  config : List (String × Py.Json)
  metadata : List (String × Py.Json)
  deriving DecidableEq

/-- `HookRef.__eq__` leaves the configuration and the metadata out. -/
def HookRef.eq (left right : HookRef) : Bool :=
  left.providerId == right.providerId && left.entityId == right.entityId

/-- A field of a model; a type reference is held in its canonical form. -/
structure FieldDescriptor (V : Type) where
  name : String
  typeRef : Py.Json
  required : Bool := false
  default : Option Py.Json := none
  references : List (NodeId V) := []
  annotation : Py.Json := .null
  deriving DecidableEq

structure ModelDescriptor (V : Type) where
  ref : ModelRef
  fields : Py.Dict String (FieldDescriptor V)
  deriving DecidableEq

/-- The references of all fields, each once; the list fixes one iteration order of the set. -/
def ModelDescriptor.references {V : Type} [DecidableEq V] (descriptor : ModelDescriptor V)
    : List (NodeId V) :=
  (descriptor.fields.values.flatMap FieldDescriptor.references).dedup

-----------------------------------------------------------------------------------------
-- Node entries and other values that carry a node identity
-----------------------------------------------------------------------------------------

/-- A hydrated node: an identity bound to a model descriptor. -/
structure VersionNode (V : Type) where
  id : NodeId V
  descriptor : ModelDescriptor V
  deriving DecidableEq

namespace VersionNode

def modelref (node : VersionNode V) : ModelRef := node.descriptor.ref

def modelId (node : VersionNode V) : String := node.descriptor.ref.entityId

def fields (node : VersionNode V) : List String := node.descriptor.fields.keys

def references [DecidableEq V] (node : VersionNode V) : List (NodeId V) :=
  node.descriptor.references

end VersionNode

/-- A registry entry: a key-only `VersionKey` or a hydrated `VersionNode`. -/
inductive NodeEntry (V : Type) where
  | versionKey (id : NodeId V)
  | versionNode (node : VersionNode V)
  deriving DecidableEq

/-- Any value with a node identity that an edge endpoint or a lookup may hold. -/
inductive Comparable (V : Type) where
  | nodeId (id : NodeId V)
  | versioned (entry : NodeEntry V)
  deriving DecidableEq

namespace NodeEntry

def id : NodeEntry V → NodeId V
  | .versionKey id => id
  | .versionNode node => node.id

def isModel : NodeEntry V → Bool
  | .versionKey _ => false
  | .versionNode _ => true

def node? : NodeEntry V → Option (VersionNode V)
  | .versionKey _ => none
  | .versionNode node => some node

def kind (entry : NodeEntry V) : ModelKind := entry.id.kind

/-- The `modelref` attribute, `None` for a key-only entry. -/
def modelref : NodeEntry V → Option ModelRef
  | .versionKey _ => none
  | .versionNode node => some node.modelref

def fields : NodeEntry V → List String
  | .versionKey _ => []
  | .versionNode node => node.fields

/-- The `references` attribute, which only hydrated nodes have. -/
def references [DecidableEq V] : NodeEntry V → List (NodeId V)
  | .versionKey _ => []
  | .versionNode node => node.references

/-- Which of its two arguments `reconcile` hands back. -/
inductive Reconciled where
  | self
  | existing
  deriving DecidableEq

/-- `VersionKey.reconcile` and `VersionNode.reconcile`; `none` is the `NodeConflictError`.
Field sets are compared as sets.
-/
def reconcile (entry existing : NodeEntry V) : Option Reconciled :=
  match entry with
  | .versionKey _ => some .existing
  | .versionNode node =>
      if !existing.isModel then some .self
      else if node.fields.all (existing.fields.contains ·)
          && existing.fields.all (node.fields.contains ·) then some .existing
      else none

end NodeEntry

namespace Comparable

def id : Comparable V → NodeId V
  | .nodeId id => id
  | .versioned entry => entry.id

def kind (value : Comparable V) : ModelKind := value.id.kind

/-- `isinstance(value, VersionKey)` -/
def isVersionKey : Comparable V → Bool
  | .nodeId _ => false
  | .versioned _ => true

def references [DecidableEq V] : Comparable V → List (NodeId V)
  | .nodeId _ => []
  | .versioned entry => entry.references

end Comparable

end Pyverge
