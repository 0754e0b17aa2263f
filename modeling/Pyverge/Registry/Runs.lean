import Pyverge.Registry.Operations

/-! Runs of a registry: any sequence of its public operations, raising ones included.
Operations that only read are left out, except for those that insert an empty bucket.
-/

namespace Pyverge

variable {V F : Type}

-----------------------------------------------------------------------------------------
-- Properties of the stores
-----------------------------------------------------------------------------------------

/-- A property of the stores that ignores the health maps. -/
def IgnoresHealth (Inv : Registry V → Prop) : Prop :=
  ∀ registry health, Inv registry → Inv { registry with health }

theorem IgnoresHealth.modifyHealth {Inv : Registry V → Prop} (ignores : IgnoresHealth Inv)
    (update : HealthIndex V → HealthIndex V)
    : Py.Preserves Inv (modifyHealth update) :=
  Py.Preserves.modify (fun registry holds => ignores registry _ holds)

variable [DecidableEq V]

theorem IgnoresHealth.refreshHealth {Inv : Registry V → Prop} (ignores : IgnoresHealth Inv)
    (linters : List (HealthLinter V)) (entities : List (Entity V))
    : Py.Preserves Inv (refreshHealth linters entities) := by
  refine Py.Preserves.forM _ (fun entity _ => ?_)
  refine Py.Preserves.bind (ignores.modifyHealth _) (fun _ => ?_)
  exact Py.Preserves.bind (Py.Preserves.query _ _) (fun _ => ignores.modifyHealth _)

theorem IgnoresHealth.rebuildHealth {Inv : Registry V → Prop} (ignores : IgnoresHealth Inv)
    (linters : List (HealthLinter V))
    : Py.Preserves Inv (rebuildHealth linters) := by
  refine Py.Preserves.bind (ignores.modifyHealth _) (fun _ => ?_)
  exact Py.Preserves.bind (Py.Preserves.query _ _) (fun _ => ignores.refreshHealth _ _)

-----------------------------------------------------------------------------------------
-- Operations and runs
-----------------------------------------------------------------------------------------

/-- A call of a public operation that may write to the stores. -/
inductive Op (V F : Type) where
  | store (entry : NodeEntry V)
  | hydrate (entry : NodeEntry V)
  | reconcile (entry : NodeEntry V)
  | removeEntry (entry : NodeEntry V)
  | removeModel (key : NodeId V)
  | removeModelByRef (ref : ModelRef)
  | clearModels
  | deleteKind (kind : ModelKind)
  | storeMigration (input : Registry.MigrationInput V F)
  | removeMigration (key : Transitional V)
  | removeMigrationRange (fromVersion toVersion : NodeId V)
  | clearMigrations
  | addHook (key : Transitional V) (hook : HookRef)
  | removeHook (key : Transitional V) (hook : Option HookRef)
  | clearHooks (key : Option (EdgeId V))
  | isAdjacent (key : EdgeId V)
  | isCriticalEdge (key : EdgeId V)
  | hooks (key : EdgeId V)

variable [VersionValue V]

/-- Run a call and drop what it returns. -/
def Op.run (config : Config V F) : Op V F → RegistryM V PUnit
  | .store entry => do let _ ← Registry.store config entry
  | .hydrate entry => do let _ ← Registry.hydrate config entry
  | .reconcile entry => do let _ ← Registry.reconcile config entry
  | .removeEntry entry => Registry.removeEntry config entry
  | .removeModel key => Registry.removeModel config key
  | .removeModelByRef ref => Registry.removeModelByRef config ref
  | .clearModels => Registry.clearModels config
  | .deleteKind kind => Registry.deleteKind config kind
  | .storeMigration input => do let _ ← Registry.storeMigration config input
  | .removeMigration key => Registry.removeMigration config key
  | .removeMigrationRange fromVersion toVersion =>
      Registry.removeMigrationRange config fromVersion toVersion
  | .clearMigrations => Registry.clearMigrations config
  | .addHook key hook => Registry.addHook config key hook
  | .removeHook key hook => Registry.removeHook config key hook
  | .clearHooks key => Registry.clearHooks key
  | .isAdjacent key => do let _ ← Registry.isAdjacent key
  | .isCriticalEdge key => do let _ ← Registry.isCriticalEdge key
  | .hooks key => do let _ ← Registry.hooksAt key

/-- The states a registry reaches from its construction; `copy_from` takes over the stores of
any other registry that was reached in the same way.
-/
inductive Reachable : Config V F → Registry V → Prop where
  | new (config : Config V F) (nameSpace : String) (indexDigests : Bool)
      (named : nameSpace ≠ "")
      : Reachable config (Registry.new nameSpace indexDigests)
  | step {config : Config V F} {registry : Registry V} (op : Op V F)
      (reached : Reachable config registry)
      : Reachable config (Py.after (op.run config) registry)
  | copyFrom {config other : Config V F} {registry source : Registry V}
      (reached : Reachable config registry) (sourceReached : Reachable other source)
      : Reachable config (Py.after (Registry.copyFrom source) registry)

/-- The second state is reached from the first by further operations. -/
inductive Continues (config : Config V F) (start : Registry V) : Registry V → Prop where
  | refl : Continues config start start
  | step {registry : Registry V} (op : Op V F) (earlier : Continues config start registry)
      : Continues config start (Py.after (op.run config) registry)
  | copyFrom {other : Config V F} {registry source : Registry V}
      (earlier : Continues config start registry) (sourceReached : Reachable other source)
      : Continues config start (Py.after (Registry.copyFrom source) registry)

theorem Reachable.continues {config : Config V F} {start registry : Registry V}
    (reached : Reachable config start) (later : Continues config start registry)
    : Reachable config registry := by
  induction later with
  | refl => exact reached
  | step op _ ih => exact .step op ih
  | copyFrom _ sourceReached ih => exact .copyFrom ih sourceReached

/-- The states of the runs whose every step meets a condition on the call and the state before
it; a copied registry has to be the result of such a run too.
-/
inductive ReachableBy (Meets : Config V F → Registry V → Op V F → Prop)
    (MeetsCopy : Registry V → Registry V → Prop)
    : Config V F → Registry V → Prop where
  | new (config : Config V F) (nameSpace : String) (indexDigests : Bool)
      (named : nameSpace ≠ "")
      : ReachableBy Meets MeetsCopy config (Registry.new nameSpace indexDigests)
  | step {config : Config V F} {registry : Registry V} (op : Op V F)
      (reached : ReachableBy Meets MeetsCopy config registry) (meets : Meets config registry op)
      : ReachableBy Meets MeetsCopy config (Py.after (op.run config) registry)
  | copyFrom {config other : Config V F} {registry source : Registry V}
      (reached : ReachableBy Meets MeetsCopy config registry)
      (sourceReached : ReachableBy Meets MeetsCopy other source)
      (meets : MeetsCopy registry source)
      : ReachableBy Meets MeetsCopy config (Py.after (Registry.copyFrom source) registry)

theorem ReachableBy.reachable {Meets : Config V F → Registry V → Op V F → Prop}
    {MeetsCopy : Registry V → Registry V → Prop} {config : Config V F} {registry : Registry V}
    (reached : ReachableBy Meets MeetsCopy config registry)
    : Reachable config registry := by
  induction reached with
  | new config nameSpace indexDigests named => exact .new config nameSpace indexDigests named
  | step op _ _ ih => exact .step op ih
  | copyFrom _ _ _ ih sourceIh => exact .copyFrom ih sourceIh

/-- A run whose steps meet one condition meets a weaker one. -/
theorem ReachableBy.mono {Meets Other : Config V F → Registry V → Op V F → Prop}
    {MeetsCopy : Registry V → Registry V → Prop} {config : Config V F} {registry : Registry V}
    (reached : ReachableBy Meets MeetsCopy config registry)
    (weaker : ∀ config registry op, Meets config registry op → Other config registry op)
    : ReachableBy Other MeetsCopy config registry := by
  induction reached with
  | new config nameSpace indexDigests named => exact .new config nameSpace indexDigests named
  | step op _ meets ih => exact .step op ih (weaker _ _ op meets)
  | copyFrom _ _ meets ih sourceIh => exact .copyFrom ih sourceIh meets

/-- Run calls one after the other, whether or not they raise. -/
def Registry.runAll (config : Config V F) (ops : List (Op V F)) (registry : Registry V)
    : Registry V :=
  ops.foldl (fun registry op => Py.after (op.run config) registry) registry

theorem Reachable.runAll {config : Config V F} {registry : Registry V}
    (reached : Reachable config registry) (ops : List (Op V F))
    : Reachable config (Registry.runAll config ops registry) := by
  induction ops generalizing registry with
  | nil => exact reached
  | cons op rest ih => exact ih (.step op reached)

/-- Calls that always meet the condition extend a run. -/
theorem ReachableBy.runAll {Meets : Config V F → Registry V → Op V F → Prop}
    {MeetsCopy : Registry V → Registry V → Prop} {config : Config V F} {registry : Registry V}
    (reached : ReachableBy Meets MeetsCopy config registry) {ops : List (Op V F)}
    (meets : ∀ op ∈ ops, ∀ registry, Meets config registry op)
    : ReachableBy Meets MeetsCopy config (Registry.runAll config ops registry) := by
  induction ops generalizing registry with
  | nil => exact reached
  | cons op rest ih =>
      exact ih (.step op reached (meets op (by simp) registry))
        (fun other member => meets other (List.mem_cons_of_mem _ member))

-----------------------------------------------------------------------------------------
-- A small catalog
-----------------------------------------------------------------------------------------

/-- The identity of a release of `User` in the namespace `default`. -/
def userId (major : Nat) : NodeId Release where
  nameSpace := "default"
  kind := "User"
  version := ⟨major, 0, 0⟩
  named := by decide

/-- A hydrated release of `User` without fields. -/
def userNode (major : Nat) (model : String) : VersionNode Release where
  id := userId major
  descriptor := ⟨⟨"app", model⟩, ∅⟩

/-- The default linters, no reflection port and a hasher that keeps nothing apart. -/
def plainConfig : Config Release Unit where
  hasher := ⟨fun _ => "digest"⟩
  reflection := none
  linters := defaultHealthLinters
  onMissing := .raise

/-- The identity of the edge between the first two releases of `User`. -/
def userEdge : EdgeId Release where
  source := userId 1
  target := userId 2
  discriminator := defaultDiscriminator
  named := by decide
  sameNamespace := rfl
  sameKind := rfl

/-- The pair of two identities of `User`. -/
def userPair (source target : NodeId Release) (sameNamespace : source.nameSpace = target.nameSpace)
    (sameKind : source.kind = target.kind) : EdgePair Release where
  source := .nodeId source
  target := .nodeId target
  discriminator := defaultDiscriminator
  named := userEdge.named
  sameNamespace
  sameKind

/-- A reflection port for models without fields: their diff is empty. -/
def plainReflection : ReflectionPort Release Unit where
  diff source target _ := .ok { source, target, fields := ∅, origin := .schema }
  reflect diff := .ok { id := diff.target.id, descriptor := diff.source.descriptor }

def reflectingConfig : Config Release Unit :=
  { plainConfig with reflection := some plainReflection }

/-- A request to register a migration between two releases of `User`. -/
def userSpec (source target : Nat) : MigrationSpec Release Unit where
  source := .nodeId (userId source)
  target := .nodeId (userId target)
  discriminator := defaultDiscriminator
  func := {
    call := (), name := none, migrationIdentity := none, migrationId := some "upgrade"
    moduleName := none, qualname := none, firstLine := none
  }

/-- The edge that a request between two registered releases leads to. -/
def userMigration (source target : Nat) (sourceModel targetModel : String)
    : VersionEdge Release where
  source := userNode source sourceModel
  target := userNode target targetModel
  discriminator := defaultDiscriminator
  ref := ⟨"callable", "upgrade"⟩
  diff := {
    source := userNode source sourceModel
    target := .versioned (.versionNode (userNode target targetModel))
    fields := ∅
    origin := .schema
  }
  migration := ⟨"callable", "upgrade"⟩
  named := userEdge.named
  sameNamespace := rfl
  sameKind := rfl

end Pyverge
