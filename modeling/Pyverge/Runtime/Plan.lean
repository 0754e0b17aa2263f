import Pyverge.Planning.BottomUp
import Pyverge.Registry.Operations
import Pyverge.Runtime.Steps

/-! Execution plans: path plans with runtime callables and hooks bound to their edges.
The planner is the only place that binds, so a bound entry has one migration and one list of
hooks for each of its edges.
-/

namespace Pyverge

open Py (Json)

variable {V F H : Type}

-----------------------------------------------------------------------------------------
-- Bindings
-----------------------------------------------------------------------------------------

/-- Runtime callable bound to one migration edge. -/
structure MigrationBinding (F : Type) where
  func : MigrationFunc F
  descriptor : MigrationDescriptor
  name : String
  deriving DecidableEq

/-- Runtime hook bound to one migration edge. -/
structure HookBinding (H : Type) where
  hook : H
  ref : HookRef
  deriving DecidableEq

/-- Mutable registration-time bindings owned by the runtime. -/
structure MigrationBindings (V F H : Type) where
  name : String
  migrations : Py.Dict (EdgeId V) (MigrationBinding F)
  hooksByEdge : Py.Dict (EdgeId V) (List (HookBinding H))
  deriving DecidableEq

namespace MigrationBindings

variable [DecidableEq V]

def storeMigration (bindings : MigrationBindings V F H) (edge : EdgeId V) (func : MigrationFunc F)
    (descriptor : MigrationDescriptor) : MigrationBindings V F H :=
  let name := func.name.getD descriptor.identity
  { bindings with migrations := bindings.migrations.set edge ⟨func, descriptor, name⟩ }

def addHook (hookRefs : H → HookRef) (bindings : MigrationBindings V F H) (edge : EdgeId V)
    (hook : H) : MigrationBindings V F H :=
  { bindings with
    hooksByEdge := bindings.hooksByEdge.set edge
      (bindings.hooksByEdge.getD edge [] ++ [⟨hook, hookRefs hook⟩]) }

def resolve (bindings : MigrationBindings V F H) (edge : EdgeId V)
    : Except (Error V) (MigrationBinding F) :=
  match bindings.migrations.get? edge with
  | some binding => .ok binding
  | none => .error (.migrationNotFound bindings.name edge.source edge.target)

def hooks (bindings : MigrationBindings V F H) (edge : EdgeId V) : List (HookBinding H) :=
  bindings.hooksByEdge.getD edge []

def removeMigration (bindings : MigrationBindings V F H) (edge : EdgeId V)
    : MigrationBindings V F H :=
  { bindings with
    migrations := bindings.migrations.erase edge
    hooksByEdge := bindings.hooksByEdge.erase edge }

end MigrationBindings

-----------------------------------------------------------------------------------------
-- Bound entries
-----------------------------------------------------------------------------------------

/-- One path-plan entry with runtime callables and hooks bound. -/
structure ExecutionEntry (V F H : Type) where
  plan : PathPlanEntry V
  migrations : List (MigrationBinding F)
  hooks : List (List (HookBinding H))
  boundMigrations : migrations.length = plan.edges.length
  boundHooks : hooks.length = plan.edges.length
  deriving DecidableEq

/-- What one step of an entry runs. -/
structure BoundStep (V F H : Type) where
  context : StepContext V
  func : F
  hooks : List H

namespace ExecutionEntry

def path (entry : ExecutionEntry V F H) : Path := entry.plan.path

def ends (entry : ExecutionEntry V F H) : EntryEnds V := ⟨entry.plan.source, entry.plan.target⟩

/-- Steps from an index on, with what is bound to their edges. -/
def bindSteps (path : Path) : Nat → List (Comparable V × Comparable V) → List (EdgeId V)
    → List (MigrationBinding F) → List (List (HookBinding H)) → List (BoundStep V F H)
  | index, (source, target) :: steps, edge :: edges, binding :: migrations, bound :: hooks =>
      {
        context := {
          path
          index
          source
          target
          edge
          name := binding.name
          migration := binding.descriptor
        }
        func := binding.func.call
        hooks := bound.map HookBinding.hook
      } :: bindSteps path (index + 1) steps edges migrations hooks
  | _, _, _, _, _ => []

/-- The steps of an entry with what is bound to them, in order. -/
def boundSteps (entry : ExecutionEntry V F H) : List (BoundStep V F H) :=
  bindSteps entry.path 0 entry.plan.steps entry.plan.edges entry.migrations entry.hooks

end ExecutionEntry

/-- Set the version property of a migrated mapping. -/
def stampVersion (property version : String) : Json → Json
  | .obj members => .obj (Json.setMember members property (.str version))
  | value => value

structure ExecutionPlan (V F H : Type) where
  path : PathPlan V
  payload : Json
  levels : List (List (ExecutionEntry V F H))
  deriving DecidableEq

/-- `apply_results` -/
def applyResults (payload : Json) (results : List (Path × Json)) : Except Raised Json :=
  results.foldlM (fun data result => replaceAt data result.1 result.2) payload

/-- What every step of a run needs to know. -/
structure RunSetup (V F H : Type) where
  telemetry : Telemetry
  calls : Calls V F H
  versionProperty : String

section Execution

variable [VersionValue V] (mode : Mode) (setup : RunSetup V F H)

/-- The loop of `execute_sync` and `execute_async` over the steps of an entry. -/
def executeSteps (ends : EntryEnds V) : List (BoundStep V F H) → Json → ExecM V Json
  | [], current => return current
  | step :: rest, current => do
      let migrated ← runStep mode setup.telemetry setup.calls ends step.func step.hooks
        step.context current
      executeSteps ends rest (stampVersion setup.versionProperty
        (VersionValue.str step.context.target.id.version) migrated)

def ExecutionEntry.execute (entry : ExecutionEntry V F H) (value : Json)
    : ExecM V (Path × Json) := do
  let result ← executeSteps mode setup entry.ends entry.boundSteps value
  return (entry.path, result)

/-- Read an entry from the payload of its level and run it. -/
def runEntry (data : Json) (entry : ExecutionEntry V F H) : ExecM V (Path × Json) := do
  let value ← settled (entry.path.get data)
  entry.execute mode setup value

/-- One level, entry by entry. -/
def executeLevel (data : Json) (level : List (ExecutionEntry V F H)) : ExecM V Json := do
  let results ← level.mapM (runEntry mode setup data)
  settled (applyResults data results)

def executeLevels : List (List (ExecutionEntry V F H)) → Json → ExecM V Json
  | [], data => return data
  | level :: rest, data => do
      let next ← executeLevel mode setup data level
      executeLevels rest next

end Execution

-----------------------------------------------------------------------------------------
-- The planner
-----------------------------------------------------------------------------------------

variable [DecidableEq V]

/-- `_bind` -/
def bindEntry (bindings : MigrationBindings V F H) (entry : PathPlanEntry V)
    : Except (Error V) (ExecutionEntry V F H) :=
  match resolved : entry.edges.mapM bindings.resolve with
  | .error error => .error error
  | .ok migrations => .ok {
      plan := entry
      migrations
      hooks := entry.edges.map bindings.hooks
      boundMigrations := (Py.mapM_eq_ok_iff.mp resolved).length_eq.symm
      boundHooks := List.length_map _
    }

/-- `ExecutionPlanner.build`: all entries are bound before the levels are put together. -/
def buildPlan (bindings : MigrationBindings V F H) (path : PathPlan V) (payload : Json)
    : Except (Error V) (ExecutionPlan V F H) := do
  let _ ← path.entries.mapM (bindEntry bindings)
  let levels ← path.levels.mapM (fun level => level.mapM (bindEntry bindings))
  return { path, payload, levels }

end Pyverge
