import Pyverge.Planning.Targets
import Pyverge.Py.Lru
import Pyverge.Runtime.Extraction
import Pyverge.Runtime.Plan

/-! Planning a request: discovery, path resolution and binding.
A table of path plans may stand before the finder. Its keys are texts of the request.
-/

namespace Pyverge

open Py (Json)

variable {V M F H : Type}

-----------------------------------------------------------------------------------------
-- Keys of plans
-----------------------------------------------------------------------------------------

/-- `repr` of an optional text -/
def reprOption (printable : Char → Bool) : Option String → String
  | some text => Py.reprStr printable text
  | none => "None"

def VersionRange.repr (printable : Char → Bool) (bounds : VersionRange) : String :=
  "VersionRange(gte=" ++ reprOption printable bounds.gte ++ ", lt="
    ++ reprOption printable bounds.lt ++ ", eq=" ++ reprOption printable bounds.eq ++ ")"

/-- The text that shows a callable; the other policies have keys of their own. -/
def TargetPolicy.shown : TargetPolicy V M → String
  | .callable shown _ => shown
  | _ => ""

/-- `sorted` of the items of a dictionary, which differ in their keys. -/
def sortItems (items : List (String × String)) : List (String × String) :=
  items.insertionSort (fun left right => left.1 ≤ right.1)

mutual
/-- `target_key`: callables have none, except inside of a dictionary, where their text is used. -/
def targetKey [VersionValue V] (printable : Char → Bool) (models : ModelIdentity M)
    : TargetPolicy V M → Option String
  | .model model => some ("model:" ++ models.qualifiedName model)
  | .dict items => some ("dict:" ++ Py.reprTuple
      ((sortItems (targetKeyItems printable models items)).map (fun item =>
        Py.reprTuple [Py.reprStr printable item.1, Py.reprStr printable item.2])))
  | .node target => some ("node:" ++ target.id.str)
  | .callable _ _ => none
  | .nothing => some "repr:None"
  | .text value => some ("repr:" ++ Py.reprStr printable value)
  | .range bounds => some ("repr:" ++ bounds.repr printable)

def targetKeyItems [VersionValue V] (printable : Char → Bool) (models : ModelIdentity M)
    : List (String × TargetPolicy V M) → List (String × String)
  | [] => []
  | (key, value) :: rest =>
      (key, (targetKey printable models value).getD value.shown)
        :: targetKeyItems printable models rest
end

/-- Identity of a payload-independent path plan. -/
structure PlanKey where
  target : String
  sourceModel : Option String
  entries : List (Path × String)
  deriving DecidableEq

def PlanKey.fromEntries [VersionValue V] (printable : Char → Bool) (models : ModelIdentity M)
    (target : TargetPolicy V M) (sourceModel : Option M) (entries : List (ExtractedEntry V))
    : Option PlanKey :=
  (targetKey printable models target).map (fun target => {
    target
    sourceModel := sourceModel.map models.qualifiedName
    entries := entries.map (fun entry => (entry.path, entry.node.id.str))
  })

-----------------------------------------------------------------------------------------
-- The coordinator
-----------------------------------------------------------------------------------------

/-- A path plan with the source model it was found for. -/
structure FoundPlan (V M : Type) where
  plan : PathPlan V
  sourceModel : Option M

inductive PlanningError (V : Type) where
  | extraction (error : ExtractionError)
  | catalog (error : Error V)
  deriving DecidableEq

/-- The tables that a coordinator keeps between requests: the walks of its finder and the plans
it has found.
-/
structure CoordinatorState (V M : Type) [DecidableEq V] where
  paths : PathCache V
  plans : Py.Lru PlanKey (FoundPlan V M)

/-- The parts a coordinator drives. The walker, the finder and the compiler share one graph. -/
structure ExecutionCoordinator (V M F H : Type) where
  printable : Char → Bool
  models : ModelIdentity M
  adapter : ModelAdapter M
  validation : ValidationMode
  finder : PathFinder V
  bindings : MigrationBindings V F H

/-- What one call of `plan` is given. -/
structure PlanRequest (V M : Type) where
  payload : Json
  target : TargetPolicy V M
  sourceModel : Option M
  maxDepth : Int

/-- Programs of a coordinator. -/
abbrev PlanM (V M : Type) [DecidableEq V] := EStateM (PlanningError V) (CoordinatorState V M)

namespace ExecutionCoordinator

variable [DecidableEq V] [VersionValue V] (coordinator : ExecutionCoordinator V M F H)

def extract (request : PlanRequest V M) : Except (PlanningError V) (List (ExtractedEntry V)) :=
  ((Pyverge.extract coordinator.finder.graph coordinator.adapter coordinator.validation
    request.payload request.sourceModel request.maxDepth).map
      (fun entries => entries.map (fun entry => ⟨entry.path, entry.node⟩))).mapError .extraction

def key (request : PlanRequest V M) (entries : List (ExtractedEntry V)) : Option PlanKey :=
  PlanKey.fromEntries coordinator.printable coordinator.models request.target request.sourceModel
    entries

/-- `PathFinder.find`: compile the target policy, then walk. -/
def find (request : PlanRequest V M) (entries : List (ExtractedEntry V))
    : EStateM (Error V) (PathCache V) (FoundPlan V M) := do
  let resolver ← Py.query (fun _ => compile coordinator.printable coordinator.finder.graph
    coordinator.models request.target)
  let plan ← coordinator.finder.find entries resolver
  return ⟨plan, request.sourceModel⟩

/-- `find` as a step of the coordinator. -/
def findNow (request : PlanRequest V M) (entries : List (ExtractedEntry V))
    : PlanM V M (FoundPlan V M) :=
  Py.zoom CoordinatorState.paths (fun paths state => { state with paths }) .catalog
    (coordinator.find request entries)

/-- `cache.get` -/
def readPlan (key : PlanKey) : PlanM V M (Option (FoundPlan V M)) := fun state =>
  .ok (state.plans.get key).1 { state with plans := (state.plans.get key).2 }

/-- The path plan that a request uses. -/
def pathPlan (request : PlanRequest V M) (entries : List (ExtractedEntry V))
    : PlanM V M (FoundPlan V M) :=
  match coordinator.key request entries with
  | none => coordinator.findNow request entries
  | some key => do
      match ← readPlan key with
      | some found => return found
      | none =>
          let found ← coordinator.findNow request entries
          modify (fun state => { state with plans := state.plans.put key found })
          return found

/-- `ExecutionCoordinator.plan` -/
def plan (request : PlanRequest V M) : PlanM V M (ExecutionPlan V F H) := do
  let entries ← Py.query (fun _ => coordinator.extract request)
  let found ← coordinator.pathPlan request entries
  Py.query (fun _ => (buildPlan coordinator.bindings found.plan request.payload).mapError .catalog)

-----------------------------------------------------------------------------------------
-- Planning without tables
-----------------------------------------------------------------------------------------

/-- What `find` gives without a table of walks. -/
def found (request : PlanRequest V M) (entries : List (ExtractedEntry V))
    : Except (Error V) (FoundPlan V M) := do
  let resolver ← compile coordinator.printable coordinator.finder.graph coordinator.models
    request.target
  let plan ← coordinator.finder.found entries resolver
  return ⟨plan, request.sourceModel⟩

variable {coordinator}

theorem find_answers (request : PlanRequest V M) (entries : List (ExtractedEntry V))
    : Py.Answers coordinator.finder.ValidCache (coordinator.find request entries)
        (coordinator.found request entries) :=
  .bind (.const _ _) (fun resolver =>
    .bind (PathFinder.find_answers entries resolver) (fun _ => .pure _ _))

/-- The walks in the tables are those of the graph and, unless the table of plans is disabled, the
plans are as expected of their keys.
-/
structure Remembers (coordinator : ExecutionCoordinator V M F H)
    (Expected : PlanKey → FoundPlan V M → Prop) (size : Int) (state : CoordinatorState V M)
    : Prop where
  paths : coordinator.finder.ValidCache state.paths
  sized : state.plans.size = size
  plans : size ≠ 0 → state.plans.Holds Expected

variable {Expected : PlanKey → FoundPlan V M → Prop} {size : Int}

theorem findNow_answers (request : PlanRequest V M) (entries : List (ExtractedEntry V))
    : Py.Answers (coordinator.Remembers Expected size) (coordinator.findNow request entries)
        ((coordinator.found request entries).mapError .catalog) :=
  (find_answers request entries).zoom (fun _ remembers => remembers.paths)
    (fun _ _ remembers valid => ⟨valid, remembers.sized, remembers.plans⟩)

omit [VersionValue V] in
theorem readPlan_apply (key : PlanKey) (state : CoordinatorState V M)
    : readPlan key state
      = .ok (state.plans.get key).1 { state with plans := (state.plans.get key).2 } := rfl

/-- Storing a plan that is expected of its key. -/
theorem storePlan_answers {key : PlanKey} {found : FoundPlan V M}
    (fresh : size ≠ 0 → Expected key found)
    : Py.Answers (coordinator.Remembers Expected size)
        (do
          modify (fun state => { state with plans := state.plans.put key found })
          return found : PlanM V M (FoundPlan V M)) (.ok found) := by
  intro state remembers
  refine ⟨rfl, remembers.paths, ?_, ?_⟩
  · have kept : (state.plans.put key found).size = state.plans.size := Py.Lru.size_put _ _
    exact kept.trans remembers.sized
  · intro enabled
    exact (remembers.plans enabled).put (fresh enabled)

/-- Where the plans expected of the key of a request are what the finder finds for it, a request
is answered as it is without a table.
-/
theorem pathPlan_answers {request : PlanRequest V M} {entries : List (ExtractedEntry V)}
    (right : size ≠ 0 → ∀ key plan, coordinator.key request entries = some key →
      Expected key plan → coordinator.found request entries = .ok plan)
    (fresh : size ≠ 0 → ∀ key plan, coordinator.key request entries = some key →
      coordinator.found request entries = .ok plan → Expected key plan)
    : Py.Answers (coordinator.Remembers Expected size) (coordinator.pathPlan request entries)
        ((coordinator.found request entries).mapError .catalog) := by
  unfold pathPlan
  cases keyed : coordinator.key request entries with
  | none => exact findNow_answers request entries
  | some key =>
      intro state remembers
      have kept : coordinator.Remembers Expected size
          { state with plans := (state.plans.get key).2 } := {
        paths := remembers.paths
        sized := (Py.Lru.size_get key).trans remembers.sized
        plans := fun enabled => (remembers.plans enabled).get key
      }
      simp only [Py.outcome, Py.after, Py.bind_apply, readPlan_apply]
      cases answer : (state.plans.get key).1 with
      | some plan =>
          have enabled : size ≠ 0 := by
            intro disabled
            simp [Py.Lru.get, remembers.sized, disabled] at answer
          have expected := remembers.plans enabled key plan (Py.Lru.get?_of_get answer)
          rw [right enabled key plan keyed expected]
          exact ⟨rfl, kept⟩
      | none =>
          have finds := (@findNow_answers _ _ _ _ _ _ coordinator Expected size request
            entries).bind_of_ok (fun plan found => storePlan_answers (fun enabled =>
              fresh enabled key plan keyed (Py.mapError_eq_ok.mp found)))
          have same : ((coordinator.found request entries).mapError .catalog >>= fun plan => .ok plan)
              = (coordinator.found request entries).mapError PlanningError.catalog := by
            cases coordinator.found request entries <;> rfl
          rw [same] at finds
          exact finds _ kept

/-- Where the plans that a request finds are expected of its key, answering it leaves plans in the
table that are expected of theirs.
-/
theorem pathPlan_preserves {request : PlanRequest V M} {entries : List (ExtractedEntry V)}
    (fresh : size ≠ 0 → ∀ key plan, coordinator.key request entries = some key →
      coordinator.found request entries = .ok plan → Expected key plan)
    : Py.Preserves (coordinator.Remembers Expected size)
        (coordinator.pathPlan request entries) := by
  unfold pathPlan
  cases keyed : coordinator.key request entries with
  | none => exact fun state remembers => (findNow_answers request entries state remembers).2
  | some key =>
      refine .bind ?_ (fun answer => ?_)
      · intro state remembers
        exact {
          paths := remembers.paths
          sized := (Py.Lru.size_get key).trans remembers.sized
          plans := fun enabled => (remembers.plans enabled).get key
        }
      · cases answer with
        | some plan => exact .pure _ _
        | none =>
            intro state remembers
            exact ((@findNow_answers _ _ _ _ _ _ coordinator Expected size request
              entries).bind_of_ok (fun plan found => storePlan_answers (fun enabled =>
                fresh enabled key plan keyed (Py.mapError_eq_ok.mp found))) state remembers).2

/-- The tables keep to the plans that are expected while requests are planned. -/
theorem plan_preserves {request : PlanRequest V M}
    (fresh : size ≠ 0 → ∀ entries key plan, coordinator.extract request = .ok entries →
      coordinator.key request entries = some key →
      coordinator.found request entries = .ok plan → Expected key plan)
    : Py.Preserves (coordinator.Remembers Expected size) (coordinator.plan request) := by
  refine .query_bind (fun state entries remembers discovered => ?_)
  refine Py.Preserves.bind (pathPlan_preserves ?_) (fun found => .query _ _) state remembers
  exact fun enabled key plan => fresh enabled entries key plan discovered

end ExecutionCoordinator

end Pyverge
