import Pyverge.Py.Heap
import Pyverge.Runtime.Plan

/-! Executing a plan on objects that steps may change in place.
What a step does is told in terms of what can be seen from the mapping it is given: the objects it
creates, the new contents of objects it reaches, and what it returns.
-/

namespace Pyverge.InPlace

open Py (Json)

variable {V F H : Type}

abbrev Value := Py.Value Json

abbrev Heap := Py.Heap Json

-----------------------------------------------------------------------------------------
-- Reading
-----------------------------------------------------------------------------------------

def memberOf {σ : Type} (name : String) : List (String × σ) → Option σ
  | [] => none
  | member :: rest => if member.1 = name then some member.2 else memberOf name rest

/-- `contents[step]` -/
def itemOf {σ : Type} : Py.Object σ → PathStep → Except Raised σ
  | .list items, .index place =>
      match items[place]? with
      | some item => .ok item
      | none => .error listIndexError
  | .dict members, .key name =>
      match memberOf name members with
      | some value => .ok value
      | none => .error (missingKey (.key name))
  | .dict _, .index place => .error (missingKey (.index place))
  | .list _, .key _ => .error (.typeError "list indices must be integers or slices, not str")

/-- `current[step]` on the heap; atoms are scalars. -/
def Heap.getItem (heap : Heap) : Value → PathStep → Except Raised Value
  | .atom value, step => (Pyverge.getItem value step).map .atom
  | .ref address, step =>
      match heap[address]? with
      | some contents => itemOf contents step
      | none => .error (missingKey step)

/-- `Path.get` on the heap -/
def Heap.get (heap : Heap) : Path → Value → Except Raised Value
  | [], value => .ok value
  | step :: rest, value => do
      let child ← heap.getItem value step
      Heap.get heap rest child

/-- What there is to see of one value. -/
inductive Shape where
  | atom (value : Json)
  | object (contents : Py.Object Unit)
  deriving DecidableEq

/-- What there is to see from one value: what each path leads to, and which lead to one object. -/
structure View where
  shape : Path → Option Shape
  same : Path → Path → Bool

def Heap.shapeOf (heap : Heap) : Value → Option Shape
  | .atom value => some (.atom value)
  | .ref address => heap[address]?.map (fun contents => .object (contents.map (fun _ => ())))

def Value.isSame : Value → Value → Bool
  | .ref address, .ref other => address == other
  | _, _ => false

def Heap.view (heap : Heap) (root : Value) : View where
  shape := fun path => (heap.get path root).toOption.bind heap.shapeOf
  same := fun path other =>
    match heap.get path root, heap.get other root with
    | .ok value, .ok found => Value.isSame value found
    | _, _ => false

-----------------------------------------------------------------------------------------
-- What a step does
-----------------------------------------------------------------------------------------

/-- A value in terms of what was given to a step and of what it has created. -/
inductive Slot where
  | atom (value : Json)
  | given (path : Path)
  | created (index : Nat)
  deriving DecidableEq

/-- The objects that a step creates, the new contents of objects that it reaches, and what it
returns or raises then.
-/
structure Work where
  created : List (Py.Object Slot)
  writes : List (Path × Py.Object Slot)
  result : Except Raised Slot

/-- A path that leads nowhere stands for `None`, one to no object is not written at. -/
def Slot.resolve (heap : Heap) (given : Value) : Slot → Value
  | .atom value => .atom value
  | .given path => (heap.get path given).toOption.getD (.atom .null)
  | .created index => .ref (heap.length + index)

def Heap.target (heap : Heap) (given : Value) (path : Path) : Option Nat :=
  match heap.get path given with
  | .ok (.ref address) => some address
  | _ => none

namespace Work

variable (work : Work) (heap : Heap) (given : Value)

def objects : Heap := work.created.map (Py.Object.map (Slot.resolve heap given))

def updates : List (Nat × Py.Object Value) :=
  work.writes.filterMap (fun write => (heap.target given write.1).map
    (fun address => (address, write.2.map (Slot.resolve heap given))))

/-- The heap after the creations and the writes. -/
def apply : Heap :=
  (work.updates heap given).foldl (fun heap update => heap.set update.1 update.2)
    (heap ++ work.objects heap given)

end Work

def setMemberOf {σ : Type} (name : String) (value : σ) : List (String × σ) → List (String × σ)
  | [] => [(name, value)]
  | member :: rest =>
      if member.1 = name then (name, value) :: rest else member :: setMemberOf name value rest

/-- `if isinstance(current, dict): current[adapter.version_property] = …` -/
def Heap.stamp (heap : Heap) (property version : String) : Value → Heap
  | .atom _ => heap
  | .ref address =>
      match heap[address]? with
      | some (.dict members) =>
          heap.set address (.dict (setMemberOf property (.atom (.str version)) members))
      | _ => heap

/-- One call of a step: the mapping it is given, the heap before, and what it does. -/
structure Call (V F H : Type) where
  step : BoundStep V F H
  given : Value
  heap : Heap
  work : Work

section Steps

variable [VersionValue V]

/-- The heap that a call and the stamp after it leave. -/
def Call.left (property : String) (call : Call V F H) : Heap :=
  match call.work.result with
  | .ok slot => (call.work.apply call.heap call.given).stamp property
      (VersionValue.str call.step.context.target.id.version) (slot.resolve call.heap call.given)
  | .error _ => call.work.apply call.heap call.given

/-- What the steps of a plan do, hooks included, by what they see. -/
abbrev Steps (V F H : Type) := BoundStep V F H → View → Work

abbrev HeapM (V F H : Type) := EStateM Raised (Py.Memory Json (Call V F H))

variable (steps : Steps V F H) (property : String)

/-- One turn of the loop of `execute_sync`. -/
def turn (step : BoundStep V F H) (given : Value) : HeapM V F H Value := fun memory =>
  let call : Call V F H := ⟨step, given, memory.heap, steps step (Heap.view memory.heap given)⟩
  let reached := ⟨call.left property, memory.calls ++ [call]⟩
  match call.work.result with
  | .ok slot => .ok (slot.resolve memory.heap given) reached
  | .error error => .error error reached

/-- `execute_sync` -/
def turns : List (BoundStep V F H) → Value → HeapM V F H Value
  | [], current => return current
  | step :: rest, current => do
      let migrated ← turn steps property step current
      turns rest migrated

/-- A new object. -/
def alloc (contents : Py.Object Value) : HeapM V F H Value := fun memory =>
  .ok (.ref memory.heap.length) { memory with heap := memory.heap ++ [contents] }

/-- What `_replace_at` clones on its way, and what it goes on with. -/
def Heap.entry (heap : Heap) : Value → PathStep → Except Raised (Py.Object Value × Value)
  | .ref address, step =>
      match heap[address]?, step with
      | some (.list _), .key name => .error (listPathError name)
      | some (.dict _), .index place => .error (mappingPathError place)
      | some contents, step => (itemOf contents step).map (contents, ·)
      | none, step => .error (missingKey step)
  | .atom _, .index place => .error (mappingPathError place)
  | .atom value, .key _ => .error (scalarPathError value)

def putItem {σ : Type} : Py.Object σ → PathStep → σ → Py.Object σ
  | .list items, .index place, value => .list (items.set place value)
  | .dict members, .key name, value => .dict (setMemberOf name value members)
  | contents, _, _ => contents

/-- `_replace_at`: objects on the way are cloned, all others are shared. -/
def replaceOn (value : Value) : Path → Value → HeapM V F H Value
  | [], replacement => return replacement
  | head :: tail, replacement => do
      let (contents, item) ← Py.query (fun memory => Heap.entry memory.heap value head)
      let child ← replaceOn item tail replacement
      alloc (putItem contents head child)

/-- One entry: what it finds in the data, and where its result goes. -/
def runEntryOn (data : Value) (entry : ExecutionEntry V F H) : HeapM V F H (Path × Value) := do
  let value ← Py.query (fun memory => Heap.get memory.heap entry.path data)
  let result ← turns steps property entry.boundSteps value
  return (entry.path, result)

/-- `apply_results` -/
def applyResultsOn : List (Path × Value) → Value → HeapM V F H Value
  | [], data => return data
  | result :: rest, data => do
      let updated ← replaceOn data result.1 result.2
      applyResultsOn rest updated

/-- `ThreadedBackend.execute`, one entry after the other. -/
def executeOn : List (List (ExecutionEntry V F H)) → Value → HeapM V F H Value
  | [], data => return data
  | level :: rest, data => do
      let results ← level.mapM (runEntryOn steps property data)
      let next ← applyResultsOn results data
      executeOn rest next

end Steps

-----------------------------------------------------------------------------------------
-- Copying and retrying
-----------------------------------------------------------------------------------------

mutual

/-- `copy.deepcopy` of a tree -/
def deepcopy : Json → Heap → Value × Heap
  | .arr items, heap =>
      let (values, reached) := deepcopyItems items heap
      (.ref reached.length, reached ++ [.list values])
  | .obj members, heap =>
      let (values, reached) := deepcopyMembers members heap
      (.ref reached.length, reached ++ [.dict values])
  | value, heap => (.atom value, heap)

def deepcopyItems : List Json → Heap → List Value × Heap
  | [], heap => ([], heap)
  | item :: rest, heap =>
      let (value, reached) := deepcopy item heap
      let (values, final) := deepcopyItems rest reached
      (value :: values, final)

def deepcopyMembers : List (String × Json) → Heap → List (String × Value) × Heap
  | [], heap => ([], heap)
  | (name, item) :: rest, heap =>
      let (value, reached) := deepcopy item heap
      let (values, final) := deepcopyMembers rest reached
      ((name, value) :: values, final)

end

/-- How far a step gets that fails for the time being. -/
structure Interruption where
  created : List (Py.Object Slot)
  writes : List (Path × Py.Object Slot)
  error : Raised

/-- What the steps do, and how they fail in some attempts. -/
structure Workload (V F H : Type) where
  calm : Steps V F H
  faults : Nat → BoundStep V F H → View → Option Interruption

/-- What the steps do in one attempt. -/
def Workload.during (workload : Workload V F H) (attempt : Nat) : Steps V F H := fun step view =>
  match workload.faults attempt step view with
  | some fault => ⟨fault.created, fault.writes, .error fault.error⟩
  | none => workload.calm step view

section Retry

variable [VersionValue V] (workload : Workload V F H) (property : String)
  (plan : ExecutionPlan V F H)

/-- What `_copy` makes of the payload under the policy `deep`. -/
def copied : Value := (deepcopy plan.payload []).1

def payloadHeap : Heap := (deepcopy plan.payload []).2

/-- One attempt, on the copy that was made before the first. -/
def Workload.attempt (number : Nat) : HeapM V F H Value :=
  executeOn (workload.during number) property plan.levels (copied plan)

/-- The attempts of `_Retry.execute` from one on, as often again as told. -/
def Workload.retrying : Nat → Nat → HeapM V F H Value
  | number, 0 => workload.attempt property plan number
  | number, more + 1 =>
      tryCatch (workload.attempt property plan number) (fun error =>
        if error.isException then Workload.retrying (number + 1) more else throw error)

/-- `Runner.execute` under `RetryMiddleware(attempts)` -/
def Workload.execute (attempts : Nat) : EStateM.Result Raised (Py.Memory Json (Call V F H)) Value :=
  workload.retrying property plan 0 (attempts - 1) ⟨payloadHeap plan, []⟩

end Retry

end Pyverge.InPlace
