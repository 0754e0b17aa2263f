import Pyverge.Graph.Paths
import Pyverge.Graph.Queries
import Pyverge.Planning.PathPlan

/-! Path resolution and path policy.
The finder walks the graph for every entry that has a target, and only then asks the policy
engine about the resolved plan. A walk that finds no edge raises before any policy is asked.
-/

namespace Pyverge

variable {V F : Type} [DecidableEq V] [VersionValue V]

-----------------------------------------------------------------------------------------
-- Policies
-----------------------------------------------------------------------------------------

/-- The direction policies; each takes a strict comparison of the two nodes. -/
inductive Direction where
  | any
  | forward
  | backward
  deriving DecidableEq

omit [DecidableEq V] in
def Direction.allows (direction : Direction) (source target : VersionNode V)
    : Except (Error V) Bool :=
  match direction with
  | .any => .ok true
  | .forward => source.id.lt target.id
  | .backward => source.id.gt target.id

inductive ViolationStrategy where
  | skip
  | raise
  deriving DecidableEq

structure PolicyEngine where
  direction : Direction
  onDirectionViolation : ViolationStrategy
  onMissingPath : ViolationStrategy
  depthLimit : Int
  onDepthViolation : ViolationStrategy
  deriving DecidableEq

namespace PolicyEngine

omit [DecidableEq V] [VersionValue V] in
/-- `_violation`: raise, or drop the entry. -/
def violation (graph : MigrationGraph V) (layer message : String)
    : ViolationStrategy → Except (Error V) Bool
  | .raise => .error (.catalogError graph.nameSpace (layer ++ " policy: " ++ message))
  | .skip => .ok false

/-- The body of the loop of `apply`: whether an entry is kept. An entry without edges has no
steps either, so there are no edges to make up from its steps.
-/
def keeps (engine : PolicyEngine) (graph : MigrationGraph V) (entry : PathPlanEntry V)
    : Except (Error V) Bool := do
  let ends := entry.source.id.str ++ " -> " ++ entry.target.id.str
  if !(← engine.direction.allows entry.source entry.target) then
    violation graph "direction" ("direction policy rejected " ++ ends) engine.onDirectionViolation
  else if 0 ≤ engine.depthLimit ∧ engine.depthLimit < entry.steps.length then
    violation graph "depth" ("path depth " ++ toString entry.steps.length ++ " exceeds limit "
      ++ toString engine.depthLimit) engine.onDepthViolation
  else if !(← entry.source.id.eq entry.target.id) && entry.steps.isEmpty then
    violation graph "missing path" ("No migration path for " ++ ends) engine.onMissingPath
  else if entry.edges.any (fun edge => !graph.hasMigration edge) then
    violation graph "missing path" ("Missing migration edge on " ++ ends) engine.onMissingPath
  else return true

/-- The loop of `apply`. -/
def keepAll (engine : PolicyEngine) (graph : MigrationGraph V)
    : List (PathPlanEntry V) → Except (Error V) (List (PathPlanEntry V))
  | [] => .ok []
  | entry :: rest => do
      let kept ← engine.keeps graph entry
      let others ← engine.keepAll graph rest
      return if kept then entry :: others else others

def apply (engine : PolicyEngine) (graph : MigrationGraph V) (plan : PathPlan V)
    : Except (Error V) (PathPlan V) :=
  (engine.keepAll graph plan.entries).map PathPlan.mk

end PolicyEngine

-----------------------------------------------------------------------------------------
-- The finder
-----------------------------------------------------------------------------------------

/-- Cached resolution of one source and target pair. -/
structure ResolvedPath (V : Type) where
  steps : List (Comparable V × Comparable V)
  edges : List (EdgeId V)
  aligned : steps.length = edges.length

omit [DecidableEq V] [VersionValue V] in
def ResolvedPath.ofEdges (path : List (EdgePair V)) : ResolvedPath V where
  steps := path.map (fun edge => (edge.source, edge.target))
  edges := path.map EdgePair.id
  aligned := by simp

/-- The `_cache` of the finder. -/
abbrev PathCache (V : Type) [DecidableEq V] := Py.Dict (NodeId V × NodeId V) (ResolvedPath V)

/-- Resolves a discovered version to its target node, or skips it. -/
abbrev TargetResolver (V : Type) := VersionNode V → Except (Error V) (Option (VersionNode V))

structure PathFinder (V : Type) where
  graph : MigrationGraph V
  policy : PolicyEngine
  discriminator : String

omit [DecidableEq V] [VersionValue V] in
/-- The plan entry of an extracted entry along a resolved path. -/
def ExtractedEntry.planned (entry : ExtractedEntry V) (target : VersionNode V)
    (resolved : ResolvedPath V) : PathPlanEntry V where
  path := entry.path
  source := entry.node
  target
  targetModel := target.descriptor.ref
  steps := resolved.steps
  edges := resolved.edges
  aligned := resolved.aligned

namespace PathFinder

/-- `_resolve` -/
def resolve (finder : PathFinder V) (entry : ExtractedEntry V) (target : VersionNode V)
    : EStateM (Error V) (PathCache V) (PathPlanEntry V) := do
  let cache ← get
  match cache.get? (entry.node.id, target.id) with
  | some cached => return entry.planned target cached
  | none =>
      let path ← Py.query (fun _ =>
        finder.graph.edgePath entry.node.id target.id finder.discriminator)
      modify (fun cache => cache.set (entry.node.id, target.id) (.ofEdges path))
      return entry.planned target (.ofEdges path)

/-- `_plan` -/
def plan (finder : PathFinder V) (resolver : TargetResolver V)
    : List (ExtractedEntry V) → EStateM (Error V) (PathCache V) (List (PathPlanEntry V))
  | [] => return []
  | entry :: rest => do
      match ← Py.query (fun _ => resolver entry.node) with
      | none => finder.plan resolver rest
      | some target =>
          let first ← finder.resolve entry target
          let others ← finder.plan resolver rest
          return first :: others

/-- `find`, for a compiled target policy. -/
def find (finder : PathFinder V) (entries : List (ExtractedEntry V)) (resolver : TargetResolver V)
    : EStateM (Error V) (PathCache V) (PathPlan V) := do
  let resolved ← finder.plan resolver entries
  Py.query (fun _ => finder.policy.apply finder.graph ⟨resolved⟩)

-----------------------------------------------------------------------------------------
-- The cache changes nothing
-----------------------------------------------------------------------------------------

/-- What the cache holds is what the graph answers. -/
def ValidCache (finder : PathFinder V) (cache : PathCache V) : Prop :=
  ∀ source target cached, cache.get? (source, target) = some cached →
    ∃ path, finder.graph.edgePath source target finder.discriminator = .ok path
      ∧ cached = .ofEdges path

/-- `_resolve` without a cache. -/
def resolved (finder : PathFinder V) (entry : ExtractedEntry V) (target : VersionNode V)
    : Except (Error V) (PathPlanEntry V) :=
  (finder.graph.edgePath entry.node.id target.id finder.discriminator).map
    (fun path => entry.planned target (.ofEdges path))

/-- `_plan` without a cache. -/
def planned (finder : PathFinder V) (resolver : TargetResolver V)
    : List (ExtractedEntry V) → Except (Error V) (List (PathPlanEntry V))
  | [] => .ok []
  | entry :: rest => do
      match ← resolver entry.node with
      | none => finder.planned resolver rest
      | some target =>
          let first ← finder.resolved entry target
          let others ← finder.planned resolver rest
          return first :: others

/-- `find` without a cache. -/
def found (finder : PathFinder V) (entries : List (ExtractedEntry V))
    (resolver : TargetResolver V) : Except (Error V) (PathPlan V) := do
  let resolved ← finder.planned resolver entries
  finder.policy.apply finder.graph ⟨resolved⟩

variable {finder : PathFinder V}

theorem resolve_of_cached {entry : ExtractedEntry V} {target : VersionNode V}
    {cache : PathCache V} {cached : ResolvedPath V}
    (stored : cache.get? (entry.node.id, target.id) = some cached)
    : finder.resolve entry target cache = .ok (entry.planned target cached) cache := by
  unfold resolve
  simp only [Py.bind_apply, Py.get_apply, stored]
  rfl

theorem resolve_of_fresh {entry : ExtractedEntry V} {target : VersionNode V}
    {cache : PathCache V} (absent : cache.get? (entry.node.id, target.id) = none)
    : finder.resolve entry target cache
      = ((Py.query (fun _ =>
            finder.graph.edgePath entry.node.id target.id finder.discriminator) >>= fun path =>
          modify (fun cache => cache.set (entry.node.id, target.id) (.ofEdges path)) >>= fun _ =>
            pure (entry.planned target (.ofEdges path)))
        : EStateM (Error V) (PathCache V) (PathPlanEntry V)) cache := by
  unfold resolve
  simp only [Py.bind_apply, Py.get_apply, absent]

/-- A lookup through a valid cache answers as the graph does. -/
theorem resolve_answers (entry : ExtractedEntry V) (target : VersionNode V)
    : Py.Answers finder.ValidCache (finder.resolve entry target)
        (finder.resolved entry target) := by
  intro cache valid
  unfold resolved
  cases stored : cache.get? (entry.node.id, target.id) with
  | some cached =>
      obtain ⟨path, walked, rfl⟩ := valid _ _ _ stored
      have ran : finder.resolve entry target cache
          = .ok (entry.planned target (.ofEdges path)) cache := resolve_of_cached stored
      rw [Py.after_of_ok ran, Py.outcome, ran, walked]
      exact ⟨rfl, valid⟩
  | none =>
      rw [Py.outcome, Py.after, resolve_of_fresh stored]
      simp only [Py.bind_apply, Py.query_apply]
      cases walked : finder.graph.edgePath entry.node.id target.id finder.discriminator with
      | error error => exact ⟨rfl, valid⟩
      | ok path =>
          refine ⟨rfl, ?_⟩
          intro from_ to_ cached found
          change (cache.set (entry.node.id, target.id) (.ofEdges path)).get? (from_, to_)
            = some cached at found
          rw [Py.Dict.get?_set] at found
          split at found
          case isTrue same =>
            obtain ⟨rfl, rfl⟩ := Prod.mk.inj same
            exact ⟨path, walked, (Option.some.inj found).symm⟩
          case isFalse => exact valid from_ to_ cached found

theorem plan_answers (resolver : TargetResolver V) (entries : List (ExtractedEntry V))
    : Py.Answers finder.ValidCache (finder.plan resolver entries)
        (finder.planned resolver entries) := by
  induction entries with
  | nil => exact .pure _ _
  | cons entry rest ih =>
      refine .bind (.const _ _) (fun target => ?_)
      cases target with
      | none => exact ih
      | some target =>
          exact .bind (resolve_answers entry target) (fun first => .bind ih (fun _ => .pure _ _))

/-- Whatever was looked up before, the finder finds what it would find without a cache. -/
theorem find_answers (entries : List (ExtractedEntry V)) (resolver : TargetResolver V)
    : Py.Answers finder.ValidCache (finder.find entries resolver)
        (finder.found entries resolver) :=
  .bind (plan_answers resolver entries) (fun _ => .const _ _)

/-- Where every entry has a target and a walk to it, each is planned along its walk. -/
theorem planned_of_walks {resolver : TargetResolver V} {entries : List (ExtractedEntry V)}
    (walks : ∀ entry ∈ entries, ∃ target path, resolver entry.node = .ok (some target)
      ∧ finder.graph.edgePath entry.node.id target.id finder.discriminator = .ok path)
    : ∃ plans, finder.planned resolver entries = .ok plans
        ∧ List.Forall₂ (fun entry plan => ∃ target path, resolver entry.node = .ok (some target)
          ∧ finder.graph.edgePath entry.node.id target.id finder.discriminator = .ok path
          ∧ plan = entry.planned target (.ofEdges path)) entries plans := by
  induction entries with
  | nil => exact ⟨[], rfl, .nil⟩
  | cons entry rest ih =>
      obtain ⟨target, path, aimed, walked⟩ := walks entry List.mem_cons_self
      obtain ⟨others, later, planned⟩ :=
        ih (fun other member => walks other (List.mem_cons_of_mem _ member))
      refine ⟨entry.planned target (.ofEdges path) :: others, ?_,
        .cons ⟨target, path, aimed, walked, rfl⟩ planned⟩
      simp only [PathFinder.planned, aimed, resolved, walked, later, bind, Except.bind, Except.map]
      rfl

/-- The policies drop entries and change none. -/
theorem keepAll_sublist {engine : PolicyEngine} {graph : MigrationGraph V}
    {entries kept : List (PathPlanEntry V)} (ran : engine.keepAll graph entries = .ok kept)
    : kept.Sublist entries := by
  induction entries generalizing kept with
  | nil =>
      obtain rfl := Except.ok.inj ran
      exact .slnil
  | cons entry rest ih =>
      obtain ⟨keeping, _, ran⟩ := Py.ok_bind_iff.mp ran
      obtain ⟨others, later, ran⟩ := Py.ok_bind_iff.mp ran
      obtain rfl := Except.ok.inj ran
      cases keeping with
      | true => exact (ih later).cons_cons entry
      | false => exact (ih later).cons entry

/-- Resolved entries are entries with a target, in their order. -/
theorem planned_sublist {resolver : TargetResolver V} {entries : List (ExtractedEntry V)}
    {plans : List (PathPlanEntry V)} (ran : finder.planned resolver entries = .ok plans)
    : (plans.map (fun plan => (plan.path, plan.source))).Sublist
        (entries.map (fun entry => (entry.path, entry.node))) := by
  induction entries generalizing plans with
  | nil =>
      obtain rfl := Except.ok.inj ran
      exact .slnil
  | cons entry rest ih =>
      obtain ⟨aim, _, ran⟩ := Py.ok_bind_iff.mp ran
      cases aim with
      | none => exact (ih ran).cons _
      | some target =>
          obtain ⟨first, resolvedTo, ran⟩ := Py.ok_bind_iff.mp ran
          obtain ⟨others, later, ran⟩ := Py.ok_bind_iff.mp ran
          obtain rfl := Except.ok.inj ran
          unfold resolved at resolvedTo
          cases walked : finder.graph.edgePath entry.node.id target.id finder.discriminator with
          | error error => simp [walked, Except.map] at resolvedTo
          | ok path =>
              rw [walked] at resolvedTo
              obtain rfl := Except.ok.inj resolvedTo
              exact (ih later).cons_cons _

/-- What is found lies at the paths of entries and starts from their nodes. -/
theorem found_sublist {entries : List (ExtractedEntry V)} {resolver : TargetResolver V}
    {plan : PathPlan V} (ran : finder.found entries resolver = .ok plan)
    : (plan.entries.map (fun entry => (entry.path, entry.source))).Sublist
        (entries.map (fun entry => (entry.path, entry.node))) := by
  obtain ⟨plans, planned, ran⟩ := Py.ok_bind_iff.mp ran
  unfold PolicyEngine.apply at ran
  cases kept : finder.policy.keepAll finder.graph plans with
  | error error => simp [kept, Except.map] at ran
  | ok entries =>
      rw [kept] at ran
      obtain rfl := Except.ok.inj ran
      exact ((keepAll_sublist kept).map _).trans (planned_sublist planned)

/-- The caches a finder has after earlier finds. -/
inductive CacheReached (finder : PathFinder V) : PathCache V → Prop where
  | empty : CacheReached finder ∅
  | find (entries : List (ExtractedEntry V)) (resolver : TargetResolver V) {cache : PathCache V}
      : CacheReached finder cache →
        CacheReached finder (Py.after (finder.find entries resolver) cache)

theorem CacheReached.valid {cache : PathCache V} (reached : finder.CacheReached cache)
    : finder.ValidCache cache := by
  induction reached with
  | empty =>
      intro source target cached stored
      cases stored
  | find entries resolver _ ih => exact (find_answers entries resolver _ ih).2

theorem CacheReached.outcome_find {cache : PathCache V} (reached : finder.CacheReached cache)
    (entries : List (ExtractedEntry V)) (resolver : TargetResolver V)
    : Py.outcome (finder.find entries resolver) cache = finder.found entries resolver :=
  (find_answers entries resolver _ reached.valid).1

end PathFinder

end Pyverge
