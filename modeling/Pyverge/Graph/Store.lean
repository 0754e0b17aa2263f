import Pyverge.Graph.Snapshot
import Pyverge.Registry.Runs

/-! Publication of locked graphs through a store with compare-and-swap checks.
Clients read what is published and later save with an expectation taken from what they have
read. Calls are atomic and may come in any order.
-/

namespace Pyverge

variable {V T C : Type}

-----------------------------------------------------------------------------------------
-- The store
-----------------------------------------------------------------------------------------

/-- A content revision plus its publication chronology. -/
structure PublishedRevision (T : Type) where
  revision : Revision
  generation : Nat
  generatedAt : T
  deriving DecidableEq

structure MemoryGraphStore (V T : Type) where
  graph : Option (MigrationGraph V)
  published : Option (PublishedRevision T)
  deriving DecidableEq

inductive StoreError where
  | revisionConflict (message : String)
  | raised (name : String)
  deriving DecidableEq

namespace MemoryGraphStore

def new : MemoryGraphStore V T := ⟨none, none⟩

/-- Publish a graph. Expectations that are given have to match what is published, so they fail
on an empty store; the clock is read after both checks.
-/
def save (clock : Except StoreError T) (graph : MigrationGraph V)
    (expectedRevision : Option Revision) (expectedGeneration : Option Nat)
    : EStateM StoreError (MemoryGraphStore V T) (PublishedRevision T) := do
  let current ← Py.query (fun store => .ok store.published)
  if expectedRevision.any (fun expected =>
      !current.any (fun published => published.revision.eq expected)) then
    throw (.revisionConflict "Stored revision does not match the expected revision")
  if expectedGeneration.any (fun expected =>
      !current.any (fun published => published.generation == expected)) then
    throw (.revisionConflict "Stored generation does not match the expected generation")
  let generatedAt ← Py.query (fun _ => clock)
  let published : PublishedRevision T := {
    revision := graph.revision
    generation := (current.map (·.generation)).getD 0 + 1
    generatedAt
  }
  modify (fun store => { store with graph := some graph })
  modify (fun store => { store with published := some published })
  return published

def load (store : MemoryGraphStore V T) : Option (MigrationGraph V) := store.graph

end MemoryGraphStore

-----------------------------------------------------------------------------------------
-- Clients
-----------------------------------------------------------------------------------------

/-- What a client has read, and how many saves had succeeded by then. -/
structure StoreView (T : Type) where
  seen : Option (PublishedRevision T)
  since : Nat

/-- A save that expects the generation the client has read and, if asked to, the revision. A
client that has read nothing has nothing to expect.
-/
def StoreView.save (view : StoreView T) (checkRevision : Bool) (clock : Except StoreError T)
    (graph : MigrationGraph V)
    : EStateM StoreError (MemoryGraphStore V T) (PublishedRevision T) :=
  MemoryGraphStore.save clock graph
    (if checkRevision then view.seen.map (·.revision) else none)
    (view.seen.map (·.generation))

/-- A store with its clients, and what its successful saves have returned so far. -/
structure StoreSystem (C V T : Type) where
  store : MemoryGraphStore V T
  views : C → Option (StoreView T)
  history : List (PublishedRevision T)

namespace StoreSystem

def start : StoreSystem C V T := ⟨.new, fun _ => none, []⟩

def read [DecidableEq C] (system : StoreSystem C V T) (client : C) : StoreSystem C V T :=
  { system with
    views := fun other =>
      if other = client then some ⟨system.store.published, system.history.length⟩
      else system.views other }

def save (system : StoreSystem C V T) (view : StoreView T) (checkRevision : Bool)
    (clock : Except StoreError T) (graph : MigrationGraph V) : StoreSystem C V T :=
  match view.save checkRevision clock graph system.store with
  | .ok published store => { system with store, history := system.history ++ [published] }
  | .error _ store => { system with store }

end StoreSystem

/-- The systems that any interleaving of reads and saves leads to. -/
inductive StoreReached [DecidableEq C] : StoreSystem C V T → Prop where
  | start : StoreReached .start
  | read {system : StoreSystem C V T} (client : C) (reached : StoreReached system)
      : StoreReached (system.read client)
  | save {system : StoreSystem C V T} (client : C) {view : StoreView T}
      (seen : system.views client = some view) (checkRevision : Bool)
      (clock : Except StoreError T) (graph : MigrationGraph V) (reached : StoreReached system)
      : StoreReached (system.save view checkRevision clock graph)

-----------------------------------------------------------------------------------------
-- What one save does
-----------------------------------------------------------------------------------------

namespace MemoryGraphStore

/-- What a save publishes over the current state. -/
def next (store : MemoryGraphStore V T) (graph : MigrationGraph V) (generatedAt : T)
    : PublishedRevision T :=
  ⟨graph.revision, (store.published.map (·.generation)).getD 0 + 1, generatedAt⟩

/-- The given expectations match what is published. -/
def Meets (store : MemoryGraphStore V T) (expectedRevision : Option Revision)
    (expectedGeneration : Option Nat) : Prop :=
  (∀ expected, expectedRevision = some expected →
      ∃ published, store.published = some published ∧ published.revision.eq expected = true)
    ∧ ∀ expected, expectedGeneration = some expected →
      ∃ published, store.published = some published ∧ published.generation = expected

/-- A save whose expectations are met publishes the graph, unless the clock raises. -/
theorem save_met {clock : Except StoreError T} {graph : MigrationGraph V}
    {expectedRevision : Option Revision} {expectedGeneration : Option Nat}
    {store : MemoryGraphStore V T} (met : store.Meets expectedRevision expectedGeneration)
    : save clock graph expectedRevision expectedGeneration store
      = match clock with
        | .ok now => .ok (store.next graph now) ⟨some graph, some (store.next graph now)⟩
        | .error error => .error error store := by
  obtain ⟨revisions, generations⟩ := met
  have revision : expectedRevision.any (fun expected =>
      !store.published.any (fun published => published.revision.eq expected)) = false := by
    cases expectedRevision with
    | none => rfl
    | some expected =>
        obtain ⟨published, current, same⟩ := revisions expected rfl
        simp [current, same]
  have generation : expectedGeneration.any (fun expected =>
      !store.published.any (fun published => published.generation == expected)) = false := by
    cases expectedGeneration with
    | none => rfl
    | some expected =>
        obtain ⟨published, current, same⟩ := generations expected rfl
        simp [current, same]
  simp only [save, Py.query_bind_eq, revision, generation, Bool.false_eq_true, if_false]
  cases clock <;> rfl

/-- A save with an expectation that is not met is refused. -/
theorem save_unmet (clock : Except StoreError T) (graph : MigrationGraph V)
    {expectedRevision : Option Revision} {expectedGeneration : Option Nat}
    {store : MemoryGraphStore V T} (unmet : ¬ store.Meets expectedRevision expectedGeneration)
    : ∃ error, save clock graph expectedRevision expectedGeneration store
      = .error error store := by
  simp only [save, Py.query_bind_eq]
  cases revision : expectedRevision.any (fun expected =>
      !store.published.any (fun published => published.revision.eq expected)) with
  | true => exact ⟨_, rfl⟩
  | false =>
      cases generation : expectedGeneration.any (fun expected =>
          !store.published.any (fun published => published.generation == expected)) with
      | true => exact ⟨_, rfl⟩
      | false =>
          refine absurd ⟨?_, ?_⟩ unmet
          · rintro expected rfl
            simpa [Option.any_eq_true] using revision
          · rintro expected rfl
            simpa [Option.any_eq_true] using generation

end MemoryGraphStore

-----------------------------------------------------------------------------------------
-- What every interleaving keeps
-----------------------------------------------------------------------------------------

/-- The saves that have succeeded published the generations one, two, three and so on; the last
of them is what is published, and the loaded graph is the one it published.
-/
structure StoreSystem.PublishesInOrder (system : StoreSystem C V T) : Prop where
  generations : system.history.map (·.generation) = List.range' 1 system.history.length
  published : system.store.published = system.history.getLast?
  loaded : system.store.load.map (·.revision) = system.store.published.map (·.revision)

/-- A client has read what the save before its read had published. -/
def StoreSystem.ReadsHistory (system : StoreSystem C V T) : Prop :=
  ∀ client view, system.views client = some view →
    view.since ≤ system.history.length ∧ view.seen = (system.history.take view.since).getLast?

/-- The save after which a client has read published the generation of its number. -/
theorem generation_of_take {history : List (PublishedRevision T)}
    (generations : history.map (·.generation) = List.range' 1 history.length) {count : Nat}
    (inside : count ≤ history.length) {published : PublishedRevision T}
    (last : (history.take count).getLast? = some published)
    : published.generation = count := by
  rw [List.getLast?_eq_getElem?, List.length_take, Nat.min_eq_left inside,
    List.getElem?_take] at last
  have at_ := congrArg (Option.map (fun saved : PublishedRevision T => saved.generation)) last
  split at at_
  · rw [← List.getElem?_map, generations, List.getElem?_range' (by omega)] at at_
    have number : 1 + 1 * (count - 1) = published.generation := Option.some.inj at_
    omega
  · cases at_

theorem StoreSystem.PublishesInOrder.generation {system : StoreSystem C V T}
    (order : system.PublishesInOrder) {published : PublishedRevision T}
    (current : system.store.published = some published)
    : published.generation = system.history.length := by
  refine generation_of_take order.generations le_rfl ?_
  rw [List.take_length, ← order.published, current]

/-- The next generation is the number of the next save. -/
theorem StoreSystem.PublishesInOrder.next {system : StoreSystem C V T}
    (order : system.PublishesInOrder) (graph : MigrationGraph V) (now : T)
    : (system.store.next graph now).generation = system.history.length + 1 := by
  unfold MemoryGraphStore.next
  cases current : system.store.published with
  | some published =>
      rw [Option.map_some, Option.getD_some, order.generation current]
  | none =>
      have empty := order.published
      rw [current] at empty
      rw [List.getLast?_eq_none_iff.mp empty.symm]
      rfl

theorem Revision.eq_self (revision : Revision) : revision.eq revision = true := by
  simp [Revision.eq, Py.Dict.sameMapping]

/-- The expectations of a client are met exactly if it has none or no save has succeeded since it
read.
-/
theorem StoreSystem.meets_iff {system : StoreSystem C V T} (order : system.PublishesInOrder)
    {view : StoreView T} (inside : view.since ≤ system.history.length)
    (seen : view.seen = (system.history.take view.since).getLast?) (checkRevision : Bool)
    : system.store.Meets (if checkRevision then view.seen.map (·.revision) else none)
        (view.seen.map (·.generation))
      ↔ (view.seen.isSome → view.since = system.history.length) := by
  constructor
  · intro met present
    obtain ⟨published, read⟩ := Option.isSome_iff_exists.mp present
    obtain ⟨current, stored, same⟩ := met.2 published.generation (by simp [read])
    rw [← generation_of_take order.generations inside (seen.symm.trans read), ← same]
    exact order.generation stored
  · intro current
    cases read : view.seen with
    | none => simp [MemoryGraphStore.Meets]
    | some published =>
        have stored : system.store.published = some published := by
          rw [order.published, ← read, seen, current (by simp [read]), List.take_length]
        refine ⟨?_, ?_⟩
        · intro expected asked
          refine ⟨published, stored, ?_⟩
          split at asked
          · obtain rfl : published.revision = expected := by simpa using asked
            exact Revision.eq_self _
          · cases asked
        · intro expected asked
          exact ⟨published, stored, by simpa using asked⟩

/-- A save succeeds exactly if the clock does and the client has nothing to expect or no save has
succeeded since it read; a refused one leaves the store as it is.
-/
theorem StoreSystem.save_cases {system : StoreSystem C V T} (order : system.PublishesInOrder)
    {view : StoreView T} (inside : view.since ≤ system.history.length)
    (seen : view.seen = (system.history.take view.since).getLast?) (checkRevision : Bool)
    (clock : Except StoreError T) (graph : MigrationGraph V)
    : (∃ now, clock = .ok now ∧ (view.seen.isSome → view.since = system.history.length)
          ∧ view.save checkRevision clock graph system.store
            = .ok (system.store.next graph now) ⟨some graph, some (system.store.next graph now)⟩)
      ∨ ∃ error, view.save checkRevision clock graph system.store = .error error system.store := by
  have meets := meets_iff order inside seen checkRevision
  by_cases current : view.seen.isSome → view.since = system.history.length
  · have run := @MemoryGraphStore.save_met _ _ clock graph _ _ _ (meets.mpr current)
    cases clock with
    | ok now => exact .inl ⟨now, rfl, current, run⟩
    | error error => exact .inr ⟨error, run⟩
  · exact .inr (MemoryGraphStore.save_unmet clock graph (mt meets.mp current))

/-- Every interleaving publishes in order and reads what was published, by induction over it. -/
theorem StoreReached.invariants [DecidableEq C] {system : StoreSystem C V T}
    (reached : StoreReached system)
    : system.PublishesInOrder ∧ system.ReadsHistory := by
  induction reached with
  | start =>
      refine ⟨⟨rfl, rfl, rfl⟩, ?_⟩
      intro client view none
      cases none
  | @read system client _ ih =>
      obtain ⟨order, reads⟩ := ih
      refine ⟨⟨order.generations, order.published, order.loaded⟩, ?_⟩
      intro other view viewed
      simp only [StoreSystem.read] at viewed
      split at viewed
      · obtain rfl := Option.some.inj viewed
        refine ⟨le_rfl, ?_⟩
        rw [order.published, StoreSystem.read, List.take_length]
      · exact reads other view viewed
  | @save system client view viewed checkRevision clock graph _ ih =>
      obtain ⟨order, reads⟩ := ih
      obtain ⟨inside, seen⟩ := reads client view viewed
      unfold StoreSystem.save
      rcases StoreSystem.save_cases order inside seen checkRevision clock graph with
        ⟨now, _, _, run⟩ | ⟨error, run⟩
      · rw [run]
        refine ⟨⟨?_, ?_, ?_⟩, ?_⟩
        · rw [List.map_append, order.generations, List.map_singleton, order.next,
            List.length_append, List.length_singleton, List.range'_concat]
          simp [Nat.add_comm]
        · simp
        · rfl
        · intro other view viewed
          obtain ⟨inside, seen⟩ := reads other view viewed
          refine ⟨by simp; omega, ?_⟩
          rw [seen, List.take_append_of_le_length inside]
      · rw [run]
        exact ⟨⟨order.generations, order.published, order.loaded⟩, reads⟩

/-- In every interleaving the generations are gapless, the loaded graph has the published
revision, a refused save changes nothing, and a save by a client that has read a published
revision succeeds only if no save has succeeded since.
-/
theorem StoreReached.publication [DecidableEq C] {system : StoreSystem C V T}
    (reached : StoreReached system)
    : system.PublishesInOrder
      ∧ ∀ client view, system.views client = some view → ∀ checkRevision clock graph,
        (∀ error store, view.save checkRevision clock graph system.store = .error error store →
          store = system.store)
        ∧ ∀ published store, view.save checkRevision clock graph system.store
            = .ok published store →
          published.generation = system.history.length + 1
            ∧ store.published = some published ∧ store.load = some graph
            ∧ (view.seen.isSome → view.since = system.history.length) := by
  obtain ⟨order, reads⟩ := reached.invariants
  refine ⟨order, ?_⟩
  intro client view viewed checkRevision clock graph
  obtain ⟨inside, seen⟩ := reads client view viewed
  rcases StoreSystem.save_cases order inside seen checkRevision clock graph with
    ⟨now, _, current, run⟩ | ⟨error, run⟩
  · rw [run]
    refine ⟨?_, ?_⟩
    · intro error store raised
      cases raised
    · intro published store saved
      obtain ⟨rfl, rfl⟩ := EStateM.Result.ok.inj saved
      exact ⟨order.next graph now, rfl, rfl, current⟩
  · rw [run]
    refine ⟨?_, ?_⟩
    · intro raised store refused
      exact (EStateM.Result.error.inj refused).2.symm
    · intro published store saved
      cases saved

/-- The snapshot of an empty catalog. -/
def emptyGraph : MigrationGraph Release :=
  (buildGraph plainConfig.hasher (Registry.new "default" false) none).toOption.get
    (by decide +kernel)

/-- Two clients that have both read the empty store, and the first of them has saved. -/
def racedStore : StoreSystem Bool Release Nat :=
  ((StoreSystem.start.read true).read false).save ⟨none, 0⟩ false (.ok 0) emptyGraph

theorem racedStore_reached : StoreReached racedStore :=
  .save true rfl false (.ok 0) emptyGraph (.read false (.read true .start))

/-- Witness: a client that reads after the first save has to be the next to save. -/
theorem publication_racedStore
    : ((racedStore.read true).read false).PublishesInOrder
      ∧ ((racedStore.read true).read false).history.length = 1 :=
  ⟨(StoreReached.publication (.read false (.read true racedStore_reached))).1, rfl⟩

/-- Counterexample: both clients have read nothing, so the second publication overwrites the
first one.
-/
theorem not_publication_from_empty
    : ¬ ∀ (system : StoreSystem Bool Release Nat), StoreReached system →
        ∀ client view, system.views client = some view → ∀ checkRevision clock graph,
        ∀ published store, view.save checkRevision clock graph system.store
            = .ok published store → view.since = system.history.length := by
  intro claim
  have since := claim racedStore racedStore_reached false ⟨none, 0⟩ rfl false (.ok 1) emptyGraph
    _ _ rfl
  cases since

end Pyverge
