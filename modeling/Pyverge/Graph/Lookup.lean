import Pyverge.Graph.ContentDigest
import Pyverge.Graph.Discovery
import Pyverge.Versioning.Hashing

/-! Lookups by bisection and by hash.
The registry finds an entry that compares equal to the key, the snapshot one that also has its
hash. Hashes agree with `==`, so both find the same.
-/

namespace Pyverge

variable {F : Type}

/-- `find_entry` of the registry hands back an entry. -/
def Registry.Finds {V : Type} [VersionValue V] (registry : Registry V) (key : NodeId V) : Prop :=
  ∃ entry, registry.findEntry key = .ok (some entry)

/-- `find_entry` of the snapshot hands back an entry. -/
def MigrationGraph.Finds {V : Type} [VersionValue V] (hashing : Hashing V)
    (graph : MigrationGraph V) (key : NodeId V) : Prop :=
  ∃ entry, NodeId.probe hashing key graph.backend.nodesById.items = .ok (some entry)

theorem NodeStores.finds_iff {registry : Registry Version} (stores : NodeStores registry)
    {key : NodeId Version}
    : registry.Finds key ↔ ∃ entry ∈ registry.byVersions, entry.id.cmp key = .eq := by
  simp only [Registry.Finds, stores.findEntry_eq_some, NodeId.eq_eq_true]
  constructor
  · intro given
    obtain ⟨entry, member, _, equal⟩ := given
    exact ⟨entry, member, equal⟩
  · intro given
    obtain ⟨entry, member, equal⟩ := given
    exact ⟨entry, member, NodeId.sameStrategy_of_cmp equal, equal⟩

theorem BuildSteps.finds_iff {hashing : Hashing Version} (agrees : hashing.Agrees)
    {hasher : ContentHasher} {source : Registry Version} {graph : MigrationGraph Version}
    (steps : BuildSteps hasher source graph) (stores : NodeStores source) {key : NodeId Version}
    : graph.Finds hashing key ↔ ∃ entry ∈ source.byVersions, entry.id.cmp key = .eq := by
  have held : ∀ other entry, (other, entry) ∈ graph.backend.nodesById.items
      ↔ entry ∈ source.byVersions ∧ entry.id = other := by
    intro other entry
    rw [← Py.Dict.get?_eq_some, steps.backend]
    exact Py.Dict.get?_indexBy (fun _ inLeft _ inRight same =>
      stores.eq_of_id inLeft inRight same)
  unfold MigrationGraph.Finds
  rw [NodeId.probe_eq agrees (fun _ equal => NodeId.sameStrategy_of_cmp equal)]
  constructor
  · intro given
    obtain ⟨entry, found⟩ := given
    obtain ⟨item, hit, rfl⟩ := Option.map_eq_some_iff.mp (Except.ok.inj found)
    obtain ⟨member, own⟩ := (held item.1 item.2).mp (List.mem_of_find?_eq_some hit)
    have equal := List.find?_some hit
    rw [beq_iff_eq, ← own] at equal
    exact ⟨item.2, member, equal⟩
  · intro given
    obtain ⟨entry, member, equal⟩ := given
    have present : (graph.backend.nodesById.items.find?
        (fun item => item.1.cmp key == .eq)).isSome = true :=
      List.find?_isSome.mpr ⟨(entry.id, entry), (held _ _).mpr ⟨member, rfl⟩, by simp [equal]⟩
    obtain ⟨item, hit⟩ := Option.isSome_iff_exists.mp present
    exact ⟨item.2, by rw [hit, Option.map_some]⟩

/-- The first release with build metadata. -/
def builtUser : NodeId Version :=
  { semverUser 1 with version := .semver ⟨1, 0, 0, [], [⟨"a", by decide⟩]⟩ }

end Pyverge
