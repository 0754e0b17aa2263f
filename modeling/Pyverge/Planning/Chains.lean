import Pyverge.Graph.Paths
import Pyverge.Graph.Queries
import Pyverge.Py.Walks

/-! Chains of executable edges between hydrated versions.
The walk of a snapshot counts positions. It succeeds exactly if every consecutive pair of versions
on its way, in the order of the versions, is joined by an executable edge.
-/

namespace Pyverge

variable {V F : Type} [DecidableEq V] [VersionValue V]

namespace MigrationGraph

omit [VersionValue V] in
/-- An executable edge with the discriminator leads from one identity to the other. -/
def Executes (graph : MigrationGraph V) (discriminator : String) (source target : NodeId V)
    : Prop :=
  ∃ edge ∈ graph.backend.edges, edge.id.source = source ∧ edge.id.target = target
    ∧ edge.discriminator = discriminator ∧ graph.isExecutable edge.id = true

/-- Every consecutive pair of hydrated versions between the two, upwards or downwards, is joined
by an executable edge.
-/
structure Connects (graph : MigrationGraph V) (discriminator : String) (source target : NodeId V)
    : Prop where
  upward : ∀ (index : Nat) (lower upper : VersionNode V),
    (graph.kindVersions source.kind)[index]? = some lower →
    (graph.kindVersions source.kind)[index + 1]? = some upper →
    (source.cmp lower.id).isLE → (upper.id.cmp target).isLE →
    graph.Executes discriminator lower.id upper.id
  downward : ∀ (index : Nat) (lower upper : VersionNode V),
    (graph.kindVersions source.kind)[index]? = some lower →
    (graph.kindVersions source.kind)[index + 1]? = some upper →
    (target.cmp lower.id).isLE → (upper.id.cmp source).isLE →
    graph.Executes discriminator upper.id lower.id

variable {source : Registry V} {graph : MigrationGraph V} {discriminator : String}

/-- An edge the walk takes joins the two versions and executes. -/
theorem mem_of_stepEdge (snapshot : SnapshotOf source graph)
    {current target : VersionNode V} {edge : EdgePair V}
    (stepped : graph.stepEdge current target discriminator = .ok edge)
    : edge ∈ graph.backend.edges ∧ edge.id.source = current.id ∧ edge.id.target = target.id
      ∧ edge.discriminator = discriminator ∧ graph.isExecutable edge.id = true := by
  unfold stepEdge findEdge at stepped
  rw [snapshot.between] at stepped
  cases hit : (graph.backend.edges.filter (fun other => (other.id.source, other.id.target)
      = (current.id, target.id))).find? (fun other => other.discriminator = discriminator) with
  | none => simp only [hit, reduceCtorEq] at stepped
  | some other =>
      simp only [hit] at stepped
      split at stepped
      case isTrue executes =>
        obtain rfl := Except.ok.inj stepped
        obtain ⟨member, ends⟩ := List.mem_filter.mp (List.mem_of_find?_eq_some hit)
        obtain ⟨sources, targets⟩ := Prod.mk.inj (of_decide_eq_true ends)
        exact ⟨member, sources, targets, by simpa using List.find?_some hit, executes⟩
      case isFalse => cases stepped

/-- A step succeeds if an executable edge joins the versions; an edge found in its place has the
same endpoints and discriminator, hence the same identity.
-/
theorem exists_stepEdge (snapshot : SnapshotOf source graph)
    {current target : VersionNode V} (executes : graph.Executes discriminator current.id target.id)
    : ∃ edge, graph.stepEdge current target discriminator = .ok edge := by
  obtain ⟨edge, member, sources, targets, label, executable⟩ := executes
  unfold stepEdge findEdge
  rw [snapshot.between]
  cases hit : (graph.backend.edges.filter (fun other => (other.id.source, other.id.target)
      = (current.id, target.id))).find? (fun other => other.discriminator = discriminator) with
  | none =>
      have miss := List.find?_eq_none.mp hit edge
        (List.mem_filter.mpr ⟨member, decide_eq_true (by rw [sources, targets])⟩)
      simp [label] at miss
  | some other =>
      have otherLabel : other.discriminator = discriminator := by
        simpa using List.find?_some hit
      obtain ⟨_, ends⟩ := List.mem_filter.mp (List.mem_of_find?_eq_some hit)
      obtain ⟨otherSource, otherTarget⟩ := Prod.mk.inj (of_decide_eq_true ends)
      have same : other.id = edge.id :=
        EdgeId.eq_of_parts (otherSource.trans sources.symm) (otherTarget.trans targets.symm)
          (otherLabel.trans label.symm)
      exact ⟨other, by simp [same, executable]⟩

/-- A failed step names the two versions. -/
theorem stepEdge_error {current target : VersionNode V} {error : Error V}
    (failed : graph.stepEdge current target discriminator = .error error)
    : error = .migrationPath graph.name current.id target.id
        ("No migration key is found (" ++ current.id.str ++ ", " ++ target.id.str ++ ")") := by
  unfold stepEdge at failed
  simp only at failed
  split at failed
  · exact (Except.error.inj failed).symm
  · split at failed
    · cases failed
    · exact (Except.error.inj failed).symm

-----------------------------------------------------------------------------------------
-- The walk
-----------------------------------------------------------------------------------------

/-- The index after some steps of one direction. -/
def stepped (up : Bool) (lo count : Nat) : Nat := if up then lo + count else lo - count

theorem stepped_succ (up : Bool) (lo count : Nat)
    : stepped up (if up then lo + 1 else lo - 1) count = stepped up lo (count + 1) := by
  unfold stepped
  cases up
  · simp only [Bool.false_eq_true, if_false]
    omega
  · simp only [if_true]
    omega

/-- The edges of a walk are executable edges of the graph with the discriminator. -/
theorem mem_of_walkEdges (snapshot : SnapshotOf source graph)
    {versions : List (VersionNode V)} {up : Bool} {count lo : Nat} {path : List (EdgePair V)}
    (walked : graph.walkEdges versions discriminator up count lo = .ok path)
    {edge : EdgePair V} (member : edge ∈ path)
    : edge ∈ graph.backend.edges ∧ edge.discriminator = discriminator
      ∧ graph.isExecutable edge.id = true := by
  induction count generalizing lo path with
  | zero =>
      obtain rfl := Except.ok.inj walked
      cases member
  | succ count ih =>
      simp only [walkEdges] at walked
      split at walked
      · obtain ⟨first, taken, walked⟩ := Py.ok_bind_iff.mp walked
        obtain ⟨later, rest, walked⟩ := Py.ok_bind_iff.mp walked
        obtain rfl := Except.ok.inj walked
        rcases List.mem_cons.mp member with rfl | old
        · obtain ⟨inGraph, _, _, labelled, executes⟩ := mem_of_stepEdge snapshot taken
          exact ⟨inGraph, labelled, executes⟩
        · exact ih rest old
      · cases walked

omit [VersionValue V] in
/-- Executable edges that lead from one version to another through versions of the list. -/
inductive Leads (graph : MigrationGraph V) (versions : List (VersionNode V))
    : VersionNode V → List (EdgePair V) → VersionNode V → Prop where
  | stay (node : VersionNode V) : Leads graph versions node [] node
  | step {current next last : VersionNode V} {edge : EdgePair V} {rest : List (EdgePair V)}
      : next ∈ versions → edge.id.source = current.id → edge.id.target = next.id →
        graph.isExecutable edge.id = true → Leads graph versions next rest last →
        Leads graph versions current (edge :: rest) last

omit [VersionValue V] in
theorem Leads.isExecutable {versions : List (VersionNode V)} {first last : VersionNode V}
    {path : List (EdgePair V)} (leads : graph.Leads versions first path last) {edge : EdgePair V}
    (member : edge ∈ path)
    : graph.isExecutable edge.id = true := by
  induction leads with
  | stay node => cases member
  | step _ _ _ executes _ ih =>
      rcases List.mem_cons.mp member with rfl | later
      · exact executes
      · exact ih later

omit [VersionValue V] in
theorem Leads.walk {versions : List (VersionNode V)} {first last : VersionNode V}
    {path : List (EdgePair V)} (leads : graph.Leads versions first path last)
    {accepts : EdgePair V → Prop} (accepted : ∀ edge ∈ path, accepts edge)
    : Py.Walk (fun edge => edge.id.source) (fun edge => edge.id.target) accepts
        first.id path last.id := by
  induction leads with
  | stay node => exact .stay _
  | step _ fromCurrent toNext _ _ ih =>
      refine .step (accepted _ List.mem_cons_self) fromCurrent ?_
      rw [toNext]
      exact ih (fun edge later => accepted edge (List.mem_cons_of_mem _ later))

/-- The edges of a walk lead from its first place to its last. -/
theorem leads_of_walkEdges (snapshot : SnapshotOf source graph)
    {versions : List (VersionNode V)} {up : Bool} {count lo : Nat} {path : List (EdgePair V)}
    (walked : graph.walkEdges versions discriminator up count lo = .ok path)
    {first last : VersionNode V} (atFirst : versions[lo]? = some first)
    (atLast : versions[stepped up lo count]? = some last)
    : graph.Leads versions first path last := by
  induction count generalizing lo first path with
  | zero =>
      have place : stepped up lo 0 = lo := by cases up <;> simp [stepped]
      rw [place] at atLast
      obtain rfl := Option.some.inj (atFirst.symm.trans atLast)
      obtain rfl := Except.ok.inj walked
      exact .stay first
  | succ count ih =>
      simp only [walkEdges] at walked
      split at walked
      case h_1 current next atCurrent atNext =>
        obtain rfl := Option.some.inj (atFirst.symm.trans atCurrent)
        obtain ⟨edge, taken, walked⟩ := Py.ok_bind_iff.mp walked
        obtain ⟨later, rest, walked⟩ := Py.ok_bind_iff.mp walked
        obtain rfl := Except.ok.inj walked
        obtain ⟨_, fromFirst, toNext, _, executes⟩ := mem_of_stepEdge snapshot taken
        rw [← stepped_succ] at atLast
        exact .step (List.mem_of_getElem? atNext) fromFirst toNext executes (ih rest atNext atLast)
      case h_2 => cases walked

/-- The walk succeeds exactly if every step of it does. -/
theorem exists_walkEdges (snapshot : SnapshotOf source graph)
    {versions : List (VersionNode V)} {up : Bool} {count lo : Nat}
    (inside : ∀ k ≤ count, ∃ node, versions[stepped up lo k]? = some node)
    : (∃ path, graph.walkEdges versions discriminator up count lo = .ok path)
      ↔ ∀ k < count, ∀ current next, versions[stepped up lo k]? = some current →
          versions[stepped up lo (k + 1)]? = some next →
          graph.Executes discriminator current.id next.id := by
  induction count generalizing lo with
  | zero => simp [walkEdges]
  | succ count ih =>
      obtain ⟨current, atCurrent⟩ := inside 0 (Nat.zero_le _)
      obtain ⟨next, atNext⟩ := inside 1 (Nat.succ_le_succ (Nat.zero_le _))
      have first : stepped up lo 0 = lo := by cases up <;> simp [stepped]
      have second : (if up then lo + 1 else lo - 1) = stepped up lo 1 := by
        cases up <;> simp [stepped]
      have rest := @ih (if up then lo + 1 else lo - 1) (fun k few => by
        rw [stepped_succ]
        exact inside (k + 1) (Nat.succ_le_succ few))
      rw [first] at atCurrent
      simp only [stepped_succ] at rest
      simp only [walkEdges, second, atCurrent, atNext] at rest ⊢
      constructor
      · intro given k few
        obtain ⟨path, walked⟩ := given
        obtain ⟨edge, taken, walked⟩ := Py.ok_bind_iff.mp walked
        obtain ⟨later, walkedRest, _⟩ := Py.ok_bind_iff.mp walked
        cases k with
        | zero =>
            intro other after atOther atAfter
            rw [first] at atOther
            obtain rfl := Option.some.inj (atCurrent.symm.trans atOther)
            obtain rfl := Option.some.inj (atNext.symm.trans atAfter)
            exact ⟨edge, mem_of_stepEdge snapshot taken⟩
        | succ k => exact rest.mp ⟨later, walkedRest⟩ k (Nat.lt_of_succ_lt_succ few)
      · intro every
        obtain ⟨edge, taken⟩ := exists_stepEdge snapshot
          (every 0 (Nat.succ_pos _) current next (by rw [first, atCurrent]) atNext)
        obtain ⟨later, walkedRest⟩ := rest.mpr (fun k few => every (k + 1) (Nat.succ_lt_succ few))
        exact ⟨edge :: later, by rw [taken, walkedRest]; rfl⟩

/-- A walk between places of the list fails for want of an edge only. -/
theorem walkEdges_error {versions : List (VersionNode V)} {up : Bool} {count lo : Nat}
    (inside : ∀ k ≤ count, ∃ node, versions[stepped up lo k]? = some node) {error : Error V}
    (failed : graph.walkEdges versions discriminator up count lo = .error error)
    : ∃ source target reason, error = .migrationPath graph.name source target reason := by
  induction count generalizing lo with
  | zero => cases failed
  | succ count ih =>
      obtain ⟨current, atCurrent⟩ := inside 0 (Nat.zero_le _)
      obtain ⟨next, atNext⟩ := inside 1 (Nat.succ_le_succ (Nat.zero_le _))
      have first : stepped up lo 0 = lo := by cases up <;> simp [stepped]
      have second : (if up then lo + 1 else lo - 1) = stepped up lo 1 := by
        cases up <;> simp [stepped]
      rw [first] at atCurrent
      simp only [walkEdges, second, atCurrent, atNext] at failed
      cases taken : graph.stepEdge current next discriminator with
      | error missing =>
          rw [taken] at failed
          obtain rfl := Except.error.inj failed
          exact ⟨_, _, _, stepEdge_error taken⟩
      | ok edge =>
          rw [taken] at failed
          cases rest : graph.walkEdges versions discriminator up count (stepped up lo 1) with
          | ok later =>
              rw [rest] at failed
              cases failed
          | error missing =>
              rw [rest] at failed
              obtain rfl := Except.error.inj failed
              refine ih ?_ rest
              intro k few
              rw [← second, stepped_succ]
              exact inside (k + 1) (Nat.succ_le_succ few)

-----------------------------------------------------------------------------------------
-- The walk between two versions
-----------------------------------------------------------------------------------------

/-- The walk between two hydrated versions starts at the place of one and ends at the place of
the other.
-/
theorem edgePath_eq_walkEdges (snapshot : SnapshotOf source graph) (stores : NodeStores source)
    (discriminator : String) {first last : VersionNode V} (inFirst : first ∈ graph.kindVersions first.id.kind)
    (inLast : last ∈ graph.kindVersions first.id.kind)
    : ∃ lo hi, (graph.kindVersions first.id.kind)[lo]? = some first
        ∧ (graph.kindVersions first.id.kind)[hi]? = some last
        ∧ graph.edgePath first.id last.id discriminator
          = graph.walkEdges (graph.kindVersions first.id.kind) discriminator (decide (lo < hi))
              ((hi - lo) + (lo - hi)) lo := by
  have sorted := stores.sorted_kindVersions first.id.kind
  rw [snapshot.kindVersions] at inFirst inLast ⊢
  obtain ⟨lo, atFirst⟩ := List.mem_iff_getElem?.mp inFirst
  obtain ⟨hi, atLast⟩ := List.mem_iff_getElem?.mp inLast
  have sameKind : last.id.kind = first.id.kind := (stores.mem_kindVersions.mp inLast).2
  refine ⟨lo, hi, atFirst, atLast, ?_⟩
  unfold edgePath
  rw [if_neg (not_not.mpr sameKind.symm)]
  simp only [snapshot.kindVersions, (positionOf_eq_some sorted).mpr ⟨first, atFirst, rfl⟩,
    (positionOf_eq_some sorted).mpr ⟨last, atLast, rfl⟩]

omit [DecidableEq V] [VersionValue V] in
/-- All places on the way from one place of a list to another are places of it. -/
theorem inside_of_ends {versions : List (VersionNode V)} {lo hi : Nat}
    {first last : VersionNode V} (atFirst : versions[lo]? = some first)
    (atLast : versions[hi]? = some last)
    : ∀ k ≤ (hi - lo) + (lo - hi), ∃ node, versions[stepped (decide (lo < hi)) lo k]? = some node := by
  intro k few
  have fromFirst := (List.getElem?_eq_some_iff.mp atFirst).1
  have toLast := (List.getElem?_eq_some_iff.mp atLast).1
  have place : stepped (decide (lo < hi)) lo k < versions.length := by
    unfold stepped
    split
    case isTrue up =>
      have before := of_decide_eq_true up
      omega
    case isFalse => omega
  exact ⟨_, List.getElem?_eq_getElem place⟩

omit [DecidableEq V] in
/-- In a sorted list an earlier place is a smaller version. -/
theorem isLE_iff_le {versions : List (VersionNode V)}
    (sorted : Py.SortedBy VersionNode.id NodeId.cmp versions) {i j : Nat}
    {left right : VersionNode V} (atLeft : versions[i]? = some left)
    (atRight : versions[j]? = some right)
    : (left.id.cmp right.id).isLE ↔ i ≤ j := by
  have swapped : left.id.cmp right.id = (right.id.cmp left.id).swap := Std.OrientedCmp.eq_swap
  rw [swapped, ← Nat.not_lt, ← sorted.lt_iff atRight atLeft]
  cases right.id.cmp left.id <;> simp

/-- Every step of the walk executes exactly if every pair of versions on the way is joined. -/
theorem connects_iff (snapshot : SnapshotOf source graph) (stores : NodeStores source)
    {first last : VersionNode V} {lo hi : Nat}
    (atFirst : (graph.kindVersions first.id.kind)[lo]? = some first)
    (atLast : (graph.kindVersions first.id.kind)[hi]? = some last)
    : graph.Connects discriminator first.id last.id
      ↔ ∀ k < (hi - lo) + (lo - hi), ∀ current next,
          (graph.kindVersions first.id.kind)[stepped (decide (lo < hi)) lo k]? = some current →
          (graph.kindVersions first.id.kind)[stepped (decide (lo < hi)) lo (k + 1)]? = some next →
          graph.Executes discriminator current.id next.id := by
  have sorted : Py.SortedBy VersionNode.id NodeId.cmp (graph.kindVersions first.id.kind) := by
    rw [snapshot.kindVersions]
    exact stores.sorted_kindVersions first.id.kind
  constructor
  · intro connects k few current next atCurrent atNext
    rcases Nat.lt_or_ge lo hi with up | down
    · simp only [stepped, up, decide_true, if_true] at atCurrent atNext
      refine connects.upward (lo + k) current next atCurrent atNext ?_ ?_
      · exact (isLE_iff_le sorted atFirst atCurrent).mpr (Nat.le_add_right _ _)
      · exact (isLE_iff_le sorted atNext atLast).mpr (by omega)
    · simp only [stepped, Nat.not_lt.mpr down, decide_false, Bool.false_eq_true, if_false]
        at atCurrent atNext
      have above : lo - (k + 1) + 1 = lo - k := by omega
      rw [← above] at atCurrent
      refine connects.downward (lo - (k + 1)) next current atNext atCurrent ?_ ?_
      · exact (isLE_iff_le sorted atLast atNext).mpr (by omega)
      · exact (isLE_iff_le sorted atCurrent atFirst).mpr (by omega)
  · intro every
    constructor
    · intro index lower upper atLower atUpper fromFirst toLast
      have after := (isLE_iff_le sorted atFirst atLower).mp fromFirst
      have before := (isLE_iff_le sorted atUpper atLast).mp toLast
      have up : lo < hi := by omega
      have place : lo + (index - lo) = index := by omega
      have next : lo + (index - lo + 1) = index + 1 := by omega
      refine every (index - lo) (by omega) lower upper ?_ ?_
      · simpa only [stepped, up, decide_true, if_true, place] using atLower
      · simpa only [stepped, up, decide_true, if_true, next] using atUpper
    · intro index lower upper atLower atUpper fromLast toFirst
      have after := (isLE_iff_le sorted atLast atLower).mp fromLast
      have before := (isLE_iff_le sorted atUpper atFirst).mp toFirst
      have down : ¬ lo < hi := by omega
      have place : lo - (lo - (index + 1)) = index + 1 := by omega
      have next : lo - (lo - (index + 1) + 1) = index := by omega
      refine every (lo - (index + 1)) (by omega) upper lower ?_ ?_
      · simpa only [stepped, down, decide_false, Bool.false_eq_true, if_false, place] using atUpper
      · simpa only [stepped, down, decide_false, Bool.false_eq_true, if_false, next] using atLower

/-- Between hydrated versions of a kind there is a walk exactly if they are connected. -/
theorem exists_edgePath (snapshot : SnapshotOf source graph) (stores : NodeStores source)
    {first last : VersionNode V} (inFirst : first ∈ graph.kindVersions first.id.kind)
    (inLast : last ∈ graph.kindVersions first.id.kind)
    : (∃ path, graph.edgePath first.id last.id discriminator = .ok path)
      ↔ graph.Connects discriminator first.id last.id := by
  obtain ⟨lo, hi, atFirst, atLast, walk⟩ :=
    edgePath_eq_walkEdges snapshot stores discriminator inFirst inLast
  rw [walk, exists_walkEdges snapshot (inside_of_ends atFirst atLast),
    connects_iff snapshot stores atFirst atLast]

/-- The walk between hydrated versions of a kind leads from one to the other. -/
theorem leads_of_edgePath (snapshot : SnapshotOf source graph) (stores : NodeStores source)
    {first last : VersionNode V} (inFirst : first ∈ graph.kindVersions first.id.kind)
    (inLast : last ∈ graph.kindVersions first.id.kind) {path : List (EdgePair V)}
    (walked : graph.edgePath first.id last.id discriminator = .ok path)
    : graph.Leads (graph.kindVersions first.id.kind) first path last := by
  obtain ⟨lo, hi, atFirst, atLast, walk⟩ :=
    edgePath_eq_walkEdges snapshot stores discriminator inFirst inLast
  have place : stepped (decide (lo < hi)) lo ((hi - lo) + (lo - hi)) = hi := by
    unfold stepped
    split
    case isTrue up =>
      have before := of_decide_eq_true up
      omega
    case isFalse down =>
      have after : ¬ lo < hi := by simpa using down
      omega
  rw [walk] at walked
  exact leads_of_walkEdges snapshot walked atFirst (by rw [place, atLast])

/-- Between hydrated versions of a kind the walk fails for want of an edge only. -/
theorem edgePath_error (snapshot : SnapshotOf source graph) (stores : NodeStores source)
    {first last : VersionNode V} (inFirst : first ∈ graph.kindVersions first.id.kind)
    (inLast : last ∈ graph.kindVersions first.id.kind) {error : Error V}
    (failed : graph.edgePath first.id last.id discriminator = .error error)
    : ∃ from_ to_ reason, error = .migrationPath graph.name from_ to_ reason := by
  obtain ⟨lo, hi, atFirst, atLast, walk⟩ :=
    edgePath_eq_walkEdges snapshot stores discriminator inFirst inLast
  rw [walk] at failed
  exact walkEdges_error (inside_of_ends atFirst atLast) failed

/-- The walk exists only between hydrated versions of one kind. -/
theorem ends_of_edgePath (snapshot : SnapshotOf source graph) (stores : NodeStores source)
    {fromVersion toVersion : NodeId V} {path : List (EdgePair V)}
    (walked : graph.edgePath fromVersion toVersion discriminator = .ok path)
    : fromVersion.kind = toVersion.kind
      ∧ (∃ first ∈ graph.kindVersions fromVersion.kind, first.id = fromVersion)
      ∧ ∃ last ∈ graph.kindVersions toVersion.kind, last.id = toVersion := by
  have sorted := stores.sorted_kindVersions fromVersion.kind
  rw [← snapshot.kindVersions] at sorted
  unfold edgePath at walked
  split at walked
  · cases walked
  case isFalse kinds =>
    have sameKind := not_not.mp kinds
    simp only at walked
    split at walked
    · cases walked
    · cases walked
    case h_3 lo hi fromFound toFound =>
      obtain ⟨first, atFirst, isFirst⟩ := (positionOf_eq_some sorted).mp fromFound
      obtain ⟨last, atLast, isLast⟩ := (positionOf_eq_some sorted).mp toFound
      rw [← sameKind]
      exact ⟨rfl, ⟨first, List.mem_of_getElem? atFirst, isFirst⟩,
        last, List.mem_of_getElem? atLast, isLast⟩

end MigrationGraph

/-- A snapshot has the model of an identity exactly if it lists it among the versions. -/
theorem BuildSteps.hasModel_iff_listed {hasher : ContentHasher} {source : Registry V}
    {graph : MigrationGraph V} (steps : BuildSteps hasher source graph)
    (snapshot : SnapshotOf source graph) (stores : NodeStores source) {key : NodeId V}
    : graph.hasModel key = true ↔ ∃ node ∈ graph.kindVersions key.kind, node.id = key := by
  simp only [MigrationGraph.hasModel, Option.isSome_iff_exists, steps.findModel_eq_some stores,
    snapshot.kindVersions, stores.mem_kindVersions]
  constructor
  · intro found
    obtain ⟨node, member, rfl⟩ := found
    exact ⟨node, ⟨member, rfl⟩, rfl⟩
  · intro listed
    obtain ⟨node, ⟨member, _⟩, same⟩ := listed
    exact ⟨node, member, same⟩

/-- The edges a walk with the discriminator may take. -/
def MigrationGraph.Executable (graph : MigrationGraph V) (discriminator : String)
    (edge : EdgePair V) : Prop :=
  edge ∈ graph.backend.edges ∧ edge.discriminator = discriminator
    ∧ graph.isExecutable edge.id = true

/-- The walk of a snapshot exists exactly between hydrated versions of one kind that are
connected. It then leads from one to the other over executable edges with the discriminator, one
for each position it moves.
-/
theorem Reachable.edgePath_exact {config : Config V F} {source : Registry V}
    (reached : Reachable config source) {hasher : ContentHasher} {revision : Option Revision}
    {graph : MigrationGraph V} (built : buildGraph hasher source revision = .ok graph)
    (fromVersion toVersion : NodeId V) (discriminator : String)
    : ((∃ path, graph.edgePath fromVersion toVersion discriminator = .ok path)
        ↔ fromVersion.kind = toVersion.kind ∧ graph.hasModel fromVersion = true
          ∧ graph.hasModel toVersion = true
          ∧ graph.Connects discriminator fromVersion toVersion)
      ∧ ∀ path, graph.edgePath fromVersion toVersion discriminator = .ok path →
          Py.Walk (fun edge => edge.id.source) (fun edge => edge.id.target)
              (graph.Executable discriminator) fromVersion path toVersion
            ∧ (∃ lo hi : Nat,
                ((graph.kindVersions fromVersion.kind)[lo]?).map VersionNode.id = some fromVersion
                ∧ ((graph.kindVersions fromVersion.kind)[hi]?).map VersionNode.id = some toVersion
                ∧ path.length = ((hi : Int) - lo).natAbs)
            ∧ (path = [] ↔ fromVersion = toVersion) := by
  have nodes := reached.nodeStores
  have snapshot := snapshotOf_buildGraph nodes reached.edgeStores built
  obtain ⟨steps⟩ := buildGraph_steps nodes reached.edgeStores built
  have hydrated : ∀ key : NodeId V, graph.hasModel key = true
      ↔ ∃ node ∈ graph.kindVersions key.kind, node.id = key :=
    fun key => steps.hasModel_iff_listed snapshot nodes
  constructor
  · constructor
    · intro given
      obtain ⟨path, walked⟩ := given
      obtain ⟨kinds, ⟨first, inFirst, isFirst⟩, last, inLast, isLast⟩ :=
        MigrationGraph.ends_of_edgePath snapshot nodes walked
      refine ⟨kinds, (hydrated _).mpr ⟨first, inFirst, isFirst⟩,
        (hydrated _).mpr ⟨last, inLast, isLast⟩, ?_⟩
      subst isFirst isLast
      rw [← kinds] at inLast
      exact (MigrationGraph.exists_edgePath snapshot nodes inFirst inLast).mp ⟨path, walked⟩
    · intro given
      obtain ⟨kinds, hasFirst, hasLast, connects⟩ := given
      obtain ⟨first, inFirst, rfl⟩ := (hydrated _).mp hasFirst
      obtain ⟨last, inLast, rfl⟩ := (hydrated _).mp hasLast
      rw [← kinds] at inLast
      exact (MigrationGraph.exists_edgePath snapshot nodes inFirst inLast).mpr connects
  · intro path walked
    obtain ⟨kinds, ⟨first, inFirst, rfl⟩, last, inLast, rfl⟩ :=
      MigrationGraph.ends_of_edgePath snapshot nodes walked
    rw [← kinds] at inLast
    have leads := MigrationGraph.leads_of_edgePath snapshot nodes inFirst inLast walked
    obtain ⟨lo, hi, atFirst, atLast, walk⟩ :=
      MigrationGraph.edgePath_eq_walkEdges snapshot nodes discriminator inFirst inLast
    rw [walk] at walked
    have length := MigrationGraph.length_walkEdges walked
    refine ⟨leads.walk (fun edge member => MigrationGraph.mem_of_walkEdges snapshot walked member),
      ⟨lo, hi, by rw [atFirst]; rfl, by rw [atLast]; rfl, by omega⟩, ?_⟩
    rw [← List.length_eq_zero_iff, length]
    constructor
    · intro unmoved
      obtain rfl : lo = hi := by omega
      exact congrArg VersionNode.id (Option.some.inj (atFirst.symm.trans atLast))
    · intro same
      have sorted := nodes.sorted_kindVersions first.id.kind
      rw [← snapshot.kindVersions] at sorted
      have level : first.id.cmp last.id = .eq ∧ last.id.cmp first.id = .eq := by
        rw [same]
        exact ⟨Std.ReflCmp.compare_self, Std.ReflCmp.compare_self⟩
      have below := (MigrationGraph.isLE_iff_le sorted atFirst atLast).mp (by simp [level.1])
      have above := (MigrationGraph.isLE_iff_le sorted atLast atFirst).mp (by simp [level.2])
      omega

/-- Witness: the walk over the one edge between two releases, which are therefore connected. -/
theorem edgePath_exact_joinedCatalog
    : ∃ graph, buildGraph reflectingConfig.hasher joinedCatalog none = .ok graph
        ∧ graph.Connects defaultDiscriminator (userId 1) (userId 3)
        ∧ Py.Walk (fun edge => edge.id.source) (fun edge => edge.id.target)
            (graph.Executable defaultDiscriminator) (userId 1)
            [(userMigration 1 3 "UserV1" "UserV3").pair] (userId 3) := by
  have walked : (buildGraph reflectingConfig.hasher joinedCatalog none).map
      (fun graph => graph.edgePath (userId 1) (userId 3) defaultDiscriminator)
      = .ok (.ok [(userMigration 1 3 "UserV1" "UserV3").pair]) := by
    decide +kernel
  cases built : buildGraph reflectingConfig.hasher joinedCatalog none with
  | error error => simp [built, Except.map] at walked
  | ok graph =>
      have path : graph.edgePath (userId 1) (userId 3) defaultDiscriminator
          = .ok [(userMigration 1 3 "UserV1" "UserV3").pair] := by
        simpa [built, Except.map] using walked
      have reached : Reachable reflectingConfig joinedCatalog := .step _ gappedCatalog_reachable
      obtain ⟨exists_, each⟩ :=
        reached.edgePath_exact built (userId 1) (userId 3) defaultDiscriminator
      obtain ⟨_, _, _, connects⟩ := exists_.mp ⟨_, path⟩
      obtain ⟨walk, _⟩ := each _ path
      exact ⟨graph, rfl, connects, walk⟩

end Pyverge
