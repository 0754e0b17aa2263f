import Pyverge.Registry.NodeOrder

/-! The edge list of each kind stays strictly sorted.
Edges may mix version strategies, so a comparison may raise. A search that returns has only met
answers that agree with the order of the identity tuples, and one that raises changes nothing.
-/

namespace Pyverge

variable {V F : Type} [VersionValue V]

/-- An answer of `EdgeId.__eq__` is that of the identity order. -/
theorem EdgeId.eq_agrees {left right : EdgeId V} {answer : Bool}
    (asked : left.eq right = .ok answer)
    : (left.cmp right == .eq) = answer := by
  simp only [EdgeId.eq, NodeId.eq] at asked
  by_cases sources : left.source.strategy = right.source.strategy
  · rw [if_pos sources] at asked
    cases source : left.source.cmp right.source with
    | lt => simp_all [EdgeId.cmp, compareLex, pure, bind, Except.pure, Except.bind]
    | gt => simp_all [EdgeId.cmp, compareLex, pure, bind, Except.pure, Except.bind]
    | eq =>
        by_cases targets : left.target.strategy = right.target.strategy
        · rw [if_pos targets] at asked
          cases target : left.target.cmp right.target with
          | lt => simp_all [EdgeId.cmp, compareLex, pure, bind, Except.pure, Except.bind]
          | gt => simp_all [EdgeId.cmp, compareLex, pure, bind, Except.pure, Except.bind]
          | eq =>
              simp only [source, target, pure, bind, Except.pure, Except.bind] at asked
              obtain rfl := Except.ok.inj asked
              rw [Bool.eq_iff_iff]
              simp [EdgeId.cmp, compareLex, compareOn, source, target]
        · simp [source, targets, bind, Except.bind] at asked
  · simp [sources, bind, Except.bind] at asked

/-- An answer of `EdgeId.__lt__` is that of the identity order. -/
theorem EdgeId.lt_agrees {left right : EdgeId V} {answer : Bool}
    (asked : left.lt right = .ok answer)
    : (left.cmp right == .lt) = answer := by
  simp only [EdgeId.lt, NodeId.eq, NodeId.lt] at asked
  by_cases sources : left.source.strategy = right.source.strategy
  · rw [if_pos sources] at asked
    cases source : left.source.cmp right.source with
    | lt => simp_all [EdgeId.cmp, compareLex, bind, Except.bind]
    | gt => simp_all [EdgeId.cmp, compareLex, bind, Except.bind]
    | eq =>
        by_cases targets : left.target.strategy = right.target.strategy
        · rw [if_pos targets] at asked
          cases target : left.target.cmp right.target <;>
            simp_all [EdgeId.cmp, compareLex, compareOn, pure, bind, Except.pure, Except.bind]
        · simp [source, targets, bind, Except.bind] at asked
  · simp [sources, bind, Except.bind] at asked

abbrev SortedEdges (paths : List (EdgeEntry V)) : Prop :=
  Py.SortedBy EdgeEntry.id EdgeId.cmp paths

/-- The index at which an edge with this identity stands or would be inserted. -/
def edgeIndex (paths : List (EdgeEntry V)) (key : EdgeId V) : Nat :=
  Py.lowerBound EdgeEntry.id EdgeId.cmp key paths

theorem bisectEdges_of_ok {paths : List (EdgeEntry V)} (sorted : SortedEdges paths)
    {key : EdgeId V} {index : Nat} (run : bisectEdges paths key = .ok index)
    : index = edgeIndex paths key :=
  sorted.bisectLeft_of_ok key (fun _ _ _ asked => EdgeId.lt_agrees asked) run

/-- A lookup that returns, returns the edge with an equal identity if there is one. -/
theorem findEdgeIn_of_ok {paths : List (EdgeEntry V)} (sorted : SortedEdges paths)
    {key : EdgeId V} {found : Option (EdgeEntry V)} (run : findEdgeIn paths key = .ok found)
    : found = paths.find? (fun edge => edge.id.cmp key == .eq) := by
  rw [← sorted.getElem?_lowerBound key]
  unfold findEdgeIn at run
  cases search : bisectEdges paths key with
  | error error => simp [search, bind, Except.bind] at run
  | ok index =>
      rw [bisectEdges_of_ok sorted search] at search
      simp only [search, edgeIndex, bind, Except.bind] at run
      cases hit : paths[Py.lowerBound EdgeEntry.id EdgeId.cmp key paths]? with
      | none =>
          rw [hit] at run
          exact (Except.ok.inj run).symm
      | some edge =>
          rw [hit] at run
          cases compared : edge.id.eq key with
          | error error => simp [compared] at run
          | ok answer =>
              have agrees := EdgeId.eq_agrees compared
              cases answer <;> simp_all [Option.filter, pure, Except.pure]

-----------------------------------------------------------------------------------------
-- Comparable edges
-----------------------------------------------------------------------------------------

/-- Comparing the identities does not raise: the sources share a strategy and, where the sources
are equal, so do the targets.
-/
def EdgeId.Compares (left right : EdgeId V) : Prop :=
  left.source.strategy = right.source.strategy
    ∧ (left.source.cmp right.source = .eq → left.target.strategy = right.target.strategy)

theorem EdgeId.Compares.symm {left right : EdgeId V} (compares : left.Compares right)
    : right.Compares left :=
  ⟨compares.1.symm, fun equal => (compares.2 (Std.OrientedCmp.eq_symm equal)).symm⟩

/-- `<` answers exactly if the identities can be compared. -/
theorem EdgeId.exists_lt {left right : EdgeId V}
    : (∃ answer, left.lt right = .ok answer) ↔ left.Compares right := by
  unfold EdgeId.lt EdgeId.Compares
  by_cases sources : left.source.strategy = right.source.strategy
  · cases order : left.source.cmp right.source with
    | lt => simp [NodeId.eq, NodeId.lt, sources, order, bind, Except.bind]
    | gt => simp [NodeId.eq, NodeId.lt, sources, order, bind, Except.bind]
    | eq =>
        by_cases targets : left.target.strategy = right.target.strategy
        · cases target : left.target.cmp right.target <;>
            simp [NodeId.eq, NodeId.lt, sources, targets, order, target, bind, Except.bind, pure,
              Except.pure]
        · simp [NodeId.eq, sources, targets, order, bind, Except.bind]
  · simp [NodeId.eq, sources, bind, Except.bind]

/-- `==` answers exactly if the identities can be compared. -/
theorem EdgeId.exists_eq {left right : EdgeId V}
    : (∃ answer, left.eq right = .ok answer) ↔ left.Compares right := by
  unfold EdgeId.eq EdgeId.Compares
  by_cases sources : left.source.strategy = right.source.strategy
  · cases order : left.source.cmp right.source with
    | lt => simp [NodeId.eq, sources, order, bind, Except.bind, pure, Except.pure]
    | gt => simp [NodeId.eq, sources, order, bind, Except.bind, pure, Except.pure]
    | eq =>
        by_cases targets : left.target.strategy = right.target.strategy
        · cases target : left.target.cmp right.target <;>
            simp [NodeId.eq, sources, targets, order, target, bind, Except.bind, pure, Except.pure]
        · simp [NodeId.eq, sources, targets, order, bind, Except.bind]
  · simp [NodeId.eq, sources, bind, Except.bind]

theorem EdgeId.lt_of_compares {left right : EdgeId V} (compares : left.Compares right)
    : left.lt right = .ok (left.cmp right == .lt) := by
  obtain ⟨answer, asked⟩ := EdgeId.exists_lt.mpr compares
  rw [asked, EdgeId.lt_agrees asked]

theorem EdgeId.eq_of_compares {left right : EdgeId V} (compares : left.Compares right)
    : left.eq right = .ok (left.cmp right == .eq) := by
  obtain ⟨answer, asked⟩ := EdgeId.exists_eq.mpr compares
  rw [asked, EdgeId.eq_agrees asked]

/-- A smaller edge has no greater source. -/
theorem EdgeId.source_le {left right : EdgeId V} (lt : left.cmp right = .lt)
    : left.source.cmp right.source ≠ .gt := by
  intro greater
  simp [EdgeId.cmp, compareLex, greater] at lt

/-- Along a sorted list comparability is transitive: equal sources enclose equal sources. -/
theorem EdgeId.Compares.trans {one two three : EdgeId V} (first : one.Compares two)
    (second : two.Compares three) (lower : one.source.cmp two.source ≠ .gt)
    (upper : two.source.cmp three.source ≠ .gt)
    : one.Compares three := by
  refine ⟨first.1.trans second.1, fun equal => ?_⟩
  have below : two.source.cmp one.source ≠ .gt := by
    rw [Std.TransCmp.congr_right equal]
    exact upper
  have same : one.source.cmp two.source = .eq := by
    cases order : one.source.cmp two.source with
    | eq => rfl
    | gt => exact absurd order lower
    | lt => exact absurd (Std.OrientedCmp.gt_of_lt order) below
  have next : two.source.cmp three.source = .eq :=
    Std.TransCmp.eq_trans (Std.OrientedCmp.eq_symm same) equal
  exact (first.2 same).trans (second.2 next)

/-- An edge that is not smaller has no smaller source. -/
theorem EdgeId.source_ge {left right : EdgeId V} (notLess : left.cmp right ≠ .lt)
    : right.source.cmp left.source ≠ .gt := by
  intro greater
  have less : left.source.cmp right.source = .lt := Std.OrientedCmp.lt_of_gt greater
  exact notLess (by simp [EdgeId.cmp, compareLex, less])

/-- A key that can be compared with its neighbours in a list of comparable edges can be compared
with all of them: every other edge lies beyond a neighbour.
-/
theorem compares_of_neighbours {paths : List (EdgeEntry V)} (sorted : SortedEdges paths)
    (comparable : ∀ left ∈ paths, ∀ right ∈ paths, left.id.Compares right.id) {key : EdgeId V}
    {index : Nat} (inside : index ≤ paths.length)
    (left : ∀ i (bound : i < paths.length), i + 1 = index →
      paths[i].id.Compares key ∧ paths[i].id.source.cmp key.source ≠ .gt)
    (right : ∀ bound : index < paths.length,
      paths[index].id.Compares key ∧ key.source.cmp paths[index].id.source ≠ .gt)
    : ∀ edge ∈ paths, edge.id.Compares key := by
  intro edge member
  obtain ⟨place, bound, rfl⟩ := List.getElem_of_mem member
  have order : ∀ {i j : Nat} (inI : i < paths.length) (inJ : j < paths.length), i ≤ j →
      paths[i].id.source.cmp paths[j].id.source ≠ .gt := by
    intro i j inI inJ le
    rcases Nat.lt_or_eq_of_le le with lt | rfl
    · exact EdgeId.source_le (List.pairwise_iff_getElem.mp sorted i j inI inJ lt)
    · simp [Std.ReflCmp.compare_self]
  rcases Nat.lt_or_ge place index with before | after
  · have below : index - 1 < paths.length := by omega
    obtain ⟨compares, lower⟩ := left (index - 1) below (by omega)
    have near := comparable _ member _ (List.getElem_mem below)
    exact near.trans compares (order bound below (by omega)) lower
  · have above : index < paths.length := by omega
    obtain ⟨compares, upper⟩ := right above
    have near := comparable _ (List.getElem_mem above) _ member
    exact (compares.symm.trans near upper (order above bound after)).symm

/-- A search of comparable edges returns exactly if the key can be compared with all of them. -/
theorem exists_bisectEdges {paths : List (EdgeEntry V)} (sorted : SortedEdges paths)
    (comparable : ∀ left ∈ paths, ∀ right ∈ paths, left.id.Compares right.id) {key : EdgeId V}
    : (∃ index, bisectEdges paths key = .ok index) ↔ ∀ edge ∈ paths, edge.id.Compares key := by
  constructor
  · intro returned
    rcases returned with ⟨index, run⟩
    obtain ⟨left, right⟩ := Py.bisectLeft_asked run
    have inside : index ≤ paths.length := by
      rw [bisectEdges_of_ok sorted run]
      exact Py.lowerBound_le key paths
    refine compares_of_neighbours sorted comparable inside ?_ ?_
    · intro i bound next
      have answer := left i bound next
      exact ⟨EdgeId.exists_lt.mp ⟨_, answer⟩,
        EdgeId.source_le (by simpa using EdgeId.lt_agrees answer)⟩
    · intro bound
      have answer := right bound
      exact ⟨EdgeId.exists_lt.mp ⟨_, answer⟩,
        EdgeId.source_ge (by simpa using EdgeId.lt_agrees answer)⟩
  · intro compares
    exact ⟨_, sorted.bisectLeft_eq key (fun edge member =>
      EdgeId.lt_of_compares (compares edge member))⟩

/-- So does the search from the right, where it returns. -/
theorem compares_of_bisectRight {paths : List (EdgeEntry V)} (sorted : SortedEdges paths)
    (comparable : ∀ left ∈ paths, ∀ right ∈ paths, left.id.Compares right.id) {key : EdgeId V}
    {index : Nat} (inside : index ≤ paths.length)
    (run : Py.bisectRight (fun other : EdgeEntry V => key.lt other.id) paths = .ok index)
    : ∀ edge ∈ paths, edge.id.Compares key := by
  have flipped : ∀ {other : EdgeEntry V} {answer : Bool},
      (key.lt other.id).map (!·) = .ok answer → key.lt other.id = .ok (!answer) := by
    intro other answer asked
    cases compared : key.lt other.id with
    | error error => simp [compared, Except.map] at asked
    | ok less =>
        rw [compared] at asked
        rw [← Except.ok.inj asked, Bool.not_not]
  obtain ⟨left, right⟩ := Py.bisectLeft_asked run
  refine compares_of_neighbours sorted comparable inside ?_ ?_
  · intro i bound next
    have answer := flipped (left i bound next)
    exact ⟨(EdgeId.exists_lt.mp ⟨_, answer⟩).symm,
      EdgeId.source_ge (by simpa using EdgeId.lt_agrees answer)⟩
  · intro bound
    have answer := flipped (right bound)
    exact ⟨(EdgeId.exists_lt.mp ⟨_, answer⟩).symm,
      EdgeId.source_le (by simpa using EdgeId.lt_agrees answer)⟩

-----------------------------------------------------------------------------------------
-- The invariant
-----------------------------------------------------------------------------------------

/-- The edges of each kind are strictly sorted, of that kind, and can be compared. -/
structure EdgeStores (registry : Registry V) : Prop where
  sorted : ∀ kind, SortedEdges (registry.edges kind)
  filed : ∀ kind, ∀ edge ∈ registry.edges kind, edge.kind = kind
  comparable : ∀ kind, ∀ left ∈ registry.edges kind, ∀ right ∈ registry.edges kind,
    left.id.Compares right.id

/-- The key can be compared with every stored edge of its kind. -/
def Registry.Searchable (registry : Registry V) (key : EdgeId V) : Prop :=
  ∀ edge ∈ registry.edges key.kind, edge.id.Compares key

/-- A lookup returns exactly if the key can be compared with the edges of its kind. -/
theorem EdgeStores.exists_findEdgeIn {registry : Registry V} (stores : EdgeStores registry)
    {key : EdgeId V}
    : (∃ found, findEdgeIn (registry.edges key.kind) key = .ok found) ↔ registry.Searchable key := by
  have search : (∃ index, bisectEdges (registry.edges key.kind) key = .ok index)
      ↔ registry.Searchable key :=
    exists_bisectEdges (stores.sorted key.kind) (stores.comparable key.kind)
  constructor
  · intro given
    rcases given with ⟨found, run⟩
    obtain ⟨index, bisected, _⟩ := Py.ok_bind_iff.mp run
    exact search.mp ⟨index, bisected⟩
  · intro searchable
    obtain ⟨index, bisected⟩ := search.mpr searchable
    unfold findEdgeIn
    rw [bisected]
    cases at_ : (registry.edges key.kind)[index]? with
    | none => exact ⟨none, by simp [bind, Except.bind, at_, pure, Except.pure]⟩
    | some edge =>
        have compared := EdgeId.eq_of_compares (searchable edge (List.mem_of_getElem? at_))
        cases answer : edge.id.cmp key == .eq with
        | true => exact ⟨some edge, by
            simp [bind, Except.bind, at_, compared, answer, pure, Except.pure]⟩
        | false => exact ⟨none, by
            simp [bind, Except.bind, at_, compared, answer, pure, Except.pure]⟩

theorem EdgeStores.of_empty {registry : Registry V} (none : ∀ kind, registry.edges kind = [])
    : EdgeStores registry := by
  constructor
  · intro kind
    rw [none kind]
    exact List.Pairwise.nil
  · intro kind edge member
    rw [none kind] at member
    cases member
  · intro kind edge member
    rw [none kind] at member
    cases member

omit [VersionValue V] in
theorem edges_setEdges (registry : Registry V) (kind other : ModelKind)
    (paths : List (EdgeEntry V))
    : (registry.setEdges kind paths).edges other
      = if other = kind then paths else registry.edges other :=
  Py.Dict.getD_set _ _ _ _ _

theorem EdgeStores.of_edges {before after : Registry V} (stores : EdgeStores before)
    (same : after.edges = before.edges)
    : EdgeStores after :=
  ⟨fun kind => same ▸ stores.sorted kind, fun kind => same ▸ stores.filed kind,
    fun kind => same ▸ stores.comparable kind⟩

/-- Dropping edges of a kind keeps the order. -/
theorem EdgeStores.sublist {registry : Registry V} (stores : EdgeStores registry)
    {kind : ModelKind} {paths : List (EdgeEntry V)} (fewer : paths.Sublist (registry.edges kind))
    : EdgeStores (registry.setEdges kind paths) := by
  constructor
  · intro other
    rw [edges_setEdges]
    split
    · exact (stores.sorted kind).sublist fewer
    · exact stores.sorted other
  · intro other edge member
    rw [edges_setEdges] at member
    split at member
    case isTrue same => exact (stores.filed kind edge (fewer.subset member)).trans same.symm
    case isFalse => exact stores.filed other edge member
  · intro other
    rw [edges_setEdges]
    split
    · intro left inLeft right inRight
      exact stores.comparable kind left (fewer.subset inLeft) right (fewer.subset inRight)
    · exact stores.comparable other

theorem EdgeStores.insert {registry : Registry V} (stores : EdgeStores registry)
    {edge : EdgeEntry V}
    (absent : ∀ other ∈ registry.edges edge.kind, other.id.cmp edge.id ≠ .eq)
    (compares : ∀ other ∈ registry.edges edge.kind, other.id.Compares edge.id)
    : EdgeStores (registry.setEdges edge.kind
        ((registry.edges edge.kind).insertIdx (edgeIndex (registry.edges edge.kind) edge.id)
          edge)) := by
  constructor
  · intro other
    rw [edges_setEdges]
    split
    · exact (stores.sorted edge.kind).insertIdx absent
    · exact stores.sorted other
  · intro other stored member
    rw [edges_setEdges] at member
    split at member
    case isTrue same =>
      rcases List.eq_or_mem_of_mem_insertIdx member with rfl | old
      · exact same.symm
      · exact (stores.filed edge.kind stored old).trans same.symm
    case isFalse => exact stores.filed other stored member
  · intro other
    rw [edges_setEdges]
    split
    · intro left inLeft right inRight
      rcases List.eq_or_mem_of_mem_insertIdx inLeft with rfl | oldLeft
      · rcases List.eq_or_mem_of_mem_insertIdx inRight with rfl | oldRight
        · exact ⟨rfl, fun _ => rfl⟩
        · exact (compares right oldRight).symm
      · rcases List.eq_or_mem_of_mem_insertIdx inRight with rfl | oldRight
        · exact compares left oldLeft
        · exact stores.comparable edge.kind left oldLeft right oldRight
    · exact stores.comparable other

/-- Stored edges of one identity are the same edge. -/
theorem EdgeStores.eq_of_id {registry : Registry V} (stores : EdgeStores registry)
    {kind other : ModelKind} {left right : EdgeEntry V} (inLeft : left ∈ registry.edges kind)
    (inRight : right ∈ registry.edges other) (same : left.id = right.id)
    : left = right := by
  have kinds : kind = other := by
    rw [← stores.filed kind left inLeft, ← stores.filed other right inRight, EdgeEntry.kind, same,
      EdgeEntry.kind]
  subst kinds
  refine (stores.sorted kind).eq_of_cmp_eq inLeft inRight ?_
  rw [same]
  exact Std.ReflCmp.compare_self

/-- Stored edges that compare equal are the same edge. -/
theorem EdgeStores.eq_of_cmp {registry : Registry V} (stores : EdgeStores registry)
    {left right : EdgeEntry V} (inLeft : left ∈ registry.edges left.kind)
    (inRight : right ∈ registry.edges right.kind) (same : left.id.cmp right.id = .eq)
    : left = right := by
  have kinds : left.kind = right.kind := by
    simp only [EdgeId.cmp, compareLex_eq_eq] at same
    exact (NodeId.cmp_eq_iff.mp same.1).2.1
  rw [← kinds] at inRight
  exact (stores.sorted left.kind).eq_of_cmp_eq inLeft inRight same

theorem edgeStores_of_keeps {α : Type} {program : RegistryM V α}
    (kept : Py.Keeps Registry.edges program)
    : Py.Preserves EdgeStores program :=
  kept.preserves (fun _ _ same stores => stores.of_edges same)

omit [VersionValue V] in
theorem keepsEdges_paths {α : Type} {program : RegistryM V α}
    (kept : Py.Keeps Registry.edgeView program)
    : Py.Keeps Registry.edges program := by
  intro registry
  obtain ⟨same, _⟩ := EdgeView.mk.inj (kept registry)
  exact funext (fun kind => congrArg (fun migrations => migrations.getD kind []) same)

omit [VersionValue V] in
theorem touchMigrations_keepsPaths (kind : ModelKind)
    : Py.Keeps Registry.edges (Registry.touchMigrations kind : RegistryM V PUnit) :=
  .modify (fun _ => funext (fun _ => Py.Dict.getD_setDefault _ _ _ _))

variable [DecidableEq V]

omit [VersionValue V] in
theorem refreshHealth_keepsPaths (linters : List (HealthLinter V)) (entities : List (Entity V))
    : Py.Keeps Registry.edges (refreshHealth linters entities) :=
  keepsEdges_paths (refreshHealth_keepsEdges linters entities)

/-- Inserting an edge that is not there keeps the order: the search from the right ends where
the one from the left does.
-/
theorem insertEdge_edgeStores (config : Config V F) {registry : Registry V}
    (stores : EdgeStores registry) {edge : EdgeEntry V}
    (absent : ∀ other ∈ registry.edges edge.kind, other.id.cmp edge.id ≠ .eq)
    : EdgeStores (Py.after (Registry.insertEdge config edge) registry) := by
  unfold Registry.insertEdge
  rw [Py.after_query_bind]
  cases search : Py.bisectRight (fun other : EdgeEntry V => edge.id.lt other.id)
      (registry.edges edge.kind) with
  | error raised => exact stores
  | ok index =>
      have boundary : index = edgeIndex (registry.edges edge.kind) edge.id :=
        (stores.sorted edge.kind).bisectRight_of_ok edge.id
          (fun _ _ _ asked => EdgeId.lt_agrees asked) absent search
      have compares := compares_of_bisectRight (stores.sorted edge.kind)
        (stores.comparable edge.kind) (boundary ▸ Py.lowerBound_le edge.id _) search
      have inserted := stores.insert absent compares
      have refresh := refreshHealth_keepsPaths config.linters (affectedByEdgeChange (.stored edge))
      rw [← boundary] at inserted
      simp only [Py.after_modify_bind]
      refine edgeStores_of_keeps ?_ _ (inserted.of_edges rfl)
      cases edge with
      | edgeKey pair => exact .bind refresh (fun _ => .pure _ _)
      | versionEdge version =>
          refine .bind (.query _ _) (fun _ => .ite _ ?_ (.bind refresh (fun _ => .pure _ _)))
          refine .bind (.query _ _) (fun _ => .bind (.modify (fun _ => rfl)) (fun _ => ?_))
          exact .bind refresh (fun _ => .pure _ _)

omit [DecidableEq V] in
/-- Deleting at the index of a stored edge drops exactly the edges with its identity. -/
theorem eraseIdx_edgeIndex {paths : List (EdgeEntry V)} (sorted : SortedEdges paths)
    {key : EdgeId V} {found : EdgeEntry V}
    (hit : paths.find? (fun edge => edge.id.cmp key == .eq) = some found)
    : paths.eraseIdx (edgeIndex paths key)
      = paths.filter (fun edge => !(edge.id.cmp key == .eq)) :=
  sorted.eraseIdx_of_find? hit

/-- An executable edge takes the place of a key-only one, which is deleted first. -/
theorem replaceEdge_edgeStores (config : Config V F) {registry : Registry V}
    (stores : EdgeStores registry) {edge found : EdgeEntry V}
    (hit : (registry.edges edge.kind).find? (fun other => other.id.cmp edge.id == .eq)
      = some found) (existing : EdgeId V)
    : EdgeStores (Py.after (do
        let index ← Py.query (fun registry => bisectEdges (registry.edges edge.kind) edge.id)
        modify (fun registry =>
          registry.setEdges edge.kind ((registry.edges edge.kind).eraseIdx index))
        modify (fun registry => registry.unindexEdge existing)
        Registry.insertEdge config edge : RegistryM V (EdgeEntry V)) registry) := by
  rw [Py.after_query_bind]
  cases search : bisectEdges (registry.edges edge.kind) edge.id with
  | error raised => exact stores
  | ok index =>
      have fewer := stores.sublist (List.eraseIdx_sublist (registry.edges edge.kind) index)
      simp only [Py.after_modify_bind]
      have unindexed : EdgeStores ((registry.setEdges edge.kind
          ((registry.edges edge.kind).eraseIdx index)).unindexEdge existing) :=
        fewer.of_edges rfl
      refine insertEdge_edgeStores config unindexed ?_
      intro other member
      change other ∈ (registry.setEdges edge.kind _).edges edge.kind at member
      rw [edges_setEdges, if_pos rfl, bisectEdges_of_ok (stores.sorted edge.kind) search,
        eraseIdx_edgeIndex (stores.sorted edge.kind) hit, List.mem_filter] at member
      simpa using member.2

/-- Filing an edge keeps the order, in the branch of each stored edge it may meet. -/
theorem fileEdge_edgeStores (config : Config V F) (edge : EdgeEntry V)
    : Py.Preserves EdgeStores (Registry.fileEdge config edge) := by
  unfold Registry.fileEdge
  refine .bind (edgeStores_of_keeps (touchMigrations_keepsPaths _)) (fun _ => ?_)
  intro registry stores
  rw [Py.after_query_bind]
  cases search : findEdgeIn (registry.edges edge.kind) edge.id with
  | error raised => exact stores
  | ok found =>
      have met := findEdgeIn_of_ok (stores.sorted edge.kind) search
      cases found with
      | none =>
          refine insertEdge_edgeStores config stores ?_
          intro other member equal
          have miss := List.find?_eq_none.mp met.symm other member
          simp [equal] at miss
      | some existing =>
          cases edge with
          | edgeKey pair => exact stores
          | versionEdge incoming =>
            cases existing with
            | versionEdge registered =>
                refine (?_ : Py.Preserves EdgeStores _) registry stores
                refine .bind (.query _ _) (fun _ => .bind (.query _ _) (fun _ => ?_))
                exact .ite _ (.bind (.query _ _) (fun _ => .bind (.throw _ _) (fun _ => .pure _ _)))
                  (.pure _ _)
            | edgeKey pair =>
                exact replaceEdge_edgeStores config stores met.symm _

theorem removeMigration_edgeStores (config : Config V F) (key : Transitional V)
    : Py.Preserves EdgeStores (Registry.removeMigration config key) := by
  have refresh := fun entities =>
    edgeStores_of_keeps (refreshHealth_keepsPaths config.linters entities)
  unfold Registry.removeMigration
  refine .bind (.query _ _) (fun _ => .ite _ (.bind (.query _ _) (fun _ => .throw_bind _ _ _)) ?_)
  refine .bind (edgeStores_of_keeps (touchMigrations_keepsPaths _)) (fun _ => ?_)
  refine .bind (.query _ _) (fun found => ?_)
  cases found with
  | none => exact refresh _
  | some existing =>
      refine .bind (.query _ _) (fun index => ?_)
      refine .bind (.modify (fun _ stores => stores.sublist (List.eraseIdx_sublist ..))) (fun _ => ?_)
      refine .bind (.modify (fun registry stores => ?_)) (fun _ => ?_)
      · split
        case isTrue empty =>
          refine stores.of_edges (funext (fun kind => ?_))
          rw [List.isEmpty_iff] at empty
          refine (Py.Dict.getD_erase _ _ _ _).trans ?_
          split
          case isTrue same => exact (same ▸ empty).symm
          case isFalse => rfl
        case isFalse => exact stores
      have finish : Py.Preserves EdgeStores (do
          modify (fun registry => registry.unindexEdge key.id)
          modifyHealth (fun index => index.dropEntity (.edge (.stored existing)))
          refreshHealth config.linters
            ((affectedByEdgeChange (.stored existing)).filter
              (fun entity => entity.id ≠ .edge existing.id)) : RegistryM V PUnit) :=
        .bind (edgeStores_of_keeps (.modify (fun _ => rfl))) (fun _ =>
          .bind (edgeStores_of_keeps (.modify (fun _ => rfl))) (fun _ => refresh _))
      cases existing with
      | edgeKey pair => exact finish
      | versionEdge version =>
          refine .bind (.query _ _) (fun _ => .ite _ ?_ finish)
          refine .bind (.query _ _) (fun _ => ?_)
          exact .bind (edgeStores_of_keeps (.modify (fun _ => rfl))) (fun _ => finish)

theorem clearMigrations_edgeStores (config : Config V F)
    : Py.Preserves EdgeStores (Registry.clearMigrations config) := by
  refine .bind (edgeStores_of_keeps (keepsIndexes_paths (clearHooks_keepsIndexes none))) (fun _ => ?_)
  refine .bind (.modify (fun _ _ => ?_)) (fun _ => ?_)
  · exact .of_empty (fun _ => rfl)
  · exact edgeStores_of_keeps (keepsEdges_paths (rebuildHealth_keepsEdges _))

theorem storeMigration_edgeStores (config : Config V F) (input : Registry.MigrationInput V F)
    : Py.Preserves EdgeStores (Registry.storeMigration config input) :=
  storeMigration_preservesEdges (fun kept => edgeStores_of_keeps (keepsIndexes_paths kept))
    (fileEdge_edgeStores config) input

theorem deleteKind_edgeStores (config : Config V F) (kind : ModelKind)
    : Py.Preserves EdgeStores (Registry.deleteKind config kind) := by
  refine deleteKind_preserves (fun versions edge => ?_)
    (fun key => edgeStores_of_keeps (keepsEdges_paths (removeModel_keepsEdges config key))) kind
  exact removeOwnEdge_preserves
    (fun key => edgeStores_of_keeps (keepsIndexes_paths (clearHooks_keepsIndexes key)))
    (removeMigration_edgeStores config _) versions

theorem removeMigrationRange_edgeStores (config : Config V F) (fromVersion toVersion : NodeId V)
    : Py.Preserves EdgeStores (Registry.removeMigrationRange config fromVersion toVersion) := by
  rw [removeMigrationRange_eq]
  refine .bind (edgeStores_of_keeps (keepsEdges_paths (rangeScan_keepsEdges _ _))) (fun keys => ?_)
  exact .forM _ (fun _ _ => removeMigration_edgeStores config _)

/-- Every operation keeps the edge lists sorted, also when it raises. -/
theorem Op.edgeStores (config : Config V F) (op : Op V F)
    : Py.Preserves EdgeStores (op.run config) := by
  intro registry stores
  exact op.after_edges (fun kept => edgeStores_of_keeps (keepsIndexes_paths kept)) stores
    (fun input _ => storeMigration_edgeStores config input registry stores)
    (clearMigrations_edgeStores config)
    (fun key _ => removeMigration_edgeStores config key registry stores)
    (fun fromVersion toVersion _ =>
      removeMigrationRange_edgeStores config fromVersion toVersion registry stores)
    (fun kind _ => deleteKind_edgeStores config kind registry stores)

/-- Every reachable registry has sorted edge lists, by induction over its run. -/
theorem Reachable.edgeStores {config : Config V F} {registry : Registry V}
    (reached : Reachable config registry)
    : EdgeStores registry := by
  induction reached with
  | new config nameSpace indexDigests _ =>
      exact .of_empty (fun _ => rfl)
  | step op _ ih => exact op.edgeStores _ _ ih
  | copyFrom _ _ _ ih => exact ih.of_edges rfl

end Pyverge
