import Pyverge.Registry.Removals

/-! Removing the migrations of a range of versions.
All pairs of the range are asked before the first edge goes. The loop pairs every version of the
range with the next one, also the last version below an unregistered upper bound.
-/

namespace Pyverge

variable {V F : Type} [VersionValue V]

-----------------------------------------------------------------------------------------
-- Searches that raise
-----------------------------------------------------------------------------------------

/-- It raises nothing that an `except CatalogError` clause catches. -/
def Uncaught {α : Type} (query : Except (Error V) α) : Prop :=
  ∀ error, query = .error error → error.isCatalogError = false

namespace Uncaught

variable {α β : Type}

omit [VersionValue V] in
theorem ok (value : α) : Uncaught (.ok value : Except (Error V) α) := by
  intro error raised
  cases raised

omit [VersionValue V] in
theorem bind {query : Except (Error V) α} {next : α → Except (Error V) β} (first : Uncaught query)
    (later : ∀ value, Uncaught (next value))
    : Uncaught (query >>= next) := by
  intro error raised
  cases answer : query with
  | error earlier =>
      rw [answer] at raised
      obtain rfl := Except.error.inj raised
      exact first _ answer
  | ok value =>
      rw [answer] at raised
      exact later value error raised

omit [VersionValue V] in
theorem ite (test : Prop) [Decidable test] {yes no : Except (Error V) α} (left : Uncaught yes)
    (right : Uncaught no)
    : Uncaught (if test then yes else no) := by
  split
  · exact left
  · exact right

theorem nodeLt (left right : NodeId V) : Uncaught (left.lt right) := by
  refine .ite _ (.ok _) ?_
  intro error raised
  obtain rfl := Except.error.inj raised
  rfl

theorem nodeEq (left right : NodeId V) : Uncaught (left.eq right) := by
  refine .ite _ (.ok _) ?_
  intro error raised
  obtain rfl := Except.error.inj raised
  rfl

theorem edgeLt (left right : EdgeId V) : Uncaught (left.lt right) := by
  refine .bind (nodeEq _ _) (fun _ => .ite _ (nodeLt _ _) ?_)
  exact .bind (nodeEq _ _) (fun _ => .ite _ (nodeLt _ _) (.ok _))

theorem edgeEq (left right : EdgeId V) : Uncaught (left.eq right) :=
  .bind (nodeEq _ _) (fun _ => .ite _ (.ok _)
    (.bind (nodeEq _ _) (fun _ => .ite _ (.ok _) (.ok _))))

omit [VersionValue V] in
theorem bisectLeft {below : α → Except (Error V) Bool} (asked : ∀ item, Uncaught (below item))
    (items : List α)
    : Uncaught (Py.bisectLeft below items) := by
  intro error raised
  obtain ⟨item, _, answer⟩ := Py.exists_of_bisectLeft_error raised
  exact asked item error answer

/-- A lookup that raises has met versions that cannot be compared. -/
theorem findEdgeIn (paths : List (EdgeEntry V)) (key : EdgeId V)
    : Uncaught (Pyverge.findEdgeIn paths key) := by
  refine .bind (bisectLeft (fun _ => edgeLt _ _) _) (fun index => ?_)
  cases paths[index]? with
  | none => exact .ok _
  | some edge => exact .bind (edgeEq _ _) (fun _ => .ite _ (.ok _) (.ok _))

theorem bisectNodes (entries : List (NodeEntry V)) (key : NodeId V)
    : Uncaught (Pyverge.bisectNodes entries key) :=
  bisectLeft (fun _ => nodeLt _ _) _

theorem hasMigration (registry : Registry V) (key : EdgeId V)
    : Uncaught (registry.hasMigration key) := by
  intro error raised
  cases search : Pyverge.findEdgeIn (registry.edges key.kind) key with
  | ok found => simp [Registry.hasMigration, search, Except.map] at raised
  | error earlier =>
      rw [Registry.hasMigration, search] at raised
      obtain rfl := Except.error.inj raised
      exact findEdgeIn _ _ _ search

omit [VersionValue V] in
theorem fromPair (source target : Comparable V) (discriminator : String)
    : Uncaught (EdgePair.fromPair source target discriminator) := by
  intro error raised
  unfold EdgePair.fromPair at raised
  split at raised
  · split at raised
    · split at raised
      · cases raised
      · obtain rfl := Except.error.inj raised
        rfl
    · obtain rfl := Except.error.inj raised
      rfl
  · obtain rfl := Except.error.inj raised
    rfl

end Uncaught

-----------------------------------------------------------------------------------------
-- Asking one pair
-----------------------------------------------------------------------------------------

/-- The versions at an index and after it form this pair. -/
def PairAt (versions : List (VersionNode V)) (index : Nat) (pair : EdgePair V) : Prop :=
  ∃ source target, versions[index]? = some source ∧ versions[index + 1]? = some target
    ∧ EdgePair.fromPair (.versioned (.versionNode source)) (.versioned (.versionNode target))
        defaultDiscriminator = .ok pair

omit [VersionValue V] in
theorem PairAt.unique {versions : List (VersionNode V)} {index : Nat} {pair other : EdgePair V}
    (first : PairAt versions index pair) (second : PairAt versions index other)
    : pair = other := by
  obtain ⟨source, target, atSource, atTarget, built⟩ := first
  obtain ⟨_, _, otherSource, otherTarget, again⟩ := second
  obtain rfl := Option.some.inj (atSource.symm.trans otherSource)
  obtain rfl := Option.some.inj (atTarget.symm.trans otherTarget)
  exact Except.ok.inj (built.symm.trans again)

omit [VersionValue V] in
/-- The ends of a pair are the two versions. -/
theorem PairAt.ends {versions : List (VersionNode V)} {index : Nat} {pair : EdgePair V}
    (at_ : PairAt versions index pair)
    : ∃ source target, versions[index]? = some source ∧ versions[index + 1]? = some target
      ∧ pair.id.source = source.id ∧ pair.id.target = target.id := by
  obtain ⟨source, target, atSource, atTarget, built⟩ := at_
  obtain ⟨sources, targets, _⟩ := EdgePair.eq_of_fromPair built
  exact ⟨source, target, atSource, atTarget, congrArg Comparable.id sources,
    congrArg Comparable.id targets⟩

namespace Registry

/-- An executable edge with this identity is stored. -/
def Executes (registry : Registry V) (key : EdgeId V) : Prop :=
  ∃ edge, .versionEdge edge ∈ registry.edges key.kind ∧ edge.id.cmp key = .eq

end Registry

theorem EdgeStores.hasMigration_iff {registry : Registry V} (edges : EdgeStores registry)
    {key : EdgeId V} {answer : Bool} (run : registry.hasMigration key = .ok answer)
    : registry.Searchable key ∧ (answer = true ↔ registry.Executes key) := by
  cases search : findEdgeIn (registry.edges key.kind) key with
  | error error => simp [Registry.hasMigration, search, Except.map] at run
  | ok found =>
      obtain rfl : (found.map EdgeEntry.isExecutable).getD false = answer := by
        simpa [Registry.hasMigration, search, Except.map] using run
      refine ⟨edges.exists_findEdgeIn.mp ⟨found, search⟩, ?_⟩
      obtain rfl := findEdgeIn_of_ok (edges.sorted key.kind) search
      constructor
      · intro executable
        cases hit : (registry.edges key.kind).find? (fun edge => edge.id.cmp key == .eq) with
        | none => simp [hit] at executable
        | some edge =>
            obtain ⟨member, equal⟩ := (edges.sorted key.kind).find?_eq_some.mp hit
            cases edge with
            | edgeKey pair => simp [hit, EdgeEntry.isExecutable] at executable
            | versionEdge version => exact ⟨version, member, equal⟩
      · intro executes
        obtain ⟨version, member, equal⟩ := executes
        have hit := (edges.sorted key.kind).find?_eq_some.mpr ⟨member, equal⟩
        simp [hit, EdgeEntry.isExecutable]

theorem EdgeStores.exists_hasMigration {registry : Registry V} (edges : EdgeStores registry)
    {key : EdgeId V} (searchable : registry.Searchable key)
    : ∃ answer, registry.hasMigration key = .ok answer := by
  obtain ⟨found, search⟩ := edges.exists_findEdgeIn.mpr searchable
  exact ⟨_, by rw [Registry.hasMigration, search]; rfl⟩

variable [DecidableEq V]

namespace Registry

/-- The pair of versions at an index is asked and refused: it joins adjacent entries or has
hooks.
-/
def RefusedAt (registry : Registry V) (versions : List (VersionNode V)) (index : Nat) : Prop :=
  ∃ pair, PairAt versions index pair ∧ registry.Searchable pair.id ∧ registry.Executes pair.id
    ∧ (registry.Adjacent pair.id.source pair.id.target ∨ registry.hasHooks pair.id = true)

/-- The pair of versions at an index is asked and may go, if an executable edge joins it at all. -/
def PassedAt (registry : Registry V) (versions : List (VersionNode V)) (index : Nat) : Prop :=
  ∃ pair, PairAt versions index pair ∧ registry.Searchable pair.id
    ∧ (registry.Executes pair.id →
      ¬ registry.Adjacent pair.id.source pair.id.target ∧ registry.hasHooks pair.id = false)

theorem RefusedAt.paired {registry : Registry V} {versions : List (VersionNode V)} {index : Nat}
    (refused : registry.RefusedAt versions index)
    : ∃ pair, PairAt versions index pair := by
  obtain ⟨pair, at_, _⟩ := refused
  exact ⟨pair, at_⟩

theorem PassedAt.paired {registry : Registry V} {versions : List (VersionNode V)} {index : Nat}
    (passed : registry.PassedAt versions index)
    : ∃ pair, PairAt versions index pair := by
  obtain ⟨pair, at_, _⟩ := passed
  exact ⟨pair, at_⟩

section Pair

variable {registry : Registry V} {versions : List (VersionNode V)} {index : Nat}
  {pair : EdgePair V} (at_ : PairAt versions index pair)

include at_

theorem RefusedAt.searchable (refused : registry.RefusedAt versions index)
    : registry.Searchable pair.id := by
  obtain ⟨other, otherAt, searchable, _⟩ := refused
  exact at_.unique otherAt ▸ searchable

theorem PassedAt.searchable (passed : registry.PassedAt versions index)
    : registry.Searchable pair.id := by
  obtain ⟨other, otherAt, searchable, _⟩ := passed
  exact at_.unique otherAt ▸ searchable

/-- An executable edge that is passed may go. -/
theorem PassedAt.free (passed : registry.PassedAt versions index)
    (executes : registry.Executes pair.id)
    : ¬ registry.Adjacent pair.id.source pair.id.target ∧ registry.hasHooks pair.id = false := by
  obtain ⟨other, otherAt, _, free⟩ := passed
  obtain rfl := at_.unique otherAt
  exact free executes

end Pair

theorem PassedAt.not_refusedAt {registry : Registry V} {versions : List (VersionNode V)}
    {index : Nat} (passed : registry.PassedAt versions index)
    : ¬ registry.RefusedAt versions index := by
  intro refused
  obtain ⟨pair, at_, _, executes, held⟩ := refused
  obtain ⟨apart, unhooked⟩ := passed.free at_ executes
  rcases held with adjacent | hooked
  · exact apart adjacent
  · simp [unhooked] at hooked

/-- Some pair is refused, and all pairs before it are passed. -/
def FirstRefused (registry : Registry V) (versions : List (VersionNode V)) : List Nat → Prop
  | [] => False
  | index :: rest => registry.RefusedAt versions index
      ∨ (registry.PassedAt versions index ∧ registry.FirstRefused versions rest)

theorem firstRefused_cons {registry : Registry V} {versions : List (VersionNode V)} {index : Nat}
    {rest : List Nat}
    : registry.FirstRefused versions (index :: rest)
      ↔ registry.RefusedAt versions index
        ∨ (registry.PassedAt versions index ∧ registry.FirstRefused versions rest) := Iff.rfl

theorem firstRefused_cons_of_passed {registry : Registry V} {versions : List (VersionNode V)}
    {index : Nat} {rest : List Nat} (passed : registry.PassedAt versions index)
    : registry.FirstRefused versions (index :: rest) ↔ registry.FirstRefused versions rest := by
  simp [firstRefused_cons, passed, passed.not_refusedAt]

end Registry

section Scan

variable {registry : Registry V}

/-- An index without a pair is past the last version, or its versions cannot be paired. -/
theorem rangeKeys_lost {versions : List (VersionNode V)} {index : Nat} (rest : List Nat)
    (lost : ∀ pair, ¬ PairAt versions index pair)
    : ∃ error, Registry.rangeKeys versions (index :: rest) registry = .error error registry
        ∧ error.isCatalogError = false := by
  unfold Registry.rangeKeys
  cases atSource : versions[index]? with
  | none => exact ⟨_, rfl, rfl⟩
  | some source =>
      cases atTarget : versions[index + 1]? with
      | none => exact ⟨_, rfl, rfl⟩
      | some target =>
          cases built : EdgePair.fromPair (.versioned (.versionNode source))
              (.versioned (.versionNode target)) defaultDiscriminator with
          | ok pair => exact absurd ⟨source, target, atSource, atTarget, built⟩ (lost pair)
          | error error =>
              refine ⟨error, ?_, Uncaught.fromPair _ _ _ _ built⟩
              simp only [built, Py.query_bind_eq]

/-- What the loop does with the pair at an index. -/
theorem rangeKeys_eq {versions : List (VersionNode V)} {index : Nat} {pair : EdgePair V}
    (rest : List Nat) (at_ : PairAt versions index pair)
    : Registry.rangeKeys versions (index :: rest) registry = (do
        if !(← Py.query (fun registry => registry.hasMigration pair.id)) then
          Registry.rangeKeys versions rest
        else
          let catalog ← Py.query (fun registry => .ok registry.nameSpace)
          if ← Registry.isAdjacent pair.id then
            throw (.catalogError catalog ("Cannot remove critical migration "
              ++ pair.id.source.str ++ "→" ++ pair.id.target.str ++ " in range. "
              ++ "Remove it individually with force=True or remove hooks first."))
          if ← Py.query (fun registry => .ok (registry.hasHooks pair.id)) then
            throw (.catalogError catalog ("Cannot remove migration "
              ++ pair.id.source.str ++ "→" ++ pair.id.target.str ++ ". Remove hooks first."))
          let later ← Registry.rangeKeys versions rest
          return pair :: later : RegistryM V _) registry := by
  obtain ⟨source, target, atSource, atTarget, built⟩ := at_
  rw [Registry.rangeKeys, atSource, atTarget]
  simp only [built]
  rw [Py.query_bind_eq]

variable (nodes : NodeStores registry) (edges : EdgeStores registry) (kind : ModelKind)

include nodes in
omit [DecidableEq V] in
/-- The versions of a pair can be compared with the entries of their kind. -/
theorem isAdjacent_of_pairAt {index : Nat} {pair : EdgePair V}
    (at_ : PairAt (registry.kindVersions kind) index pair)
    : ∃ answer, Registry.isAdjacent pair.id registry = .ok answer registry
        ∧ (answer = true ↔ registry.Adjacent pair.id.source pair.id.target) := by
  obtain ⟨source, target, atSource, atTarget, sourceId, targetId⟩ := at_.ends
  obtain ⟨sourceStored, _⟩ := nodes.mem_kindVersions.mp (List.mem_of_getElem? atSource)
  obtain ⟨targetStored, _⟩ := nodes.mem_kindVersions.mp (List.mem_of_getElem? atTarget)
  have member : NodeEntry.versionNode source ∈ registry.kindEntries pair.id.kind := by
    rw [nodes.grouped, EdgeId.kind, sourceId]
    exact List.mem_filter.mpr ⟨sourceStored, by simp [NodeEntry.kind, NodeEntry.id]⟩
  have compared : ∀ node : VersionNode V, .versionNode node ∈ registry.byVersions →
      ∃ place, bisectNodes (registry.kindEntries pair.id.kind) node.id = .ok place := by
    intro node stored
    rw [nodes.grouped]
    exact ⟨_, bisectNodes_eq (nodes.sorted.filter _) ((nodes.uniform _ stored).filter _)⟩
  rcases Registry.isAdjacent_of_touched (Registry.touchKind_of_mem member) with answered | ⟨error, run, _⟩
  · exact answered
  · obtain ⟨left, first⟩ := compared source sourceStored
    obtain ⟨right, second⟩ := compared target targetStored
    rw [← sourceId] at first
    rw [← targetId] at second
    rw [Registry.isAdjacent, Py.bind_eq_of_ok (Registry.touchKind_of_mem member),
      Py.query_bind_eq, first] at run
    simp only [Py.query_bind_eq, second] at run
    cases run

include nodes edges

/-- A pair is refused, is passed, or cannot be looked up. -/
theorem rangeKeys_pair {index : Nat} {pair : EdgePair V} (rest : List Nat)
    (at_ : PairAt (registry.kindVersions kind) index pair)
    : (registry.RefusedAt (registry.kindVersions kind) index
        ∧ ∃ error, Registry.rangeKeys (registry.kindVersions kind) (index :: rest) registry
            = .error error registry ∧ error.isCatalogError = true)
      ∨ (registry.PassedAt (registry.kindVersions kind) index ∧ registry.Executes pair.id
        ∧ Registry.rangeKeys (registry.kindVersions kind) (index :: rest) registry
            = (do
                let later ← Registry.rangeKeys (registry.kindVersions kind) rest
                return pair :: later : RegistryM V _) registry)
      ∨ (registry.PassedAt (registry.kindVersions kind) index ∧ ¬ registry.Executes pair.id
        ∧ Registry.rangeKeys (registry.kindVersions kind) (index :: rest) registry
            = Registry.rangeKeys (registry.kindVersions kind) rest registry)
      ∨ (¬ registry.Searchable pair.id
        ∧ ∃ error, Registry.rangeKeys (registry.kindVersions kind) (index :: rest) registry
            = .error error registry ∧ error.isCatalogError = false) := by
  rw [rangeKeys_eq rest at_, Py.query_bind_eq]
  cases asked : registry.hasMigration pair.id with
  | error error =>
      refine .inr (.inr (.inr ⟨?_, error, rfl, Uncaught.hasMigration _ _ _ asked⟩))
      intro searchable
      obtain ⟨answer, run⟩ := edges.exists_hasMigration searchable
      cases asked.symm.trans run
  | ok answer =>
      obtain ⟨searchable, executes⟩ := edges.hasMigration_iff asked
      cases answer with
      | false =>
          have absent : ¬ registry.Executes pair.id := fun held => by simpa using executes.mpr held
          exact .inr (.inr (.inl ⟨⟨pair, at_, searchable, fun held => absurd held absent⟩, absent,
            rfl⟩))
      | true =>
          have held := executes.mp rfl
          obtain ⟨adjacent, run, near⟩ := isAdjacent_of_pairAt nodes kind at_
          simp only [Bool.not_true, Bool.false_eq_true, if_false]
          rw [Py.query_bind_eq]
          simp only
          rw [Py.bind_eq_of_ok run]
          cases adjacent with
          | true => exact .inl ⟨⟨pair, at_, searchable, held, .inl (near.mp rfl)⟩, _, rfl, rfl⟩
          | false =>
              have apart : ¬ registry.Adjacent pair.id.source pair.id.target :=
                fun close => by simpa using near.mpr close
              simp only [Bool.false_eq_true, if_false]
              rw [Py.query_bind_eq]
              cases hooked : registry.hasHooks pair.id with
              | true => exact .inl ⟨⟨pair, at_, searchable, held, .inr hooked⟩, _, rfl, rfl⟩
              | false =>
                  exact .inr (.inl ⟨⟨pair, at_, searchable, fun _ => ⟨apart, hooked⟩⟩, held, rfl⟩)

/-- The run lemma of the loop, by induction over the indices. -/
theorem rangeKeys_run (indices : List Nat)
    : (∃ keys, Registry.rangeKeys (registry.kindVersions kind) indices registry
          = .ok keys registry
        ∧ (∀ index ∈ indices, registry.PassedAt (registry.kindVersions kind) index)
        ∧ ∀ pair, pair ∈ keys ↔ registry.Executes pair.id
          ∧ ∃ index ∈ indices, PairAt (registry.kindVersions kind) index pair)
      ∨ (registry.FirstRefused (registry.kindVersions kind) indices
        ∧ ∃ error, Registry.rangeKeys (registry.kindVersions kind) indices registry
            = .error error registry ∧ error.isCatalogError = true)
      ∨ (¬ registry.FirstRefused (registry.kindVersions kind) indices
        ∧ ¬ (∀ index ∈ indices, registry.PassedAt (registry.kindVersions kind) index)
        ∧ ∃ error, Registry.rangeKeys (registry.kindVersions kind) indices registry
            = .error error registry ∧ error.isCatalogError = false) := by
  induction indices with
  | nil => exact .inl ⟨[], rfl, by simp, by simp⟩
  | cons index rest ih =>
      have blocked : ¬ registry.RefusedAt (registry.kindVersions kind) index →
          ¬ registry.PassedAt (registry.kindVersions kind) index →
          ¬ registry.FirstRefused (registry.kindVersions kind) (index :: rest)
          ∧ ¬ (∀ other ∈ index :: rest, registry.PassedAt (registry.kindVersions kind) other) := by
        intro notRefused notPassed
        refine ⟨?_, fun all => notPassed (all index (by simp))⟩
        intro first
        rcases Registry.firstRefused_cons.mp first with refused | later
        · exact notRefused refused
        · exact notPassed later.1
      by_cases paired : ∃ pair, PairAt (registry.kindVersions kind) index pair
      · obtain ⟨pair, at_⟩ := paired
        rcases rangeKeys_pair nodes edges kind rest at_ with
          ⟨refused, raised⟩ | ⟨passed, executes, run⟩ | ⟨passed, absent, run⟩ | ⟨lost, raised⟩
        · exact .inr (.inl ⟨Registry.firstRefused_cons.mpr (.inl refused), raised⟩)
        · rw [Registry.firstRefused_cons_of_passed passed, List.forall_mem_cons,
            and_iff_right passed]
          rcases ih with ⟨keys, later, all, mem⟩ | ⟨first, error, later, caught⟩
            | ⟨notFirst, notAll, error, later, uncaught⟩
          · refine .inl ⟨pair :: keys, ?_, all, fun other => ?_⟩
            · rw [run, Py.bind_eq_of_ok later]
              rfl
            · simp only [List.mem_cons, mem, exists_eq_or_imp]
              constructor
              · intro given
                rcases given with rfl | ⟨held, below⟩
                · exact ⟨executes, .inl at_⟩
                · exact ⟨held, .inr below⟩
              · intro given
                rcases given with ⟨held, here | below⟩
                · exact .inl (here.unique at_)
                · exact .inr ⟨held, below⟩
          · exact .inr (.inl ⟨first, error, run.trans (Py.bind_eq_of_error later), caught⟩)
          · exact .inr (.inr ⟨notFirst, notAll, error, run.trans (Py.bind_eq_of_error later),
              uncaught⟩)
        · rw [Registry.firstRefused_cons_of_passed passed, List.forall_mem_cons,
            and_iff_right passed, run]
          rcases ih with ⟨keys, later, all, mem⟩ | first | stuck
          · refine .inl ⟨keys, later, all, fun other => ?_⟩
            simp only [List.mem_cons, mem, exists_eq_or_imp]
            constructor
            · intro given
              exact ⟨given.1, .inr given.2⟩
            · intro given
              rcases given with ⟨held, here | below⟩
              · obtain rfl := here.unique at_
                exact absurd held absent
              · exact ⟨held, below⟩
          · exact .inr (.inl first)
          · exact .inr (.inr stuck)
        · obtain ⟨notFirst, notAll⟩ := blocked
            (fun refused => lost (refused.searchable at_))
            (fun passed => lost (passed.searchable at_))
          exact .inr (.inr ⟨notFirst, notAll, raised⟩)
      · have lost : ∀ pair, ¬ PairAt (registry.kindVersions kind) index pair :=
          not_exists.mp paired
        obtain ⟨notFirst, notAll⟩ := blocked
          (fun refused => paired refused.paired) (fun passed => paired passed.paired)
        exact .inr (.inr ⟨notFirst, notAll, rangeKeys_lost rest lost⟩)

end Scan

-----------------------------------------------------------------------------------------
-- Removing what was collected
-----------------------------------------------------------------------------------------

omit [DecidableEq V] in
/-- Cutting an edge leaves the edges that do not equal its key, of all kinds. -/
theorem EdgeStores.cut_paths {registry : Registry V} (edges : EdgeStores registry) (key : EdgeId V)
    (kind : ModelKind)
    : (registry.edgeIndexes.cut key).paths kind
      = (registry.edges kind).filter (fun edge => !(edge.id.cmp key == .eq)) := by
  change (if kind = key.kind then _ else _) = _
  split
  case isTrue same =>
    subst same
    rfl
  case isFalse apart =>
    refine (List.filter_eq_self.mpr ?_).symm
    intro edge member
    have filed := edges.filed kind edge member
    have unequal : edge.id.cmp key ≠ .eq := fun equal =>
      apart (filed.symm.trans (EdgeId.kind_eq_of_cmp equal))
    simp [unequal]

section Removed

variable {config : Config V F} {registry : Registry V} {keys : List (EdgePair V)}

/-- The loop that removes the collected keys. -/
def removeKeys (config : Config V F) (keys : List (EdgePair V)) : RegistryM V PUnit :=
  keys.forM (fun pair => Registry.removeMigration config (.stored (.edgeKey pair)))

theorem removeKeys_of_ok {pair : EdgePair V} {middle : Registry V}
    (run : Registry.removeMigration config (.stored (.edgeKey pair)) registry = .ok ⟨⟩ middle)
    : removeKeys config (pair :: keys) registry = removeKeys config keys middle :=
  Py.bind_eq_of_ok run

theorem removeKeys_of_error {pair : EdgePair V} {error : Error V} {final : Registry V}
    (run : Registry.removeMigration config (.stored (.edgeKey pair)) registry
      = .error error final)
    : removeKeys config (pair :: keys) registry = .error error final :=
  Py.bind_eq_of_error run

/-- The keys can be removed one after the other. -/
structure Removable (registry : Registry V) (keys : List (EdgePair V)) : Prop where
  nodes : NodeStores registry
  edges : EdgeStores registry
  unhooked : ∀ pair ∈ keys, registry.hasHooks pair.id = false
  searchable : ∀ pair ∈ keys, registry.Searchable pair.id

theorem Removable.cutFrom {pair : EdgePair V} {final : Registry V}
    (removable : Removable registry (pair :: keys)) (cut : registry.CutFrom pair.id final)
    : Removable final keys ∧ ∀ kind, final.edges kind
      = (registry.edges kind).filter (fun edge => !(edge.id.cmp pair.id == .eq)) := by
  have paths : ∀ kind, final.edges kind
      = (registry.edges kind).filter (fun edge => !(edge.id.cmp pair.id == .eq)) := by
    intro kind
    rw [cut.paths]
    exact removable.edges.cut_paths pair.id kind
  have fewer : ∀ kind edge, edge ∈ final.edges kind → edge ∈ registry.edges kind := by
    intro kind edge member
    rw [paths] at member
    exact List.mem_of_mem_filter member
  refine ⟨⟨removable.nodes.of_nodeView cut.nodes, ?_, ?_, ?_⟩, paths⟩
  · refine ⟨fun kind => ?_, fun kind edge member => ?_, fun kind left inLeft right inRight => ?_⟩
    · rw [paths]
      exact (removable.edges.sorted kind).filter _
    · exact removable.edges.filed kind edge (fewer kind edge member)
    · exact removable.edges.comparable kind left (fewer kind left inLeft) right
        (fewer kind right inRight)
  · intro other member
    rw [Registry.hasHooks, cut.hooks]
    exact removable.unhooked other (List.mem_cons_of_mem _ member)
  · intro other member edge inFinal
    exact removable.searchable other (List.mem_cons_of_mem _ member) edge (fewer _ edge inFinal)

variable (lints : LintsOrdered config.linters) (removable : Removable registry keys)

include lints

theorem removeKeys_cons {pair : EdgePair V} (removable : Removable registry (pair :: keys))
    (hashable : registry.digestIndex.isSome → ∀ edge ∈ registry.edges pair.id.kind,
      edge.id.cmp pair.id = .eq → edge.Hashable)
    : ∃ middle, Registry.removeMigration config (.stored (.edgeKey pair)) registry
          = .ok ⟨⟩ middle
        ∧ Removable middle keys
        ∧ (∀ kind, middle.edges kind
          = (registry.edges kind).filter (fun edge => !(edge.id.cmp pair.id == .eq)))
        ∧ registry.CutFrom pair.id middle := by
  have step : ∃ middle, Registry.removeMigration config (.stored (.edgeKey pair)) registry
      = .ok ⟨⟩ middle ∧ registry.CutFrom pair.id middle :=
    removeMigration_returns lints removable.nodes removable.edges
      (removable.unhooked pair (by simp)) (removable.searchable pair (by simp)) hashable
  obtain ⟨middle, run, cut⟩ := step
  obtain ⟨later, paths⟩ := removable.cutFrom cut
  exact ⟨middle, run, later, paths, cut⟩

include removable

/-- The removals return where no digest is in the way, by induction over the keys. -/
theorem removeKeys_returns
    (hashable : registry.digestIndex.isSome → ∀ pair ∈ keys, ∀ edge ∈ registry.edges pair.id.kind,
      edge.id.cmp pair.id = .eq → edge.Hashable)
    : ∃ final, removeKeys config keys registry = .ok ⟨⟩ final
        ∧ final.nodeView = registry.nodeView ∧ final.hooks = registry.hooks
        ∧ ∀ kind, final.edges kind = (registry.edges kind).filter
          (fun edge => keys.all (fun pair => !(edge.id.cmp pair.id == .eq))) := by
  induction keys generalizing registry with
  | nil => exact ⟨registry, rfl, rfl, rfl, fun kind => by simp⟩
  | cons pair rest ih =>
      obtain ⟨middle, run, later, paths, cut⟩ := removeKeys_cons lints removable
        (fun indexed => hashable indexed pair (by simp))
      obtain ⟨final, runs, nodes, hooks, edges⟩ := ih later (by
        intro indexed other member edge inMiddle
        rw [paths] at inMiddle
        exact hashable (cut.digests ▸ indexed) other (List.mem_cons_of_mem _ member) edge
          (List.mem_of_mem_filter inMiddle))
      refine ⟨final, (removeKeys_of_ok run).trans runs, nodes.trans cut.nodes,
        hooks.trans cut.hooks, fun kind => ?_⟩
      rw [edges, paths, List.filter_filter]
      exact List.filter_congr (fun edge _ => by simp [Bool.and_comm])

/-- An edge that cannot be hashed is lost when its digest is to be forgotten, by induction over
the keys.
-/
theorem removeKeys_unhashed (indexed : registry.digestIndex.isSome) {pair : EdgePair V}
    (member : pair ∈ keys) {edge : EdgeEntry V} (stored : edge ∈ registry.edges pair.id.kind)
    (equal : edge.id.cmp pair.id = .eq) (unhashed : ¬ edge.Hashable)
    : ∃ error final, removeKeys config keys registry = .error error final
        ∧ ∃ kind lost, lost ∈ registry.edges kind ∧ lost ∉ final.edges kind := by
  induction keys generalizing registry with
  | nil => cases member
  | cons head rest ih =>
      by_cases own : ∀ other ∈ registry.edges head.id.kind,
          other.id.cmp head.id = .eq → other.Hashable
      · obtain ⟨middle, run, later, paths, cut⟩ := removeKeys_cons lints removable (fun _ => own)
        have apart : edge.id.cmp head.id ≠ .eq := by
          intro same
          refine unhashed (own edge ?_ same)
          have filed := removable.edges.filed _ edge stored
          rwa [← EdgeId.kind_eq_of_cmp same, show edge.id.kind = pair.id.kind from filed]
        have inRest : pair ∈ rest := by
          rcases List.mem_cons.mp member with rfl | inRest
          · exact absurd equal apart
          · exact inRest
        have kept : edge ∈ middle.edges pair.id.kind := by
          rw [paths]
          exact List.mem_filter.mpr ⟨stored, by simp [apart]⟩
        obtain ⟨error, final, runs, kind, lost, before, gone⟩ :=
          ih later (cut.digests.trans indexed) inRest kept
        rw [paths] at before
        exact ⟨error, final, (removeKeys_of_ok run).trans runs, kind, lost,
          List.mem_of_mem_filter before, gone⟩
      · simp only [not_forall] at own
        obtain ⟨other, inEdges, same, raises⟩ := own
        cases other with
        | edgeKey key => exact absurd trivial raises
        | versionEdge version =>
            have step : ∃ error final,
                Registry.removeMigration config (.stored (.edgeKey head)) registry
                  = .error error final
                ∧ final.edges = (registry.edgeIndexes.cut head.id).paths :=
              removeMigration_unhashed removable.edges (removable.unhooked head (by simp))
                (removable.searchable head (by simp)) inEdges same indexed raises
            obtain ⟨error, final, run, paths⟩ := step
            refine ⟨error, final, removeKeys_of_error run, head.id.kind, _, inEdges, ?_⟩
            rw [paths, removable.edges.cut_paths]
            simp [List.mem_filter, same]

end Removed

-----------------------------------------------------------------------------------------
-- The bounds
-----------------------------------------------------------------------------------------

namespace Registry

/-- The hydrated version at an index is not below the first bound, but below the second. -/
def InSpan (registry : Registry V) (fromVersion toVersion : NodeId V) (index : Nat) : Prop :=
  ∃ version, (registry.kindVersions fromVersion.kind)[index]? = some version
    ∧ version.id.cmp fromVersion ≠ .lt ∧ version.id.cmp toVersion = .lt

/-- Both bounds can be compared with the hydrated versions. -/
def BoundsCompare (registry : Registry V) (fromVersion toVersion : NodeId V) : Prop :=
  ∀ version ∈ registry.kindVersions fromVersion.kind,
    version.id.strategy = fromVersion.strategy ∧ version.id.strategy = toVersion.strategy

end Registry

section Bounds

variable {registry : Registry V} (nodes : NodeStores registry) {fromVersion toVersion : NodeId V}

/-- The lower bounds of the range. -/
def rangeIndices (registry : Registry V) (fromVersion toVersion : NodeId V) : List Nat :=
  let lo := Py.lowerBound VersionNode.id NodeId.cmp fromVersion
    (registry.kindVersions fromVersion.kind)
  let hi := Py.lowerBound VersionNode.id NodeId.cmp toVersion
    (registry.kindVersions fromVersion.kind)
  List.range' lo (hi - lo)

include nodes

omit [DecidableEq V] in
theorem bisectVersions_eq {kind : ModelKind} {key : NodeId V}
    (same : ∀ version ∈ registry.kindVersions kind, version.id.strategy = key.strategy)
    : Py.bisectLeft (fun version : VersionNode V => version.id.lt key) (registry.kindVersions kind)
      = .ok (Py.lowerBound VersionNode.id NodeId.cmp key (registry.kindVersions kind)) := by
  refine (nodes.sorted_kindVersions kind).bisectLeft_eq key ?_
  intro version member
  exact if_pos (same version member)

omit [DecidableEq V] in
theorem bisectVersions_mixed {kind : ModelKind} {key : NodeId V} {version : VersionNode V}
    (member : version ∈ registry.kindVersions kind)
    (mixed : version.id.strategy ≠ key.strategy)
    : Py.bisectLeft (fun version : VersionNode V => version.id.lt key) (registry.kindVersions kind)
      = .error (version.id.mixed key) := by
  refine Py.bisectLeft_error ?_ (List.ne_nil_of_mem member)
  intro other inKind
  have alike : other.id.strategy = version.id.strategy :=
    nodes.uniform _ (nodes.mem_kindVersions.mp member).1 _ (nodes.mem_kindVersions.mp inKind).1
  rw [NodeId.lt, if_neg (alike ▸ mixed), NodeId.mixed, alike]
  rfl

theorem rangeScan_compared (compared : registry.BoundsCompare fromVersion toVersion)
    : rangeScan fromVersion toVersion registry
      = Registry.rangeKeys (registry.kindVersions fromVersion.kind)
          (rangeIndices registry fromVersion toVersion) registry := by
  rw [rangeScan, Py.query_bind_eq]
  simp only
  rw [Py.query_bind_eq, bisectVersions_eq nodes (fun version member => (compared version member).1)]
  simp only
  rw [Py.query_bind_eq, bisectVersions_eq nodes (fun version member => (compared version member).2)]
  rfl

theorem rangeScan_mixed (mixed : ¬ registry.BoundsCompare fromVersion toVersion)
    : ∃ error, rangeScan fromVersion toVersion registry = .error error registry
        ∧ error.isCatalogError = false := by
  rw [rangeScan, Py.query_bind_eq]
  simp only
  rw [Py.query_bind_eq]
  by_cases first : ∀ version ∈ registry.kindVersions fromVersion.kind,
      version.id.strategy = fromVersion.strategy
  · rw [bisectVersions_eq nodes first]
    simp only
    rw [Py.query_bind_eq]
    simp only [Registry.BoundsCompare, not_forall] at mixed
    obtain ⟨version, member, differs⟩ := mixed
    rw [bisectVersions_mixed nodes member (fun same => differs ⟨first version member, same⟩)]
    exact ⟨_, rfl, rfl⟩
  · simp only [not_forall] at first
    obtain ⟨version, member, differs⟩ := first
    rw [bisectVersions_mixed nodes member differs]
    exact ⟨_, rfl, rfl⟩

omit [DecidableEq V] in
theorem mem_rangeIndices {index : Nat}
    : index ∈ rangeIndices registry fromVersion toVersion
      ↔ registry.InSpan fromVersion toVersion index := by
  have sorted := nodes.sorted_kindVersions fromVersion.kind
  simp only [rangeIndices, List.mem_range'_1, Registry.InSpan]
  constructor
  · intro given
    obtain ⟨low, high⟩ := given
    have bound : Py.lowerBound VersionNode.id NodeId.cmp toVersion
        (registry.kindVersions fromVersion.kind) ≤ _ := Py.lowerBound_le _ _
    have inside : index < (registry.kindVersions fromVersion.kind).length := by omega
    have at_ := List.getElem?_eq_getElem inside
    refine ⟨_, at_, ?_, (sorted.lt_lowerBound_iff at_).mp (by omega)⟩
    intro below
    have := (sorted.lt_lowerBound_iff at_).mpr below
    omega
  · intro given
    obtain ⟨version, at_, low, high⟩ := given
    have below := (sorted.lt_lowerBound_iff at_).mpr high
    have above := mt (sorted.lt_lowerBound_iff at_).mp low
    omega

end Bounds

namespace Registry

theorem firstRefused_range' {registry : Registry V} {versions : List (VersionNode V)}
    {start count : Nat}
    : registry.FirstRefused versions (List.range' start count)
      ↔ ∃ index ∈ List.range' start count, registry.RefusedAt versions index
          ∧ ∀ earlier ∈ List.range' start count, earlier < index →
            registry.PassedAt versions earlier := by
  induction count generalizing start with
  | zero => simp [FirstRefused]
  | succ count ih =>
      rw [List.range'_succ, firstRefused_cons, ih]
      constructor
      · intro given
        rcases given with refused | ⟨passed, index, member, refused, before⟩
        · refine ⟨start, by simp, refused, fun earlier inRange below => ?_⟩
          simp only [List.mem_cons, List.mem_range'_1] at inRange
          omega
        · refine ⟨index, List.mem_cons_of_mem _ member, refused, fun earlier inRange below => ?_⟩
          rcases List.mem_cons.mp inRange with rfl | later
          · exact passed
          · exact before earlier later below
      · intro given
        obtain ⟨index, member, refused, before⟩ := given
        rcases List.mem_cons.mp member with rfl | later
        · exact .inl refused
        · have passed : registry.PassedAt versions start :=
            before start (by simp) (by simp only [List.mem_range'_1] at later; omega)
          exact .inr ⟨passed, index, later, refused, fun earlier inRange below =>
            before earlier (List.mem_cons_of_mem _ inRange) below⟩

end Registry

-----------------------------------------------------------------------------------------
-- The whole call
-----------------------------------------------------------------------------------------

namespace Registry

/-- A default executable edge between consecutive hydrated versions of the closed range. -/
def InRange (registry : Registry V) (fromVersion toVersion : NodeId V) (edge : EdgeEntry V)
    : Prop :=
  edge.isExecutable = true
    ∧ ∃ index pair, PairAt (registry.kindVersions fromVersion.kind) index pair
      ∧ pair.id.source.cmp fromVersion ≠ .lt ∧ pair.id.target.cmp toVersion ≠ .gt
      ∧ edge.id.cmp pair.id = .eq

/-- The call is refused without a change, or exactly the edges of the range are gone. -/
def RangeRemoved (config : Config V F) (registry : Registry V) (fromVersion toVersion : NodeId V)
    : Prop :=
  (∃ error final, removeMigrationRange config fromVersion toVersion registry = .error error final
      ∧ error.isCatalogError = true ∧ registry.Unchanged final)
    ∨ ∃ final, removeMigrationRange config fromVersion toVersion registry = .ok ⟨⟩ final
      ∧ final.nodeView = registry.nodeView ∧ final.hooks = registry.hooks
      ∧ ∀ kind, (final.edges kind).Sublist (registry.edges kind)
        ∧ ∀ edge, edge ∈ final.edges kind
          ↔ edge ∈ registry.edges kind ∧ ¬ registry.InRange fromVersion toVersion edge

/-- The digest of every edge with this identity can be computed where digests are indexed. -/
def Forgettable (registry : Registry V) (key : EdgeId V) : Prop :=
  registry.digestIndex.isSome → ∀ edge ∈ registry.edges key.kind, edge.id.cmp key = .eq →
    edge.Hashable

/-- The bounds can be compared, and the pairs from the versions of the range on are passed up to
one that is refused, or are all passed; then no edge that goes ends above the range or cannot be
hashed.
-/
def RangeFits (registry : Registry V) (fromVersion toVersion : NodeId V) : Prop :=
  registry.BoundsCompare fromVersion toVersion
    ∧ ((∃ index, registry.InSpan fromVersion toVersion index
        ∧ registry.RefusedAt (registry.kindVersions fromVersion.kind) index
        ∧ ∀ earlier, registry.InSpan fromVersion toVersion earlier → earlier < index →
          registry.PassedAt (registry.kindVersions fromVersion.kind) earlier)
      ∨ ∀ index, registry.InSpan fromVersion toVersion index →
        registry.PassedAt (registry.kindVersions fromVersion.kind) index
        ∧ ∀ pair, PairAt (registry.kindVersions fromVersion.kind) index pair →
          registry.Executes pair.id →
            pair.id.target.cmp toVersion ≠ .gt ∧ registry.Forgettable pair.id)

end Registry

section Range

variable {config : Config V F} {registry : Registry V} {fromVersion toVersion : NodeId V}

theorem rangeRemoved_of_error {error : Error V}
    (run : Registry.removeMigrationRange config fromVersion toVersion registry
      = .error error registry)
    : Registry.RangeRemoved config registry fromVersion toVersion
      ↔ error.isCatalogError = true := by
  constructor
  · intro removed
    rcases removed with ⟨other, final, raised, caught, _⟩ | ⟨final, returned, _⟩
    · cases run.symm.trans raised
      exact caught
    · cases run.symm.trans returned
  · intro caught
    exact .inl ⟨error, registry, run, caught, .refl registry⟩

variable (nodes : NodeStores registry) (edges : EdgeStores registry)

include nodes

omit [DecidableEq V] in
/-- A pair within the closed range starts in the half-open one. -/
theorem inSpan_of_pairAt {index : Nat} {pair : EdgePair V}
    (at_ : PairAt (registry.kindVersions fromVersion.kind) index pair)
    (low : pair.id.source.cmp fromVersion ≠ .lt) (high : pair.id.target.cmp toVersion ≠ .gt)
    : registry.InSpan fromVersion toVersion index := by
  obtain ⟨source, target, atSource, atTarget, sources, targets⟩ := at_.ends
  rw [sources] at low
  rw [targets] at high
  have next : source.id.cmp target.id = .lt :=
    ((nodes.sorted_kindVersions _).lt_iff atSource atTarget).mpr (Nat.lt_succ_self index)
  refine ⟨source, atSource, low, ?_⟩
  have upTo : (target.id.cmp toVersion).isLE := by
    cases order : target.id.cmp toVersion with
    | lt => rfl
    | eq => rfl
    | gt => exact absurd order high
  exact Std.TransCmp.lt_of_lt_of_isLE next upTo

/-- Where the first pair that is not passed is refused, in terms of the versions. -/
theorem firstRefused_iff
    : registry.FirstRefused (registry.kindVersions fromVersion.kind)
        (rangeIndices registry fromVersion toVersion)
      ↔ ∃ index, registry.InSpan fromVersion toVersion index
        ∧ registry.RefusedAt (registry.kindVersions fromVersion.kind) index
        ∧ ∀ earlier, registry.InSpan fromVersion toVersion earlier → earlier < index →
          registry.PassedAt (registry.kindVersions fromVersion.kind) earlier := by
  have member : ∀ index, index ∈ rangeIndices registry fromVersion toVersion
      ↔ registry.InSpan fromVersion toVersion index := fun _ => mem_rangeIndices nodes
  simp only [← member]
  exact Registry.firstRefused_range'

include edges

omit [DecidableEq V] in
/-- What the collected keys take out is the range, provided no edge among it ends above. -/
theorem mem_keys_iff {keys : List (EdgePair V)}
    (collected : ∀ pair, pair ∈ keys ↔ registry.Executes pair.id
      ∧ ∃ index ∈ rangeIndices registry fromVersion toVersion,
        PairAt (registry.kindVersions fromVersion.kind) index pair)
    : (∀ kind, ∀ edge ∈ registry.edges kind, (∃ pair ∈ keys, edge.id.cmp pair.id = .eq)
          ↔ registry.InRange fromVersion toVersion edge)
      ↔ ∀ pair ∈ keys, pair.id.target.cmp toVersion ≠ .gt := by
  constructor
  · intro precise pair member above
    obtain ⟨⟨version, stored, equal⟩, _⟩ := (collected pair).mp member
    obtain ⟨_, _, other, _, _, high, same⟩ := (precise _ _ stored).mp ⟨pair, member, equal⟩
    have alike : pair.id.cmp other.id = .eq :=
      Std.TransCmp.eq_trans (Std.OrientedCmp.eq_symm equal) same
    simp only [EdgeId.cmp, compareLex_eq_eq] at alike
    exact high (by rw [← above, Std.TransCmp.congr_left alike.2.1])
  · intro below kind edge stored
    constructor
    · intro given
      obtain ⟨pair, member, equal⟩ := given
      obtain ⟨⟨version, inEdges, same⟩, index, inRange, at_⟩ := (collected pair).mp member
      have filed : kind = pair.id.kind :=
        (edges.filed kind edge stored).symm.trans (EdgeId.kind_eq_of_cmp equal)
      subst filed
      have one : edge = .versionEdge version := (edges.sorted _).eq_of_cmp_eq stored inEdges
        (Std.TransCmp.eq_trans equal (Std.OrientedCmp.eq_symm same))
      obtain ⟨source, atSource, low, _⟩ := (mem_rangeIndices nodes).mp inRange
      obtain ⟨_, _, otherSource, _, sources, _⟩ := at_.ends
      obtain rfl := Option.some.inj (atSource.symm.trans otherSource)
      exact ⟨by rw [one]; rfl, index, pair, at_, sources ▸ low, below pair member, equal⟩
    · intro given
      obtain ⟨executable, index, pair, at_, low, high, equal⟩ := given
      refine ⟨pair, (collected pair).mpr ⟨?_, index,
        (mem_rangeIndices nodes).mpr (inSpan_of_pairAt nodes at_ low high), at_⟩, equal⟩
      have filed : kind = pair.id.kind :=
        (edges.filed kind edge stored).symm.trans (EdgeId.kind_eq_of_cmp equal)
      subst filed
      cases edge with
      | edgeKey key => simp [EdgeEntry.isExecutable] at executable
      | versionEdge version => exact ⟨version, stored, equal⟩

section Collected

variable {keys : List (EdgePair V)}
  (passed : ∀ index ∈ rangeIndices registry fromVersion toVersion,
    registry.PassedAt (registry.kindVersions fromVersion.kind) index)
  (collected : ∀ pair, pair ∈ keys ↔ registry.Executes pair.id
    ∧ ∃ index ∈ rangeIndices registry fromVersion toVersion,
      PairAt (registry.kindVersions fromVersion.kind) index pair)

include passed collected

theorem removable_of_passed : Removable registry keys := by
  refine ⟨nodes, edges, fun pair member => ?_, fun pair member => ?_⟩
  · obtain ⟨executes, index, inRange, at_⟩ := (collected pair).mp member
    exact ((passed index inRange).free at_ executes).2
  · obtain ⟨_, index, inRange, at_⟩ := (collected pair).mp member
    exact (passed index inRange).searchable at_

omit edges in
theorem rangeFits_of_passed (compared : registry.BoundsCompare fromVersion toVersion)
    : registry.RangeFits fromVersion toVersion
      ↔ ∀ pair ∈ keys, pair.id.target.cmp toVersion ≠ .gt ∧ registry.Forgettable pair.id := by
  constructor
  · intro fits pair member
    obtain ⟨executes, index, inRange, at_⟩ := (collected pair).mp member
    rcases fits.2 with ⟨other, span, refused, _⟩ | all
    · exact absurd refused (passed other ((mem_rangeIndices nodes).mpr span)).not_refusedAt
    · exact (all index ((mem_rangeIndices nodes).mp inRange)).2 pair at_ executes
  · intro below
    refine ⟨compared, .inr (fun index span => ?_)⟩
    have inRange := (mem_rangeIndices nodes).mpr span
    exact ⟨passed index inRange, fun pair at_ executes =>
      below pair ((collected pair).mpr ⟨executes, index, inRange, at_⟩)⟩

/-- Where all pairs are passed, the removals that follow decide. -/
theorem rangeRemoved_of_passed (lints : LintsOrdered config.linters)
    (run : Registry.removeMigrationRange config fromVersion toVersion registry
      = removeKeys config keys registry)
    : Registry.RangeRemoved config registry fromVersion toVersion
      ↔ ∀ pair ∈ keys, pair.id.target.cmp toVersion ≠ .gt ∧ registry.Forgettable pair.id := by
  have removable := removable_of_passed nodes edges passed collected
  rw [forall₂_and]
  by_cases forget : ∀ pair ∈ keys, registry.Forgettable pair.id
  · obtain ⟨final, returned, sameNodes, sameHooks, left⟩ := removeKeys_returns lints removable
      (fun indexed pair member => forget pair member indexed)
    have stays : ∀ kind edge, edge ∈ final.edges kind
        ↔ edge ∈ registry.edges kind ∧ ¬ ∃ pair ∈ keys, edge.id.cmp pair.id = .eq := by
      intro kind edge
      rw [left, List.mem_filter]
      simp
    rw [and_iff_left forget, ← mem_keys_iff nodes edges collected]
    constructor
    · intro removed kind edge stored
      rcases removed with ⟨error, other, raised, _⟩ | ⟨other, again, _, _, all⟩
      · cases (run.trans returned).symm.trans raised
      · cases (run.trans returned).symm.trans again
        have same := (stays kind edge).symm.trans ((all kind).2 edge)
        simp only [stored, true_and] at same
        exact not_iff_not.mp same
    · intro precise
      refine .inr ⟨final, run.trans returned, sameNodes, sameHooks, fun kind => ⟨?_, ?_⟩⟩
      · rw [left]
        exact List.filter_sublist
      · intro edge
        rw [stays]
        exact and_congr_right (fun stored => not_congr (precise kind edge stored))
  · refine iff_of_false ?_ (fun both => forget both.2)
    simp only [Registry.Forgettable, not_forall] at forget
    obtain ⟨pair, member, indexed, edge, stored, equal, unhashed⟩ := forget
    obtain ⟨error, final, raised, kind, lost, before, gone⟩ :=
      removeKeys_unhashed lints removable indexed member stored equal unhashed
    intro removed
    rcases removed with ⟨other, state, again, _, unchanged⟩ | ⟨state, again, _⟩
    · cases (run.trans raised).symm.trans again
      exact gone (unchanged.edges ▸ before)
    · cases (run.trans raised).symm.trans again

end Collected

omit nodes edges

theorem rangeRemoved_iff (reached : Reachable config registry)
    (lints : LintsOrdered config.linters)
    : Registry.RangeRemoved config registry fromVersion toVersion
      ↔ registry.RangeFits fromVersion toVersion := by
  have nodes := reached.nodeStores
  have edges := reached.edgeStores
  have whole := removeMigrationRange_eq config fromVersion toVersion
  by_cases compared : registry.BoundsCompare fromVersion toVersion
  case neg =>
    obtain ⟨error, scanned, uncaught⟩ := rangeScan_mixed nodes compared
    have run : Registry.removeMigrationRange config fromVersion toVersion registry
        = .error error registry := by
      rw [whole]
      exact Py.bind_eq_of_error scanned
    rw [rangeRemoved_of_error run]
    simp [uncaught, Registry.RangeFits, compared]
  have scan := rangeScan_compared nodes compared
  rcases rangeKeys_run nodes edges fromVersion.kind (rangeIndices registry fromVersion toVersion)
    with ⟨keys, ran, passed, collected⟩ | ⟨first, error, ran, caught⟩
      | ⟨notFirst, notAll, error, ran, uncaught⟩
  · have run : Registry.removeMigrationRange config fromVersion toVersion registry
        = removeKeys config keys registry := by
      rw [whole]
      exact Py.bind_eq_of_ok (scan.trans ran)
    rw [rangeRemoved_of_passed nodes edges passed collected lints run,
      rangeFits_of_passed nodes passed collected compared]
  · have run : Registry.removeMigrationRange config fromVersion toVersion registry
        = .error error registry := by
      rw [whole]
      exact Py.bind_eq_of_error (scan.trans ran)
    rw [rangeRemoved_of_error run]
    exact iff_of_true caught ⟨compared, .inl ((firstRefused_iff nodes).mp first)⟩
  · have run : Registry.removeMigrationRange config fromVersion toVersion registry
        = .error error registry := by
      rw [whole]
      exact Py.bind_eq_of_error (scan.trans ran)
    rw [rangeRemoved_of_error run]
    refine iff_of_false (by simp [uncaught]) ?_
    intro fits
    rcases fits.2 with first | all
    · exact notFirst ((firstRefused_iff nodes).mpr first)
    · exact notAll (fun index member => (all index ((mem_rangeIndices nodes).mp member)).1)

end Range

-----------------------------------------------------------------------------------------
-- A range with a key-only release inside
-----------------------------------------------------------------------------------------

/-- The edge between two hydrated releases spans a key-only one, so it is not critical. -/
def spacedUsers : Registry Release :=
  Registry.runAll plainConfig
    [.store (.versionNode (userNode 1 "UserV1")), .store (.versionNode (userNode 3 "UserV3")),
      .storeMigration (.edge (.versionEdge (userMigration 1 3 "UserV1" "UserV3"))),
      .store (.versionKey (userId 2))]
    (Registry.new "default" false)

theorem reachable_spacedUsers : Reachable plainConfig spacedUsers := by
  have reached : ReachableBy (fun _ _ _ => True) (fun _ _ => True) plainConfig spacedUsers :=
    .runAll (.new _ _ _ (by decide)) (fun _ _ _ => trivial)
  exact reached.reachable

theorem pairAt_spacedUsers
    : PairAt (spacedUsers.kindVersions "User") 0 (userMigration 1 3 "UserV1" "UserV3").pair := by
  have versions : spacedUsers.kindVersions "User"
      = [userNode 1 "UserV1", userNode 3 "UserV3"] := by
    decide +kernel
  rw [versions]
  exact ⟨_, _, rfl, rfl, rfl⟩

/-- Witness: the edge goes, and nothing else. -/
theorem rangeRemoved_spacedUsers
    : Registry.RangeRemoved plainConfig spacedUsers (userId 1) (userId 3) := by
  refine (rangeRemoved_iff reachable_spacedUsers
    (defaultHealthLinters_lintsOrdered (fun _ _ => rfl))).mpr
    ⟨fun _ _ => ⟨rfl, rfl⟩, .inr ?_⟩
  intro index span
  have only : index = 0 := by
    obtain ⟨version, at_, _, below⟩ := span
    have versions : spacedUsers.kindVersions (userId 1).kind
        = [userNode 1 "UserV1", userNode 3 "UserV3"] := by
      decide +kernel
    rw [versions] at at_
    rcases index with _ | _ | index
    · rfl
    · obtain rfl := Option.some.inj at_
      exact absurd below (by decide +kernel)
    · cases at_
  subst only
  have apart : ¬ spacedUsers.Adjacent (userId 1) (userId 3) := by
    intro adjacent
    obtain ⟨left, right, first, second, near⟩ := adjacent
    have atFirst : bisectNodes (spacedUsers.kindEntries "User") (userId 1) = .ok 0 := by
      decide +kernel
    have atSecond : bisectNodes (spacedUsers.kindEntries "User") (userId 3) = .ok 2 := by
      decide +kernel
    obtain rfl := Except.ok.inj (atFirst.symm.trans first)
    obtain rfl := Except.ok.inj (atSecond.symm.trans second)
    omega
  refine ⟨⟨_, pairAt_spacedUsers, fun _ _ => ⟨rfl, fun _ => rfl⟩, fun _ => ⟨apart, ?_⟩⟩, ?_⟩
  · decide +kernel
  · intro pair at_ _
    obtain rfl := at_.unique pairAt_spacedUsers
    refine ⟨by decide +kernel, fun indexed => ?_⟩
    exact absurd indexed (by decide +kernel)

/-- Counterexample: above the last release the loop reads past the end of the versions. -/
theorem not_rangeRemoved_above
    : ¬ ∀ (registry : Registry Release) (fromVersion toVersion : NodeId Release),
        Reachable plainConfig registry → fromVersion.kind = toVersion.kind →
          Registry.RangeRemoved plainConfig registry fromVersion toVersion := by
  intro removes
  have run : Registry.removeMigrationRange plainConfig (userId 1) (userId 4) spacedUsers
      = .error (.raised "IndexError: list index out of range") spacedUsers := rfl
  have caught := (rangeRemoved_of_error run).mp
    (removes spacedUsers (userId 1) (userId 4) reachable_spacedUsers rfl)
  cases caught

end Pyverge
