import Pyverge.Runtime.Dumped

/-! Discovery of versioned entries in a payload.
Without a source model every mapping is looked at. With one, the payload is validated first and
dumped, and the walk of the dumped copy stops at each versioned mapping it finds; the field models
that it looks up on the way select nothing.
-/

namespace Pyverge

open Py (Json)

variable {V M : Type}

-----------------------------------------------------------------------------------------
-- The walker
-----------------------------------------------------------------------------------------

/-- What the walker asks of its model adapter. -/
structure ModelAdapter (M : Type) where
  kindProperty : String
  versionProperty : String
  canHandle : M → Bool
  fieldModel : M → String → Option M
  validate : Json → M → Bool → Except Raised Dumped

inductive ValidationMode where
  | strict
  | lax
  | none
  deriving DecidableEq

/-- Errors of the discovery. The kind and the version are the values whose `str` is shown. -/
inductive ExtractionError where
  | maxDepthExceeded (path : Path) (depth : Nat) (kind version : Dumped) (maxDepth : Int)
  | payloadValidation (path : Path) (message : String)
  | raised (error : Raised)
  deriving DecidableEq

/-- One yield of the walker. -/
structure Entry (V : Type) where
  path : Path
  depth : Nat
  node : VersionNode V
  deriving DecidableEq

/-- `_WalkContext` -/
structure WalkContext (M : Type) where
  kp : String
  vp : String
  maxDepth : Int
  versionedDepth : Nat
  parentModel : Option M

/-- `str(step)` -/
def PathStep.str : PathStep → String
  | .key name => name
  | .index place => toString place

/-- `value.get(key, "")` of a mapping -/
def memberOrEmpty (value : Dumped) (key : String) : Dumped :=
  match value with
  | .dict members => (Dumped.getMember members key).getD (.leaf (.str ""))
  | _ => .leaf (.str "")

section Walks

variable [DecidableEq V] [VersionValue V] (graph : MigrationGraph V) (adapter : ModelAdapter M)

mutual
/-- `_walk_containerless` -/
def walkContainerless (path : Path) (depth : Nat) (ctx : WalkContext M)
    : Json → Except ExtractionError (List (Entry V))
  | .obj members =>
      match graph.matchPayload ctx.kp ctx.vp (.obj members) with
      | some source =>
          if 0 ≤ ctx.maxDepth ∧ ctx.maxDepth < ctx.versionedDepth then
            .error (.maxDepthExceeded path depth (.leaf (.str source.id.kind))
              (.leaf (.str (VersionValue.str source.id.version))) ctx.maxDepth)
          else do
            let nested ← walkContainerlessMembers path (depth + 1)
              { ctx with versionedDepth := ctx.versionedDepth + 1 } members
            return ⟨path, depth, source⟩ :: nested
      | none => walkContainerlessMembers path (depth + 1) ctx members
  | .arr items => walkContainerlessItems path (depth + 1) ctx 0 items
  | .null | .bool _ | .int _ | .float _ | .str _ => .ok []

def walkContainerlessMembers (path : Path) (depth : Nat) (ctx : WalkContext M)
    : List (String × Json) → Except ExtractionError (List (Entry V))
  | [] => .ok []
  | (key, nested) :: rest => do
      let first ← walkContainerless (path ++ [.key key]) depth ctx nested
      let others ← walkContainerlessMembers path depth ctx rest
      return first ++ others

def walkContainerlessItems (path : Path) (depth : Nat) (ctx : WalkContext M) (place : Nat)
    : List Json → Except ExtractionError (List (Entry V))
  | [] => .ok []
  | item :: rest => do
      let first ← walkContainerless (path ++ [.index place]) depth ctx item
      let others ← walkContainerlessItems path depth ctx (place + 1) rest
      return first ++ others
end

/-- The model of the field that a path ends in. -/
def fieldModelAt (ctx : WalkContext M) (path : Path) : Option M :=
  ctx.parentModel.bind (fun parent =>
    path.getLast?.bind (fun step => adapter.fieldModel parent step.str))

/-- The model of a member: that of its own field if there is one. -/
def childModel (model : Option M) (key : PathStep) : Option M :=
  model.map (fun parent => (adapter.fieldModel parent key.str).getD parent)

/-- The check at the head of `_walk_guided`. -/
def checkDepth (ctx : WalkContext M) (path : Path) (depth : Nat) (value : Dumped)
    : Except ExtractionError PUnit :=
  if 0 ≤ ctx.maxDepth ∧ ctx.maxDepth < depth then
    .error (.maxDepthExceeded path depth (memberOrEmpty value ctx.kp) (memberOrEmpty value ctx.vp)
      ctx.maxDepth)
  else .ok ⟨⟩

mutual
/-- `_walk_guided`, `_walk_guided_dict` and `_walk_guided_list` -/
def walkGuided (path : Path) (depth : Nat) (ctx : WalkContext M)
    : Dumped → Except ExtractionError (List (Entry V))
  | .dict members => do
      checkDepth ctx path depth (.dict members)
      match graph.matchDumped ctx.kp ctx.vp (.dict members) with
      | some source => return [⟨path, depth, source⟩]
      | none =>
          walkGuidedMembers path (depth + 1) (fieldModelAt adapter ctx path) ctx members
  | .list items => do
      checkDepth ctx path depth (.list items)
      walkGuidedItems path (depth + 1)
        { ctx with parentModel := fieldModelAt adapter ctx path } 0 items
  | .leaf value => do
      checkDepth ctx path depth (.leaf value)
      return []

def walkGuidedMembers (path : Path) (depth : Nat) (fieldModel : Option M) (ctx : WalkContext M)
    : List (PathStep × Dumped) → Except ExtractionError (List (Entry V))
  | [] => .ok []
  | (key, nested) :: rest => do
      let first ← walkGuided (path ++ [key]) depth
        { ctx with parentModel := childModel adapter fieldModel key } nested
      let others ← walkGuidedMembers path depth fieldModel ctx rest
      return first ++ others

def walkGuidedItems (path : Path) (depth : Nat) (ctx : WalkContext M) (place : Nat)
    : List Dumped → Except ExtractionError (List (Entry V))
  | [] => .ok []
  | item :: rest => do
      let first ← walkGuided (path ++ [.index place]) depth ctx item
      let others ← walkGuidedItems path depth ctx (place + 1) rest
      return first ++ others
end

/-- The payload that a guided walk looks at. -/
def validatedPayload (mode : ValidationMode) (data : Json) (model : M)
    : Except ExtractionError Dumped :=
  if mode = .none then .ok (.ofJson data)
  else
    match adapter.validate data model (mode = .strict) with
    | .ok validated => .ok validated
    | .error error =>
        if error.isException then
          .error (.payloadValidation []
            ("Payload failed source model validation: " ++ error.text))
        else .error (.raised error)

/-- `PayloadWalker.extract` -/
def extract (mode : ValidationMode) (data : Json) (sourceModel : Option M) (maxDepth : Int)
    : Except ExtractionError (List (Entry V)) :=
  let ctx : WalkContext M := ⟨adapter.kindProperty, adapter.versionProperty, maxDepth, 0, none⟩
  match sourceModel with
  | none => walkContainerless graph [] 0 ctx data
  | some model =>
      if adapter.canHandle model then do
        let validated ← validatedPayload adapter mode data model
        walkGuided graph adapter [] 0 { ctx with parentModel := some model } validated
      else .error (.payloadValidation [] "source model is not a recognized model type")

end Walks

-----------------------------------------------------------------------------------------
-- What the walks find
-----------------------------------------------------------------------------------------

/-- A find below a path that the walk has come along. -/
def entryAt (path : Path) (depth : Nat) (find : Path × VersionNode V) : Entry V :=
  ⟨path ++ find.1, depth + find.1.length, find.2⟩

theorem entryAt_under (path : Path) (depth : Nat) (step : PathStep)
    (finds : List (Path × VersionNode V))
    : finds.map (entryAt (path ++ [step]) (depth + 1))
      = (finds.map (under step)).map (entryAt path depth) := by
  simp only [List.map_map]
  apply List.map_congr_left
  intro find _
  simp only [entryAt, under, Function.comp_apply, List.append_assoc, List.cons_append,
    List.nil_append, List.length_cons, Entry.mk.injEq, and_true, true_and]
  omega

section Finds

variable [DecidableEq V] [VersionValue V] {graph : MigrationGraph V} {adapter : ModelAdapter M}

theorem matchPayload_arr (kp vp : String) (items : List Json)
    : graph.matchPayload kp vp (.arr items) = none := rfl

mutual
/-- A containerless walk that returns has found every mapping that names a node. -/
theorem walkContainerless_of_ok {ctx : WalkContext M} {path : Path} {depth : Nat} {value : Json}
    {entries : List (Entry V)} (walked : walkContainerless graph path depth ctx value = .ok entries)
    : entries = (finds true (graph.matchPayload ctx.kp ctx.vp) value).map (entryAt path depth) := by
  cases value with
  | obj members =>
      cases hit : graph.matchPayload ctx.kp ctx.vp (.obj members) with
      | none =>
          simp only [walkContainerless, hit] at walked
          simp only [finds, own, descends, hit, Option.toList_none, List.map_nil, List.nil_append,
            Bool.true_or, if_true]
          exact walkContainerlessMembers_of_ok walked
      | some source =>
          simp only [walkContainerless, hit] at walked
          split at walked
          · cases walked
          · obtain ⟨nested, inner, walked⟩ := Py.ok_bind_iff.mp walked
            obtain rfl := Except.ok.inj walked
            have below := walkContainerlessMembers_of_ok inner
            simp [finds, own, descends, hit, entryAt, below]
  | arr items =>
      simp only [walkContainerless] at walked
      simp only [finds, own, descends, matchPayload_arr, Option.toList_none, List.map_nil,
        List.nil_append, Bool.true_or, if_true]
      exact walkContainerlessItems_of_ok walked
  | null | bool | int | float | str =>
      obtain rfl := Except.ok.inj walked
      rfl

theorem walkContainerlessMembers_of_ok {ctx : WalkContext M} {path : Path} {depth : Nat}
    {members : List (String × Json)} {entries : List (Entry V)}
    (walked : walkContainerlessMembers graph path (depth + 1) ctx members = .ok entries)
    : entries = (findsMembers true (graph.matchPayload ctx.kp ctx.vp) members).map
        (entryAt path depth) := by
  cases members with
  | nil =>
      obtain rfl := Except.ok.inj walked
      rfl
  | cons member rest =>
      obtain ⟨key, nested⟩ := member
      obtain ⟨first, inner, walked⟩ := Py.ok_bind_iff.mp walked
      obtain ⟨others, later, walked⟩ := Py.ok_bind_iff.mp walked
      obtain rfl := Except.ok.inj walked
      rw [walkContainerless_of_ok inner, walkContainerlessMembers_of_ok later, findsMembers,
        List.map_append, entryAt_under]

theorem walkContainerlessItems_of_ok {ctx : WalkContext M} {path : Path} {depth place : Nat}
    {items : List Json} {entries : List (Entry V)}
    (walked : walkContainerlessItems graph path (depth + 1) ctx place items = .ok entries)
    : entries = (findsItems true (graph.matchPayload ctx.kp ctx.vp) place items).map
        (entryAt path depth) := by
  cases items with
  | nil =>
      obtain rfl := Except.ok.inj walked
      rfl
  | cons item rest =>
      obtain ⟨first, inner, walked⟩ := Py.ok_bind_iff.mp walked
      obtain ⟨others, later, walked⟩ := Py.ok_bind_iff.mp walked
      obtain rfl := Except.ok.inj walked
      rw [walkContainerless_of_ok inner, walkContainerlessItems_of_ok later, findsItems,
        List.map_append, entryAt_under]
end

mutual
/-- A guided walk that returns has found the outermost mappings that name a node. -/
theorem walkGuided_of_ok {ctx : WalkContext M} {path : Path} {depth : Nat} {value : Dumped}
    {entries : List (Entry V)}
    (walked : walkGuided graph adapter path depth ctx value = .ok entries)
    : entries = (value.outermost (graph.matchDumped ctx.kp ctx.vp)).map (entryAt path depth) := by
  cases value with
  | leaf =>
      obtain ⟨_, _, walked⟩ := Py.ok_bind_iff.mp walked
      obtain rfl := Except.ok.inj walked
      rfl
  | list items =>
      obtain ⟨_, _, walked⟩ := Py.ok_bind_iff.mp walked
      have below := walkGuidedItems_of_ok walked
      exact below
  | dict members =>
      obtain ⟨_, _, walked⟩ := Py.ok_bind_iff.mp walked
      cases hit : graph.matchDumped ctx.kp ctx.vp (.dict members) with
      | none =>
          simp only [hit] at walked
          simp only [Dumped.outermost, hit]
          exact walkGuidedMembers_of_ok walked
      | some source =>
          simp only [hit] at walked
          obtain rfl := Except.ok.inj walked
          simp [Dumped.outermost, hit, entryAt]

theorem walkGuidedMembers_of_ok {ctx : WalkContext M} {path : Path} {depth : Nat}
    {model : Option M} {members : List (PathStep × Dumped)} {entries : List (Entry V)}
    (walked : walkGuidedMembers graph adapter path (depth + 1) model ctx members = .ok entries)
    : entries = (Dumped.outermostMembers (graph.matchDumped ctx.kp ctx.vp) members).map
        (entryAt path depth) := by
  cases members with
  | nil =>
      obtain rfl := Except.ok.inj walked
      rfl
  | cons member rest =>
      obtain ⟨key, nested⟩ := member
      obtain ⟨first, inner, walked⟩ := Py.ok_bind_iff.mp walked
      obtain ⟨others, later, walked⟩ := Py.ok_bind_iff.mp walked
      obtain rfl := Except.ok.inj walked
      rw [walkGuided_of_ok inner, walkGuidedMembers_of_ok later, Dumped.outermostMembers,
        List.map_append, entryAt_under]

theorem walkGuidedItems_of_ok {ctx : WalkContext M} {path : Path} {depth place : Nat}
    {items : List Dumped} {entries : List (Entry V)}
    (walked : walkGuidedItems graph adapter path (depth + 1) ctx place items = .ok entries)
    : entries = (Dumped.outermostItems (graph.matchDumped ctx.kp ctx.vp) place items).map
        (entryAt path depth) := by
  cases items with
  | nil =>
      obtain rfl := Except.ok.inj walked
      rfl
  | cons item rest =>
      obtain ⟨first, inner, walked⟩ := Py.ok_bind_iff.mp walked
      obtain ⟨others, later, walked⟩ := Py.ok_bind_iff.mp walked
      obtain rfl := Except.ok.inj walked
      rw [walkGuided_of_ok inner, walkGuidedItems_of_ok later, Dumped.outermostItems,
        List.map_append, entryAt_under]
end

/-- What there is to find for a discovery: with a source model it looks at the validated copy. -/
inductive Discovers (graph : MigrationGraph V) (adapter : ModelAdapter M) (mode : ValidationMode)
    (data : Json) : Option M → List (Path × VersionNode V) → Prop where
  | containerless
      : Discovers graph adapter mode data none
          (finds true (graph.matchPayload adapter.kindProperty adapter.versionProperty) data)
  | guided {model : M} {seen : Dumped} (handles : adapter.canHandle model = true)
      (validated : validatedPayload adapter mode data model = .ok seen)
      : Discovers graph adapter mode data (some model)
          (seen.outermost (graph.matchDumped adapter.kindProperty adapter.versionProperty))

/-- A discovery that returns has found mappings that name nodes. -/
theorem extract_of_ok {mode : ValidationMode} {data : Json} {sourceModel : Option M}
    {maxDepth : Int} {entries : List (Entry V)}
    (extracted : extract graph adapter mode data sourceModel maxDepth = .ok entries)
    : ∃ found, Discovers graph adapter mode data sourceModel found
        ∧ entries = found.map (entryAt [] 0) := by
  cases sourceModel with
  | none =>
      exact ⟨_, .containerless, @walkContainerless_of_ok _ _ _ _ _
        ⟨adapter.kindProperty, adapter.versionProperty, maxDepth, 0, none⟩ _ _ _ _ extracted⟩
  | some model =>
      simp only [extract] at extracted
      split at extracted
      case isTrue handles =>
        obtain ⟨seen, validated, walked⟩ := Py.ok_bind_iff.mp extracted
        exact ⟨_, .guided handles validated, @walkGuided_of_ok _ _ _ _ _ _
          ⟨adapter.kindProperty, adapter.versionProperty, maxDepth, 0, some model⟩ _ _ _ _ walked⟩
      case isFalse => cases extracted

/-- What a discovery finds names nodes of the graph. -/
theorem Discovers.matched {mode : ValidationMode} {data : Json} {sourceModel : Option M}
    {found : List (Path × VersionNode V)}
    (discovers : Discovers graph adapter mode data sourceModel found)
    : ∀ find ∈ found, ∃ value, graph.matchPayload adapter.kindProperty adapter.versionProperty value
        = some find.2 := by
  intro find member
  cases discovers with
  | containerless => exact matched_of_mem_finds member
  | guided handles validated =>
      obtain ⟨value, hit⟩ := Dumped.matched_of_mem_outermost member
      obtain ⟨_, _, _, _, _, _, named⟩ := MigrationGraph.matchDumped_eq_some.mp hit
      exact ⟨_, named⟩

-----------------------------------------------------------------------------------------
-- Walks without a limit
-----------------------------------------------------------------------------------------

mutual
theorem exists_walkContainerless {ctx : WalkContext M} (unlimited : ctx.maxDepth < 0) (path : Path)
    (depth : Nat) (value : Json)
    : ∃ entries, walkContainerless graph path depth ctx value = .ok entries := by
  cases value with
  | obj members =>
      have shallow : ¬(0 ≤ ctx.maxDepth ∧ ctx.maxDepth < ctx.versionedDepth) := by omega
      cases hit : graph.matchPayload ctx.kp ctx.vp (.obj members) with
      | none =>
          simp only [walkContainerless, hit]
          exact exists_walkContainerlessMembers unlimited path (depth + 1) members
      | some source =>
          obtain ⟨nested, inner⟩ := @exists_walkContainerlessMembers
            { ctx with versionedDepth := ctx.versionedDepth + 1 } unlimited path (depth + 1) members
          simp only [walkContainerless, hit, if_neg shallow, inner]
          exact ⟨_, rfl⟩
  | arr items => exact exists_walkContainerlessItems unlimited path (depth + 1) 0 items
  | null | bool | int | float | str => exact ⟨[], rfl⟩

theorem exists_walkContainerlessMembers {ctx : WalkContext M} (unlimited : ctx.maxDepth < 0)
    (path : Path) (depth : Nat) (members : List (String × Json))
    : ∃ entries, walkContainerlessMembers graph path depth ctx members = .ok entries := by
  cases members with
  | nil => exact ⟨[], rfl⟩
  | cons member rest =>
      obtain ⟨first, inner⟩ :=
        exists_walkContainerless unlimited (path ++ [.key member.1]) depth member.2
      obtain ⟨others, later⟩ := exists_walkContainerlessMembers unlimited path depth rest
      simp only [walkContainerlessMembers, inner, later]
      exact ⟨_, rfl⟩

theorem exists_walkContainerlessItems {ctx : WalkContext M} (unlimited : ctx.maxDepth < 0)
    (path : Path) (depth place : Nat) (items : List Json)
    : ∃ entries, walkContainerlessItems graph path depth ctx place items = .ok entries := by
  cases items with
  | nil => exact ⟨[], rfl⟩
  | cons item rest =>
      obtain ⟨first, inner⟩ := exists_walkContainerless unlimited (path ++ [.index place]) depth item
      obtain ⟨others, later⟩ := exists_walkContainerlessItems unlimited path depth (place + 1) rest
      simp only [walkContainerlessItems, inner, later]
      exact ⟨_, rfl⟩
end

theorem checkDepth_unlimited {ctx : WalkContext M} (unlimited : ctx.maxDepth < 0) (path : Path)
    (depth : Nat) (value : Dumped)
    : checkDepth ctx path depth value = .ok ⟨⟩ := by
  have shallow : ¬(0 ≤ ctx.maxDepth ∧ ctx.maxDepth < depth) := by omega
  rw [checkDepth, if_neg shallow]

mutual
theorem exists_walkGuided {ctx : WalkContext M} (unlimited : ctx.maxDepth < 0) (path : Path)
    (depth : Nat) (value : Dumped)
    : ∃ entries, walkGuided graph adapter path depth ctx value = .ok entries := by
  cases value with
  | leaf =>
      simp only [walkGuided, checkDepth_unlimited unlimited]
      exact ⟨[], rfl⟩
  | list items =>
      simp only [walkGuided, checkDepth_unlimited unlimited]
      exact @exists_walkGuidedItems { ctx with parentModel := fieldModelAt adapter ctx path }
        unlimited path (depth + 1) 0 items
  | dict members =>
      cases hit : graph.matchDumped ctx.kp ctx.vp (.dict members) with
      | none =>
          simp only [walkGuided, checkDepth_unlimited unlimited, hit]
          exact exists_walkGuidedMembers unlimited path (depth + 1) _ members
      | some source =>
          simp only [walkGuided, checkDepth_unlimited unlimited, hit]
          exact ⟨_, rfl⟩

theorem exists_walkGuidedMembers {ctx : WalkContext M} (unlimited : ctx.maxDepth < 0) (path : Path)
    (depth : Nat) (model : Option M) (members : List (PathStep × Dumped))
    : ∃ entries, walkGuidedMembers graph adapter path depth model ctx members = .ok entries := by
  cases members with
  | nil => exact ⟨[], rfl⟩
  | cons member rest =>
      obtain ⟨first, inner⟩ := @exists_walkGuided
        { ctx with parentModel := childModel adapter model member.1 } unlimited
        (path ++ [member.1]) depth member.2
      obtain ⟨others, later⟩ := exists_walkGuidedMembers unlimited path depth model rest
      simp only [walkGuidedMembers, inner, later]
      exact ⟨_, rfl⟩

theorem exists_walkGuidedItems {ctx : WalkContext M} (unlimited : ctx.maxDepth < 0) (path : Path)
    (depth place : Nat) (items : List Dumped)
    : ∃ entries, walkGuidedItems graph adapter path depth ctx place items = .ok entries := by
  cases items with
  | nil => exact ⟨[], rfl⟩
  | cons item rest =>
      obtain ⟨first, inner⟩ := exists_walkGuided unlimited (path ++ [.index place]) depth item
      obtain ⟨others, later⟩ := exists_walkGuidedItems unlimited path depth (place + 1) rest
      simp only [walkGuidedItems, inner, later]
      exact ⟨_, rfl⟩
end

/-- Without a limit, the containerless discovery finds every mapping that names a node. -/
theorem extract_containerless (mode : ValidationMode) (data : Json) {maxDepth : Int}
    (unlimited : maxDepth < 0)
    : extract graph adapter mode data none maxDepth
      = .ok ((finds true (graph.matchPayload adapter.kindProperty adapter.versionProperty)
          data).map (entryAt [] 0)) := by
  obtain ⟨entries, walked⟩ := @exists_walkContainerless _ M _ _ graph
    ⟨adapter.kindProperty, adapter.versionProperty, maxDepth, 0, none⟩ unlimited [] 0 data
  simp only [extract, walked, walkContainerless_of_ok walked]

/-- Without a limit, the guided discovery finds the outermost mappings of what is validated. -/
theorem extract_validated {mode : ValidationMode} {data : Json} {model : M}
    (handles : adapter.canHandle model = true) {seen : Dumped}
    (validated : validatedPayload adapter mode data model = .ok seen) {maxDepth : Int}
    (unlimited : maxDepth < 0)
    : extract graph adapter mode data (some model) maxDepth
      = .ok ((seen.outermost (graph.matchDumped adapter.kindProperty
          adapter.versionProperty)).map (entryAt [] 0)) := by
  obtain ⟨entries, walked⟩ := @exists_walkGuided _ M _ _ graph adapter
    ⟨adapter.kindProperty, adapter.versionProperty, maxDepth, 0, some model⟩ unlimited [] 0 seen
  simp only [extract, handles, if_true, validated, bind, Except.bind, walked,
    walkGuided_of_ok walked]

/-- Without a limit and without validation, the guided discovery finds the outermost mappings
that name a node.
-/
theorem extract_guided (data : Json) {model : M} (handles : adapter.canHandle model = true)
    {maxDepth : Int} (unlimited : maxDepth < 0)
    : extract graph adapter .none data (some model) maxDepth
      = .ok ((finds false (graph.matchPayload adapter.kindProperty adapter.versionProperty)
          data).map (entryAt [] 0)) := by
  have validated : validatedPayload adapter .none data model = .ok (.ofJson data) := rfl
  rw [extract_validated handles validated unlimited, outermost_ofJson]

end Finds

end Pyverge
