import Pyverge.Reflection.FieldChanges
import Pyverge.Registry.Runs
import Pyverge.Py.JsonPatch

/-! Diffs discovered from JSON patches.
Discovery reads the first segment of each pointer as its text spells it and folds the operations
into three sets. What it finds tells the top-level keys of the patched document exactly if the
last operation that decides about a field agrees with how the field was read.
-/

namespace Pyverge

open Py (PatchOperation)

variable {V : Type}

-----------------------------------------------------------------------------------------
-- Discovery
-----------------------------------------------------------------------------------------

/-- The fields that discovery has found added, removed and modified. -/
structure Findings where
  added : List String
  removed : List String
  modified : Py.Dict String (List (String × Py.Json))

/-- `path.lstrip("/").split("/", 1)[0]` -/
def segment (path : String) : String :=
  String.ofList ((path.toList.dropWhile (· = '/')).takeWhile (· ≠ '/'))

/-- Append a name that is not listed yet. -/
def noteName (names : List String) (name : String) : List String :=
  if name ∈ names then names else names ++ [name]

namespace Findings

def record (findings : Findings) (operation : PatchOperation) : Findings :=
  let field := segment operation.path
  if field = "" then findings
  else
    match operation with
    | .add _ _ => { findings with added := noteName findings.added field }
    | .remove _ => { findings with removed := noteName findings.removed field }
    | .replace _ value =>
        let changes := Py.Json.setMember (findings.modified.getD field []) "value_changed"
          (.obj [("from", .null), ("to", value.getD .null)])
        { findings with modified := findings.modified.set field changes }
    | .move source _ | .copy source _ =>
        let fromField := segment source
        { findings with
          removed :=
            if fromField = "" then findings.removed else noteName findings.removed fromField
          added := noteName findings.added field }
    | .test _ _ => findings

def collect (patch : List PatchOperation) : Findings :=
  patch.foldl record ⟨[], [], ∅⟩

/-- The changes of all fields found; of several statuses the last one stays. -/
def fields (findings : Findings) : Py.Dict String FieldChange :=
  let sorted (names : List String) := names.insertionSort (fun left right => left ≤ right)
  let marked (status : FieldStatus) (name : String) := (name, FieldChange.mk status [])
  ((Py.Dict.ofItems ((sorted findings.added).map (marked .added))).update
    ((sorted findings.removed).map (marked .removed))).update
      (findings.modified.items.map (fun field => (field.1, ⟨.modified, field.2⟩)))

end Findings

/-- `JsonPatchDiffDiscovery.discover` -/
def discoverPatch (patch : List PatchOperation) (source : VersionNode V) (target : Comparable V)
    : Diff V :=
  ⟨source, target, (Findings.collect patch).fields, .migration⟩

-----------------------------------------------------------------------------------------
-- What each location contributes
-----------------------------------------------------------------------------------------

/-- A status that an operation records for a field because of one of its locations. -/
structure Contribution where
  location : String
  status : FieldStatus
  field : String
  deriving DecidableEq

def contributions (operation : PatchOperation) : List Contribution :=
  let field := segment operation.path
  if field = "" then []
  else
    match operation with
    | .add path _ => [⟨path, .added, field⟩]
    | .remove path => [⟨path, .removed, field⟩]
    | .replace path _ => [⟨path, .modified, field⟩]
    | .move source path | .copy source path =>
        (if segment source = "" then [] else [⟨source, .removed, segment source⟩])
          ++ [⟨path, .added, field⟩]
    | .test _ _ => []

/-- Some operation of the patch is read as giving the field this status. -/
def Reads (patch : List PatchOperation) (status : FieldStatus) (field : String) : Prop :=
  ∃ operation ∈ patch, ∃ found ∈ contributions operation,
    found.status = status ∧ found.field = field

/-- The field is among those found with this status. -/
def Findings.Holds (findings : Findings) (status : FieldStatus) (field : String) : Prop :=
  match status with
  | .added => field ∈ findings.added
  | .removed => field ∈ findings.removed
  | .modified => field ∈ findings.modified.keys
  | .unchanged => False

theorem mem_noteName {names : List String} {name other : String}
    : other ∈ noteName names name ↔ other ∈ names ∨ name = other := by
  unfold noteName
  by_cases listed : name ∈ names
  · rw [if_pos listed]
    exact (or_iff_left_of_imp (fun same => same ▸ listed)).symm
  · simp [listed, eq_comm]

/-- Recording an operation adds its contributions and nothing else. -/
theorem Findings.holds_record (findings : Findings) (operation : PatchOperation)
    (status : FieldStatus) (field : String)
    : (findings.record operation).Holds status field
      ↔ findings.Holds status field
        ∨ ∃ found ∈ contributions operation, found.status = status ∧ found.field = field := by
  by_cases unread : segment operation.path = ""
  · simp [record, contributions, unread]
  · cases operation with
    | add path value | remove path =>
        have named : segment path ≠ "" := unread
        cases status <;>
          simp [record, contributions, Holds, PatchOperation.path, named, mem_noteName]
    | replace path value =>
        have named : segment path ≠ "" := unread
        cases status <;>
          simp [record, contributions, Holds, PatchOperation.path, named, Py.Dict.mem_keys_set,
            or_comm, eq_comm]
    | move source path | copy source path =>
        have named : segment path ≠ "" := unread
        by_cases moved : segment source = ""
        · cases status <;>
            simp [record, contributions, Holds, PatchOperation.path, named, moved, mem_noteName]
        · cases status <;>
            simp [record, contributions, Holds, PatchOperation.path, named, moved, mem_noteName]
    | test path value => simp [record, contributions]

/-- What is collected is what the operations contribute, by induction on the patch. -/
theorem Findings.holds_collect {patch : List PatchOperation} {status : FieldStatus}
    {field : String}
    : (collect patch).Holds status field ↔ Reads patch status field := by
  have general : ∀ (patch : List PatchOperation) (findings : Findings),
      (patch.foldl record findings).Holds status field
        ↔ findings.Holds status field ∨ Reads patch status field := by
    intro patch
    induction patch with
    | nil => simp [Reads]
    | cons operation rest ih =>
        intro findings
        rw [List.foldl_cons, ih, holds_record, or_assoc]
        simp [Reads]
  have nothing : ¬ (Findings.mk [] [] ∅).Holds status field := by
    cases status <;> simp [Holds, Py.Dict.mem_keys]
  rw [collect, general, or_iff_right nothing]

/-- A modification hides a removal of the same field, and a removal hides an addition. -/
theorem status?_discoverPatch {patch : List PatchOperation} {source : VersionNode V}
    {target : Comparable V} {field : String} {status : FieldStatus}
    : (discoverPatch patch source target).status? field = some status
      ↔ Reads patch status field
        ∧ (status = .removed → ¬ Reads patch .modified field)
        ∧ (status = .added → ¬ Reads patch .modified field ∧ ¬ Reads patch .removed field) := by
  have added : field ∈ (Findings.collect patch).added ↔ Reads patch .added field :=
    @Findings.holds_collect patch .added field
  have removed : field ∈ (Findings.collect patch).removed ↔ Reads patch .removed field :=
    @Findings.holds_collect patch .removed field
  have modified : field ∈ (Findings.collect patch).modified.keys ↔ Reads patch .modified field :=
    @Findings.holds_collect patch .modified field
  have unchanged : ¬ Reads patch .unchanged field :=
    fun reads => @Findings.holds_collect patch .unchanged field |>.mpr reads
  have read : (discoverPatch patch source target).status? field
      = if field ∈ (Findings.collect patch).modified.keys then some .modified
        else if field ∈ (Findings.collect patch).removed then some .removed
        else if field ∈ (Findings.collect patch).added then some .added else none := by
    have marked : ∀ (status : FieldStatus) (names : List String),
        ∀ item ∈ names.map (fun name => (name, FieldChange.mk status [])),
          item.2.status = status := by
      intro status names item member
      obtain ⟨name, _, rfl⟩ := List.mem_map.mp member
      rfl
    have changed : ∀ item ∈ (Findings.collect patch).modified.items.map
        (fun field => (field.1, FieldChange.mk .modified field.2)), item.2.status = .modified := by
      intro item member
      obtain ⟨name, _, rfl⟩ := List.mem_map.mp member
      rfl
    simp only [Diff.status?, discoverPatch, Findings.fields, Py.Dict.ofItems]
    rw [Py.Dict.map_get?_update changed, Py.Dict.map_get?_update (marked .removed _),
      Py.Dict.map_get?_update (marked .added _)]
    simp only [List.map_map, Function.comp_def, List.map_id', List.mem_insertionSort,
      Py.Dict.get?_empty, Option.map_none, Py.Dict.keys]
    rfl
  rw [read]
  by_cases isModified : field ∈ (Findings.collect patch).modified.keys
  · have reads := modified.mp isModified
    cases status <;> simp [isModified, reads, unchanged]
  · have unmodified := mt modified.mpr isModified
    by_cases isRemoved : field ∈ (Findings.collect patch).removed
    · have reads := removed.mp isRemoved
      cases status <;> simp [isModified, isRemoved, reads, unmodified, unchanged]
    · have kept := mt removed.mpr isRemoved
      by_cases isAdded : field ∈ (Findings.collect patch).added
      · have reads := added.mp isAdded
        cases status <;> simp [isModified, isRemoved, isAdded, reads, unmodified, kept, unchanged]
      · have never := mt added.mpr isAdded
        cases status <;> simp [isModified, isRemoved, isAdded, never, unmodified, kept, unchanged]

-----------------------------------------------------------------------------------------
-- Diffs that tell the keys of the patched document
-----------------------------------------------------------------------------------------

/-- A location below the top level. -/
def Nested (location : String) : Prop :=
  ∃ top next rest, Py.Pointer.tokens location = some (top :: next :: rest)

/-- The diff tells the top-level keys of the patched document, and nested locations contribute
modifications of their top-level field.
-/
structure TellsKeys (patch : List PatchOperation) (document result : Py.Json) (diff : Diff V)
    : Prop where
  keys : ∀ key, key ∈ result.keys
    ↔ key ∈ document.keys ∧ key ∉ diff.removedFields ∨ key ∈ diff.addedFields
  nested : ∀ operation ∈ patch, ∀ found ∈ contributions operation, ∀ top next rest,
    Py.Pointer.tokens found.location = some (top :: next :: rest) →
      found.status = .modified ∧ found.field = top

/-- The first token is spelled right after a single slash and without escapes. -/
def Plain (location : String) : Prop :=
  '~' ∉ (segment location).toList ∧ ¬ ['/', '/'] <+: location.toList

/-- Nested locations are only written to by replacements that spell their top-level field plainly;
a location in which no segment is read does no harm.
-/
def ReadsNested (operation : PatchOperation) : Prop :=
  match operation with
  | .add path _ | .remove path => Nested path → segment path = ""
  | .replace path _ => Nested path → segment path = "" ∨ Plain path
  | .move source path | .copy source path =>
      segment path = "" ∨ ¬ Nested path ∧ (Nested source → segment source = "")
  | .test _ _ => True

/-- The last operation that decides about a field agrees with how the field is read. -/
structure ReadsRight (equal : Py.Json → Py.Json → Bool) (patch : List PatchOperation)
    (document : Py.Json) : Prop where
  nested : ∀ operation ∈ patch, ReadsNested operation
  modified : ∀ key, Reads patch .modified key →
    (Py.patchFate equal key patch document = .put → key ∈ document.keys)
    ∧ (Py.patchFate equal key patch document = .taken → key ∉ document.keys)
  removed : ∀ key, Reads patch .removed key → ¬ Reads patch .modified key →
    Py.patchFate equal key patch document ≠ .put
    ∧ (Py.patchFate equal key patch document = .kept → key ∉ document.keys)
  added : ∀ key, Reads patch .added key → ¬ Reads patch .removed key →
    ¬ Reads patch .modified key →
    Py.patchFate equal key patch document ≠ .taken
    ∧ (Py.patchFate equal key patch document = .kept → key ∈ document.keys)
  unread : ∀ key, (∀ status, ¬ Reads patch status key) →
    (Py.patchFate equal key patch document = .put → key ∈ document.keys)
    ∧ (Py.patchFate equal key patch document = .taken → key ∉ document.keys)

/-- A nested location is read as its own top-level field exactly if it spells the field plainly. -/
theorem segment_eq_iff_plain {location top : String} {rest : List String}
    (parsed : Py.Pointer.tokens location = some (top :: rest)) (read : segment location ≠ "")
    : segment location = top ↔ Plain location := by
  obtain ⟨spelled, text, plain⟩ := Py.Pointer.spelled_of_tokens parsed
  cases spelled with
  | nil => exact absurd (by rw [segment, text]; rfl) read
  | cons char rest =>
      by_cases doubled : char = '/'
      · -- Two slashes open the text: its first token is empty and is skipped.
        subst doubled
        have empty : top = "" := String.toList_eq_nil_iff.mp (Option.some.inj plain).symm
        refine iff_of_false (fun same => read (same.trans empty)) (fun given => given.2 ?_)
        rw [text]
        exact ⟨rest, rfl⟩
      · have same : (segment location).toList = (char :: rest).takeWhile (· ≠ '/') := by
          simp [segment, text, doubled]
        have single : ¬ ['/', '/'] <+: location.toList := by
          rw [text]
          intro doubles
          have second := (List.cons_prefix_cons.mp (List.cons_prefix_cons.mp doubles).2).1
          exact doubled second.symm
        rw [Plain, and_iff_left single, ← Py.Pointer.unescape_eq_self_iff, same, plain,
          Option.some.injEq, ← same, String.toList_inj, eq_comm]

/-- An operation contributes only modifications of top-level fields from nested locations exactly
if it reads them right.
-/
theorem readsNested_iff (operation : PatchOperation)
    : (∀ found ∈ contributions operation, ∀ top next rest,
          Py.Pointer.tokens found.location = some (top :: next :: rest) →
          found.status = .modified ∧ found.field = top)
      ↔ ReadsNested operation := by
  -- A location that is read as anything but a modification must not be nested.
  have apart : ∀ {location : String} {status : FieldStatus} {field : String},
      status ≠ .modified →
      ((∀ top next rest, Py.Pointer.tokens location = some (top :: next :: rest) →
          status = .modified ∧ field = top)
        ↔ ¬ Nested location) := by
    intro location status field other
    simp [Nested, other]
  by_cases unread : segment operation.path = ""
  · have nothing : contributions operation = [] := by simp [contributions, unread]
    rw [nothing]
    refine iff_of_true (fun found member => by cases member) ?_
    cases operation with
    | add path _ | remove path => exact fun _ => unread
    | replace path _ => exact fun _ => .inl unread
    | move source path | copy source path => exact .inl unread
    | test path _ => trivial
  · cases operation with
    | add path value =>
        have named : segment path ≠ "" := unread
        simp only [contributions, PatchOperation.path, named, if_false, List.forall_mem_singleton,
          ReadsNested, imp_false]
        exact apart (by decide)
    | remove path =>
        have named : segment path ≠ "" := unread
        simp only [contributions, PatchOperation.path, named, if_false, List.forall_mem_singleton,
          ReadsNested, imp_false]
        exact apart (by decide)
    | replace path value =>
        have named : segment path ≠ "" := unread
        simp only [contributions, PatchOperation.path, named, if_false, List.forall_mem_singleton,
          ReadsNested, true_and, false_or]
        constructor
        · intro given nested
          obtain ⟨top, next, rest, parsed⟩ := nested
          exact (segment_eq_iff_plain parsed named).mp (given top next rest parsed)
        · intro given top next rest parsed
          exact (segment_eq_iff_plain parsed named).mpr (given ⟨top, next, rest, parsed⟩)
    | move source path | copy source path =>
        have named : segment path ≠ "" := unread
        by_cases moved : segment source = ""
        · simp only [contributions, PatchOperation.path, named, moved, if_false, if_true,
            List.nil_append, List.forall_mem_singleton, ReadsNested, false_or, implies_true,
            and_true]
          exact apart (by decide)
        · simp only [contributions, PatchOperation.path, named, moved, if_false,
            List.singleton_append, List.forall_mem_cons, ReadsNested, false_or, imp_false]
          rw [apart (by decide), apart (by decide), and_iff_left (List.forall_mem_nil _), and_comm]
    | test path value =>
        simp [contributions, ReadsNested]

/-- The diff that is discovered tells the keys of the patched document exactly if the patch is
read right.
-/
theorem discoverPatch_tells_iff {equal : Py.Json → Py.Json → Bool} {patch : List PatchOperation}
    {document result : Py.Json} (applied : Py.applyPatch equal patch document = some result)
    (source : VersionNode V) (target : Comparable V)
    : TellsKeys patch document result (discoverPatch patch source target)
      ↔ ReadsRight equal patch document := by
  let diff := discoverPatch patch source target
  have removed : ∀ {key}, key ∈ diff.removedFields
      ↔ Reads patch .removed key ∧ ¬ Reads patch .modified key := by
    intro key
    rw [Diff.mem_removedFields, status?_discoverPatch]
    simp
  have added : ∀ {key}, key ∈ diff.addedFields
      ↔ Reads patch .added key ∧ ¬ Reads patch .modified key ∧ ¬ Reads patch .removed key := by
    intro key
    rw [Diff.mem_addedFields, status?_discoverPatch]
    simp
  have present := fun key => Py.mem_keys_applyPatch applied key
  constructor
  · intro tells
    -- A field that is neither removed nor added has to be present as it was.
    have settled : ∀ key, key ∉ diff.removedFields → key ∉ diff.addedFields →
        ((Py.patchFate equal key patch document).Stands (key ∈ document.keys)
          ↔ key ∈ document.keys) := by
      intro key unremoved unadded
      rw [← present key, tells.keys key]
      change _ ∧ key ∉ diff.removedFields ∨ key ∈ diff.addedFields ↔ _
      rw [and_iff_left unremoved, or_iff_left unadded]
    refine ⟨fun operation member => (readsNested_iff operation).mp (tells.nested operation member),
      ?_, ?_, ?_, ?_⟩
    · intro key reads
      exact Py.Fate.stands_iff_before.mp (settled key (fun listed => (removed.mp listed).2 reads)
        (fun listed => (added.mp listed).2.1 reads))
    · intro key reads unmodified
      rw [← Py.Fate.not_stands_iff, ← present key, tells.keys key]
      intro kept
      rcases kept with ⟨_, unremoved⟩ | listed
      · exact unremoved (removed.mpr ⟨reads, unmodified⟩)
      · exact (added.mp listed).2.2 reads
    · intro key reads unremoved unmodified
      rw [← Py.Fate.stands_iff, ← present key, tells.keys key]
      exact .inr (added.mpr ⟨reads, unmodified, unremoved⟩)
    · intro key unread
      exact Py.Fate.stands_iff_before.mp (settled key
        (fun listed => unread _ (removed.mp listed).1) (fun listed => unread _ (added.mp listed).1))
  · intro right
    refine ⟨?_,
      fun operation member => (readsNested_iff operation).mpr (right.nested operation member)⟩
    intro key
    rw [present key]
    change _ ↔ _ ∧ key ∉ diff.removedFields ∨ key ∈ diff.addedFields
    by_cases isModified : Reads patch .modified key
    · have unremoved : key ∉ diff.removedFields := fun listed => (removed.mp listed).2 isModified
      have unadded : key ∉ diff.addedFields := fun listed => (added.mp listed).2.1 isModified
      rw [Py.Fate.stands_iff_before.mpr (right.modified key isModified), and_iff_left unremoved,
        or_iff_left unadded]
    · by_cases isRemoved : Reads patch .removed key
      · have gone := Py.Fate.not_stands_iff.mpr (right.removed key isRemoved isModified)
        have listed : key ∈ diff.removedFields := removed.mpr ⟨isRemoved, isModified⟩
        have unadded : key ∉ diff.addedFields := fun listed => (added.mp listed).2.2 isRemoved
        refine iff_of_false gone ?_
        intro kept
        rcases kept with ⟨_, unremoved⟩ | isAdded
        · exact unremoved listed
        · exact unadded isAdded
      · by_cases isAdded : Reads patch .added key
        · have there := Py.Fate.stands_iff.mpr (right.added key isAdded isRemoved isModified)
          exact iff_of_true there (.inr (added.mpr ⟨isAdded, isModified, isRemoved⟩))
        · have unread : ∀ status, ¬ Reads patch status key := by
            intro status
            cases status with
            | added => exact isAdded
            | removed => exact isRemoved
            | modified => exact isModified
            | unchanged =>
                exact fun reads => (@Findings.holds_collect patch .unchanged key).mpr reads
          have unremoved : key ∉ diff.removedFields := fun listed => unread _ (removed.mp listed).1
          have unadded : key ∉ diff.addedFields := fun listed => unread _ (added.mp listed).1
          rw [Py.Fate.stands_iff_before.mpr (right.unread key unread), and_iff_left unremoved,
            or_iff_left unadded]

/-- A person whose address has a city, and a patch that takes the city away. -/
def addressed : Py.Json := .obj [("address", .obj [("city", .str "x")])]

/-- A renaming is read as taking the old name away and giving the new one. -/
theorem reads_rename {status : FieldStatus} {key : String}
    : Reads [.move "/address" "/home"] status key
      ↔ status = .removed ∧ key = "address" ∨ status = .added ∧ key = "home" := by
  have found : contributions (.move "/address" "/home")
      = [⟨"/address", .removed, "address"⟩, ⟨"/home", .added, "home"⟩] := by
    decide +kernel
  simp [Reads, found, eq_comm]

theorem tokens_rename
    : Py.Pointer.tokens "/address" = some ["address"] ∧ Py.Pointer.tokens "/home" = some ["home"]
  := by decide +kernel

theorem patchFate_rename (key : String)
    : Py.patchFate (fun left right => left == right) key [.move "/address" "/home"] addressed
      = if key = "home" then .put else if key = "address" then .taken else .kept := by
  have applied : PatchOperation.apply (fun left right => left == right)
      (.move "/address" "/home") addressed
      = some (Py.Json.obj [("home", .obj [("city", .str "x")])]) := by
    decide +kernel
  obtain ⟨source, path⟩ := tokens_rename
  have value : addressed.resolve ["address"] = some (.obj [("city", .str "x")]) := rfl
  simp only [Py.patchFate, applied, PatchOperation.fate, source, path, value,
    Option.bind_eq_bind, Option.bind_some, Option.pure_def, Option.getD_some]
  by_cases home : key = "home"
  · subst home
    decide
  · by_cases address : key = "address"
    · subst address
      decide
    · simp [Py.removedFate, Py.placedFate, Py.Fate.andThen, home, address, Ne.symm home,
        Ne.symm address]

theorem readsRight_rename
    : ReadsRight (fun left right => left == right) [.move "/address" "/home"] addressed := by
  have keys : addressed.keys = ["address"] := rfl
  obtain ⟨source, path⟩ := tokens_rename
  refine ⟨?_, ?_, ?_, ?_, ?_⟩
  · intro operation member
    rw [List.mem_singleton.mp member]
    refine .inr ⟨?_, ?_⟩
    · rintro ⟨top, next, rest, tokens⟩
      rw [path] at tokens
      cases tokens
    · rintro ⟨top, next, rest, tokens⟩
      rw [source] at tokens
      cases tokens
  · intro key reads
    simp [reads_rename] at reads
  · intro key reads _
    simp only [reads_rename, true_and, reduceCtorEq, false_and, or_false] at reads
    subst reads
    simp [patchFate_rename, keys]
  · intro key reads _ _
    simp only [reads_rename, true_and, reduceCtorEq, false_and, false_or] at reads
    subst reads
    simp [patchFate_rename, keys]
  · intro key unread
    have notHome : key ≠ "home" := by
      intro home
      exact unread .added (reads_rename.mpr (.inr ⟨rfl, home⟩))
    have notAddress : key ≠ "address" := by
      intro address
      exact unread .removed (reads_rename.mpr (.inl ⟨rfl, address⟩))
    simp [patchFate_rename, notHome, notAddress]

/-- Witness: the diff of a patch that renames a field tells the keys of the renamed document. -/
theorem discoverPatch_tells_rename
    : TellsKeys [.move "/address" "/home"] addressed
          (.obj [("home", .obj [("city", .str "x")])])
        (discoverPatch [.move "/address" "/home"] (userNode 1 "UserV1") (.nodeId (userId 2))) :=
  (discoverPatch_tells_iff (by decide +kernel) (userNode 1 "UserV1") (.nodeId (userId 2))).mpr
    readsRight_rename

/-- Counterexample: taking away a nested value is found to take away its top-level field. -/
theorem discoverPatch_misses_nested
    : Py.applyPatch (fun left right => left == right) [.remove "/address/city"] addressed
        = some (.obj [("address", .obj [])])
      ∧ ¬ TellsKeys [.remove "/address/city"] addressed (.obj [("address", .obj [])])
          (discoverPatch [.remove "/address/city"] (userNode 1 "UserV1") (.nodeId (userId 2))) := by
  refine ⟨by decide +kernel, ?_⟩
  intro tells
  have read := (tells.nested _ List.mem_cons_self ⟨"/address/city", .removed, "address"⟩
    (by decide +kernel) "address" "city" [] (by decide +kernel)).1
  cases read

end Pyverge
