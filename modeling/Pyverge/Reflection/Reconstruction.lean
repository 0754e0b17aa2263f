import Pyverge.Reflection.Models
import Pyverge.Registry.Refusals
import Pyverge.Py.CanonicalJson

/-! Endpoints that a registry reconstructs from a migration and the endpoint it knows.
The registry diffs the known endpoint against the missing one, the adapter inverts the diff when
its source is the later version, and the builder applies it to the class of the known endpoint.
-/

namespace Pyverge

variable {V F : Type} [DecidableEq V] [VersionValue V]

-----------------------------------------------------------------------------------------
-- Descriptions of classes
-----------------------------------------------------------------------------------------

/-- What the runtime reads off a class and its annotations: a module-qualified name, the canonical
type of an annotation and the versioned models that it refers to.
-/
structure ClassReader (V : Type) where
  modelId : ModelClass → String
  typeRef : Py.Json → Except (Error V) Py.Json
  references : ModelClass → Py.Json → Except (Error V) (List (NodeId V))

/-- The encoded default of a field; a factory is not called. -/
def FieldDefault.encoded : FieldDefault → Option Py.Json
  | .required | .factory _ => none
  | .value given => some given.canonical

omit [DecidableEq V] [VersionValue V] in
/-- `PythonModelRuntime.describe_fields` -/
def describeFields (reader : ClassReader V) (handle : ModelClass)
    : Except (Error V) (Py.Dict String (FieldDescriptor V)) := do
  let described ← handle.fields.items.mapM (fun (name, field) => do
    let typeRef ← reader.typeRef field.type
    return (name, {
      name, typeRef, annotation := field.type
      required := field.isRequired, default := field.default.encoded : FieldDescriptor V }))
  let referring ← described.mapM (fun (name, descriptor) => do
    let references ← reader.references handle descriptor.annotation
    return (name, { descriptor with references }))
  return Py.Dict.ofItems referring

variable (printable : Char → Bool)

namespace ModelCodec

/-- The text of the default of a field, empty without one. -/
def default (fields : Py.Dict String (FieldDescriptor V)) (name : String) : String :=
  match (fields.get? name).bind FieldDescriptor.default with
  | none => ""
  | some value => value.pyStr printable

def version (codec : ModelCodec) (fields : Py.Dict String (FieldDescriptor V)) : String :=
  default printable fields codec.versionProperty

def kind (codec : ModelCodec) (fields : Py.Dict String (FieldDescriptor V)) : String :=
  default printable fields codec.kindProperty

end ModelCodec

variable (codec : ModelCodec) (reader : ClassReader V)

/-- The descriptor of a class leaves out the identity properties. -/
def modelDescriptor (handle : ModelClass) : Except (Error V) (ModelDescriptor V) := do
  let fields ← describeFields reader handle
  return ⟨⟨"pydantic", reader.modelId handle⟩,
    Py.Dict.ofItems (fields.items.filter (fun field => field.1 ∉ codec.identity))⟩

/-- `AbstractModelAdapter.versionable`, with kind and version from the defaults of the class. -/
def versionable (handle : ModelClass) : Except (Error V) (VersionNode V) := do
  let descriptor ← modelDescriptor codec reader handle
  let fields ← describeFields reader handle
  match VersionValue.parse (codec.version printable fields) with
  | none => .error (.valueError ("Cannot parse version "
      ++ Py.reprStr printable (codec.version printable fields)
      ++ ". Expected semver (e.g. '1.0.0') or ISO date (e.g. '2024-06-01')."))
  | some version => return {
      id := { nameSpace := codec.nameSpace, kind := codec.kind printable fields, version
              named := codec.named }
      descriptor }

-----------------------------------------------------------------------------------------
-- Materialization
-----------------------------------------------------------------------------------------

/-- `left > right` on version values; a semantic version and a date do not compare. -/
def versionGreater (left right : V) : Except (Error V) Bool :=
  if VersionValue.strategy left = VersionValue.strategy right then
    .ok (VersionValue.cmp left right == .gt)
  else .error (.raised "TypeError")

variable (createModel : String → Py.Dict String ClassField → Except (Error V) ModelClass)
  (handles : Py.Dict ModelRef ModelClass)

/-- `AbstractModelAdapter.materialize` over the Python runtime with the handles it remembers -/
def materialize (diff : Diff V) : Except (Error V) (VersionNode V) := do
  let backward ← versionGreater diff.source.id.version diff.target.id.version
  let built ← buildModel createModel codec handles (if backward then diff.inverted else diff)
  versionable printable codec reader built

-----------------------------------------------------------------------------------------
-- Fields of materialized nodes
-----------------------------------------------------------------------------------------

omit [DecidableEq V] [VersionValue V] in
/-- A class is described by a field descriptor for each of its fields. -/
theorem keys_describeFields {reader : ClassReader V} {handle : ModelClass}
    {fields : Py.Dict String (FieldDescriptor V)}
    (described : describeFields reader handle = .ok fields)
    : fields.keys = handle.fields.keys := by
  have names : ∀ {α β : Type} {step : String × α → Except (Error V) (String × β)}
      {items : List (String × α)} {results : List (String × β)},
      (∀ item result, step item = .ok result → result.1 = item.1) →
      items.mapM step = .ok results → results.map Prod.fst = items.map Prod.fst := by
    intro α β step items results kept run
    have calls := Py.mapM_eq_ok_iff.mp run
    induction calls with
    | nil => rfl
    | cons head tail ih =>
        rw [List.map_cons, List.map_cons, kept _ _ head, ih (Py.mapM_eq_ok_iff.mpr tail)]
  obtain ⟨first, typed, later⟩ := Py.ok_bind_iff.mp described
  obtain ⟨second, referring, built⟩ := Py.ok_bind_iff.mp later
  obtain rfl := Except.ok.inj built
  have typedNames := names (fun item result run => by
    obtain ⟨_, _, made⟩ := Py.ok_bind_iff.mp run
    obtain rfl := Except.ok.inj made
    rfl) typed
  have referringNames := names (fun item result run => by
    obtain ⟨_, _, made⟩ := Py.ok_bind_iff.mp run
    obtain rfl := Except.ok.inj made
    rfl) referring
  have same := referringNames.trans typedNames
  have nodup : (second.map Prod.fst).Nodup := by
    rw [same]
    exact handle.fields.nodup
  rw [Py.Dict.keys, Py.Dict.items_ofItems nodup, same]
  rfl

omit [DecidableEq V] in
/-- A node that stands for a class has the fields of the class outside the identity properties. -/
theorem fields_versionable {printable : Char → Bool} {codec : ModelCodec} {reader : ClassReader V}
    {handle : ModelClass} {node : VersionNode V}
    (made : versionable printable codec reader handle = .ok node) {name : String}
    (plain : name ∉ codec.identity)
    : name ∈ node.fields ↔ name ∈ handle.fields.keys := by
  obtain ⟨descriptor, modeled, later⟩ := Py.ok_bind_iff.mp made
  obtain ⟨fields, _, parsed⟩ := Py.ok_bind_iff.mp later
  obtain ⟨described, read, held⟩ := Py.ok_bind_iff.mp modeled
  obtain rfl := Except.ok.inj held
  have fields : node.fields = (Py.Dict.ofItems (described.items.filter
      (fun field => field.1 ∉ codec.identity))).keys := by
    split at parsed
    · cases parsed
    · obtain rfl := Except.ok.inj parsed
      rfl
  have nodup : ((described.items.filter (fun field => field.1 ∉ codec.identity)).map
      Prod.fst).Nodup := described.nodup.sublist (List.filter_sublist.map _)
  rw [fields, ← keys_describeFields read, Py.Dict.keys, Py.Dict.items_ofItems nodup,
    Py.Dict.keys]
  simp [plain]

/-- The names of the fields that a builder leads to from those of the anchor. -/
def Applied (anchor : List String) (diff : Diff V) (name : String) : Prop :=
  (name ∈ anchor ∧ name ∉ diff.removedFields) ∨ name ∈ diff.addedFields

omit [DecidableEq V] in
/-- A built model has the fields that the diff leads to, next to the version property. -/
theorem fields_buildModel {accepts : String → Py.Json → Prop}
    {createModel : String → Py.Dict String ClassField → Except (Error V) ModelClass}
    (creates : CreatesModels createModel accepts) {codec : ModelCodec}
    {handles : Py.Dict ModelRef ModelClass} {diff : Diff V} {built : ModelClass}
    (made : buildModel createModel codec handles diff = .ok built)
    : ∃ handle, handles.get? diff.source.modelref = some handle
        ∧ ∀ name ≠ codec.versionProperty,
          (name ∈ built.fields.keys ↔ Applied handle.fields.keys diff name) := by
  obtain ⟨handle, resolved, created⟩ := Py.ok_bind_iff.mp made
  have found : handles.get? diff.source.modelref = some handle := by
    unfold resolveHandle at resolved
    split at resolved
    · rename_i other known
      rw [known, Except.ok.inj resolved]
    · cases resolved
  have merged : built.fields = mergedFields codec handle diff := by
    obtain ⟨other, again, fields⟩ := creates.creates _ _ (creates.refuses _ _ _ created)
    obtain rfl := Except.ok.inj (created.symm.trans again)
    exact fields
  refine ⟨handle, found, fun name own => ?_⟩
  rw [← Py.Dict.contains_iff, Py.Dict.contains, merged, get?_mergedFields, if_neg own,
    Option.isSome_or, Bool.or_eq_true]
  apply or_congr
  · by_cases gone : name ∈ diff.removedFields
    · simp [gone]
    · rw [if_neg gone, ← Py.Dict.contains, Py.Dict.contains_iff]
      simp [gone]
  · by_cases added : name ∈ diff.addedFields <;> simp [added]

omit [DecidableEq V] in
/-- A materialized node has the fields that the diff leads to from those of the anchor's class, or
the inverted diff if its source is the later version.
-/
theorem fields_materialize {accepts : String → Py.Json → Prop} {printable : Char → Bool}
    {codec : ModelCodec} {reader : ClassReader V}
    {createModel : String → Py.Dict String ClassField → Except (Error V) ModelClass}
    (creates : CreatesModels createModel accepts)
    {handles : Py.Dict ModelRef ModelClass} {diff : Diff V} {node : VersionNode V}
    (made : materialize printable codec reader createModel handles diff = .ok node)
    : ∃ handle, handles.get? diff.source.modelref = some handle
        ∧ ∀ name ∉ codec.identity,
          (name ∈ node.fields ↔ Applied handle.fields.keys
            (if VersionValue.cmp diff.source.id.version diff.target.id.version = .gt
              then diff.inverted else diff) name) := by
  obtain ⟨backward, compared, later⟩ := Py.ok_bind_iff.mp made
  obtain ⟨built, modeled, described⟩ := Py.ok_bind_iff.mp later
  have order : backward
      = (VersionValue.cmp diff.source.id.version diff.target.id.version == .gt) := by
    unfold versionGreater at compared
    split at compared
    · exact (Except.ok.inj compared).symm
    · cases compared
  have direction : (if backward then diff.inverted else diff)
      = if VersionValue.cmp diff.source.id.version diff.target.id.version = .gt
          then diff.inverted else diff := by
    simp [order]
  rw [direction] at modeled
  obtain ⟨handle, found, fields⟩ := fields_buildModel creates modeled
  refine ⟨handle, ?_, fun name plain => ?_⟩
  · rw [← found]
    split <;> rfl
  · have own : name ≠ codec.versionProperty := by
      intro same
      exact plain (same ▸ List.mem_cons_self)
    rw [fields_versionable described plain, fields name own]

-----------------------------------------------------------------------------------------
-- Reconstructed endpoints
-----------------------------------------------------------------------------------------

section Registry

variable {config : Config V F} {reflection : ReflectionPort V F} {spec : MigrationSpec V F}
  {registry : Registry V}

/-- A node that a request with one endpoint to make up adds is the one that is materialized. -/
theorem materializes_of_stored (port : config.reflection = some reflection)
    (stores : NodeStores registry) {anchor : VersionNode V} {missing : Comparable V}
    {ends : VersionNode V → VersionNode V × VersionNode V}
    (resolve : Registry.resolveEndpoints config reflection spec registry
      = (do
          let node ← Registry.reconstructEndpoint config reflection anchor missing spec.func
          return ends node : RegistryM V _) registry)
    {node : VersionNode V}
    (stored : .versionNode node
      ∈ (Py.after (Registry.storeMigration config (.spec spec)) registry).byVersions)
    (fresh : .versionNode node ∉ registry.byVersions)
    : registry.Materializes config reflection spec.func anchor missing node := by
  by_cases kinds : spec.source.kind = spec.target.kind
  · have nodes : (Py.after (Registry.storeMigration config (.spec spec)) registry).byVersions
        = (Py.after (Registry.resolveEndpoints config reflection spec) registry).byVersions :=
      congrArg NodeView.byVersions (storeMigration_keepsResolved port kinds)
    rw [nodes, Py.after_eq resolve] at stored
    rcases reconstructEndpoint_cases config reflection stores anchor missing spec.func with
      ⟨made, materializes, _, _, run⟩ | ⟨_, error, run⟩
    · have refreshed : (Py.after (do
            refreshHealth config.linters
              (affectedByNodeChange (registry.insertNode (.versionNode made)) (.versionNode made))
            return made : RegistryM V _) (registry.insertNode (.versionNode made))).nodeView
          = (registry.insertNode (.versionNode made)).nodeView :=
        Py.Keeps.bind (refreshHealth_keepsNodes _ _) (fun _ => .pure _ _) _
      have reached := congrArg Registry.nodeView (Py.after_eq run)
      have inserted := @Py.Preserves.after_bind _ _ _ _ (fun state : Registry V =>
        state.nodeView = (registry.insertNode (.versionNode made)).nodeView) _
        (fun node => (pure (ends node) : RegistryM V _)) registry (reached.trans refreshed)
        (fun _ => .pure _ _)
      have member : .versionNode node ∈ (registry.insertNode (.versionNode made)).byVersions :=
        (congrArg (fun view => .versionNode node ∈ view.byVersions) inserted).mp stored
      rcases mem_insertIdx_nodeIndex.mp member with same | old
      · obtain rfl := NodeEntry.versionNode.inj same
        exact materializes
      · exact absurd old fresh
    · rw [Py.after_of_error (Py.bind_eq_of_error run)] at stored
      exact absurd stored fresh
  · have refused : ∃ error, Registry.reflectEdge config spec registry = .error error registry := by
      unfold Registry.reflectEdge
      simp only [Py.query_bind_eq, port, ne_eq, kinds, not_false_eq_true, if_true]
      exact ⟨_, rfl⟩
    obtain ⟨error, run⟩ := refused
    have raises : Registry.storeMigration config (.spec spec) registry = .error error registry :=
      Py.bind_eq_of_error run
    rw [Py.after_of_error raises] at stored
    exact absurd stored fresh

/-- One of the two endpoints of a request. -/
inductive Endpoint where
  | source
  | target
  deriving DecidableEq

namespace Endpoint

def other : Endpoint → Endpoint
  | .source => .target
  | .target => .source

/-- What stands at this endpoint. -/
def select {α : Type} : (endpoint : Endpoint) → (source target : α) → α
  | .source, first, _ => first
  | .target, _, second => second

end Endpoint

variable (config spec registry)

/-- The request does not find one endpoint and stores it as a new node. -/
structure Reconstructs (missing : Endpoint) (source target : VersionNode V) : Prop where
  known : registry.findModel (missing.other.select spec.source spec.target).id
    = .ok (some (missing.other.select source target))
  absent : registry.findModel (missing.select spec.source spec.target).id = .ok none
  stored : .versionNode (missing.select source target)
    ∈ (Py.after (Registry.storeMigration config (.spec spec)) registry).byVersions
  fresh : .versionNode (missing.select source target) ∉ registry.byVersions

variable {config spec registry}

/-- The stored endpoint is materialized from the diff that leads away from the known one. -/
theorem Reconstructs.materializes (port : config.reflection = some reflection)
    (stores : NodeStores registry) {missing : Endpoint} {source target : VersionNode V}
    (reconstructs : Reconstructs config spec registry missing source target)
    : registry.Materializes config reflection spec.func (missing.other.select source target)
        (missing.select spec.source spec.target) (missing.select source target) := by
  have resolve : Registry.resolveEndpoints config reflection spec registry = _ :=
    Py.query_bind_eq _ _ _
  simp only [Py.query_bind_eq] at resolve
  have known := reconstructs.known
  have absent := reconstructs.absent
  cases missing with
  | source =>
      simp only [Endpoint.other, Endpoint.select] at known absent
      rw [absent, known] at resolve
      exact materializes_of_stored port stores resolve reconstructs.stored reconstructs.fresh
  | target =>
      simp only [Endpoint.other, Endpoint.select] at known absent
      rw [absent, known] at resolve
      exact materializes_of_stored port stores resolve reconstructs.stored reconstructs.fresh

end Registry

-----------------------------------------------------------------------------------------
-- Fields of the two endpoints
-----------------------------------------------------------------------------------------

section Fields

variable (codec : ModelCodec) (changes : Py.Dict String FieldChange)

def Adds (name : String) : Prop := (changes.get? name).map FieldChange.status = some .added

def Removes (name : String) : Prop := (changes.get? name).map FieldChange.status = some .removed

/-- Outside the identity properties the target has the fields of the source without the removed
ones and with the added ones.
-/
def LeadsTo (source target : VersionNode V) : Prop :=
  ∀ name ∉ codec.identity,
    (name ∈ target.fields ↔ (name ∈ source.fields ∧ ¬ Removes changes name) ∨ Adds changes name)

/-- A source has what is removed and not what is added, a target what is added and not what is
removed.
-/
def Consistent (endpoint : Endpoint) (node : VersionNode V) : Prop :=
  ∀ name ∉ codec.identity,
    (Removes changes name → (name ∈ node.fields ↔ endpoint = .source))
    ∧ (Adds changes name → (name ∈ node.fields ↔ endpoint = .target))

/-- The class has the fields of the node, as far as they are not added or removed. -/
def Describes (handle : ModelClass) (node : VersionNode V) : Prop :=
  ∀ name ∉ codec.identity, ¬ Adds changes name → ¬ Removes changes name →
    (name ∈ handle.fields.keys ↔ name ∈ node.fields)

/-- No field outside the identity properties is added or removed. -/
def Unchanging : Prop := ∀ name ∉ codec.identity, ¬ Adds changes name ∧ ¬ Removes changes name

variable {codec changes}

theorem not_removes_of_adds {name : String} (adds : Adds changes name)
    : ¬ Removes changes name := by
  intro removes
  cases adds.symm.trans removes

omit [DecidableEq V] [VersionValue V] in
theorem applied_iff {anchor : List String} {source : VersionNode V} {target : Comparable V}
    {origin : DiffOrigin} {name : String}
    : Applied anchor ⟨source, target, changes, origin⟩ name
      ↔ (name ∈ anchor ∧ ¬ Removes changes name) ∨ Adds changes name := by
  rw [Applied, Diff.mem_addedFields, Diff.mem_removedFields]
  rfl

omit [DecidableEq V] [VersionValue V] in
theorem applied_inverted_iff {anchor : List String} {source : VersionNode V} {target : Comparable V}
    {origin : DiffOrigin} {name : String}
    : Applied anchor (Diff.inverted ⟨source, target, changes, origin⟩) name
      ↔ (name ∈ anchor ∧ ¬ Adds changes name) ∨ Removes changes name := by
  rw [Applied, Diff.mem_addedFields_inverted, Diff.mem_removedFields_inverted,
    Diff.mem_addedFields, Diff.mem_removedFields]
  rfl

omit [DecidableEq V] in
/-- From a known source the built fields are those that the changes lead to, unless the diff was
inverted.
-/
theorem leadsTo_iff_of_source {source target : VersionNode V} {handle : ModelClass}
    {missing : Comparable V} {origin : DiffOrigin}
    (fields : ∀ name ∉ codec.identity,
      (name ∈ target.fields ↔ Applied handle.fields.keys
        (if VersionValue.cmp source.id.version missing.id.version = .gt
          then Diff.inverted ⟨source, missing, changes, origin⟩
          else ⟨source, missing, changes, origin⟩) name))
    : LeadsTo codec changes source target
      ↔ Describes codec changes handle source
        ∧ (VersionValue.cmp source.id.version missing.id.version ≠ .gt
          ∨ Unchanging codec changes) := by
  by_cases backward : VersionValue.cmp source.id.version missing.id.version = .gt
  · simp only [backward, if_true, applied_inverted_iff] at fields
    simp only [backward, ne_eq, not_true_eq_false, false_or]
    constructor
    · intro leads
      have still : Unchanging codec changes := by
        intro name plain
        have same := (fields name plain).symm.trans (leads name plain)
        have apart := @not_removes_of_adds changes name
        tauto
      refine ⟨fun name plain unadded unremoved => ?_, still⟩
      have same := (fields name plain).symm.trans (leads name plain)
      tauto
    · intro given name plain
      obtain ⟨describes, still⟩ := given
      obtain ⟨unadded, unremoved⟩ := still name plain
      have same := describes name plain unadded unremoved
      rw [fields name plain]
      tauto
  · simp only [backward, if_false, applied_iff] at fields
    simp only [ne_eq, backward, not_false_eq_true, true_or, and_true]
    constructor
    · intro leads name plain unadded unremoved
      have same := (fields name plain).symm.trans (leads name plain)
      tauto
    · intro describes name plain
      have same := describes name plain
      rw [fields name plain]
      tauto

omit [DecidableEq V] in
/-- From a known target that is consistent with the changes, the built source leads back to it,
whether the diff was inverted or not.
-/
theorem leadsTo_iff_of_target {source target : VersionNode V} {handle : ModelClass}
    {missing : Comparable V} {origin : DiffOrigin}
    (consistent : Consistent codec changes .target target)
    (fields : ∀ name ∉ codec.identity,
      (name ∈ source.fields ↔ Applied handle.fields.keys
        (if VersionValue.cmp target.id.version missing.id.version = .gt
          then Diff.inverted ⟨target, missing, changes, origin⟩
          else ⟨target, missing, changes, origin⟩) name))
    : LeadsTo codec changes source target ↔ Describes codec changes handle target := by
  have built : ∀ name ∉ codec.identity, ¬ Adds changes name → ¬ Removes changes name →
      (name ∈ source.fields ↔ name ∈ handle.fields.keys) := by
    intro name plain unadded unremoved
    have applied := fields name plain
    by_cases backward : VersionValue.cmp target.id.version missing.id.version = .gt
    · rw [if_pos backward, applied_inverted_iff] at applied
      tauto
    · rw [if_neg backward, applied_iff] at applied
      tauto
  constructor
  · intro leads name plain unadded unremoved
    have same := leads name plain
    have kept := built name plain unadded unremoved
    tauto
  · intro describes name plain
    have same := describes name plain
    have kept := built name plain
    obtain ⟨removed, added⟩ := consistent name plain
    by_cases adds : Adds changes name
    · simp [adds, added adds]
    · by_cases removes : Removes changes name
      · simp [adds, removes, removed removes]
      · have stays := (kept adds removes).trans (same adds removes)
        tauto

variable {createModel : String → Py.Dict String ClassField → Except (Error V) ModelClass}
  {accepts : String → Py.Json → Prop} {printable : Char → Bool} {reader : ClassReader V}
  {handles : Py.Dict ModelRef ModelClass} {equal : Py.Json → Py.Json → Bool}
  {discover : MigrationFunc F → Except (Error V) (Py.Dict String FieldChange)}

/-- The endpoint that a migration reconstructs and stores is the one that the changes lead to or
come from exactly if the runtime holds a class with the fields of the known endpoint for it and the
missing endpoint is not an earlier target, unless nothing is added or removed.
-/
theorem Reachable.storeMigration_leadsTo_iff {past config : Config V F} {registry : Registry V}
    (reached : Reachable past registry) (creates : CreatesModels createModel accepts)
    (port : config.reflection = some (reflector equal discover
      (materialize printable codec reader createModel handles)))
    {spec : MigrationSpec V F} (discovered : discover spec.func = .ok changes)
    {missing : Endpoint} {source target : VersionNode V}
    (reconstructs : Reconstructs config spec registry missing source target)
    (consistent : Consistent codec changes missing.other (missing.other.select source target))
    : LeadsTo codec changes source target
      ↔ (∃ handle, handles.get? (missing.other.select source target).modelref = some handle
          ∧ Describes codec changes handle (missing.other.select source target))
        ∧ (missing = .source
          ∨ VersionValue.cmp source.id.version spec.target.id.version ≠ .gt
          ∨ Unchanging codec changes) := by
  obtain ⟨diff, compared, reflected⟩ :=
    (reconstructs.materializes port reached.nodeStores).reflected
  have found : diff = ⟨missing.other.select source target,
      missing.select spec.source spec.target, changes, .migration⟩ := by
    simp only [reflector, discovered, Except.map, Except.ok.injEq] at compared
    exact compared.symm
  obtain ⟨handle, held, fields⟩ := fields_materialize creates reflected
  subst found
  have only : (∃ other, handles.get? (missing.other.select source target).modelref = some other
        ∧ Describes codec changes other (missing.other.select source target))
      ↔ Describes codec changes handle (missing.other.select source target) := by
    constructor
    · intro given
      obtain ⟨other, again, describes⟩ := given
      rwa [Option.some.inj (held.symm.trans again)]
    · intro describes
      exact ⟨handle, held, describes⟩
  rw [only]
  cases missing with
  | source =>
      have built : LeadsTo codec changes source target ↔ Describes codec changes handle target :=
        leadsTo_iff_of_target consistent fields
      simp [built, Endpoint.other, Endpoint.select]
  | target =>
      have built : LeadsTo codec changes source target
          ↔ Describes codec changes handle source
            ∧ (VersionValue.cmp source.id.version spec.target.id.version ≠ .gt
              ∨ Unchanging codec changes) :=
        leadsTo_iff_of_source fields
      simp [built, Endpoint.other, Endpoint.select]

end Fields

-----------------------------------------------------------------------------------------
-- Two migrations that write a key
-----------------------------------------------------------------------------------------

/-- Annotations that are their own types and refer to nothing. -/
def plainReader : ClassReader Release where
  modelId handle := "pyverge.schemas.runtime." ++ handle.name
  typeRef := .ok
  references _ _ := .ok []

/-- What discovery reports of a migration that writes an address. -/
def addsEmail : Py.Dict String FieldChange := (∅ : Py.Dict _ _).set "email" ⟨.added, []⟩

/-- A configuration that reconstructs the missing endpoint of such a migration. -/
def rebuildingConfig : Config Release Unit :=
  { plainConfig with
    reflection := some (reflector (fun left right => left == right) (fun _ => .ok addsEmail)
      (materialize (fun _ => true) plainCodec plainReader createPlain userHandles))
    onMissing := .reconstructModel }

/-- A registry that holds one release of `User`. -/
def singleRegistry (major : Nat) : Registry Release :=
  Py.after ((Op.store (.versionNode (fieldedUser major "name"))).run rebuildingConfig)
    (Registry.new "default" false)

theorem singleRegistry_reachable (major : Nat)
    : Reachable rebuildingConfig (singleRegistry major) :=
  .step _ (.new _ "default" false userEdge.named)

def namedField : FieldDescriptor Release :=
  { name := "name", typeRef := strType, annotation := strType, required := true }

def emailField : FieldDescriptor Release :=
  { name := "email", typeRef := anyType, annotation := anyType, default := some .null }

/-- A release of `User` as the runtime makes it up. -/
def rebuiltUser (major : Nat) (name : String) (fields : List (FieldDescriptor Release))
    : VersionNode Release where
  id := userId major
  descriptor := ⟨⟨"pydantic", "pyverge.schemas.runtime." ++ name⟩,
    Py.Dict.indexBy FieldDescriptor.name fields⟩

theorem adds_addsEmail {name : String} : Adds addsEmail name ↔ name = "email" := by
  rw [Adds, addsEmail, Py.Dict.get?_set]
  by_cases same : name = "email" <;> simp [same]

theorem not_removes_addsEmail {name : String} : ¬ Removes addsEmail name := by
  rw [Removes, addsEmail, Py.Dict.get?_set]
  by_cases same : name = "email" <;> simp [same]

/-- A release with a name only is a source of the migration that adds an address. -/
theorem fieldedUser_consistent (major : Nat)
    : Consistent plainCodec addsEmail .source (fieldedUser major "name") := by
  intro name plain
  constructor
  · intro removes
    exact absurd removes not_removes_addsEmail
  · intro adds
    have fields : (fieldedUser major "name").fields = ["name"] := rfl
    rw [adds_addsEmail.mp adds, fields]
    simp

/-- Witness: the later release is made up from the earlier one. -/
theorem storeMigration_leadsTo_email
    : LeadsTo plainCodec addsEmail (fieldedUser 1 "name")
        (rebuiltUser 2 "UserV2_0_0" [namedField, emailField]) := by
  have reconstructs : Reconstructs rebuildingConfig (userSpec 1 2) (singleRegistry 1) .target
      (fieldedUser 1 "name") (rebuiltUser 2 "UserV2_0_0" [namedField, emailField]) := by
    constructor
    · decide +kernel
    · decide +kernel
    · decide +kernel
    · decide +kernel
  refine (Reachable.storeMigration_leadsTo_iff (singleRegistry_reachable 1) createPlain_creates rfl
    rfl reconstructs (fieldedUser_consistent 1)).mpr ?_
  refine ⟨⟨userClass, by decide +kernel, ?_⟩, .inr (.inl (by decide +kernel))⟩
  have held : ∀ name ∈ userClass.fields.keys, name = "name" ∨ name ∈ plainCodec.identity := by
    decide +kernel
  intro name plain _ _
  constructor
  · intro member
    rcases held name member with same | identity
    · rw [same]
      decide +kernel
    · exact absurd identity plain
  · intro member
    have only : ∀ name ∈ (fieldedUser 1 "name").fields, name ∈ userClass.fields.keys := by
      decide +kernel
    exact only name member

/-- Counterexample: the earlier release is made up from the later one. The diff is inverted although
it starts at the source, so the address is taken out instead of added.
-/
theorem storeMigration_drops_email
    : Reconstructs rebuildingConfig (userSpec 2 1) (singleRegistry 2) .target
        (fieldedUser 2 "name") (rebuiltUser 1 "UserV1_0_0" [namedField])
      ∧ Consistent plainCodec addsEmail .source (fieldedUser 2 "name")
      ∧ ¬ LeadsTo plainCodec addsEmail (fieldedUser 2 "name")
          (rebuiltUser 1 "UserV1_0_0" [namedField]) := by
  refine ⟨?_, fieldedUser_consistent 2, fun leads => ?_⟩
  · constructor
    · decide +kernel
    · decide +kernel
    · decide +kernel
    · decide +kernel
  · have plain : "email" ∉ plainCodec.identity := by decide +kernel
    have gained := (leads "email" plain).mpr (.inr (adds_addsEmail.mpr rfl))
    have missing : "email" ∉ (rebuiltUser 1 "UserV1_0_0" [namedField]).fields := by decide +kernel
    exact missing gained

end Pyverge
