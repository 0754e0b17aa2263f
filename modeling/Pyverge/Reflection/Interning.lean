import Pyverge.Reflection.Descriptions
import Pyverge.Reflection.Reconstruction

/-! The classes that an adapter remembers under their textual ids.
The first class of an id stays, also when it was met while another one was described; a node is
described from the class at hand.
-/

namespace Pyverge.Identity

open Py (Json)

variable {V C : Type}

-----------------------------------------------------------------------------------------
-- Versionable nodes
-----------------------------------------------------------------------------------------

/-- The error of a text that is no version. -/
def parseVersion [VersionValue V] (printable : Char → Bool) (text : String)
    : Except (Error V) V :=
  match VersionValue.parse text with
  | some parsed => .ok parsed
  | none => .error (.valueError ("Cannot parse version " ++ Py.reprStr printable text
      ++ ". Expected semver (e.g. '1.0.0') or ISO date (e.g. '2024-06-01')."))

/-- A version as callers give it: a text or a version value. -/
inductive GivenVersion (V : Type) where
  | text (text : String)
  | value (version : V)

def GivenVersion.parse [VersionValue V] (printable : Char → Bool)
    : GivenVersion V → Except (Error V) V
  | .text given => parseVersion printable given
  | .value version => .ok version

namespace Adapter

variable (adapter : Adapter C)

section Versionable

variable [VersionValue V] [DecidableEq V] [DecidableEq C] (calls : Calls V C)

/-- `AbstractModelAdapter.model_descriptor` -/
def modelDescriptor (handle : C) : Reading V C (ModelDescriptor V) := do
  let fields ← calls.describeFields handle
  let ref ← adapter.remember handle
  return ⟨ref, Py.Dict.ofItems (fields.items.filter (fun field =>
    field.1 ∉ adapter.codec.identity))⟩

/-- `kind or self.kind(model_cls)` -/
def givenKind (handle : C) (kind : Option String) : Reading V C String :=
  match kind.filter (fun kind => kind ≠ "") with
  | some kind => return kind
  | none => return adapter.codecKind (← calls.describeFields handle)

def givenVersion (handle : C) : Option (GivenVersion V) → Reading V C (GivenVersion V)
  | some version => return version
  | none => return .text (adapter.codecVersion (← calls.describeFields handle))

/-- `AbstractModelAdapter.versionable` -/
def versionable (handle : C) (kind : Option String) (version : Option (GivenVersion V))
    : Reading V C (VersionNode V) := do
  let descriptor ← adapter.modelDescriptor calls handle
  let kind ← adapter.givenKind calls handle kind
  let given ← adapter.givenVersion calls handle version
  let version ← Py.query (fun _ => given.parse adapter.printable)
  return {
    id := adapter.nodeId kind version
    ref := descriptor.ref
    descriptor
  }

end Versionable

/-- The names of the fields of a class outside the identity properties. -/
def fieldNames (handle : C) : List String :=
  (adapter.fields handle).keys.filter (fun name => name ∉ adapter.codec.identity)

end Adapter

-----------------------------------------------------------------------------------------
-- Reconstruction
-----------------------------------------------------------------------------------------

/-- One changed field of a diff, with the annotation and the default of an added one. -/
structure Change (C : Type) where
  status : FieldStatus
  type : Option (AnnotationExpr C)
  required : Bool
  default : Option Json

/-- What `build_model` reads of a diff. -/
structure Diffable (V C : Type) where
  sourceRef : ModelRef
  sourceVersion : V
  targetVersion : V
  fields : Py.Dict String (Change C)

namespace Diffable

def inverted (diff : Diffable V C) : Diffable V C :=
  { diff with
    fields := diff.fields.mapValues (fun change =>
      { change with status := change.status.inverted }) }

/-- The names of the fields with a status, sorted. -/
def withStatus (diff : Diffable V C) (status : FieldStatus) : List String :=
  ((diff.fields.items.filter (fun field => field.2.status = status)).map Prod.fst).insertionSort
    (fun left right => left ≤ right)

def addedFields (diff : Diffable V C) : List String := diff.withStatus .added

def removedFields (diff : Diffable V C) : List String := diff.withStatus .removed

end Diffable

/-- An added field: without a default and not required it defaults to null. -/
def Change.field (change : Change C) : Field C where
  annotation := change.type.getD .any
  default := if change.required then .required else .value (change.default.getD .null)

/-- An adapter over the Python runtime. The library makes a new class from a name and fields, which
are then the fields of the class; `made` counts the classes it has made.
-/
structure PythonAdapter (V C : Type) extends Adapter C where
  name : C → String
  createModel : (made : Nat) → String → Py.Dict String (Field C) → Except (Error V) C
  creates : ∀ made name given built, createModel made name given = .ok built → fields built = given

/-- The handles of a runtime, and how many classes were made so far. -/
structure AdapterState (C : Type) where
  handles : Py.Dict ModelRef C := ∅
  made : Nat := 0

/-- Calls on an adapter that may register a class. -/
inductive AdapterCall (V C : Type) where
  | ref (handle : C)
  | versionable (handle : C) (kind : Option String) (version : Option (GivenVersion V))
  | materialize (diff : Diffable V C)

namespace PythonAdapter

variable (adapter : PythonAdapter V C)

/-- `PythonModelRuntime.resolve` -/
def resolve (handles : Py.Dict ModelRef C) (ref : ModelRef) : Except (Error V) C :=
  match handles.get? ref with
  | some handle => .ok handle
  | none => .error (.raised "KeyError")

/-- A program over the handles as a step of the adapter. -/
def onHandles {α : Type} (program : Reading V C α) : EStateM (Error V) (AdapterState C) α :=
  Py.zoom AdapterState.handles (fun handles state => { state with handles }) id program

section Building

variable [VersionValue V]

/-- The fields that `build_model` hands to `create_model`. -/
def mergedFields (anchor : C) (diff : Diffable V C) : Py.Dict String (Field C) :=
  let own := adapter.codec.versionProperty
  let version : Field C := ⟨.simple .str, .value (.str (VersionValue.str diff.targetVersion))⟩
  let kept := (Py.Dict.ofItems [(own, version)]).update
    ((adapter.fields anchor).items.filter (fun field =>
      field.1 ≠ own ∧ field.1 ∉ diff.removedFields))
  diff.addedFields.foldl (fun fields name =>
    if name ∈ fields.keys then fields
    else fields.set name ((diff.fields.get? name).elim ⟨.any, .value .null⟩ Change.field)) kept

/-- `PythonModelRuntime.build_model` -/
def buildModel (diff : Diffable V C) (state : AdapterState C) : Except (Error V) C := do
  let anchor ← resolve state.handles diff.sourceRef
  let version := (VersionValue.str diff.targetVersion).toList.map
    (fun letter => if letter = '.' then '_' else letter)
  adapter.createModel state.made (adapter.name anchor ++ "V" ++ String.ofList version)
    (adapter.mergedFields anchor diff)

/-- The class that `materialize` makes, of the inverted diff where its source is the later one. -/
def materialized (diff : Diffable V C) (state : AdapterState C) : Except (Error V) C := do
  let backward ← versionGreater diff.sourceVersion diff.targetVersion
  adapter.buildModel (if backward then diff.inverted else diff) state

end Building

section Performing

variable [VersionValue V] [DecidableEq V] [DecidableEq C] (depth : Nat)

/-- `AbstractModelAdapter.materialize` -/
def materialize (diff : Diffable V C) : EStateM (Error V) (AdapterState C) (VersionNode V) := do
  let built ← Py.query (adapter.materialized diff)
  modify (fun state => { state with made := state.made + 1 })
  onHandles (adapter.versionable (adapter.calls depth) built none none)

/-- One call, with the node that it returns. -/
def perform : AdapterCall V C → EStateM (Error V) (AdapterState C) (Option (VersionNode V))
  | .ref handle => do
      let _ ← onHandles (adapter.remember handle)
      return none
  | .versionable handle kind version =>
      return some (← onHandles (adapter.versionable (adapter.calls depth) handle kind version))
  | .materialize diff => return some (← adapter.materialize depth diff)

/-- The state after a sequence of calls, whatever they raise. -/
def performAll (state : AdapterState C) (calls : List (AdapterCall V C)) : AdapterState C :=
  calls.foldl (fun reached call => Py.after (adapter.perform depth call) reached) state

/-- The nodes that a sequence of calls returns. -/
def returned (state : AdapterState C) : List (AdapterCall V C) → List (VersionNode V)
  | [] => []
  | call :: rest =>
      (Py.outcome (adapter.perform depth call) state).toOption.join.toList
        ++ returned (Py.after (adapter.perform depth call) state) rest

end Performing

end PythonAdapter

-----------------------------------------------------------------------------------------
-- What a node and its class should agree on
-----------------------------------------------------------------------------------------

namespace Adapter

variable (adapter : Adapter C)

def SameNames (left right : C) : Prop :=
  ∀ name, name ∈ adapter.fieldNames left ↔ name ∈ adapter.fieldNames right

def Mentions (model nested : C) : Prop := nested ∈ adapter.mentioned model

/-- The classes that describing a class may come by. -/
def Below : C → C → Prop := Relation.TransGen adapter.Mentions

/-- A class and those below it. -/
def Meets : C → C → Prop := Relation.ReflTransGen adapter.Mentions

/-- The class that has the id of another one already, or that may take it before that one does, has
the same field names.
-/
structure Unambiguous (handles : Py.Dict ModelRef C) (handle : C) : Prop where
  taken : ∀ first, handles.get? (adapter.ref handle) = some first → adapter.SameNames first handle
  free : handles.get? (adapter.ref handle) = none → ∀ other, adapter.Meets handle other →
    adapter.modelId other = adapter.modelId handle → adapter.SameNames other handle

end Adapter

namespace PythonAdapter

variable (adapter : PythonAdapter V C)

/-- The descriptor of a node has the field names of the class that its reference resolves to. -/
def Agrees (handles : Py.Dict ModelRef C) (node : VersionNode V) : Prop :=
  ∃ handle, resolve (V := V) handles node.descriptor.ref = .ok handle
    ∧ ∀ name, name ∈ node.descriptor.fields.keys ↔ name ∈ adapter.fieldNames handle

variable [VersionValue V]

/-- The id of the class that a call makes a node of is not taken by a class with other fields. -/
def Safe (state : AdapterState C) : AdapterCall V C → Prop
  | .ref _ => True
  | .versionable handle _ _ => adapter.Unambiguous state.handles handle
  | .materialize diff => ∀ built, adapter.materialized diff state = .ok built →
      adapter.Unambiguous state.handles built

/-- Every call of a sequence is safe where it is made. -/
def AllSafe [DecidableEq V] [DecidableEq C] (depth : Nat) (state : AdapterState C)
    : List (AdapterCall V C) → Prop
  | [] => True
  | call :: rest =>
      adapter.Safe state call
        ∧ AllSafe depth (Py.after (adapter.perform depth call) state) rest

end PythonAdapter

-----------------------------------------------------------------------------------------
-- What describing a class registers
-----------------------------------------------------------------------------------------

namespace Adapter

variable (adapter : Adapter C)

/-- Registered classes stay, and new ones are among those allowed, each under its own id. -/
def Grows (Allowed : C → Prop) (before after : Py.Dict ModelRef C) : Prop :=
  ∀ ref, after.get? ref = before.get? ref
    ∨ before.get? ref = none
      ∧ ∃ handle, Allowed handle ∧ ref = adapter.ref handle ∧ after.get? ref = some handle

variable {adapter} {Allowed Other : C → Prop} {before middle after : Py.Dict ModelRef C}

theorem Grows.refl : adapter.Grows Allowed before before := fun _ => .inl rfl

theorem Grows.mono (wider : ∀ handle, Allowed handle → Other handle)
    (grows : adapter.Grows Allowed before after)
    : adapter.Grows Other before after := by
  intro ref
  rcases grows ref with same | ⟨absent, handle, allowed, own, added⟩
  · exact .inl same
  · exact .inr ⟨absent, handle, wider handle allowed, own, added⟩

theorem Grows.trans (first : adapter.Grows Allowed before middle)
    (later : adapter.Grows Allowed middle after)
    : adapter.Grows Allowed before after := by
  intro ref
  rcases later ref with same | ⟨absent, added⟩
  · rw [same]
    exact first ref
  · rcases first ref with same | ⟨_, handle, _, _, present⟩
    · rw [same] at absent
      exact .inr ⟨absent, added⟩
    · rw [present] at absent
      cases absent

/-- What is registered stays. -/
theorem Grows.kept (grows : adapter.Grows Allowed before after) {ref : ModelRef} {handle : C}
    (registered : before.get? ref = some handle)
    : after.get? ref = some handle := by
  rcases grows ref with same | ⟨absent, _⟩
  · rw [same, registered]
  · rw [registered] at absent
    cases absent

theorem grows_setDefault {handle : C} (allowed : Allowed handle)
    : adapter.Grows Allowed before (before.setDefault (adapter.ref handle) handle) := by
  intro ref
  unfold Py.Dict.setDefault
  by_cases taken : before.contains (adapter.ref handle) = true
  · rw [if_pos taken]
    exact .inl rfl
  · rw [if_neg taken, Py.Dict.get?_set]
    by_cases own : ref = adapter.ref handle
    · rw [if_pos own, own]
      refine .inr ⟨?_, handle, allowed, rfl, rfl⟩
      simpa [Py.Dict.contains] using taken
    · rw [if_neg own]
      exact .inl rfl

/-- A program that registers allowed classes only, wherever it stops. -/
def Registers (adapter : Adapter C) (Allowed : C → Prop) {α : Type} (program : Reading V C α)
    : Prop :=
  ∀ start, Py.Preserves (adapter.Grows Allowed start) program

theorem Registers.mono {α : Type} {program : Reading V C α}
    (registers : adapter.Registers Allowed program)
    (wider : ∀ handle, Allowed handle → Other handle)
    : adapter.Registers Other program := by
  intro start state grown
  have own := registers state state .refl
  exact grown.trans (own.mono wider)

theorem Registers.grows {α : Type} {program : Reading V C α} {value : α}
    (registers : adapter.Registers Allowed program) (run : program before = .ok value after)
    : adapter.Grows Allowed before after := by
  have grown := registers before before .refl
  rwa [Py.after_of_ok run] at grown

theorem registers_remember {handle : C} (allowed : Allowed handle)
    : adapter.Registers Allowed (adapter.remember (V := V) handle) := by
  intro start
  refine .bind (.modify (fun state grown => ?_)) (fun _ => .pure _ _)
  exact grown.trans (grows_setDefault allowed)

/-- What the two methods register when they are called on a class. -/
structure Records (adapter : Adapter C) (calls : Calls V C) : Prop where
  describes : ∀ model, adapter.Registers (adapter.Below model) (calls.describeFields model)
  collects : ∀ model collected,
    adapter.Registers (adapter.Below model) (calls.collectReferences model collected)

section Reading

variable [VersionValue V] [DecidableEq V] [DecidableEq C] {calls : Calls V C}

omit [VersionValue V] [DecidableEq V] [DecidableEq C] in
theorem Registers.of_mentions {α : Type} {program : Reading V C α} {model nested : C}
    (registers : adapter.Registers (adapter.Below nested) program)
    (mentions : adapter.Mentions model nested)
    : adapter.Registers (adapter.Below model) program :=
  registers.mono (fun _ below => .head mentions below)

omit [VersionValue V] [DecidableEq V] [DecidableEq C] in
theorem registers_readNested (records : adapter.Records calls) (nested : C)
    : adapter.Registers (adapter.Below nested) (adapter.readNested calls nested) := by
  intro start
  refine .bind (records.describes nested start) (fun fields => .ite _ (.pure _ _) (.bind ?_
    (fun _ => .pure _ _)))
  unfold nestedVersion
  cases adapter.provider with
  | pydantic => exact .pure _ _
  | dataclass =>
      refine .tryCatch (.bind (records.describes nested start) (fun _ => .pure _ _))
        (fun error => .ite _ (.pure _ _) (.throw _ _))

theorem registers_describeFields (records : adapter.Records calls) (model : C)
    : adapter.Registers (adapter.Below model) (adapter.describeFields calls model) := by
  intro start
  rw [← Py.preserves_effect, effect_describeFields]
  refine .bind (.forM _ (fun item member => ?_)) (fun _ => .forM _ (fun nested member => ?_))
  · cases item with
    | none => exact .throw _ _
    | some handle =>
        have mentions : adapter.Mentions model handle := mem_mentioned_of_visits member
        have allowed : adapter.Below model handle := .single mentions
        have described := (records.describes handle).of_mentions mentions start
        have remembers : adapter.Registers (adapter.Below model)
            (adapter.remember (V := V) handle) := registers_remember allowed
        refine .bind (remembers start) (fun _ => ?_)
        rw [Py.effect_map, Py.preserves_effect]
        exact described
  · have reads := (registers_readNested records nested).of_mentions member start
    have collects := (records.collects nested {}).of_mentions member start
    refine .ite _ (.pure _ _) (.bind reads (fun label => ?_))
    cases label with
    | none => exact .pure _ _
    | some label =>
        dsimp only
        cases adapter.parseId (V := V) label.1 label.2 with
        | error raised => exact .pure _ _
        | ok id => exact Py.preserves_effect.mpr (.bind collects (fun _ => .pure _ _))

theorem registers_collectReferences (records : adapter.Records calls) (model : C)
    (collected : Collected V C)
    : adapter.Registers (adapter.Below model)
        (adapter.collectReferences calls model collected) := by
  intro start
  refine .ite _ (.pure _ _) (.foldlM (fun reached nested member => ?_) _)
  have reads := (registers_readNested records nested).of_mentions member start
  unfold collectModel
  refine .ite _ (.pure _ _) (.bind reads (fun label => ?_))
  cases label with
  | none => exact .pure _ _
  | some label =>
      refine .bind (.query _ _) (fun id => ?_)
      exact (records.collects nested _).of_mentions member start

/-- By induction over the stack. -/
theorem records_calls (depth : Nat) : adapter.Records (adapter.calls (V := V) depth) := by
  induction depth with
  | zero => exact ⟨fun _ _ => .throw _ _, fun _ _ _ => .throw _ _⟩
  | succ depth ih => exact ⟨registers_describeFields ih, registers_collectReferences ih⟩

end Reading

end Adapter

-----------------------------------------------------------------------------------------
-- Nodes of classes
-----------------------------------------------------------------------------------------

namespace Adapter

variable {adapter : Adapter C}

theorem Describes.keys {model : C} {fields : Py.Dict String (FieldDescriptor V)}
    (describes : adapter.Describes model fields)
    : fields.keys = (adapter.fields model).keys := by
  have same := congrArg Py.Dict.keys describes
  rwa [Py.Dict.keys_mapValues, Py.Dict.keys_mapValues] at same

theorem registered_remember {handles : Py.Dict ModelRef C} (handle : C)
    : ∃ first, (handles.setDefault (adapter.ref handle) handle).get? (adapter.ref handle)
        = some first := by
  unfold Py.Dict.setDefault
  by_cases taken : handles.contains (adapter.ref handle) = true
  · rw [if_pos taken]
    exact Option.isSome_iff_exists.mp taken
  · rw [if_neg taken]
    exact ⟨handle, Py.Dict.get?_set_self _ _ _⟩

section Nodes

variable [VersionValue V] [DecidableEq V] [DecidableEq C] {depth : Nat} {handle : C}
  {handles after : Py.Dict ModelRef C}

/-- Describing a class registers what it comes by. -/
theorem registers_described
    : adapter.Registers (adapter.Meets handle)
        ((adapter.calls (V := V) depth).describeFields handle) :=
  ((records_calls depth).describes handle).mono (fun _ => Relation.TransGen.to_reflTransGen)

theorem registers_modelDescriptor
    : adapter.Registers (adapter.Meets handle)
        (adapter.modelDescriptor (adapter.calls (V := V) depth) handle) := by
  intro start
  have remembers : adapter.Registers (adapter.Meets handle) (adapter.remember (V := V) handle) :=
    registers_remember .refl
  exact .bind (registers_described start) (fun _ => .bind (remembers start) (fun _ => .pure _ _))

/-- A descriptor has the field names of its class, and its reference is registered. -/
theorem modelDescriptor_ok {descriptor : ModelDescriptor V}
    (run : adapter.modelDescriptor (adapter.calls depth) handle handles = .ok descriptor after)
    : descriptor.ref = adapter.ref handle
      ∧ (∃ first, after.get? (adapter.ref handle) = some first)
      ∧ descriptor.fields.keys = adapter.fieldNames handle := by
  obtain ⟨fields, middle, described, later⟩ := Py.bind_ok.mp run
  obtain ⟨ref, reached, remembered, ended⟩ := Py.bind_ok.mp later
  obtain ⟨rfl, rfl⟩ := EStateM.Result.ok.inj ended
  obtain ⟨rfl, rfl⟩ := EStateM.Result.ok.inj remembered
  refine ⟨rfl, registered_remember handle, ?_⟩
  have nodup : ((fields.items.filter (fun field => field.1 ∉ adapter.codec.identity)).map
      Prod.fst).Nodup := fields.nodup.sublist (List.filter_sublist.map _)
  have names := (faithful_calls depth handle handles fields middle described).keys
  rw [Py.Dict.keys, Py.Dict.items_ofItems nodup, fieldNames, ← names, Py.Dict.keys,
    List.filter_map]
  rfl

variable {kind : Option String} {version : Option (GivenVersion V)}

theorem registers_givenKind (kind : Option String)
    : adapter.Registers (adapter.Meets handle)
        (adapter.givenKind (adapter.calls (V := V) depth) handle kind) := by
  intro start
  unfold givenKind
  cases kind.filter (fun kind => kind ≠ "") with
  | none => exact .bind (registers_described start) (fun _ => .pure _ _)
  | some kind => exact .pure _ _

theorem registers_givenVersion (version : Option (GivenVersion V))
    : adapter.Registers (adapter.Meets handle)
        (adapter.givenVersion (adapter.calls depth) handle version) := by
  intro start
  cases version with
  | none => exact .bind (registers_described start) (fun _ => .pure _ _)
  | some version => exact .pure _ _

theorem registers_versionable (kind : Option String) (version : Option (GivenVersion V))
    : adapter.Registers (adapter.Meets handle)
        (adapter.versionable (adapter.calls depth) handle kind version) := by
  intro start
  refine .bind (registers_modelDescriptor start) (fun descriptor => ?_)
  exact .bind (registers_givenKind kind start) (fun kind =>
    .bind (registers_givenVersion version start) (fun given =>
      .bind (.query _ _) (fun _ => .pure _ _)))

variable {kind : Option String} {version : Option (GivenVersion V)}

/-- A node is described from its class, and its reference is registered. -/
theorem versionable_ok {node : VersionNode V}
    (run : adapter.versionable (adapter.calls depth) handle kind version handles = .ok node after)
    : node.descriptor.ref = adapter.ref handle
      ∧ (∃ first, after.get? (adapter.ref handle) = some first)
      ∧ node.descriptor.fields.keys = adapter.fieldNames handle := by
  obtain ⟨descriptor, middle, modeled, later⟩ := Py.bind_ok.mp run
  obtain ⟨ref, ⟨first, registered⟩, names⟩ := modelDescriptor_ok modeled
  obtain ⟨kind, second, readKind, later⟩ := Py.bind_ok.mp later
  obtain ⟨given, third, readVersion, later⟩ := Py.bind_ok.mp later
  obtain ⟨version, fourth, parsed, ended⟩ := Py.bind_ok.mp later
  obtain ⟨rfl, rfl⟩ := EStateM.Result.ok.inj ended
  obtain ⟨_, rfl⟩ := Py.query_ok.mp parsed
  have kindGrows := (registers_givenKind _).grows readKind
  have versionGrows := (registers_givenVersion _).grows readVersion
  exact ⟨ref, ⟨first, (kindGrows.trans versionGrows).kept registered⟩, names⟩

/-- A node of an unambiguous class agrees with the class that its reference resolves to. -/
theorem agrees_of_versionable (adapter : PythonAdapter V C) {node : VersionNode V}
    (unambiguous : adapter.Unambiguous handles handle)
    (run : adapter.versionable (adapter.calls depth) handle kind version handles = .ok node after)
    : adapter.Agrees after node := by
  obtain ⟨ref, ⟨first, registered⟩, names⟩ := versionable_ok run
  have grows := (registers_versionable kind version).grows run
  have same : adapter.SameNames first handle := by
    rcases grows (adapter.ref handle) with before | ⟨absent, other, meets, own, added⟩
    · rw [registered] at before
      exact unambiguous.taken first before.symm
    · rw [registered] at added
      obtain rfl := Option.some.inj added
      have ids := congrArg ModelRef.entityId own
      exact unambiguous.free absent first meets ids.symm
  refine ⟨first, ?_, fun name => ?_⟩
  · rw [ref, PythonAdapter.resolve, registered]
  · rw [names]
    exact (same name).symm

end Nodes

end Adapter

-----------------------------------------------------------------------------------------
-- Sequences of calls
-----------------------------------------------------------------------------------------

namespace PythonAdapter

variable {adapter : PythonAdapter V C}

/-- What a node agrees with stays registered. -/
theorem Agrees.mono {Allowed : C → Prop} {before after : Py.Dict ModelRef C} {node : VersionNode V}
    (agrees : adapter.Agrees before node) (grows : adapter.Grows Allowed before after)
    : adapter.Agrees after node := by
  obtain ⟨handle, resolved, names⟩ := agrees
  have registered : before.get? node.descriptor.ref = some handle := by
    unfold resolve at resolved
    cases found : before.get? node.descriptor.ref with
    | none =>
        rw [found] at resolved
        cases resolved
    | some other =>
        rw [found] at resolved
        rw [Except.ok.inj resolved]
  refine ⟨handle, ?_, names⟩
  rw [resolve, grows.kept registered]

theorem onHandles_ok {α : Type} {program : Reading V C α} {state final : AdapterState C} {value : α}
    (run : onHandles program state = .ok value final)
    : program state.handles = .ok value final.handles := by
  unfold onHandles Py.zoom at run
  cases ran : program state.handles with
  | error raised reached =>
      rw [ran] at run
      cases run
  | ok result reached =>
      rw [ran] at run
      obtain ⟨rfl, rfl⟩ := EStateM.Result.ok.inj run
      rfl

/-- A program over the handles lets them grow as it does by itself. -/
theorem preserves_onHandles {α : Type} {program : Reading V C α} {Allowed : C → Prop}
    (registers : adapter.Registers Allowed program) (start : Py.Dict ModelRef C)
    : Py.Preserves (fun state : AdapterState C => adapter.Grows (fun _ => True) start state.handles)
        (onHandles program) := by
  intro state grown
  have grows : adapter.Grows (fun _ => True) state.handles (Py.after program state.handles) :=
    (registers state.handles state.handles .refl).mono (fun _ _ => trivial)
  unfold Py.after at grows
  unfold Py.after onHandles Py.zoom
  cases ran : program state.handles with
  | error raised reached =>
      rw [ran] at grows
      exact grown.trans grows
  | ok result reached =>
      rw [ran] at grows
      exact grown.trans grows

section Runs

variable [VersionValue V] [DecidableEq V] [DecidableEq C] {depth : Nat}

/-- Every call lets the handles grow, whether it raises or not. -/
theorem perform_grows (call : AdapterCall V C) (state : AdapterState C)
    : adapter.Grows (fun _ => True) state.handles
        (Py.after (adapter.perform depth call) state).handles := by
  have kept : Py.Preserves (fun reached : AdapterState C =>
      adapter.Grows (fun _ => True) state.handles reached.handles)
      (adapter.perform depth call) := by
    cases call with
    | ref handle =>
        have remembers : adapter.Registers (adapter.Meets handle)
            (adapter.remember (V := V) handle) := Adapter.registers_remember .refl
        exact .bind (preserves_onHandles remembers _) (fun _ => .pure _ _)
    | versionable handle kind version =>
        exact .bind (preserves_onHandles (Adapter.registers_versionable kind version) _)
          (fun _ => .pure _ _)
    | materialize diff =>
        refine .bind (.bind (.query _ _) (fun built => .bind (.modify (fun _ grown => grown))
          (fun _ => ?_))) (fun _ => .pure _ _)
        exact preserves_onHandles (Adapter.registers_versionable none none) _
  exact kept state .refl

theorem performAll_grows (calls : List (AdapterCall V C)) (state : AdapterState C)
    : adapter.Grows (fun _ => True) state.handles
        (adapter.performAll depth state calls).handles := by
  induction calls generalizing state with
  | nil => exact .refl
  | cons call rest ih => exact (perform_grows call state).trans (ih _)

/-- A safe call returns a node that agrees with its class. -/
theorem perform_agrees {call : AdapterCall V C} {state final : AdapterState C}
    {node : VersionNode V} (safe : adapter.Safe state call)
    (run : adapter.perform depth call state = .ok (some node) final)
    : adapter.Agrees final.handles node := by
  cases call with
  | ref handle =>
      obtain ⟨_, middle, _, ended⟩ := Py.bind_ok.mp run
      cases (EStateM.Result.ok.inj ended).1
  | versionable handle kind version =>
      obtain ⟨made, middle, described, ended⟩ := Py.bind_ok.mp run
      obtain ⟨same, rfl⟩ := EStateM.Result.ok.inj ended
      obtain rfl := Option.some.inj same
      exact Adapter.agrees_of_versionable adapter safe (onHandles_ok described)
  | materialize diff =>
      obtain ⟨made, middle, materialized, ended⟩ := Py.bind_ok.mp run
      obtain ⟨same, rfl⟩ := EStateM.Result.ok.inj ended
      obtain rfl := Option.some.inj same
      obtain ⟨built, first, made, later⟩ := Py.bind_ok.mp materialized
      obtain ⟨created, rfl⟩ := Py.query_ok.mp made
      have described := onHandles_ok (Py.modify_bind_ok.mp later)
      exact Adapter.agrees_of_versionable adapter (safe built created) described

/-- In every sequence of calls on an adapter whose calls are safe, every node that is returned has
the field names of the class that its reference resolves to, then and later.
-/
theorem returned_agree {state : AdapterState C} {calls : List (AdapterCall V C)}
    (safe : adapter.AllSafe depth state calls)
    : ∀ node ∈ adapter.returned depth state calls,
        adapter.Agrees (adapter.performAll depth state calls).handles node := by
  induction calls generalizing state with
  | nil => simp [returned]
  | cons call rest ih =>
      intro node member
      rcases List.mem_append.mp member with own | later
      · have made : Py.outcome (adapter.perform depth call) state = .ok (some node) := by
          cases ran : Py.outcome (adapter.perform depth call) state with
          | error raised => simp [ran, Except.toOption] at own
          | ok result => simpa [ran, Except.toOption] using own
        cases ran : adapter.perform depth call state with
        | error raised reached => simp [Py.outcome, ran] at made
        | ok result reached =>
            obtain rfl : result = some node := by simpa [Py.outcome, ran] using made
            have agrees := perform_agrees safe.1 ran
            have grows := @performAll_grows _ _ adapter _ _ _ depth rest
              (Py.after (adapter.perform depth call) state)
            rw [Py.after_of_ok ran] at grows
            change adapter.Agrees (adapter.performAll depth (Py.after _ state) rest).handles node
            rw [Py.after_of_ok ran]
            exact agrees.mono grows
      · exact ih safe.2 node later

end Runs

end PythonAdapter

-----------------------------------------------------------------------------------------
-- Classes with simple fields
-----------------------------------------------------------------------------------------

/-- A class whose fields have simple types. -/
structure SimpleClass where
  name : String
  modelId : String
  fields : Py.Dict String (SimpleType × FieldDefault)
  deriving DecidableEq

def SimpleType.field (declared : SimpleType × FieldDefault) : Field SimpleClass :=
  ⟨.simple declared.1, declared.2⟩

/-- The simple type of a field, if it has one. -/
def Field.simple? (field : Field SimpleClass) : Option SimpleType :=
  match field.annotation with
  | .simple type => some type
  | _ => none

theorem Field.simple?_eq_some {field : Field SimpleClass} {type : SimpleType}
    (simple : field.simple? = some type) : field = ⟨.simple type, field.default⟩ := by
  obtain ⟨declared, default⟩ := field
  cases declared with
  | simple own =>
      obtain rfl := Option.some.inj simple
      rfl
  | _ => cases simple

/-- Makes classes of simple fields and refuses all others. -/
def createSimple (name : String) (given : Py.Dict String (Field SimpleClass))
    : Except (Error Release) SimpleClass :=
  if given.values.all (fun field => field.simple?.isSome) then
    .ok ⟨name, "pyverge.schemas.runtime." ++ name,
      given.mapValues (fun field => (field.simple?.getD .str, field.default))⟩
  else .error (.raised "PydanticUserError")

theorem createSimple_creates {name : String} {given : Py.Dict String (Field SimpleClass)}
    {built : SimpleClass} (made : createSimple name given = .ok built)
    : built.fields.mapValues SimpleType.field = given := by
  unfold createSimple at made
  by_cases simple : given.values.all (fun field => field.simple?.isSome) = true
  · rw [if_pos simple] at made
    obtain rfl := Except.ok.inj made
    apply Py.Dict.ext
    simp only [Py.Dict.mapValues, List.map_map]
    conv_rhs => rw [← List.map_id given.items]
    refine List.map_congr_left (fun item member => ?_)
    have told := List.all_eq_true.mp simple item.2 (List.mem_map_of_mem member)
    obtain ⟨type, own⟩ := Option.isSome_iff_exists.mp told
    simp only [Function.comp_apply, SimpleType.field, own, Option.getD_some, id_eq]
    rw [← Field.simple?_eq_some own]
  · rw [if_neg simple] at made
    cases made

def simpleAdapter : PythonAdapter Release SimpleClass where
  provider := .pydantic
  codec := plainCodec
  printable := fun _ => true
  fields := fun handle => handle.fields.mapValues SimpleType.field
  modelId := SimpleClass.modelId
  produced := fun _ => .null
  name := SimpleClass.name
  createModel := fun _ => createSimple
  creates := fun _ _ _ _ => createSimple_creates

/-- A class of users with the names of its text fields. -/
def localUser (version : String) (names : List String) : SimpleClass :=
  ⟨"User", "app.User", .ofItems ([("version", (.str, .value (.str version))),
    ("kind", (.str, .value (.str "User")))] ++ names.map (fun name => (name, (.str, .required))))⟩

/-- The diff that adds an address to users. -/
def addsAddress : Diffable Release SimpleClass where
  sourceRef := simpleAdapter.ref (localUser "1.0.0" ["name"])
  sourceVersion := ⟨1, 0, 0⟩
  targetVersion := ⟨2, 0, 0⟩
  fields := .ofItems [("address", ⟨.added, some (.simple .str), true, none⟩)]

/-- Classes of simple fields mention no others. -/
theorem mentioned_simpleAdapter (handle : SimpleClass) : simpleAdapter.mentioned handle = [] := by
  rw [Adapter.mentioned, List.flatMap_eq_nil_iff]
  intro field member
  obtain ⟨item, listed, rfl⟩ := List.mem_map.mp member
  obtain ⟨own, _, rfl⟩ := List.mem_map.mp listed
  rfl

/-- What is to be looked at where no class mentions another one. -/
def alike (handles : Py.Dict ModelRef SimpleClass) (handle : SimpleClass) : Bool :=
  (handles.get? (simpleAdapter.ref handle)).all (fun first =>
    simpleAdapter.fieldNames first = simpleAdapter.fieldNames handle)

theorem unambiguous_of_alike {handles : Py.Dict ModelRef SimpleClass} {handle : SimpleClass}
    (same : alike handles handle = true)
    : simpleAdapter.Unambiguous handles handle where
  taken first registered name := by
    have names : simpleAdapter.fieldNames first = simpleAdapter.fieldNames handle := by
      simpa [alike, registered] using same
    rw [names]
  free _ other meets _ name := by
    rcases Relation.ReflTransGen.cases_head meets with rfl | ⟨nested, mentions, _⟩
    · rfl
    · rw [Adapter.Mentions, mentioned_simpleAdapter] at mentions
      cases mentions

/-- A user is made a node of, registered once more and given an address. -/
def userCalls : List (AdapterCall Release SimpleClass) := [
  .versionable (localUser "1.0.0" ["name"]) none none,
  .ref (localUser "1.0.0" ["name"]),
  .materialize addsAddress]

/-- Witness: both nodes of the user agree with their classes. -/
theorem returned_userCalls
    : (simpleAdapter.returned 3 {} userCalls).map (fun node => node.descriptor.fields.keys)
        = [["name"], ["name", "address"]]
      ∧ ∀ node ∈ simpleAdapter.returned 3 {} userCalls,
          simpleAdapter.Agrees (simpleAdapter.performAll 3 {} userCalls).handles node := by
  refine ⟨by decide +kernel, PythonAdapter.returned_agree ⟨?_, trivial, ?_, trivial⟩⟩
  · apply unambiguous_of_alike
    decide +kernel
  · intro built made
    have each : (simpleAdapter.materialized addsAddress (simpleAdapter.performAll 3 {}
        (userCalls.take 2))).toOption.all (fun built =>
          alike (simpleAdapter.performAll 3 {} (userCalls.take 2)).handles built) = true := by
      decide +kernel
    have reached : simpleAdapter.materialized addsAddress (simpleAdapter.performAll 3 {}
        (userCalls.take 2)) = .ok built := made
    rw [reached] at each
    exact unambiguous_of_alike each

/-- Two local classes of one name are made nodes of. -/
def localCalls : List (AdapterCall Release SimpleClass) := [
  .versionable (localUser "1.0.0" ["name"]) none none,
  .versionable (localUser "2.0.0" ["name", "address"]) none none]

/-- Counterexample: the node of the second class has an address, and the class that its reference
resolves to has none.
-/
theorem not_returned_localCalls
    : ¬ ∀ (adapter : PythonAdapter Release SimpleClass) (depth : Nat)
        (calls : List (AdapterCall Release SimpleClass)),
        ∀ node ∈ adapter.returned depth {} calls,
          adapter.Agrees (adapter.performAll depth {} calls).handles node := by
  intro claim
  have shown : (simpleAdapter.returned 3 {} localCalls).map (fun node =>
        (node.descriptor.fields.keys,
          (simpleAdapter.performAll 3 {} localCalls).handles.get? node.descriptor.ref))
      = [(["name"], some (localUser "1.0.0" ["name"])),
        (["name", "address"], some (localUser "1.0.0" ["name"]))] := by
    decide +kernel
  have second : (["name", "address"], some (localUser "1.0.0" ["name"]))
      ∈ [(["name"], some (localUser "1.0.0" ["name"])),
        (["name", "address"], some (localUser "1.0.0" ["name"]))] :=
    List.mem_cons_of_mem _ List.mem_cons_self
  rw [← shown] at second
  obtain ⟨node, member, same⟩ := List.mem_map.mp second
  obtain ⟨names, registered⟩ := Prod.mk.inj same
  obtain ⟨handle, resolved, agree⟩ := claim simpleAdapter 3 localCalls node member
  rw [PythonAdapter.resolve, registered] at resolved
  obtain rfl := Except.ok.inj resolved
  have absent : "address" ∉ simpleAdapter.fieldNames (localUser "1.0.0" ["name"]) := by
    decide +kernel
  apply absent
  rw [← agree, names]
  exact List.mem_cons_of_mem _ List.mem_cons_self

end Pyverge.Identity
