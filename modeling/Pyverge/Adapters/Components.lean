import Pyverge.Runtime.Coordinator
import Pyverge.Py.Json

/-! The primitives of an MCP host as entrances into a graph: the policies they declare, the schemas
they carry, and the primitives that versions without one become.
-/

namespace Pyverge.Fastmcp

open Py (Json)

variable {V H : Type}

-----------------------------------------------------------------------------------------
-- Policies
-----------------------------------------------------------------------------------------

inductive PolicyValue where
  | text (value : String)
  | range (bounds : VersionRange)
  deriving DecidableEq

/-- One target for a kind, or targets by kind. -/
inductive Policy where
  | single (value : PolicyValue)
  | byKind (items : Py.Dict String PolicyValue)
  deriving DecidableEq

def PolicyValue.repr (printable : Char → Bool) : PolicyValue → String
  | .text value => Py.reprStr printable value
  | .range bounds => bounds.repr printable

namespace Policy

def repr (printable : Char → Bool) : Policy → String
  | .single value => value.repr printable
  | .byKind items => "\x7b" ++ ", ".intercalate (items.items.map (fun item =>
      Py.reprStr printable item.1 ++ ": " ++ item.2.repr printable)) ++ "\x7d"

/-- Equality of policies; dictionaries are equal as mappings. -/
def eq : Policy → Policy → Bool
  | .single left, .single right => left = right
  | .byKind left, .byKind right => left.sameMapping right
  | _, _ => false

/-- Python's truth of a policy: an empty text and an empty dictionary are false. -/
def truthy : Policy → Bool
  | .single (.text value) => value ≠ ""
  | .single (.range _) => true
  | .byKind items => !items.items.isEmpty

/-- `first or second` -/
def orElse (first second : Option Policy) : Option Policy :=
  match first.filter Policy.truthy with
  | some policy => some policy
  | none => second

theorem eq_iff {left right : Policy}
    : left.eq right = true
      ↔ (∃ value, left = .single value ∧ right = .single value)
        ∨ ∃ items others, left = .byKind items ∧ right = .byKind others
          ∧ ∀ kind, items.get? kind = others.get? kind := by
  cases left with
  | single value =>
      cases right with
      | single other => simp [eq, eq_comm]
      | byKind others => simp [eq]
  | byKind items =>
      cases right with
      | single other => simp [eq]
      | byKind others =>
          simp only [eq, Py.Dict.sameMapping, List.all_eq_true, List.mem_append,
            decide_eq_true_eq, reduceCtorEq, false_and, exists_false, false_or, Policy.byKind.injEq,
            exists_and_left, exists_eq_left']
          refine ⟨fun same kind => ?_, fun same kind _ => same kind⟩
          by_cases listed : kind ∈ items.keys ∨ kind ∈ others.keys
          · exact same kind listed
          · rw [not_or, ← Py.Dict.get?_eq_none, ← Py.Dict.get?_eq_none] at listed
            rw [listed.1, listed.2]

theorem eq_refl (policy : Policy) : policy.eq policy = true := by
  cases policy with
  | single value => exact eq_iff.mpr (.inl ⟨value, rfl, rfl⟩)
  | byKind items => exact eq_iff.mpr (.inr ⟨items, items, rfl, rfl, fun _ => rfl⟩)

theorem eq_symm {left right : Policy} (same : left.eq right = true) : right.eq left = true := by
  rcases eq_iff.mp same with ⟨value, rfl, rfl⟩ | ⟨items, others, rfl, rfl, agree⟩
  · exact eq_refl _
  · exact eq_iff.mpr (.inr ⟨others, items, rfl, rfl, fun kind => (agree kind).symm⟩)

theorem eq_trans {left middle right : Policy} (first : left.eq middle = true)
    (second : middle.eq right = true)
    : left.eq right = true := by
  rcases eq_iff.mp first with ⟨value, rfl, rfl⟩ | ⟨items, others, rfl, rfl, agree⟩
  · exact second
  · rcases eq_iff.mp second with ⟨value, shape, _⟩ | ⟨firsts, seconds, shape, rfl, match_⟩
    · cases shape
    · cases shape
      exact eq_iff.mpr (.inr ⟨items, seconds, rfl, rfl,
        fun kind => (agree kind).trans (match_ kind)⟩)

end Policy

-----------------------------------------------------------------------------------------
-- Entrances and virtual components
-----------------------------------------------------------------------------------------

/-- A JSON schema document. -/
abbrev Schema := Py.Dict String Json

/-- The kind and the version text of an entrance. -/
abbrev EntranceKey := String × String

/-- A versioned entry point into the application graph. -/
structure Entrance (H : Type) where
  source : String
  kind : String
  version : String
  schema : Schema
  handler : Option H
  policy : Policy
  explicit : Bool

def Entrance.key (entrance : Entrance H) : EntranceKey := (entrance.kind, entrance.version)

/-- A graph version that needs a host primitive. -/
structure VirtualComponent (H : Type) where
  kind : String
  version : String
  schema : Schema
  handler : H

def VirtualComponent.key (component : VirtualComponent H) : EntranceKey :=
  (component.kind, component.version)

/-- One family of primitives: how its components are listed on a server and read, and how a
virtual one is created there.
-/
structure ComponentKind (V C H S : Type) where
  name : String
  components : S → List C
  kind : C → String
  version : C → Option String
  policy : C → Option Policy
  schema : C → Schema
  handler : C → Option H
  materialize : VirtualComponent H → S → Except (Error V) S

/-- `entrance`: a component without a version has none, and one that has a version needs a
policy, its own or the fallback.
-/
def ComponentKind.entrance {C S : Type} (printable : Char → Bool)
    (family : ComponentKind V C H S) (component : C) (policy : Option Policy) (explicit : Bool)
    : Except (Error V) (Option (Entrance H)) :=
  match family.version component with
  | none => .ok none
  | some version =>
      let kind := family.kind component
      match Policy.orElse (family.policy component) policy with
      | none => .error (.valueError ("versioned primitive " ++ Py.reprStr printable kind
          ++ " has no policy; declare meta=\x7b'policy': ...\x7d or record one in the provider "
          ++ "policies"))
      | some resolved => .ok (some {
          source := family.name, kind, version, schema := family.schema component
          handler := family.handler component, policy := resolved, explicit })

-----------------------------------------------------------------------------------------
-- The primitives of the host
-----------------------------------------------------------------------------------------

structure PromptArgument where
  name : String
  description : Option String
  required : Bool
  deriving DecidableEq

/-- A tool, a prompt, a resource or a resource template. Each family reads the attributes that it
has; the attribute `meta` is `None` when nothing is declared.
-/
structure Component (H : Type) where
  name : String
  version : Option String
  metadata : Json
  parameters : Schema
  arguments : List PromptArgument
  uriTemplate : Option String
  uri : Option String
  fn : Option H
  run : Option H

namespace Component

/-- The keys of a range object. -/
def rangeKeys : List String := ["gte", "lt", "eq"]

def isText : Json → Bool
  | .str _ => true
  | _ => false

def text? : Json → Option String
  | .str value => some value
  | _ => none

/-- `_policy_value`: a text, or an object of texts under the keys of a range. -/
def policyValue : Json → Option PolicyValue
  | .str value => some (.text value)
  | .obj members =>
      if !members.isEmpty && members.all (fun item => rangeKeys.contains item.1)
          && members.all (fun item => isText item.2) then
        some (.range {
          gte := (Json.getMember members "gte").bind text?
          lt := (Json.getMember members "lt").bind text?
          eq := (Json.getMember members "eq").bind text? })
      else none
  | _ => none

/-- `policy`: what the metadata declares, if all of it is valid. -/
def policy (component : Component H) : Option Policy :=
  match component.metadata with
  | .obj members =>
      let declared := (Json.getMember members "policy").getD .null
      match policyValue declared with
      | some value => some (.single value)
      | none =>
          match declared with
          | .obj items =>
              (items.mapM (fun item => (policyValue item.2).map (Prod.mk item.1))).map
                (fun mapping => .byKind (Py.Dict.ofItems mapping))
          | _ => none
  | _ => none

/-- `handler` -/
def handler (component : Component H) : Option H := component.fn.or component.run

/-- The name of a resource, else its address. -/
def resourceKind (component : Component H) : String :=
  if component.name ≠ "" then component.name
  else ((component.uriTemplate.filter (· ≠ "")).or component.uri).getD "None"

/-- The arguments of a prompt as an object schema. -/
def promptSchema (component : Component H) : Schema :=
  let properties := Py.Dict.ofItems (component.arguments.map (fun argument =>
    (argument.name, Json.obj (("type", .str "string")
      :: (argument.description.filter (· ≠ "")).toList.map (fun text =>
        ("description", .str text))))))
  let required := (component.arguments.filter PromptArgument.required).map PromptArgument.name
  let document : Schema := Py.Dict.ofItems
    [("type", .str "object"), ("properties", .obj properties.items)]
  if required.isEmpty then document else document.set "required" (.arr (required.map .str))

/-- `dict(parameters) if parameters else {"type": "object"}` -/
def resourceSchema (component : Component H) : Schema :=
  if component.parameters.items.isEmpty then Py.Dict.ofItems [("type", .str "object")]
  else component.parameters

end Component

/-- The properties of a schema, which is a `.get` with an empty default. -/
def properties (schema : Schema) : List (String × Json) :=
  match schema.getD "properties" (.obj []) with
  | .obj members => members
  | _ => []

namespace VirtualComponent

/-- A component with the attributes that a virtual one sets. -/
def primitive (virtual : VirtualComponent H) : Component H where
  name := virtual.kind
  version := some virtual.version
  metadata := .null
  parameters := ∅
  arguments := []
  uriTemplate := none
  uri := none
  fn := some virtual.handler
  run := none

def tool (virtual : VirtualComponent H) : Component H :=
  { virtual.primitive with parameters := virtual.schema }

/-- The argument that a property of the schema becomes. -/
def promptArgument (virtual : VirtualComponent H) (property : String × Json) : PromptArgument where
  name := property.1
  description :=
    match property.2 with
    | .obj members => (Json.getMember members "description").bind Component.text?
    | _ => none
  required :=
    match virtual.schema.getD "required" (.arr []) with
    | .arr names => names.contains (.str property.1)
    | _ => false

def prompt (virtual : VirtualComponent H) : Component H :=
  { virtual.primitive with arguments := (properties virtual.schema).map virtual.promptArgument }

/-- `_uri_template`: the first property in the path, the others in the query. -/
def uriTemplate (printable : Char → Bool) (uriScheme : String) (virtual : VirtualComponent H)
    : Except (Error V) String :=
  match (properties virtual.schema).map Prod.fst with
  | [] => .error (.valueError ("kind " ++ Py.reprStr printable virtual.kind
      ++ " has no properties for a URI template"))
  | first :: rest =>
      let start := if uriScheme ≠ "" then uriScheme else virtual.kind ++ "/"
      let query := if rest.isEmpty then "" else "\x7b?" ++ ",".intercalate rest ++ "\x7d"
      .ok (start ++ "\x7b" ++ first ++ "\x7d" ++ query)

/-- The template of a virtual resource. -/
def template (printable : Char → Bool) (uriScheme : String) (virtual : VirtualComponent H)
    : Except (Error V) (Component H) := do
  let uriTemplate ← virtual.uriTemplate printable uriScheme
  return { virtual.primitive with parameters := virtual.schema, uriTemplate := some uriTemplate }

end VirtualComponent

/-- The families under which a server lists its primitives. -/
inductive Family where
  | tools
  | prompts
  | resources
  | templates
  deriving DecidableEq

/-- What the adapters ask of a server. -/
structure Host (V H S : Type) where
  listed : Family → S → List (Component H)
  add : Family → Component H → S → Except (Error V) S

section Kinds

variable {S : Type} (host : Host V H S)

/-- `ToolKind` -/
def toolKind : ComponentKind V (Component H) H S where
  name := "tool"
  components := host.listed .tools
  kind := Component.name
  version := Component.version
  policy := Component.policy
  schema := Component.parameters
  handler := Component.handler
  materialize := fun virtual => host.add .tools virtual.tool

/-- `PromptKind` -/
def promptKind : ComponentKind V (Component H) H S where
  name := "prompt"
  components := host.listed .prompts
  kind := Component.name
  version := Component.version
  policy := Component.policy
  schema := Component.promptSchema
  handler := Component.handler
  materialize := fun virtual => host.add .prompts virtual.prompt

/-- `ResourceKind` -/
def resourceKind (printable : Char → Bool) (uriScheme : String)
    : ComponentKind V (Component H) H S where
  name := "resource"
  components := fun server => host.listed .resources server ++ host.listed .templates server
  kind := Component.resourceKind
  version := Component.version
  policy := Component.policy
  schema := Component.resourceSchema
  handler := Component.handler
  materialize := fun virtual server => do
    host.add .templates (← virtual.template printable uriScheme) server

/-- `DEFAULT_KINDS` -/
def defaultKinds (printable : Char → Bool) : List (ComponentKind V (Component H) H S) :=
  [toolKind host, promptKind host, resourceKind host printable ""]

end Kinds

end Pyverge.Fastmcp
