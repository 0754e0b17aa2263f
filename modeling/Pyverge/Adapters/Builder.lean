import Pyverge.Adapters.Components
import Pyverge.Runtime.SharedBindings

/-! The provider of an MCP host: it indexes the versioned components of a server as entrances into
the graph and creates components for the versions that have none.
The builder writes to the entrance index before it registers a version, and marks a version as
projected before the server has it.
-/

namespace Pyverge.Fastmcp

open Py (Json)

variable {V M F K H C S : Type}

-----------------------------------------------------------------------------------------
-- Collaborators
-----------------------------------------------------------------------------------------

/-- What the builder asks of the schema adapter. The descriptor of a document comes with the kind
that the generated model declares.
-/
structure GraphAdapter (V : Type) where
  nameSpace : String
  named : ¬ nameSpace = ""
  kindProperty : String
  versionProperty : String
  describe : Schema → Except (Error V) (ModelDescriptor V × String)
  schemaOf : ModelRef → Except (Error V) (Option Schema)

/-- The identity of a version in the namespace of the adapter. -/
def GraphAdapter.nodeId (adapter : GraphAdapter V) (kind : String) (version : V) : NodeId V where
  nameSpace := adapter.nameSpace
  kind := kind
  version := version
  named := adapter.named

/-- What a provider is configured with. The delegate converges a payload of a kind and a version to
a target and calls the handler with it.
-/
structure ProviderSetup (V M F K H C S : Type) where
  manager : ManagerSetup V M F K
  adapter : GraphAdapter V
  printable : Char → Bool
  kinds : List (ComponentKind V C H S)
  fallbacks : Py.Dict String Policy
  delegate : String → String → Py.Dict String String → H → H
  hooks : List K
  virtualVersions : Bool
  transform : S → S

/-- The provider, the stores of its manager and the server that it is attached to. -/
structure Provider (V F K H S : Type) where
  stores : ManagerStores V F K
  server : S
  entrances : Py.Dict EntranceKey (Entrance H)
  projected : List EntranceKey
  hooked : Bool
  transformed : Bool

abbrev ProviderM (V F K H S : Type) := EStateM (Error V) (Provider V F K H S)

namespace Provider

variable (provider : Provider V F K H S)

def registry : Registry V := provider.stores.registry

def entrancesOf (kind : String) : List (Entrance H) :=
  provider.entrances.values.filter (fun entrance => entrance.kind = kind)

/-- Whether a version has an entrance or was projected. -/
def covers (key : EntranceKey) : Bool :=
  provider.entrances.contains key || provider.projected.contains key

/-- `policy_for` -/
def policyFor (printable : Char → Bool) (kind : String) : Except (Error V) (Option Policy) :=
  match (provider.entrancesOf kind).map Entrance.policy with
  | [] => .ok none
  | first :: rest =>
      if rest.any (fun policy => !policy.eq first) then
        .error (.valueError ("kind " ++ Py.reprStr printable kind
          ++ " declares conflicting policies ["
          ++ ", ".intercalate ((first :: rest).map (Policy.repr printable))
          ++ "]; a kind converges to one target"))
      else .ok (some first)

variable [VersionValue V]

/-- `_versions_for` -/
def versionsFor (kind : String) : List String :=
  (provider.registry.kindVersions kind).map (fun node => VersionValue.str node.id.version)

/-- `_resolve_target` -/
def resolveTarget (printable : Char → Bool) (kind : String) (policy : PolicyValue)
    : Except (Error V) String := do
  let versions := provider.versionsFor kind
  match policy with
  | .range bounds =>
      let matched ← versions.mapM (fun version => do
        bounds.matches printable (← parseVersion (V := V) printable version))
      match ((versions.zip matched).filter Prod.snd).getLast? with
      | some item => return item.1
      | none => throw (.valueError ("no version of kind " ++ Py.reprStr printable kind
          ++ " matches range " ++ bounds.repr printable))
  | .text value =>
      if value ≠ "latest" ∧ value ≠ "earliest" then return value
      match versions.getLast?, versions.head? with
      | some last, some first => return if value = "latest" then last else first
      | _, _ => throw (.valueError ("no registered versions for kind "
          ++ Py.reprStr printable kind))

/-- `_policy_mapping`: the targets by kind. The star is resolved for the kind itself, and serves it
if nothing else does.
-/
def policyMapping (printable : Char → Bool) (kind : String) (policy : Policy)
    : Except (Error V) (Py.Dict String String) :=
  match policy with
  | .single value => do
      return Py.Dict.ofItems [(kind, ← provider.resolveTarget printable kind value)]
  | .byKind items => do
      let targets ← items.items.mapM (fun item => do
        let target ← provider.resolveTarget printable (if item.1 = "*" then kind else item.1) item.2
        return (item.1, target))
      let mapping := Py.Dict.ofItems targets
      return mapping.setDefault kind (mapping.getD "*" "latest")

/-- `_anchor_handler`: the handler of the target version, else that of the latest version with
one.
-/
def anchorHandler (printable : Char → Bool) (kind : String) (entrances : List (Entrance H))
    (target : String) : Except (Error V) H :=
  let handlers := Py.Dict.ofItems (entrances.filterMap (fun entrance =>
    entrance.handler.map (Prod.mk entrance.version)))
  match (target :: (provider.versionsFor kind).reverse).findSome? handlers.get? with
  | some handler => .ok handler
  | none => .error (.valueError ("no physical handler for kind " ++ Py.reprStr printable kind))

end Provider

/-- Drop the identity properties from a schema. -/
def GraphAdapter.withoutIdentity (adapter : GraphAdapter V) (schema : Schema) : Schema :=
  schema.set "properties" (.obj ((properties schema).filter (fun property =>
    property.1 ≠ adapter.kindProperty ∧ property.1 ≠ adapter.versionProperty)))

/-- The document with the identity properties that it lacks. -/
def GraphAdapter.prepared (adapter : GraphAdapter V) (document : Schema) (kind version : String)
    : Schema :=
  let identity (value : String) : Json := .obj [("type", .str "string"), ("default", .str value)]
  let withKind := (Py.Dict.ofItems (properties document)).setDefault adapter.kindProperty
    (identity kind)
  document.set "properties" (.obj (withKind.setDefault adapter.versionProperty
    (identity version)).items)

namespace ProviderSetup

variable (setup : ProviderSetup V M F K H C S)

/-- `versionable_from_schema` -/
def versionableFromSchema [VersionValue V] (entrance : Entrance H)
    : Except (Error V) (VersionNode V) := do
  let (descriptor, modelKind) ← setup.adapter.describe
    (setup.adapter.prepared entrance.schema entrance.kind entrance.version)
  let version ← parseVersion setup.printable entrance.version
  return {
    id := setup.adapter.nodeId (if entrance.kind = "" then modelKind else entrance.kind) version
    descriptor := descriptor }

/-- `_source`: of two families with one name the later one. Virtual components look theirs up
directly, which would raise a `KeyError`; but entrances only ever name families that are there.
-/
def source (name : String) : Except (Error V) (ComponentKind V C H S) :=
  match (Py.Dict.indexBy ComponentKind.name setup.kinds).get? name with
  | some family => .ok family
  | none => .error (.valueError ("no component kind named " ++ Py.reprStr setup.printable name
      ++ "; pass one through kinds="))

/-- The policy of a component that declares none. -/
def fallback (kind : String) (explicit : Bool) : Option Policy :=
  match Policy.orElse (setup.fallbacks.get? kind) (setup.fallbacks.get? "*") with
  | some policy => some policy
  | none => if explicit then some (.single (.text "latest")) else none

end ProviderSetup

-----------------------------------------------------------------------------------------
-- Indexing
-----------------------------------------------------------------------------------------

namespace Provider

section Programs

variable [DecidableEq V] [VersionValue V] (setup : ProviderSetup V M F K H C S)

/-- A program of the manager; the provider stays. -/
def onStores {α : Type} (program : ManagerM V F K α) : ProviderM V F K H S α :=
  Py.zoom Provider.stores (fun stores provider => { provider with stores }) id program

/-- `_store` -/
def storeEntrance (entrance : Entrance H) : ProviderM V F K H S PUnit := do
  match ← Py.query (fun provider => provider.policyFor setup.printable entrance.kind) with
  | some known =>
      if !known.eq entrance.policy then
        throw (.valueError ("kind " ++ Py.reprStr setup.printable entrance.kind
          ++ " declares conflicting policies " ++ known.repr setup.printable ++ " and "
          ++ entrance.policy.repr setup.printable ++ "; a kind converges to one target"))
  | none => pure ()
  modify (fun provider =>
    { provider with entrances := provider.entrances.set entrance.key entrance })

/-- `_register` -/
def register (entrance : Entrance H) : ProviderM V F K H S PUnit := do
  let version ← Py.query (fun _ => setup.versionableFromSchema entrance)
  onStores (Manager.onRegistry (do
    let _ ← Registry.reconcile setup.manager.config (.versionNode version)))

/-- `ComponentBuilder.add` -/
def add (component : C) (kindName : String) (explicit : Bool) : ProviderM V F K H S PUnit := do
  let family ← Py.query (fun _ => setup.source kindName)
  let fallback := setup.fallback (family.kind component) explicit
  match ← Py.query (fun _ => family.entrance setup.printable component fallback explicit) with
  | none => pure ()
  | some entrance =>
      storeEntrance setup entrance
      register setup entrance

/-- One component of the server: it is passed over if it has no version or is already covered. -/
def syncComponent (family : ComponentKind V C H S) (component : C) : ProviderM V F K H S PUnit := do
  match family.version component with
  | none => pure ()
  | some version =>
      let covered ← Py.query (fun provider =>
        .ok (provider.covers (family.kind component, version)))
      if covered then pure ()
      else add setup component family.name false

/-- `sync` -/
def sync : ProviderM V F K H S PUnit := do
  modify (fun provider => { provider with
    entrances := Py.Dict.ofItems (provider.entrances.items.filter (fun item => item.2.explicit)) })
  setup.kinds.forM (fun family => do
    let components ← Py.query (fun provider => .ok (family.components provider.server))
    components.forM (syncComponent setup family))

-----------------------------------------------------------------------------------------
-- Virtual components
-----------------------------------------------------------------------------------------

/-- One registered version of an indexed kind; a version is marked as projected before its
component is created.
-/
def projectVersion (source : ComponentKind V C H S) (kind : String)
    (mapping : Py.Dict String String) (handler : H) (version : String)
    : ProviderM V F K H S PUnit := do
  if ← Py.query (fun provider => .ok (provider.covers (kind, version))) then return
  let parsed ← Py.query (fun _ => parseVersion (V := V) setup.printable version)
  let node ← Py.query (fun provider =>
    provider.registry.getModel (setup.adapter.nodeId kind parsed))
  match ← Py.query (fun _ => setup.adapter.schemaOf node.modelref) with
  | none => pure ()
  | some schema =>
      modify (fun provider => { provider with projected := provider.projected ++ [(kind, version)] })
      let server ← Py.query (fun provider => source.materialize {
        kind, version, schema := setup.adapter.withoutIdentity schema
        handler := setup.delegate kind version mapping handler } provider.server)
      modify (fun provider => { provider with server })

/-- The versions of one indexed kind. -/
def projectKind (kind : String) (entrances : List (Entrance H)) : ProviderM V F K H S PUnit := do
  match ← Py.query (fun provider => provider.policyFor setup.printable kind) with
  | none => pure ()
  | some policy =>
      let source ← Py.query (fun _ => match entrances.head? with
        | some entrance => setup.source entrance.source
        | none => .error (.raised "IndexError"))
      let mapping ← Py.query (fun provider => provider.policyMapping setup.printable kind policy)
      let handler ← Py.query (fun provider =>
        provider.anchorHandler setup.printable kind entrances (mapping.getD kind ""))
      let versions ← Py.query (fun provider => .ok (provider.versionsFor kind))
      versions.forM (projectVersion setup source kind mapping handler)

/-- Each virtual component is created as soon as the generator yields it. -/
def materializeVirtuals : ProviderM V F K H S PUnit := do
  let groups ← Py.query (fun provider =>
    .ok (Py.Dict.groupBy Entrance.kind provider.entrances.values))
  groups.items.forM (fun group => projectKind setup group.1 group.2)

/-- `_attach_hooks` -/
def attachHooks : ProviderM V F K H S PUnit :=
  if setup.hooks.isEmpty then pure () else onStores (Manager.attachHooks setup.manager setup.hooks)

/-- The part of `enrich` that runs until it has returned once. -/
def hookOnce : ProviderM V F K H S PUnit := do
  let hooked ← Py.query (fun provider => .ok provider.hooked)
  if hooked then pure ()
  else do
    attachHooks setup
    modify (fun provider => { provider with hooked := true })

/-- The part of `enrich` that runs once. -/
def transformOnce : ProviderM V F K H S PUnit := do
  let transformed ← Py.query (fun provider => .ok provider.transformed)
  if transformed then pure ()
  else modify (fun provider =>
    { provider with server := setup.transform provider.server, transformed := true })

/-- Versions are projected only by a provider that is asked to. -/
def materializeEnabled : ProviderM V F K H S PUnit :=
  if setup.virtualVersions then materializeVirtuals setup else pure ()

/-- `enrich` -/
def enrich : ProviderM V F K H S PUnit := do
  materializeEnabled setup
  hookOnce setup
  transformOnce setup

/-- A call of the provider: a component is registered on it, or the server is synchronized or
enriched.
-/
inductive Call (C : Type) where
  | add (component : C) (kindName : String)
  | sync
  | enrich

def Call.run : Call C → ProviderM V F K H S PUnit
  | .add component kindName => Provider.add setup component kindName true
  | .sync => Provider.sync setup
  | .enrich => Provider.enrich setup

end Programs

end Provider

-----------------------------------------------------------------------------------------
-- A small server
-----------------------------------------------------------------------------------------

/-- A server that lists its primitives in the order in which they were added. -/
structure Listings (H : Type) where
  tools : List (Component H)
  prompts : List (Component H)
  resources : List (Component H)
  templates : List (Component H)

def listingHost : Host V H (Listings H) where
  listed
    | .tools, server => server.tools
    | .prompts, server => server.prompts
    | .resources, server => server.resources
    | .templates, server => server.templates
  add
    | .tools, component, server => .ok { server with tools := server.tools ++ [component] }
    | .prompts, component, server => .ok { server with prompts := server.prompts ++ [component] }
    | .resources, component, server =>
        .ok { server with resources := server.resources ++ [component] }
    | .templates, component, server =>
        .ok { server with templates := server.templates ++ [component] }

/-- A tool for a release of `User` with a policy of its own. -/
def userTool (version policy : String) : Component String where
  name := "User"
  version := some version
  metadata := .obj [("policy", .str policy)]
  parameters := ∅
  arguments := []
  uriTemplate := none
  uri := none
  fn := some ("handle " ++ version)
  run := none

/-- A provider for releases of `User` without fields, with a hook and virtual versions. -/
def userProvider : ProviderSetup Release Unit Unit Unit String (Component String)
    (Listings String) where
  manager := userSetup
  adapter := {
    nameSpace := "default"
    named := userEdge.named
    kindProperty := "kind"
    versionProperty := "version"
    describe := fun _ => .ok (⟨⟨"app", "Reflected"⟩, ∅⟩, "User")
    schemaOf := fun _ => .ok (some ∅) }
  printable := fun _ => true
  kinds := defaultKinds listingHost (fun _ => true)
  fallbacks := ∅
  delegate := fun kind version _ handler => kind ++ "@" ++ version ++ ": " ++ handler
  hooks := [()]
  virtualVersions := true
  transform := id

/-- The provider before its first call, on a registry with one release and a server with a tool for
the next one.
-/
def userServer : Provider Release Unit Unit String (Listings String) where
  stores := {
    registry := Registry.runAll plainConfig [.store (.versionNode (userNode 1 "UserV1"))]
      (Registry.new "default" false)
    bindings := ⟨"default", ∅, ∅⟩ }
  server := ⟨[userTool "2.0.0" "latest"], [], [], []⟩
  entrances := ∅
  projected := []
  hooked := false
  transformed := false

end Pyverge.Fastmcp
