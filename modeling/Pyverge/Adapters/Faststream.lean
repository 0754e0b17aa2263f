import Pyverge.Adapters.Convergence
import Pyverge.Py.JsonDecoder

/-! Publishers and subscribers that converge the messages of a broker.
A route publishes its payload with a header that names the version; a subscriber may read the
version to converge to from such a header.
-/

namespace Pyverge.Faststream

open Py (Json)

variable {R V M C B ρ ε σ : Type}

-----------------------------------------------------------------------------------------
-- Headers
-----------------------------------------------------------------------------------------

/-- A name or a value of a header: bytes come with the text that they decode to, if they do. -/
inductive HeaderText where
  | nothing
  | text (value : String)
  | bytes (decoded : Option String)
  | other (shown : String)

/-- The text of a value that is one or decodes to one. -/
def HeaderText.decoded : HeaderText → Option String
  | .text value => some value
  | .bytes decoded => decoded
  | .nothing | .other _ => none

/-- A received message: its headers, and a body that the framework decodes. -/
structure Received (B : Type) where
  headers : List (HeaderText × HeaderText)
  body : B

structure TargetContext where
  topic : String
  headers : List (HeaderText × HeaderText)

/-- How Python lowers and shows texts and floats, and tells what is wrong with a JSON text. -/
structure Platform where
  lower : String → String
  floatRepr : String → String
  printable : Char → Bool
  jsonError : List Char → String

/-- `MessageHeaders._normalize` -/
def Platform.normalize (platform : Platform) : HeaderText → Except (AdapterError ε) String
  | .nothing => .ok (platform.lower "None")
  | .text value => .ok (platform.lower value)
  | .bytes (some value) => .ok (platform.lower value)
  | .bytes none => .error .decodeError
  | .other shown => .ok (platform.lower shown)

/-- `MessageHeaders.__init__`: of names that differ in case only the last one counts. -/
def Platform.messageHeaders (platform : Platform) (headers : List (HeaderText × HeaderText))
    : Except (AdapterError ε) (Py.Dict String HeaderText) := do
  return Py.Dict.ofItems (← headers.mapM (fun header => do
    return (← platform.normalize header.1, header.2)))

-----------------------------------------------------------------------------------------
-- Targets
-----------------------------------------------------------------------------------------

def boundNames : List String := ["gte", "lt", "eq"]

/-- The text of a member that is one. -/
def textOf : Json → Option String
  | .str text => some text
  | _ => none

/-- `HeaderParser._mapping` -/
def mapping : Json → Except (AdapterError ε) (TargetPolicy V M)
  | .obj members =>
      let bound (name : String) := (Json.getMember members name).bind textOf
      let texts := members.all (fun member => (textOf member.2).isSome)
      if !members.isEmpty && members.all (fun member => boundNames.contains member.1) then
        if texts then .ok (.range { gte := bound "gte", lt := bound "lt", eq := bound "eq" })
        else .error (.negotiationError "version header range bounds must be strings")
      else if texts then
        .ok (.dict (members.map (fun member => (member.1, .text ((textOf member.2).getD "")))))
      else
        .error (.negotiationError "version header mapping must contain string keys and values")
  | _ => .error (.negotiationError "version header mapping must contain string keys and values")

/-- `HeaderParser.parse` of a text. -/
def Platform.parseText (platform : Platform) (value : String)
    : Except (AdapterError ε) (TargetPolicy V M) :=
  let raw := strip value.toList
  if raw = [] then .error (.negotiationError "version header must be a non-empty string")
  else if raw.head? = some '\x7b' then
    match Json.loads platform.floatRepr raw with
    | some parsed => mapping parsed
    | none => .error (.negotiationError ("invalid version header JSON: " ++ platform.jsonError raw))
  else .ok (.text (String.ofList raw))

/-- `HeaderParser.parse` -/
def Platform.parse (platform : Platform)
    : HeaderText → Except (AdapterError ε) (TargetPolicy V M)
  | .text value | .bytes (some value) => platform.parseText value
  | .bytes none => .error .decodeError
  | .nothing | .other _ => .error (.negotiationError "version header must be a string")

/-- What chooses a target; `.nothing` is no choice. -/
abbrev Selector (V M ε : Type) := TargetContext → Except (AdapterError ε) (TargetPolicy V M)

/-- `HeaderTarget.select` -/
def headerTarget (platform : Platform) (header : String) : Selector V M ε := fun context => do
  let headers ← platform.messageHeaders context.headers
  match headers.get? (platform.lower header) with
  | none | some .nothing => return .nothing
  | some value => platform.parse value

/-- One target for every topic, or one for each. -/
inductive Targets (V M : Type) where
  | one (target : TargetPolicy V M)
  | perTopic (targets : Py.Dict String (TargetPolicy V M))

/-- `TopicTargets.coerce` -/
def Targets.coerce (topics : List String) : Targets V M → Py.Dict String (TargetPolicy V M)
  | .one target => Py.Dict.ofItems (topics.map (fun topic => (topic, target)))
  | .perTopic targets => targets

/-- `TopicTarget.select` -/
def topicTarget (targets : Py.Dict String (TargetPolicy V M)) : Selector V M ε := fun context =>
  .ok ((targets.get? context.topic).getD .nothing)

/-- `DefaultTarget.select` -/
def defaultTarget (target : TargetPolicy V M) : Selector V M ε := fun _ => .ok target

/-- `FirstMatch.select` -/
def firstMatch : List (Selector V M ε) → Selector V M ε
  | [], _ => .ok .nothing
  | selector :: rest, context => do
      match ← selector context with
      | .nothing => firstMatch rest context
      | target => return target

/-- `FirstMatch.for_topics` with the default target of a subscriber. -/
def forTopics (platform : Platform) (topics : List String) (targets : Targets V M)
    (header : Option String)
    : Selector V M ε :=
  firstMatch (header.toList.map (headerTarget platform)
    ++ [topicTarget (targets.coerce topics), defaultTarget (.text "latest")])

-----------------------------------------------------------------------------------------
-- Messages
-----------------------------------------------------------------------------------------

structure Message where
  topic : String
  payload : List (String × Json)
  headers : List (String × String)

/-- The runs of migrations and the rest of the application, with the messages that the wrapped
broker has taken.
-/
structure World (σ : Type) where
  inner : σ
  sent : List Message

/-- What leaves the messages alone. -/
def inside {α : Type} (program : EStateM (AdapterError ε) σ α)
    : EStateM (AdapterError ε) (World σ) α :=
  Py.zoom World.inner (fun inner world => { world with inner }) id program

/-- The runtime that publishers and subscribers share, with the manager, the framework and the
wrapped broker as they are used. A run that does not copy its payload deeply may write into it:
`leaves` is what it leaves of a payload that it converges to a target.
-/
structure Setup (R V M C B ρ ε σ : Type) where
  platform : Platform
  run : RunnerPort R V M C ε σ
  leaves : Json → TargetPolicy V M → Option M → σ → Json
  runtime : ConvergenceRuntime R C (Received B)
  dump : ρ → Except (AdapterError ε) Json
  sourceModel : ρ → Option M
  nextDecoder : Received B → EStateM (AdapterError ε) σ Json
  broker : Message → EStateM (AdapterError ε) σ PUnit

namespace Setup

variable (setup : Setup R V M C B ρ ε σ)

/-- The decoder of `_MessageConverger` for one topic. -/
def decoder (selector : Selector V M ε) (topic : String) (message : Received B)
    : EStateM (AdapterError ε) σ Json := do
  let payload ← setup.nextDecoder message
  let target ← Py.query (fun _ => selector { topic, headers := message.headers })
  setup.runtime.converge setup.run payload target
    { context := setup.runtime.contextFor (some message) }

/-- `publish` of the wrapped broker. -/
def publish (message : Message) : EStateM (AdapterError ε) (World σ) PUnit := do
  inside (setup.broker message)
  modify (fun world => { world with sent := world.sent ++ [message] })

/-- The headers of a payload that is published. -/
def versionHeaders (header : String) (payload : List (String × Json)) : List (String × String) :=
  (shownVersion setup.platform.printable payload).toList.map (fun version => (header, version))

/-- One turn of the loop in `RoutePublisher.bind`, with what it leaves of the payload that all turns
share.
-/
def publishTo (header : String) (sourceModel : Option M) (payload : Json)
    (route : String × TargetPolicy V M)
    : EStateM (AdapterError ε) (World σ) Json := do
  let left ← Py.query (fun world => .ok (setup.leaves payload route.2 sourceModel world.inner))
  match ← inside (setup.runtime.converge setup.run payload route.2 { sourceModel }) with
  | .obj converged =>
      setup.publish {
        topic := route.1
        payload := converged
        headers := setup.versionHeaders header converged
      }
      return left
  | _ => throw (.attributeError "get")

/-- The handler that `RoutePublisher.bind` makes, for one call of the given one. -/
def routed (header : String) (routes : Py.Dict String (TargetPolicy V M))
    (handler : EStateM (AdapterError ε) σ (Option ρ))
    : EStateM (AdapterError ε) (World σ) PUnit := do
  match ← inside handler with
  | none => return ⟨⟩
  | some result =>
      let payload ← Py.query (fun _ => setup.dump result)
      let _ ← routes.items.foldlM (setup.publishTo header (setup.sourceModel result)) payload

end Setup

-----------------------------------------------------------------------------------------
-- What routes send
-----------------------------------------------------------------------------------------

theorem inside_ok {α : Type} {program : EStateM (AdapterError ε) σ α} {world : World σ} {value : α}
    {final : σ} (ran : program world.inner = .ok value final)
    : inside program world = .ok value { world with inner := final } := by
  simp only [inside, Py.zoom, ran]

theorem inside_error {α : Type} {program : EStateM (AdapterError ε) σ α} {world : World σ}
    {error : AdapterError ε} {final : σ} (ran : program world.inner = .error error final)
    : inside program world = .error error { world with inner := final } := by
  simp only [inside, Py.zoom, ran, id]

namespace Setup

section Routes

variable (setup : Setup R V M C B ρ ε σ) (header : String) (sourceModel : Option M)

/-- A run leaves its payload alone, as with `copy="deep"`. -/
def Copies : Prop := ∀ payload target model state, setup.leaves payload target model state = payload

/-- A route converges the payload to its own target, and the broker takes the result. -/
structure Sends (payload : Json) (route : String × TargetPolicy V M) (before : σ)
    (message : Message) (final : σ)
    : Prop where
  topic : message.topic = route.1
  converged : ∃ middle, setup.runtime.converge setup.run payload route.2 { sourceModel } before
        = .ok (.obj message.payload) middle
      ∧ setup.broker message middle = .ok ⟨⟩ final
  headers : message.headers = setup.versionHeaders header message.payload

/-- Routes send one after another, each from what the runs before it left of the payload. -/
inductive SendsAll
    : Json → List (String × TargetPolicy V M) → σ → List Message → Json → σ → Prop where
  | nil (payload : Json) (state : σ) : SendsAll payload [] state [] payload state
  | cons {payload left : Json} {route : String × TargetPolicy V M}
      {rest : List (String × TargetPolicy V M)} {message : Message} {messages : List Message}
      {before middle final : σ}
      : setup.Sends header sourceModel payload route before message middle →
        SendsAll (setup.leaves payload route.2 sourceModel before) rest middle messages left final →
        SendsAll payload (route :: rest) before (message :: messages) left final

variable {setup header sourceModel}

/-- If runs copy, every route sends from the one payload, by induction over the routes. -/
theorem SendsAll.copied (copies : setup.Copies) {payload left : Json}
    {routes : List (String × TargetPolicy V M)} {messages : List Message} {before final : σ}
    (sends : setup.SendsAll header sourceModel payload routes before messages left final)
    : left = payload ∧ List.Forall₂ (fun route message => ∃ before final,
        setup.Sends header sourceModel payload route before message final) routes messages := by
  induction sends with
  | nil => exact ⟨rfl, .nil⟩
  | cons own _ ih =>
      rw [copies] at ih
      exact ⟨ih.1, .cons ⟨_, _, own⟩ ih.2⟩

/-- A route sends one message, or it raises and sends none. -/
theorem publishTo_cases (payload : Json) (route : String × TargetPolicy V M) (world : World σ)
    : (∃ message final, setup.Sends header sourceModel payload route world.inner message final
        ∧ setup.publishTo header sourceModel payload route world
          = .ok (setup.leaves payload route.2 sourceModel world.inner)
              ⟨final, world.sent ++ [message]⟩)
      ∨ ∃ error final, setup.publishTo header sourceModel payload route world
          = .error error ⟨final, world.sent⟩ := by
  unfold publishTo
  rw [Py.query_bind_eq]
  cases ran : setup.runtime.converge setup.run payload route.2 { sourceModel } world.inner with
  | error error middle =>
      exact .inr ⟨error, middle, Py.bind_eq_of_error (inside_error ran)⟩
  | ok value middle =>
      simp only [Py.bind_eq_of_ok (inside_ok ran)]
      cases value with
      | obj converged =>
          cases taken : setup.broker {
              topic := route.1
              payload := converged
              headers := setup.versionHeaders header converged
            } middle with
          | error error final =>
              refine .inr ⟨error, final, Py.bind_eq_of_error ?_⟩
              exact Py.bind_eq_of_error (inside_error taken)
          | ok value final =>
              refine .inl ⟨_, final, ⟨rfl, ⟨middle, ran, taken⟩, rfl⟩, ?_⟩
              have published : setup.publish _ ⟨middle, world.sent⟩ = _ :=
                Py.bind_eq_of_ok (inside_ok taken)
              exact (Py.bind_eq_of_ok published).trans rfl
      | _ => exact .inr ⟨_, middle, rfl⟩

/-- The loop over the routes sends up to the first one that raises, by induction over the routes. -/
theorem foldlM_publishTo (routes : List (String × TargetPolicy V M)) (payload : Json)
    (world : World σ)
    : ∃ served others messages left reached, routes = served ++ others
        ∧ setup.SendsAll header sourceModel payload served world.inner messages left reached
        ∧ (others = [] ∧ routes.foldlM (setup.publishTo header sourceModel) payload world
              = .ok left ⟨reached, world.sent ++ messages⟩
          ∨ ∃ route rest error final, others = route :: rest
              ∧ setup.publishTo header sourceModel left route ⟨reached, world.sent ++ messages⟩
                = .error error ⟨final, world.sent ++ messages⟩
              ∧ routes.foldlM (setup.publishTo header sourceModel) payload world
                = .error error ⟨final, world.sent ++ messages⟩) := by
  induction routes generalizing payload world with
  | nil =>
      refine ⟨[], [], [], payload, world.inner, rfl, .nil _ _, .inl ⟨rfl, ?_⟩⟩
      rw [List.append_nil]
      rfl
  | cons route rest ih =>
      rw [List.foldlM_cons]
      have sendsOrFails : _ ∨ ∃ error final,
          setup.publishTo header sourceModel payload route world
            = .error error ⟨final, world.sent⟩ := publishTo_cases payload route world
      rcases sendsOrFails with sends | fails
      · obtain ⟨message, middle, sends, ran⟩ := sends
        obtain ⟨served, others, messages, left, reached, split, sent, ended⟩ :=
          ih (setup.leaves payload route.2 sourceModel world.inner)
            ⟨middle, world.sent ++ [message]⟩
        refine ⟨route :: served, others, message :: messages, left, reached, by rw [split]; rfl,
          .cons sends sent, ?_⟩
        rw [Py.bind_eq_of_ok ran]
        simpa only [List.append_assoc, List.singleton_append] using ended
      · obtain ⟨error, final, ran⟩ := fails
        refine ⟨[], route :: rest, [], payload, world.inner, rfl, .nil _ _,
          .inr ⟨route, rest, error, final, rfl, ?_⟩⟩
        rw [List.append_nil]
        exact ⟨ran, Py.bind_eq_of_error ran⟩

/-- A handler publishes nothing if it raises, returns `None` or returns what cannot be dumped. Else
the dumped payload, as the runs before leave it, is converged for each route by itself, each result
is sent with its own version, and the first route that raises ends the loop: the messages before it
stay sent. If runs copy, all routes converge the one payload.
-/
theorem routed_sends (setup : Setup R V M C B ρ ε σ) (header : String)
    (routes : Py.Dict String (TargetPolicy V M))
    (handler : EStateM (AdapterError ε) σ (Option ρ)) (world : World σ)
    : (∀ final, handler world.inner = .ok none final →
        setup.routed header routes handler world = .ok ⟨⟩ ⟨final, world.sent⟩)
      ∧ (∀ error final, handler world.inner = .error error final →
        setup.routed header routes handler world = .error error ⟨final, world.sent⟩)
      ∧ ∀ result started, handler world.inner = .ok (some result) started →
        (∀ error, setup.dump result = .error error →
          setup.routed header routes handler world = .error error ⟨started, world.sent⟩)
        ∧ ∀ payload, setup.dump result = .ok payload →
          ∃ served others messages left reached, routes.items = served ++ others
            ∧ setup.SendsAll header (setup.sourceModel result) payload served started messages
                left reached
            ∧ (setup.Copies → left = payload ∧ List.Forall₂ (fun route message =>
                ∃ before final, setup.Sends header (setup.sourceModel result) payload route before
                  message final) served messages)
            ∧ (others = [] ∧ setup.routed header routes handler world
                  = .ok ⟨⟩ ⟨reached, world.sent ++ messages⟩
              ∨ ∃ route rest error final, others = route :: rest
                  ∧ setup.publishTo header (setup.sourceModel result) left route
                      ⟨reached, world.sent ++ messages⟩
                    = .error error ⟨final, world.sent ++ messages⟩
                  ∧ setup.routed header routes handler world
                    = .error error ⟨final, world.sent ++ messages⟩) := by
  refine ⟨?_, ?_, ?_⟩
  · intro final ran
    exact Py.bind_eq_of_ok (inside_ok ran)
  · intro error final ran
    exact Py.bind_eq_of_error (inside_error ran)
  · intro result started ran
    have goesOn : setup.routed header routes handler world
        = (Py.query (fun _ => setup.dump result) >>= fun payload =>
            routes.items.foldlM (setup.publishTo header (setup.sourceModel result)) payload
              >>= fun _ => pure ⟨⟩)
          ⟨started, world.sent⟩ :=
      Py.bind_eq_of_ok (inside_ok ran)
    rw [goesOn, Py.query_bind_eq]
    refine ⟨?_, ?_⟩
    · intro error refused
      rw [refused]
    · intro payload dumped
      rw [dumped]
      obtain ⟨served, others, messages, left, reached, split, sends, ended⟩ :=
        @foldlM_publishTo _ _ _ _ _ _ _ _ setup header (setup.sourceModel result) routes.items
          payload ⟨started, world.sent⟩
      refine ⟨served, others, messages, left, reached, split, sends, sends.copied, ?_⟩
      rcases ended with ⟨all, returned⟩ | ⟨route, rest, error, final, first, fails, raised⟩
      · exact .inl ⟨all, (Py.bind_eq_of_ok returned).trans rfl⟩
      · exact .inr ⟨route, rest, error, final, first, fails, Py.bind_eq_of_error raised⟩

end Routes

end Setup

-----------------------------------------------------------------------------------------
-- What subscribers read
-----------------------------------------------------------------------------------------

/-- What a publisher, a subscriber or anything else does, in any order. -/
inductive Reached (setup : Setup R V M C B ρ ε σ) : World σ → Prop where
  | start (inner : σ) : Reached setup ⟨inner, []⟩
  | handle {world : World σ} (header : String) (routes : Py.Dict String (TargetPolicy V M))
      (handler : EStateM (AdapterError ε) σ (Option ρ))
      : Reached setup world →
        Reached setup (Py.after (setup.routed header routes handler) world)
  | decode {world : World σ} (selector : Selector V M ε) (topic : String) (message : Received B)
      : Reached setup world →
        Reached setup (Py.after (inside (setup.decoder selector topic message)) world)
  | outside {world : World σ} (inner : σ)
      : Reached setup world → Reached setup { world with inner }

/-- The headers of a message name the version that its payload shows, under one name. -/
def Setup.Truthful (setup : Setup R V M C B ρ ε σ) (message : Message) : Prop :=
  ∃ header, message.headers = setup.versionHeaders header message.payload

/-- The header of a message that a name finds, in any case. -/
def Platform.found (platform : Platform) (header : String) (message : Message) : Option String :=
  (message.headers.find? (fun given => platform.lower given.1 = platform.lower header)).map Prod.snd

/-- The framework shows a subscriber the header of a message under a name, as text or as bytes. -/
def Setup.Carries (setup : Setup R V M C B ρ ε σ) (header : String) (received : Received B)
    (message : Message)
    : Prop :=
  ∃ headers, (setup.platform.messageHeaders received.headers : Except (AdapterError ε) _)
      = .ok headers
    ∧ (headers.get? (setup.platform.lower header)).map HeaderText.decoded
      = (setup.platform.found header message).map some

/-- A version that a header can name: no blanks around it, and no mapping. -/
structure Negotiable (value : String) : Prop where
  trimmed : strip value.toList = value.toList
  nonempty : value ≠ ""
  scalar : value.toList.head? ≠ some '\x7b'

/-- The target of a subscriber for messages that name no version. -/
def Targets.fallback (targets : Targets V M) (topics : List String) (topic : String)
    : TargetPolicy V M :=
  match (targets.coerce topics).get? topic with
  | none | some .nothing => .text "latest"
  | some target => target

section Subscribers

variable {setup : Setup R V M C B ρ ε σ} {world : World σ} {header : String}
  {received : Received B} {message : Message}

theorem parse_of_decoded {platform : Platform} {given : HeaderText} {value : String}
    (shown : given.decoded = some value)
    : (platform.parse given : Except (AdapterError ε) (TargetPolicy V M))
      = platform.parseText value := by
  cases given with
  | text text => cases shown; rfl
  | bytes decoded => cases shown; rfl
  | _ => cases shown

/-- A version that a header can name is read as it is. -/
theorem parseText_of_negotiable {platform : Platform} {value : String}
    (negotiable : Negotiable value)
    : (platform.parseText value : Except (AdapterError ε) (TargetPolicy V M))
      = .ok (.text value) := by
  have filled : value.toList ≠ [] := by
    intro empty
    exact negotiable.nonempty (String.toList_eq_nil_iff.mp empty)
  unfold Platform.parseText
  rw [negotiable.trimmed]
  simp only [if_neg filled, if_neg negotiable.scalar, String.ofList_toList]

theorem headerTarget_of_found (carries : setup.Carries header received message)
    {value : String} (found : setup.platform.found header message = some value) (topic : String)
    : (headerTarget setup.platform header : Selector V M ε) { topic, headers := received.headers }
      = setup.platform.parseText value := by
  obtain ⟨headers, read, shown⟩ := carries
  rw [found, Option.map_some, Option.map_eq_some_iff] at shown
  obtain ⟨given, isGiven, decodes⟩ := shown
  have asked : (setup.platform.parse given : Except (AdapterError ε) (TargetPolicy V M))
      = setup.platform.parseText value := parse_of_decoded decodes
  simp only [headerTarget, read, bind, Except.bind, isGiven]
  cases given with
  | nothing => cases decodes
  | _ => exact asked

theorem headerTarget_of_not_found (carries : setup.Carries header received message)
    (missing : setup.platform.found header message = none) (topic : String)
    : (headerTarget setup.platform header : Selector V M ε) { topic, headers := received.headers }
      = .ok .nothing := by
  obtain ⟨headers, read, shown⟩ := carries
  rw [missing, Option.map_none, Option.map_eq_none_iff] at shown
  simp only [headerTarget, read, bind, Except.bind, shown]
  rfl

/-- Without a version that the header names, the topic decides, and then the default. -/
theorem firstMatch_fallback (targets : Targets V M) (topics : List String)
    (context : TargetContext)
    : firstMatch [topicTarget (targets.coerce topics), defaultTarget (.text "latest")] context
      = (.ok (targets.fallback topics context.topic) : Except (AdapterError ε) _) := by
  simp only [firstMatch, topicTarget, defaultTarget, Targets.fallback, bind, Except.bind]
  cases (targets.coerce topics).get? context.topic with
  | none => rfl
  | some target => cases target <;> rfl

theorem Setup.SendsAll.truthful {payload left : Json} {sourceModel : Option M}
    {routes : List (String × TargetPolicy V M)} {before final : σ} {messages : List Message}
    (sends : setup.SendsAll header sourceModel payload routes before messages left final)
    : ∀ message ∈ messages, setup.Truthful message := by
  induction sends with
  | nil => simp
  | cons sends _ ih =>
      intro message member
      rcases List.mem_cons.mp member with rfl | later
      · exact ⟨header, sends.headers⟩
      · exact ih message later

/-- What a handler adds to the messages is truthful. -/
theorem Setup.after_routed (setup : Setup R V M C B ρ ε σ) (header : String)
    (routes : Py.Dict String (TargetPolicy V M))
    (handler : EStateM (AdapterError ε) σ (Option ρ)) (world : World σ)
    : ∃ messages, (Py.after (setup.routed header routes handler) world).sent
          = world.sent ++ messages
        ∧ ∀ message ∈ messages, setup.Truthful message := by
  cases ran : handler world.inner with
  | error error final =>
      refine ⟨[], ?_, by simp⟩
      have run : setup.routed header routes handler world = _ :=
        Py.bind_eq_of_error (inside_error ran)
      rw [Py.after_of_error run, List.append_nil]
  | ok value final =>
      have run : setup.routed header routes handler world = _ := Py.bind_eq_of_ok (inside_ok ran)
      rw [Py.after_eq run]
      cases value with
      | none => exact ⟨[], by simp, by simp⟩
      | some result =>
          simp only [Py.after_query_bind]
          cases setup.dump result with
          | error error => exact ⟨[], by simp, by simp⟩
          | ok payload =>
              obtain ⟨served, others, messages, left, reached, _, sends, ended⟩ :=
                @Setup.foldlM_publishTo _ _ _ _ _ _ _ _ setup header
                  (setup.sourceModel result) routes.items payload ⟨final, world.sent⟩
              refine ⟨messages, ?_, sends.truthful⟩
              rcases ended with ⟨_, returned⟩ | ⟨_, _, _, _, _, _, raised⟩
              · have ran : (routes.items.foldlM (setup.publishTo header (setup.sourceModel result))
                    payload >>= fun _ => pure PUnit.unit) ⟨final, world.sent⟩
                    = .ok ⟨⟩ ⟨reached, world.sent ++ messages⟩ :=
                  Py.bind_eq_of_ok returned
                exact congrArg World.sent (Py.after_of_ok ran)
              · have ran : (routes.items.foldlM (setup.publishTo header (setup.sourceModel result))
                    payload >>= fun _ => pure PUnit.unit) ⟨final, world.sent⟩ = _ :=
                  Py.bind_eq_of_error raised
                exact congrArg World.sent (Py.after_of_error ran)

theorem sent_after_inside {α : Type} (program : EStateM (AdapterError ε) σ α) (world : World σ)
    : (Py.after (inside program) world).sent = world.sent := by
  cases ran : program world.inner with
  | ok value final => rw [Py.after_of_ok (inside_ok ran)]
  | error error final => rw [Py.after_of_error (inside_error ran)]

/-- Every message that was ever sent is truthful, by induction over the run. -/
theorem Reached.truthful (reached : Reached setup world)
    : ∀ message ∈ world.sent, setup.Truthful message := by
  induction reached with
  | start inner => simp
  | @handle world header routes handler _ ih =>
      obtain ⟨messages, sent, told⟩ := setup.after_routed header routes handler world
      intro message member
      rw [sent] at member
      rcases List.mem_append.mp member with old | new
      · exact ih message old
      · exact told message new
  | decode selector topic received _ ih =>
      rw [sent_after_inside]
      exact ih
  | outside inner _ ih => exact ih

/-- A version that a truthful message names is that of its payload. -/
theorem Setup.Truthful.found (truthful : setup.Truthful message) {value : String}
    (named : setup.platform.found header message = some value)
    : shownVersion setup.platform.printable message.payload = some value := by
  obtain ⟨⟨name, text⟩, isFound, rfl⟩ := Option.map_eq_some_iff.mp named
  have member := List.mem_of_find?_eq_some isFound
  obtain ⟨own, headers⟩ := truthful
  rw [headers, Setup.versionHeaders, List.mem_map] at member
  obtain ⟨version, shown, same⟩ := member
  obtain ⟨rfl, rfl⟩ := Prod.mk.inj same
  exact Option.mem_toList.mp shown

theorem decoder_of_selected {selector : Selector V M ε} {topic : String}
    {target : TargetPolicy V M}
    (selected : selector { topic, headers := received.headers } = .ok target) {body : Json}
    {state middle : σ} (decoded : setup.nextDecoder received state = .ok body middle)
    : setup.decoder selector topic received state
      = setup.runtime.converge setup.run body target
          { context := setup.runtime.contextFor (some received) } middle := by
  unfold Setup.decoder
  rw [Py.bind_eq_of_ok decoded, Py.query_bind_eq, selected]

/-- Whatever has happened, a message that was sent names the version of its own payload only, and
a subscriber that negotiates on its header converges it to exactly that version, whenever and
however often it is received. A message without the header takes the target of the topic.
-/
theorem Reached.negotiated (reached : Reached setup world) (sent : message ∈ world.sent)
    (carries : setup.Carries header received message) (topics : List String)
    (targets : Targets V M) (topic : String)
    : (∀ value, setup.platform.found header message = some value →
        shownVersion setup.platform.printable message.payload = some value
        ∧ (Negotiable value → ∀ body state middle,
          setup.nextDecoder received state = .ok body middle →
          setup.decoder (forTopics setup.platform topics targets (some header)) topic received state
            = setup.runtime.converge setup.run body (.text value)
                { context := setup.runtime.contextFor (some received) } middle))
      ∧ (setup.platform.found header message = none → ∀ body state middle,
          setup.nextDecoder received state = .ok body middle →
          setup.decoder (forTopics setup.platform topics targets (some header)) topic received state
            = setup.runtime.converge setup.run body (targets.fallback topics topic)
                { context := setup.runtime.contextFor (some received) } middle) := by
  refine ⟨?_, ?_⟩
  · intro value found
    refine ⟨(reached.truthful message sent).found found, ?_⟩
    intro negotiable body state middle decoded
    apply decoder_of_selected _ decoded
    have asked : (headerTarget setup.platform header : Selector V M ε)
        { topic, headers := received.headers } = .ok (.text value) :=
      (headerTarget_of_found carries found topic).trans (parseText_of_negotiable negotiable)
    simp only [forTopics, Option.toList_some, List.map_cons, List.map_nil, List.cons_append,
      List.nil_append, firstMatch, asked, bind, Except.bind]
    rfl
  · intro missing body state middle decoded
    apply decoder_of_selected _ decoded
    have asked : (headerTarget setup.platform header : Selector V M ε)
        { topic, headers := received.headers } = .ok .nothing :=
      headerTarget_of_not_found carries missing topic
    have others := firstMatch_fallback (ε := ε) targets topics
      { topic, headers := received.headers }
    rw [forTopics, Option.toList_some, List.map_cons, List.map_nil, List.cons_append,
      List.nil_append, firstMatch]
    simp only [asked, bind, Except.bind]
    exact others

end Subscribers

-----------------------------------------------------------------------------------------
-- Orders on two topics
-----------------------------------------------------------------------------------------

/-- Runs that only set the version, and a broker that counts what it takes; one topic is closed. -/
def orders : Setup Unit Unit Unit Unit Json Json Unit Nat where
  platform := {
    lower := fun text => String.ofList (text.toList.map Char.toLower)
    floatRepr := id
    printable := fun _ => true
    jsonError := fun _ => ""
  }
  run _ arguments := return .payload (match arguments.payload, arguments.target with
    | .obj members, .text version => .obj (Json.setMember members "version" (.str version))
    | payload, _ => payload)
  leaves payload _ _ _ := payload
  runtime := {
    bound := some (), context := none, runId := none, contextFactory := none
    validateTarget := false
  }
  dump := .ok
  sourceModel _ := none
  nextDecoder received := return received.body
  broker message count :=
    if message.topic = "closed" then .error (.runtimeError "closed") count
    else .ok ⟨⟩ (count + 1)

def orderRoutes : Py.Dict String (TargetPolicy Unit Unit) :=
  Py.Dict.ofItems [("orders", .text "1.0.0"), ("closed", .text "2.0.0"), ("late", .text "3.0.0")]

/-- A handler that returns an order of the second version. -/
def newOrder : EStateM (AdapterError Unit) Nat (Option Json) :=
  return some (.obj [("version", .str "2.0.0"), ("total", .int 5)])

/-- The message that the first route sends. -/
def firstOrder : Message where
  topic := "orders"
  payload := [("version", .str "1.0.0"), ("total", .int 5)]
  headers := [("content-version", "1.0.0")]

/-- Witness: the second topic is closed, and the third is not tried. -/
theorem routed_sends_orders
    : (Py.after (orders.routed "content-version" orderRoutes newOrder) ⟨0, []⟩).sent = [firstOrder]
      ∧ ∃ served others messages, orderRoutes.items = served ++ others
          ∧ List.Forall₂ (fun route message => ∃ before final, orders.Sends "content-version" none
              (.obj [("version", .str "2.0.0"), ("total", .int 5)]) route before message final)
            served messages := by
  refine ⟨by rfl, ?_⟩
  obtain ⟨_, _, handled⟩ :=
    Setup.routed_sends orders "content-version" orderRoutes newOrder ⟨0, []⟩
  obtain ⟨served, others, messages, _, _, split, _, copied, _⟩ := (handled _ _ rfl).2 _ rfl
  exact ⟨served, others, messages, split, (copied (fun _ _ _ _ => rfl)).2⟩

/-- Witness: the order is received at the version that its header names, in bytes and capitals. -/
theorem negotiated_orders
    : orders.decoder (forTopics orders.platform ["orders"] (.one (.text "latest"))
          (some "Content-Version")) "orders"
          ⟨[(.text "CONTENT-VERSION", .bytes (some "1.0.0"))], .obj firstOrder.payload⟩ 1
      = orders.runtime.converge orders.run (.obj firstOrder.payload) (.text "1.0.0")
          { context := none } 1 := by
  have reached : Reached orders _ := .handle "content-version" orderRoutes newOrder (.start 0)
  have sent : firstOrder ∈ (Py.after (orders.routed "content-version" orderRoutes newOrder)
      ⟨0, []⟩).sent := by
    have all : (Py.after (orders.routed "content-version" orderRoutes newOrder) ⟨0, []⟩).sent
        = [firstOrder] := rfl
    rw [all]
    exact List.mem_singleton_self _
  have carries : orders.Carries "Content-Version"
      ⟨[(.text "CONTENT-VERSION", .bytes (some "1.0.0"))], .obj firstOrder.payload⟩ firstOrder :=
    ⟨_, rfl, by decide +kernel⟩
  have negotiable : Negotiable "1.0.0" := ⟨by decide +kernel, by decide, by decide +kernel⟩
  obtain ⟨named, _⟩ := reached.negotiated sent carries ["orders"] (.one (.text "latest")) "orders"
  exact (named "1.0.0" (by decide +kernel)).2 negotiable _ _ _ rfl

end Pyverge.Faststream
