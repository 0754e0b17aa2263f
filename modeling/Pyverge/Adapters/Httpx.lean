import Pyverge.Adapters.Convergence
import Pyverge.Py.JsonDecoder

/-! Transports that converge the JSON bodies of HTTP requests and responses.
The client library adds headers of its own to what a transport builds; bodies are the texts that
their bytes decode to.
-/

namespace Pyverge.Httpx

open Py (Json)

variable {R V M C X ε σ : Type}

-----------------------------------------------------------------------------------------
-- Messages
-----------------------------------------------------------------------------------------

/-- A name in lower case with its value, as `multi_items` lists them. -/
abbrev Header := String × String

/-- A request; the content of a stream that was not read is missing. -/
structure Request (X : Type) where
  method : String
  url : String
  headers : List Header
  content : Option (List Char)
  extensions : X

structure Response (X : Type) where
  statusCode : Nat
  headers : List Header
  content : List Char
  extensions : X
  request : Option (Request X)

/-- The headers of a message that the client library builds from given ones and a content. -/
structure Client where
  requestHeaders : (method url : String) → List Header → List Char → List Header
  responseHeaders : Nat → List Header → List Char → List Header

/-- `Headers.get`: the values of one name are joined. -/
def getHeader (headers : List Header) (name default : String) : String :=
  let values := (headers.filter (fun header => header.1 = name)).map Prod.snd
  if values.isEmpty then default else ", ".intercalate values

/-- `_is_json` -/
def isJson (headers : List Header) : Bool :=
  let contentType := (getHeader headers "content-type" "").toList
  let mediaType := (strip (contentType.takeWhile (· ≠ ';'))).map Char.toLower
  mediaType = "application/json".toList || "+json".toList.isSuffixOf mediaType

def bodyHeaders : List String := ["content-length", "content-encoding", "transfer-encoding"]

def versionHeader : String := "content-version"

def acceptHeader : String := "accept-version"

-----------------------------------------------------------------------------------------
-- Converted messages
-----------------------------------------------------------------------------------------

/-- One request/response target pair for a transport; `.nothing` is `None`. -/
structure HttpPolicy (V M : Type) where
  target : TargetPolicy V M := .text "latest"
  responseTarget : TargetPolicy V M := .nothing

/-- The text of a response target that is one. -/
def acceptedVersion : TargetPolicy V M → Option String
  | .text target => some target
  | _ => none

/-- `_request_headers` -/
def requestHeaders (printable : Char → Bool) (headers : List Header)
    (payload : List (String × Json)) (responseTarget : TargetPolicy V M) : List Header :=
  headers.filter (fun header =>
      !bodyHeaders.contains header.1 && header.1 != versionHeader && header.1 != acceptHeader)
    ++ (shownVersion printable payload).toList.map (fun version => (versionHeader, version))
    ++ (acceptedVersion responseTarget).toList.map (fun target => (acceptHeader, target))

/-- The client library and the way Python shows floats and texts. -/
structure Platform where
  client : Client
  floatRepr : String → String
  printable : Char → Bool

/-- What a transport is configured with. -/
structure Setup (R V M C X ε σ : Type) where
  run : RunnerPort R V M C ε σ
  runtime : ConvergenceRuntime R C (Request X)
  policy : HttpPolicy V M

/-- An inner transport. -/
abbrev Transport (X ε σ : Type) := Request X → EStateM (AdapterError ε) σ (Response X)

/-- `_json_body` -/
def Platform.jsonBody (platform : Platform) (request : Request X) : Option (List (String × Json)) :=
  if isJson request.headers then
    match request.content.bind (Json.loads platform.floatRepr) with
    | some (.obj payload) => some payload
    | _ => none
  else none

/-- The body of a JSON response, by `response.json`. -/
def Platform.jsonAnswer (platform : Platform) (response : Response X)
    : Option (List (String × Json)) :=
  if isJson response.headers && !response.content.isEmpty then
    match Json.loads platform.floatRepr response.content with
    | some (.obj payload) => some payload
    | _ => none
  else none

/-- `_replaced_body` -/
def Platform.replacedBody (platform : Platform) (response : Response X)
    (payload : List (String × Json)) (request : Request X)
    : Response X where
  statusCode := response.statusCode
  headers := platform.client.responseHeaders response.statusCode
    (response.headers.filter (fun header => !bodyHeaders.contains header.1))
    (Json.obj payload).dumps
  content := (Json.obj payload).dumps
  extensions := response.extensions
  request := some request

namespace Setup

variable (setup : Setup R V M C X ε σ)

/-- The part of `_should_converge_response` that is about the policy and the status. -/
def answers (statusCode : Nat) : Bool :=
  (match setup.policy.responseTarget with
    | .nothing => false
    | _ => true)
    && (200 ≤ statusCode && statusCode < 300)

-- Both transports are alike up to the way they converge a payload.
variable (platform : Platform)
  (converge : Json → TargetPolicy V M → ConvergeOptions M C → EStateM (AdapterError ε) σ Json)

/-- `_request` -/
def rebuilt (request : Request X) (payload : List (String × Json)) : Request X where
  method := request.method
  url := request.url
  headers := platform.client.requestHeaders request.method request.url
    (requestHeaders platform.printable request.headers payload setup.policy.responseTarget)
    (Json.obj payload).dumps
  content := some (Json.obj payload).dumps
  extensions := request.extensions

/-- The request that is sent on; headers cannot be taken from what is no dictionary. -/
def convergedRequest (request : Request X) (context : Option C)
    : EStateM (AdapterError ε) σ (Request X) := do
  match platform.jsonBody request with
  | none => return request
  | some payload =>
      match ← converge (.obj payload) setup.policy.target { context } with
      | .obj converged => return setup.rebuilt platform request converged
      | _ => throw (.attributeError "get")

/-- `_response` -/
def respond (response : Response X) (request : Request X) (context : Option C)
    : EStateM (AdapterError ε) σ (Response X) := do
  if !setup.answers response.statusCode then return response
  match platform.jsonAnswer response with
  | none => return response
  | some payload =>
      match ← converge (.obj payload) setup.policy.responseTarget { context } with
      | .obj converged => return platform.replacedBody response converged request
      | _ => return response

def handle (transport : Transport X ε σ) : Transport X ε σ := fun request => do
  let context := setup.runtime.contextFor (some request)
  let sent ← setup.convergedRequest platform converge request context
  let response ← transport sent
  setup.respond platform converge response sent context

/-- `PyvergeTransport.handle_request` -/
def handleRequest (transport : Transport X ε σ) : Transport X ε σ :=
  setup.handle platform (setup.runtime.convergeSync setup.run) transport

/-- `PyvergeAsyncTransport.handle_async_request` -/
def handleAsyncRequest (transport : Transport X ε σ) : Transport X ε σ :=
  setup.handle platform (setup.runtime.converge setup.run) transport

end Setup

-----------------------------------------------------------------------------------------
-- Messages without their framing
-----------------------------------------------------------------------------------------

/-- The headers of the connection and of the bytes of a body. -/
def framing : List String := "host" :: bodyHeaders

def isFraming (header : Header) : Bool := framing.contains header.1

/-- A request as a service reads it: a JSON payload, or a request of another kind. -/
inductive Message (X : Type) where
  | json (method url : String) (headers : List Header) (payload : List (String × Json))
      (extensions : X)
  | other (request : Request X)

/-- A response as a caller reads it. -/
inductive Answer (X : Type) where
  | json (statusCode : Nat) (headers : List Header) (payload : List (String × Json))
      (extensions : X)
  | other (response : Response X)

/-- What answers messages. -/
abbrev Service (X ε σ : Type) := Message X → EStateM (AdapterError ε) σ (Answer X)

def Platform.message (platform : Platform) (request : Request X) : Message X :=
  match platform.jsonBody request with
  | some payload =>
      .json request.method request.url (request.headers.filter (!isFraming ·)) payload
        request.extensions
  | none => .other request

def Platform.answer (platform : Platform) (response : Response X) : Answer X :=
  match platform.jsonAnswer response with
  | some payload =>
      .json response.statusCode (response.headers.filter (!isFraming ·)) payload
        response.extensions
  | none => .other response

/-- A request that reads as a message. -/
def Message.request : Message X → Request X
  | .json method url headers payload extensions =>
      { method, url, headers, content := some (Json.obj payload).dumps, extensions }
  | .other request => request

/-- The version headers of a message tell the version of its payload and the one that is expected.
-/
def Message.Stamped (printable : Char → Bool) (responseTarget : TargetPolicy V M)
    : Message X → Prop
  | .json _ _ headers payload _ =>
      headers.filter (fun header => header.1 = versionHeader)
        = (shownVersion printable payload).toList.map (fun version => (versionHeader, version))
      ∧ headers.filter (fun header => header.1 = acceptHeader)
        = (acceptedVersion responseTarget).toList.map (fun target => (acceptHeader, target))
  | .other _ => True

/-- A transport answers every request as the service does, with the same effects. -/
def Platform.Implements (platform : Platform) (transport : Transport X ε σ)
    (service : Service X ε σ)
    : Prop :=
  ∀ request, platform.answer <$> transport request = service (platform.message request)

namespace Setup

variable (setup : Setup R V M C X ε σ) (platform : Platform)
  (converge : Json → TargetPolicy V M → ConvergeOptions M C → EStateM (AdapterError ε) σ Json)

/-- The payload is converged, and the headers tell its version and the one that is expected. -/
def convergedMessage (context : Option C) : Message X → EStateM (AdapterError ε) σ (Message X)
  | .json method url headers payload extensions => do
      match ← converge (.obj payload) setup.policy.target { context } with
      | .obj converged =>
          return .json method url
            (requestHeaders platform.printable headers converged setup.policy.responseTarget)
            converged extensions
      | _ => throw (.attributeError "get")
  | .other request => return .other request

/-- The payload of an answer that succeeded is converged to the response target. -/
def convergedAnswer (context : Option C) : Answer X → EStateM (AdapterError ε) σ (Answer X)
  | .json statusCode headers payload extensions => do
      if !setup.answers statusCode then return .json statusCode headers payload extensions
      match ← converge (.obj payload) setup.policy.responseTarget { context } with
      | .obj converged => return .json statusCode headers converged extensions
      | _ => return .json statusCode headers payload extensions
  | .other response => return .other response

/-- A service behind a change of versions: payloads are converged on their way in and out. -/
def bridge (service : Service X ε σ) : Service X ε σ := fun message => do
  let context := setup.runtime.contextFor (some message.request)
  let sent ← setup.convergedMessage platform converge context message
  let answer ← service sent
  setup.convergedAnswer converge context answer

/-- The context depends on a request as far as a service can read it. -/
def Steady : Prop :=
  ∀ request, setup.runtime.contextFor (some request)
    = setup.runtime.contextFor (some (platform.message request).request)

end Setup

/-- From what can be read back from its text, a convergence gives dictionaries that can. -/
def GivesReadable (floatRepr : String → String)
    (converge : Json → TargetPolicy V M → ConvergeOptions M C → EStateM (AdapterError ε) σ Json)
    : Prop :=
  ∀ payload target options state converged final, (Json.obj payload).Readable floatRepr
    → converge (.obj payload) target options state = .ok (.obj converged) final
    → (Json.obj converged).Readable floatRepr

/-- What is asked of the runs and of the context factory behind a transport. -/
structure Setup.Sound (setup : Setup R V M C X ε σ) (platform : Platform) : Prop where
  steady : setup.Steady platform
  readable : GivesReadable platform.floatRepr (setup.runtime.converge setup.run)

/-- The client library sets the framing of a message and no other header. -/
structure Client.Frames (client : Client) : Prop where
  request (method url : String) (headers : List Header) (content : List Char)
    : (client.requestHeaders method url headers content).filter (!isFraming ·)
      = headers.filter (!isFraming ·)
  response (statusCode : Nat) (headers : List Header) (content : List Char)
    : (client.responseHeaders statusCode headers content).filter (!isFraming ·)
      = headers.filter (!isFraming ·)

-----------------------------------------------------------------------------------------
-- Converted messages are read back
-----------------------------------------------------------------------------------------

/-- The values of a header that is no framing do not depend on the framing. -/
theorem getHeader_unframed {name : String} (outside : framing.contains name = false)
    (headers : List Header) (default : String)
    : getHeader (headers.filter (!isFraming ·)) name default = getHeader headers name default := by
  have same : (headers.filter (!isFraming ·)).filter (fun header => header.1 = name)
      = headers.filter (fun header => header.1 = name) := by
    rw [List.filter_filter]
    apply List.filter_congr
    rintro ⟨other, value⟩ -
    by_cases named : other = name
    · subst named
      simpa [isFraming] using outside
    · simp [named]
  simp only [getHeader, same]

theorem isJson_unframed (headers : List Header)
    : isJson (headers.filter (!isFraming ·)) = isJson headers := by
  unfold isJson
  rw [getHeader_unframed (by decide)]

/-- Headers that agree up to their framing are of the same media type. -/
theorem isJson_congr {headers others : List Header}
    (same : headers.filter (!isFraming ·) = others.filter (!isFraming ·))
    : isJson headers = isJson others := by
  rw [← isJson_unframed headers, same, isJson_unframed]

section Requests

variable {printable : Char → Bool} {payload : List (String × Json)}
  {responseTarget : TargetPolicy V M}

/-- Converging the headers keeps the values of every header that it does not replace. -/
theorem getHeader_requestHeaders {name : String}
    (kept : (bodyHeaders ++ [versionHeader, acceptHeader]).contains name = false)
    (headers : List Header) (default : String)
    : getHeader (requestHeaders printable headers payload responseTarget) name default
      = getHeader headers name default := by
  have outside : name ∉ bodyHeaders ∧ name ≠ versionHeader ∧ name ≠ acceptHeader := by
    simpa [not_or] using kept
  obtain ⟨noBody, noVersion, noAccept⟩ := outside
  have same : (requestHeaders printable headers payload responseTarget).filter
        (fun header => header.1 = name)
      = headers.filter (fun header => header.1 = name) := by
    have versions : ∀ texts : List String,
        (texts.map (fun text => (versionHeader, text))).filter (fun header => header.1 = name)
          = [] := by
      simp [noVersion.symm]
    have accepts : ∀ texts : List String,
        (texts.map (fun text => (acceptHeader, text))).filter (fun header => header.1 = name)
          = [] := by
      simp [noAccept.symm]
    unfold requestHeaders
    rw [List.filter_append, List.filter_append, versions, accepts, List.append_nil,
      List.append_nil, List.filter_filter]
    apply List.filter_congr
    rintro ⟨other, value⟩ -
    by_cases named : other = name
    · subst named
      simp [noBody, noVersion, noAccept]
    · simp [named]
  simp only [getHeader, same]

theorem isJson_requestHeaders (headers : List Header)
    : isJson (requestHeaders printable headers payload responseTarget) = isJson headers := by
  unfold isJson
  rw [getHeader_requestHeaders (by decide)]

/-- Framing is left out before the headers are converged or after. -/
theorem requestHeaders_unframed (headers : List Header)
    : (requestHeaders printable headers payload responseTarget).filter (!isFraming ·)
      = requestHeaders printable (headers.filter (!isFraming ·)) payload responseTarget := by
  have versions : ∀ texts : List String,
      (texts.map (fun text => (versionHeader, text))).filter (!isFraming ·)
        = texts.map (fun text => (versionHeader, text)) := by
    intro texts
    apply List.filter_eq_self.mpr
    simp [isFraming, framing, bodyHeaders, versionHeader]
  have accepts : ∀ texts : List String,
      (texts.map (fun text => (acceptHeader, text))).filter (!isFraming ·)
        = texts.map (fun text => (acceptHeader, text)) := by
    intro texts
    apply List.filter_eq_self.mpr
    simp [isFraming, framing, bodyHeaders, acceptHeader]
  unfold requestHeaders
  rw [List.filter_append, List.filter_append, versions, accepts, List.filter_filter,
    List.filter_filter]
  simp only [Bool.and_comm]

/-- The version headers that were there are replaced. -/
theorem stamped_requestHeaders (method url : String) (headers : List Header) (extensions : X)
    : (Message.json method url (requestHeaders printable headers payload responseTarget) payload
        extensions).Stamped printable responseTarget := by
  have versions : ∀ (name : String) (texts : List String),
      (texts.map (fun text => (name, text))).filter (fun header => header.1 = name)
        = texts.map (fun text => (name, text)) := by
    simp
  have others : ∀ (name other : String) (texts : List String), name ≠ other →
      (texts.map (fun text => (name, text))).filter (fun header => header.1 = other) = [] := by
    intro name other texts different
    simp [different]
  have old : ∀ name, name = versionHeader ∨ name = acceptHeader →
      (headers.filter (fun header => !bodyHeaders.contains header.1 && header.1 != versionHeader
        && header.1 != acceptHeader)).filter (fun header => header.1 = name) = [] := by
    intro name either
    rw [List.filter_filter, List.filter_eq_nil_iff]
    rintro ⟨other, value⟩ - kept
    obtain ⟨rfl, ⟨_, noVersion⟩, noAccept⟩ : other = name
        ∧ (other ∉ bodyHeaders ∧ ¬other = versionHeader) ∧ ¬other = acceptHeader := by
      simpa using kept
    rcases either with same | same
    · exact noVersion same
    · exact noAccept same
  have different : versionHeader ≠ acceptHeader := by decide
  constructor
  · rw [requestHeaders, List.filter_append, List.filter_append, old _ (.inl rfl), versions,
      others _ _ _ different.symm, List.append_nil, List.nil_append]
  · rw [requestHeaders, List.filter_append, List.filter_append, old _ (.inr rfl), versions,
      others _ _ _ different, List.append_nil, List.nil_append]

end Requests

section Bodies

variable {platform : Platform} (frames : platform.client.Frames)

include frames

/-- A request with a converged payload is read as that payload. -/
theorem message_rebuilt {setup : Setup R V M C X ε σ} {request : Request X}
    {payload : List (String × Json)} (json : isJson request.headers = true)
    (readable : (Json.obj payload).Readable platform.floatRepr)
    : platform.message (setup.rebuilt platform request payload)
      = .json request.method request.url
        (requestHeaders platform.printable (request.headers.filter (!isFraming ·)) payload
          setup.policy.responseTarget)
        payload request.extensions := by
  have unframed := frames.request request.method request.url
    (requestHeaders platform.printable request.headers payload setup.policy.responseTarget)
    (Json.obj payload).dumps
  have stillJson : isJson (setup.rebuilt platform request payload).headers = true :=
    (isJson_congr unframed).trans ((isJson_requestHeaders request.headers).trans json)
  have read : platform.jsonBody (setup.rebuilt platform request payload) = some payload := by
    unfold Platform.jsonBody
    rw [if_pos stillJson]
    simp only [Setup.rebuilt, Option.bind_some, Json.loads_dumps readable]
  unfold Platform.message
  rw [read]
  simp only [Setup.rebuilt, unframed, requestHeaders_unframed]

/-- A response with a converged payload is read as that payload. -/
theorem answer_replacedBody {response : Response X} {request : Request X}
    {payload : List (String × Json)} (json : isJson response.headers = true)
    (readable : (Json.obj payload).Readable platform.floatRepr)
    : platform.answer (platform.replacedBody response payload request)
      = .json response.statusCode (response.headers.filter (!isFraming ·)) payload
        response.extensions := by
  have unframed : (platform.replacedBody response payload request).headers.filter (!isFraming ·)
      = response.headers.filter (!isFraming ·) := by
    refine (frames.response _ _ _).trans ?_
    rw [List.filter_filter]
    apply List.filter_congr
    rintro ⟨name, value⟩ -
    simp [isFraming, framing]
  have stillJson : isJson (platform.replacedBody response payload request).headers = true :=
    (isJson_congr unframed).trans json
  have read : platform.jsonAnswer (platform.replacedBody response payload request)
      = some payload := by
    unfold Platform.jsonAnswer
    rw [stillJson]
    obtain ⟨letter, rest, shown, _⟩ := Json.dumps_first readable
    have nonempty : (Json.obj payload).dumps.isEmpty = false := by rw [shown]; rfl
    simp only [Platform.replacedBody, Json.loads_dumps readable, nonempty, Bool.not_false,
      Bool.and_self, if_true]
  unfold Platform.answer
  rw [read]
  simp only [unframed]
  rfl

end Bodies

section Read

variable {platform : Platform} (exact : Json.ReprExact platform.floatRepr)

include exact

theorem jsonBody_some {request : Request X} {payload : List (String × Json)}
    (body : platform.jsonBody request = some payload)
    : isJson request.headers = true ∧ (Json.obj payload).Readable platform.floatRepr := by
  unfold Platform.jsonBody at body
  split at body
  case isFalse => cases body
  case isTrue json =>
    split at body
    case h_1 found read =>
      cases body
      obtain ⟨content, _, loaded⟩ := Option.bind_eq_some_iff.mp read
      exact ⟨json, Json.loads_readable exact loaded⟩
    case h_2 => cases body

theorem jsonAnswer_some {response : Response X} {payload : List (String × Json)}
    (body : platform.jsonAnswer response = some payload)
    : isJson response.headers = true ∧ (Json.obj payload).Readable platform.floatRepr := by
  unfold Platform.jsonAnswer at body
  split at body
  case isFalse => cases body
  case isTrue json =>
    split at body
    case h_1 found read =>
      cases body
      exact ⟨(Bool.and_eq_true_iff.mp json).1, Json.loads_readable exact read⟩
    case h_2 => cases body

end Read

-----------------------------------------------------------------------------------------
-- Transports implement bridges
-----------------------------------------------------------------------------------------

/-- What is sent on tells its version, whatever the given message told. -/
theorem convergedMessage_stamped {platform : Platform} {setup : Setup R V M C X ε σ}
    {converge : Json → TargetPolicy V M → ConvergeOptions M C → EStateM (AdapterError ε) σ Json}
    {message sent : Message X} {context : Option C} {state final : σ}
    (run : setup.convergedMessage platform converge context message state = .ok sent final)
    : sent.Stamped platform.printable setup.policy.responseTarget := by
  cases message with
  | other request =>
      cases run
      trivial
  | json method url headers payload extensions =>
      obtain ⟨value, middle, converged, run⟩ := Py.bind_ok.mp run
      cases value with
      | obj converged =>
          cases run
          exact stamped_requestHeaders _ _ _ _
      | _ => cases run

section Layers

variable {platform : Platform} (frames : platform.client.Frames)
  (exact : Json.ReprExact platform.floatRepr) {setup : Setup R V M C X ε σ}
  {converge : Json → TargetPolicy V M → ConvergeOptions M C → EStateM (AdapterError ε) σ Json}
  (readable : GivesReadable platform.floatRepr converge)

include frames exact readable

theorem message_convergedRequest (request : Request X) (context : Option C)
    : platform.message <$> setup.convergedRequest platform converge request context
      = setup.convergedMessage platform converge context (platform.message request) := by
  unfold Setup.convergedRequest
  cases body : platform.jsonBody request with
  | none =>
      have other : platform.message request = .other request := by
        simp only [Platform.message, body]
      rw [other]
      simp only [map_pure, other, Setup.convergedMessage]
  | some payload =>
      obtain ⟨json, given⟩ := jsonBody_some exact body
      have message : platform.message request
          = .json request.method request.url (request.headers.filter (!isFraming ·)) payload
            request.extensions := by
        simp only [Platform.message, body]
      rw [message]
      simp only [Setup.convergedMessage, map_bind]
      apply Py.bind_congr_of_ok
      intro state converged final run
      cases converged with
      | obj converged =>
          simp only [map_pure,
            message_rebuilt frames json (readable _ _ _ _ _ _ given run)]
      | _ => rfl

theorem answer_respond (response : Response X) (request : Request X) (context : Option C)
    : platform.answer <$> setup.respond platform converge response request context
      = setup.convergedAnswer converge context (platform.answer response) := by
  unfold Setup.respond
  cases body : platform.jsonAnswer response with
  | none =>
      have other : platform.answer response = .other response := by
        simp only [Platform.answer, body]
      rw [other]
      split <;> simp only [map_pure, other, Setup.convergedAnswer]
  | some payload =>
      obtain ⟨json, given⟩ := jsonAnswer_some exact body
      have answer : platform.answer response
          = .json response.statusCode (response.headers.filter (!isFraming ·)) payload
            response.extensions := by
        simp only [Platform.answer, body]
      rw [answer]
      simp only [Setup.convergedAnswer]
      split
      case isTrue => simp only [map_pure, answer]
      case isFalse =>
        rw [map_bind]
        apply Py.bind_congr_of_ok
        intro state converged final run
        cases converged with
        | obj converged =>
            simp only [map_pure, answer_replacedBody frames json (readable _ _ _ _ _ _ given run)]
        | _ => simp only [map_pure, answer]

/-- A transport around one that implements a service for stamped messages implements the bridge to
the service.
-/
theorem implements_bridge (steady : setup.Steady platform) {transport : Transport X ε σ}
    {service : Service X ε σ}
    (serves : ∀ request,
      (platform.message request).Stamped platform.printable setup.policy.responseTarget
      → platform.answer <$> transport request = service (platform.message request))
    : platform.Implements (setup.handle platform converge transport)
      (setup.bridge platform converge service) := by
  intro request
  unfold Setup.handle Setup.bridge
  simp only [map_bind, answer_respond frames exact readable, ← steady request]
  rw [← message_convergedRequest frames exact readable, bind_map_left]
  apply Py.bind_congr_of_ok
  intro state sent final run
  have stamped : (platform.message sent).Stamped platform.printable
      setup.policy.responseTarget := by
    have converged : setup.convergedMessage platform converge
        (setup.runtime.contextFor (some request)) (platform.message request) state
        = .ok (platform.message sent) final := by
      rw [← message_convergedRequest frames exact readable, map_eq_pure_bind,
        Py.bind_eq_of_ok run]
      rfl
    exact convergedMessage_stamped converged
  rw [← serves sent stamped, bind_map_left]

end Layers

theorem GivesReadable.sync {floatRepr : String → String} {setup : Setup R V M C X ε σ}
    (readable : GivesReadable floatRepr (setup.runtime.converge setup.run))
    : GivesReadable floatRepr (setup.runtime.convergeSync setup.run) := by
  intro payload target options state converged final given run
  apply readable payload target options state converged final given
  obtain ⟨handed, middle, ran, run⟩ := Py.bind_ok.mp run
  rw [ConvergenceRuntime.converge, Py.bind_eq_of_ok ran]
  cases handed with
  | payload data => exact run
  | awaitable result => cases run

/-- Transports around transports implement bridges around bridges, by induction over the stack. -/
theorem implements_bridges {platform : Platform} (frames : platform.client.Frames)
    (exact : Json.ReprExact platform.floatRepr)
    (converge : Setup R V M C X ε σ →
      Json → TargetPolicy V M → ConvergeOptions M C → EStateM (AdapterError ε) σ Json)
    {outer : List (Setup R V M C X ε σ)} (steady : ∀ setup ∈ outer, setup.Steady platform)
    (readable : ∀ setup ∈ outer, GivesReadable platform.floatRepr (converge setup))
    {transport : Transport X ε σ} {service : Service X ε σ}
    (implements : platform.Implements transport service)
    : platform.Implements
      (outer.foldr (fun setup inner => setup.handle platform (converge setup) inner) transport)
      (outer.foldr (fun setup inner => setup.bridge platform (converge setup) inner) service) := by
  induction outer with
  | nil => exact implements
  | cons setup outer ih =>
      have inner := ih (fun other member => steady other (List.mem_cons_of_mem _ member))
        (fun other member => readable other (List.mem_cons_of_mem _ member))
      exact implements_bridge frames exact (readable setup List.mem_cons_self)
        (steady setup List.mem_cons_self) (fun request _ => inner request)

/-- Stacked transports answer as a service behind their changes of versions does, if the transport
inside answers as the service does where the version headers tell the version of the payload and the
one that the last transport expects.
-/
theorem handleRequest_stack {platform : Platform} (frames : platform.client.Frames)
    (exact : Json.ReprExact platform.floatRepr) {outer : List (Setup R V M C X ε σ)}
    {last : Setup R V M C X ε σ} (sound : ∀ setup ∈ last :: outer, setup.Sound platform)
    {transport : Transport X ε σ} {service : Service X ε σ}
    (serves : ∀ request,
      (platform.message request).Stamped platform.printable last.policy.responseTarget
      → platform.answer <$> transport request = service (platform.message request))
    : platform.Implements
        (outer.foldr (·.handleRequest platform) (last.handleRequest platform transport))
        (outer.foldr (fun setup => setup.bridge platform (setup.runtime.convergeSync setup.run))
          (last.bridge platform (last.runtime.convergeSync last.run) service))
      ∧ platform.Implements
        (outer.foldr (·.handleAsyncRequest platform) (last.handleAsyncRequest platform transport))
        (outer.foldr (fun setup => setup.bridge platform (setup.runtime.converge setup.run))
          (last.bridge platform (last.runtime.converge last.run) service)) := by
  obtain ⟨lastSound, sound⟩ := List.forall_mem_cons.mp sound
  have steady : ∀ setup ∈ outer, setup.Steady platform :=
    fun setup member => (sound setup member).steady
  constructor
  · apply implements_bridges frames exact (fun setup => setup.runtime.convergeSync setup.run) steady
      (fun setup member => (sound setup member).readable.sync)
    exact implements_bridge frames exact lastSound.readable.sync lastSound.steady serves
  · apply implements_bridges frames exact (fun setup => setup.runtime.converge setup.run) steady
      (fun setup member => (sound setup member).readable)
    exact implements_bridge frames exact lastSound.readable lastSound.steady serves

-- A shop that takes only requests whose version header is that of their payload.

/-- Headers as the client library completes them; floats are shown as they are written. -/
def shop : Platform where
  client :=
    { requestHeaders := fun _ _ headers content =>
        (if headers.any (·.1 = "host") then [] else [("host", "shop.example")]) ++ headers
          ++ [("content-length", toString content.length)]
      responseHeaders := fun _ headers content =>
        headers ++ [("content-length", toString content.length)] }
  floatRepr := id
  printable := fun _ => true

theorem shop_frames : shop.client.Frames where
  request := by
    intro method url headers content
    simp only [shop, List.filter_append]
    split <;> simp [isFraming, framing, bodyHeaders]
  response := by
    intro statusCode headers content
    simp [shop, List.filter_append, isFraming, framing, bodyHeaders]

theorem shop_reprExact : Json.ReprExact shop.floatRepr := Json.reprExact_id

/-- The members of a payload under a version. -/
def relabelled (version : String) (members : List (String × Json)) : List (String × Json) :=
  ("version", .str version) :: members.filter (fun member => member.1 ≠ "version")

theorem relabelled_readable {floatRepr : String → String} {version : String}
    {members : List (String × Json)} (readable : (Json.obj members).Readable floatRepr)
    : (Json.obj (relabelled version members)).Readable floatRepr := by
  obtain ⟨nodup, values⟩ := readable
  refine ⟨List.nodup_cons.mpr ⟨?_, (List.filter_sublist.map Prod.fst).nodup nodup⟩, trivial,
    Json.membersReadable_iff.mpr ?_⟩
  · intro member
    obtain ⟨item, kept, same⟩ := List.mem_map.mp member
    exact (of_decide_eq_true (List.mem_filter.mp kept).2) same
  · intro member kept
    exact Json.membersReadable_iff.mp values member (List.mem_filter.mp kept).1

/-- A transport between two versions. -/
def relabelling (target responseTarget : String)
    : Setup Unit Unit Unit Unit Unit Unit Unit where
  run := fun _ arguments =>
    match arguments.payload, arguments.target with
    | .obj members, .text version => return .payload (.obj (relabelled version members))
    | data, _ => return .payload data
  runtime :=
    { bound := some (), context := none, runId := none, contextFactory := none,
      validateTarget := false }
  policy := { target := .text target, responseTarget := .text responseTarget }

theorem relabelling_sound (target responseTarget : String)
    : (relabelling target responseTarget).Sound shop where
  steady := fun _ => rfl
  readable := by
    intro payload target options state converged final readable run
    cases target with
    | text version =>
        cases run
        exact relabelled_readable readable
    | _ =>
        cases run
        exact readable

def echoed (request : Request Unit) : Response Unit where
  statusCode := 200
  headers := request.headers
  content := request.content.getD []
  extensions := ()
  request := none

def strictEcho : Transport Unit Unit Unit := fun request =>
  match shop.message request with
  | .json _ _ headers payload _ =>
      if headers.filter (fun header => header.1 = versionHeader)
          = (shownVersion shop.printable payload).toList.map (versionHeader, ·) then
        return echoed request
      else throw (.raised ())
  | .other _ => return echoed request

def echo : Service Unit Unit Unit
  | .json _ _ headers payload extensions => return .json 200 headers payload extensions
  | .other request => return .other (echoed request)

theorem strictEcho_serves {responseTarget : TargetPolicy Unit Unit} (request : Request Unit)
    (stamped : (shop.message request).Stamped shop.printable responseTarget)
    : shop.answer <$> strictEcho request = echo (shop.message request) := by
  have bodies : shop.jsonAnswer (echoed request) = shop.jsonBody request := by
    unfold Platform.jsonAnswer Platform.jsonBody
    cases content : request.content with
    | none => simp [echoed, content]
    | some text =>
        cases text with
        | nil =>
            have unread : Json.loads shop.floatRepr [] = none := by decide +kernel
            simp [echoed, content, unread]
        | cons letter text => simp [echoed, content]
  cases body : shop.jsonBody request with
  | none =>
      have message : shop.message request = .other request := by
        simp only [Platform.message, body]
      have answer : shop.answer (echoed request) = .other (echoed request) := by
        simp only [Platform.answer, bodies, body]
      rw [strictEcho, message]
      simp only [map_pure, answer, echo]
  | some payload =>
      have message : shop.message request = .json request.method request.url
          (request.headers.filter (!isFraming ·)) payload request.extensions := by
        simp only [Platform.message, body]
      have answer : shop.answer (echoed request)
          = .json 200 (request.headers.filter (!isFraming ·)) payload request.extensions := by
        simp only [Platform.answer, bodies, body]
        rfl
      rw [message] at stamped
      rw [strictEcho, message]
      simp only [if_pos stamped.1, map_pure, answer, echo]

/-- Witness: between an application of the first version and a shop of the third, by two transports.
-/
theorem handleRequest_stack_shop
    : shop.Implements
        ([relabelling "2" "1"].foldr (·.handleRequest shop)
          ((relabelling "3" "2").handleRequest shop strictEcho))
        ([relabelling "2" "1"].foldr
          (fun setup => setup.bridge shop (setup.runtime.convergeSync setup.run))
          ((relabelling "3" "2").bridge shop
            ((relabelling "3" "2").runtime.convergeSync (relabelling "3" "2").run) echo)) :=
  (handleRequest_stack shop_frames shop_reprExact
    (by
      intro setup member
      rcases List.mem_cons.mp member with rfl | member
      · exact relabelling_sound "3" "2"
      · rw [List.mem_singleton.mp member]
        exact relabelling_sound "2" "1")
    strictEcho_serves).1

end Pyverge.Httpx
