import Mathlib.Data.List.DropRight
import BeamSdk.Library.Script
import BeamSdk.Library.Uri
import BeamSdk.Web.Token

/-! The broker's request handler: routing, verification of the session's token, and the calls it
makes to the application's `authorize` and to the upstream. -/

namespace Beam.Web

structure Request where
  method : String
  pathname : String
  searchParams : OrderedMap String String
  headers : OrderedMap String String
  -- absent where the body cannot be read
  body : Option String

def Request.origin (request : Request) : Option String :=
    (request.headers.get "origin").filter (· ≠ "")

structure BeamSessionContext where
  subject : Option Json
  organizationId : Option Json
  scopes : List BeamScope
  claims : BeamTokenClaims
  request : Request

structure AuthorizedSession where
  subject : Option String
  organizationId : Option String
  scopes : List String
  ttlSeconds : Option Number

structure CreateRoomInput where
  name : Option String
  ttlSeconds : Option Json
  region : Option String
  mode : Option String
  metadata : Option Json

structure CreateTransferInput where
  source : String
  destinations : List String
  name : Option String
  metadata : Option Json

structure ListTransfersOptions where
  limit : Option ℚ
  status : Option String

inductive Capability
  | createRoom
  | getRoom
  | createTransfer
  | getTransfer
  | cancelTransfer
  | listTransfers
  | watchTransfer
  deriving DecidableEq

def Capability.text : Capability → String
  | .createRoom => "createRoom"
  | .getRoom => "getRoom"
  | .createTransfer => "createTransfer"
  | .getTransfer => "getTransfer"
  | .cancelTransfer => "cancelTransfer"
  | .listTransfers => "listTransfers"
  | .watchTransfer => "watchTransfer"

inductive Call (E : Type)
  | authorize (request : Request)
  | createRoom (input : CreateRoomInput) (context : BeamSessionContext)
  | getRoom (roomId : String) (context : BeamSessionContext)
  | createTransfer (input : CreateTransferInput) (context : BeamSessionContext)
  | getTransfer (transferId : String) (context : BeamSessionContext)
  | cancelTransfer (transferId : String) (context : BeamSessionContext)
  | listTransfers (options : ListTransfersOptions) (context : BeamSessionContext)
  | watchTransfer (transferId : String) (context : BeamSessionContext)
  | onError (error : Thrown E)

/-- How the records of a transfer end: the iterator is done, it throws, or it is still waiting. -/
inductive Ending (E : Type)
  | closed
  | threw (error : Thrown E)
  | waiting

structure Watch (E V : Type) where
  records : List V
  ending : Ending E

abbrev Answer (E V : Type) : Call E → Type
  | .authorize _ => Option AuthorizedSession
  | .createRoom _ _ | .getRoom _ _ | .createTransfer _ _ | .getTransfer _ _ | .listTransfers _ _ =>
      V
  | .cancelTransfer _ _ | .onError _ => Unit
  | .watchTransfer _ _ => Watch E V

inductive Event (V : Type)
  | transfer (sequence : ℕ) (record : V)
  | error

inductive StreamState
  | closed
  | errored
  | readable

inductive Body (V : Type)
  | empty
  | failure (error code : String)
  | session (token : String) (expiresIn : Number) (scopes : List String) (endpoint : String)
  | value (value : V)
  | transfers (value : V)
  | cancelled
  | stream (events : List (Event V)) (state : StreamState)

structure Response (V : Type) where
  status : ℕ
  headers : OrderedMap String String
  body : Body V

structure BeamBrokerOptions where
  secret : String
  upstream : List Capability
  basePath : Option String
  ttlSeconds : Option Number
  allowedOrigins : Option (List String)
  issuer : Option String
  audience : Option String
  hasOnError : Bool

/-- The platform, with what differs from request to request: the time, and the random identifier of
a new token. `serializes` says on which of the application's values `JSON.stringify` does not
throw. -/
structure Host (V : Type) extends Platform where
  now : ℚ
  jti : String
  serializes : V → Bool

def Body.serializes {V : Type} (h : Host V) : Body V → Bool
  | .value v | .transfers v => h.serializes v
  | _ => true

inductive RouteName
  | token
  | roomsCreate
  | roomsGet
  | transfersCreate
  | transfersList
  | transfersEvents
  | transfersCancel
  | transfersGet
  deriving DecidableEq

inductive Pattern
  | exact (path : String)
  | withId (before after : String)

def Pattern.exec : Pattern → List Char → Option (List Char)
  | .exact fixed, path => if path = fixed.toList then some [] else none
  | .withId before after, path =>
    let rest := path.drop before.toList.length
    let id := rest.takeWhile (· ≠ '/')
    if path.take before.toList.length = before.toList ∧ id ≠ [] ∧
      rest.drop id.length = after.toList then some id
    else none

structure Route where
  name : RouteName
  method : String
  pattern : Pattern

def ROUTES : List Route :=
  [⟨.token, "POST", .exact "/token"⟩,
    ⟨.roomsCreate, "POST", .exact "/rooms"⟩,
    ⟨.roomsGet, "GET", .withId "/rooms/" ""⟩,
    ⟨.transfersCreate, "POST", .exact "/transfers"⟩,
    ⟨.transfersList, "GET", .exact "/transfers"⟩,
    ⟨.transfersEvents, "GET", .withId "/transfers/" "/events"⟩,
    ⟨.transfersCancel, "POST", .withId "/transfers/" "/cancel"⟩,
    ⟨.transfersGet, "GET", .withId "/transfers/" ""⟩]

structure RouteMatch where
  name : RouteName
  id : String

def Route.matches (route : Route) (method : String) (path : List Char) :
    Option (RouteName × List Char) :=
  if route.method = method then (route.pattern.exec path).map fun id => (route.name, id) else none

def firstMatch (method : String) (path : List Char) : Option (RouteName × List Char) :=
  ROUTES.findSome? fun route => route.matches method path

section
variable {E : Type}

def matchRoute (method : String) (path : List Char) : Except (Thrown E) (Option RouteMatch) :=
  match firstMatch method path with
  | none => .ok none
  | some (name, id) =>
    match Uri.decodeURIComponent id with
    | some text => .ok (some ⟨name, String.ofList text⟩)
    | none => .error (.native "URIError")

end

def withoutTrailingSlashes (text : List Char) : List Char := text.rdropWhile (· = '/')

/-- Whether the language's `trim` drops a character. -/
def isBlank (c : Char) : Bool :=
  (9 ≤ c.toNat && c.toNat ≤ 13) || (0x2000 ≤ c.toNat && c.toNat ≤ 0x200A) ||
    [0x20, 0xA0, 0x1680, 0x2028, 0x2029, 0x202F, 0x205F, 0x3000, 0xFEFF].contains c.toNat

def trim (text : List Char) : List Char := (text.dropWhile isBlank).rdropWhile isBlank

namespace Broker
variable {E V : Type} (h : Host V) (options : BeamBrokerOptions)

abbrev Program (E V α : Type) := Script (Call E) (Answer E V) (Thrown E) α

def ask (call : Call E) : Program E V (Answer E V call) := Script.io call

def basePath : List Char := withoutTrailingSlashes (options.basePath.getD "/api/beam").toList

def audience : String := options.audience.getD "beam-web-sdk"

def corsHeaders (request : Request) : OrderedMap String String :=
  match request.origin, options.allowedOrigins with
  | some origin, some allowed =>
    if allowed.contains origin then
      [("access-control-allow-origin", origin), ("vary", "Origin"),
        ("access-control-allow-methods", "GET, POST, OPTIONS"),
        ("access-control-allow-headers", "authorization, content-type, idempotency-key"),
        ("access-control-allow-credentials", "true"), ("access-control-max-age", "600")]
    else []
  | _, _ => []

/-- The status a `Response` with a body is made with, converted to 16 bits: none below 200 or above
599, and none of those that allow no body. -/
def statusOf (status : ℤ) : Except (Thrown E) ℕ :=
  let code := (status % 65536).toNat
  if code < 200 ∨ 599 < code then .error (.native "RangeError")
  else if code = 204 ∨ code = 205 ∨ code = 304 then .error (.native "TypeError")
  else .ok code

def json (request : Request) (body : Body V) (status : ℤ) : Except (Thrown E) (Response V) := do
  if !body.serializes h then throw (.native "TypeError")
  let code ← statusOf status
  return ⟨code, [("content-type", "application/json"), ("cache-control", "no-store")] ++
    corsHeaders options request,
    body⟩

def report (error : Thrown E) : Program E V Unit :=
  if options.hasOnError then ask (.onError error) else pure ()

def failure (request : Request) : Thrown E → Program E V (Response V)
  | .brokerError message status code =>
      Script.ofExcept (json h options request (.failure message code) status)
  | .beamTokenError message code =>
    Script.ofExcept
      (json h options request (.failure message code)
        (if code = "insufficient_scope" then 403 else 401))
  | error => do
    report options error
    Script.ofExcept
      (json h options request
        (.failure "The Beam broker encountered an internal error." "internal") 500)

def verify (request : Request) (requiredScopes : List BeamScope) : Except
    (Thrown E) BeamTokenClaims := do
  let header := ((request.headers.get "authorization").getD "").toList
  if header.take 7 ≠ "Bearer ".toList then
    throw (.beamTokenError "Missing bearer token." "unauthenticated")
  let claims ← verifyToken h.toPlatform h.now (String.ofList (trim (header.drop 7)))
    ⟨options.secret, audience options, request.origin, none⟩
  assertScopes claims requiredScopes
  return claims

def contextFrom (request : Request) (claims : BeamTokenClaims) : BeamSessionContext :=
  ⟨claims.sub, claims.org, claims.scopes, claims, request⟩

def readJson (request : Request) : Except (Thrown E) Json :=
  let invalid := .brokerError "Request body is not valid JSON." 400 "invalid_argument"
  match request.body with
  | none => .error invalid
  | some "" => .ok (.object [])
  | some text =>
    match h.parse text with
    | none => .error invalid
    | some (.object members) => .ok (.object members)
    | some (.array items) => .ok (.array items)
    | some _ => .ok (.object [])

def requireCapability (capability : Capability) : Except (Thrown E) Unit :=
  let name := capability.text
  if options.upstream.contains capability then .ok ()
  else
    let advice := "Add it to the `upstream` passed to createBeamBroker."
    .error (.brokerError
      s!"This Beam broker does not implement {name}. {advice}" 501 "not_implemented")

def granted (session : AuthorizedSession) (body : Json) : List String :=
  match body.member "scopes" with
  | some (.array requested) =>
    session.scopes.filter fun scope => requested.any fun item => Json.text (some item) = some scope
  | _ => session.scopes

def handleToken (request : Request) : Program E V (Response V) := do
  match ← ask (.authorize request) with
  | none => Script.fail (.brokerError "Not permitted to obtain a Beam token." 401 "unauthenticated")
  | some session =>
    let body ← Script.ofExcept (readJson h request)
    if (granted session body).length = 0 then
      Script.fail
        (.brokerError "None of the requested scopes are permitted for this session." 403 "permission_denied")
    else
      let minted ← Script.ofExcept <| mintToken h.toPlatform h.now h.jti
        ⟨options.secret, options.issuer, some (audience options), session.subject,
          session.organizationId,
          granted session body, session.ttlSeconds.or options.ttlSeconds, request.origin⟩
      Script.ofExcept <| json h options request
        (.session minted.token minted.expiresIn minted.scopes
          (String.ofList (basePath options))) 200

def enqueue : ℕ → List V → List (Event V) × Bool
  | _, [] => ([], true)
  | sequence, record :: records =>
    if h.serializes record then
      ((.transfer (sequence + 1) record) :: (enqueue (sequence + 1) records).1,
        (enqueue (sequence + 1) records).2)
    else ([], false)

def streamFailed (events : List (Event V)) (error : Thrown E) : Program E V (Body V) := do
  match ← (report options error).attempt with
  | .ok () => return .stream (events ++ [.error]) .closed
  | .error _ => return .stream events .errored

def streamBody (transferId : String) (context : BeamSessionContext) : Program E V (Body V) := do
  match ← (ask (.watchTransfer transferId context)).attempt with
  | .error error => streamFailed options [] error
  | .ok watch =>
    match enqueue h 0 watch.records with
    | (events, false) => streamFailed options events (.native "TypeError")
    | (events, true) =>
      match watch.ending with
      | .closed => return .stream events .closed
      | .threw error => streamFailed options events error
      | .waiting => return .stream events .readable

def handleTransferEvents (request : Request) (transferId : String) (context : BeamSessionContext) :
    Program E V (Response V) := do
  Script.ofExcept (requireCapability options .watchTransfer)
  let body ← streamBody h options transferId context
  return ⟨200, [("content-type", "text/event-stream"), ("cache-control", "no-store"),
    ("connection", "keep-alive"),
    ("x-accel-buffering", "no")] ++ corsHeaders options request, body⟩

def createRoomInput (body : Json) : CreateRoomInput :=
  ⟨Json.text (body.member "name"), (body.member "ttl_seconds").filter isNumber,
    Json.text (body.member "region"),
    Json.text (body.member "mode"), body.member "metadata"⟩

def createTransferInput (body : Json) : Except (Thrown E) CreateTransferInput :=
  match body.member "source", body.member "destinations" with
  | some (.string source), some (.array destinations) =>
    match destinations.mapM h.toText with
    | some destinations =>
      .ok ⟨source, destinations, Json.text (body.member "name"), body.member "metadata"⟩
    | none => .error (.native "TypeError")
  | _, _ => .error (.brokerError "`source` and `destinations` are required." 400 "invalid_argument")

def listTransfersOptions (request : Request) : ListTransfersOptions :=
  ⟨(h.toNumber ((request.searchParams.get "limit").getD "")).filter (0 < ·),
    request.searchParams.get "status"⟩

/-- The guarded part of `handle`: the branches of its `switch`. -/
def serve (route : RouteMatch) (request : Request) : Program E V (Response V) :=
  match route.name with
  | .token => handleToken h options request
  | .roomsCreate => do
    let claims ← Script.ofExcept (verify h options request [.roomsCreate])
    let body ← Script.ofExcept (readJson h request)
    Script.ofExcept (requireCapability options .createRoom)
    let room ← ask (.createRoom (createRoomInput body) (contextFrom request claims))
    Script.ofExcept (json h options request (.value room) 201)
  | .roomsGet => do
    let claims ← Script.ofExcept (verify h options request [.roomRead])
    Script.ofExcept (requireCapability options .getRoom)
    let room ← ask (.getRoom route.id (contextFrom request claims))
    Script.ofExcept (json h options request (.value room) 200)
  | .transfersCreate => do
    let claims ← Script.ofExcept (verify h options request [.transfersCreate])
    let body ← Script.ofExcept (readJson h request)
    let input ← Script.ofExcept (createTransferInput h body)
    Script.ofExcept (requireCapability options .createTransfer)
    let transfer ← ask (.createTransfer input (contextFrom request claims))
    Script.ofExcept (json h options request (.value transfer) 201)
  | .transfersList => do
    let claims ← Script.ofExcept (verify h options request [.transfersRead])
    Script.ofExcept (requireCapability options .listTransfers)
    let transfers ← ask (.listTransfers (listTransfersOptions h request)
      (contextFrom request claims))
    Script.ofExcept (json h options request (.transfers transfers) 200)
  | .transfersGet => do
    let claims ← Script.ofExcept (verify h options request [.transfersRead])
    Script.ofExcept (requireCapability options .getTransfer)
    let transfer ← ask (.getTransfer route.id (contextFrom request claims))
    Script.ofExcept (json h options request (.value transfer) 200)
  | .transfersEvents => do
    let claims ← Script.ofExcept (verify h options request [.transfersRead])
    handleTransferEvents h options request route.id (contextFrom request claims)
  | .transfersCancel => do
    let claims ← Script.ofExcept (verify h options request [.transfersCancel])
    Script.ofExcept (requireCapability options .cancelTransfer)
    ask (.cancelTransfer route.id (contextFrom request claims))
    Script.ofExcept (json h options request .cancelled 200)

def pathOf (request : Request) : Option (List Char) :=
  let pathname := request.pathname.toList
  if pathname.take (basePath options).length = basePath options then
    match pathname.drop (basePath options).length with
    | [] => some ['/']
    | path => some path
  else none

def handle (request : Request) : Program E V (Option (Response V)) :=
  match pathOf options request with
  | none => pure none
  | some path =>
    if request.method = "OPTIONS" then pure (some ⟨204, corsHeaders options request, .empty⟩)
    else
      -- outside the guard of the branches
      match matchRoute request.method path with
      | .error error => Script.fail error
      | .ok none => pure none
      | .ok (some route) => do
        match ← (serve h options route request).attempt with
        | .ok response => return some response
        | .error error => return some (← failure h options request error)

end Broker
end Beam.Web
