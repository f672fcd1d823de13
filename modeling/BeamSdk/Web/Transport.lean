import BeamSdk.Web.Upstream

/-! The browser's side: one operation over HTTP, retried by `withRetry`, with each attempt going
through the network, the broker's `handle` and the upstream. -/

namespace Beam.Web

inductive BeamErrorCode
  | invalidArgument
  | permissionDenied
  | notFound
  | conflict
  | resourceExhausted
  | unavailable
  | internal
  | sourceAccessDenied
  | destinationAccessDenied
  | configInvalid
  | authFailed
  | authExpired
  | network
  | timeout
  | aborted
  | unsupportedEnvironment
  | protocol
  deriving DecidableEq

def RETRYABLE_CODES : List BeamErrorCode :=
    [.unavailable, .internal, .network, .timeout, .resourceExhausted]

def asRemoteErrorCode : String → Option BeamErrorCode
  | "invalid_argument" => some .invalidArgument
  | "permission_denied" => some .permissionDenied
  | "not_found" => some .notFound
  | "conflict" => some .conflict
  | "resource_exhausted" => some .resourceExhausted
  | "unavailable" => some .unavailable
  | "internal" => some .internal
  | "source_access_denied" => some .sourceAccessDenied
  | "destination_access_denied" => some .destinationAccessDenied
  | _ => none

def codeFromStatus (status : ℕ) : BeamErrorCode :=
  if status = 400 ∨ status = 422 then .invalidArgument
  else if status = 401 then .authFailed
  else if status = 403 then .permissionDenied
  else if status = 404 then .notFound
  else if status = 409 then .conflict
  else if status = 429 then .resourceExhausted
  else if 500 ≤ status then if status = 503 then .unavailable else .internal
  else .internal

/-- What an attempt fails with; what is not a `BeamError` has no code, and is never retried. -/
structure Failure where
  code : Option BeamErrorCode
  retryable : Bool
  deriving DecidableEq

def beamError (code : BeamErrorCode) : Failure := ⟨some code, RETRYABLE_CODES.contains code⟩

inductive Content
  | absent
  | json (value : Json)
  | malformed
  | unreadable

structure HttpResponse where
  status : ℕ
  content : Content

def HttpResponse.ok (response : HttpResponse) : Bool :=
    200 ≤ response.status && response.status ≤ 299

def toBeamError (response : HttpResponse) : Failure :=
  let remote := match response.content with
    | .json body => (Json.text (body.member "code")).bind asRemoteErrorCode
    | _ => none
  if response.status = 401 then ⟨some .authExpired, false⟩
  else beamError (remote.getD (codeFromStatus response.status))

structure RequestOptions where
  method : String
  path : String
  body : Option Json
  headers : OrderedMap String String
  idempotencyKey : Option String
  authenticated : Bool

/-- `basePathname` is the path of the base URL, without slashes at its end. -/
structure HttpTransport where
  basePathname : String
  tokenProvider : Bool
  maxAttempts : ℕ
  defaultHeaders : OrderedMap String String
  write : Json → String

structure FetchInit where
  pathname : String
  method : String
  headers : OrderedMap String String
  body : Option String

/-- The key of the whole operation; `fresh` is what `newIdempotencyKey` draws. -/
def RequestOptions.operationKey (o : RequestOptions) (fresh : String) : Option String :=
  o.idempotencyKey.or (if o.method ≠ "GET" ∧ o.method ≠ "DELETE" then some fresh else none)

namespace HttpTransport
variable (t : HttpTransport) (o : RequestOptions)

def authenticates : Bool := o.authenticated && t.tokenProvider

def headers (key token : Option String) : OrderedMap String String :=
  let spread (headers more : OrderedMap String String) :=
    more.foldl (fun h entry => h.set entry.1 entry.2) headers
  let merged := spread (spread [("accept", "application/json")] t.defaultHeaders) o.headers
  let typed :=
    if o.body.isSome ∧ merged.get "content-type" = none then
      merged.set "content-type" "application/json" else merged
  let keyed := match key with
    | some key => typed.set "Idempotency-Key" key
    | none => typed
  match token with
  | some value => keyed.set "authorization" s!"Bearer {value}"
  | none => keyed

def init (key token : Option String) : FetchInit :=
  ⟨t.basePathname ++ "/" ++ String.ofList (o.path.toList.dropWhile (· = '/')), o.method,
    t.headers o key token,
    o.body.map t.write⟩

end HttpTransport

def wireHeaders (headers : OrderedMap String String) : OrderedMap String String :=
  headers.foldl (fun sent entry =>
    let name := String.ofList (entry.1.toList.map Char.toLower)
    match sent.get name with
    | some value => sent.set name (value ++ ", " ++ entry.2)
    | none => sent ++ [(name, entry.2)]) []

/-- What happens to a request that reaches the broker: what the network adds to it, the platform,
the application's code and the answers the upstream gets. `acts` says whether BeamCore acts on a
call made to it, and `fallback` is what the application answers where the broker does not. -/
structure BrokerWorld (E N : Type) where
  addedHeaders : OrderedMap String String
  host : Host TransferRecord
  application : (call : Call E) → Except (Thrown E) (Answer E TransferRecord call)
  sdk : (call : SdkCall N) → Except (Thrown E) (SdkAnswer N call)
  createdAt : String
  acts : Bool
  fallback : HttpResponse

namespace BrokerWorld
variable {E N : Type} (w : BrokerWorld E N) (options : BeamBrokerOptions)

def request (init : FetchInit) : Request :=
  ⟨init.method, init.pathname, [], wireHeaders init.headers ++ w.addedHeaders, init.body⟩

def answers : (call : Call E) → Except (Thrown E) (Answer E TransferRecord call)
  | .createTransfer input context =>
      ((Upstream.createTransfer w.createdAt input context).run w.sdk).1
  | call => w.application call

def handled (init : FetchInit) : Except (Thrown E) (Option (Response TransferRecord)) ×
    List (Call E) :=
  (Broker.handle w.host options (w.request init)).run w.answers

def keysOf : Call E → List (Option String)
  | .createTransfer input context =>
    ((Upstream.createTransfer w.createdAt input context).run w.sdk).2.filterMap SdkCall.key
  | _ => []

def creates (init : FetchInit) : List (Option String) :=
  if w.acts then (w.handled options init).2.flatMap w.keysOf else []

def contentOf : Body TransferRecord → Content
  | .empty => .absent
  | .failure error code => .json (.object [("error", .string error), ("code", .string code)])
  | .value record => .json (.object [("id", .string record.id), ("status", .string record.status)])
  | .session _ _ _ _ | .transfers _ | .cancelled => .json (.object [])
  | .stream _ _ => .malformed

def response (init : FetchInit) : HttpResponse :=
  match (w.handled options init).1 with
  | .ok (some response) => ⟨response.status, contentOf response.body⟩
  | _ => w.fallback

end BrokerWorld

inductive Lost
  | timeout
  | aborted
  | network

def Lost.failure : Lost → Failure
  | .timeout => beamError .timeout
  | .aborted => ⟨some .aborted, false⟩
  | .network => beamError .network

/-- One request's way: it may not reach the broker, and what comes back may be another's answer, or
nothing. -/
inductive Exchange (E N : Type)
  | undelivered (reply : Except Lost HttpResponse)
  | delivered (broker : BrokerWorld E N) (reply : Option (Except Lost HttpResponse))

/-- One turn of an operation: whether its caller has aborted, the token handed out, and the
exchange. -/
structure Turn (E N : Type) where
  aborted : Bool
  token : Except Failure String
  exchange : Exchange E N

/-- Where an operation is: at the head of `withRetry`'s loop, at a second try with a new token, or
over. -/
inductive Stage
  | looping
  | reminted
  | finished (outcome : Except Failure Content)

structure Control where
  attempt : ℕ
  retriedAfterAuthFailure : Bool
  stage : Stage

structure Operation where
  control : Control
  invalidations : ℕ
  sent : List FetchInit
  core : BeamCore

section
variable {E N : Type} (t : HttpTransport) (options : BeamBrokerOptions) (o : RequestOptions)
    (key : Option String)

def Control.start : Control := ⟨0, false, .looping⟩

def Control.finish (c : Control) (outcome : Except Failure Content) : Control :=
    { c with stage := .finished outcome }

def Control.failed (c : Control) (failure : Failure) : Control :=
  let c := { c with attempt := c.attempt + 1 }
  if t.maxAttempts ≤ c.attempt ∨ !failure.retryable then c.finish (.error failure)
    else { c with stage := .looping }

def Control.answered (c : Control) : Except Lost HttpResponse → Control × Bool
  | .error lost => (c.failed t lost.failure, false)
  | .ok response =>
    if response.ok then
      match response.content with
      | .malformed => (c.failed t ⟨some .protocol, false⟩, false)
      | .unreadable => (c.failed t ⟨none, false⟩, false)
      | content => (c.finish (.ok content), false)
    else if response.status = 401 ∧ t.authenticates o ∧ !c.retriedAfterAuthFailure then
      ({ c with retriedAfterAuthFailure := true, stage := .reminted }, true)
    else (c.failed t (toBeamError response), false)

def Control.takes (c : Control) (turn : Turn E N) : Bool :=
  match c.stage with
  | .finished _ => false
  | .looping => !turn.aborted
  | .reminted => true

def Turn.init (turn : Turn E N) : Except Failure FetchInit :=
  if t.authenticates o then turn.token.map fun token =>
    t.init o key (some token) else .ok (t.init o key none)

def Exchange.reply (init : FetchInit) : Exchange E N → Except Lost HttpResponse
  | .undelivered reply | .delivered _ (some reply) => reply
  | .delivered broker none => .ok (broker.response options init)

def Exchange.creates (init : FetchInit) : Exchange E N → List (Option String)
  | .undelivered _ => []
  | .delivered broker _ => broker.creates options init

def Turn.creates (turn : Turn E N) : List (Option String) :=
  match turn.init t o key with
  | .ok init => turn.exchange.creates options init
  | .error _ => []

def Control.next (c : Control) (turn : Turn E N) : Control × Bool :=
  if c.takes turn then
    match turn.init t o key with
    | .ok init => c.answered t o (turn.exchange.reply options init)
    | .error failure => (c.failed t failure, false)
  else
    match c.stage with
    | .looping => (c.finish (.error ⟨some .aborted, false⟩), false)
    | _ => (c, false)

def Operation.start : Operation := ⟨.start, 0, [], ⟨[]⟩⟩

def Operation.step (s : Operation) (turn : Turn E N) : Operation :=
  let next := s.control.next t options o key turn
  if s.control.takes turn then
    { control := next.1
      invalidations := s.invalidations + if next.2 then 1 else 0
      sent := s.sent ++ (turn.init t o key).toOption.toList
      core := (turn.creates t options o key).foldl BeamCore.create s.core }
  else { s with control := next.1 }

/-- `HttpTransport.request`, as far as the turns go. -/
def request (fresh : String) (turns : List (Turn E N)) : Operation :=
  turns.foldl (Operation.step t options o (o.operationKey fresh)) .start

end

inductive Destination
  | one (reference : String)
  | many (references : List String)

structure CreateTransferOptions where
  source : String
  destination : Destination
  name : Option String
  metadata : Option Json

/-- What `Transfers.create` posts, with a key that `newIdempotencyKey("transfer-create")` draws. -/
def createOptions (options : CreateTransferOptions) (key : String) : RequestOptions :=
  let destinations := match options.destination with
    | .one reference => [reference]
    | .many references => references
  let optional (name : String) (value : Option Json) : List (String × Json) :=
    value.toList.map fun v => (name, v)
  { method := "POST"
    path := "/transfers"
    body := some <| .object <|
      [("source", .string options.source), ("destinations", .array (destinations.map .string))] ++
        optional "name" (options.name.map .string) ++ optional "metadata" options.metadata
    headers := []
    idempotencyKey := some key
    authenticated := true }

end Beam.Web
