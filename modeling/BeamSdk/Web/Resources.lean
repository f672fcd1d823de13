import BeamSdk.Library.OrderedMap
import BeamSdk.Web.Agent

/-! The subscriptions and media sessions of a Web Agent's client, over its transport: how they come
to be, how they end, and what the agent is told of it. -/

namespace Beam.Web.Agent

inductive Remote
  | subscription (id : String)
  | media (id : String)
  deriving DecidableEq

inductive Purpose
  | subscribe (media : Bool)
  | offer (m : ℕ)
  | other
  deriving DecidableEq

inductive SubscriptionState
  | preparing
  | ready
  | closed
  deriving DecidableEq

structure Subscription where
  id : String
  -- of the kind `media`, not `message`
  media : Bool
  state : SubscriptionState

structure MediaSession where
  id : Option String
  parent : Option ℕ
  ended : Bool
  -- its negotiation is under way, which ends it when the connection does
  negotiating : Bool
  -- the place of its offer among the calls
  offer : Option ℕ

inductive Resource
  | subscription (j : ℕ)
  | media (m : ℕ)
  deriving DecidableEq

/-- `created` are the allocations that were answered and `sent` the unsubscribe and close messages,
each with its socket. -/
structure WebAgent where
  transport : Transport
  -- by the places of the calls, of those that are not answered
  purposes : List Purpose
  subscriptions : List Subscription
  media : List MediaSession
  resources : OrderedMap String Resource
  created : List (ℕ × Remote)
  sent : List (ℕ × Remote)

/-- An answer: an error, which is read or not, or a value, with the `resourceId` that can be read
in it and with whether the rest of it can. -/
inductive Answer
  | error (readable : Bool)
  | value (resourceId : Option String) (valid : Bool)

inductive Notice
  | error (readable : Bool)
  | ready
  -- `media.state`, `closed` or `failed`
  | finished
  | other (fails : Bool)

/-- `sends` says which of the messages can be sent, by their numbers. -/
inductive Step
  | transport (happening : Happening)
  | answer (s : ℕ) (id : String) (answer : Answer) (sends : ℕ → Bool) (inner : List Inner)
  | notice (s : ℕ) (id : String) (notice : Notice) (sends : ℕ → Bool) (inner : List Inner)
  | subscribe (media aborted sends : Bool)
  | otherRequest (aborted sends : Bool)
  -- the subscription's timer
  | unready (j : ℕ) (sends : ℕ → Bool) (inner : List Inner)
  | closeSubscription (j : ℕ) (sends : ℕ → Bool) (inner : List Inner)
  | publishMedia
  | watchMedia (j : ℕ)
  | offer (m : ℕ) (sends : Bool)
  -- its offer is answered and applied
  | negotiated (m : ℕ)
  -- a timer, its peer connection, the caller's signal, or an error of its negotiation
  | failMedia (m : ℕ) (sends : ℕ → Bool) (inner : List Inner)
  | closeMedia (m : ℕ) (sends : ℕ → Bool) (inner : List Inner)

def Happening.plain : Happening → Bool
  | .message _ (.response _ _) _ | .request _ _ | .control _ _ => false
  | _ => true

namespace WebAgent

def initial : WebAgent := ⟨.initial, [], [], [], [], [], []⟩

def purpose (a : WebAgent) (r : ℕ) : Purpose := a.purposes.getD r .other

def settle (a : WebAgent) (t : Transport) : WebAgent :=
  let listed (resource : Resource) : Bool := (a.resources.map Prod.snd).contains resource
  if a.transport.connected && !t.connected then { a with
    transport := t
    resources := []
    subscriptions := a.subscriptions.mapIdx fun j s =>
      if listed (.subscription j) then { s with state := .closed } else s
    media := a.media.mapIdx fun m s =>
      if listed (.media m) || s.negotiating || s.parent.any (listed <| .subscription ·) then
        { s with ended := true }
      else s }
  else { a with transport := t }

def log (a : WebAgent) (remote : Remote) : WebAgent :=
  { a with sent := a.transport.socket.toList.map (·, remote) ++ a.sent }

/-- A `control` message that releases a resource. -/
def control (a : WebAgent) (remote : Remote) (sends : ℕ → Bool) (inner : List Inner) : WebAgent :=
  let a' := a.settle (a.transport.control (sends (a.transport.counter + 1)) inner)
  if a'.transport.connected then a'.log remote else a'

def cancel (a : WebAgent) (r : ℕ) (sends : ℕ → Bool) (inner : List Inner) : WebAgent :=
  a.settle (a.transport.cancel r .aborted (sends (a.transport.counter + 1)) inner)

def request (a : WebAgent) (purpose : Purpose) (aborted sends : Bool) : WebAgent := { a with
  transport := a.transport.request aborted sends
  purposes := a.purposes ++ [purpose] }

def Refuses (a : WebAgent) (sends : ℕ → Bool) : Prop :=
  28 ≤ a.transport.pending.length ∨ 4000 ≤ a.transport.counter ∨
    sends (a.transport.counter + 1) = false

instance (a : WebAgent) (sends : ℕ → Bool) : Decidable (a.Refuses sends) :=
    inferInstanceAs (Decidable (_ ∨ _))

def release (a : WebAgent) (remote : Remote) (sends : ℕ → Bool) : WebAgent :=
  if a.transport.connected then
    let a' := a.request .other false (sends (a.transport.counter + 1))
    if a.Refuses sends then a' else a'.log remote
  else a

/-- `MediaSession.disconnected`. What listens to the session aborts the request of its offer. -/
def mediaDisconnected (a : WebAgent) (m : ℕ) (sends : ℕ → Bool) (inner : List Inner) : WebAgent :=
  match a.media[m]? with
  | none => a
  | some s =>
    if s.ended then a
    else
      let a' := { a with
        media := a.media.modify m fun s => { s with ended := true }
        resources := s.id.elim a.resources a.resources.delete }
      match s.offer with
      | none => a'
      | some r => if a.transport.calls[r]?.any fun c =>
          c.armed && !c.cancelled then a'.cancel r sends inner else a'

def failMedia (a : WebAgent) (m : ℕ) (sends : ℕ → Bool) (inner : List Inner) : WebAgent :=
  match a.media[m]? with
  | none => a
  | some s =>
    if s.ended then a
    else
      let a' := a.mediaDisconnected m sends inner
      s.id.elim a' fun id => a'.control (.media id) sends inner

def closeMedia (a : WebAgent) (m : ℕ) (sends : ℕ → Bool) (inner : List Inner) : WebAgent :=
  match a.media[m]? with
  | none => a
  | some s =>
    if s.ended then a
    else
      let a' := a.mediaDisconnected m sends inner
      s.id.elim a' fun id => a'.release (.media id) sends

def children (a : WebAgent) (j : ℕ) : List ℕ :=
  (List.range a.media.length).filter fun m => a.media[m]?.any fun s =>
    s.parent == some j && !s.ended

def subscriptionDisconnected (a : WebAgent) (j : ℕ) (sends : ℕ → Bool)
    (inner : List Inner) : WebAgent :=
  match a.subscriptions[j]? with
  | none => a
  | some s =>
    if s.state = .closed then a
    else
      let a' := { a with
        subscriptions := a.subscriptions.modify j fun s => { s with state := .closed }
        resources := a.resources.delete s.id }
      (a.children j).foldl (fun a m => a.mediaDisconnected m sends inner) a'

def unready (a : WebAgent) (j : ℕ) (sends : ℕ → Bool) (inner : List Inner) : WebAgent :=
  let a' := a.subscriptionDisconnected j sends inner
  a.subscriptions[j]?.elim a' fun s => a'.control (.subscription s.id) sends inner

def closeSubscription (a : WebAgent) (j : ℕ) (sends : ℕ → Bool) (inner : List Inner) : WebAgent :=
  match a.subscriptions[j]? with
  | none => a
  | some s =>
    if s.state = .closed then a
    else (a.subscriptionDisconnected j sends inner).release (.subscription s.id) sends

def finished (a : WebAgent) (m : ℕ) : Bool := (a.media[m]?.map MediaSession.ended).getD true

/-- What the transport makes of an answer: reading it, or cleaning up after it, may take a message.
-/
def reply (a : WebAgent) (r : ℕ) (answer : Answer) (sends : Bool) : Reply :=
  let cancelled := a.transport.calls[r]?.any Call.cancelled
  match answer with
  | .error true => .error
  | .error false => .invalidError
  | .value resourceId valid =>
    match a.purpose r, cancelled with
    | .other, _ => if valid || cancelled then .value none else .invalid none
    | _, true => if resourceId.isSome then .value (some sends) else .invalid none
    | .subscribe _, false => if resourceId.isSome && valid then .value none else .invalid none
    | .offer m, false =>
      let control := if resourceId.isSome && a.finished m then some sends else none
      if resourceId.isSome && valid then .value control else .invalid control

def allocated (a : WebAgent) (r : ℕ) : Answer → Option Remote
  | .value (some id) _ =>
    match a.purpose r with
    | .subscribe _ => some (.subscription id)
    | .offer _ => some (.media id)
    | .other => none
  | _ => none

def take (a : WebAgent) (r : ℕ) : Answer → WebAgent
  | .value (some id) valid =>
    match a.purpose r with
    | .subscribe media =>
      if valid then { a with
        subscriptions := a.subscriptions ++ [⟨id, media, .preparing⟩]
        resources := a.resources.set id (.subscription a.subscriptions.length) }
      else a
    | .offer m => { a with
        media := a.media.modify m fun s => { s with id := some id }
        resources := if a.finished m then a.resources else a.resources.set id (.media m) }
    | .other => a
  | _ => a

/-- Whether nothing takes charge of what the answer allocates: it is late, or its session has
ended. -/
def late (a : WebAgent) (r : ℕ) : Bool :=
  a.transport.calls[r]?.any Call.cancelled || match a.purpose r with
    | .offer m => a.finished m
    | _ => false

def answered (a : WebAgent) (s : ℕ) (id : String) (r : ℕ) (answer : Answer) (sends : ℕ → Bool)
    (inner : List Inner) :
    WebAgent :=
  let t :=
    a.transport.onmessage s
      (.response id (a.reply r answer (sends (a.transport.counter + 1)))) inner
  let taken := if a.transport.calls[r]?.any Call.cancelled then a else a.take r answer
  let a' := { taken with
    purposes := a.purposes.set r .other
    created := (a.allocated r answer).toList.map (s, ·) ++ a.created }.settle t
  if a.late r && a'.transport.connected then (a.allocated r answer).elim a' a'.log else a'

def hangUp (a : WebAgent) (inner : List Inner) : WebAgent := a.settle (a.transport.disconnect inner)

def noticed (a : WebAgent) (resource : Resource) (notice : Notice) (sends : ℕ → Bool)
    (inner : List Inner) : WebAgent :=
  match resource, notice with
  | _, .error false | _, .other true => a.hangUp inner
  | .subscription j, .error true => a.subscriptionDisconnected j sends inner
  | .subscription j, .ready => { a with
      subscriptions := a.subscriptions.modify j fun s =>
        if s.state = .preparing then { s with state := .ready } else s }
  | .media m, .error true | .media m, .finished => a.failMedia m sends inner
  | _, _ => a

def step (a : WebAgent) : Step → Option WebAgent
  | .transport happening =>
    -- the request of an offer is aborted with its media session
    let offers := match happening with
      | .aborted r _ _ => match a.purpose r with
        | .offer _ => true
        | _ => false
      | _ => false
    if happening.plain && !offers then (a.transport.step happening).map a.settle else none
  | .answer s id answer sends inner =>
    if a.transport.socket = some s ∧ a.transport.connected = true then
      match a.transport.pending.find? (·.1 = id) with
      | some (_, r) => some (a.answered s id r answer sends inner)
      | none => some a
    else none
  | .notice s id notice sends inner =>
    if a.transport.socket = some s ∧ a.transport.connected = true then
      match a.resources.get id with
      | some resource => some (a.noticed resource notice sends inner)
      | none => some a
    else none
  | .subscribe media aborted sends => some (a.request (.subscribe media) aborted sends)
  | .otherRequest aborted sends => some (a.request .other aborted sends)
  | .unready j sends inner =>
    if a.subscriptions[j]?.any (·.state = .preparing) then some (a.unready j sends inner) else none
  | .closeSubscription j sends inner => some (a.closeSubscription j sends inner)
  | .publishMedia =>
    if a.transport.connected then
      some { a with media := a.media ++ [⟨none, none, false, true, none⟩] } else none
  | .watchMedia j =>
    if a.transport.connected && a.subscriptions[j]?.any fun s => s.media && s.state = .ready then
      some { a with media := a.media ++ [⟨none, some j, false, true, none⟩] }
    else none
  | .offer m sends =>
    if a.media[m]?.any fun s => s.negotiating && !s.ended && s.offer.isNone then
      some { a.request (.offer m) false sends with
        media := a.media.modify m fun s => { s with offer := some a.purposes.length } }
    else none
  | .negotiated m =>
    if a.media[m]?.any fun s => s.negotiating && !s.ended && s.id.isSome then
      some { a with media := a.media.modify m fun s => { s with negotiating := false } }
    else none
  | .failMedia m sends inner => some (a.failMedia m sends inner)
  | .closeMedia m sends inner => some (a.closeMedia m sends inner)

end WebAgent
end Beam.Web.Agent
