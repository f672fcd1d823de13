import BeamSdk.Library.Run
import Std.Data.String.ToNat

/-! The connection of a browser to a Web Agent: one session at a time, the requests made on it, and
what is left of them when they time out, are aborted, or the session ends. -/

namespace Beam.Web.Agent

inductive Outcome
  -- where it is made: the signal is aborted, nothing is connected, or a limit is reached
  | refused
  | resolved
  | remote
  -- the answer cannot be read
  | invalid
  | aborted
  | timedOut
  -- it could not be sent, or the session has ended
  | stopped
deriving DecidableEq

def Outcome.answer : Outcome → Bool
  | resolved => true
  | remote => true
  | invalid => true
  | _ => false

structure Call where
  -- the socket it is made on and its id; a refused one has neither
  key : Option (Option ℕ × String)
  -- its timer is set: the one of the request, or, once it is cancelled, the one of the
  -- cancellation
  armed : Bool
  cancelled : Bool
  outcome : Option Outcome
deriving DecidableEq

def Call.settle (outcome : Outcome) (c : Call) : Call :=
    { c with outcome := some (c.outcome.getD outcome) }

/-- Attempts to connect are numbered, and a socket has the number of the attempt that has opened
it. -/
structure Transport where
  attempts : ℕ
  -- the attempts that await a credential and are not aborted
  waiting : List ℕ
  attempt : Option ℕ
  -- the promise of `connect()`, by its attempt, and whether it is resolved
  opening : Option (ℕ × Bool)
  socket : Option ℕ
  connected : Bool
  counter : ℕ
  -- from ids to the places of the calls
  pending : List (String × ℕ)
  calls : List Call
  -- the sockets that are closed, from here or by the agent
  ended : List ℕ

inductive Inner
  | connect
  | disconnect
deriving DecidableEq

inductive Provision
  | failed
  | opened
  -- the socket is made by application code, which calls `disconnect()`
  | hungUp

/-- The answer to a request. To read it, or to clean up after it where it is late, may take a
`control` message, which is sent or not. -/
inductive Reply
  | error
  | invalidError
  | value (control : Option Bool)
  | invalid (control : Option Bool)

inductive Wire
  | malformed
  | ready
  | response (id : String) (reply : Reply)
  -- any other message, which is read or not
  | event (fails : Bool)

/-- Each with what the listeners of an attempt's signal call where it ends the attempt, and with
whether a message that it sends can be sent. -/
inductive Happening
  | connect
  | credential (a : ℕ) (provision : Provision) (inner : List Inner)
  -- the promise of `connect()` is seen to have resolved
  | openingSettled
  | message (s : ℕ) (wire : Wire) (inner : List Inner)
  | closed (s : ℕ) (inner : List Inner)
  | disconnect (inner : List Inner)
  | request (aborted sends : Bool)
  | control (sends : Bool) (inner : List Inner)
  | timedOut (r : ℕ) (sends : Bool) (inner : List Inner)
  | aborted (r : ℕ) (sends : Bool) (inner : List Inner)

namespace Transport

def modify (t : Transport) (r : ℕ) (f : Call → Call) : Transport :=
    { t with calls := t.calls.modify r f }

def setPending (pending : List (String × ℕ)) (id : String) (r : ℕ) : List (String × ℕ) :=
  if pending.any (·.1 = id) then pending.map fun entry => if entry.1 = id then (id, r) else entry
  else pending ++ [(id, r)]

def cleanup (t : Transport) (r : ℕ) : Transport :=
  let t' := t.modify r fun c => { c with armed := false }
  match t.calls[r]?.bind Call.key with
  | some (_, id) => { t' with pending := t.pending.filter (·.1 ≠ id) }
  | none => t'

def stop (t : Transport) (r : ℕ) : Transport := (t.cleanup r).modify r (Call.settle .stopped)

def connect (t : Transport) : Transport :=
  if t.connected then t
  else if t.opening.isSome then t
  else { t with
    attempts := t.attempts + 1
    waiting := t.waiting ++ [t.attempts]
    attempt := some t.attempts
    opening := some (t.attempts, false)
    counter := 0 }

/-- `disconnect` until the abort signal of the attempt is dispatched. -/
def abort (t : Transport) : Transport := { t with
  connected := false
  socket := none
  waiting := t.attempt.elim t.waiting t.waiting.erase }

/-- `disconnect` from there on, with the socket it has found. -/
def sever (t : Transport) (socket : Option ℕ) : Transport :=
  let t := { t with attempt := none, opening := none, ended := socket.toList ++ t.ended }
  { t.pending.foldl (fun t entry => t.stop entry.2) t with pending := [] }

/-- The listeners of an attempt's signal are called once, and of one that awaits its turn there are
none. -/
def call (t : Transport) : Inner → Transport
  | .connect => t.connect
  | .disconnect => t.abort.sever t.socket

def disconnect (t : Transport) (inner : List Inner) : Transport :=
  let t' := if t.attempt.isSome then inner.foldl call t.abort else t.abort
  t'.sever t.socket

def control (t : Transport) (sends : Bool) (inner : List Inner) : Transport :=
  if ¬ t.connected then t
  else if 4090 ≤ t.counter then t.disconnect inner
  else
    let t := { t with counter := t.counter + 1 }
    if sends then t else t.disconnect inner

def request (t : Transport) (aborted sends : Bool) : Transport :=
  if aborted ∨ ¬ t.connected ∨ 28 ≤ t.pending.length ∨ 4000 ≤ t.counter then
    { t with calls := t.calls ++ [⟨none, false, false, some .refused⟩] }
  else
    let id := toString (t.counter + 1)
    let r := t.calls.length
    let t := { t with
      counter := t.counter + 1
      calls := t.calls ++ [⟨some (t.socket, id), true, false, none⟩]
      pending := setPending t.pending id r }
    if sends then t else t.stop r

def cancel (t : Transport) (r : ℕ) (outcome : Outcome) (sends : Bool) (inner : List Inner) :
    Transport :=
  (t.modify r fun c => { c.settle outcome with cancelled := true }).control sends inner

def perhapsControl (t : Transport) (sends : Option Bool) (inner : List Inner) : Transport :=
  match sends with
  | some sends => t.control sends inner
  | none => t

def receive (t : Transport) (r : ℕ) (reply : Reply) (inner : List Inner) : Transport :=
  let cancelled := t.calls[r]?.any Call.cancelled
  let t := t.cleanup r
  if cancelled then
    match reply with
    | .error | .invalidError => t
    | .value sends => t.perhapsControl sends inner
    | .invalid sends => (t.perhapsControl sends inner).disconnect inner
  else
    match reply with
    | .error => t.modify r (Call.settle .remote)
    | .invalidError => (t.modify r (Call.settle .invalid)).disconnect inner
    | .value sends => (t.perhapsControl sends inner).modify r (Call.settle .resolved)
    | .invalid sends =>
        ((t.perhapsControl sends inner).modify r (Call.settle .invalid)).disconnect inner

def onmessage (t : Transport) (s : ℕ) (wire : Wire) (inner : List Inner) : Transport :=
  if t.socket ≠ some s then t
  else if ¬ t.connected then
    match wire with
    | .ready =>
        { t with connected := true, opening := t.opening.map fun (a, resolved) =>
          (a, resolved || a == s) }
    | _ => t.disconnect inner
  else
    match wire with
    | .malformed => t.disconnect inner
    | .ready => t
    | .response id reply =>
      match t.pending.find? (·.1 = id) with
      | some (_, r) => t.receive r reply inner
      | none => t
    | .event fails => if fails then t.disconnect inner else t

def step (t : Transport) : Happening → Option Transport
  | .connect => some t.connect
  | .credential a provision inner =>
    if a ∈ t.waiting then
      let t := { t with waiting := t.waiting.erase a }
      match provision with
      | .failed => some (t.disconnect inner)
      | .opened => some { t with socket := some a }
      -- Nobody looks again whether the attempt is aborted.
      | .hungUp => some { t.disconnect inner with socket := some a }
    else none
  | .openingSettled => if t.opening.any (·.2) then some { t with opening := none } else none
  | .message s wire inner => some (t.onmessage s wire inner)
  | .closed s inner =>
    if s < t.attempts ∧ s ∉ t.waiting then
      let t := { t with ended := s :: t.ended }
      some (if t.socket = some s then t.disconnect inner else t)
    else none
  | .disconnect inner => some (t.disconnect inner)
  | .request aborted sends => some (t.request aborted sends)
  | .control sends inner => some (t.control sends inner)
  | .timedOut r sends inner =>
    if t.calls[r]?.any Call.armed then
      some (if t.calls[r]?.any Call.cancelled then t.disconnect inner
        else t.cancel r .timedOut sends inner)
    else none
  | .aborted r sends inner =>
    if t.calls[r]?.any fun c =>
      c.armed && !c.cancelled then some (t.cancel r .aborted sends inner) else none

def initial : Transport := ⟨0, [], none, none, none, false, 0, [], [], []⟩

end Transport
end Beam.Web.Agent
