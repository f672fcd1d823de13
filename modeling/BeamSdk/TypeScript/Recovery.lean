import BeamSdk.Library.Holders
import BeamSdk.Library.OrderedMap
import BeamSdk.Library.Wakeup

/-! The TypeScript client's background recovery of one transfer: its lease, the epoch its recovery
was requested for, and the operations that resume it. A step runs to the next await; the callback of
an operation's promise is a step of its own. -/

namespace Beam.TypeScript

structure TransferRecoveryLease where
  ref : ℕ
  planFingerprint : String
  coordinateChecksum : String
  deriving DecidableEq

structure RuntimeEpoch where
  runtimeEpoch : String
  transportEpoch : String
  deriving DecidableEq

def RuntimeEpoch.text (epoch : RuntimeEpoch) : String :=
    epoch.runtimeEpoch ++ ":" ++ epoch.transportEpoch

/-- Where an operation is; `epoch` is the requested epoch when its attempt started, and `sent` says
whether the request has gone out. An operation that has returned waits for its callback. -/
inductive Phase
  | resuming (epoch : Option String) (routeGenerationID : String) (sent : Bool)
  | replaying (epoch : Option String) (routeGenerationID : String)
  | sleeping
  | returned (replaced : Bool)
  | done
  deriving DecidableEq

structure Operation where
  lease : TransferRecoveryLease
  phase : Phase
  deriving DecidableEq

structure Resume where
  lease : TransferRecoveryLease
  routeGenerationID : String
  deriving DecidableEq

structure Deed where
  operation : ℕ
  lease : TransferRecoveryLease
  deriving DecidableEq

structure Control where
  closed : Bool
  -- the transfer's entry of `recoveryLeases`
  recoveryLease : Option TransferRecoveryLease
  recoveryRequestedEpoch : Option String
  -- of the transfer's shard
  runtimeEpoch : Option RuntimeEpoch
  -- each lease's operation, by its place among the operations started
  recoveryOperations : OrderedMap TransferRecoveryLease ℕ
  operations : List Operation
  resumes : List Resume
  -- the leases whose routes an operation replayed, and those that it took out of the map
  replays : List Deed
  releases : List Deed

def Control.start : Control := ⟨false, none, none, none, [], [], [], [], []⟩

structure ResumeResult where
  recovery : String
  routeReplayRequired : Bool

/-- An error of a request or a replay, by `isRetryableLifecycleError`. -/
structure LifecycleError where
  retryable : Bool

namespace Control
variable (c : Control)

def setPhase (r : ℕ) (phase : Phase) : Control :=
  { c with operations := c.operations.modify r fun operation => { operation with phase := phase } }

def registerRecoveryLease (lease : TransferRecoveryLease) : Control :=
  if c.closed then c else { c with recoveryLease := some lease }

/-- Only while the lease is `owner`, where there is one. -/
def releaseRecoveryLease (owner : Option TransferRecoveryLease) : Control :=
  match c.recoveryLease with
  | none => c
  | some lease =>
    if owner ≠ none ∧ owner ≠ some lease then c
      else { c with recoveryLease := none, recoveryRequestedEpoch := none }

def owns (lease : TransferRecoveryLease) : Prop := c.closed = false ∧ c.recoveryLease = some lease

instance (lease : TransferRecoveryLease) : Decidable (c.owns lease) :=
    inferInstanceAs (Decidable (_ ∧ _))

/-- Where an operation comes to at the top of its loop; `id` is a new route generation. -/
def attempt (lease : TransferRecoveryLease) (id : String) : Phase :=
  if c.owns lease then .resuming c.recoveryRequestedEpoch id false else .returned (!c.closed)

def recoverLease (lease : TransferRecoveryLease) (id : String) : Control :=
  match c.recoveryOperations.get lease with
  | some _ => c
  | none =>
    { c with
      operations := c.operations ++ [⟨lease, c.attempt lease id⟩]
      recoveryOperations := c.recoveryOperations.set lease c.operations.length }

def request (lease : TransferRecoveryLease) (epoch : String) (id : String) : Control :=
  { c with recoveryRequestedEpoch := some epoch }.recoverLease lease id

/-- The epoch that `continueRecoveryLease` asks for; `id` is a new one. -/
def continuedEpoch (id : String) : String :=
    c.runtimeEpoch.elim ("foreground:" ++ id) RuntimeEpoch.text

def continueRecoveryLease (owner : Option TransferRecoveryLease)
    (foreground id : String) : Control :=
  match c.recoveryLease with
  | none => c
  | some lease =>
    if c.closed then c
    else if owner ≠ none ∧ owner ≠ some lease then c
    else c.request lease (c.continuedEpoch foreground) id

def observeRuntimeEpoch (epoch : RuntimeEpoch) (id : String) : Control :=
  if epoch.runtimeEpoch = "" ∨ epoch.transportEpoch = "" then c
  else
    let observed := { c with runtimeEpoch := some epoch }
    if c.runtimeEpoch = none ∨ c.runtimeEpoch = some epoch then observed
    else
      match c.recoveryLease with
      | none => observed
      | some lease => observed.request lease epoch.text id

/-- What an operation goes on with; `id` is a new route generation, where an attempt starts. -/
inductive Input
  | send
  | resumed (answer : Except LifecycleError ResumeResult) (id : String)
  | replayed (answer : Except LifecycleError Unit) (id : String)
  | woken (id : String)
  | callback (id : String)

def releaseOwn (r : ℕ) (operation : Operation) : Control :=
  let released := c.releaseRecoveryLease (some operation.lease)
  let taken := if released.recoveryLease = none then c.recoveryLease.toList else []
  { released.setPhase r (.returned false) with releases := c.releases ++ taken.map fun lease =>
    ⟨r, lease⟩ }

/-- The end of a successful attempt, where a request made meanwhile starts another one. -/
def settle (r : ℕ) (operation : Operation) (epoch : Option String) (id : String) : Control :=
  c.setPhase r (if c.recoveryRequestedEpoch ≠ epoch then c.attempt operation.lease id
    else .returned false)

def failed (r : ℕ) (operation : Operation) (error : LifecycleError) : Control :=
  if error.retryable then c.setPhase r .sleeping else c.releaseOwn r operation

/-- What an operation that owns its lease does with the answer to `transfer.resume`. -/
def answered (r : ℕ) (operation : Operation) (epoch : Option String) (routeGenerationID : String)
    (result : ResumeResult)
    (id : String) : Control :=
  if result.recovery = "terminal" then c.releaseOwn r operation
  else if result.routeReplayRequired ∨ result.recovery = "route_replay_required" then
    { c.setPhase r (.replaying epoch routeGenerationID) with replays := c.replays ++
      [⟨r, operation.lease⟩] }
  else c.settle r operation epoch id

def unlessReplaced (r : ℕ) (operation : Operation) (next : Control) : Control :=
  if c.owns operation.lease then next else c.setPhase r (.returned true)

/-- The callback of an operation's promise, which hands the recovery to the lease that replaced the
operation's own. -/
def callback (r : ℕ) (operation : Operation) (replaced : Bool) (id : String) : Control :=
  let deleted :=
    if c.recoveryOperations.get operation.lease = some r then
      { c.setPhase r .done with recoveryOperations := c.recoveryOperations.delete operation.lease }
    else c.setPhase r .done
  if replaced = false ∨ c.closed then deleted
  else
    match c.recoveryLease with
    | none => deleted
    | some current => if current ≠ operation.lease then deleted.recoverLease current id else deleted

/-- One step of an operation of `recoverLease`. -/
def goOn (r : ℕ) (operation : Operation) (input : Input) : Option Control :=
  match operation.phase, input with
  | .resuming epoch routeGenerationID _, .send =>
    some
      { c.setPhase r (.resuming epoch routeGenerationID true) with
        resumes := c.resumes ++ [⟨operation.lease, routeGenerationID⟩] }
  | .resuming _ _ _, .resumed (.error error) _ =>
      some (c.unlessReplaced r operation (c.failed r operation error))
  | .resuming epoch routeGenerationID true, .resumed (.ok result) id =>
    some (c.unlessReplaced r operation (c.answered r operation epoch routeGenerationID result id))
  | .replaying _ _, .replayed (.error error) _ =>
      some (c.unlessReplaced r operation (c.failed r operation error))
  | .replaying epoch _, .replayed (.ok ()) id =>
      some (c.unlessReplaced r operation (c.settle r operation epoch id))
  | .sleeping, .woken id => some (c.setPhase r (c.attempt operation.lease id))
  | .returned replaced, .callback id => some (c.callback r operation replaced id)
  | _, _ => none

def close : Control :=
    { c with closed := true, recoveryLease := none, recoveryRequestedEpoch := none }

inductive Step
  | registerRecoveryLease (lease : TransferRecoveryLease)
  | releaseRecoveryLease (owner : Option TransferRecoveryLease)
  | continueRecoveryLease (owner : Option TransferRecoveryLease) (foreground id : String)
  | observeRuntimeEpoch (epoch : RuntimeEpoch) (id : String)
  | goOn (r : ℕ) (input : Input)
  | close

def step : Step → Option Control
  | .registerRecoveryLease lease => some (c.registerRecoveryLease lease)
  | .releaseRecoveryLease owner => some (c.releaseRecoveryLease owner)
  | .continueRecoveryLease owner foreground id => some (c.continueRecoveryLease owner foreground id)
  | .observeRuntimeEpoch epoch id => some (c.observeRuntimeEpoch epoch id)
  | .goOn r input => (c.operations[r]?).bind fun operation => c.goOn r operation input
  | .close => some c.close

end Control
end Beam.TypeScript
