import BeamSdk.Library.Holders
import BeamSdk.Library.Wakeup

/-! The Rust client's background recovery of one transfer: its lease, the epoch its recovery was
requested for, and the loops that resume it. What runs under the recovery lock is one step; a read
of the closed flag, a request and a replay are steps of their own. -/

namespace Beam.Rust

abbrev Epoch := String × String

structure RecoveryLease where
  ref : ℕ
  planFingerprint : String
  coordinateChecksum : String
  deriving DecidableEq

structure ResumeResult where
  recovery : Option String
  routeReplayRequired : Option Bool
  deriving DecidableEq

def resumeRequiresRouteReplay (result : ResumeResult) : Prop :=
  result.routeReplayRequired = some true ∨ result.recovery = some "route_replay_required"

instance (result : ResumeResult) : Decidable (resumeRequiresRouteReplay result) :=
  inferInstanceAs (Decidable (_ ∨ _))

/-- An error of a request or a replay, by `is_retryable_lifecycle_error`. -/
structure LifecycleError where
  retryable : Bool
  deriving DecidableEq

inductive RecoveryOutcome
  | stopped
  | replaced
  deriving DecidableEq

/-- Where a loop is: at the top of `run_recovery`, or what it does next. `epoch` is the requested
epoch when its attempt started, and `sent` says whether the request has gone out. The last four
come after `run_recovery`. -/
inductive Phase
  | spawned
  | checking
  | resuming (epoch : Option Epoch) (generationID : String) (sent : Bool)
  | resumed (epoch : Option Epoch) (generationID : String)
      (answer : Except LifecycleError ResumeResult)
  | replaying (epoch : Option Epoch) (generationID : String)
  | replayed (epoch : Option Epoch) (answer : Except LifecycleError Unit)
  | settling (epoch : Option Epoch)
  | sleeping
  | releasing
  | fenced
  | ending (outcome : RecoveryOutcome)
  | left (current : Option RecoveryLease)
  | handing (current : RecoveryLease)
  | done
  deriving DecidableEq

structure RecoveryLoop where
  lease : RecoveryLease
  phase : Phase
  deriving DecidableEq

structure Resume where
  lease : RecoveryLease
  generationID : String
  deriving DecidableEq

structure Deed where
  loop : ℕ
  lease : RecoveryLease
  deriving DecidableEq

structure Control where
  closed : Bool
  -- the transfer's entry of `leases`
  lease : Option RecoveryLease
  requestedEpoch : Option Epoch
  -- of the transfer's shard
  runtimeEpoch : Option Epoch
  -- the leases whose keys are in `running`
  running : List RecoveryLease
  loops : List RecoveryLoop
  resumes : List Resume
  -- the leases whose routes a loop replayed, and those that it took out of the map
  replays : List Deed
  releases : List Deed
  deriving DecidableEq

def Control.start : Control := ⟨false, none, none, none, [], [], [], [], []⟩

namespace Control
variable (c : Control)

def setPhase (r : ℕ) (phase : Phase) : Control :=
  { c with loops := c.loops.modify r fun loop => { loop with phase := phase } }

/-- `spawn_recovery`, where `running.insert` has found a new key. -/
def spawnRecovery (lease : RecoveryLease) : Control :=
  if lease ∈ c.running then c
  else { c with running := lease :: c.running, loops := c.loops ++ [⟨lease, .spawned⟩] }

def registerRecoveryLease (lease : RecoveryLease) : Control := { c with lease := some lease }

/-- Only while the lease is `owner`, where there is one. -/
def releaseRecoveryLease (owner : Option RecoveryLease) : Control :=
  match c.lease with
  | none => c
  | some current =>
    if owner ≠ none ∧ owner ≠ some current then c
      else { c with requestedEpoch := none, lease := none }

def request (lease : RecoveryLease) (epoch : Epoch) : Control :=
  { c with requestedEpoch := some epoch }.spawnRecovery lease

/-- The epoch that `continue_recovery_lease` asks for; `id` is a new one. -/
def continuedEpoch (id : String) : Epoch := c.runtimeEpoch.getD ("foreground", id)

def continueRecoveryLease (owner : Option RecoveryLease) (id : String) : Control :=
  match c.lease with
  | none => c
  | some lease => if owner ≠ none ∧ owner ≠ some lease then c
      else c.request lease (c.continuedEpoch id)

def observeRuntimeEpochs (runtimeEpoch transportEpoch : Option String) : Control :=
  match runtimeEpoch, transportEpoch with
  | some runtimeEpoch, some transportEpoch =>
    if runtimeEpoch = "" ∨ transportEpoch = "" then c
    else
      let current := (runtimeEpoch, transportEpoch)
      let observed := { c with runtimeEpoch := some current }
      if c.runtimeEpoch = none ∨ c.runtimeEpoch = some current then observed
      else
        match c.lease with
        | none => observed
        | some lease => observed.request lease current
  | _, _ => c

/-- What a loop goes on with; `id` is a new route generation. -/
inductive Input
  | proceed (id : String)
  | send
  | resumed (answer : Except LifecycleError ResumeResult)
  | replayed (answer : Except LifecycleError Unit)

def unlessClosed (r : ℕ) (phase : Phase) : Control :=
    c.setPhase r (if c.closed then .fenced else phase)

def failed (r : ℕ) (error : LifecycleError) : Control :=
    c.setPhase r (if error.retryable then .sleeping else .releasing)

/-- What a loop that still owns its lease does with the answer to `transfer.resume`. -/
def answered (r : ℕ) (loop : RecoveryLoop) (epoch : Option Epoch) (generationID : String) :
    Except LifecycleError ResumeResult → Control
  | .error error => c.failed r error
  | .ok result =>
    if result.recovery = some "terminal" then c.setPhase r .releasing
    else if resumeRequiresRouteReplay result then
      { c.setPhase r (.replaying epoch generationID) with replays := c.replays ++
        [⟨r, loop.lease⟩] }
    else c.setPhase r (.settling epoch)

def served (r : ℕ) (epoch : Option Epoch) : Except LifecycleError Unit → Control
  | .error error => c.failed r error
  | .ok () => c.setPhase r (.settling epoch)

def settle (r : ℕ) (loop : RecoveryLoop) (epoch : Option Epoch) : Control :=
  if c.requestedEpoch = epoch then
    { c.setPhase r .done with running := c.running.filter fun lease => lease ≠ loop.lease }
  else c.setPhase r .spawned

def releaseOwn (r : ℕ) (loop : RecoveryLoop) : Control :=
  let released := c.releaseRecoveryLease (some loop.lease)
  let taken := if released.lease = none then c.lease.toList else []
  { released.setPhase r (.ending .stopped) with releases := c.releases ++ taken.map fun lease =>
    ⟨r, lease⟩ }

def leave (r : ℕ) (loop : RecoveryLoop) (outcome : RecoveryOutcome) : Control :=
  { c.setPhase r (if outcome = .replaced then .left c.lease else .done) with
    running := c.running.filter fun lease => lease ≠ loop.lease }

def replacement (loop : RecoveryLoop) (current : Option RecoveryLease) : Option RecoveryLease :=
  if c.closed then none else current.filter fun current => current ≠ loop.lease

def recoverTransfer (r : ℕ) (loop : RecoveryLoop) (input : Input) : Option Control :=
  match loop.phase, input with
  | .spawned, .proceed _ => some (c.setPhase r (if c.closed then .ending .stopped else .checking))
  | .checking, .proceed id =>
    some (c.setPhase r (if c.lease = some loop.lease then .resuming c.requestedEpoch id false
      else .fenced))
  | .resuming epoch generationID _, .send =>
    some { c.setPhase r (.resuming epoch generationID true) with resumes := c.resumes ++
      [⟨loop.lease, generationID⟩] }
  | .resuming epoch generationID _, .resumed (.error error) =>
      some (c.unlessClosed r (.resumed epoch generationID (.error error)))
  | .resuming epoch generationID true, .resumed (.ok result) =>
    some (c.unlessClosed r (.resumed epoch generationID (.ok result)))
  | .resumed epoch generationID answer, .proceed _ =>
    some (if c.lease = some loop.lease then c.answered r loop epoch generationID answer
      else c.setPhase r .fenced)
  | .replaying epoch _, .replayed answer => some (c.unlessClosed r (.replayed epoch answer))
  | .replayed epoch answer, .proceed _ =>
    some (if c.lease = some loop.lease then c.served r epoch answer else c.setPhase r .fenced)
  | .settling epoch, .proceed _ => some (c.settle r loop epoch)
  | .sleeping, .proceed _ => some (c.setPhase r .spawned)
  | .releasing, .proceed _ => some (c.releaseOwn r loop)
  | .fenced, .proceed _ => some (c.setPhase r (.ending (if c.closed then .stopped else .replaced)))
  | .ending outcome, .proceed _ => some (c.leave r loop outcome)
  | .left current, .proceed _ =>
      some (c.setPhase r ((c.replacement loop current).elim .done .handing))
  | .handing current, .proceed _ => some ((c.spawnRecovery current).setPhase r .done)
  | _, _ => none

/-- `close` sets the flag, and takes the leases under the lock later. -/
def close : Control := { c with closed := true }

def takeLeases : Control := { c with requestedEpoch := none, lease := none }

inductive Step
  | registerRecoveryLease (lease : RecoveryLease)
  | releaseRecoveryLease (owner : Option RecoveryLease)
  | continueRecoveryLease (owner : Option RecoveryLease) (id : String)
  | observeRuntimeEpochs (runtimeEpoch transportEpoch : Option String)
  | recoverTransfer (r : ℕ) (input : Input)
  | close
  | takeLeases

/-- Any call, or a loop going on. A call that finds the client closed before it takes the lock is
no step. -/
def step : Step → Option Control
  | .registerRecoveryLease lease => some (c.registerRecoveryLease lease)
  | .releaseRecoveryLease owner => some (c.releaseRecoveryLease owner)
  | .continueRecoveryLease owner id => some (c.continueRecoveryLease owner id)
  | .observeRuntimeEpochs runtimeEpoch transportEpoch =>
      some (c.observeRuntimeEpochs runtimeEpoch transportEpoch)
  | .recoverTransfer r input => (c.loops[r]?).bind fun loop => c.recoverTransfer r loop input
  | .close => some c.close
  | .takeLeases => if c.closed then some c.takeLeases else none

end Control
end Beam.Rust
