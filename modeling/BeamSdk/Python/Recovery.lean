import BeamSdk.Library.Wakeup

/-! The Python client's background recovery of one transfer: its lease, the epoch its recovery was
requested for, and the tasks that resume it. A step runs to the next await. -/

namespace Beam.Python

abbrev Epoch := String × String

structure RecoveryLease where
  ref : ℕ
  replayRoutes : ℕ
  planFingerprint : String
  coordinateChecksum : String
  deriving DecidableEq

/-- Where a task is; `epoch` is the requested epoch when its attempt started. A request goes out
once or more often, and may fail before it does. -/
inductive Phase
  | scheduled
  | resuming (epoch : Option Epoch) (generationID : String) (sent : Bool)
  | replaying (epoch : Option Epoch) (generationID : String)
  | sleeping
  | done
  deriving DecidableEq

structure RecoveryTask where
  lease : RecoveryLease
  phase : Phase
  deriving DecidableEq

structure Resume where
  lease : RecoveryLease
  generationID : String
  deriving DecidableEq

structure Control where
  closed : Bool
  recoveryLease : Option RecoveryLease
  requestedEpoch : Option Epoch
  -- of the transfer's shard
  runtimeEpoch : Option Epoch
  -- the transfer's entry of `_recovery_tasks`, by its place among the tasks created
  recoveryTask : Option ℕ
  tasks : List RecoveryTask
  -- the number of leases made so far
  leases : ℕ
  resumes : List Resume
  deriving DecidableEq

def Control.start : Control := ⟨false, none, none, none, none, [], 0, []⟩

structure ResumeResult where
  recovery : String
  routeReplayRequired : Bool

/-- An error of a request or a replay, by its status or by `is_retryable_lifecycle_error`. -/
structure LifecycleError where
  retryable : Bool

namespace Control
variable (c : Control)

def setPhase (r : ℕ) (phase : Phase) : Control :=
  { c with tasks := c.tasks.modify r fun task => { task with phase := phase } }

def running : Option RecoveryTask := (c.recoveryTask.bind fun r => c.tasks[r]?).filter fun task =>
    task.phase ≠ .done

def scheduleRecovery (lease : RecoveryLease) : Control :=
  match c.running with
  | some _ => c
  | none => { c with tasks := c.tasks ++
      [⟨lease, .scheduled⟩], recoveryTask := some c.tasks.length }

def registerRecoveryLease (planFingerprint coordinateChecksum : String)
    (replayRoutes : ℕ) : Control :=
  { c with
    recoveryLease := some ⟨c.leases, replayRoutes, planFingerprint, coordinateChecksum⟩
    leases := c.leases + 1 }

def releaseRecoveryLease (replayRoutes : Option ℕ) : Control :=
  if replayRoutes ≠ none ∧ c.recoveryLease.map RecoveryLease.replayRoutes ≠ replayRoutes then c
  else { c with recoveryLease := none, requestedEpoch := none }

def request (lease : RecoveryLease) (epoch : Epoch) : Control :=
  { c with requestedEpoch := some epoch }.scheduleRecovery lease

/-- The epoch that `continue_recovery_lease` asks for; `id` is a new one. -/
def continuedEpoch (id : String) : Epoch := c.runtimeEpoch.getD ("foreground", id)

def continueRecoveryLease (id : String) : Control :=
  match c.recoveryLease with
  | none => c
  | some lease => c.request lease (c.continuedEpoch id)

def observeRuntimeEpochs (runtimeEpoch transportEpoch : Option String) : Control :=
  match runtimeEpoch, transportEpoch with
  | some runtimeEpoch, some transportEpoch =>
    let epoch := (runtimeEpoch, transportEpoch)
    let observed := { c with runtimeEpoch := some epoch }
    if c.runtimeEpoch = none ∨ c.runtimeEpoch = some epoch then observed
    else
      match c.recoveryLease with
      | none => observed
      | some lease => observed.request lease epoch
  | _, _ => c

/-- What a task goes on with; `id` is a new route generation, where an attempt starts. -/
inductive Input
  | start (id : String)
  | send
  | resumed (answer : Except LifecycleError ResumeResult) (id : String)
  | replayed (answer : Except LifecycleError Unit) (id : String)
  | woken (id : String)
  | cancelled
  | callback

def loop (r : ℕ) (task : RecoveryTask) (id : String) : Control :=
  if c.closed = false ∧ c.recoveryLease = some task.lease then
    c.setPhase r (.resuming c.requestedEpoch id false)
  else c.setPhase r .done

/-- The end of a successful attempt, where a request made meanwhile starts another one. -/
def settle (r : ℕ) (task : RecoveryTask) (epoch : Option Epoch) (id : String) : Control :=
  if c.requestedEpoch ≠ epoch then c.loop r task id
  else
    let ended := c.setPhase r .done
    if c.recoveryTask = some r then { ended with recoveryTask := none } else ended

def giveUp (r : ℕ) (task : RecoveryTask) : Control :=
  (c.releaseRecoveryLease (some task.lease.replayRoutes)).setPhase r .done

def failed (r : ℕ) (task : RecoveryTask) (error : LifecycleError) : Control :=
  if error.retryable then c.setPhase r .sleeping else c.giveUp r task

def answered (r : ℕ) (task : RecoveryTask) (epoch : Option Epoch) (generationID : String)
    (result : ResumeResult)
    (id : String) : Control :=
  if result.recovery = "terminal" then c.giveUp r task
  else if c.recoveryLease ≠ some task.lease then c.setPhase r .done
  else if result.routeReplayRequired ∨ result.recovery = "route_replay_required" then
    c.setPhase r (.replaying epoch generationID)
  else c.settle r task epoch id

/-- One step of `_recover_transfer`, or of the callback of its task. -/
def recoverTransfer (r : ℕ) (task : RecoveryTask) (input : Input) : Option Control :=
  match task.phase, input with
  | .scheduled, .start id => some (c.loop r task id)
  | .resuming epoch generationID _, .send =>
    some { c.setPhase r (.resuming epoch generationID true) with resumes := c.resumes ++
      [⟨task.lease, generationID⟩] }
  | .resuming _ _ _, .resumed (.error error) _ => some (c.failed r task error)
  | .resuming epoch generationID true, .resumed (.ok result) id =>
      some (c.answered r task epoch generationID result id)
  | .replaying _ _, .replayed (.error error) _ => some (c.failed r task error)
  | .replaying epoch _, .replayed (.ok ()) id => some (c.settle r task epoch id)
  | .sleeping, .woken id => some (c.loop r task id)
  | .done, .callback =>
      some (if c.recoveryTask = some r then { c with recoveryTask := none } else c)
  -- only close cancels a task
  | .scheduled, .cancelled | .resuming _ _ _, .cancelled | .replaying _ _, .cancelled | .sleeping,
      .cancelled =>
    if c.closed then some (c.setPhase r .done) else none
  | _, _ => none

def close : Control :=
  { c with closed := true, recoveryLease := none, requestedEpoch := none, recoveryTask := none }

inductive Step
  | registerRecoveryLease (planFingerprint coordinateChecksum : String) (replayRoutes : ℕ)
  | releaseRecoveryLease (replayRoutes : Option ℕ)
  | continueRecoveryLease (id : String)
  | observeRuntimeEpochs (runtimeEpoch transportEpoch : Option String)
  | recoverTransfer (r : ℕ) (input : Input)
  | close

def step : Step → Option Control
  | .registerRecoveryLease planFingerprint coordinateChecksum replayRoutes =>
    some (c.registerRecoveryLease planFingerprint coordinateChecksum replayRoutes)
  | .releaseRecoveryLease replayRoutes => some (c.releaseRecoveryLease replayRoutes)
  | .continueRecoveryLease id => some (c.continueRecoveryLease id)
  | .observeRuntimeEpochs runtimeEpoch transportEpoch =>
      some (c.observeRuntimeEpochs runtimeEpoch transportEpoch)
  | .recoverTransfer r input => (c.tasks[r]?).bind fun task => c.recoverTransfer r task input
  | .close => some c.close

end Control
end Beam.Python
