import BeamSdk.Library.OrderedMap
import BeamSdk.Library.Run

/-! The Go client's background recovery: the leases it holds, the epochs each transfer's recovery
was requested for, and the loops that resume transfers. What runs under `recoveryMu` is one step; a
loop's requests and waits are steps of their own. -/

namespace Beam.Go

abbrev Epoch := String × String

/-- A lease by its identity; `ownership` is the context that fences it. -/
structure Lease where
  ref : ℕ
  transferID : String
  planFingerprint : String
  coordinateChecksum : String
  ownership : Option ℕ
  deriving DecidableEq

/-- Where a loop is; `epoch` is the newest requested epoch when its last attempt started. -/
inductive Phase
  | check
  | send (epoch : Option Epoch)
  | sent (epoch : Option Epoch) (generationID : String)
  | replayCheck (epoch : Option Epoch) (generationID : String)
  | replaying (epoch : Option Epoch) (generationID : String)
  | settle (epoch : Option Epoch)
  | sleeping
  | stale
  | releasing
  | finishing
  | done
  deriving DecidableEq

structure RecoveryRun where
  lease : Lease
  cancelled : Bool
  phase : Phase
  deriving DecidableEq

structure Resume where
  lease : Lease
  generationID : String
  deriving DecidableEq

structure Control where
  recoveryLeases : OrderedMap String Lease
  recoveryRequested : OrderedMap String Epoch
  -- each transfer's registered loop, by its place among the loops started
  recoveryRunning : OrderedMap String ℕ
  runtimeEpochs : OrderedMap ℕ Epoch
  runs : List RecoveryRun
  -- the ownership contexts that are cancelled
  relinquished : List ℕ
  resumes : List Resume
  -- leases taken out of the map that are still to be disposed, and those that were
  disposals : List Lease
  disposed : List Lease

def Control.start : Control := ⟨[], [], [], [], [], [], [], [], []⟩

structure ResumeResult where
  recovery : String
  routeReplayRequired : Bool

/-- An error of a request or a replay, by `isRetryableLifecycleError`. -/
structure LifecycleError where
  retryable : Bool

namespace Control
variable (shardOf : String → ℕ) (c : Control)

def ownershipErr (lease : Lease) : Bool := lease.ownership.any c.relinquished.contains

def current (lease : Lease) : Prop := c.recoveryLeases.get lease.transferID = some lease

instance (lease : Lease) : Decidable (c.current lease) := inferInstanceAs (Decidable (_ = _))

def cancelRun (r : ℕ) : Control :=
  { c with runs := c.runs.modify r fun run => { run with cancelled := true } }

def setPhase (r : ℕ) (phase : Phase) : Control :=
  { c with runs := c.runs.modify r fun run => { run with phase := phase } }

def stopRecoveryRunLocked (transferID : String) (keep : Option Lease) : Control :=
  match c.recoveryRunning.get transferID with
  | none => c
  | some r =>
    if keep.isSome ∧ (c.runs[r]?).map RecoveryRun.lease = keep then c
    else { c.cancelRun r with recoveryRunning := c.recoveryRunning.delete transferID }

def addRun (lease : Lease) : Control :=
  { c with
    runs := c.runs ++ [⟨lease, false, .check⟩]
    recoveryRunning := c.recoveryRunning.set lease.transferID c.runs.length }

def startRecoveryRunLocked (lease : Lease) : Control :=
  match c.recoveryRunning.get lease.transferID with
  | none => c.addRun lease
  | some r => if (c.runs[r]?).map RecoveryRun.lease = some lease then c
      else (c.cancelRun r).addRun lease

def putLease (lease : Lease) : Control :=
  { c with
    disposed :=
      c.disposed ++ ((c.recoveryLeases.get lease.transferID).filter fun previous =>
        previous ≠ lease).toList
    recoveryLeases := c.recoveryLeases.set lease.transferID lease }

def registerRecoveryLease (lease : Lease) : Control :=
  (c.putLease lease).stopRecoveryRunLocked lease.transferID (some lease)

def dropLease (transferID : String) : Control :=
  { c with
    recoveryLeases := c.recoveryLeases.delete transferID
    recoveryRequested := c.recoveryRequested.delete transferID
    disposals := c.disposals ++ (c.recoveryLeases.get transferID).toList }

def releaseLease (transferID : String) (expected : Option Lease) : Control :=
  if expected.isSome ∧ c.recoveryLeases.get transferID ≠ expected then c
  else (c.dropLease transferID).stopRecoveryRunLocked transferID none

def releaseOwnedRecoveryLease (lease : Lease) : Control :=
    c.releaseLease lease.transferID (some lease)

def setRequested (lease : Lease) (epoch : Epoch) : Control :=
  { c with recoveryRequested := c.recoveryRequested.set lease.transferID epoch }

/-- The newest requested epoch is set, and a loop started where none runs for the lease. -/
def request (lease : Lease) (epoch : Epoch) : Control :=
    (c.setRequested lease epoch).startRecoveryRunLocked lease

def setRuntimeEpoch (shardID : ℕ) (epoch : Epoch) : Control :=
  { c with runtimeEpochs := c.runtimeEpochs.set shardID epoch }

/-- The epoch that `continueRecoveryLease` asks for; `id` is what `newTransferID` gives it. -/
def continuedEpoch (lease : Lease) (id : String) : Epoch :=
  (c.runtimeEpochs.get (shardOf lease.transferID)).getD ("foreground", id)

def continueRecoveryLease (lease : Lease) (id : String) : Control :=
  if c.current lease then c.request lease (c.continuedEpoch shardOf lease id) else c

def affected (shardID : ℕ) (epoch : Epoch) : List Lease :=
  match c.runtimeEpochs.get shardID with
  | none => []
  | some previous =>
    if previous = epoch then []
    else (c.recoveryLeases.map Prod.snd).filter fun lease => shardOf lease.transferID = shardID

def observeRuntimeEpochs (shardID : ℕ) (runtimeEpoch transportEpoch : Option String) : Control :=
  match runtimeEpoch, transportEpoch with
  | some runtimeEpoch, some transportEpoch =>
    if runtimeEpoch = "" ∨ transportEpoch = "" then c
    else
      let epoch := (runtimeEpoch, transportEpoch)
      (c.affected shardOf shardID epoch).foldl (fun c lease => c.request lease epoch)
        (c.setRuntimeEpoch shardID epoch)
  | _, _ => c

/-- Whether a loop is still the registered one, for the current lease, of an owner that is not
fenced. -/
def recoveryRunCurrent (r : ℕ) (run : RecoveryRun) : Prop :=
  c.recoveryRunning.get run.lease.transferID = some r ∧ c.current run.lease ∧
    run.cancelled = false ∧
    c.ownershipErr run.lease = false

instance (r : ℕ) (run : RecoveryRun) : Decidable (c.recoveryRunCurrent r run) :=
  inferInstanceAs (Decidable (_ ∧ _ ∧ _ ∧ _))

inductive Input
  | proceed
  | send (generationID : String)
  | resumed (answer : Except LifecycleError ResumeResult)
  | replayed (answer : Except LifecycleError Unit)
  | woken

def failed (run : RecoveryRun) (error : LifecycleError) : Phase :=
  if run.cancelled then .finishing
  else if ¬ error.retryable then .releasing
  else .sleeping

def answered (run : RecoveryRun) (epoch : Option Epoch) (generationID : String) :
    Except LifecycleError ResumeResult → Phase
  | .error error => failed run error
  | .ok result =>
    if result.recovery = "terminal" then .releasing
    else if result.routeReplayRequired ∨
      result.recovery = "route_replay_required" then .replayCheck epoch generationID
    else .settle epoch

/-- The end of a successful attempt, where a request made meanwhile starts another one. -/
def settle (r : ℕ) (run : RecoveryRun) (epoch : Option Epoch) : Control :=
  if c.recoveryRunning.get run.lease.transferID ≠ some r then c.setPhase r .finishing
  else if c.recoveryRequested.get run.lease.transferID ≠ epoch then c.setPhase r .check
  else { c.setPhase r .finishing with
    recoveryRunning := c.recoveryRunning.delete run.lease.transferID }

def finish (r : ℕ) (run : RecoveryRun) : Control :=
  let c' := (c.cancelRun r).setPhase r .done
  if c.recoveryRunning.get run.lease.transferID = some r then
    { c' with recoveryRunning := c.recoveryRunning.delete run.lease.transferID }
  else c'

def recoverTransfer (r : ℕ) (run : RecoveryRun) (input : Input) : Option Control :=
  match run.phase, input with
  | .check, .proceed =>
    if c.recoveryRunCurrent r run then
      some (c.setPhase r (.send (c.recoveryRequested.get run.lease.transferID)))
    else some (c.setPhase r .stale)
  | .send epoch, .send generationID =>
    some { c.setPhase r (.sent epoch generationID) with resumes := c.resumes ++
      [⟨run.lease, generationID⟩] }
  -- a request can fail before anything is sent
  | .send _, .resumed (.error error) => some (c.setPhase r (failed run error))
  | .sent epoch generationID, .resumed answer =>
      some (c.setPhase r (answered run epoch generationID answer))
  | .replayCheck epoch generationID, .proceed =>
    if c.recoveryRunCurrent r run then some (c.setPhase r (.replaying epoch generationID))
    else some (c.setPhase r .stale)
  | .replaying _ _, .replayed (.error error) => some (c.setPhase r (failed run error))
  | .replaying epoch _, .replayed (.ok ()) => some (c.setPhase r (.settle epoch))
  | .settle epoch, .proceed => some (c.settle r run epoch)
  | .sleeping, .woken => some (c.setPhase r .check)
  | .sleeping, .proceed => if run.cancelled then some (c.setPhase r .finishing) else none
  | .stale, .proceed =>
      some (c.setPhase r (if c.ownershipErr run.lease then .releasing else .finishing))
  | .releasing, .proceed => some ((c.releaseOwnedRecoveryLease run.lease).setPhase r .finishing)
  | .finishing, .proceed => some (c.finish r run)
  | _, _ => none

def dispose (i : ℕ) : Option Control :=
  match c.disposals[i]? with
  | none => none
  | some lease =>
      some { c with disposals := c.disposals.eraseIdx i, disposed := c.disposed ++ [lease] }

inductive Step
  | registerRecoveryLease (lease : Lease)
  | releaseLease (transferID : String) (expected : Option Lease)
  | continueRecoveryLease (lease : Lease) (id : String)
  | observeRuntimeEpochs (shardID : ℕ) (runtimeEpoch transportEpoch : Option String)
  | recoverTransfer (r : ℕ) (input : Input)
  | dispose (i : ℕ)
  | relinquish (ownership : ℕ)

def step : Step → Option Control
  | .registerRecoveryLease lease => some (c.registerRecoveryLease lease)
  | .releaseLease transferID expected => some (c.releaseLease transferID expected)
  | .continueRecoveryLease lease id => some (c.continueRecoveryLease shardOf lease id)
  | .observeRuntimeEpochs shardID runtimeEpoch transportEpoch =>
    some (c.observeRuntimeEpochs shardOf shardID runtimeEpoch transportEpoch)
  | .recoverTransfer r input => (c.runs[r]?).bind fun run => c.recoverTransfer r run input
  | .dispose i => c.dispose i
  | .relinquish ownership => some { c with relinquished := ownership :: c.relinquished }

end Control
end Beam.Go
