import BeamSdk.TypeScript.Resumes

/-! Provider transfers of one TypeScript client: what each call registers for its transfer, and what
a call whose signal has fired takes back. A step runs to the next await. -/

namespace Beam.TypeScript

/-- What a call of `executeProviderTransfer` awaits, from the request of `transfer.prepare` on. -/
inductive Main
  | preparing
  | acquiring
  | serving
  | integrity
  | leasing
  | announcing
  | checking
  | streaming
  | failing
  | aborting
  | returned
  deriving DecidableEq

/-- A call, known by its place among the calls, and what it has registered so far. -/
structure Call where
  lease : TransferRecoveryLease
  main : Main
  aborted : Bool
  signersRegistered : Bool
  leaseRegistered : Bool
  deriving DecidableEq

/-- An entry of `recoverySigners`: who installed it, and whether its `stop` stops the integrity
signer too. -/
structure Registration where
  owner : ℕ
  integrity : Bool
  deriving DecidableEq

structure Client where
  control : Control
  calls : List Call
  -- the transfer's entries of `recoverySigners` and `integrityAuditSigners`
  recoverySigner : Option Registration
  integrityAuditSigner : Option ℕ
  -- the calls whose listeners wait for their signals
  listeners : List ℕ
  -- the calls whose route signer was stopped, whose integrity signer was, and whose lease was
  -- disposed
  stopped : List ℕ
  integrityStopped : List ℕ
  disposed : List ℕ

def Client.start : Client := ⟨Control.start, [], none, none, [], [], [], []⟩

namespace Client
variable (c : Client)

def update (k : ℕ) (f : Call → Call) : Client := { c with calls := c.calls.modify k f }

def setMain (k : ℕ) (main : Main) : Client := c.update k fun call => { call with main := main }

def setControl (control : Control) : Client :=
  match c.control.recoveryLease with
  | none => { c with control := control }
  | some previous =>
    if control.recoveryLease = some previous then { c with control := control }
    else
      { c with
        control := control
        listeners := c.listeners.filter fun k => k ≠ previous.ref
        disposed := c.disposed ++ [previous.ref] }

def owner : Option ℕ := c.recoverySigner.map Registration.owner

/-- With `owner`, only if that call installed them. -/
def stopRecoverySigner (owner : Option ℕ) : Client :=
  if owner ≠ none ∧ c.owner ≠ owner then c
  else
    { c with
      recoverySigner := none
      integrityAuditSigner := none
      stopped := c.stopped ++ c.owner.toList
      integrityStopped := c.integrityStopped ++
        ((c.recoverySigner.filter Registration.integrity).map Registration.owner).toList }

def release (lease : TransferRecoveryLease) : Client :=
    c.setControl (c.control.releaseRecoveryLease (some lease))

def continueRecovery (lease : TransferRecoveryLease) (foreground id : String) : Client :=
  c.setControl (c.control.continueRecoveryLease (some lease) foreground id)

def stopOwnedRecovery (k : ℕ) (lease : TransferRecoveryLease) : Client :=
    (c.stopRecoverySigner (some k)).release lease

def installSigners (k : ℕ) : Client :=
  { c.stopRecoverySigner none with
    recoverySigner := some ⟨k, false⟩, integrityAuditSigner := some k }

/-- `addEventListener` and `registerRecoveryLease`, and the check that follows. A signal that has
fired is not heard. -/
def registerLease (k : ℕ) (call : Call) (foreground id : String) : Client :=
  let listened := { c with listeners := k :: c.listeners }
  if c.control.closed then listened.setMain k .returned
  else
    let registered :=
      (listened.setControl (c.control.registerRecoveryLease call.lease)).update k fun call =>
      { call with leaseRegistered := true }
    if call.aborted then (registered.continueRecovery call.lease foreground id).setMain k .returned
    else registered.setMain k .announcing

/-- How what a call awaits ends. `pending` is a cancelled foreground or an error that recovery may
heal. -/
inductive Outcome
  | proceed
  | failed
  | pending

/-- One step of `executeProviderTransfer`; `foreground` and `id` are new identifiers. -/
def executeProviderTransfer (k : ℕ) (call : Call) (outcome : Outcome) (foreground id : String) :
    Option Client :=
  match call.main, outcome with
  | .preparing, .failed => some (c.setMain k .returned)
  | .preparing, .proceed => some (c.setMain k (if call.aborted then .returned else .acquiring))
  -- `startProviderRouteRecoverySigner` begins
  | .acquiring, .proceed => some ((c.stopRecoverySigner none).setMain k .serving)
  | .serving, .failed => some (c.setMain k .returned)
  | .serving, .proceed =>
    some
      (if call.aborted then { c with stopped := c.stopped ++ [k] }.setMain k .leasing
      else (c.installSigners k).update k fun call =>
        { call with main := .integrity, signersRegistered := true })
  | .integrity, .proceed =>
    some
      (if call.aborted ∨ c.owner ≠ some k then
        { c with stopped := c.stopped ++ [k], integrityStopped := c.integrityStopped ++
          [k] }.setMain k .leasing
      else { c with recoverySigner := some ⟨k, true⟩ }.setMain k .leasing)
  | .integrity, .failed =>
      some ((if call.aborted then c.stopRecoverySigner (some k) else c).setMain k .leasing)
  | .leasing, .proceed => some (c.registerLease k call foreground id)
  | .announcing, .proceed => some (c.setMain k .checking)
  | .checking, .proceed => some (c.setMain k (if call.aborted then .returned else .streaming))
  | .announcing, .failed | .checking, .failed | .failing, .pending =>
    some ((c.continueRecovery call.lease foreground id).setMain k .returned)
  | .streaming, .proceed => some (c.setMain k .returned)
  | .streaming, .failed =>
    some (if call.aborted then (c.stopOwnedRecovery k call.lease).setMain k .returned
      else c.setMain k .failing)
  -- the transfer is cancelled and its uploads are aborted before the release
  | .failing, .failed => some (c.setMain k .aborting)
  | .aborting, .proceed | .aborting, .failed => some ((c.release call.lease).setMain k .returned)
  | _, _ => none

def abort (k : ℕ) (call : Call) : Option Client :=
  if call.aborted then none
  else
    let fired := c.update k fun call => { call with aborted := true }
    some
      (if k ∈ c.listeners then
        { fired with listeners := c.listeners.filter fun j => j ≠ k }.stopOwnedRecovery k call.lease
      else fired)

def replayFailed (k : ℕ) (call : Call) : Option Client :=
  if call.leaseRegistered ∧ call.aborted then some (c.stopOwnedRecovery k call.lease) else none

def execute (planFingerprint coordinateChecksum : String) : Client :=
  { c with
    calls :=
      c.calls ++
        [⟨⟨c.calls.length, planFingerprint, coordinateChecksum⟩, .preparing, false, false, false⟩] }

inductive Step
  | execute (planFingerprint coordinateChecksum : String)
  | main (k : ℕ) (outcome : Outcome) (foreground id : String)
  | abort (k : ℕ)
  | replayFailed (k : ℕ)
  -- what a terminal status and a cancellation do
  | terminal
  | observeRuntimeEpoch (epoch : RuntimeEpoch) (id : String)
  | goOn (r : ℕ) (input : Control.Input)
  | close

def step : Step → Option Client
  | .execute planFingerprint coordinateChecksum =>
      some (c.execute planFingerprint coordinateChecksum)
  | .main k outcome foreground id =>
    (c.calls[k]?).bind fun call => c.executeProviderTransfer k call outcome foreground id
  | .abort k => (c.calls[k]?).bind fun call => c.abort k call
  | .replayFailed k => (c.calls[k]?).bind fun call => c.replayFailed k call
  | .terminal => some ((c.setControl (c.control.releaseRecoveryLease none)).stopRecoverySigner none)
  | .observeRuntimeEpoch epoch id => some (c.setControl (c.control.observeRuntimeEpoch epoch id))
  | .goOn r input => (c.control.step (.goOn r input)).map c.setControl
  | .close =>
    let stopped := c.stopRecoverySigner none
    some (stopped.setControl stopped.control.close)

end Client
end Beam.TypeScript
