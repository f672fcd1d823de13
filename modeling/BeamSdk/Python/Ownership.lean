import BeamSdk.Python.Resumes

/-! Provider transfers of one Python client: what each call registers for its transfer, and what a
call whose ownership was cancelled takes back. A step runs to the next await. -/

namespace Beam.Python

/-- What a call awaits, from the answer of `transfer.prepare` on. -/
inductive Main
  | preparing
  | serving
  | integrity
  -- its integrity signer was superseded before it was registered
  | unsubscribing
  | announcing
  | checking
  | streaming
  | failing
  | aborting
  | returned
  deriving DecidableEq

/-- A call, whose signers, lease and callback are known by its place among the calls. -/
structure Call where
  planFingerprint : String
  coordinateChecksum : String
  main : Main
  cancelled : Bool
  -- `stop_owned_recovery` waits for its turn on the loop
  scheduled : Bool
  signersRegistered : Bool
  leaseRegistered : Bool
  deriving DecidableEq

/-- What `_signer_generations` and `_route_recovery_signers` hold under one identity, by the call
that serves. -/
structure Signer where
  generation : Option ℕ
  subscription : Option ℕ
  unsubscribed : List ℕ
  deriving DecidableEq

namespace Signer
variable (s : Signer)

def clear : Signer :=
    { s with subscription := none, unsubscribed := s.unsubscribed ++ s.subscription.toList }

def stop : Signer := { s.clear with generation := none }

/-- `serve_route_recovery_signer` and `serve_integrity_signer` up to their first await. -/
def serve (k : ℕ) : Signer := { s.clear with generation := some k }

def subscribe (k : ℕ) : Signer := { s with subscription := some k }

def drop (k : ℕ) : Signer := { s with unsubscribed := s.unsubscribed ++ [k] }

end Signer

structure Client where
  control : Control
  calls : List Call
  route : Signer
  integrity : Signer
  -- the transfer's entry of `_integrity_context`
  integrityContext : Option ℕ
  -- the calls whose callbacks wait for the cancellation of their ownership
  callbacks : List ℕ
  -- the calls whose leases were disposed
  disposed : List ℕ

def Client.start : Client := ⟨Control.start, [], ⟨none, none, []⟩, ⟨none, none, []⟩, none, [], []⟩

namespace Client
variable (c : Client)

def update (k : ℕ) (f : Call → Call) : Client := { c with calls := c.calls.modify k f }

def setMain (k : ℕ) (main : Main) : Client := c.update k fun call => { call with main := main }

def owner : Option ℕ := c.control.recoveryLease.map RecoveryLease.replayRoutes

def setControl (control : Control) : Client :=
  match c.control.recoveryLease with
  | none => { c with control := control }
  | some previous =>
    if control.recoveryLease = some previous then { c with control := control }
    else
      { c with
        control := control
        callbacks := c.callbacks.filter fun k => k ≠ previous.replayRoutes
        disposed := c.disposed ++ [previous.replayRoutes] }

def stopRouteRecoverySigner : Client :=
    { c with route := c.route.stop, integrity := c.integrity.stop }

/-- With `prepared`, only if they still belong to that call's preparation. -/
def stopRecoverySigner (prepared : Option ℕ) : Client :=
  if prepared ≠ none ∧ c.integrityContext ≠ prepared then c
  else { c.stopRouteRecoverySigner with integrityContext := none }

def releaseRecoveryLease (replayRoutes : Option ℕ) : Client :=
  if replayRoutes ≠ none ∧ c.owner ≠ replayRoutes then c
  else (c.setControl (c.control.releaseRecoveryLease replayRoutes)).stopRouteRecoverySigner

def continueRecoveryLease (id : String) : Client :=
    c.setControl (c.control.continueRecoveryLease id)

def stopOwnedRecovery (k : ℕ) : Client :=
    (c.stopRecoverySigner (some k)).releaseRecoveryLease (some k)

/-- `register_recovery_lease`, `add_callback`, which calls back at once where the ownership is
cancelled, and the check that follows. -/
def registerLease (k : ℕ) (call : Call) (id : String) : Client :=
  let lease := c.control.registerRecoveryLease call.planFingerprint call.coordinateChecksum k
  let registered := (c.setControl lease).update k fun call => { call with leaseRegistered := true }
  if call.cancelled then
    ((registered.stopOwnedRecovery k).continueRecoveryLease id).setMain k .returned
  else { registered with callbacks := k :: registered.callbacks }.setMain k .announcing

/-- How what a call awaits ends: `cancelled` with its task cancelled, `pending` after such a
cancellation or an error that recovery may heal. -/
inductive Outcome
  | proceed
  | failed
  | cancelled
  | pending
  deriving DecidableEq

/-- One step of a call; `id` is a new identifier. -/
def runProviderTransfer (k : ℕ) (call : Call) (outcome : Outcome) (id : String) : Option Client :=
  match call.main, outcome with
  | .preparing, .failed | .preparing, .cancelled | .serving, .failed | .serving,
      .cancelled | .integrity, .cancelled
  | .unsubscribing, .cancelled | .streaming, .proceed => some (c.setMain k .returned)
  -- `_start_provider_route_recovery_signer` begins in the step that looks at the ownership
  | .preparing, .proceed =>
    some
      (if call.cancelled then c.setMain k .returned
      else
        let stopped := c.stopRecoverySigner none
        { stopped with route := stopped.route.serve k }.setMain k .serving)
  | .serving, .proceed =>
    some
      (if c.control.closed ∨ c.route.generation ≠ some k then
        { c with route := c.route.drop k }.setMain k .returned
      else
        let served := { c with route := c.route.subscribe k }
        if call.cancelled then served.setMain k .returned
        else
          { served with integrityContext := some k, integrity := c.integrity.serve k }.update
            k fun call =>
            { call with main := .integrity, signersRegistered := true })
  | .integrity, .proceed =>
    some
      (if c.control.closed ∨ c.integrity.generation ≠ some k then
        { c with integrity := c.integrity.drop k }.setMain k .unsubscribing
      else { c with integrity := c.integrity.subscribe k }.registerLease k call id)
  -- what the integrity signer fails with is suppressed
  | .integrity, .failed | .unsubscribing, .proceed | .unsubscribing, .failed =>
      some (c.registerLease k call id)
  | .announcing, .proceed => some (c.setMain k .checking)
  | .checking, .proceed => some (c.setMain k (if call.cancelled then .returned else .streaming))
  | .announcing, .failed | .announcing, .cancelled | .checking, .failed | .checking,
      .cancelled | .failing, .pending =>
    some ((c.continueRecoveryLease id).setMain k .returned)
  | .streaming, .failed | .streaming, .cancelled =>
    some (if call.cancelled then (c.stopOwnedRecovery k).setMain k .returned
      else c.setMain k .failing)
  -- the transfer is cancelled and its uploads are aborted before the release
  | .failing, .failed => some (c.setMain k .aborting)
  | .failing, .cancelled => some (c.setMain k .returned)
  | .aborting, .proceed | .aborting, .failed | .aborting, .cancelled =>
    some (((c.releaseRecoveryLease none).stopRecoverySigner none).setMain k .returned)
  | _, _ => none

/-- The ownership is cancelled, on the loop's thread or `elsewhere`. -/
def cancel (k : ℕ) (call : Call) (elsewhere : Bool) : Option Client :=
  if call.cancelled then none
  else
    let fired := { c with callbacks := c.callbacks.filter fun j => j ≠ k }.update k fun call =>
      { call with cancelled := true }
    some
      (if k ∈ c.callbacks then
        if elsewhere then fired.update k fun call => { call with scheduled := true }
          else fired.stopOwnedRecovery k
      else fired)

def stopScheduled (k : ℕ) (call : Call) : Option Client :=
  if call.scheduled then
    some ((c.update k fun call => { call with scheduled := false }).stopOwnedRecovery k) else none

def replayFailed (k : ℕ) (call : Call) : Option Client :=
  if call.leaseRegistered ∧ call.cancelled then some (c.stopOwnedRecovery k) else none

def execute (planFingerprint coordinateChecksum : String) : Client :=
  { c with calls := c.calls ++
    [⟨planFingerprint, coordinateChecksum, .preparing, false, false, false, false⟩] }

inductive Step
  | execute (planFingerprint coordinateChecksum : String)
  | main (k : ℕ) (outcome : Outcome) (id : String)
  | cancel (k : ℕ) (elsewhere : Bool)
  | stopScheduled (k : ℕ)
  | replayFailed (k : ℕ)
  -- what a terminal status and `cancel` do
  | terminal
  | observeRuntimeEpochs (runtimeEpoch transportEpoch : Option String)
  | recoverTransfer (r : ℕ) (input : Control.Input)
  | close

def recovered (control : Control) : Client :=
  if control.recoveryLease = c.control.recoveryLease then c.setControl control
  else (c.setControl control).stopRouteRecoverySigner

def step : Step → Option Client
  | .execute planFingerprint coordinateChecksum =>
      some (c.execute planFingerprint coordinateChecksum)
  | .main k outcome id => (c.calls[k]?).bind fun call => c.runProviderTransfer k call outcome id
  | .cancel k elsewhere => (c.calls[k]?).bind fun call => c.cancel k call elsewhere
  | .stopScheduled k => (c.calls[k]?).bind fun call => c.stopScheduled k call
  | .replayFailed k => (c.calls[k]?).bind fun call => c.replayFailed k call
  | .terminal => some ((c.releaseRecoveryLease none).stopRecoverySigner none)
  | .observeRuntimeEpochs runtimeEpoch transportEpoch =>
    some (c.setControl (c.control.observeRuntimeEpochs runtimeEpoch transportEpoch))
  | .recoverTransfer r input => (c.control.step (.recoverTransfer r input)).map c.recovered
  | .close => some { c.setControl c.control.close with
      route := c.route.clear, integrity := c.integrity.clear }

end Client
end Beam.Python
