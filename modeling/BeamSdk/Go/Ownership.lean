import BeamSdk.Go.Recovery

/-! Provider transfers of one Go client: what each call registers for its transfer, and what a call
whose ownership was cancelled takes back. What runs under `signerMu` or `recoveryMu` is one step,
and so is each `stop` between them. -/

namespace Beam.Go

inductive Release
  | signers
  | stop
  | lease
  deriving DecidableEq

/-- Where a call of `executeProviderTransfer` is, from the answer of `transfer.prepare` on.
`stopping` and `replacing` hold the signers that the call took out of the map. -/
inductive Main
  | preparing
  | starting
  | stopping (current : Option ℕ)
  | serving
  | checking
  | registering
  | replacing (previous : Option ℕ)
  | leasing
  | watching
  | fencing
  | streaming
  | failing
  | continuing
  | releasing (release : Release)
  | returned
  deriving DecidableEq

structure Session where
  lease : Lease
  main : Main
  watched : Bool
  -- the `releaseOwned` calls of its ownership watch and of its replays that are under way
  releases : List Release
  signersRegistered : Bool
  leaseRegistered : Bool

structure Client where
  control : Control
  recoverySigners : OrderedMap String ℕ
  sessions : List Session
  -- signers taken out of the map by terminal answers that are still to be stopped, and all that
  -- were stopped
  stops : List ℕ
  stopped : List ℕ

def Client.start : Client := ⟨Control.start, [], [], [], []⟩

namespace Client
variable (shardOf : String → ℕ) (c : Client)

def fenced (s : Session) : Bool := c.control.ownershipErr s.lease

def update (k : ℕ) (f : Session → Session) : Client := { c with sessions := c.sessions.modify k f }

def setMain (k : ℕ) (main : Main) : Client := c.update k fun s => { s with main := main }

def setControl (control : Control) : Client := { c with control := control }

def stop (signers : Option ℕ) : Client := { c with stopped := c.stopped ++ signers.toList }

def deleteSigners (transferID : String) : Client :=
  { c with recoverySigners := c.recoverySigners.delete transferID }

def putSigners (transferID : String) (k : ℕ) : Client :=
  { c with recoverySigners := c.recoverySigners.set transferID k }

/-- One step of `releaseOwned`, and where it goes on. -/
def releaseOwned (k : ℕ) (s : Session) : Release → Client × Option Release
  | .signers =>
    if c.recoverySigners.get s.lease.transferID = some k then
      (c.deleteSigners s.lease.transferID, some .stop)
    else (c, some .lease)
  | .stop => (c.stop (some k), some .lease)
  | .lease => (c.setControl (c.control.releaseOwnedRecoveryLease s.lease), none)

/-- What a call goes on with: a step that fails, or an input of `continueRecoveryLease`. -/
inductive Input
  | proceed
  | failed
  | cancelled
  | continued (id : String)

def executeProviderTransfer (k : ℕ) (s : Session) (input : Input) : Option Client :=
  let transferID := s.lease.transferID
  match s.main, input with
  | .preparing, .failed => some (c.setMain k .returned)
  | .preparing, .proceed => some (c.setMain k (if c.fenced s then .returned else .starting))
  -- `startProviderRouteRecoverySigner`, which begins with `stopRecoverySigner`
  | .starting, .proceed =>
    some ((c.deleteSigners transferID).setMain k (.stopping (c.recoverySigners.get transferID)))
  | .stopping current, .proceed => some ((c.stop current).setMain k .serving)
  | .serving, .failed => some (c.setMain k .returned)
  | .serving, .proceed => some (c.setMain k .checking)
  | .checking, .proceed =>
    some (if c.fenced s then (c.stop (some k)).setMain k .returned else c.setMain k .registering)
  -- `registerTransferSigners`
  | .registering, .proceed =>
    some ((c.putSigners transferID k).update k fun s =>
      { s with
        main := .replacing ((c.recoverySigners.get transferID).filter (· ≠ k))
        signersRegistered := true })
  | .replacing previous, .proceed => some ((c.stop previous).setMain k .leasing)
  | .leasing, .proceed =>
    some ((c.setControl (c.control.registerRecoveryLease s.lease)).update k fun s =>
      { s with main := .watching, leaseRegistered := true })
  | .watching, .proceed => some (c.update k fun s => { s with main := .fencing, watched := true })
  | .fencing, .proceed =>
      some (c.setMain k (if c.fenced s then .releasing .signers else .streaming))
  -- the stream succeeds, or is not started for an owner that is fenced by now
  | .streaming, .proceed => some (c.setMain k .returned)
  | .streaming, .cancelled => some (c.setMain k .continuing)
  | .streaming, .failed => some (c.setMain k .failing)
  | .failing, .cancelled =>
      some (c.setMain k (if c.fenced s then .releasing .signers else .continuing))
  -- the transfer is cancelled and its uploads are aborted before the release
  | .failing, .failed => some (c.setMain k (.releasing .signers))
  | .continuing, .continued id =>
    some ((c.setControl (c.control.continueRecoveryLease shardOf s.lease id)).setMain k .returned)
  | .releasing release, .proceed =>
    let (c', next) := c.releaseOwned k s release
    some (c'.setMain k (next.elim .returned .releasing))
  | _, _ => none

/-- The watch or a replay finds that its owner is fenced. A watch that was stopped may still be
under way. -/
def release (k : ℕ) : Option Client :=
  match c.sessions[k]? with
  | none => none
  | some s =>
    if s.watched ∧
      c.fenced s then some (c.update k fun s => { s with releases := s.releases ++ [.signers] })
    else none

def releasing (k j : ℕ) : Option Client :=
  match c.sessions[k]? with
  | none => none
  | some s =>
    match s.releases[j]? with
    | none => none
    | some release =>
      let (c', next) := c.releaseOwned k s release
      some (c'.update k fun s =>
        { s with releases := next.elim (s.releases.eraseIdx j) (s.releases.set j) })

inductive Step
  | execute (transferID planFingerprint coordinateChecksum : String) (ownership : Option ℕ)
  | main (k : ℕ) (input : Input)
  | release (k : ℕ)
  | releasing (k j : ℕ)
  -- what a terminal status and a cancellation do
  | releaseRecoveryLease (transferID : String)
  | stopRecoverySigner (transferID : String)
  | stop (i : ℕ)
  | observeRuntimeEpochs (shardID : ℕ) (runtimeEpoch transportEpoch : Option String)
  | recoverTransfer (r : ℕ) (input : Control.Input)
  | dispose (i : ℕ)
  | relinquish (ownership : ℕ)

def Step.control : Step → Option Control.Step
  | .releaseRecoveryLease transferID => some (.releaseLease transferID none)
  | .observeRuntimeEpochs shardID runtimeEpoch transportEpoch =>
    some (.observeRuntimeEpochs shardID runtimeEpoch transportEpoch)
  | .recoverTransfer r input => some (.recoverTransfer r input)
  | .dispose i => some (.dispose i)
  | .relinquish ownership => some (.relinquish ownership)
  | _ => none

def execute (transferID planFingerprint coordinateChecksum : String)
    (ownership : Option ℕ) : Client :=
  { c with
    sessions := c.sessions ++
      [⟨⟨c.sessions.length, transferID, planFingerprint, coordinateChecksum, ownership⟩, .preparing,
        false, [], false,
        false⟩] }

def step (i : Step) : Option Client :=
  match i with
  | .execute transferID planFingerprint coordinateChecksum ownership =>
    some (c.execute transferID planFingerprint coordinateChecksum ownership)
  | .main k input => (c.sessions[k]?).bind fun s => c.executeProviderTransfer shardOf k s input
  | .release k => c.release k
  | .releasing k j => c.releasing k j
  | .stopRecoverySigner transferID =>
    some { c.deleteSigners transferID with stops := c.stops ++
      (c.recoverySigners.get transferID).toList }
  | .stop j =>
    match c.stops[j]? with
    | none => none
    | some signers => some { c.stop (some signers) with stops := c.stops.eraseIdx j }
  | i => (i.control.bind (c.control.step shardOf)).map c.setControl

end Client
end Beam.Go
