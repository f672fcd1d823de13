import BeamSdk.Python.Recovery
import BeamSdk.Library.OrderedMap

/-! The foreground route stream of a Python provider transfer: the task that sets up its multipart
groups, the functions these await in the executor, and the handling of failures. A function that
runs goes on where its awaiting task is cancelled; one that is still queued does not run. A step
runs to the next await. -/

namespace Beam.Python

structure Upload where
  groupID : String
  uploadID : String
  deriving DecidableEq

/-- Where `create_group` is with a group; `created` tells an upload it created from one that was
retained, and `running` a function that the executor has taken up. -/
inductive Setup
  | waiting
  | creating (running : Bool)
  | signing (uploadID : String) (created : Bool)
  | publishing (uploadID : String) (created : Bool)
  -- after a failure of its own, or a cancellation
  | aborting (uploadID : String) (running cancelled : Bool)
  | ready
  | failed
  | cancelled
  deriving DecidableEq

def Setup.awaits : Setup → Bool
  | .creating _ | .signing _ _ | .publishing _ _ | .aborting _ _ _ => true
  | .waiting | .ready | .failed | .cancelled => false

structure GroupTask where
  groupID : String
  setup : Setup
  deriving DecidableEq

inductive Job
  | create (groupID : String)
  | abort (upload : Upload)
  deriving DecidableEq

namespace GroupTask
variable (task : GroupTask)

/-- What `create_group` does with a cancellation at its await. -/
def cancel (fenced : Bool) : GroupTask :=
  { task with
    setup := match task.setup with
      | .signing uploadID created | .publishing uploadID created =>
        if created = true ∧ fenced = false then .aborting uploadID false true else .cancelled
      | .creating _ | .aborting _ _ _ => .cancelled
      | .waiting | .ready | .failed | .cancelled => task.setup }

def abandons : List Job :=
  match task.setup with
  | .creating true => [.create task.groupID]
  | .aborting uploadID true _ => [.abort ⟨task.groupID, uploadID⟩]
  | _ => []

end GroupTask

/-- How the stream failed: `stopped` by a cancellation or by `throw_if_cancelled`, or with an error
that recovery mends or does not. -/
inductive Failure
  | stopped
  | recoverable
  | failed
  deriving DecidableEq

/-- How the call ended: `cancelled` while it handled a failure, `failed` with a
`BeamProviderTransferError`. -/
inductive Ending
  | accepted
  | fenced
  | cancelled
  | stopped
  | pending
  | failed (cleanupError : Bool)
  deriving DecidableEq

/-- What `stream_prepared_routes` awaits; a failure of a fenced owner is `none`. -/
inductive StreamPhase
  | beginning
  | streaming
  | manifest (cancelled : Bool)
  | completing
  | aborting (failure : Failure)
  | gathering (failure : Option Failure)
  -- the manifest task, to which a cancellation is passed on
  | settling (failure : Option Failure) (cancelled : Bool)
  | cancelling
  | cleaning (uploads : List (Upload × Bool)) (failed : Bool)
  | ended (ending : Ending)
  deriving DecidableEq

structure RouteStream where
  control : Control
  lease : RecoveryLease
  -- the ownership is cancelled
  fenced : Bool
  -- `multipart_control_concurrency`
  limit : ℕ
  uploads : OrderedMap String String
  groups : List GroupTask
  next : ℕ
  -- the workers that are about to take a group
  workers : ℕ
  phase : StreamPhase
  -- its own lease was asked to continue
  continued : Bool
  abandoned : List Job
  -- what `create_multipart_upload` returned, and what was aborted
  created : List Upload
  aborted : List Upload

namespace RouteStream
variable (s : RouteStream)

/-- A stream whose lease has just been registered; `restored` are the uploads of the transfer it
resumes. -/
def start (control : Control) (planFingerprint coordinateChecksum : String) (replayRoutes limit : ℕ)
    (restored : OrderedMap String String) : RouteStream where
  control := control.registerRecoveryLease planFingerprint coordinateChecksum replayRoutes
  lease := ⟨control.leases, replayRoutes, planFingerprint, coordinateChecksum⟩
  fenced := false
  limit
  uploads := restored
  groups := []
  next := 0
  workers := 0
  phase := .beginning
  continued := false
  abandoned := []
  created := []
  aborted := []

def leased : Prop := s.control.recoveryLease = some s.lease

instance : Decidable s.leased := inferInstanceAs (Decidable (_ = _))

def setSetup (j : ℕ) (setup : Setup) : RouteStream :=
  { s with groups := s.groups.modify j fun task => { task with setup := setup } }

def setPhase (phase : StreamPhase) : RouteStream := { s with phase := phase }

def setUploads (uploads : OrderedMap String String) : RouteStream := { s with uploads := uploads }

def addCreated (upload : Upload) : RouteStream := { s with created := s.created ++ [upload] }

def addAborted (upload : Upload) : RouteStream := { s with aborted := s.aborted ++ [upload] }

def finish (j : ℕ) (setup : Setup) : RouteStream :=
    { s.setSetup j setup with workers := s.workers + 1 }

def fails (j : ℕ) (uploadID : String) (created : Bool) : RouteStream :=
  if created = true ∧ s.fenced = false then s.setSetup j (.aborting uploadID false false)
    else s.finish j .failed

/-- What a task goes on with: the executor takes its function up, or its await ends. -/
inductive SetupInput
  | run
  | created (uploadID : String)
  | proceed
  | failed

def takeGroup (task : GroupTask) : RouteStream :=
  let taken := { s with next := s.next + 1, workers := s.workers - 1 }
  if s.fenced then taken.finish s.next .failed
  else
    match s.uploads.get task.groupID with
    | some uploadID => taken.setSetup s.next (.signing uploadID false)
    | none => taken.setSetup s.next (.creating false)

def createGroup (j : ℕ) (task : GroupTask) (input : SetupInput) : Option RouteStream :=
  match task.setup, input with
  | .creating false, .run => some (s.setSetup j (.creating true))
  | .creating true, .created uploadID =>
    -- an answer without an id is an error
    if uploadID = "" then some (s.finish j .failed)
    else
      some (((s.addCreated ⟨task.groupID, uploadID⟩).setUploads
        (s.uploads.set task.groupID uploadID)).setSetup j
        (.signing uploadID true))
  | .creating _, .failed => some (s.finish j .failed)
  -- `on_group_ready` looks at the ownership before its first await
  | .signing uploadID created, .proceed =>
    let recorded := s.setUploads (s.uploads.set task.groupID uploadID)
    some (if s.fenced then recorded.fails j uploadID created
      else recorded.setSetup j (.publishing uploadID created))
  | .publishing _ _, .proceed => some (s.finish j .ready)
  | .signing uploadID created, .failed | .publishing uploadID created, .failed =>
      some (s.fails j uploadID created)
  | .aborting uploadID false cancelled, .run =>
      some (s.setSetup j (.aborting uploadID true cancelled))
  | .aborting uploadID true cancelled, .proceed =>
    let aborted :=
      (s.addAborted ⟨task.groupID, uploadID⟩).setUploads (s.uploads.delete task.groupID)
    some (if cancelled then aborted.setSetup j .cancelled else aborted.finish j .failed)
  -- the error raised from a failed abort replaces a cancellation
  | .aborting _ _ _, .failed => some (s.finish j .failed)
  | _, _ => none

def settled : Prop :=
  (∀ task ∈ s.groups, task.setup.awaits = false) ∧ (s.workers = 0 ∨ s.groups.length ≤ s.next)

instance : Decidable s.settled := inferInstanceAs (Decidable (_ ∧ _))

def cancelManifest : RouteStream :=
  { s with
    groups := s.groups.map fun task => task.cancel s.fenced
    workers := 0
    abandoned := s.abandoned ++ s.groups.flatMap GroupTask.abandons }

/-- What an `except BaseException` begins with. A fenced owner stops its recovery and goes straight
to its tasks. -/
def handle (failure : Failure) : RouteStream :=
  if s.fenced then
    { s.setPhase (.gathering none) with
      control := s.control.releaseRecoveryLease (some s.lease.replayRoutes) }
  else s.setPhase (.aborting failure)

def continueLease (id : String) : RouteStream :=
  { s with control := s.control.continueRecoveryLease id, continued :=
    s.continued || decide s.leased }

def releaseLease : RouteStream := { s with control := s.control.releaseRecoveryLease none }

def handled (id : String) : Option Failure → RouteStream
  | none => s.setPhase (.ended .fenced)
  | some .stopped => (s.continueLease id).setPhase (.ended .stopped)
  | some .recoverable => (s.continueLease id).setPhase (.ended .pending)
  | some .failed => s.setPhase .cancelling

def candidates : List Upload :=
  (s.uploads.filter fun entry => entry.2 ≠ "").map fun entry => ⟨entry.1, entry.2⟩

/-- What the stream goes on with; `begin` names the multipart groups of the plan. -/
inductive Input
  | begin (groupIDs : List String)
  | proceed (id : String)
  | failed (failure : Failure)
  | run (i : ℕ)
  | aborted (i : ℕ) (ok : Bool)

/-- One step of `stream_prepared_routes`, which the await of its phase ends. The begin is attempted
in the first one, so no upload is aborted before the transfer is cancelled. -/
def streamPreparedRoutes (input : Input) : Option RouteStream :=
  match s.phase, input with
  | .beginning, .begin groupIDs =>
    some
      { s.setPhase .streaming with
        groups := groupIDs.map fun groupID => ⟨groupID, .waiting⟩
        workers := min (max 1 s.limit) groupIDs.length }
  | .beginning, .failed failure | .streaming, .failed failure | .completing, .failed failure =>
      some (s.handle failure)
  -- every route is signed, for which every group was waited for
  | .streaming, .proceed _ =>
    if ∀ task ∈ s.groups, ∃ other ∈ s.groups, other.groupID = task.groupID ∧
      other.setup = .ready then
      some (s.setPhase (.manifest false))
    else none
  | .manifest cancelled, .proceed _ =>
    if s.settled then
      if cancelled then some (s.handle .stopped)
      else if ∀ task ∈ s.groups, task.setup = .ready then some (s.setPhase .completing)
      else none
    else none
  | .manifest false, .failed failure => if s.settled then some (s.handle failure) else none
  | .completing, .proceed _ => some (s.setPhase (.ended .accepted))
  | .aborting failure, .proceed _ => some (s.setPhase (.gathering (some failure)))
  | .gathering failure, .proceed _ => some (s.setPhase (.settling failure false))
  | .settling failure cancelled, .proceed id =>
    if s.settled then some (if cancelled then s.setPhase (.ended .cancelled)
      else s.handled id failure) else none
  -- `_cancel_and_abort_provider_failure`, whatever the request comes to
  | .cancelling, .proceed _ =>
      some (s.setPhase (.cleaning (s.candidates.map fun upload => (upload, false)) false))
  | .cleaning uploads failed, .run i =>
    some (s.setPhase (.cleaning (uploads.modify i fun entry => (entry.1, true)) failed))
  | .cleaning uploads failed, .aborted i ok =>
    match uploads[i]? with
    | none => none
    | some (upload, running) =>
      if ok then
        if running then
          some (((s.addAborted upload).setUploads (s.uploads.delete upload.groupID)).setPhase
            (.cleaning (uploads.eraseIdx i) failed))
        else none
      else some (s.setPhase (.cleaning (uploads.eraseIdx i) true))
  | .cleaning [] failed, .proceed _ => some (s.releaseLease.setPhase (.ended (.failed failed)))
  | _, _ => none

def cancel : Option RouteStream :=
  match s.phase with
  | .beginning | .streaming | .completing => some (s.handle .stopped)
  | .manifest _ => some (s.cancelManifest.setPhase (.manifest true))
  -- neither wait is for the manifest task, which goes on
  | .aborting _ | .gathering _ => some (s.setPhase (.ended .cancelled))
  | .settling failure _ => some (s.cancelManifest.setPhase (.settling failure true))
  -- a cancellation is no `Exception`, and the `finally` releases the lease
  | .cancelling => some (s.releaseLease.setPhase (.ended .cancelled))
  | .cleaning uploads _ =>
    let running := (uploads.filter fun entry => entry.2).map fun entry => Job.abort entry.1
    some { s.releaseLease.setPhase (.ended .cancelled) with abandoned := s.abandoned ++ running }
  | .ended _ => none

inductive JobResult
  | created (uploadID : String)
  | aborted
  | failed

def jobEnds (i : ℕ) (job : Job) (result : JobResult) : Option RouteStream :=
  let left := { s with abandoned := s.abandoned.eraseIdx i }
  match job, result with
  | .create groupID, .created uploadID =>
      if uploadID = "" then some left else some (left.addCreated ⟨groupID, uploadID⟩)
  | .abort upload, .aborted => some (left.addAborted upload)
  | _, .failed => some left
  | _, _ => none

inductive Step
  | control (i : Control.Step)
  -- the ownership is cancelled
  | fence
  | take
  | setup (j : ℕ) (input : SetupInput)
  | stream (input : Input)
  | cancel
  | jobEnds (i : ℕ) (result : JobResult)

/-- What other calls of the client do to the transfer's lease, its callbacks included, are steps of
the control. -/
def step : Step → Option RouteStream
  | .control i => (s.control.step i).map fun control => { s with control := control }
  | .fence => some { s with fenced := true }
  | .take => if s.workers = 0 then none else (s.groups[s.next]?).map s.takeGroup
  | .setup j input => (s.groups[j]?).bind fun task => s.createGroup j task input
  | .stream input => s.streamPreparedRoutes input
  | .cancel => s.cancel
  | .jobEnds i result => (s.abandoned[i]?).bind fun job => s.jobEnds i job result

end RouteStream
end Beam.Python
