import BeamSdk.Go.Recovery

/-! The route stream of a provider transfer: the workers that set up its multipart groups, and what
is cleaned up after a failure that recovery cannot mend. Disposing the transfer's lease clears the
registry of uploads. -/

namespace Beam.Go

structure Upload where
  groupID : String
  uploadID : String
  deriving DecidableEq

/-- Where `setupMultipartGroup` is with a group; `created` tells an upload it created from one that
was retained. -/
inductive Setup
  | queued
  | creating
  | recording (uploadID : String)
  | signing (uploadID : String) (created : Bool)
  | storing (uploadID : String) (created : Bool)
  | publishing (uploadID : String) (created : Bool)
  | failed (uploadID : String) (created : Bool)
  | aborting (uploadID : String)
  | deleting (uploadID : String)
  | closing
  | done
  deriving DecidableEq

structure GroupJob where
  groupID : String
  setup : Setup

/-- Where `streamRoutes` is; what it reports at its end is `MultipartCleanupComplete`, in the error
of a failure that was cleaned up. -/
inductive StreamPhase
  | beginning
  | streaming
  | draining
  | failing
  | cancelling (uploads : OrderedMap String String)
  | aborting (pending : List Upload) (failed : Bool)
  | releasing (complete : Bool)
  | returned (complete : Option Bool)

structure RouteStream where
  control : Control
  lease : Lease
  -- the upload id of each group
  uploads : OrderedMap String String
  jobs : List GroupJob
  -- the groups whose futures are closed
  closed : List String
  phase : StreamPhase
  -- what `createMultipartUpload` returned, and what was aborted
  created : List Upload
  aborted : List Upload

namespace RouteStream
variable (shardOf : String → ℕ) (s : RouteStream)

/-- A stream whose lease has just been registered; `restored` are the uploads of the transfer it
resumes. -/
def start (control : Control) (lease : Lease) (restored : OrderedMap String String) : RouteStream :=
  ⟨control.registerRecoveryLease lease, lease, restored, [], [], .beginning, [], []⟩

def fenced : Bool := s.control.ownershipErr s.lease

def setSetup (j : ℕ) (setup : Setup) : RouteStream :=
  { s with jobs := s.jobs.modify j fun job => { job with setup := setup } }

def setPhase (phase : StreamPhase) : RouteStream := { s with phase := phase }

def setUploads (uploads : OrderedMap String String) : RouteStream := { s with uploads := uploads }

def addCreated (upload : Upload) : RouteStream := { s with created := s.created ++ [upload] }

def addAborted (upload : Upload) : RouteStream := { s with aborted := s.aborted ++ [upload] }

def close (groupID : String) : RouteStream := { s with closed := groupID :: s.closed }

inductive SetupInput
  | proceed
  | failed
  | created (uploadID : String)

def setupMultipartGroup (j : ℕ) (job : GroupJob) (input : SetupInput) : Option RouteStream :=
  match job.setup, input with
  -- the stream's context is cancelled, or its owner is fenced
  | .queued, .failed => some (s.setSetup j .closing)
  | .queued, .proceed =>
    some (s.setSetup j (match s.uploads.get job.groupID with
      | some uploadID => .signing uploadID false
      | none => .creating))
  | .creating, .failed => some (s.setSetup j .closing)
  | .creating, .created uploadID =>
    if uploadID = "" then some (s.setSetup j .closing)
    else some ((s.addCreated ⟨job.groupID, uploadID⟩).setSetup j (.recording uploadID))
  | .recording uploadID, .proceed =>
    some ((s.setUploads (s.uploads.set job.groupID uploadID)).setSetup j (.signing uploadID true))
  | .signing uploadID created, .failed => some (s.setSetup j (.failed uploadID created))
  | .signing uploadID created, .proceed => some (s.setSetup j (.storing uploadID created))
  | .storing uploadID created, .proceed =>
    some ((s.setUploads (s.uploads.set job.groupID uploadID)).setSetup j
      (.publishing uploadID created))
  | .publishing uploadID created, .failed => some (s.setSetup j (.failed uploadID created))
  | .publishing _ _, .proceed => some (s.setSetup j .closing)
  | .failed uploadID created, .proceed =>
    some (s.setSetup j (if created = true ∧ s.fenced = false then .aborting uploadID else .closing))
  | .aborting _, .failed => some (s.setSetup j .closing)
  | .aborting uploadID, .proceed =>
    some ((s.addAborted ⟨job.groupID, uploadID⟩).setSetup j (.deleting uploadID))
  | .deleting _, .proceed =>
      some ((s.setUploads (s.uploads.delete job.groupID)).setSetup j .closing)
  -- closing a future that is closed panics
  | .closing, .proceed =>
    if job.groupID ∈ s.closed then none else some ((s.close job.groupID).setSetup j .done)
  | _, _ => none

/-- The uploads that `abortCreatedUploads` aborts. -/
def candidates (uploads : OrderedMap String String) : List Upload :=
  (uploads.filter fun entry => entry.2 ≠ "").map fun entry => ⟨entry.1, entry.2⟩

/-- What the stream goes on with; `begin` names the multipart groups of the plan. -/
inductive Input
  | begin (groups : List String)
  | proceed
  | failed
  | aborted (i : ℕ) (ok : Bool)

/-- One step of `streamRoutes`. `beginAttempted` is set before anything can fail, so no upload is
aborted before the transfer is cancelled. -/
def streamRoutes (input : Input) : Option RouteStream :=
  match s.phase, input with
  | .beginning, .failed => some (s.setPhase .draining)
  -- `startMultipartGroupManifest`
  | .beginning, .begin groups =>
    some { s.setPhase .streaming with jobs := groups.map fun groupID => ⟨groupID, .queued⟩ }
  | .streaming, .proceed =>
    if ∀ job ∈ s.jobs, job.setup = .done then some (s.setPhase (.returned none)) else none
  | .streaming, .failed => some (s.setPhase .draining)
  -- every worker has ended
  | .draining, .proceed =>
    if ∀ job ∈ s.jobs, job.setup = .done then
      some (s.setPhase (if s.fenced then .returned none else .failing))
    else none
  -- a failure that recovery mends, and one that it does not: `cancelAndAbortProviderFailure`
  | .failing, .proceed => some (s.setPhase (.returned none))
  | .failing, .failed => some (s.setPhase (.cancelling s.uploads))
  | .cancelling uploads, .proceed => some (s.setPhase (.aborting (candidates uploads) false))
  | .aborting pending failed, .aborted i ok =>
    match pending[i]? with
    | none => none
    | some upload =>
      if ok then some ((s.addAborted upload).setPhase (.aborting (pending.eraseIdx i) failed))
      else some (s.setPhase (.aborting (pending.eraseIdx i) true))
  | .aborting [] failed, .proceed => some (s.setPhase (.releasing (!failed)))
  | .releasing complete, .proceed =>
    some { s.setPhase (.returned (some complete)) with
      control := s.control.releaseOwnedRecoveryLease s.lease }
  | _, _ => none

/-- A step of the client's control. The registry is cleared where it disposes the stream's lease. -/
def observe (control : Control) : RouteStream :=
  { s with
    control := control
    uploads := if s.control.disposed.count s.lease < control.disposed.count s.lease then []
      else s.uploads }

inductive Step
  | control (i : Control.Step)
  | setup (j : ℕ) (input : SetupInput)
  | stream (input : Input)

def step : Step → Option RouteStream
  | .control i => (s.control.step shardOf i).map s.observe
  | .setup j input => (s.jobs[j]?).bind fun job => s.setupMultipartGroup j job input
  | .stream input => s.streamRoutes input

end RouteStream
end Beam.Go
