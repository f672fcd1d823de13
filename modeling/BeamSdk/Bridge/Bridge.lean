import BeamSdk.Bridge.Webhook
import BeamSdk.Library.Run

/-! The bridge with answers from a workflow: its requests and replies, and its handlers, each cut
where it waits for something outside. Between two such points nothing else runs, and at one any
other handler may. -/

namespace Beam.Bridge
open Contract (Address Bytes Bytes32)
open Relay (utf8)

def RETENTION_SECONDS : ℤ := 25 * 3600
def MAX_REPLY_BYTES : ℕ := 64 * 1024
def MAX_REMEMBERED_REPORTS : ℕ := 1000
def MAX_ATTESTATIONS : ℕ := 7
def SIGNERS_TTL_SECONDS : ℤ := 3600

structure AttestedReply where
  attestation : Attestation
  answer : AttestationAnswer
  -- the signer set's fault tolerance; none where signatures are not verified
  f : Option ℕ
  signers : List Address
  header : ReportHeader
  -- the submission, each of its fields written as hex
  report : SignedReport
  deriving DecidableEq

inductive BridgeReply
  | attested (reply : AttestedReply)
  | unanswered (attestation : Attestation) (reason message : String)
  deriving DecidableEq

section Text
open Json.Write

def hexText (bytes : Bytes) : List Char := '"' :: hexOf bytes ++ ['"']

def prefixed (digits : List Char) : List Char := '"' :: '0' :: 'x' :: digits ++ ['"']

def requestView : Attestation → List Char
  | .transfer transferId =>
      object [("op", text "attest_transfer"), ("transfer_id", text transferId.text)]
  | .roomPublication room channel publication =>
    object [("op", text "attest_room_publication"), ("room", text room), ("channel", text channel),
      ("publication", text publication)]

def statusName (status : UInt8) : List Char :=
  if status = 1 then text "completed"
  else if status = 2 then text "failed"
  else if status = 3 then text "cancelled"
  else if status = 4 then text "partial"
  else text (toString status.toNat)

def levelNames (level : UInt8) : List Char :=
  array ((if level &&& Contract.LEVEL_BEAM_REPORTED ≠ 0 then [text "beam_reported"] else []) ++
    (if level &&& Contract.LEVEL_TARGET_SIGNED ≠ 0 then [text "target_signed"] else []) ++
    (if level &&& Contract.LEVEL_DON_ATTESTED ≠ 0 then [text "don_attested"] else []))

def answerView : AttestationAnswer → List Char
  | .standard entry =>
    object [("kind", text "transfer"),
      ("transfer_id", text (Relay.bytes16ToTransferId entry.transferId)),
      ("status", statusName entry.status), ("total_bytes", text (toString entry.totalBytes.toNat)),
      ("bytes_transferred", text (toString entry.bytesTransferred.toNat)),
      ("completed_at_ms", text (toString entry.completedAtMs.toNat)),
      ("plan_fingerprint", prefixed (Hex.digits 64 entry.planFingerprint.toNat)),
      ("coordinate_checksum", prefixed (Hex.digits 64 entry.coordinateChecksum.toNat)),
        ("level", nat entry.level.toNat),
      ("level_names", levelNames entry.level)]
  | .room entry =>
    object [("kind", text "room_publication"), ("room", text entry.room),
      ("channel", text entry.channel),
      ("publication", text entry.publication), ("status", statusName entry.status),
      ("file_size_bytes", text (toString entry.fileSizeBytes.toNat)),
      ("manifest_sha256", prefixed (Hex.digits 64 entry.manifestSha256.toNat)),
        ("target_count", nat entry.targetCount.toNat),
      ("evidence_sha256", prefixed (Hex.digits 64 entry.evidenceSha256.toNat)),
      ("assignments_sha256", prefixed (Hex.digits 64 entry.assignmentsSha256.toNat)),
      ("evidence_version", nat entry.evidenceVersion.toNat), ("level", nat entry.level.toNat),
      ("level_names", levelNames entry.level)]
  | .closure entry =>
    object [("kind", text "bucket_only_publication"), ("standard_transfer_id",
      if entry.transferId = 0 then null else text (Relay.bytes16ToTransferId entry.transferId))]

def ATTESTATION_CLAIM : String :=
  "Each signing Chainlink node read this answer from Beam and signed the same report. It shows what Beam reported, " ++
  "not that Beam is right: the DON does not check Beam's evidence independently."

def AttestedReply.write (reply : AttestedReply) : List Char :=
  object [("type", text "beam.cre.attestation.v1"), ("outcome", text "attested"),
    ("request", requestView reply.attestation), ("answer", answerView reply.answer),
    ("signatures", object [("verified", bool reply.f.isSome),
      ("source", text (if reply.f.isSome then "registry" else "unverified")),
        ("f", option nat reply.f),
      ("signers", array (reply.signers.map fun signer => prefixed (Hex.digits 40 signer.toNat)))]),
    ("workflow", object [("id", hexText reply.header.workflowId),
      ("owner", prefixed (hexOf reply.header.workflowOwner)),
      ("name", hexText reply.header.workflowName),
        ("execution_id", hexText reply.header.executionId),
      ("don_id", nat reply.header.donId), ("timestamp", nat reply.header.timestamp)]),
    ("report",
      object [("report", hexText reply.report.rawReport), ("context", hexText reply.report.context),
      ("signatures", array (reply.report.signatures.map hexText))]),
    ("claim", text ATTESTATION_CLAIM)]

end Text

/-- `answers` of a configuration whose answers come from a workflow. -/
structure CreAnswers where
  workflowId : Bytes
  workflowOwner : Bytes
  -- whether `signers.source` is the registry
  registry : Bool
  paceSeconds : ℤ
  retrySeconds : ℤ
  maxAttempts : ℕ

structure BridgeRequest where
  -- which object this is; handlers hold requests by reference
  ref : ℕ
  id : String
  room : String
  channel : String
  publisher : String
  receivedAt : ℤ
  attestation : Attestation
  publishOnchain : Bool
  attempts : ℕ
  forwardedAt : Option ℤ
  reply : Option BridgeReply
  answeredAt : Option ℤ
  deriving DecidableEq

structure BridgeState where
  requests : OrderedMap String BridgeRequest
  reports : List Bytes32

def emptyState : BridgeState := ⟨[], []⟩

/-- The locals of `handleResult` once the report passed its first checks. -/
structure Submission where
  signed : SignedReport
  digest : Bytes32
  header : ReportHeader
  decoded : DecodedReport
  deriving DecidableEq

/-- A handler that waits: for a DON's signers, which may be cached, for signatures to be recovered,
or for a batch to be forwarded. -/
inductive Task
  | signers (submission : Submission) (cached : Option SignerSet) (refresh : Bool)
  | verify (submission : Submission) (set : SignerSet) (refresh : Bool)
  | forward (batch : List ℕ) (now : ℤ)
  deriving DecidableEq

structure Forwarded where
  batch : List ℕ
  attest : List Attestation
  publishOnchain : Bool
  deriving DecidableEq

structure World where
  state : BridgeState
  nextRunAt : ℤ
  nextRef : ℕ
  tasks : List Task
  signerCache : OrderedMap ℕ (SignerSet × ℤ)
  -- every batch forwarded, and every signer set the registry returned
  forwarded : List Forwarded
  returned : List (ℕ × SignerSet)

def World.start : World := ⟨emptyState, 0, 0, [], [], [], []⟩

namespace World
variable (w : World)

def kept : List BridgeRequest := objectValues w.state.requests

def mapRequests (f : BridgeRequest → BridgeRequest) : World :=
  { w with state := { w.state with requests := w.state.requests.map fun entry =>
    (entry.1, f entry.2) } }

def drop (i : ℕ) : World := { w with tasks := w.tasks.eraseIdx i }

def await (task : Task) : World := { w with tasks := w.tasks ++ [task] }

end World

inductive Response
  | status (code : ℕ)
  | refused (reason message : String)
  | accepted (location : String)
  | pending
  | reply (reply : BridgeReply)
  | error (code : ℕ) (error : String)
  | duplicate
  | taken (answered : ℕ)

section Handlers
variable (viem : Viem) (host : Host) (secrets : List String) (policy : AttestationPolicy)
    (answers : CreAnswers)

/-- A character that `encodeURIComponent` leaves as it is. -/
def isUnreserved (c : Char) : Bool :=
  Text.isDecimal c || (65 ≤ c.toNat && c.toNat ≤ 90) || (97 ≤ c.toNat && c.toNat ≤ 122) ||
    "-_.!~*'()".toList.contains c

def encodeURIComponent (value : String) : String :=
  String.ofList (value.toList.flatMap fun c =>
    if isUnreserved c then [c]
    else (utf8 (String.singleton c)).flatMap fun byte =>
      '%' :: (Hex.digits 2 byte.toNat).map Char.toUpper)

structure Delivery where
  timestamp : Option String
  signature : Option String
  contentType : Option String
  body : Bytes

def describe : Attestation → String
  | .transfer transferId => "transfer " ++ transferId.text
  | .roomPublication room channel publication =>
      "publication " ++ room ++ "/" ++ channel ++ "/" ++ publication

def World.knows (w : World) (id : String) : Bool :=
  inheritedNames.contains id || (OrderedMap.get w.state.requests id).isSome

def newRequest (w : World) (now : ℤ) (envelope : Envelope) (attestation : Attestation)
    (publishOnchain : Bool) :
    BridgeRequest where
  ref := w.nextRef
  id := envelope.publication_id
  room := envelope.room_id
  channel := envelope.channel_id
  publisher := envelope.publisher_member_id
  receivedAt := now
  attestation := attestation
  publishOnchain := publishOnchain
  attempts := 0
  forwardedAt := none
  reply := none
  answeredAt := none

def World.store (w : World) (request : BridgeRequest) : World :=
  { w with
    state := { w.state with requests := w.state.requests.set request.id request }
    nextRef := w.nextRef + 1 }

def handleDelivery (w : World) (now : ℤ) (delivery : Delivery) :
    Except Relay.Thrown (World × Response) :=
  if ¬ verifyWebhookSignature host secrets delivery.timestamp delivery.signature
    delivery.body now then
    .ok (w, .status 401)
  else if ((delivery.contentType.getD "").toList.take 16) ≠
    "application/json".toList then .ok (w, .status 204)
  else match parseEnvelope host delivery.body with
    | none => .ok (w, .status 204)
    | some envelope => do
      match ← parseRoomRequest envelope policy host with
      | .ignore => .ok (w, .status 204)
      | .refuse reason message => .ok (w, .refused reason message)
      | .attest attestation publishOnchain =>
        let id := envelope.publication_id
        let stored := if w.knows id then w
          else w.store (newRequest w now envelope attestation publishOnchain)
        .ok (stored, .accepted ("replies/" ++ encodeURIComponent id))

structure Poll where
  timestamp : Option String
  signature : Option String
  publication : Option String
  room : Option String

def handlePoll (w : World) (now : ℤ) (id : String) (poll : Poll) : World × Response :=
  if ¬ verifyWebhookSignature host secrets poll.timestamp poll.signature [] now then
    (w, .status 401)
  else match OrderedMap.get w.state.requests id with
    | none => (w, .status 404)
    | some pending =>
      if poll.publication ≠ some pending.id ∨ poll.room ≠ some pending.room then (w, .status 404)
      else match pending.reply with
        | none => (w, .pending)
        | some reply => (w, .reply reply)

theorem handlePoll_world (w : World) (now : ℤ) (id : String) (poll : Poll) :
    (handlePoll host secrets w now id poll).1 = w := by
  unfold handlePoll
  split_ifs
  · split
    · rfl
    · split_ifs
      · rfl
      · split <;> rfl
  · rfl

/-- The call of `cre.signers`, up to where it waits. -/
def World.cachedSigners (w : World) (donId : ℕ) (refresh : Bool) (now : ℤ) : Option SignerSet :=
  match w.signerCache.get donId with
  | some (set, readAt) => if ¬ refresh ∧ now - readAt < SIGNERS_TTL_SECONDS then some set else none
  | none => none

def checkSubmission (w : World) (signed : SignedReport) : Except Response Submission :=
  let digest := viem.keccak256 signed.rawReport
  if w.state.reports.contains digest then .error .duplicate
  else match parseHeader signed.rawReport, decodeReport viem (reportBody signed.rawReport) with
    | some header, some decoded =>
      if header.workflowId ≠ answers.workflowId ∨ header.workflowOwner ≠ answers.workflowOwner then
        .error (.error 403 "unexpected_workflow")
      else .ok ⟨signed, digest, header, decoded⟩
    | _, _ => .error (.error 400 "invalid_report")

/-- `handleResult` once its body is read, up to where it first waits. -/
def handleSigned (w : World) (now : ℤ) (signed : SignedReport) : World × Option Response :=
  match checkSubmission viem answers w signed with
  | .error response => (w, some response)
  | .ok submission =>
    (w.await (.signers submission (w.cachedSigners submission.header.donId false now) false), none)

def handleResult (w : World) (now : ℤ) (submitted : Option Json) : World × Option Response :=
  match submitted.bind parseSubmission with
  | none => (w, some (.error 400 "invalid_report"))
  | some signed => handleSigned viem answers w now signed

def attestedReply (submission : Submission) (set : Option SignerSet) (accepted : List Address)
    (pending : BridgeRequest) :
    Option AttestedReply :=
  if pending.reply.isSome then none
  else (answerFor viem.hashes pending.attestation submission.decoded).map fun answer =>
    { attestation := pending.attestation
      answer := answer
      f := set.map SignerSet.f
      signers := accepted
      header := submission.header
      report := submission.signed }

def AttestedReply.fits (reply : AttestedReply) : Bool :=
    Text.utf16Length reply.write ≤ MAX_REPLY_BYTES

def answerPending (now : ℤ) (submission : Submission) (set : Option SignerSet)
    (accepted : List Address)
    (pending : BridgeRequest) : BridgeRequest :=
  match attestedReply viem submission set accepted pending with
  | none => pending
  | some attested =>
    let reply := if attested.fits then .attested attested
      else .unanswered
        pending.attestation "reply_too_large" "The signed report does not fit in a Room reply."
    { pending with reply := some reply, answeredAt := some now }

/-- The rest of `handleResult`, once the signatures are accepted. -/
def takeReport (w : World) (now : ℤ) (submission : Submission) (set : Option SignerSet)
    (accepted : List Address) :
    World × Option Response :=
  let answered := w.kept.countP fun pending =>
    (attestedReply viem submission set accepted pending).isSome
  let w := w.mapRequests (answerPending viem now submission set accepted)
  let reports := w.state.reports ++ [submission.digest]
  ({ w with
    state := { w.state with reports := reports.drop (reports.length - MAX_REMEMBERED_REPORTS) } },
    some (.taken answered))

def afterSigners (w : World) (now : ℤ) (submission : Submission) (cached : Option SignerSet)
    (refresh : Bool)
    (answer : Except Relay.Thrown SignerSet) : World × Option Response :=
  if ¬ answers.registry then takeReport viem w now submission none []
  else match cached, answer with
    | some set, _ => (w.await (.verify submission set refresh), none)
    | none, .error _ => (w, some (.error 503 "signers_unavailable"))
    | none, .ok set =>
      ({ w with
        signerCache := w.signerCache.set submission.header.donId (set, now)
        returned := w.returned ++ [(submission.header.donId, set)] }.await
          (.verify submission set refresh), none)

/-- What follows the recovery of the signatures: a set that does not verify them is read once more.
-/
def afterVerify (w : World) (now : ℤ) (submission : Submission) (set : SignerSet) (refresh : Bool) :
    World × Option Response :=
  match verifyReportSignatures viem submission.signed set with
  | some accepted => takeReport viem w now submission (some set) accepted
  | none =>
    if refresh then (w, some (.error 403 "invalid_signatures"))
    else (w.await (.signers submission (w.cachedSigners submission.header.donId true now) true),
      none)

def dropExpired (w : World) (now : ℤ) : World :=
  { w with state := { w.state with
    requests := w.state.requests.filter fun entry =>
      ¬ now - entry.2.receivedAt > RETENTION_SECONDS } }

def waited (now : ℤ) (pending : BridgeRequest) : Bool :=
  match pending.forwardedAt with
  | none => false
  | some forwardedAt => forwardedAt + answers.retrySeconds ≤ now

def timeOut (now : ℤ) (pending : BridgeRequest) : BridgeRequest :=
  if pending.reply.isNone ∧ pending.attempts ≥ answers.maxAttempts ∧ waited answers now pending then
    { pending with
      reply := some (.unanswered pending.attestation "no_finished_receipt"
        ("No DON-signed report came back after " ++ toString pending.attempts ++
          " requests: Beam reported nothing finished for it, or the workflow could not be reached."))
      answeredAt := some now }
  else pending

def World.unanswered (w : World) : List BridgeRequest :=
  (w.kept.filter fun pending => pending.reply.isNone).insertionSort fun a b =>
    a.receivedAt ≤ b.receivedAt

def World.due (w : World) (now : ℤ) : List BridgeRequest :=
  if now < w.nextRunAt then []
  else w.unanswered.filter fun pending =>
    pending.attempts < answers.maxAttempts ∧
      (pending.forwardedAt.isNone ∨ waited answers now pending)

/-- One request considered for a batch of the oldest request's `publishOnchain`. -/
def addToBatch (publishOnchain : Bool)
    (gathered : OrderedMap String Attestation × List BridgeRequest)
    (pending : BridgeRequest) : OrderedMap String Attestation × List BridgeRequest :=
  if pending.publishOnchain ≠ publishOnchain then gathered
  else
    let key := describe pending.attestation
    if (gathered.1.get key).isNone ∧ gathered.1.length = MAX_ATTESTATIONS then gathered
    else (gathered.1.set key pending.attestation, gathered.2 ++ [pending])

def pumpCre (w : World) (now : ℤ) : World :=
  let w := (dropExpired w now).mapRequests (timeOut answers now)
  match w.due answers now with
  | [] => w
  | oldest :: rest =>
    let gathered := (oldest :: rest).foldl (addToBatch oldest.publishOnchain) ([], [])
    let batch := gathered.2.map BridgeRequest.ref
    let forwarded : Forwarded := ⟨batch, gathered.1.map Prod.snd, oldest.publishOnchain⟩
    let w :=
      { w with nextRunAt := now + answers.paceSeconds, forwarded := w.forwarded ++ [forwarded] }
    w.await (.forward batch now)

/-- What follows the outcome of a forward. One that throws leaves its requests as they were. -/
def afterForward (w : World) (batch : List ℕ) (now : ℤ)
    (outcome : Except Relay.Thrown Bool) : World :=
  match outcome with
  | .error _ => w
  | .ok _ => w.mapRequests fun pending =>
    if batch.contains pending.ref then
      { pending with attempts := pending.attempts + 1, forwardedAt := some now }
    else pending

inductive Step
  | deliver (now : ℤ) (delivery : Delivery)
  | poll (now : ℤ) (id : String) (poll : Poll)
  | submit (now : ℤ) (submitted : Option Json)
  | signers (task : ℕ) (now : ℤ) (answer : Except Relay.Thrown SignerSet)
  | verified (task : ℕ) (now : ℤ)
  | pump (now : ℤ)
  | outcome (task : ℕ) (outcome : Except Relay.Thrown Bool)

/-- Any request arriving, or a waiting handler going on with the answer it waited for. -/
def step (w : World) : Step → Option World
  | .deliver now delivery =>
    match handleDelivery host secrets policy w now delivery with
    | .ok (w', _) => some w'
    | .error _ => some w
  | .poll now id poll => some (handlePoll host secrets w now id poll).1
  | .submit now submitted => some (handleResult viem answers w now submitted).1
  | .signers i now answer =>
    match w.tasks[i]? with
    | some (.signers submission cached refresh) =>
      some (afterSigners viem answers (w.drop i) now submission cached refresh answer).1
    | _ => none
  | .verified i now =>
    match w.tasks[i]? with
    | some (.verify submission set refresh) =>
        some (afterVerify viem (w.drop i) now submission set refresh).1
    | _ => none
  | .pump now => some (pumpCre answers w now)
  | .outcome i outcome =>
    match w.tasks[i]? with
    | some (.forward batch now) => some (afterForward (w.drop i) batch now outcome)
    | _ => none

end Handlers
end Beam.Bridge
