import BeamSdk.Contract.Requests

/-! What a report writes: `_processReport` and the functions it calls. -/

namespace Beam.Contract

/-- The receipt an entry records, answering `requestId` or none when that is zero. -/
def StandardReceiptReport.receipt (entry : StandardReceiptReport) (requestId : Bytes32) :
    StandardReceipt where
  requestId := requestId
  planFingerprint := entry.planFingerprint
  coordinateChecksum := entry.coordinateChecksum
  totalBytes := entry.totalBytes
  bytesTransferred := entry.bytesTransferred
  completedAtMs := entry.completedAtMs
  status := Status.ofCode entry.status
  level := entry.level

def RoomReceiptReport.receipt (entry : RoomReceiptReport) : RoomReceipt where
  manifestSha256 := entry.manifestSha256
  evidenceSha256 := entry.evidenceSha256
  assignmentsSha256 := entry.assignmentsSha256
  fileSizeBytes := entry.fileSizeBytes
  targetCount := entry.targetCount
  evidenceVersion := entry.evidenceVersion
  status := Status.ofCode entry.status
  level := entry.level

def JobResultReport.result (entry : JobResultReport) (input output : RoomReceipt) : JobResult where
  inputRoomKey := entry.inputRoomKey
  outputRoomKey := entry.outputRoomKey
  inputManifestSha256 := input.manifestSha256
  outputManifestSha256 := output.manifestSha256
  computeMember := entry.computeMember
  status := if input.status = .completed then output.status else input.status
  level := input.level &&& output.level

namespace State
variable (s : State)

def putReceipt (transferId : Bytes16) (receipt : StandardReceipt) : State :=
  { s with receipts := Function.update s.receipts transferId receipt }

def bindTransfer (requestId : Bytes32) (transferId : Bytes16) : State :=
  { s with
    transferIdForRequest := Function.update s.transferIdForRequest requestId transferId }.emit
    (.requestAnswered requestId transferId)

def putRoomReceipt (roomKey : Bytes32) (receipt : RoomReceipt) : State :=
  { s with roomReceipts := Function.update s.roomReceipts roomKey receipt }

def bindRoom (requestId roomKey : Bytes32) : State :=
  { s with roomKeyForRequest := Function.update s.roomKeyForRequest requestId roomKey }.emit
    (.roomRequestAnswered requestId roomKey)

def putJob (requestId : Bytes32) (job : JobResult) : State :=
  { s with jobs := Function.update s.jobs requestId job }.emit
    (.jobRecorded requestId job.inputRoomKey job.outputRoomKey job.computeMember
      job.status job.level)

end State

variable (H : Hashes)

/-- `_answerRequest`: whether `requestId` may be bound, with its open request closed if so. -/
def answerRequest (s : State) (requestId : Bytes32) (kind : TransferKind) :
    Except Revert (Bool × State) :=
  if requestId = 0 ∨ s.isAnswered requestId then .ok (false, s)
  else
    let key := transferRequestKey H requestId
    if s.openPosition key ≠ 0 ∧ (s.openRequests key).transferKind ≠ kind then .ok (false, s)
    else do
      let s ← closeKey s key
      .ok (true, s)

/-- The rest of `_recordReceipt`, once the entry's request id is answered or not. -/
def storeReceipt (s : State) (entry : StandardReceiptReport) (answers : Bool) :
    Except Revert State :=
  let receipt := s.receipts entry.transferId
  if receipt.status ≠ .none then
    .ok (if answers ∧ receipt.requestId = 0 then
      s.putReceipt entry.transferId { receipt with requestId := entry.requestId } else s)
  else do
    let receipt := entry.receipt (if answers then entry.requestId else 0)
    let s ← closeKey (s.putReceipt entry.transferId receipt) (receiptRequestKey H entry.transferId)
    .ok (s.emit (.receiptRecorded entry.transferId receipt.requestId receipt.status entry.totalBytes
      entry.bytesTransferred entry.level))

def recordReceipt (s : State) (entry : StandardReceiptReport) : Except Revert State :=
  if entry.transferId = 0 then .error .invalidTransferId
  else if entry.status = Status.none.code ∨ entry.status > Status.cancelled.code then
    .error (.invalidStatus entry.status)
  else if entry.level ≠ s.standardReceiptLevel then .error (.invalidLevel entry.level)
  else do
    let (answers, s) ← answerRequest H s entry.requestId .standard
    storeReceipt H (if answers then s.bindTransfer entry.requestId entry.transferId else s)
      entry answers

def storeRoomReceipt (s : State) (entry : RoomReceiptReport) (roomKey : Bytes32) (answers : Bool) :
    Except Revert State :=
  if (s.roomReceipts roomKey).status ≠ .none then .ok s
  else do
    let s ← closeKey (s.putRoomReceipt roomKey entry.receipt) (roomRequestKey H roomKey)
    .ok (s.emit (.roomReceiptRecorded roomKey (if answers then entry.requestId else 0) entry.room
      entry.channel entry.publication (Status.ofCode entry.status) entry.fileSizeBytes
      entry.evidenceSha256 entry.level))

def recordRoomReceipt (s : State) (entry : RoomReceiptReport) : Except Revert State :=
  if entry.status = Status.none.code ∨ entry.status > Status.partially.code then
    .error (.invalidStatus entry.status)
  else if entry.level ≠ s.roomReceiptLevel ∧
      (entry.level ≠ s.roomSignedReceiptLevel ∨ entry.targetCount = 0) then
    .error (.invalidLevel entry.level)
  else if entry.evidenceVersion = 0 ∨ entry.evidenceSha256 = 0 then .error .invalidEvidence
  else do
    let roomKey := roomReceiptKey H entry.room entry.channel entry.publication
    let (answers, s) ← answerRequest H s entry.requestId .roomDelivery
    storeRoomReceipt H (if answers then s.bindRoom entry.requestId roomKey else s)
      entry roomKey answers

def recordJob (s : State) (entry : JobResultReport) : Except Revert State :=
  let memberLength := entry.computeMember.length
  if entry.requestId = 0 ∨ entry.inputRoomKey = entry.outputRoomKey ∨ memberLength = 0 ∨
      memberLength > MAX_ROOM_ID_BYTES then
    .error .invalidJob
  else
    let input := s.roomReceipts entry.inputRoomKey
    let output := s.roomReceipts entry.outputRoomKey
    if input.status = .none then .error (.missingRoomReceipt entry.inputRoomKey)
    else if output.status = .none then .error (.missingRoomReceipt entry.outputRoomKey)
    else do
      let (answers, s) ← answerRequest H s entry.requestId .job
      .ok (if answers then s.putJob entry.requestId (entry.result input output) else s)

def closeRequest (s : State) (closure : RequestClosure) : Except Revert State :=
  if closure.key = 0 then .error .invalidRequestKey
  else if closure.reason ≠ CLOSURE_BUCKET_ONLY_PUBLICATION then
    .error (.invalidClosureReason closure.reason)
  else if s.openPosition closure.key = 0 ∨
    (s.openRequests closure.key).kind ≠ .roomReceipt then .ok s
  else do
    let s ← closeKey s closure.key
    .ok (s.emit (.requestClosed closure.key closure.reason closure.transferId))

/-- The four loops of `_processReport`, over a decoded report. -/
def processEntries (s : State) (report : Report) : Except Revert State := do
  let s ← report.standard.foldlM (recordReceipt H) s
  let s ← report.rooms.foldlM (recordRoomReceipt H) s
  let s ← report.closures.foldlM closeRequest s
  report.jobs.foldlM (recordJob H) s

def processReport (s : State) (report : EncodedReport) : Except Revert State :=
  match report.version with
  | none => .error .panic
  | some version =>
    if version ≠ REPORT_VERSION then .error (.unsupportedReportVersion version)
    else match report.body with
      | none => .error .panic
      | some body => processEntries H s body

end Beam.Contract
