import BeamSdk.Library.Hex
import BeamSdk.Library.Result
import BeamSdk.Relay.Interface

/-! Transfer ids, and the receipt logic the relay shares with the workflow: what an open request
asks for, and what an observation of it adds to a report. -/

namespace Beam.Relay
open Contract (Address Bytes Bytes16 Bytes32 Hashes RequestKind TransferKind)

def uuidGroups : List ℕ := [8, 4, 4, 4, 12]

def lower (text : String) : List Char := text.toList.map Char.toLower

/-- `normalizeTransferId`, giving the digits of the id. -/
def transferIdDigits (transferId : String) : Except Thrown (List Char) :=
  match Hex.split uuidGroups (lower transferId) with
  | some digits => .ok digits
  | none => .error ("Invalid transfer id: " ++ transferId)

def transferIdToBytes16 (transferId : String) : Except Thrown Bytes16 := do
  let digits ← transferIdDigits transferId
  .ok (BitVec.ofNat 128 (Hex.read digits))

/-- Every `bytes16` passes the pattern the source checks first. -/
def bytes16ToTransferId (value : Bytes16) : String :=
  String.ofList (Hex.join uuidGroups (Hex.digits 32 value.toNat))

theorem lower_bytes16ToTransferId (value : Bytes16) :
    lower (bytes16ToTransferId value) = Hex.join uuidGroups (Hex.digits 32 value.toNat) := by
  have hlower : ∀ c ∈ Hex.join uuidGroups (Hex.digits 32 value.toNat), c.toLower = id c := by
    intro c hc
    rcases Hex.mem_join hc with rfl | hc
    · decide
    · obtain ⟨d, hd, rfl⟩ := Hex.mem_digits hc
      exact Hex.toLower_digit d hd
  rw [lower, bytes16ToTransferId, String.toList_ofList, List.map_congr_left hlower, List.map_id]

theorem transferIdToBytes16_bytes16ToTransferId (value : Bytes16) :
    transferIdToBytes16 (bytes16ToTransferId value) = .ok value := by
  have hsplit : Hex.split uuidGroups (lower (bytes16ToTransferId value)) =
      some (Hex.digits 32 value.toNat) := by
    rw [lower_bytes16ToTransferId]
    apply Hex.split_join (by decide)
    · rw [Hex.length_digits]
      rfl
    · exact Hex.all_isDigit_digits 32 _
  have hread : Hex.read (Hex.digits 32 value.toNat) = value.toNat := by
    rw [Hex.read_digits]
    exact Nat.mod_eq_of_lt value.isLt
  rw [transferIdToBytes16, transferIdDigits, hsplit]
  show Except.ok (BitVec.ofNat 128 (Hex.read (Hex.digits 32 value.toNat))) = _
  rw [hread, BitVec.ofNat_toNat, BitVec.setWidth_eq]

theorem bytes16ToTransferId_injective : Function.Injective bytes16ToTransferId := by
  intro a b h
  have hab := congrArg transferIdToBytes16 h
  rw [transferIdToBytes16_bytes16ToTransferId, transferIdToBytes16_bytes16ToTransferId] at hab
  exact Except.ok.inj hab

def utf8 (text : String) : Bytes := text.toUTF8.data.toList

def isSpace (c : Char) : Bool :=
  (9 ≤ c.toNat && c.toNat ≤ 13) || (0x2000 ≤ c.toNat && c.toNat ≤ 0x200a) ||
    [0x20, 0xa0, 0x1680, 0x2028, 0x2029, 0x202f, 0x205f, 0x3000, 0xfeff].contains c.toNat

def trim (text : String) : String :=
  String.ofList ((text.toList.dropWhile isSpace).reverse.dropWhile isSpace).reverse

/-- The version nibble and the variant bits of a UUID, set in the first 16 bytes of a digest. -/
def uuidOfDigest (digest : Bytes32) : Bytes16 :=
  let bytes := digest.extractLsb' 128 128
  let bytes := (bytes &&& ~~~((0xf0 : Bytes16) <<< 72)) ||| ((0x50 : Bytes16) <<< 72)
  (bytes &&& ~~~((0xc0 : Bytes16) <<< 56)) ||| ((0x80 : Bytes16) <<< 56)

/-- `normalizeRequestId`: every `bytes32` but zero passes, as lowercase hex. -/
def normalizeRequestId (requestId : Bytes32) : Except Thrown String :=
  let text := String.ofList ('0' :: 'x' :: Hex.digits 64 requestId.toNat)
  if requestId = 0 then .error ("Invalid request id: " ++ text) else .ok text

section Lookups
variable (H : Hashes)

def transferIdForIdempotencyKey (clientId idempotencyKey : String) : Except Thrown String :=
  let key := trim idempotencyKey
  if clientId = "" ∨ key = "" then
    .error "A client id and an idempotency key are required to derive a transfer id"
  else
    .ok (bytes16ToTransferId
      (uuidOfDigest (H.sha256 (utf8 ("beam-transfer:" ++ clientId ++ ":" ++ key)))))

def transferIdForRequest (clientId : String) (requestId : Bytes32) : Except Thrown String := do
  transferIdForIdempotencyKey H clientId (← normalizeRequestId requestId)

/-- What a `subjectKey` text is made of; the text tells two of them apart whenever they differ. -/
inductive SubjectKey
  | transfer (transferId : String)
  | room (room channel publication : String)
  | roomRequest (requestId : Bytes32)
  | job (requestId : Bytes32)
  deriving DecidableEq, Repr

def subjectKey : Subject → SubjectKey
  | .transfer subject => .transfer subject.transferId
  | .room subject => .room subject.room subject.channel subject.publication
  | .roomRequest subject => .roomRequest subject.requestId
  | .job subject => .job subject.requestId

def Subject.requestId : Subject → Option Bytes32
  | .transfer subject => subject.requestId
  | .room subject => subject.requestId
  | .roomRequest subject => some subject.requestId
  | .job subject => some subject.requestId

def subjectForOpenRequest (clientId : String) (routes : DeploymentRoutes) (request : OpenRequest) :
    Except Thrown (Option Subject) :=
  if request.kind = RequestKind.transfer.code then
    if request.transferKind = TransferKind.roomDelivery.code then
      .ok (routes.roomDelivery.map fun route =>
        .roomRequest ⟨route.room, route.channel, route.publisherMemberId, request.requestId⟩)
    else if request.transferKind = TransferKind.job.code then
      match routes.roomDelivery, routes.jobOutput with
      | some delivery, some output =>
        .ok (some
          (.job ⟨delivery.room, delivery.channel, delivery.publisherMemberId, output.channel,
          output.computeMemberId, request.requestId⟩))
      | _, _ => .ok none
    else if request.transferKind ≠ TransferKind.standard.code then .ok none
    else do
      let transferId ← transferIdForRequest H clientId request.requestId
      .ok (some (.transfer ⟨transferId, some request.requestId⟩))
  else if request.kind = RequestKind.receipt.code then
    .ok (some (.transfer ⟨bytes16ToTransferId request.transferId, none⟩))
  else .ok (some (.room ⟨request.room, request.channel, request.publication, none⟩))

def roomSubjectForLookup (subject : RoomRequestSubject) : PublicationLookup → Option RoomSubject
  | .found publicationId =>
      some ⟨subject.room, subject.channel, publicationId, some subject.requestId⟩
  | _ => none

inductive ReportEntry
  | standard (entry : Contract.StandardReceiptReport)
  | room (entry : Contract.RoomReceiptReport)
  | closure (entry : Contract.RequestClosure)
  | job (entry : Contract.JobResultReport)
  deriving DecidableEq, Repr

def roomReceiptKey (room channel publication : String) : Bytes32 :=
  Contract.roomReceiptKey H (utf8 room) (utf8 channel) (utf8 publication)

def reportEntryFor (subject : Subject) (observation : Observation) (levels : ReceiptLevels) :
    Except Thrown (Option ReportEntry) :=
  match subject, observation with
  | .transfer subject, .transfer status totalBytes bytesTransferred completedAtMs planFingerprint
      coordinateChecksum => do
    let transferId ← transferIdToBytes16 subject.transferId
    .ok (some
      (.standard ⟨transferId, subject.requestId.getD 0, status, totalBytes, bytesTransferred,
      completedAtMs, planFingerprint, coordinateChecksum, levels.standard⟩))
  | .room subject, .room status fileSizeBytes manifestSha256 targetCount targetSigned evidenceSha256
      assignmentsSha256 evidenceVersion =>
    .ok (some (.room ⟨utf8 subject.room, utf8 subject.channel, utf8 subject.publication,
      subject.requestId.getD 0, status, fileSizeBytes, manifestSha256, targetCount, evidenceSha256,
      assignmentsSha256, evidenceVersion, if targetSigned then levels.roomSigned else levels.room⟩))
  | .room subject, .notRoom transferId => do
    let transferId ← if transferId = "" then .ok 0 else transferIdToBytes16 transferId
    .ok (some
      (.closure
        ⟨Contract.roomRequestKey H
        (roomReceiptKey H subject.room subject.channel subject.publication),
      Contract.CLOSURE_BUCKET_ONLY_PUBLICATION, transferId⟩))
  | _, _ => .ok none

def NamesRoom (room channel publication : String) (entry : Contract.RoomReceiptReport) : Prop :=
  entry.room = utf8 room ∧ entry.channel = utf8 channel ∧ entry.publication = utf8 publication

def EntryOf : Subject → ReportEntry → Prop
  | .transfer subject, .standard entry =>
      transferIdToBytes16 subject.transferId = .ok entry.transferId
  | .room subject, .room entry => NamesRoom subject.room subject.channel subject.publication entry
  | .room _, .closure _ => True
  | _, _ => False

variable {H} in
theorem reportEntryFor_entryOf {subject : Subject} {observation : Observation}
    {levels : ReceiptLevels}
    {entry : ReportEntry} (h : reportEntryFor H subject observation levels = .ok (some entry)) :
    EntryOf subject entry := by
  unfold reportEntryFor at h
  split at h
  · obtain ⟨transferId, hid, hentry⟩ := bind_eq_ok.mp h
    cases hentry
    exact hid
  · cases h
    exact ⟨rfl, rfl, rfl⟩
  · split_ifs at h
    all_goals
      obtain ⟨transferId, hid, hentry⟩ := bind_eq_ok.mp h
      cases hentry
      trivial
  · cases h

/-- The two publication lookups of a job: its input by the source, its output by the compute
member. -/
def jobLookups (subject : JobSubject) : RoomRequestSubject × RoomRequestSubject :=
  (⟨subject.room, subject.inputChannel, subject.sourceMemberId, subject.requestId⟩,
    ⟨subject.room, subject.outputChannel, subject.computeMemberId, subject.requestId⟩)

def jobEntriesFor (subject : JobSubject) (inputPublication outputPublication : String)
    (inputObservation outputObservation : Observation) (levels : ReceiptLevels) :
    Except Thrown (Option (List ReportEntry)) := do
  let inputEntry ← reportEntryFor H
    (.room ⟨subject.room, subject.inputChannel, inputPublication, none⟩)
    inputObservation levels
  let outputEntry ← reportEntryFor H
    (.room ⟨subject.room, subject.outputChannel, outputPublication, none⟩)
    outputObservation levels
  match inputEntry, outputEntry with
  | some (.room input), some (.room output) =>
    .ok (some [.room input, .room output, .job ⟨subject.requestId,
      roomReceiptKey H subject.room subject.inputChannel inputPublication,
      roomReceiptKey H subject.room subject.outputChannel outputPublication,
        utf8 subject.computeMemberId⟩])
  | _, _ => .ok none

def chargeSubjectOf : ReportEntry → Option ChargeSubject
  | .standard entry => some (.transfer (bytes16ToTransferId entry.transferId))
  | .room entry =>
      some (.room (Contract.roomReceiptKey H entry.room entry.channel entry.publication))
  | .closure _ | .job _ => none

end Lookups

end Beam.Relay
