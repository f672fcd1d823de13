import BeamSdk.Relay.Receipts
import BeamSdk.Workflow.Config

/-! The receipts workflow: what it calls, and the handlers of its cron and HTTP triggers. -/

namespace Beam.Workflow
open Contract (Bytes32 Hashes)
open Relay
  (DeploymentRoutes JobSubject Observation OpenRequest PublicationLookup ReceiptLevels ReportEntry
  RoomRequestSubject RoomSubject Subject SubjectKey Thrown TransferSubject jobEntriesFor jobLookups
    normalizeRequestId
  reportEntryFor roomSubjectForLookup subjectForOpenRequest subjectKey transferIdDigits
    transferIdForRequest)

structure TransferLookup where
  baseUrl : String
  apiKey : String
  transferId : String
  deriving DecidableEq, Repr

structure RoomLookup where
  baseUrl : String
  apiKey : String
  organizationId : String
  room : String
  channel : String
  publication : String
  deriving DecidableEq, Repr

structure IdentityLookup where
  baseUrl : String
  apiKey : String
  deriving DecidableEq, Repr

structure PublicationKeyLookup where
  baseUrl : String
  apiKey : String
  organizationId : String
  room : String
  channel : String
  publisherMemberId : String
  key : String
  deriving DecidableEq, Repr

structure WriteReply where
  txStatus : String
  receiverReverted : Bool
  errorMessage : Option String
  txHash : Option (List Char)
  deriving DecidableEq, Repr

/-- What one execution calls. A report is its entries; the signatures over it are left out. -/
inductive Call
  | getNetwork (chainSelectorName : String)
  | now
  | openRequestCount (chain : ℕ) (receipts : String)
  | openRequests (chain : ℕ) (receipts : String) (offset limit : BitVec 256)
  | getSecrets (ids : List String)
  | observeTransfer (lookup : TransferLookup)
  | observeRoomReceipt (lookup : RoomLookup)
  | observeClientId (lookup : IdentityLookup)
  | observePublicationByKey (lookup : PublicationKeyLookup)
  | report (body : Contract.Report)
  | deliverReport (url : String) (body : Contract.Report)
  | writeReport (chain : ℕ) (receiver gasLimit : String) (body : Contract.Report)
  deriving DecidableEq, Repr

/-- A view that no contract answers is `none`. -/
abbrev Call.Answer : Call → Type
  | .getNetwork _ => Option ℕ
  | .now => ℤ
  | .openRequestCount _ _ => Option (BitVec 256)
  | .openRequests _ _ _ _ => Option (List OpenRequest)
  | .getSecrets _ => OrderedMap String String
  | .observeTransfer _ => Observation
  | .observeRoomReceipt _ => Observation
  | .observeClientId _ => Option String
  | .observePublicationByKey _ => PublicationLookup
  | .report _ => Unit
  | .deliverReport _ _ => ℕ
  | .writeReport _ _ _ _ => WriteReply

inductive Failure
  | tooManyLookups
  | nothingNamed
  | tooManyReceipts
  | noReplyUrl
  | invalidBody
  | noNetwork (chainSelectorName : String)
  | noContract (receipts : String)
  | writeFailed (reason : String)
  | reverted (reason : String)
  | thrown (message : Thrown)
  deriving DecidableEq, Repr

def Failure.message : Failure → String
  | .tooManyLookups => "At most " ++ toString MAX_SUBJECTS ++ " lookups per execution"
  | .nothingNamed => "The push names no transfers or rooms"
  | .tooManyReceipts => "A push names at most " ++ toString MAX_SUBJECTS ++ " receipts"
  | .noReplyUrl => "Set attestationReplyUrl to answer attestation requests"
  | .invalidBody => "Invalid input"
  | .noNetwork chainSelectorName => "Network not found: " ++ chainSelectorName
  | .noContract receipts => "No BeamTransferReceipts contract answered at " ++ receipts
  | .writeFailed reason => "Receipt write failed: " ++ reason
  | .reverted reason => "BeamTransferReceipts reverted the report: " ++ reason
  | .thrown message => message

abbrev Program := Script Call Call.Answer Failure

def io (call : Call) : Program call.Answer := Script.io call

def throwing {α : Type} (x : Except Thrown α) : Program α := .ofExcept (x.mapError .thrown)

def unique (subjects : OrderedMap SubjectKey Subject) (subject : Subject) :
    OrderedMap SubjectKey Subject :=
  match subjects.get (subjectKey subject) with
  | none => subjects.set (subjectKey subject) subject
  | some existing =>
    if existing.requestId.isNone ∧
      subject.requestId.isSome then subjects.set (subjectKey subject) subject
    else subjects

def uniqueSubjects (subjects : List Subject) : List Subject :=
  (subjects.foldl unique []).map Prod.snd

def roomRequestPublicationKey (requestId : Bytes32) : Except Thrown String := do
  .ok ("request:" ++ (← normalizeRequestId requestId))

def evmClientFor (chainSelectorName : String) : Program ℕ := do
  match ← io (.getNetwork chainSelectorName) with
  | some chain => pure chain
  | none => .fail (.noNetwork chainSelectorName)

def toUint256 (value : ℤ) : Program (BitVec 256) :=
  if 0 ≤ value ∧ value < 2 ^ 256 then pure (BitVec.ofInt 256 value)
  else .fail
    (.thrown ("Number " ++ toString value ++ " is not in safe 256-bit unsigned integer range"))

structure Receipts where
  chain : ℕ
  address : String

def readOpenRequestCount (receipts : Receipts) : Program (BitVec 256) := do
  match ← io (.openRequestCount receipts.chain receipts.address) with
  | some count => pure count
  | none => .fail (.noContract receipts.address)

def readOpenRequests (receipts : Receipts) (offset limit : ℤ) : Program (List OpenRequest) := do
  let offset ← toUint256 offset
  let limit ← toUint256 limit
  match ← io (.openRequests receipts.chain receipts.address offset limit) with
  | some page => pure page
  | none => .fail (.noContract receipts.address)

def encodeEntries (entries : List ReportEntry) : Contract.Report where
  standard := entries.filterMap fun entry =>
    match entry with | .standard entry => some entry | _ => none
  rooms := entries.filterMap fun entry => match entry with | .room entry => some entry | _ => none
  closures := entries.filterMap fun entry =>
    match entry with | .closure entry => some entry | _ => none
  jobs := entries.filterMap fun entry => match entry with | .job entry => some entry | _ => none

def hexText (digits : List Char) : String := String.ofList ('0' :: 'x' :: digits)

def writeReceiptReport (config : Config) (body : Contract.Report) : Program String := do
  let () ← io (.report body)
  let chain ← evmClientFor config.evm.chainSelectorName
  let reply ← io (.writeReport chain config.evm.receiptsAddress config.evm.gasLimit body)
  if reply.txStatus ≠ "SUCCESS" then .fail (.writeFailed (reply.errorMessage.getD reply.txStatus))
  else if reply.receiverReverted then .fail (.reverted (reply.errorMessage.getD "no reason given"))
  else pure (hexText (reply.txHash.getD (List.replicate 64 '0')))

structure Credentials where
  apiKey : String
  organizationId : String

def API_KEY_SECRET : String := "BEAM_API_KEY"
def ORG_ID_SECRET : String := "BEAM_ORG_ID"

def secretOf (secrets : OrderedMap String String) (id : String) : Program String :=
  match secrets.get id with
  | some value => pure value
  | none => .fail (.thrown "undefined is not an object")

def credentialsFor (needsRoom : Bool) : Program Credentials := do
  let secrets ← io
    (.getSecrets (if needsRoom then [API_KEY_SECRET, ORG_ID_SECRET] else [API_KEY_SECRET]))
  let apiKey ← secretOf secrets API_KEY_SECRET
  let organizationId ← (if needsRoom then secretOf secrets ORG_ID_SECRET else pure "")
  pure ⟨apiKey, organizationId⟩

section Beam
variable (H : Hashes) (config : Config) (credentials : Credentials)

def confirmClientId : Program Bool := do
  let userId ← io (.observeClientId ⟨config.beamApiBaseUrl, credentials.apiKey⟩)
  pure (userId == some config.beamClientId)

def observeSubject : Subject → Program Observation
  | .transfer subject =>
      io (.observeTransfer ⟨config.beamApiBaseUrl, credentials.apiKey, subject.transferId⟩)
  | .room subject =>
      io (.observeRoomReceipt ⟨config.roomApiBaseUrl, credentials.apiKey,
        credentials.organizationId,
      subject.room, subject.channel, subject.publication⟩)
  | .roomRequest _ | .job _ => .fail (.thrown "undefined is not a string")

def lookUp (lookup : RoomRequestSubject) : Program PublicationLookup := do
  let key ← throwing (roomRequestPublicationKey lookup.requestId)
  io (.observePublicationByKey ⟨config.roomApiBaseUrl, credentials.apiKey,
    credentials.organizationId, lookup.room,
    lookup.channel, lookup.publisherMemberId, key⟩)

/-- `receiptLevels(true)`: every receipt of a workflow is attested by its DON. -/
def LEVELS : ReceiptLevels :=
  ⟨Contract.LEVEL_BEAM_REPORTED ||| Contract.LEVEL_DON_ATTESTED,
    Contract.LEVEL_BEAM_REPORTED ||| Contract.LEVEL_DON_ATTESTED,
    Contract.LEVEL_BEAM_REPORTED ||| Contract.LEVEL_TARGET_SIGNED ||| Contract.LEVEL_DON_ATTESTED⟩

/-- Looks a transfer or a Room publication up, and adds what it says to the entries. -/
def recordObserved (entries : List ReportEntry) (subject : Subject) :
    Program (List ReportEntry) := do
  let observation ← observeSubject config credentials subject
  let entry ← throwing (reportEntryFor H subject observation LEVELS)
  pure (entries ++ entry.toList)

def recordJob (entries : List ReportEntry) (subject : JobSubject) : Program (List ReportEntry) := do
  let lookups := jobLookups subject
  let input ← lookUp config credentials lookups.1
  match input with
  | .found inputPublication => do
    match ← lookUp config credentials lookups.2 with
    | .found outputPublication => do
      let inputObservation ← observeSubject config credentials
        (.room ⟨subject.room, subject.inputChannel, inputPublication, none⟩)
      let outputObservation ← observeSubject config credentials
        (.room ⟨subject.room, subject.outputChannel, outputPublication, none⟩)
      let jobEntries ← throwing
        (jobEntriesFor H subject inputPublication outputPublication inputObservation
          outputObservation LEVELS)
      pure (entries ++ jobEntries.getD [])
    | _ => pure entries
  | _ => pure entries

def recordRoomRequest (entries : List ReportEntry) (subject : RoomRequestSubject) :
    Program (List ReportEntry) := do
  let lookup ← lookUp config credentials subject
  match roomSubjectForLookup subject lookup with
  | some found => recordObserved H config credentials entries (.room found)
  | none => pure entries

def recordSubject (clientIdConfirmed : Bool) (entries : List ReportEntry) : Subject →
    Program (List ReportEntry)
  | .job subject => recordJob H config credentials entries subject
  | .roomRequest subject => recordRoomRequest H config credentials entries subject
  | .transfer subject =>
    if subject.requestId.isSome && !clientIdConfirmed then pure entries
    else recordObserved H config credentials entries (.transfer subject)
  | .room subject => recordObserved H config credentials entries (.room subject)

end Beam

section Handlers
variable (H : Hashes) (config : Config)

def isTransfer : Subject → Bool
  | .transfer _ => true
  | _ => false

/-- `derivesIds`: a transfer whose id was derived from a request id. -/
def derivesIds : Subject → Bool
  | .transfer subject => subject.requestId.isSome
  | _ => false

def countOf (entries : List ReportEntry) (kind : ReportEntry → Bool) : String :=
    toString (entries.countP kind)

def isReceipt : ReportEntry → Bool
  | .standard _ | .room _ => true
  | _ => false

def isJob : ReportEntry → Bool
  | .job _ => true
  | _ => false

def isClosure : ReportEntry → Bool
  | .closure _ => true
  | _ => false

def recordReceipts (requested : List Subject) (source : String) : Program String := do
  let subjects := uniqueSubjects requested
  if (subjects.map subjectCost).sum > MAX_SUBJECTS then .fail .tooManyLookups
  else do
    let credentials ← credentialsFor (subjects.any fun subject => !isTransfer subject)
    let clientIdConfirmed ← (if subjects.any derivesIds then confirmClientId config credentials
      else pure false)
    let entries ← subjects.foldlM (recordSubject H config credentials clientIdConfirmed) []
    let checked := source ++ ": checked " ++ toString subjects.length
    if entries = [] then pure (checked ++ ", nothing finished yet")
    else do
      let txHash ← writeReceiptReport config (encodeEntries entries)
      pure (checked ++ ", reported " ++ countOf entries isReceipt ++ " receipts, " ++
        countOf entries isJob ++
        " jobs and " ++ countOf entries isClosure ++ " closures in " ++ txHash)

/-- The slot of the schedule, as `BigInt` divides. -/
def slotOf (scheduledSeconds : ℤ) : ℤ :=
    scheduledSeconds.tdiv (config.reconcileIntervalMinutes * 60)

def readWindow (receipts : Receipts) (total : BitVec 256) (scheduledSeconds : ℤ) :
    Program (List OpenRequest) := do
  let batch := config.reconcileBatchSize
  let size := if total.toNat < batch then total.toNat else batch
  let start := (slotOf config scheduledSeconds * batch).tmod total.toNat
  let page ← readOpenRequests receipts start size
  if page.length < size then do
    let wrapped ← readOpenRequests receipts 0 (size - page.length)
    pure (page ++ wrapped)
  else pure page

/-- `scheduledExecutionTime`, or else the seconds of `runtime.now()`. -/
def scheduledSecondsOf : Option ℤ → Program ℤ
  | some scheduledSeconds => pure scheduledSeconds
  | none => do
    let now ← io .now
    pure (now / 1000)

def onReconcile (scheduledExecutionTime : Option ℤ) : Program String := do
  let chain ← evmClientFor config.evm.chainSelectorName
  let receipts : Receipts := ⟨chain, config.evm.receiptsAddress⟩
  let total ← readOpenRequestCount receipts
  if total = 0 then pure "reconcile: no open requests"
  else do
    let scheduledSeconds ← scheduledSecondsOf scheduledExecutionTime
    let page ← readWindow config receipts total scheduledSeconds
    let subjects ← throwing (page.mapM (subjectForOpenRequest H config.beamClientId config.routes))
    recordReceipts H config (subjects.filterMap id) "reconcile"

def requestIdOf (requestId : String) : Except Thrown Bytes32 :=
  match Relay.lower requestId with
  | '0' :: 'x' :: digits =>
    if digits.length = 64 ∧ digits.all Hex.isDigit ∧
      Hex.read digits ≠ 0 then .ok (BitVec.ofNat 256 (Hex.read digits))
    else .error ("Invalid request id: " ++ requestId)
  | _ => .error ("Invalid request id: " ++ requestId)

def normalizeTransferId (transferId : String) : Except Thrown String := do
  let _ ← transferIdDigits transferId
  .ok (String.ofList (Relay.lower transferId))

inductive PushedTransfer
  | requestId (requestId : String)
  | transferId (transferId : String)

structure PushedRoom where
  room : String
  channel : String
  publication : String
  requestId : Option String

def pushedTransfer (value : Json) : Option PushedTransfer :=
  match strict ["requestId"] (some value) with
  | some members => (Json.text (OrderedMap.get members "requestId")).map .requestId
  | none => do
    let members ← strict ["transferId"] (some value)
    let transferId ← Json.text (OrderedMap.get members "transferId")
    some (.transferId transferId)

def optionalText : Option Json → Option (Option String)
  | none => some none
  | value => (Json.text value).map some

def pushedRoom (value : Json) : Option PushedRoom := do
  let members ← strict ["room", "channel", "publication", "requestId"] (some value)
  some ⟨← roomId (OrderedMap.get members "room"), ← roomId (OrderedMap.get members "channel"),
    ← roomId (OrderedMap.get members "publication"),
      ← optionalText (OrderedMap.get members "requestId")⟩

def arrayOf {α : Type} (read : Json → Option α) : Option Json → Option (List α)
  | none => some []
  | some (.array items) => items.mapM read
  | _ => none

def pushSchema (body : Json) : Option (List PushedTransfer × List PushedRoom) := do
  let members ← strict ["transfers", "rooms"] (some body)
  some (← arrayOf pushedTransfer (OrderedMap.get members "transfers"),
    ← arrayOf pushedRoom (OrderedMap.get members "rooms"))

def transferSubjectOf : PushedTransfer → Except Thrown Subject
  | .requestId text => do
    let requestId ← requestIdOf text
    let transferId ← transferIdForRequest H config.beamClientId requestId
    .ok (.transfer ⟨transferId, some requestId⟩)
  | .transferId text => do
    let transferId ← normalizeTransferId text
    .ok (.transfer ⟨transferId, none⟩)

def roomSubjectOf (pushed : PushedRoom) : Except Thrown Subject := do
  let requestId ← pushed.requestId.mapM requestIdOf
  .ok (.room ⟨pushed.room, pushed.channel, pushed.publication, requestId⟩)

def pushedSubjects (push : List PushedTransfer × List PushedRoom) :
    Except Thrown (List Subject) := do
  let transfers ← push.1.mapM (transferSubjectOf H config)
  let rooms ← push.2.mapM roomSubjectOf
  .ok (transfers ++ rooms)

inductive Attestation
  | attest_transfer (transferId : String)
  | attest_room_publication (room channel publication : String)

structure AttestationRequest where
  attest : List Attestation
  publishOnchain : Bool

def MAX_ATTESTATIONS : ℕ := 7

def attestation (value : Json) : Option Attestation := do
  let op ← Json.text (value.member "op")
  if op = "attest_transfer" then do
    let members ← strict ["op", "transferId"] (some value)
    let transferId ← Json.text (OrderedMap.get members "transferId")
    some (.attest_transfer transferId)
  else if op = "attest_room_publication" then do
    let members ← strict ["op", "room", "channel", "publication"] (some value)
    some (.attest_room_publication (← roomId (OrderedMap.get members "room"))
      (← roomId (OrderedMap.get members "channel"))
      (← roomId (OrderedMap.get members "publication")))
  else none

def flag : Option Json → Option Bool
  | none => some false
  | some (.bool value) => some value
  | _ => none

def attestSchema (body : Json) : Option AttestationRequest := do
  let members ← strict ["attest", "publishOnchain"] (some body)
  match OrderedMap.get members "attest" with
  | some (.array items) => do
    let attest ← items.mapM attestation
    let publishOnchain ← flag (OrderedMap.get members "publishOnchain")
    if 1 ≤ attest.length ∧ attest.length ≤ MAX_ATTESTATIONS then
      some ⟨attest, publishOnchain⟩ else none
  | _ => none

def attestationSubject : Attestation → Except Thrown Subject
  | .attest_transfer transferId => do
    let transferId ← normalizeTransferId transferId
    .ok (.transfer ⟨transferId, none⟩)
  | .attest_room_publication room channel publication =>
      .ok (.room ⟨room, channel, publication, none⟩)

structure Answered where
  answered : List ReportEntry
  delivered : ℕ

def answerSubject (credentials : Credentials) (replyUrl : String) (sofar : Answered)
    (subject : Subject) :
    Program Answered := do
  let observation ← observeSubject config credentials subject
  match ← throwing (reportEntryFor H subject observation LEVELS) with
  | none => pure sofar
  | some entry => do
    let body := encodeEntries [entry]
    let () ← io (.report body)
    let status ← io (.deliverReport replyUrl body)
    pure ⟨sofar.answered ++ [entry], if 200 ≤ status ∧ status < 300 then sofar.delivered + 1
      else sofar.delivered⟩

def answerAttestations (request : AttestationRequest) : Program String := do
  match config.attestationReplyUrl with
  | none => .fail .noReplyUrl
  | some replyUrl => do
    let attested ← throwing (request.attest.mapM attestationSubject)
    let subjects := uniqueSubjects attested
    let credentials ← credentialsFor (subjects.any fun subject => !isTransfer subject)
    let result ← subjects.foldlM (answerSubject H config credentials replyUrl) ⟨[], 0⟩
    let summary := "attest: checked " ++ toString subjects.length ++ ", delivered " ++
      toString result.delivered ++
      " of " ++ toString result.answered.length ++ " reports"
    if !request.publishOnchain || result.answered = [] then pure summary
    else do
      let txHash ← writeReceiptReport config (encodeEntries result.answered)
      pure (summary ++ ", recorded onchain in " ++ txHash)

def parsed {α : Type} (body : Option α) : Program α :=
  match body with
  | some body => pure body
  | none => .fail .invalidBody

def onReceiptPush (body : Json) : Program String := do
  if (body.member "attest").isSome then do
    let request ← parsed (attestSchema body)
    answerAttestations H config request
  else do
    let push ← parsed (pushSchema body)
    let subjects ← throwing (pushedSubjects H config push)
    if subjects = [] then .fail .nothingNamed
    else if subjects.length > MAX_SUBJECTS then .fail .tooManyReceipts
    else recordReceipts H config subjects "push"

end Handlers
end Beam.Workflow
