import Mathlib.Data.Rat.Floor
import BeamSdk.Contract.Reports
import BeamSdk.Library.OrderedMap
import BeamSdk.Library.Script

/-! The relay's data, and everything it does outside its own logic: the chain, Studio, Beam, the
website's charges, the cursor files and the memory it keeps between passes. -/

namespace Beam.Relay
open Contract (Address Bytes16 Bytes32)

abbrev Thrown := String

abbrev Timestamp := ℚ

/-- `Date.parse`: whole milliseconds, the rest cut off. -/
def dateParse (t : Timestamp) : ℤ := ⌊t⌋

structure TransferRequestLog where
  requestId : Bytes32
  requester : Address
  kind : UInt8
  input : String
  blockNumber : ℕ
  logIndex : ℕ
  transactionHash : Bytes32
  deriving DecidableEq, Repr

inductive Workflow
  | transfer | room
  deriving DecidableEq, Repr

inductive StudioOutcome
  | accepted (runId : Option String)
  | refused (status : ℕ) (reason : Option String)
  | unavailable (status : ℕ)
  deriving DecidableEq, Repr

/-- `BeamTransferReceipts.OpenRequest`, as `openRequests` returns it. -/
structure OpenRequest where
  key : Bytes32
  kind : UInt8
  transferKind : UInt8
  requester : Address
  openedAt : UInt64
  requestId : Bytes32
  transferId : Bytes16
  room : String
  channel : String
  publication : String
  deriving DecidableEq, Repr

structure TransferSubject where
  transferId : String
  requestId : Option Bytes32
  deriving DecidableEq, Repr

structure RoomSubject where
  room : String
  channel : String
  publication : String
  requestId : Option Bytes32
  deriving DecidableEq, Repr

structure RoomRequestSubject where
  room : String
  channel : String
  publisherMemberId : String
  requestId : Bytes32
  deriving DecidableEq, Repr

structure JobSubject where
  room : String
  inputChannel : String
  sourceMemberId : String
  outputChannel : String
  computeMemberId : String
  requestId : Bytes32
  deriving DecidableEq, Repr

inductive Subject
  | transfer (subject : TransferSubject)
  | room (subject : RoomSubject)
  | roomRequest (subject : RoomRequestSubject)
  | job (subject : JobSubject)
  deriving DecidableEq, Repr

inductive Observation
  | unavailable
  | absent
  | pending
  | error (httpStatus : ℕ)
  | invalid (reason : String)
  | notRoom (transferId : String)
  | transfer (status : UInt8) (totalBytes bytesTransferred completedAtMs : UInt64)
      (planFingerprint coordinateChecksum : Bytes32)
  | room (status : UInt8) (fileSizeBytes : UInt64) (manifestSha256 : Bytes32) (targetCount : UInt32)
      (targetSigned : Bool) (evidenceSha256 assignmentsSha256 : Bytes32) (evidenceVersion : UInt16)
  deriving DecidableEq, Repr

inductive PublicationLookup
  | found (publicationId : String)
  | absent
  | error (httpStatus : ℕ)
  | invalid (reason : String)
  | unavailable
  deriving DecidableEq, Repr

structure Reader where
  apiKey : String
  organizationId : String
  deriving DecidableEq, Repr

inductive Via
  | everyTransfer (transferCreatedAt : Timestamp)
  | requester (address : Address)
  deriving DecidableEq

inductive Owner
  | beam
  | customer (organizationId : String) (reader : Reader) (via : Via)
  deriving DecidableEq

structure Period where
  startedAt : ℤ
  endedAt : Option ℤ
  deriving DecidableEq, Repr

inductive RequesterStatus
  | pending | approved | revoked
  deriving DecidableEq, Repr

inductive RequesterAllowlist
  | none | allowed | removed
  deriving DecidableEq, Repr

structure Requester where
  id : String
  address : Address
  status : RequesterStatus
  allowlist : RequesterAllowlist
  deriving DecidableEq, Repr

/-- A registry account whose key this relay opened, as `toCustomer` makes it. -/
structure Customer where
  organizationId : String
  reader : Reader
  periods : List Period
  requesters : List Requester
  reader_organizationId : reader.organizationId = organizationId
  deriving DecidableEq, Repr

structure ListedTransfer where
  id : String
  createdAt : Timestamp
  completedAt : Timestamp
  observation : Observation
  deriving DecidableEq

/-- What a charge pays for: a recorded receipt (`ReceiptSubject`), or closing an open request. -/
inductive ChargeSubject
  | transfer (transferId : String)
  | room (roomKey : Bytes32)
  | request (requestKey : Bytes32)
  deriving DecidableEq, Repr

inductive ChargeOutcome
  | held
  | charged
  | released
  | refused (status : ℕ) (reason : String)
  | unavailable (status : ℕ)
  deriving DecidableEq, Repr

structure RoomRoute where
  room : String
  channel : String
  publisherMemberId : String
  deriving DecidableEq, Repr

structure JobOutputRoute where
  channel : String
  computeMemberId : String
  deriving DecidableEq, Repr

structure DeploymentRoutes where
  roomDelivery : Option RoomRoute
  jobOutput : Option JobOutputRoute
  deriving DecidableEq, Repr

structure ReceiptLevels where
  standard : UInt8
  room : UInt8
  roomSigned : UInt8
  deriving DecidableEq, Repr

structure CustomersMode where
  maxPerOrganization : ℕ
  deriving DecidableEq, Repr

/-- `logRangeBlocks` is at least one: the configuration's schema refuses zero. -/
structure RelaySettings where
  startBlock : ℕ
  logRangeBlocks : ℕ
  logRangeBlocks_pos : 0 < logRangeBlocks
  clientId : String
  levels : ReceiptLevels
  routes : DeploymentRoutes
  starts : Bool
  relayAccount : Address
  customers : Option CustomersMode

abbrev TransferCursors := OrderedMap String ℤ

/-- What `RelayIO` and `RelayState` offer, one call each. -/
inductive RelayCall
  | finalizedBlock
  | transferRequests (fromBlock toBlock : ℕ)
  | deliver (request : TransferRequestLog) (workflow : Workflow)
  | openRequests
  | findPublication (subject : RoomRequestSubject) (reader : Option Reader)
  | observe (subject : Subject) (reader : Option Reader)
  | writeReport (report : Contract.EncodedReport)
  | readCursor
  | saveCursor (nextBlock : ℕ)
  | customers
  | setRequester (address : Address) (allowed : Bool)
  | cancelRequest (key : Bytes32)
  | reportAllowlist (requesterId : String) (allowed : Bool) (txHash : Bytes32)
  | finishedTransfers (reader : Reader) (completedAfter : ℤ)
  | reserveCharge (subject : ChargeSubject) (organizationId : String) (via : Via)
  | commitCharge (subject : ChargeSubject)
  | readTransferCursors
  | saveTransferCursors (cursors : TransferCursors)
  -- the entries of `state.uncommittedCloses`, and the two ways it changes
  | uncommittedCloses
  | setUncommitted (requestKey : Bytes32) (organizationId : String)
  | deleteUncommitted (requestKey : Bytes32)
  deriving DecidableEq

abbrev RelayCall.Answer : RelayCall → Type
  | .finalizedBlock => ℕ
  | .transferRequests _ _ => List TransferRequestLog
  | .deliver _ _ => StudioOutcome
  | .openRequests => List OpenRequest
  | .findPublication _ _ => PublicationLookup
  | .observe _ _ => Observation
  | .readCursor => Option ℕ
  | .customers => List Customer
  | .setRequester _ _ => Bytes32
  | .finishedTransfers _ _ => List ListedTransfer
  | .reserveCharge _ _ _ => ChargeOutcome
  | .commitCharge _ => ChargeOutcome
  | .readTransferCursors => TransferCursors
  | .uncommittedCloses => OrderedMap Bytes32 String
  | .writeReport _ | .saveCursor _ | .cancelRequest _ | .reportAllowlist _ _ _ |
      .saveTransferCursors _
  | .setUncommitted _ _ | .deleteUncommitted _ => Unit

structure IoEvent where
  call : RelayCall
  reply : Except Thrown call.Answer

abbrev Program := Script RelayCall RelayCall.Answer Thrown

def io (call : RelayCall) : Program call.Answer := Script.io call

end Beam.Relay
