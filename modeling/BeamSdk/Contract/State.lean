import Mathlib.Algebra.Group.Nat.Defs
import Mathlib.Logic.Function.Basic
import BeamSdk.Library.Abi
import BeamSdk.Library.Slots

/-! The types and the storage of `BeamTransferReceipts` and of the `ReceiverTemplate` and `Ownable`
contracts it inherits from. -/

namespace Beam.Contract

abbrev Bytes32 := BitVec 256
abbrev Bytes16 := BitVec 128
abbrev Bytes10 := BitVec 80
abbrev Address := BitVec 160
/-- Solidity's `bytes` and `string`: any bytes, since it checks no encoding. -/
abbrev Bytes := List UInt8

/-- The two hash functions of the EVM. `keccak256` is only ever applied to an `abi.encode`, a
whole number of words. -/
structure Hashes where
  keccak256 : List Bytes32 → Bytes32
  sha256 : Bytes → Bytes32

def REPORT_VERSION : UInt8 := 2
def CLOSURE_BUCKET_ONLY_PUBLICATION : UInt8 := 1
def LEVEL_BEAM_REPORTED : UInt8 := 0x01
def LEVEL_TARGET_SIGNED : UInt8 := 0x02
def LEVEL_DON_ATTESTED : UInt8 := 0x04
def MAX_OPEN_REQUESTS : ℕ := 256
def MAX_INPUT_BYTES : ℕ := 2048
def MAX_ROOM_ID_BYTES : ℕ := 128

inductive Status
  | none | completed | failed | cancelled | partially
  deriving DecidableEq, Repr, Inhabited

inductive RequestKind
  | none | transfer | receipt | roomReceipt
  deriving DecidableEq, Repr, Inhabited

inductive TransferKind
  | none | standard | roomDelivery | job
  deriving DecidableEq, Repr, Inhabited

def Status.code : Status → UInt8
  | .none => 0 | .completed => 1 | .failed => 2 | .cancelled => 3 | .partially => 4

/-- `Status(code)`. Every use checks the range first, so the conversion never panics. -/
def Status.ofCode (code : UInt8) : Status :=
  if code = 1 then .completed else if code = 2 then .failed else if code = 3 then .cancelled
  else if code = 4 then .partially else .none

def RequestKind.code : RequestKind → UInt8
  | .none => 0 | .transfer => 1 | .receipt => 2 | .roomReceipt => 3

def TransferKind.code : TransferKind → UInt8
  | .none => 0 | .standard => 1 | .roomDelivery => 2 | .job => 3

def TransferKind.ofCode (code : UInt8) : TransferKind :=
  if code = 1 then .standard else if code = 2 then .roomDelivery
    else if code = 3 then .job else .none

structure StandardReceipt where
  requestId : Bytes32
  planFingerprint : Bytes32
  coordinateChecksum : Bytes32
  totalBytes : UInt64
  bytesTransferred : UInt64
  completedAtMs : UInt64
  status : Status
  level : UInt8
  deriving DecidableEq, Repr, Inhabited

structure RoomReceipt where
  manifestSha256 : Bytes32
  evidenceSha256 : Bytes32
  assignmentsSha256 : Bytes32
  fileSizeBytes : UInt64
  targetCount : UInt32
  evidenceVersion : UInt16
  status : Status
  level : UInt8
  deriving DecidableEq, Repr, Inhabited

structure JobResult where
  inputRoomKey : Bytes32
  outputRoomKey : Bytes32
  inputManifestSha256 : Bytes32
  outputManifestSha256 : Bytes32
  computeMember : Bytes
  status : Status
  level : UInt8
  deriving DecidableEq, Repr, Inhabited

structure OpenRequest where
  key : Bytes32
  kind : RequestKind
  transferKind : TransferKind
  requester : Address
  openedAt : UInt64
  requestId : Bytes32
  transferId : Bytes16
  room : Bytes
  channel : Bytes
  publication : Bytes
  deriving DecidableEq, Repr

/-- The record `delete` leaves in a storage slot. -/
def OpenRequest.zero : OpenRequest where
  key := 0
  kind := .none
  transferKind := .none
  requester := 0
  openedAt := 0
  requestId := 0
  transferId := 0
  room := []
  channel := []
  publication := []

def StandardReceipt.zero : StandardReceipt := ⟨0, 0, 0, 0, 0, 0, .none, 0⟩
def RoomReceipt.zero : RoomReceipt := ⟨0, 0, 0, 0, 0, 0, .none, 0⟩
def JobResult.zero : JobResult := ⟨0, 0, 0, 0, [], .none, 0⟩

structure StandardReceiptReport where
  transferId : Bytes16
  requestId : Bytes32
  status : UInt8
  totalBytes : UInt64
  bytesTransferred : UInt64
  completedAtMs : UInt64
  planFingerprint : Bytes32
  coordinateChecksum : Bytes32
  level : UInt8
  deriving DecidableEq, Repr

structure RequestClosure where
  key : Bytes32
  reason : UInt8
  transferId : Bytes16
  deriving DecidableEq, Repr

structure RoomReceiptReport where
  room : Bytes
  channel : Bytes
  publication : Bytes
  requestId : Bytes32
  status : UInt8
  fileSizeBytes : UInt64
  manifestSha256 : Bytes32
  targetCount : UInt32
  evidenceSha256 : Bytes32
  assignmentsSha256 : Bytes32
  evidenceVersion : UInt16
  level : UInt8
  deriving DecidableEq, Repr

structure JobResultReport where
  requestId : Bytes32
  inputRoomKey : Bytes32
  outputRoomKey : Bytes32
  computeMember : Bytes
  deriving DecidableEq, Repr

structure Report where
  standard : List StandardReceiptReport
  rooms : List RoomReceiptReport
  closures : List RequestClosure
  jobs : List JobResultReport
  deriving DecidableEq, Repr

/-- What the two `abi.decode` calls of `_processReport` make of a report's bytes; `none` is a
decoding that reverts. -/
structure EncodedReport where
  version : Option UInt8
  body : Option Report
  deriving DecidableEq, Repr

inductive Revert
  | notRequester (caller : Address)
  | notRequestOwner (caller : Address)
  | invalidRequestId
  | invalidTransferKind (kind : UInt8)
  | invalidTransferId
  | invalidRoomId
  | inputTooLarge (length max : ℕ)
  | openRequestsFull (max : ℕ)
  | unknownRequest (key : Bytes32)
  | invalidStaleAfter
  | invalidRequestKey
  | invalidClosureReason (reason : UInt8)
  | unsupportedReportVersion (version : UInt8)
  | invalidStatus (status : UInt8)
  | invalidLevel (level : UInt8)
  | invalidEvidence
  | invalidJob
  | missingRoomReceipt (roomKey : Bytes32)
  | invalidForwarderAddress
  | invalidSender (sender expected : Address)
  | invalidAuthor (received expected : Address)
  | invalidWorkflowName (received expected : Bytes10)
  | invalidWorkflowId (received expected : Bytes32)
  | workflowNameRequiresAuthorValidation
  | ownableUnauthorizedAccount (account : Address)
  | ownableInvalidOwner (owner : Address)
  -- solidity's own checks: an array index out of range, or an undecodable argument
  | panic
  deriving DecidableEq, Repr

inductive Event
  | transferRequested (requestId : Bytes32) (requester : Address) (kind : TransferKind)
      (input : Bytes)
  | receiptRequested (transferId : Bytes16) (requester : Address)
  | roomReceiptRequested (roomKey : Bytes32) (requester : Address)
      (room channel publication : Bytes)
  | requestCancelled (key : Bytes32) (by_ : Address)
  | requestClosed (key : Bytes32) (reason : UInt8) (transferId : Bytes16)
  | receiptRecorded (transferId : Bytes16) (requestId : Bytes32) (status : Status)
      (totalBytes bytesTransferred : UInt64) (level : UInt8)
  | requestAnswered (requestId : Bytes32) (transferId : Bytes16)
  | roomRequestAnswered (requestId roomKey : Bytes32)
  | jobRecorded (requestId inputRoomKey outputRoomKey : Bytes32) (computeMember : Bytes)
      (status : Status) (level : UInt8)
  | roomReceiptRecorded (roomKey requestId : Bytes32) (room channel publication : Bytes)
      (status : Status) (fileSizeBytes : UInt64) (evidenceSha256 : Bytes32) (level : UInt8)
  | requesterUpdated (requester : Address) (allowed : Bool)
  | staleAfterUpdated (previousSeconds newSeconds : UInt64)
  | forwarderAddressUpdated (previousForwarder newForwarder : Address)
  | expectedAuthorUpdated (previousAuthor newAuthor : Address)
  | expectedWorkflowNameUpdated (previousName newName : Bytes10)
  | expectedWorkflowIdUpdated (previousId newId : Bytes32)
  | securityWarning
  | ownershipTransferred (previousOwner newOwner : Address)
  deriving DecidableEq, Repr

/-- What the receipts are about: the open requests, the records and what answers what. -/
structure Ledger where
  openRequests : Bytes32 → OpenRequest
  receipts : Bytes16 → StandardReceipt
  roomReceipts : Bytes32 → RoomReceipt
  transferIdForRequest : Bytes32 → Bytes16
  roomKeyForRequest : Bytes32 → Bytes32
  jobs : Bytes32 → JobResult
  donAttested : Bool

/-- The whole storage, with the events emitted so far, oldest first. `openSlots` holds
`s_openKeys` and `s_openPosition`. -/
structure State extends Ledger where
  openSlots : Slots Bytes32
  requesters : Address → Bool
  staleAfter : UInt64
  owner : Address
  forwarderAddress : Address
  expectedAuthor : Address
  expectedWorkflowName : Bytes10
  expectedWorkflowId : Bytes32
  events : List Event

def State.openKeys (s : State) : List Bytes32 := s.openSlots.keys

def State.openPosition (s : State) : Bytes32 → ℕ := s.openSlots.position

def State.emit (s : State) (e : Event) : State := { s with events := s.events ++ [e] }

@[simp] theorem State.emit_toLedger (s : State) (e : Event) :
    (s.emit e).toLedger = s.toLedger := rfl
@[simp] theorem State.emit_openSlots (s : State) (e : Event) :
    (s.emit e).openSlots = s.openSlots := rfl

namespace Ledger
variable (l : Ledger)

def attestationLevel : UInt8 := if l.donAttested then LEVEL_DON_ATTESTED else 0

def standardReceiptLevel : UInt8 := LEVEL_BEAM_REPORTED ||| l.attestationLevel

def roomReceiptLevel : UInt8 := LEVEL_BEAM_REPORTED ||| l.attestationLevel

def roomSignedReceiptLevel : UInt8 :=
    LEVEL_BEAM_REPORTED ||| LEVEL_TARGET_SIGNED ||| l.attestationLevel

def isAnswered (requestId : Bytes32) : Prop :=
  l.transferIdForRequest requestId ≠ 0 ∨ l.roomKeyForRequest requestId ≠ 0 ∨
    (l.jobs requestId).status ≠ .none

instance (requestId : Bytes32) : Decidable (l.isAnswered requestId) :=
  inferInstanceAs (Decidable (_ ∨ _ ∨ _))

end Ledger

section Keys
variable (H : Hashes)

def roomReceiptKey (room channel publication : Bytes) : Bytes32 :=
  H.keccak256 (Abi.encodeStrings [room, channel, publication])

def requestEncoding (kind : RequestKind) (id : Bytes32) : List Bytes32 :=
  [BitVec.ofNat 256 kind.code.toNat, id]

/-- A `bytes16` takes the upper half of its word. -/
def transferIdWord (transferId : Bytes16) : Bytes32 := transferId ++ (0 : BitVec 128)

def transferRequestKey (requestId : Bytes32) : Bytes32 :=
  H.keccak256 (requestEncoding .transfer requestId)

def receiptRequestKey (transferId : Bytes16) : Bytes32 :=
  H.keccak256 (requestEncoding .receipt (transferIdWord transferId))

def roomRequestKey (roomKey : Bytes32) : Bytes32 :=
  H.keccak256 (requestEncoding .roomReceipt roomKey)

end Keys

end Beam.Contract
