import BeamSdk.Contract.State

/-! Opening, cancelling and closing requests, and the owner's settings. -/

namespace Beam.Contract

/-- The transaction a call runs in: its `msg.sender` and its `block.timestamp`. -/
structure Msg where
  sender : Address
  timestamp : ℕ

def openKey (s : State) (msg : Msg) (key : Bytes32) (kind : RequestKind) : Except Revert State :=
  if s.openKeys.length ≥ MAX_OPEN_REQUESTS then .error (.openRequestsFull MAX_OPEN_REQUESTS)
  else .ok { s with
    openSlots := s.openSlots.push key
    openRequests := Function.update s.openRequests key { s.openRequests key with
      key := key
      kind := kind
      requester := msg.sender
      openedAt := UInt64.ofNat msg.timestamp } }

def closeKey (s : State) (key : Bytes32) : Except Revert State :=
  if s.openPosition key = 0 then .ok s
  else match s.openSlots.swapPop key with
    | none => .error .panic
    | some slots => .ok { s with
        openSlots := slots
        openRequests := Function.update s.openRequests key OpenRequest.zero }

/-- What a request function writes through the storage pointer `_open` returns. -/
def State.setOpenRequest (s : State) (key : Bytes32) (set : OpenRequest → OpenRequest) : State :=
  { s with openRequests := Function.update s.openRequests key (set (s.openRequests key)) }

def State.isRequester (s : State) (account : Address) : Prop :=
    account = s.owner ∨ s.requesters account = true

instance (s : State) (account : Address) : Decidable (s.isRequester account) :=
  inferInstanceAs (Decidable (_ ∨ _))

section Requests
variable (H : Hashes)

def requestTransfer (s : State) (msg : Msg) (requestId : Bytes32) (kind : UInt8) (input : Bytes) :
    Except Revert State :=
  if ¬ s.isRequester msg.sender then .error (.notRequester msg.sender)
  else if requestId = 0 then .error .invalidRequestId
  else if kind = TransferKind.none.code ∨
    kind > TransferKind.job.code then .error (.invalidTransferKind kind)
  else if input.length > MAX_INPUT_BYTES then .error (.inputTooLarge input.length MAX_INPUT_BYTES)
  else
    let key := transferRequestKey H requestId
    if s.openPosition key ≠ 0 ∨ s.isAnswered requestId then .ok s
    else do
      let s ← openKey s msg key .transfer
      let s := s.setOpenRequest key fun request =>
        { request with transferKind := TransferKind.ofCode kind, requestId := requestId }
      .ok (s.emit (.transferRequested requestId msg.sender (TransferKind.ofCode kind) input))

def requestReceipt (s : State) (msg : Msg) (transferId : Bytes16) : Except Revert State :=
  if ¬ s.isRequester msg.sender then .error (.notRequester msg.sender)
  else if transferId = 0 then .error .invalidTransferId
  else
    let key := receiptRequestKey H transferId
    if s.openPosition key ≠ 0 ∨ (s.receipts transferId).status ≠ .none then .ok s
    else do
      let s ← openKey s msg key .receipt
      let s := s.setOpenRequest key fun request => { request with transferId := transferId }
      .ok (s.emit (.receiptRequested transferId msg.sender))

def badRoomId (id : Bytes) : Prop := id.length = 0 ∨ id.length > MAX_ROOM_ID_BYTES

instance (id : Bytes) : Decidable (badRoomId id) := inferInstanceAs (Decidable (_ ∨ _))

def requestRoomReceipt (s : State) (msg : Msg) (room channel publication : Bytes) :
    Except Revert State :=
  if ¬ s.isRequester msg.sender then .error (.notRequester msg.sender)
  else if badRoomId room ∨ badRoomId channel ∨ badRoomId publication then .error .invalidRoomId
  else
    let roomKey := roomReceiptKey H room channel publication
    let key := roomRequestKey H roomKey
    if s.openPosition key ≠ 0 ∨ (s.roomReceipts roomKey).status ≠ .none then .ok s
    else do
      let s ← openKey s msg key .roomReceipt
      let s := s.setOpenRequest key fun request =>
        { request with room := room, channel := channel, publication := publication }
      .ok (s.emit (.roomReceiptRequested roomKey msg.sender room channel publication))

end Requests

def cancelRequest (s : State) (msg : Msg) (key : Bytes32) : Except Revert State :=
  if s.openPosition key = 0 then .error (.unknownRequest key)
  else if msg.sender ≠ s.owner ∧ msg.sender ≠ (s.openRequests key).requester then
    .error (.notRequestOwner msg.sender)
  else do
    let s ← closeKey s key
    .ok (s.emit (.requestCancelled key msg.sender))

def writeStaleAfter (s : State) (staleAfterSeconds : UInt64) : Except Revert State :=
  if staleAfterSeconds = 0 then .error .invalidStaleAfter
  else .ok { s.emit (.staleAfterUpdated s.staleAfter staleAfterSeconds) with
    staleAfter := staleAfterSeconds }

def onlyOwner (s : State) (msg : Msg) (run : Except Revert State) : Except Revert State :=
  if s.owner ≠ msg.sender then .error (.ownableUnauthorizedAccount msg.sender) else run

def setRequester (s : State) (msg : Msg) (account : Address) (allowed : Bool) :
    Except Revert State :=
  onlyOwner s msg <| .ok <|
    { s with requesters := Function.update s.requesters account allowed }.emit
      (.requesterUpdated account allowed)

def setStaleAfter (s : State) (msg : Msg) (staleAfterSeconds : UInt64) : Except Revert State :=
  onlyOwner s msg (writeStaleAfter s staleAfterSeconds)

end Beam.Contract
