import Mathlib.Data.List.Induction
import BeamSdk.Contract.Reports
import BeamSdk.Library.Transition

/-! The external functions, the constructor, and the runs they generate. -/

namespace Beam.Contract

/-- Big-endian bytes from `offset` on; memory past the end of `bytes` is zero. -/
def bytesAt (bytes : Bytes) (offset length : ℕ) : ℕ :=
  (List.range length).foldl (fun n i => 256 * n + (bytes.getD (offset + i) 0).toNat) 0

structure Metadata where
  workflowId : Bytes32
  workflowName : Bytes10
  workflowOwner : Address

def decodeMetadata (metadata : Bytes) : Metadata where
  workflowId := BitVec.ofNat 256 (bytesAt metadata 0 32)
  workflowName := BitVec.ofNat 80 (bytesAt metadata 32 10)
  workflowOwner := BitVec.ofNat 160 (bytesAt metadata 42 20)

/-- The checks of `ReceiverTemplate.onReport`; the first that fails, if any. -/
def checkReport (s : State) (msg : Msg) (metadata : Bytes) : Option Revert :=
  if s.forwarderAddress ≠ 0 ∧ msg.sender ≠ s.forwarderAddress then
    some (.invalidSender msg.sender s.forwarderAddress)
  else if s.expectedWorkflowId = 0 ∧ s.expectedAuthor = 0 ∧ s.expectedWorkflowName = 0 then none
  else
    let received := decodeMetadata metadata
    if s.expectedWorkflowId ≠ 0 ∧ received.workflowId ≠ s.expectedWorkflowId then
      some (.invalidWorkflowId received.workflowId s.expectedWorkflowId)
    else if s.expectedAuthor ≠ 0 ∧ received.workflowOwner ≠ s.expectedAuthor then
      some (.invalidAuthor received.workflowOwner s.expectedAuthor)
    else if s.expectedWorkflowName = 0 then none
    else if s.expectedAuthor = 0 then some .workflowNameRequiresAuthorValidation
    else if received.workflowName ≠ s.expectedWorkflowName then
      some (.invalidWorkflowName received.workflowName s.expectedWorkflowName)
    else none

def hexChar (nibble : ℕ) : ℕ := if nibble < 10 then 48 + nibble else 87 + nibble

def hexPrefix (hash : Bytes32) : Bytes10 :=
  BitVec.ofNat 80 ((List.range 10).foldl (fun n i =>
    256 * n + hexChar (hash.toNat / 16 ^ (63 - i) % 16)) 0)

section Calls
variable (H : Hashes)

def onReport (s : State) (msg : Msg) (metadata : Bytes) (report : EncodedReport) :
    Except Revert State :=
  match checkReport s msg metadata with
  | some revert => .error revert
  | none => processReport H s report

def setForwarderAddress (s : State) (msg : Msg) (forwarder : Address) : Except Revert State :=
  onlyOwner s msg <|
    let s' := if forwarder = 0 then s.emit .securityWarning else s
    .ok ({ s' with forwarderAddress := forwarder }.emit
      (.forwarderAddressUpdated s.forwarderAddress forwarder))

def setExpectedAuthor (s : State) (msg : Msg) (author : Address) : Except Revert State :=
  onlyOwner s msg <| .ok <|
    { s with expectedAuthor := author }.emit (.expectedAuthorUpdated s.expectedAuthor author)

def setExpectedWorkflowName (s : State) (msg : Msg) (name : Bytes) : Except Revert State :=
  onlyOwner s msg <|
    let newName := if name.length = 0 then 0 else hexPrefix (H.sha256 name)
    .ok ({ s with expectedWorkflowName := newName }.emit
      (.expectedWorkflowNameUpdated s.expectedWorkflowName newName))

def setExpectedWorkflowId (s : State) (msg : Msg) (id : Bytes32) : Except Revert State :=
  onlyOwner s msg <| .ok <|
    { s with expectedWorkflowId := id }.emit (.expectedWorkflowIdUpdated s.expectedWorkflowId id)

def writeOwner (s : State) (newOwner : Address) : State :=
  { s with owner := newOwner }.emit (.ownershipTransferred s.owner newOwner)

def transferOwnership (s : State) (msg : Msg) (newOwner : Address) : Except Revert State :=
  onlyOwner s msg <|
    if newOwner = 0 then .error (.ownableInvalidOwner 0) else .ok (writeOwner s newOwner)

def renounceOwnership (s : State) (msg : Msg) : Except Revert State :=
  onlyOwner s msg (.ok (writeOwner s 0))

def State.blank (donAttested : Bool) : State where
  openRequests := fun _ => OpenRequest.zero
  receipts := fun _ => StandardReceipt.zero
  roomReceipts := fun _ => RoomReceipt.zero
  transferIdForRequest := fun _ => 0
  roomKeyForRequest := fun _ => 0
  jobs := fun _ => JobResult.zero
  donAttested := donAttested
  openSlots := Slots.empty
  requesters := fun _ => false
  staleAfter := 0
  owner := 0
  forwarderAddress := 0
  expectedAuthor := 0
  expectedWorkflowName := 0
  expectedWorkflowId := 0
  events := []

def deploy (msg : Msg) (forwarderAddress : Address) (staleAfterSeconds : UInt64)
    (donAttestedReports : Bool) :
    Except Revert State :=
  if msg.sender = 0 then .error (.ownableInvalidOwner 0)
  else if forwarderAddress = 0 then .error .invalidForwarderAddress
  else
    let s := writeOwner (State.blank donAttestedReports) msg.sender
    let s := { s with forwarderAddress := forwarderAddress }.emit
      (.forwarderAddressUpdated 0 forwarderAddress)
    writeStaleAfter s staleAfterSeconds

inductive Call
  | requestTransfer (requestId : Bytes32) (kind : UInt8) (input : Bytes)
  | requestReceipt (transferId : Bytes16)
  | requestRoomReceipt (room channel publication : Bytes)
  | cancelRequest (key : Bytes32)
  | setRequester (account : Address) (allowed : Bool)
  | setStaleAfter (staleAfterSeconds : UInt64)
  | onReport (metadata : Bytes) (report : EncodedReport)
  | setForwarderAddress (forwarder : Address)
  | setExpectedAuthor (author : Address)
  | setExpectedWorkflowName (name : Bytes)
  | setExpectedWorkflowId (id : Bytes32)
  | transferOwnership (newOwner : Address)
  | renounceOwnership

def State.call (s : State) (msg : Msg) : Call → Except Revert State
  | .requestTransfer requestId kind input => Contract.requestTransfer H s msg requestId kind input
  | .requestReceipt transferId => Contract.requestReceipt H s msg transferId
  | .requestRoomReceipt room channel publication =>
      Contract.requestRoomReceipt H s msg room channel publication
  | .cancelRequest key => Contract.cancelRequest s msg key
  | .setRequester account allowed => Contract.setRequester s msg account allowed
  | .setStaleAfter staleAfterSeconds => Contract.setStaleAfter s msg staleAfterSeconds
  | .onReport metadata report => Contract.onReport H s msg metadata report
  | .setForwarderAddress forwarder => Contract.setForwarderAddress s msg forwarder
  | .setExpectedAuthor author => Contract.setExpectedAuthor s msg author
  | .setExpectedWorkflowName name => Contract.setExpectedWorkflowName H s msg name
  | .setExpectedWorkflowId id => Contract.setExpectedWorkflowId s msg id
  | .transferOwnership newOwner => Contract.transferOwnership s msg newOwner
  | .renounceOwnership => Contract.renounceOwnership s msg

def State.transact (s : State) (result : Except Revert State) : State :=
  match result with
  | .ok s' => s'
  | .error _ => s

def contract : System State (Msg × Call) where
  init s := ∃ msg forwarderAddress staleAfterSeconds donAttestedReports,
    deploy msg forwarderAddress staleAfterSeconds donAttestedReports = .ok s
  step s i s' := s' = s.transact (s.call H i.1 i.2)

/-- The state after the calls of `calls`, in order. -/
def State.run (s : State) (calls : List (Msg × Call)) : State :=
  calls.foldl (fun s i => s.transact (s.call H i.1 i.2)) s

theorem runs_iff {s t : State} {calls : List (Msg × Call)} :
    (contract H).Runs s calls t ↔ t = s.run H calls := by
  constructor
  · intro h
    induction h with
    | nil => rfl
    | snoc _ hstep ih =>
      subst ih
      rw [State.run, List.foldl_append]
      exact hstep
  · rintro rfl
    induction calls using List.reverseRecOn with
    | nil => exact .nil s
    | append_singleton calls i ih =>
      rw [State.run, List.foldl_append]
      exact ih.snoc rfl

theorem later_run (s : State) (calls : List (Msg × Call)) : (contract H).Later s (s.run H calls) :=
  ⟨calls, (runs_iff H).mpr rfl⟩

end Calls
end Beam.Contract
