import BeamSdk.Contract.OpenSet
import BeamSdk.Library.Transition

/-! What the contract is for, as a machine of its own: requests are opened and closed, receipts are
recorded once, and a request id is bound to one answer. Each action says when it may happen and what
it changes; nothing is said of keys, positions or reports. -/

namespace Beam.Contract

inductive Act
  | opened (key : Bytes32) (request : OpenRequest)
  | closed (key : Bytes32)
  | recorded (transferId : Bytes16) (receipt : StandardReceipt)
  | bound (requestId : Bytes32) (transferId : Bytes16)
  -- the receipt of a transfer now names the request id it answers
  | linked (transferId : Bytes16) (requestId : Bytes32)
  | roomRecorded (roomKey : Bytes32) (receipt : RoomReceipt)
  | roomBound (requestId roomKey : Bytes32)
  | jobRecorded (requestId : Bytes32) (job : JobResult)

namespace Ledger

def apply (l : Ledger) : Act → Ledger
  | .opened key request => { l with openRequests := Function.update l.openRequests key request }
  | .closed key => { l with openRequests := Function.update l.openRequests key OpenRequest.zero }
  | .recorded transferId receipt =>
      { l with receipts := Function.update l.receipts transferId receipt }
  | .bound requestId transferId =>
    { l with transferIdForRequest := Function.update l.transferIdForRequest requestId transferId }
  | .linked transferId requestId =>
    let receipt := { l.receipts transferId with requestId := requestId }
    { l with receipts := Function.update l.receipts transferId receipt }
  | .roomRecorded roomKey receipt =>
      { l with roomReceipts := Function.update l.roomReceipts roomKey receipt }
  | .roomBound requestId roomKey =>
    { l with roomKeyForRequest := Function.update l.roomKeyForRequest requestId roomKey }
  | .jobRecorded requestId job => { l with jobs := Function.update l.jobs requestId job }

def Met (l : Ledger) : Demand → Prop
  | .transfer requestId => l.isAnswered requestId
  | .receipt transferId => (l.receipts transferId).status ≠ .none
  | .room roomKey => (l.roomReceipts roomKey).status ≠ .none

structure RoomLevelOk (l : Ledger) (r : RoomReceipt) : Prop where
  level : r.level = l.roomReceiptLevel ∨ (r.level = l.roomSignedReceiptLevel ∧ r.targetCount ≠ 0)
  evidenceVersion : r.evidenceVersion ≠ 0
  evidenceSha256 : r.evidenceSha256 ≠ 0

/-- A job's result links two distinct recorded Room receipts and repeats what they hold. -/
structure JobAgrees (l : Ledger) (j : JobResult) : Prop where
  distinct : j.inputRoomKey ≠ j.outputRoomKey
  input : (l.roomReceipts j.inputRoomKey).status ≠ .none
  output : (l.roomReceipts j.outputRoomKey).status ≠ .none
  inputManifest : j.inputManifestSha256 = (l.roomReceipts j.inputRoomKey).manifestSha256
  outputManifest : j.outputManifestSha256 = (l.roomReceipts j.outputRoomKey).manifestSha256
  status : j.status = if (l.roomReceipts j.inputRoomKey).status = .completed
    then (l.roomReceipts j.outputRoomKey).status else (l.roomReceipts j.inputRoomKey).status
  level : j.level = (l.roomReceipts j.inputRoomKey).level &&& (l.roomReceipts j.outputRoomKey).level

section
variable (H : Hashes)

def Open (l : Ledger) (d : Demand) : Prop := ∃ k, (l.openRequests k).demand H = some d

def Allowed (l : Ledger) : Act → Prop
  | .opened _ request => ∃ d, request.demand H = some d ∧ ¬ l.Met d
  | .closed _ => True
  | .recorded transferId receipt =>
      ¬ l.Met (.receipt transferId) ∧ ¬ l.Open H (.receipt transferId) ∧
      receipt.status ≠ .none ∧ receipt.requestId = 0 ∧ receipt.level = l.standardReceiptLevel
  | .bound requestId transferId => transferId ≠ 0 ∧ ¬ l.isAnswered requestId ∧
      ¬ l.Open H (.transfer requestId) ∧ l.Met (.receipt transferId)
  | .linked transferId requestId => transferId ≠ 0 ∧ (l.receipts transferId).requestId = 0 ∧
      requestId ≠ 0 ∧ l.transferIdForRequest requestId = transferId
  | .roomRecorded roomKey receipt => ¬ l.Met (.room roomKey) ∧ ¬ l.Open H (.room roomKey) ∧
      receipt.status ≠ .none ∧ l.RoomLevelOk receipt
  | .roomBound requestId roomKey => ¬ l.isAnswered requestId ∧ ¬ l.Open H (.transfer requestId) ∧
      l.Met (.room roomKey)
  | .jobRecorded requestId job => ¬ l.isAnswered requestId ∧ ¬ l.Open H (.transfer requestId) ∧
      l.JobAgrees job

end

def blank (donAttested : Bool) : Ledger where
  openRequests := fun _ => OpenRequest.zero
  receipts := fun _ => StandardReceipt.zero
  roomReceipts := fun _ => RoomReceipt.zero
  transferIdForRequest := fun _ => 0
  roomKeyForRequest := fun _ => 0
  jobs := fun _ => JobResult.zero
  donAttested := donAttested

end Ledger

def ledger (H : Hashes) : System Ledger Act where
  init l := ∃ donAttested, l = Ledger.blank donAttested
  step l a l' := l.Allowed H a ∧ l' = l.apply a

variable {H : Hashes} {l : Ledger}

theorem ledger_act {a : Act} (h : l.Allowed H a) : (ledger H).Later l (l.apply a) :=
    .single ⟨h, rfl⟩

theorem ledger_close (l : Ledger) (key : Bytes32) : (ledger H).Later l (l.apply (.closed key)) :=
  ledger_act trivial

theorem Ledger.Open.of_closed {d : Demand} {key : Bytes32} (h : (l.apply (.closed key)).Open H d) :
    l.Open H d := by
  obtain ⟨k, hk⟩ := h
  by_cases he : k = key
  · simp only [Ledger.apply, he, Function.update_self] at hk
    cases hk
  · simp only [Ledger.apply, Function.update_of_ne he] at hk
    exact ⟨k, hk⟩

theorem OpenOk.not_open_closed {s : State} (hs : OpenOk H s) (d : Demand) :
    ¬ (s.toLedger.apply (.closed (d.key H))).Open H d := by
  rintro ⟨k, hk⟩
  by_cases he : k = d.key H
  · simp only [Ledger.apply, he, Function.update_self] at hk
    cases hk
  · simp only [Ledger.apply, Function.update_of_ne he] at hk
    exact he (hs.demand_key hk).symm

theorem Ledger.JobAgrees.recorded {j : JobResult} (h : l.JobAgrees j) : j.status ≠ .none := by
  rw [h.status]
  split_ifs
  · exact h.output
  · exact h.input

end Beam.Contract
