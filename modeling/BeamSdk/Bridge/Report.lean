import BeamSdk.Library.Json
import BeamSdk.Relay.Subjects

/-! CRE reports as the bridge takes them: the submission's hex, the metadata header, the signatures
over both, and the entry of a report that answers an attestation. -/

namespace Beam.Bridge
open Contract (Address Bytes Bytes16 Bytes32 Hashes StandardReceiptReport RequestClosure)

/-- A transfer id as `normalizeTransferId` leaves it. -/
structure TransferId where
  text : String
  value : Bytes16
  parsed : Relay.transferIdToBytes16 text = .ok value
  deriving DecidableEq

def normalizeTransferId (transferId : String) : Option TransferId :=
  let text := String.ofList (Relay.lower transferId)
  match h : Relay.transferIdToBytes16 text with
  | .ok value => some ⟨text, value, h⟩
  | .error _ => none

inductive Attestation
  | transfer (transferId : TransferId)
  | roomPublication (room channel publication : String)
  deriving DecidableEq

structure RoomReceiptEntry where
  room : String
  channel : String
  publication : String
  requestId : Bytes32
  status : UInt8
  fileSizeBytes : UInt64
  manifestSha256 : Bytes32
  targetCount : UInt32
  evidenceSha256 : Bytes32
  assignmentsSha256 : Bytes32
  evidenceVersion : UInt16
  level : UInt8
  deriving DecidableEq

structure JobResultEntry where
  requestId : Bytes32
  inputRoomKey : Bytes32
  outputRoomKey : Bytes32
  computeMember : String
  deriving DecidableEq

structure DecodedReport where
  standard : List StandardReceiptReport
  rooms : List RoomReceiptEntry
  closures : List RequestClosure
  jobs : List JobResultEntry
  deriving DecidableEq

/-- What the bridge uses of `viem`; `none` is what throws. -/
structure Viem where
  hashes : Hashes
  keccak256 : Bytes → Bytes32
  recoverAddress : Bytes32 → Bytes → Option Address
  decodeAbiParameters : Bytes → Option (UInt8 × DecodedReport)

inductive AttestationAnswer
  | standard (entry : StandardReceiptReport)
  | room (entry : RoomReceiptEntry)
  | closure (entry : RequestClosure)
  deriving DecidableEq

section Answers
variable (H : Hashes)

def answerFor (attestation : Attestation) (report : DecodedReport) : Option AttestationAnswer :=
  match attestation with
  | .transfer transferId =>
    (report.standard.find? fun candidate => candidate.transferId = transferId.value).map .standard
  | .roomPublication room channel publication =>
    match report.rooms.find? fun candidate =>
        candidate.room = room ∧ candidate.channel = channel ∧
          candidate.publication = publication with
    | some entry => some (.room entry)
    | none =>
      let closureKey := Contract.roomRequestKey H (Relay.roomReceiptKey H room channel publication)
      (report.closures.find? fun candidate => candidate.key = closureKey).map .closure

end Answers

inductive Entry
  | standard (entry : StandardReceiptReport)
  | room (entry : RoomReceiptEntry)
  | closure (entry : RequestClosure)
  | job (entry : JobResultEntry)
  deriving DecidableEq

def DecodedReport.entries (report : DecodedReport) : List Entry :=
  report.standard.map .standard ++ report.rooms.map .room ++ report.closures.map .closure ++
    report.jobs.map .job

def AttestationAnswer.entry : AttestationAnswer → Entry
  | .standard entry => .standard entry
  | .room entry => .room entry
  | .closure entry => .closure entry

theorem answerFor_mem {H : Hashes} {attestation : Attestation} {report : DecodedReport}
    {answer : AttestationAnswer}
    (h : answerFor H attestation report = some answer) : answer.entry ∈ report.entries := by
  have hclosure : ∀ p, (report.closures.find? p).map AttestationAnswer.closure = some answer →
      answer.entry ∈ report.entries := by
    intro p hp
    obtain ⟨entry, hentry, rfl⟩ := Option.map_eq_some_iff.mp hp
    have hmem := List.mem_of_find?_eq_some hentry
    simp only [DecodedReport.entries, AttestationAnswer.entry, List.mem_append, List.mem_map]
    exact .inl (.inr ⟨entry, hmem, rfl⟩)
  unfold answerFor at h
  split at h
  · obtain ⟨entry, hentry, rfl⟩ := Option.map_eq_some_iff.mp h
    have hmem := List.mem_of_find?_eq_some hentry
    simp only [DecodedReport.entries, AttestationAnswer.entry, List.mem_append, List.mem_map]
    exact .inl (.inl (.inl ⟨entry, hmem, rfl⟩))
  · split at h
    · rename_i entry hentry
      cases h
      have hmem := List.mem_of_find?_eq_some hentry
      simp only [DecodedReport.entries, AttestationAnswer.entry, List.mem_append, List.mem_map]
      exact .inl (.inl (.inr ⟨entry, hmem, rfl⟩))
    · exact hclosure _ h

structure SignedReport where
  rawReport : Bytes
  context : Bytes
  signatures : List Bytes
  deriving DecidableEq

/-- `Buffer.from(field, 'hex')` of an even number of digits. -/
def bytesOfDigits : List Char → Bytes
  | high :: low :: rest => UInt8.ofNat (16 * Hex.value high + Hex.value low) :: bytesOfDigits rest
  | _ => []

def hexField : Option Json → Option Bytes
  | some (.string field) =>
    if (Relay.lower field).all Hex.isDigit ∧
      field.length % 2 = 0 then some (bytesOfDigits (Relay.lower field)) else none
  | _ => none

def parseSubmission : Json → Option SignedReport
  | .object members => do
    let rawReport ← hexField (OrderedMap.get members "report")
    let context ← hexField (OrderedMap.get members "context")
    match OrderedMap.get members "signatures" with
    | some (.array signatures) =>
      if signatures.length > 64 then none
      else
        let signatures ← signatures.mapM fun signature => hexField (some signature)
        some ⟨rawReport, context, signatures⟩
    | _ => none
  | _ => none

def hexOf (bytes : Bytes) : List Char := bytes.flatMap fun byte => Hex.digits 2 byte.toNat

def reportSubmission (signed : SignedReport) : Json :=
  .object [("report", .string (String.ofList (hexOf signed.rawReport))),
    ("context", .string (String.ofList (hexOf signed.context))),
    ("signatures", .array (signed.signatures.map fun signature =>
      .string (String.ofList (hexOf signature))))]

theorem bytesOfDigits_hexOf (bytes : Bytes) : bytesOfDigits (hexOf bytes) = bytes := by
  have hbyte : ∀ n < 256, Hex.digits 2 n = [Hex.digit (n / 16), Hex.digit (n % 16)] ∧
      16 * Hex.value (Hex.digit (n / 16)) + Hex.value (Hex.digit (n % 16)) = n := by decide +kernel
  induction bytes with
  | nil => rfl
  | cons byte bytes ih =>
    obtain ⟨hdigits, hvalue⟩ := hbyte byte.toNat byte.toNat_lt
    show bytesOfDigits (Hex.digits 2 byte.toNat ++ hexOf bytes) = byte :: bytes
    rw [hdigits, List.cons_append, List.cons_append, List.nil_append, bytesOfDigits, hvalue,
      UInt8.ofNat_toNat, ih]

theorem mem_hexOf {bytes : Bytes} {c : Char} (h : c ∈ hexOf bytes) : ∃ d < 16, c = Hex.digit d := by
  obtain ⟨byte, -, h⟩ := List.mem_flatMap.mp h
  exact Hex.mem_digits h

theorem length_hexOf (bytes : Bytes) : (hexOf bytes).length = 2 * bytes.length := by
  induction bytes with
  | nil => rfl
  | cons byte bytes ih =>
    show (Hex.digits 2 byte.toNat ++ hexOf bytes).length = 2 * (bytes.length + 1)
    rw [List.length_append, Hex.length_digits, ih, Nat.mul_add, Nat.add_comm]

theorem hexField_hexOf (bytes : Bytes) : hexField (some (.string (String.ofList (hexOf bytes)))) =
    some bytes := by
  have hlower : Relay.lower (String.ofList (hexOf bytes)) = hexOf bytes := by
    have hdigit : ∀ c ∈ hexOf bytes, c.toLower = id c := by
      intro c hc
      obtain ⟨d, hd, rfl⟩ := mem_hexOf hc
      exact Hex.toLower_digit d hd
    rw [Relay.lower, String.toList_ofList, List.map_congr_left hdigit, List.map_id]
  have hall : (hexOf bytes).all Hex.isDigit = true := by
    rw [List.all_eq_true]
    intro c hc
    obtain ⟨d, hd, rfl⟩ := mem_hexOf hc
    exact Hex.isDigit_digit d hd
  have heven : (String.ofList (hexOf bytes)).length % 2 = 0 := by
    rw [String.length_ofList, length_hexOf, Nat.mul_mod_right]
  rw [hexField, hlower, if_pos ⟨hall, heven⟩, bytesOfDigits_hexOf]

theorem parseSubmission_reportSubmission {signed : SignedReport}
    (h : signed.signatures.length ≤ 64) :
    parseSubmission (reportSubmission signed) = some signed := by
  have hsignatures : (signed.signatures.map fun signature =>
      Json.string (String.ofList (hexOf signature))).mapM
      (fun signature => hexField (some signature)) = some signed.signatures := by
    induction signed.signatures with
    | nil => rfl
    | cons signature rest ih =>
      rw [List.map_cons, List.mapM_cons, hexField_hexOf, ih]
      rfl
  simp [parseSubmission, reportSubmission, OrderedMap.get, hexField_hexOf, hsignatures,
    Nat.not_lt.mpr h]

def REPORT_HEADER_BYTES : ℕ := 109

structure ReportHeader where
  version : UInt8
  executionId : Bytes
  timestamp : ℕ
  donId : ℕ
  donConfigVersion : ℕ
  workflowId : Bytes
  workflowName : Bytes
  workflowOwner : Bytes
  reportId : Bytes
  deriving DecidableEq

def slice (rawReport : Bytes) (start stop : ℕ) : Bytes := (rawReport.take stop).drop start

def uint32 (rawReport : Bytes) (offset : ℕ) : ℕ :=
  (slice rawReport offset (offset + 4)).foldl (fun n byte => 256 * n + byte.toNat) 0

def parseHeader (rawReport : Bytes) : Option ReportHeader :=
  if rawReport.length < REPORT_HEADER_BYTES then none
  else some {
    version := rawReport.headD 0
    executionId := slice rawReport 1 33
    timestamp := uint32 rawReport 33
    donId := uint32 rawReport 37
    donConfigVersion := uint32 rawReport 41
    workflowId := slice rawReport 45 77
    workflowName := slice rawReport 77 87
    workflowOwner := slice rawReport 87 107
    reportId := slice rawReport 107 109 }

def reportBody (rawReport : Bytes) : Bytes := rawReport.drop REPORT_HEADER_BYTES

section Checks
variable (viem : Viem)

def decodeReport (report : Bytes) : Option DecodedReport :=
  match viem.decodeAbiParameters report with
  | some (version, decoded) => if version = Contract.REPORT_VERSION then some decoded else none
  | none => none

def wordBytes (word : Bytes32) : Bytes := (List.range 32).map fun i =>
    UInt8.ofNat (word.toNat / 256 ^ (31 - i))

def reportDigest (rawReport context : Bytes) : Bytes32 :=
    viem.keccak256 (wordBytes (viem.keccak256 rawReport) ++ context)

structure SignerSet where
  f : ℕ
  signers : List Address
  deriving DecidableEq

def normalized (signature : Bytes) : Bytes :=
  signature.take 64 ++ (signature.drop 64).map fun v => if v ≥ 27 then v - 27 else v

def signerOf (digest : Bytes32) (set : SignerSet) (signature : Bytes) : Option Address :=
  if signature.length ≠ 65 then none
  else (viem.recoverAddress digest (normalized signature)).filter fun signer =>
    set.signers.contains signer

/-- The distinct signers found among the signatures, up to the number that is required. -/
def acceptSignatures (digest : Bytes32) (set : SignerSet) : List Bytes → List Address → List Address
  | [], accepted => accepted
  | signature :: rest, accepted =>
    if accepted.length = set.f + 1 then accepted
    else match signerOf viem digest set signature with
      | none => acceptSignatures digest set rest accepted
      | some signer =>
          acceptSignatures digest set rest (if accepted.contains signer then accepted
            else accepted ++ [signer])

/-- `none` where fewer than `f + 1` signatures are of distinct signers of the set. -/
def verifyReportSignatures (report : SignedReport) (set : SignerSet) : Option (List Address) :=
  let accepted :=
    acceptSignatures viem (reportDigest viem report.rawReport report.context)
      set report.signatures []
  if accepted.length < set.f + 1 then none else some accepted

variable {viem} {digest : Bytes32} {set : SignerSet}

theorem mem_of_signerOf {signature : Bytes} {signer : Address}
    (h : signerOf viem digest set signature = some signer) :
    signer ∈ set.signers ∧ viem.recoverAddress digest (normalized signature) = some signer := by
  unfold signerOf at h
  split_ifs at h
  obtain ⟨hrecovered, hmem⟩ := Option.filter_eq_some_iff.mp h
  exact ⟨List.contains_iff_mem.mp hmem, hrecovered⟩

structure Accepted (viem : Viem) (digest : Bytes32) (set : SignerSet) (signatures : List Bytes)
    (accepted : List Address) :
    Prop where
  nodup : accepted.Nodup
  signed : ∀ signer ∈ accepted, signer ∈ set.signers ∧
    ∃ signature ∈ signatures, viem.recoverAddress digest (normalized signature) = some signer

theorem acceptSignatures_accepted {all signatures : List Bytes} {accepted : List Address}
    (hsub : ∀ signature ∈ signatures, signature ∈ all) (h : Accepted viem digest set all accepted) :
    Accepted viem digest set all (acceptSignatures viem digest set signatures accepted) := by
  induction signatures generalizing accepted with
  | nil => exact h
  | cons signature rest ih =>
    have hrest : ∀ signature ∈ rest, signature ∈ all :=
      fun s hs => hsub s (List.mem_cons_of_mem _ hs)
    unfold acceptSignatures
    split_ifs
    · exact h
    · split
      · exact ih hrest h
      · rename_i signer hsigner
        split_ifs with hknown
        · exact ih hrest h
        · have hnew : signer ∉ accepted := fun hmem => hknown (List.contains_iff_mem.mpr hmem)
          refine ih hrest ⟨List.concat_eq_append ▸ h.nodup.concat hnew, fun s hs => ?_⟩
          rcases List.mem_append.mp hs with hs | hs
          · exact h.signed s hs
          · obtain ⟨hset, hrecovered⟩ := mem_of_signerOf hsigner
            rw [List.mem_singleton.mp hs]
            exact ⟨hset, signature, hsub signature (List.mem_cons_self ..), hrecovered⟩

theorem verifyReportSignatures_accepted {report : SignedReport} {accepted : List Address}
    (h : verifyReportSignatures viem report set = some accepted) :
    set.f + 1 ≤ accepted.length ∧
      Accepted viem (reportDigest viem report.rawReport report.context)
        set report.signatures accepted := by
  unfold verifyReportSignatures at h
  simp only at h
  split_ifs at h with henough
  cases h
  refine ⟨Nat.not_lt.mp henough, acceptSignatures_accepted (fun _ hs => hs)
    ⟨List.nodup_nil, fun s hs => ?_⟩⟩
  exact absurd hs List.not_mem_nil

end Checks
end Beam.Bridge
