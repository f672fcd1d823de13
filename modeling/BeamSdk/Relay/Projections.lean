import BeamSdk.Library.Json
import BeamSdk.Relay.Subjects

/-! What an HTTP answer of Beam shows of a subject, as every node reads it. -/

namespace Beam.Relay
open Contract (Bytes Bytes32 Hashes Status)

/-- `JSON.parse` and `Date.parse`. An array of the language is shorter than `2 ^ 32`. -/
structure Parsers where
  parseJson : Bytes → Option Json
  parseDate : String → Option ℤ
  array_length : ∀ body members name items, parseJson body = some (.object members) →
    OrderedMap.get members name = some (.array items) → items.length < 2 ^ 32

def standardTerminal (status : String) : Option UInt8 :=
  if status = "completed" then some Status.completed.code
  else if status = "failed" then some Status.failed.code
  else if status = "cancelled" then some Status.cancelled.code
  else none

def roomTerminal (status : String) : Option UInt8 :=
  if status = "completed" then some Status.completed.code
  else if status = "partial" then some Status.partially.code
  else if status = "failed" then some Status.failed.code
  else if status = "cancelled" then some Status.cancelled.code
  else none

structure RoomEvidenceVersion where
  version : UInt16
  domain : Bytes
  envelopeFields : List String
  targetFields : List String

def roomEvidenceVersion (tag : String) : Option RoomEvidenceVersion :=
  if tag = "beam-room-receipt-evidence/v1" then
    some {
      version := 1
      domain := utf8 "beam:room-receipt-evidence:v1\x00"
      envelopeFields :=
        ["assignment_count", "assignments_sha256", "channel_id", "chunk_count", "chunk_size_bytes",
        "evidence_version", "file_size_bytes", "manifest_sha256", "protection", "publication_id",
          "room_id", "status",
        "targets", "transfer_id"]
      targetFields :=
        ["final_receipt", "kind", "member_id", "storage_finalization", "verification_basis"] }
  else none

def isPublicationId (text : String) : Prop := Text.tagged "btr_pub_".toList 26 Text.isBase32 text

instance (text : String) : Decidable (isPublicationId text) :=
    inferInstanceAs (Decidable (Text.tagged _ _ _ _))

def sha256Hex (value : Option Json) : Option Bytes32 := do
  let text ← Json.text value
  let digits ← Hex.split [64] text.toList
  some (BitVec.ofNat 256 (Hex.read digits))

def sha256HexOrZero (value : Option Json) : Bytes32 := (sha256Hex value).getD 0

def uint64 (value : Option Json) : Option UInt64 := do
  let n ← Text.decimal (← Json.text value)
  if n < 2 ^ 64 then some (UInt64.ofNat n) else none

section Bodies
variable (parsers : Parsers)

def projectPublicationLookup (statusCode : ℕ) (body : Bytes) : PublicationLookup :=
  if statusCode = 404 then .absent
  else if statusCode ≠ 200 then .error statusCode
  else
    match Json.text ((parsers.parseJson body).bind fun reply => reply.member "publication_id") with
    | some publicationId =>
      if isPublicationId publicationId then .found publicationId
      else .invalid "publication_id is not a publication id"
    | none => .invalid "publication_id is not a publication id"

/-- `completed_at`, where no time counts as zero. -/
def timestampMs : Option Json → Option UInt64
  | none | some .null => some 0
  | some (.string value) =>
    if Text.isIsoTimestamp value then
      match parsers.parseDate value with
      | some ms => if 0 ≤ ms ∧ ms < 2 ^ 53 then some (UInt64.ofNat ms.toNat) else none
      | none => none
    else none
  | _ => none

def projectTransfer (statusCode : ℕ) (body : Bytes) (transferId : String) : Observation :=
  if statusCode = 404 then .absent
  else if statusCode ≠ 200 then .error statusCode
  else
    match parsers.parseJson body with
    | some (.object members) =>
      let transfer := Json.object members
      if Json.text (transfer.member "id") ≠ some transferId then
        .invalid "id does not match the requested transfer"
      else
        match (Json.text (transfer.member "status")).bind standardTerminal with
        | none => .pending
        | some status =>
          match Json.safeNat (transfer.member "total_bytes"),
            Json.safeNat (transfer.member "bytes_transferred") with
          | some totalBytes, some bytesTransferred =>
            match timestampMs parsers (transfer.member "completed_at") with
            | none => .invalid "completed_at is not an ISO 8601 timestamp"
            | some completedAtMs =>
              .transfer status (UInt64.ofNat totalBytes)
                (UInt64.ofNat bytesTransferred) completedAtMs
                (sha256HexOrZero (transfer.member "plan_fingerprint"))
                (sha256HexOrZero (transfer.member "coordinate_checksum"))
          | _, _ => .invalid "byte counts are not safe integers"
    | _ => .invalid "body is not a JSON object"

/-- A conflict is a Room transfer still running, or a publication that ran as a standard transfer.
-/
def projectRoomConflict (body : Bytes) : Observation :=
  let error := parsers.parseJson body
  let code := Json.text (error.bind fun error => error.member "code")
  if code = some "not_terminal" then .pending
  else if code = some "bucket_only_publication" then
    match Json.text (error.bind fun error => error.member "transfer_id") with
    | some transferId =>
      if (Hex.split uuidGroups (lower transferId)).isSome then
        .notRoom (String.ofList (lower transferId))
      else .notRoom ""
    | none => .notRoom ""
  else .error 409

def isTarget (evidence : RoomEvidenceVersion) : Json → Bool
  | .object members => Json.hasExactly members evidence.targetFields
  | _ => false

def targetKind (target : Json) : Option String := Json.text (target.member "kind")

def isTargetSigned (target : Json) : Bool :=
  targetKind target == some "agent" && match target.member "final_receipt" with
    | some (.object _) => true
    | _ => false

variable (H : Hashes)

def projectEnvelope (evidence : RoomEvidenceVersion) (body : Bytes) (envelope : Json)
    (lookup : RoomSubject) :
    Observation :=
  if Json.text (envelope.member "room_id") ≠ some lookup.room ∨
      Json.text (envelope.member "channel_id") ≠ some lookup.channel ∨
      Json.text (envelope.member "publication_id") ≠ some lookup.publication then
    .invalid "envelope does not match the requested publication"
  else
    match (Json.text (envelope.member "status")).bind roomTerminal with
    | none => .invalid "status is not terminal"
    | some status =>
      match uint64 (envelope.member "file_size_bytes") with
      | none => .invalid "file_size_bytes is not a uint64 decimal string"
      | some fileSizeBytes =>
        let manifest := match envelope.member "manifest_sha256" with
          | some .null => some 0
          | value => sha256Hex value
        match manifest, sha256Hex (envelope.member "assignments_sha256") with
        | some manifestSha256, some assignmentsSha256 =>
          match envelope.member "targets" with
          | some (.array targets) =>
            if ¬ targets.all (isTarget evidence) then
              .invalid "target fields do not match the evidence version"
            else if ¬ targets.all (fun target => targetKind target == some "agent" ||
                targetKind target == some "object_storage") then .invalid "unknown target kind"
            else
              .room status fileSizeBytes manifestSha256 (UInt32.ofNat targets.length)
                (0 < targets.length && targets.all isTargetSigned)
                (H.sha256 (evidence.domain ++ body)) assignmentsSha256 evidence.version
          | _ => .invalid "targets is not a list"
        | _, _ => .invalid "a sha256 field is not lowercase hex"

def projectRoomReceipt (statusCode : ℕ) (body : Bytes) (lookup : RoomSubject) : Observation :=
  if statusCode = 409 then projectRoomConflict parsers body
  else if statusCode = 404 then .absent
  else if statusCode ≠ 200 then .error statusCode
  else
    match parsers.parseJson body with
    | some (.object members) =>
      match (Json.text (OrderedMap.get members "evidence_version")).bind roomEvidenceVersion with
      | none => .invalid "unsupported evidence_version"
      | some evidence =>
        if ¬ Json.hasExactly members evidence.envelopeFields then
          .invalid "envelope fields do not match the evidence version"
        else projectEnvelope H evidence body (.object members) lookup
    | _ => .invalid "body is not a JSON object"

end Bodies

section Projected
variable {parsers : Parsers} {H : Hashes} {statusCode : ℕ} {body : Bytes}

theorem projectTransfer_status {transferId : String} {status : UInt8}
    {totalBytes bytesTransferred completedAtMs : UInt64}
    {planFingerprint coordinateChecksum : Bytes32}
    (h : projectTransfer parsers statusCode body transferId =
      .transfer status totalBytes bytesTransferred completedAtMs planFingerprint
        coordinateChecksum) :
    status = Status.completed.code ∨ status = Status.failed.code ∨
      status = Status.cancelled.code := by
  unfold projectTransfer at h
  split_ifs at h
  split at h
  · simp only at h
    split_ifs at h
    split at h
    · cases h
    · rename_i found hfound
      obtain ⟨text, -, hterminal⟩ := Option.bind_eq_some_iff.mp hfound
      have hstatus : found = status := by
        split at h
        · split at h
          · cases h
          · cases h
            rfl
        · cases h
      unfold standardTerminal at hterminal
      split_ifs at hterminal
      · exact .inl (hstatus.symm.trans (Option.some.inj hterminal).symm)
      · exact .inr (.inl (hstatus.symm.trans (Option.some.inj hterminal).symm))
      · exact .inr (.inr (hstatus.symm.trans (Option.some.inj hterminal).symm))
  · cases h

structure RoomObserved (H : Hashes) (status : UInt8) (targetCount : UInt32) (targetSigned : Bool)
    (evidenceSha256 : Bytes32) (evidenceVersion : UInt16) : Prop where
  status : status ≠ Status.none.code ∧ status ≤ Status.partially.code
  targets : targetSigned = true → targetCount ≠ 0
  evidence : ∃ bytes, evidenceSha256 = H.sha256 bytes
  version : evidenceVersion ≠ 0

theorem projectRoomConflict_ne_room {status : UInt8} {fileSizeBytes : UInt64}
    {manifestSha256 : Bytes32} {targetCount : UInt32}
    {targetSigned : Bool} {evidenceSha256 assignmentsSha256 : Bytes32} {evidenceVersion : UInt16} :
    projectRoomConflict parsers body ≠
      .room status fileSizeBytes manifestSha256 targetCount targetSigned evidenceSha256
      assignmentsSha256 evidenceVersion := by
  unfold projectRoomConflict
  intro h
  simp only at h
  split_ifs at h
  split at h
  · split_ifs at h
  · cases h

theorem roomEvidenceVersion_version {tag : String} {evidence : RoomEvidenceVersion}
    (h : roomEvidenceVersion tag = some evidence) : evidence.version ≠ 0 := by
  unfold roomEvidenceVersion at h
  split_ifs at h
  cases h
  decide

theorem roomTerminal_valid {text : String} {status : UInt8} (h : roomTerminal text = some status) :
    status ≠ Status.none.code ∧ status ≤ Status.partially.code := by
  unfold roomTerminal at h
  split_ifs at h <;> cases h <;> decide

theorem projectRoomReceipt_observed {lookup : RoomSubject} {status : UInt8} {fileSizeBytes : UInt64}
    {manifestSha256 : Bytes32} {targetCount : UInt32} {targetSigned : Bool}
    {evidenceSha256 assignmentsSha256 : Bytes32}
    {evidenceVersion : UInt16}
    (h : projectRoomReceipt parsers H statusCode body lookup =
      .room status fileSizeBytes manifestSha256 targetCount
      targetSigned evidenceSha256 assignmentsSha256 evidenceVersion) :
    RoomObserved H status targetCount targetSigned evidenceSha256 evidenceVersion := by
  unfold projectRoomReceipt at h
  split_ifs at h
  · exact absurd h projectRoomConflict_ne_room
  split at h
  · rename_i members hparsed
    split at h
    · cases h
    · rename_i evidence hevidence
      obtain ⟨tag, -, htag⟩ := Option.bind_eq_some_iff.mp hevidence
      split_ifs at h
      unfold projectEnvelope at h
      split_ifs at h
      split at h
      · cases h
      · rename_i found hfound
        obtain ⟨text, -, hterminal⟩ := Option.bind_eq_some_iff.mp hfound
        split at h
        · cases h
        · simp only at h
          split at h
          · split at h
            · rename_i targets htargets
              split_ifs at h
              cases h
              have hlength : targets.length < 2 ^ 32 :=
                parsers.array_length body members _ targets hparsed htargets
              refine ⟨roomTerminal_valid hterminal,
                fun hsigned => ?_, ⟨_, rfl⟩, roomEvidenceVersion_version htag⟩
              obtain ⟨hpos, -⟩ := Bool.and_eq_true_iff.mp hsigned
              intro hzero
              have hcount : (UInt32.ofNat targets.length).toNat = targets.length :=
                UInt32.toNat_ofNat_of_lt hlength
              rw [hzero] at hcount
              have hlt : 0 < targets.length := of_decide_eq_true hpos
              exact hlt.ne hcount
            · cases h
          · cases h
  · cases h

end Projected
end Beam.Relay
