import BeamSdk.Bridge.Report
import BeamSdk.Relay.Projections

/-! The webhook side of the bridge: signed deliveries, and what a Room member's message asks for. -/

namespace Beam.Bridge
open Contract (Bytes)
open Relay (utf8)

def SIGNATURE_TOLERANCE_SECONDS : ℤ := 300

/-- `JSON.parse` of a decoded body and of a text, and HMAC-SHA256. -/
structure Host where
  parseBody : Bytes → Option Json
  parseText : String → Option Json
  hmac : String → Bytes → Bytes

section Signatures
variable (host : Host)

/-- The value of one part of a signature header, `v1=` and 64 hex digits. -/
def signaturePart (part : List Char) : Option Bytes :=
  let part := (Relay.trim (String.ofList part)).toList
  if part.take 3 = "v1=".toList ∧ (part.drop 3).length = 64 ∧ (part.drop 3).all Hex.isDigit then
    some (bytesOfDigits (part.drop 3))
  else none

def verifyWebhookSignature (secrets : List String) (timestamp signatureHeader : Option String)
    (body : Bytes)
    (nowSeconds : ℤ) : Bool :=
  match timestamp, signatureHeader with
  | some timestamp, some signatureHeader =>
    let digits := timestamp.toList
    if ¬ (1 ≤ digits.length ∧ digits.length ≤ 12 ∧ digits.all Text.isDecimal) then false
    else if |nowSeconds - (digits.foldl (fun n c => 10 * n + (c.toNat - 48)) 0 : ℕ)| >
      SIGNATURE_TOLERANCE_SECONDS then false
    else
      let given := (signatureHeader.toList.splitOn ',').filterMap signaturePart
      secrets.any fun secret =>
        given.contains (host.hmac secret (utf8 ("v1:" ++ timestamp ++ ":") ++ body))
  | _, _ => false

theorem signaturePart_eq (part : List Char) : signaturePart part =
    let part := ((part.dropWhile Relay.isSpace).reverse.dropWhile Relay.isSpace).reverse
    if part.take 3 = ['v', '1', '='] ∧ (part.drop 3).length = 64 ∧
      (part.drop 3).all Hex.isDigit then
      some (bytesOfDigits (part.drop 3))
    else none := by
  rw [signaturePart, Relay.trim, String.toList_ofList, String.toList_ofList, String.toList_ofList]

theorem verifyWebhookSignature_signed {secret timestamp signatures : String}
    {body signature : Bytes} {nowSeconds : ℤ}
    (hdigits : 1 ≤ timestamp.toList.length ∧ timestamp.toList.length ≤ 12 ∧
      timestamp.toList.all Text.isDecimal)
    (hnear : ¬ |nowSeconds - (timestamp.toList.foldl (fun n c => 10 * n + (c.toNat - 48)) 0 : ℕ)| >
      SIGNATURE_TOLERANCE_SECONDS)
    (hgiven : signature ∈ (signatures.toList.splitOn ',').filterMap signaturePart)
    (hsigned : host.hmac secret (utf8 ("v1:" ++ timestamp ++ ":") ++ body) = signature) :
    verifyWebhookSignature host [secret] (some timestamp)
      (some signatures) body nowSeconds = true := by
  simp only [verifyWebhookSignature]
  rw [if_neg (not_not.mpr hdigits), if_neg hnear, List.any_cons, hsigned,
    List.contains_iff_mem.mpr hgiven, Bool.true_or]

end Signatures

structure Envelope where
  type : String
  room_id : String
  channel_id : String
  publication_id : String
  publisher_member_id : String
  webhook_member_id : String
  hop : ℤ
  text : Option String

def integer : Option Json → Option ℤ
  | some (.number value) => if value.den = 1 then some value.num else none
  | _ => none

def envelopeOf (value : Json) : Option Envelope := do
  match value with
  | .object _ =>
    let type ← Json.text (value.member "type")
    let room_id ← Json.text (value.member "room_id")
    let channel_id ← Json.text (value.member "channel_id")
    let publication_id ← Json.text (value.member "publication_id")
    let publisher_member_id ← Json.text (value.member "publisher_member_id")
    let webhook_member_id ← Json.text (value.member "webhook_member_id")
    let hop ← integer (value.member "hop")
    some ⟨type, room_id, channel_id, publication_id, publisher_member_id, webhook_member_id, hop,
      Json.text (value.member "text")⟩
  | _ => none

def parseEnvelope (host : Host) (body : Bytes) : Option Envelope :=
    (host.parseBody body).bind envelopeOf

structure AttestationPolicy where
  rooms : OrderedMap String (List String)
  allowTransferAttestations : Bool

inductive RoomRequest
  | ignore
  | refuse (reason message : String)
  | attest (attestation : Attestation) (publishOnchain : Bool)

/-- The properties every object of the language has, which a lookup by name finds too. -/
def inheritedNames : List String :=
  ["constructor", "__defineGetter__", "__defineSetter__", "hasOwnProperty", "__lookupGetter__",
    "__lookupSetter__",
    "isPrototypeOf", "propertyIsEnumerable", "toString", "valueOf", "__proto__", "toLocaleString"]

def hasOnly (members : List (String × Json)) (fields : List String) : Bool :=
  members.all fun member => fields.contains member.1

/-- `publish_onchain ?? false`, where it is a boolean. -/
def publishOnchainOf : Option Json → Option Bool
  | none | some .null => some false
  | some (.bool value) => some value
  | _ => none

section Requests
variable (envelope : Envelope) (policy : AttestationPolicy)

/-- A room that only an object's own prototype knows has no channels to look in, which throws. -/
def publicationRequest (members : List (String × Json)) (publishOnchain : Bool) :
    Except Relay.Thrown RoomRequest :=
  if ¬ hasOnly members ["op", "channel", "publication", "publish_onchain"] then
    .ok (.refuse "invalid_request" "attest_room_publication takes `channel`, `publication` and `publish_onchain`.")
  else match OrderedMap.get members "channel", OrderedMap.get members "publication" with
    | some (.string channel), some (.string publication) =>
      if ¬ Relay.isPublicationId publication then
        .ok (.refuse "invalid_request" "Name the object `channel` and the `publication` id (btr_pub_…).")
      else
        let attest :=
          RoomRequest.attest (.roomPublication envelope.room_id channel publication) publishOnchain
        let refuse := RoomRequest.refuse "channel_not_attestable"
          "This bridge does not attest publications of that channel in this Room."
        match OrderedMap.get policy.rooms envelope.room_id with
        | some channels => .ok (if channels.contains channel then attest else refuse)
        | none =>
          if inheritedNames.contains envelope.room_id then .error "undefined is not an object"
            else .ok refuse
    | _, _ => .ok
        (.refuse "invalid_request" "Name the object `channel` and the `publication` id (btr_pub_…).")

def transferRequest (members : List (String × Json)) (publishOnchain : Bool) : RoomRequest :=
  if ¬ hasOnly members ["op", "transfer_id", "publish_onchain"] then
    .refuse "invalid_request" "attest_transfer takes `transfer_id` and `publish_onchain`."
  else if ¬ policy.allowTransferAttestations then
    .refuse "transfer_attestations_disabled" "This bridge does not attest standard transfers."
  else match normalizeTransferId ((Json.text (OrderedMap.get members "transfer_id")).getD "") with
    | some transferId => .attest (.transfer transferId) publishOnchain
    | none => .refuse "invalid_request" "`transfer_id` must be a transfer UUID."

def parseRoomRequest (host : Host) : Except Relay.Thrown RoomRequest :=
  match envelope.text with
  | none => .ok .ignore
  | some text =>
    if envelope.type ≠ "message" then .ok .ignore
    else match host.parseText text with
      | some (.object members) =>
        match Json.text (OrderedMap.get members "op") with
        | none => .ok .ignore
        | some op =>
          match publishOnchainOf (OrderedMap.get members "publish_onchain") with
          | none => .ok (.refuse "invalid_request" "`publish_onchain` must be true or false.")
          | some publishOnchain =>
            if op = "attest_room_publication" then
              publicationRequest envelope policy members publishOnchain
            else if op = "attest_transfer" then .ok (transferRequest policy members publishOnchain)
            else if op = "submit_result_for_attestation" then
              .ok (.refuse "not_attestable" ("The DON attests only what it reads from Beam. Publish the result as a " ++
                "Room transfer, then ask attest_room_publication."))
            else
              .ok (.refuse "not_an_attestation" ("This bridge only forwards attest_room_publication and " ++
                "attest_transfer. Other Room messages need no Chainlink verification."))
      | _ => .ok .ignore

end Requests
end Beam.Bridge
