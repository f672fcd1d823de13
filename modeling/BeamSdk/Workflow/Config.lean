import BeamSdk.Library.Json
import BeamSdk.Relay.Subjects

/-! The configuration of the receipts workflow, and what its schema lets through. -/

namespace Beam.Workflow
open Relay (DeploymentRoutes JobOutputRoute RoomRoute Subject)

/-- HTTP requests one execution spends on subjects; one more is kept for `GET /auth/me`. -/
def MAX_SUBJECTS : ℕ := 14

def SUBJECT_COSTS.transfer : ℕ := 1
def SUBJECT_COSTS.room : ℕ := 1
def SUBJECT_COSTS.roomRequest : ℕ := 2
def SUBJECT_COSTS.job : ℕ := 4

def subjectCost : Subject → ℕ
  | .transfer _ => SUBJECT_COSTS.transfer
  | .room _ => SUBJECT_COSTS.room
  | .roomRequest _ => SUBJECT_COSTS.roomRequest
  | .job _ => SUBJECT_COSTS.job

structure Evm where
  chainSelectorName : String
  receiptsAddress : String
  gasLimit : String
  deriving DecidableEq, Repr

def requestCost (routes : DeploymentRoutes) : ℕ :=
  if routes.jobOutput.isSome then SUBJECT_COSTS.job
  else if routes.roomDelivery.isSome then SUBJECT_COSTS.roomRequest
  else 1

structure Config where
  evm : Evm
  beamApiBaseUrl : String
  roomApiBaseUrl : String
  beamClientId : String
  reconcileIntervalMinutes : ℕ
  reconcileBatchSize : ℕ
  httpTriggerAuthorizedKeys : List String
  routes : DeploymentRoutes
  attestationReplyUrl : Option String
  interval_pos : 1 ≤ reconcileIntervalMinutes
  interval_divides : 60 % reconcileIntervalMinutes = 0
  batch_pos : 1 ≤ reconcileBatchSize
  route_of_output : routes.jobOutput.isSome → routes.roomDelivery.isSome
  batch_cost : reconcileBatchSize * requestCost routes ≤ MAX_SUBJECTS

def isHexDigit (c : Char) : Bool := Hex.isDigit c.toLower

def isAddress (value : String) : Bool := Text.tagged ['0', 'x'] 40 isHexDigit value

def isBaseUrl (value : String) : Bool :=
  let inHost (c : Char) := c ≠ '/' && !Relay.isSpace c
  let afterScheme :=
    if value.startsWith "http://" then some (value.toList.drop 7)
    else if value.startsWith "https://" then some (value.toList.drop 8)
    else none
  match afterScheme with
  | none => false
  | some rest => !(rest.takeWhile inHost).isEmpty && (rest.dropWhile inHost).all fun c =>
      !Relay.isSpace c

def baseUrl (value : Option Json) : Option String := do
  let value ← Json.text value
  if isBaseUrl value then some (String.ofList (value.toList.reverse.dropWhile (· = '/')).reverse)
    else none

def isGasLimit (value : String) : Bool :=
  match value.toList with
  | [] => false
  | c :: rest => Text.isDecimal c && c != '0' && rest.all Text.isDecimal

def address (value : Option Json) : Option String := do
  let value ← Json.text value
  if isAddress value then some value else none

def nonEmpty (value : Option Json) : Option String := do
  let value ← Json.text value
  if value = "" then none else some value

def roomId (value : Option Json) : Option String := do
  let value ← Json.text value
  let length := Text.utf16Length value.toList
  if 1 ≤ length ∧ length ≤ 128 then some value else none

def memberId (value : Option Json) : Option String := do
  let value ← Json.text value
  if Text.tagged "btr_member_".toList 26 Text.isBase32 value then some value else none

def between (least most : ℕ) : Option Json → Option ℕ
  | some (.number value) =>
    if value.den = 1 ∧ (least : ℤ) ≤ value.num ∧
      value.num ≤ (most : ℤ) then some value.num.toNat else none
  | _ => none

def nullable {α : Type} (read : Option Json → Option α) : Option Json → Option (Option α)
  | some .null => some none
  | value => (read value).map some

def strict (names : List String) : Option Json → Option (List (String × Json))
  | some (.object members) => if members.all fun member =>
      names.contains member.1 then some members else none
  | _ => none

def roomDelivery (value : Option Json) : Option RoomRoute := do
  let members ← strict ["room", "channel", "publisherMemberId"] value
  some ⟨← roomId (OrderedMap.get members "room"), ← roomId (OrderedMap.get members "channel"),
    ← memberId (OrderedMap.get members "publisherMemberId")⟩

def jobOutput (value : Option Json) : Option JobOutputRoute := do
  let members ← strict ["channel", "computeMemberId"] value
  some ⟨← roomId (OrderedMap.get members "channel"),
    ← memberId (OrderedMap.get members "computeMemberId")⟩

def evm : Json → Option Evm
  | .object members => do
    let gasLimit ← Json.text (OrderedMap.get members "gasLimit")
    if isGasLimit gasLimit then
      some ⟨← nonEmpty (OrderedMap.get members "chainSelectorName"),
        ← address (OrderedMap.get members "receiptsAddress"),
        gasLimit⟩
    else none
  | _ => none

def evms : Option Json → Option Evm
  | some (.array [value]) => evm value
  | _ => none

def addresses : Option Json → Option (List String)
  | some (.array values) => values.mapM fun value => address (some value)
  | _ => none

/-- `configSchema`; what it refuses is `none`. -/
def configSchema (config : Json) : Option Config := do
  let evm ← evms (config.member "evms")
  let beamApiBaseUrl ← baseUrl (config.member "beamApiBaseUrl")
  let roomApiBaseUrl ← baseUrl (config.member "roomApiBaseUrl")
  let beamClientId ← nonEmpty (config.member "beamClientId")
  let interval ← between 1 60 (config.member "reconcileIntervalMinutes")
  let batch ← between 1 MAX_SUBJECTS (config.member "reconcileBatchSize")
  let keys ← addresses (config.member "httpTriggerAuthorizedKeys")
  let routes : DeploymentRoutes :=
    ⟨← nullable roomDelivery (config.member "roomDelivery"),
      ← nullable jobOutput (config.member "jobOutput")⟩
  let attestationReplyUrl ← nullable baseUrl (config.member "attestationReplyUrl")
  if h : 1 ≤ interval ∧ 60 % interval = 0 ∧ 1 ≤ batch ∧
    (routes.jobOutput.isSome → routes.roomDelivery.isSome) ∧
      batch * requestCost routes ≤ MAX_SUBJECTS then
    some ⟨evm, beamApiBaseUrl, roomApiBaseUrl, beamClientId, interval, batch, keys, routes,
      attestationReplyUrl,
      h.1, h.2.1, h.2.2.1, h.2.2.2.1, h.2.2.2.2⟩
  else none

theorem requestCost_pos (routes : DeploymentRoutes) : 1 ≤ requestCost routes := by
  unfold requestCost
  split_ifs <;> decide

namespace Config
variable (config : Config)

end Config
end Beam.Workflow
