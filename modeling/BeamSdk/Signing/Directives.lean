import BeamSdk.Library.Uri
import BeamSdk.Plan.Materialize

/-! Multipart recovery: the directive BeamCore may attach to a route it asks to be signed again, and
what each of the four SDKs signs for it. A presigned URL is the request it allows. -/

namespace Beam.Signing

inductive S3Operation
  | putObject
  | headObject
  | deleteObject
  | uploadPart (uploadID : String) (partNumber : ℤ)
  | uploadPartCopy (uploadID : String) (partNumber : ℤ) (copySource : String)
      (copySourceIfMatch : Option String)
  | completeMultipartUpload (uploadID : String)
  | abortMultipartUpload (uploadID : String)
  | listParts (uploadID : String) (maxParts : ℤ) (partNumberMarker : Option ℤ)
  | listObjectsV2 (below : String) (continuationToken : Option String) (maxKeys : ℤ)

structure Grant where
  bucket : String
  objectKey : String
  operation : S3Operation

structure S3Settings where
  provider : String
  bucket : String

def S3Settings.sign (settings : S3Settings) (objectKey : String)
    (operation : S3Operation) : Grant :=
  ⟨settings.bucket, objectKey, operation⟩

inductive ProviderDestinationConfig
  | s3Compatible (settings : S3Settings)
  | hippius (bucket : String)
  | huggingFace
  | gcs
  | azure

namespace ProviderDestinationConfig

def s3Settings? : ProviderDestinationConfig → Option S3Settings
  | s3Compatible settings => some settings
  | _ => none

def providerName : ProviderDestinationConfig → String
  | s3Compatible settings => settings.provider
  | hippius _ => "hippius"
  | huggingFace => "huggingface"
  | gcs => "gcs"
  | azure => "azure"

def isDirectPutDestination : ProviderDestinationConfig → Bool
  | hippius _ | huggingFace => true
  | _ => false

end ProviderDestinationConfig

structure MultipartRecoveryRequest where
  operation : String
  mode : String
  attemptID : String
  objectKey : Option String
  etag : Option String
  continuationToken : Option String

structure MultipartCoordinates where
  partNumber : ℤ
  multipartGroupID : String
  finalObjectKey : String
  uploadID : String
  recovery : Option MultipartRecoveryRequest

structure RenewedControls where
  completeURL : Grant
  abortURL : Grant
  finalHeadURL : Grant
  listPageURLs : List Grant
  listPageURL : Option Grant

structure RecoveryListing where
  below : String
  url : Grant

structure RecoveryDelete where
  objectKey : String
  url : Grant

structure RecoveryStaging where
  objectKey : String
  attemptID : String
  headURL : Grant
  copyURL : Grant
  deleteURL : Grant
  copySource : String
  copySourceIfMatch : Option String

inductive Recovered
  | unchanged
  | renewed (controls : RenewedControls)
  | listed (listing : RecoveryListing)
  | removed (removal : RecoveryDelete)
  | staged (staging : RecoveryStaging) (destURL : Option Grant)

def Recovered.grants : Recovered → List Grant
  | unchanged => []
  | renewed controls =>
      controls.completeURL :: controls.abortURL :: controls.finalHeadURL :: controls.listPageURLs
  | listed listing => [listing.url]
  | removed removal => [removal.url]
  | staged staging destURL =>
      staging.headURL :: staging.copyURL :: staging.deleteURL :: destURL.toList

def pageMarkers (count : ℤ) : List ℤ :=
    (List.range ((count + 999) / 1000).toNat).map fun page : ℕ => 1000 * (page : ℤ)

def isAlphanumeric (n : ℕ) : Bool := (65 ≤ n && n ≤ 90) || (97 ≤ n && n ≤ 122) || (48 ≤ n && n ≤ 57)

def isUnreserved (n : ℕ) : Bool := isAlphanumeric n || n == 45 || n == 46 || n == 95 || n == 126

def isSubDelimiter (n : ℕ) : Bool := n == 33 || n == 39 || n == 40 || n == 41 || n == 42

def keptInComponent (n : ℕ) : Bool := isUnreserved n || isSubDelimiter n

def keptInPath (n : ℕ) : Bool := isUnreserved n || n == 47

/-- `encodeURIComponent`, which the Rust SDK has a copy of. -/
def encodeURIComponent (text : String) : String :=
    String.ofList (Uri.encode keptInComponent text.toList)

def copySourceOf (bucket objectKey : String) : String :=
  encodeURIComponent bucket ++ "/"
    ++ String.ofList
      (['/'].intercalate ((objectKey.toList.splitOn '/').map (Uri.encode keptInComponent)))

def dropQuote : List Char → List Char
  | '"' :: rest => rest
  | text => text

def stripQuotes (etag : String) : String :=
    String.ofList (dropQuote (dropQuote etag.toList).reverse).reverse

def trimQuotes (etag : String) : String :=
  String.ofList ((etag.toList.dropWhile (· == '"')).reverse.dropWhile (· == '"')).reverse

namespace TypeScript

def escapeStrictly (c : Char) : List Char :=
    if isSubDelimiter c.toNat then Uri.escape c.toNat else [c]

def encodeGroup (multipartGroupID : String) : String :=
  String.ofList ((encodeURIComponent multipartGroupID).toList.flatMap escapeStrictly)

def stagingBelow (transferID : String) (r : MultipartCoordinates) : String :=
  r.finalObjectKey ++ ".beam-recovery/" ++ transferID ++ "/" ++
    encodeGroup r.multipartGroupID ++ "/"

def stagingKey (transferID : String) (r : MultipartCoordinates) (attemptID : String) : String :=
  stagingBelow transferID r ++ toString r.partNumber ++ "/" ++ attemptID

def renewal (destination : ProviderDestinationConfig) (r : MultipartCoordinates)
    (expectedPartCount : Option ℤ) :
    Except String Recovered := do
  let some count := expectedPartCount | throw "invalid multipart count"
  if count < 1 ∨ 10000 < count then throw "invalid multipart count"
  let some settings := destination.s3Settings?
    | throw ("multipart completion is not supported for " ++ destination.providerName)
  let pages := (pageMarkers count).map fun marker =>
    settings.sign r.finalObjectKey (.listParts r.uploadID 1000 (some marker))
  let page := (r.partNumber - 1) / 1000
  pure (.renewed {
    completeURL := settings.sign r.finalObjectKey (.completeMultipartUpload r.uploadID)
    abortURL := settings.sign r.finalObjectKey (.abortMultipartUpload r.uploadID)
    finalHeadURL := settings.sign r.finalObjectKey .headObject
    listPageURLs := pages
    -- An index past either end of an array reads as undefined.
    listPageURL := if 0 ≤ page then pages[page.toNat]? else none })

def staged (destination : ProviderDestinationConfig) (transferID : String)
    (r : MultipartCoordinates)
    (request : MultipartRecoveryRequest) : Except String Recovered := do
  let some settings :=
    destination.s3Settings? | throw "multipart recovery requires an S3-compatible destination"
  let objectKey := stagingKey transferID r request.attemptID
  if request.objectKey.getD "" ≠ "" ∧ request.objectKey ≠ some objectKey then
    throw "recovery staging identity mismatch"
  if request.operation = "list" then
    let below := stagingBelow transferID r
    pure (.listed ⟨below, settings.sign "" (.listObjectsV2 below request.continuationToken 1000)⟩)
  else if request.operation = "delete" then
    pure (.removed ⟨objectKey, settings.sign objectKey .deleteObject⟩)
  else
    let copySource := copySourceOf settings.bucket objectKey
    let condition :=
      if settings.provider = "s3" ∧ request.etag.getD "" ≠ "" then
        some ("\"" ++ stripQuotes (request.etag.getD "") ++ "\"")
      else none
    pure (.staged {
      objectKey
      attemptID := request.attemptID
      headURL := settings.sign objectKey .headObject
      copyURL :=
        settings.sign r.finalObjectKey
          (.uploadPartCopy r.uploadID r.partNumber copySource condition)
      deleteURL := settings.sign objectKey .deleteObject
      copySource
      copySourceIfMatch := condition }
      (if request.operation = "upload" then some (settings.sign objectKey .putObject) else none))

def signMultipartRecovery (destination : ProviderDestinationConfig) (transferID : String)
    (r : MultipartCoordinates)
    (expectedPartCount : Option ℤ) : Except String Recovered :=
  match r.recovery with
  | none => pure .unchanged
  | some request =>
    if request.operation = "renew" then renewal destination r expectedPartCount
    else if request.mode = "direct" then pure .unchanged
    else staged destination transferID r request

end TypeScript

def isHexDigit (c : Char) : Bool := (Uri.hexValue c).isSome

def hexRuns : List ℕ → List Char → Bool
  | [], text => text.isEmpty
  | [length], text => text.length == length && text.all isHexDigit
  | length :: lengths, text =>
    (text.take length).length == length && (text.take length).all isHexDigit
      && (text.drop length).head? == some '-' && hexRuns lengths (text.drop (length + 1))

namespace Go

/-- `(?i)^[0-9a-f]{8}-[0-9a-f]{4}-[0-9a-f]{4}-[0-9a-f]{4}-[0-9a-f]{12}$`. -/
def recoveryAttemptIDPattern (attemptID : String) : Bool :=
    hexRuns [8, 4, 4, 4, 12] attemptID.toList

def queryEscapeOctet (n : ℕ) : List Char := if n = 32 then ['+'] else Uri.encodeOctet isUnreserved n

def plusToSpace (c : Char) : List Char := if c = '+' then ['%', '2', '0'] else [c]

def encodeGroup (multipartGroupID : String) : String :=
  String.ofList
    (((Uri.octets multipartGroupID.toList).flatMap queryEscapeOctet).flatMap plusToSpace)

def keptInSegment (n : ℕ) : Bool :=
    isUnreserved n || n == 36 || n == 38 || n == 43 || n == 58 || n == 61 || n == 64

def pathEscape (text : String) : String := String.ofList (Uri.encode keptInSegment text.toList)

/-- `httpbinding.EscapePath` without the separators. -/
def escapeS3Key (text : String) : String := String.ofList (Uri.encode keptInPath text.toList)

def stagingBelow (transferID : String) (r : MultipartCoordinates) : String :=
  r.finalObjectKey ++ ".beam-recovery/" ++ transferID ++ "/" ++
    encodeGroup r.multipartGroupID ++ "/"

def stagingKey (transferID : String) (r : MultipartCoordinates) (attemptID : String) : String :=
  stagingBelow transferID r ++ toString r.partNumber ++ "/" ++ attemptID

def partNumberMarker (marker : ℤ) : Option ℤ := if 0 < marker then some marker else none

def renewal (destination : ProviderDestinationConfig) (r : MultipartCoordinates)
    (expectedPartCount : Option ℤ) :
    Except String Recovered := do
  let count := expectedPartCount.getD 0
  if count < 1 ∨ Plan.multipartMaxPartNumber < count then throw "invalid multipart count"
  if r.partNumber < 1 ∨
    count < r.partNumber then throw "recovery part number is outside the multipart group"
  let some settings := destination.s3Settings?
    | throw ("multipart completion is not supported for " ++ destination.providerName)
  let pages := (pageMarkers count).map fun marker =>
    settings.sign r.finalObjectKey (.listParts r.uploadID 1000 (partNumberMarker marker))
  pure (.renewed {
    completeURL := settings.sign r.finalObjectKey (.completeMultipartUpload r.uploadID)
    abortURL := settings.sign r.finalObjectKey (.abortMultipartUpload r.uploadID)
    finalHeadURL := settings.sign r.finalObjectKey .headObject
    listPageURLs := pages
    listPageURL := pages[((r.partNumber - 1) / 1000).toNat]? })

def staged (destination : ProviderDestinationConfig) (transferID : String)
    (r : MultipartCoordinates)
    (request : MultipartRecoveryRequest) : Except String Recovered := do
  let some settings :=
    destination.s3Settings? | throw "multipart recovery requires an S3-compatible destination"
  if request.mode ≠ "staged" ∨ recoveryAttemptIDPattern request.attemptID =
    false then throw "invalid staging attempt"
  let below := stagingBelow transferID r
  let key := stagingKey transferID r request.attemptID
  if request.objectKey.getD "" ≠ "" ∧ request.objectKey.getD "" ≠ key then
    throw "recovery staging identity mismatch"
  if request.operation = "list" then
    -- An empty token is the same as none.
    let token := if request.continuationToken.getD "" = "" then none else request.continuationToken
    pure (.listed ⟨below, settings.sign "" (.listObjectsV2 below token 1000)⟩)
  else if request.operation = "delete" then
    pure (.removed ⟨key, settings.sign key .deleteObject⟩)
  else if request.operation ≠ "upload" ∧ request.operation ≠ "controls" then
    throw "unsupported recovery operation"
  else
    let copySource := pathEscape settings.bucket ++ "/" ++ escapeS3Key key
    let condition :=
      if settings.provider = "s3" ∧ request.etag.getD "" ≠ "" then
        some ("\"" ++ trimQuotes (request.etag.getD "") ++ "\"")
      else none
    pure (.staged {
      objectKey := key
      attemptID := request.attemptID
      headURL := settings.sign key .headObject
      copyURL :=
        settings.sign r.finalObjectKey
          (.uploadPartCopy r.uploadID r.partNumber copySource condition)
      deleteURL := settings.sign key .deleteObject
      copySource
      copySourceIfMatch := condition }
      (if request.operation = "upload" then some (settings.sign key .putObject) else none))

def signMultipartRecovery (destination : ProviderDestinationConfig) (transferID : String)
    (r : MultipartCoordinates)
    (expectedPartCount : Option ℤ) : Except String Recovered :=
  match r.recovery with
  | none => pure .unchanged
  | some request =>
    if request.operation = "renew" then renewal destination r expectedPartCount
    else if request.mode = "direct" then pure .unchanged
    else staged destination transferID r request

end Go

namespace Rust

inductive MultipartRecoveryOperation
  | upload
  | controls
  | list
  | delete
  | renew
deriving DecidableEq

inductive MultipartRecoveryMode
  | staged
  | direct
deriving DecidableEq

def decodeOperation : String → Option MultipartRecoveryOperation
  | "upload" => some .upload
  | "controls" => some .controls
  | "list" => some .list
  | "delete" => some .delete
  | "renew" => some .renew
  | _ => none

def decodeMode : String → Option MultipartRecoveryMode
  | "staged" => some .staged
  | "direct" => some .direct
  | _ => none

def isHyphenatedUUID (value : String) : Bool := hexRuns [8, 4, 4, 4, 12] value.toList

def encodeGroup (multipartGroupID : String) : String :=
    String.ofList (Uri.encode isUnreserved multipartGroupID.toList)

def multipartRecoveryPrefix (transferID : String) (r : MultipartCoordinates) : String :=
  r.finalObjectKey ++ ".beam-recovery/" ++ transferID ++ "/" ++
    encodeGroup r.multipartGroupID ++ "/"

def stagingKey (transferID : String) (r : MultipartCoordinates) (attemptID : String) : String :=
  multipartRecoveryPrefix transferID r ++ toString r.partNumber ++ "/" ++ attemptID

def renewal (destination : ProviderDestinationConfig) (r : MultipartCoordinates)
    (expectedPartCount : Option ℤ) :
    Except String Recovered := do
  let some settings := destination.s3Settings?
    | throw ("multipart recovery renewal is not supported for " ++ destination.providerName)
  let some count := expectedPartCount.filter fun count => 1 ≤ count ∧
    count ≤ Plan.multipartMaxPartNumber
    | throw "invalid multipart count"
  let pages := (pageMarkers count).map fun marker =>
    settings.sign r.finalObjectKey (.listParts r.uploadID 1000 (some marker))
  -- Part number 0 has no page, and neither has one past the last.
  let some page := if 1 ≤ r.partNumber then pages[((r.partNumber - 1) / 1000).toNat]? else none
    | throw "invalid multipart part number"
  pure (.renewed {
    completeURL := settings.sign r.finalObjectKey (.completeMultipartUpload r.uploadID)
    abortURL := settings.sign r.finalObjectKey (.abortMultipartUpload r.uploadID)
    finalHeadURL := settings.sign r.finalObjectKey .headObject
    listPageURLs := pages
    listPageURL := some page })

def staged (destination : ProviderDestinationConfig) (transferID : String)
    (r : MultipartCoordinates)
    (request : MultipartRecoveryRequest) (operation : MultipartRecoveryOperation) :
      Except String Recovered := do
  let some settings :=
    destination.s3Settings? | throw "multipart recovery requires an S3-compatible destination"
  if isHyphenatedUUID request.attemptID = false then throw "invalid staging attempt"
  let below := multipartRecoveryPrefix transferID r
  let objectKey := stagingKey transferID r request.attemptID
  if request.objectKey.getD "" ≠ "" ∧ request.objectKey.getD "" ≠ objectKey then
    throw "recovery staging identity mismatch"
  match operation with
  | .list =>
    let token := request.continuationToken.filter fun token => token ≠ ""
    pure (.listed ⟨below, settings.sign "" (.listObjectsV2 below token 1000)⟩)
  | .delete => pure (.removed ⟨objectKey, settings.sign objectKey .deleteObject⟩)
  -- Renewal has been handled before.
  | .upload | .controls | .renew =>
    let copySource := copySourceOf settings.bucket objectKey
    let condition :=
      (request.etag.filter fun etag => settings.provider = "s3" ∧ etag ≠ "").map fun etag =>
      "\"" ++ stripQuotes etag ++ "\""
    pure (.staged {
      objectKey
      attemptID := request.attemptID
      headURL := settings.sign objectKey .headObject
      copyURL :=
        settings.sign r.finalObjectKey
          (.uploadPartCopy r.uploadID r.partNumber copySource condition)
      deleteURL := settings.sign objectKey .deleteObject
      copySource
      copySourceIfMatch := condition }
      (if operation = .upload then some (settings.sign objectKey .putObject) else none))

/-- What the request is decoded into comes first: its number is unsigned, and its operation and
mode are enumerations. -/
def signMultipartRecovery (destination : ProviderDestinationConfig) (transferID : String)
    (r : MultipartCoordinates)
    (expectedPartCount : Option ℤ) : Except String Recovered := do
  if r.partNumber < 0 then throw "invalid route recovery request"
  match r.recovery with
  | none => pure .unchanged
  | some request =>
    let some operation := decodeOperation request.operation | throw "invalid route recovery request"
    let some mode := decodeMode request.mode | throw "invalid route recovery request"
    if operation = .renew then renewal destination r expectedPartCount
    else if mode = .direct then pure .unchanged
    else staged destination transferID r request operation

end Rust

namespace Python
variable (unicode : Char → Char)

/-- `text.replace(pattern, "")`, with the characters of a match still to pass over. -/
def removeAll (pattern : List Char) : ℕ → List Char → List Char
  | _, [] => []
  | skip + 1, _ :: rest => removeAll pattern skip rest
  | 0, c :: rest =>
    if pattern.isPrefixOf (c :: rest) then removeAll pattern (pattern.length - 1) rest
    else c :: removeAll pattern 0 rest

def strip (drops : Char → Bool) (text : List Char) : List Char :=
  ((text.dropWhile drops).reverse.dropWhile drops).reverse

def isSpace (c : Char) : Bool := c = ' ' || (9 ≤ c.toNat && c.toNat ≤ 13)

def hexDigits : Bool → List Char → Bool
  | afterDigit, [] => afterDigit
  | afterDigit, c :: rest =>
    if isHexDigit c then hexDigits true rest
    else if c = '_' then afterDigit && hexDigits false rest
    else afterDigit && (c :: rest).all isSpace

def dropSign : List Char → List Char
  | '+' :: rest | '-' :: rest => rest
  | text => text

def dropRadix : List Char → List Char
  | '0' :: 'x' :: '_' :: rest | '0' :: 'X' :: '_' :: rest | '0' :: 'x' :: rest |
      '0' :: 'X' :: rest => rest
  | text => text

/-- `int(text, 16)` has a value. A character past ASCII is read as `unicode` has it: white space, a
decimal digit or a character that is no digit. -/
def readsHex (text : List Char) : Bool :=
  let text := (text.map fun c => if c.toNat < 128 then c else unicode c).dropWhile isSpace
  hexDigits false (dropRadix (dropSign text))

def acceptsUUID (text : String) : Bool :=
  let hex := removeAll "uuid:".toList 0 (removeAll "urn:".toList 0 text.toList)
  let hex := (strip (fun c => c = '{' || c = '}') hex).filter fun c => c ≠ '-'
  hex.length == 32 && readsHex unicode hex

def encodeGroup (multipartGroupID : String) : String :=
    String.ofList (Uri.encode isUnreserved multipartGroupID.toList)

/-- Botocore's spelling of a copy source, and that of the header the SDK returns beside it. -/
def quotePath (text : String) : String := String.ofList (Uri.encode keptInPath text.toList)

def stagingBelow (transferID : String) (r : MultipartCoordinates) : String :=
  r.finalObjectKey ++ ".beam-recovery/" ++ transferID ++ "/" ++
    encodeGroup r.multipartGroupID ++ "/"

def stagingKey (transferID : String) (r : MultipartCoordinates) (attemptID : String) : String :=
  stagingBelow transferID r ++ toString r.partNumber ++ "/" ++ attemptID

def className : ProviderDestinationConfig → String
  | .s3Compatible _ => "<class 'beam_network_sdk.models.S3CompatibleProviderDestination'>"
  | .hippius _ => "<class 'beam_network_sdk.models.HippiusProviderDestination'>"
  | .huggingFace => "<class 'beam_network_sdk.models.HuggingFaceProviderDestination'>"
  | .gcs => "<class 'beam_network_sdk.models.GCSProviderDestination'>"
  | .azure => "<class 'beam_network_sdk.models.AzureProviderDestination'>"

/-- `items[index]`, counted from the end below zero. -/
def item {α : Type*} (items : List α) (index : ℤ) : Option α :=
  if 0 ≤ index then items[index.toNat]?
  else if -(items.length : ℤ) ≤ index then items[(index + items.length).toNat]?
  else none

def renewal (destination : ProviderDestinationConfig) (r : MultipartCoordinates)
    (expectedPartCount : Option ℤ) :
    Except String Recovered := do
  let some count := expectedPartCount | throw "expected_part_count"
  if count < 1 ∨ 10000 < count then throw "invalid multipart count"
  let some settings := destination.s3Settings?
    | throw ("multipart list-parts is not supported for destination: " ++ className destination)
  let pages := (pageMarkers count).map fun marker =>
    settings.sign r.finalObjectKey (.listParts r.uploadID 1000 (some marker))
  let some page := item pages ((r.partNumber - 1) / 1000) | throw "list index out of range"
  pure (.renewed {
    completeURL := settings.sign r.finalObjectKey (.completeMultipartUpload r.uploadID)
    abortURL := settings.sign r.finalObjectKey (.abortMultipartUpload r.uploadID)
    finalHeadURL := settings.sign r.finalObjectKey .headObject
    listPageURLs := pages
    listPageURL := some page })

def staged (destination : ProviderDestinationConfig) (transferID : String)
    (r : MultipartCoordinates)
    (request : MultipartRecoveryRequest) : Except String Recovered := do
  let some settings :=
    destination.s3Settings? | throw "multipart recovery requires an S3-compatible destination"
  if acceptsUUID unicode request.attemptID = false then throw "badly formed hexadecimal UUID string"
  if request.operation ∉ ["upload", "controls", "list", "delete"] then
    throw "unsupported recovery operation"
  let below := stagingBelow transferID r
  let objectKey := stagingKey transferID r request.attemptID
  if request.objectKey.getD objectKey ≠ objectKey then throw "recovery staging identity mismatch"
  if request.operation = "list" then
    let token := request.continuationToken.filter fun token => token ≠ ""
    pure (.listed ⟨below, settings.sign "" (.listObjectsV2 below token 1000)⟩)
  else if request.operation = "delete" then
    pure (.removed ⟨objectKey, settings.sign objectKey .deleteObject⟩)
  else
    let copySource := quotePath (settings.bucket ++ "/" ++ objectKey)
    let condition :=
      if settings.provider = "s3" ∧ request.etag.getD "" ≠ "" then
        some ("\"" ++ trimQuotes (request.etag.getD "") ++ "\"")
      else none
    pure (.staged {
      objectKey
      attemptID := request.attemptID
      headURL := settings.sign objectKey .headObject
      copyURL :=
        settings.sign r.finalObjectKey
          (.uploadPartCopy r.uploadID r.partNumber copySource condition)
      deleteURL := settings.sign objectKey .deleteObject
      copySource
      copySourceIfMatch := condition }
      (if request.operation = "upload" then some (settings.sign objectKey .putObject) else none))

def signMultipartRecovery (destination : ProviderDestinationConfig) (transferID : String)
    (r : MultipartCoordinates)
    (expectedPartCount : Option ℤ) : Except String Recovered :=
  match r.recovery with
  | none => pure .unchanged
  | some request =>
    if request.operation = "renew" then renewal destination r expectedPartCount
    else if request.mode = "direct" then pure .unchanged
    else staged unicode destination transferID r request

end Python

end Beam.Signing
