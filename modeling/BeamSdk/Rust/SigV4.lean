import Mathlib.Data.List.Lex
import Mathlib.Data.List.Sort
import Mathlib.Data.Prod.Lex
import BeamSdk.Identity.Derived
import BeamSdk.Library.Cut
import BeamSdk.Library.QueryString
import BeamSdk.Rust.CivilTime
import BeamSdk.Signing.Directives

/-! Signature Version 4 as the Rust SDK signs with it: URLs that are handed to workers, and headers
for the SDK's own control calls. -/

namespace Beam.Rust.SigV4
open QueryString (Pair)
open Identity (isBlank)
open Signing (isUnreserved keptInPath)

abbrev Text := List Char

abbrev Bytes := List UInt8

def utf8 (text : Text) : Bytes := text.flatMap String.utf8EncodeChar

structure Crypto where
  sha256 : Bytes → Bytes
  hmac : Bytes → Bytes → Bytes

def unsignedPayload : Text := "UNSIGNED-PAYLOAD".toList

def maxPresignExpires : ℕ := 7 * 24 * 60 * 60 * Expiry.secondNanos

structure Credentials where
  accessKeyId : Text
  secretAccessKey : Text
  sessionToken : Option Text

structure SignableRequest where
  method : Text
  origin : Text
  host : Text
  path : Text
  query : List Pair
  headers : List Pair

structure Scope where
  region : Text
  service : Text
  time : ℤ

def uriEncode (value : Text) (keepSlash : Bool) : Text :=
    Uri.encode (if keepSlash then keptInPath else isUnreserved) value

def isWhitespace (c : Char) : Bool := isBlank c || c.toNat = 0x85

def normalizeHeaderValue (value : Text) : Text :=
  [' '].intercalate ((value.splitOnP isWhitespace).filter fun word => !word.isEmpty)

def sortKey (pair : Pair) : List ℕ ×ₗ List ℕ := toLex (Uri.octets pair.1, Uri.octets pair.2)

def sort (pairs : List Pair) : List Pair := pairs.insertionSort fun a b => sortKey a ≤ sortKey b

def canonicalQuery (query : List Pair) : Text :=
  let pairs := sort (query.map fun pair => (uriEncode pair.1 false, uriEncode pair.2 false))
  ['&'].intercalate (pairs.map fun pair => pair.1 ++ '=' :: pair.2)

/-- The names in lower case and the values without the white space around their words, `host` among
them. -/
def signedPairs (request : SignableRequest) : List Pair :=
  let headers := request.headers.map fun header =>
    (header.1.map Char.toLower, normalizeHeaderValue header.2)
  sort (headers.filter (fun header => header.1 ≠ "host".toList) ++ [("host".toList, request.host)])

def canonicalHeaders (request : SignableRequest) : Text × Text :=
  let headers := signedPairs request
  (headers.flatMap fun header => header.1 ++ ':' :: header.2 ++ ['\n'],
    [';'].intercalate (headers.map Prod.fst))

def credentialScope (scope : Scope) (date : Text) : Text :=
  date ++ '/' :: scope.region ++ '/' :: scope.service ++ "/aws4_request".toList

def canonicalRequest (method path query headers signedHeaders payload : Text) : Text :=
  method ++ '\n' :: path ++ '\n' :: query ++ '\n' :: headers ++ '\n' :: signedHeaders ++
    '\n' :: payload

def renderQuery (query : List Pair) : Text := QueryString.render isUnreserved query

section
variable (crypto : Crypto)

def signature (credentials : Credentials) (scope : Scope)
    (amzDate date canonicalRequest : Text) : Text :=
  let stringToSign := "AWS4-HMAC-SHA256\n".toList ++ amzDate ++ '\n' ::
    credentialScope scope date ++
    '\n' :: Identity.hex (crypto.sha256 (utf8 canonicalRequest))
  let dateKey := crypto.hmac (utf8 ("AWS4".toList ++ credentials.secretAccessKey)) (utf8 date)
  let regionKey := crypto.hmac dateKey (utf8 scope.region)
  let serviceKey := crypto.hmac regionKey (utf8 scope.service)
  let signingKey := crypto.hmac serviceKey (utf8 "aws4_request".toList)
  Identity.hex (crypto.hmac signingKey (utf8 stringToSign))

def Credentials.token (credentials : Credentials) : Option Text :=
    credentials.sessionToken.filter fun token => !token.isEmpty

def credential (credentials : Credentials) (scope : Scope) (date : Text) : Text :=
  credentials.accessKeyId ++ '/' :: credentialScope scope date

def presignedQuery (request : SignableRequest) (credentials : Credentials) (scope : Scope)
    (expiresIn : ℕ)
    (includeContentSha256 : Bool) : List Pair :=
  let (amzDate, date) := amzDates scope.time
  request.query ++ [("X-Amz-Algorithm".toList, "AWS4-HMAC-SHA256".toList)] ++
    (if includeContentSha256 then [("X-Amz-Content-Sha256".toList, unsignedPayload)] else []) ++
    [("X-Amz-Credential".toList, credential credentials scope date.toList),
      ("X-Amz-Date".toList, amzDate.toList),
      ("X-Amz-Expires".toList, (toString (max (expiresIn / Expiry.secondNanos) 1)).toList)] ++
    (credentials.token.map fun token => ("X-Amz-Security-Token".toList, token)).toList ++
    [("X-Amz-SignedHeaders".toList, (canonicalHeaders request).2)]

/-- Every header of the request is signed and has to be sent with the URL as it is. -/
def presign (request : SignableRequest) (credentials : Credentials) (scope : Scope) (expiresIn : ℕ)
    (includeContentSha256 : Bool) : Except String Text :=
  if maxPresignExpires < expiresIn then .error "SigV4 presigned URLs must expire within one week"
  else
    let (amzDate, date) := amzDates scope.time
    let (canonicalHeaders, signedHeaders) := canonicalHeaders request
    let query := presignedQuery request credentials scope expiresIn includeContentSha256
    let signature := signature crypto credentials scope amzDate.toList date.toList
      (canonicalRequest request.method request.path
        (canonicalQuery query) canonicalHeaders signedHeaders unsignedPayload)
    .ok (request.origin ++ request.path ++ '?' ::
      renderQuery (query ++ [("X-Amz-Signature".toList, signature)]))

def signedRequest (request : SignableRequest) (credentials : Credentials) (scope : Scope)
    (payloadSha256 : Text) :
    SignableRequest :=
  { request with headers := request.headers ++
      [("x-amz-date".toList, (amzDates scope.time).1.toList),
        ("x-amz-content-sha256".toList, payloadSha256)] ++
      (credentials.token.map fun token => ("x-amz-security-token".toList, token)).toList }

def signHeaders (request : SignableRequest) (credentials : Credentials) (scope : Scope)
    (payloadSha256 : Text) :
    Text × List Pair :=
  let (amzDate, date) := amzDates scope.time
  let signed := signedRequest request credentials scope payloadSha256
  let (canonicalHeaders, signedHeaders) := canonicalHeaders signed
  let signature := signature crypto credentials scope amzDate.toList date.toList
    (canonicalRequest request.method request.path
      (canonicalQuery request.query) canonicalHeaders signedHeaders payloadSha256)
  let headers := signed.headers ++ [("authorization".toList,
    "AWS4-HMAC-SHA256 Credential=".toList ++ credential credentials scope date.toList ++
      ", SignedHeaders=".toList ++ signedHeaders ++ ", Signature=".toList ++ signature)]
  let url := request.origin ++ request.path ++ if request.query.isEmpty then []
    else '?' :: renderQuery request.query
  (url, headers)

end

structure Received where
  method : Text
  path : Text
  query : Text
  headers : List Pair

def bytesOf (octets : List ℕ) : Bytes := octets.map UInt8.ofNat

def single (pairs : List (List ℕ × List ℕ)) (name : Text) : Option (List ℕ) :=
  match (pairs.filter fun pair => pair.1 = Uri.octets name).map Prod.snd with
  | [value] => some value
  | _ => none

def Received.values (received : Received) (name : List ℕ) : List Text :=
  (received.headers.filter fun header => Uri.octets (header.1.map Char.toLower) = name).map Prod.snd

def Received.header (received : Received) (name : List ℕ) : List ℕ :=
  name ++ 58 :: Uri.octets ([','].intercalate ((received.values name).map normalizeHeaderValue)) ++
    [10]

structure Server where
  crypto : Crypto
  accessKeyId : Text
  secretAccessKey : Text
  region : Text
  service : Text

namespace Server
variable (server : Server)

def lines (texts : List (List ℕ)) : List ℕ := [10].intercalate texts

def scope (day : List ℕ) : List ℕ :=
  [47].intercalate [day, Uri.octets server.region, Uri.octets server.service,
    Uri.octets "aws4_request".toList]

def key (day : List ℕ) : Bytes :=
  [day, Uri.octets server.region, Uri.octets server.service, Uri.octets "aws4_request".toList].foldl
    (fun key part => server.crypto.hmac key (bytesOf part))
      (bytesOf (Uri.octets ("AWS4".toList ++ server.secretAccessKey)))

def sign (amzDate day request : List ℕ) : List ℕ :=
  let stringToSign := lines [Uri.octets "AWS4-HMAC-SHA256".toList, amzDate, server.scope day,
    Uri.octets (Identity.hex (server.crypto.sha256 (bytesOf request)))]
  Uri.octets (Identity.hex (server.crypto.hmac (server.key day) (bytesOf stringToSign)))

def query (pairs : List (List ℕ × List ℕ)) : Text :=
  let escaped := sort (pairs.map fun pair =>
    (pair.1.flatMap (Uri.encodeOctet isUnreserved), pair.2.flatMap (Uri.encodeOctet isUnreserved)))
  ['&'].intercalate (escaped.map fun pair => pair.1 ++ '=' :: pair.2)

def request (received : Received) (pairs : List (List ℕ × List ℕ))
    (names payload : List ℕ) : List ℕ :=
  lines [Uri.octets received.method, Uri.octets received.path, Uri.octets (query pairs),
    (names.splitOn 59).flatMap received.header, names, payload]

/-- The day of a date, which ends before its `T`. -/
def dayOf (amzDate : List ℕ) : List ℕ := amzDate.takeWhile (· ≠ 84)

/-- A signature over the headers of the names, of which `host` is one. -/
def checks (received : Received) (pairs : List (List ℕ × List ℕ))
    (credential amzDate names payload signature : List ℕ) : Bool :=
  credential == Uri.octets server.accessKeyId ++ 47 :: server.scope (dayOf amzDate) &&
    (names.splitOn 59).contains (Uri.octets "host".toList) &&
    signature == server.sign amzDate (dayOf amzDate) (request received pairs names payload)

def decimal (octets : List ℕ) : Option ℕ :=
  let digits := octets.map Char.ofNat
  if digits.isEmpty = false ∧ digits.all Char.isDigit =
    true then some (Nat.ofDigitChars 10 digits 0) else none

def twoDigits (octets : List ℕ) : Option (ℕ × List ℕ) :=
    (decimal (octets.take 2)).map fun n => (n, octets.drop 2)

/-- The second that a date is written for; its year may have more digits than four. -/
def readDate (amzDate : List ℕ) : Option ℤ := do
  let digits := (dayOf amzDate).length - 4
  let year ← decimal (amzDate.take digits)
  let (month, rest) ← twoDigits (amzDate.drop digits)
  let (day, rest) ← twoDigits rest
  let (hour, rest) ← twoDigits (rest.drop 1)
  let (minute, rest) ← twoDigits rest
  let (second, rest) ← twoDigits rest
  let time : CivilTime := ⟨year, month, day, hour, minute, second⟩
  if rest = [90] ∧ time.Valid then return time.seconds else none

/-- A clock shows a second in which a query holds: from its date on, for its number of seconds, a
week at most. -/
def holds (amzDate expires : List ℕ) (clock : ℤ) : Bool :=
  match readDate amzDate, decimal expires with
  | some start, some seconds =>
      1 ≤ seconds && seconds ≤ 7 * 86400 && start ≤ clock && clock < start + seconds
  | _, _ => false

def acceptsQuery (received : Received) (clock : ℤ) : Bool :=
  let pairs := QueryString.read received.query
  match single pairs "X-Amz-Credential".toList, single pairs "X-Amz-Date".toList,
      single pairs "X-Amz-Expires".toList, single pairs "X-Amz-SignedHeaders".toList,
      single pairs "X-Amz-Signature".toList with
  | some credential, some amzDate, some expires, some names, some signature =>
    single pairs "X-Amz-Algorithm".toList == some (Uri.octets "AWS4-HMAC-SHA256".toList) &&
      holds amzDate expires clock &&
      server.checks received (pairs.filter fun pair => pair.1 ≠ Uri.octets "X-Amz-Signature".toList)
        credential amzDate
        names (Uri.octets unsignedPayload) signature
  | _, _, _, _, _ => false

def readAuthorization (authorization : Text) : Option (Text × Text × Text) := do
  let (before, rest) ← Cut.cut "AWS4-HMAC-SHA256 Credential=".toList authorization
  if before ≠ [] then none
  let (credential, rest) ← Cut.cut ", SignedHeaders=".toList rest
  let (names, signature) ← Cut.cut ", Signature=".toList rest
  return (credential, names, signature)

def acceptsHeaders (received : Received) : Bool :=
  match received.values (Uri.octets "authorization".toList),
    received.values (Uri.octets "x-amz-date".toList),
      received.values (Uri.octets "x-amz-content-sha256".toList) with
  | [authorization], [amzDate], [payload] =>
    match readAuthorization authorization with
    | some (credential, names, signature) =>
      server.checks received (QueryString.read received.query) (Uri.octets credential)
        (Uri.octets amzDate)
        (Uri.octets names) (Uri.octets payload) (Uri.octets signature)
    | none => false
  | _, _, _ => false

end Server

end Beam.Rust.SigV4
