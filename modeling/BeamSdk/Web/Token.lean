import Mathlib.Data.Rat.Floor
import BeamSdk.Library.Json

/-! Beam Web Tokens: what a broker mints for one browser session and verifies again on every call.
-/

namespace Beam.Web

inductive BeamScope
  | roomsCreate
  | roomsJoin
  | roomRead
  | broadcastPublish
  | broadcastWatch
  | transfersCreate
  | transfersRead
  | transfersCancel
  deriving DecidableEq

def BeamScope.text : BeamScope → String
  | .roomsCreate => "rooms:create"
  | .roomsJoin => "rooms:join"
  | .roomRead => "room:read"
  | .broadcastPublish => "broadcast:publish"
  | .broadcastWatch => "broadcast:watch"
  | .transfersCreate => "transfers:create"
  | .transfersRead => "transfers:read"
  | .transfersCancel => "transfers:cancel"

def BEAM_SCOPES : List BeamScope :=
  [.roomsCreate, .roomsJoin, .roomRead, .broadcastPublish, .broadcastWatch, .transfersCreate,
    .transfersRead,
    .transfersCancel]

def isBeamScope (value : String) : Option BeamScope :=
    BEAM_SCOPES.find? fun scope => scope.text = value

inductive Number
  | finite (value : ℚ)
  | infinity (negative : Bool)
  | nan
  deriving DecidableEq

namespace Number

def upTo (bound : ℚ) : Number → Number
  | finite value => finite (min value bound)
  | infinity true => infinity true
  | infinity false => finite bound
  | nan => nan

def below (bound : ℚ) : Number → Bool
  | finite value => value < bound
  | infinity negative => negative
  | nan => false

def plus (start : ℚ) : Number → Number
  | finite value => finite (start + value)
  | infinity negative => infinity negative
  | nan => nan

def json : Number → Json
  | finite value => .number value
  | infinity _ | nan => .null

end Number

def MAX_TTL_SECONDS : ℕ := 300
def DEFAULT_TTL_SECONDS : ℕ := 120
def MIN_TTL_SECONDS : ℕ := 15

/-- What code of the broker, of the application or of the platform throws; `E` is what the
application throws beside the two errors of this package. -/
inductive Thrown (E : Type)
  | brokerError (message : String) (status : ℤ) (code : String)
  | beamTokenError (message code : String)
  | native (name : String)
  | application (error : E)
  deriving DecidableEq

/-- What the platform does with text, octets and numbers; `none` is a throw, or a number that is
not finite. -/
structure Platform where
  sign : String → String → String
  toBase64Url : String → String
  fromBase64Url : String → String
  parse : String → Option Json
  write : Json → String
  toNumber : String → Option ℚ
  toText : Json → Option String

section
variable {E : Type}

def assertUsableSecret (secret : String) : Except (Thrown E) Unit :=
  if Text.utf16Length secret.toList < 32 then
    .error (.beamTokenError
      "The signing secret must be at least 32 characters. Generate one with `openssl rand -hex 32`." "weak_secret")
  else .ok ()

def scopesOf (payload : Json) : Option (List BeamScope) :=
  match payload.member "scopes" with
  | some (.array items) => items.mapM fun item => (Json.text (some item)).bind isBeamScope
  | _ => none

structure BeamTokenClaims where
  payload : Json
  scopes : List BeamScope
  listed : scopesOf payload = some scopes

def BeamTokenClaims.sub (claims : BeamTokenClaims) : Option Json := claims.payload.member "sub"

def BeamTokenClaims.org (claims : BeamTokenClaims) : Option Json := claims.payload.member "org"

structure MintOptions where
  secret : String
  issuer : Option String
  audience : Option String
  subject : Option String
  organizationId : Option String
  scopes : List String
  ttlSeconds : Option Number
  origin : Option String

structure Minted where
  token : String
  payload : Json
  scopes : List String
  expiresIn : Number

/-- `now` is in milliseconds, and `jti` is the random identifier drawn. -/
def mintToken (p : Platform) (now : ℚ) (jti : String) (options : MintOptions) :
    Except (Thrown E) Minted := do
  assertUsableSecret options.secret
  let scopes := options.scopes.eraseDups
  if scopes.length = 0 then
    throw (.beamTokenError "A token must carry at least one scope." "invalid_argument")
  let invalid := scopes.filter fun scope => (isBeamScope scope).isNone
  let names := ", ".intercalate invalid
  if 0 < invalid.length then
    throw (.beamTokenError s!"Unknown scope(s): {names}." "invalid_argument")
  let ttlSeconds := (options.ttlSeconds.getD (.finite DEFAULT_TTL_SECONDS)).upTo MAX_TTL_SECONDS
  if ttlSeconds.below MIN_TTL_SECONDS then
    throw (.beamTokenError
      s!"ttlSeconds must be between {MIN_TTL_SECONDS} and {MAX_TTL_SECONDS}." "invalid_argument")
  let now : ℚ := ⌊now / 1000⌋
  let optional (name : String) (value : Option String) : List (String × Json) :=
    value.toList.map fun text => (name, .string text)
  let payload := Json.object <|
    [("v", .number 1), ("iss", .string (options.issuer.getD "beam-web-sdk-server")),
      ("aud", .string (options.audience.getD "beam-web-sdk"))] ++
    optional "sub" options.subject ++ optional "org" options.organizationId ++
    [("scopes", .array (scopes.map .string)), ("iat", .number now),
      ("exp", (ttlSeconds.plus now).json),
      ("jti", .string jti)] ++ optional "origin" options.origin
  let encoded := p.toBase64Url (p.write payload)
  return ⟨s!"bwt1.{encoded}.{p.sign options.secret encoded}", payload, scopes, ttlSeconds⟩

def atMost (bound : ℚ) : Json → Bool
  | .number value => value ≤ bound
  | .infinity negative => negative
  | _ => false

def isNumber : Json → Bool
  | .number _ | .infinity _ => true
  | _ => false

/-- `later - earlier` exceeds the bound. An infinity is here only where its difference is one. -/
def exceeds (bound : ℚ) : Json → Json → Bool
  | .number later, .number earlier => bound < later - earlier
  | _, _ => true

structure VerifyOptions where
  secret : String
  audience : String
  origin : Option String
  clockToleranceSeconds : Option ℚ

def verifyToken (p : Platform) (now : ℚ) (token : String) (options : VerifyOptions) :
    Except (Thrown E) BeamTokenClaims := do
  assertUsableSecret options.secret
  match token.toList.splitOn '.' with
  | [header, payload, signature] =>
    if header ≠ "bwt1".toList then throw (.beamTokenError "Malformed Beam token." "invalid_token")
    let payload := String.ofList payload
    if p.sign options.secret payload ≠ String.ofList signature then
      throw (.beamTokenError "Beam token signature is invalid." "invalid_token")
    match p.parse (p.fromBase64Url payload) with
    | none => throw (.beamTokenError "Beam token payload is not valid JSON." "invalid_token")
    -- a member is read of `null`
    | some .null => throw (.native "TypeError")
    | some claims =>
      match claims.member "v" with
      | some (.number 1) => pure ()
      | _ => throw (.beamTokenError "Unsupported Beam token version." "invalid_token")
      if Json.text (claims.member "aud") ≠ some options.audience then
        throw (.beamTokenError "Beam token audience mismatch." "invalid_token")
      match hscopes : scopesOf claims with
      | none => throw (.beamTokenError "Beam token carries unknown scopes." "invalid_token")
      | some scopes =>
        let now : ℚ := ⌊now / 1000⌋
        let tolerance := options.clockToleranceSeconds.getD 30
        let exp := (claims.member "exp").getD .null
        let iat := (claims.member "iat").getD .null
        if !isNumber exp || atMost (now - tolerance) exp then
          throw (.beamTokenError "Beam token has expired." "token_expired")
        if !isNumber iat || !atMost (now + tolerance) iat then
          throw (.beamTokenError "Beam token was issued in the future." "invalid_token")
        if exceeds (MAX_TTL_SECONDS + tolerance) exp iat then
          throw (.beamTokenError "Beam token lifetime exceeds the permitted maximum." "invalid_token")
        match options.origin, claims.member "origin" with
        | some origin, some bound =>
          if Json.text (some bound) ≠ some origin then
            throw (.beamTokenError "Beam token was issued for a different origin." "origin_mismatch")
        | _, _ => pure ()
        return ⟨claims, scopes, hscopes⟩
  | _ => throw (.beamTokenError "Malformed Beam token." "invalid_token")

def assertScopes (claims : BeamTokenClaims) (required : List BeamScope) : Except (Thrown E) Unit :=
  let missing := required.filter fun scope => scope ∉ claims.scopes
  let names := ", ".intercalate (missing.map BeamScope.text)
  if 0 < missing.length then
    .error (.beamTokenError
      s!"This session is missing the required scope(s): {names}." "insufficient_scope")
  else .ok ()

end
end Beam.Web
