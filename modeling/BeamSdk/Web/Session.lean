import BeamSdk.Library.Result
import BeamSdk.Web.Gate

/-! The token of a session, from the broker that mints it to the verification that reads it again:
how long it is accepted, what it says, and what is not accepted in its place. -/

namespace Beam.Web

theorem Number.upTo_ne_infinity (bound : ℚ) (n : Number) : n.upTo bound ≠ .infinity false := by
  cases n with
  | infinity negative => cases negative <;> exact nofun
  | _ => exact nofun

theorem Number.upTo_le {bound value : ℚ} {n : Number} (h : n.upTo bound = .finite value) :
    value ≤ bound := by
  cases n with
  | finite set =>
    cases h
    exact min_le_right set bound
  | infinity negative =>
    cases negative <;> cases h
    exact le_rfl
  | nan => cases h

def signed (p : Platform) (secret encoded : String) : String :=
    s!"bwt1.{encoded}.{p.sign secret encoded}"

/-- What is assumed of the platform: no dot in what it encodes or signs, and no two texts with one
signature. -/
structure Platform.Signs (p : Platform) : Prop where
  encoded : ∀ text, '.' ∉ (p.toBase64Url text).toList
  signature : ∀ secret text, '.' ∉ (p.sign secret text).toList
  injective : ∀ secret, Function.Injective (p.sign secret)

def Platform.Keeps (p : Platform) (value : Json) : Prop :=
  p.parse (p.fromBase64Url (p.toBase64Url (p.write value))) = some value

/-- A signature in what is presented is right only where the holder of the secret has signed the
payload. -/
def Unforged (p : Platform) (secret : String) (issued : Set String) (presented : String) : Prop :=
  ∀ header encoded signature, presented.toList.splitOn '.' = [header, encoded, signature] →
    p.sign secret (String.ofList encoded) = String.ofList signature → String.ofList encoded ∈ issued

def Carries (p : Platform) (token : String) (payload : Json) : Prop :=
  ∃ header encoded signature, token.toList.splitOn '.' = [header, encoded, signature] ∧
    p.parse (p.fromBase64Url (String.ofList encoded)) = some payload

section
variable (E : Type) (p : Platform)

def Accepted (now : ℚ) (token : String) (options : VerifyOptions) : Prop :=
  ∃ claims, (verifyToken p now token options : Except (Thrown E) BeamTokenClaims) = .ok claims

end

theorem toList_signed (p : Platform) (secret encoded : String) :
    (signed p secret encoded).toList = "bwt1".toList ++ '.' ::
      (encoded.toList ++ '.' :: (p.sign secret encoded).toList) := by
  show ("bwt1." ++ encoded ++ "." ++ p.sign secret encoded).toList = _
  simp [String.toList_append]

theorem splitOn_signed {p : Platform} (hsigns : p.Signs) {encoded : String}
    (hencoded : '.' ∉ encoded.toList)
    (secret : String) :
    (signed p secret encoded).toList.splitOn '.' =
      ["bwt1".toList, encoded.toList, (p.sign secret encoded).toList] := by
  have hsignature := hsigns.signature secret encoded
  rw [toList_signed, List.splitOn_append_cons_self_of_not_mem (by decide),
    List.splitOn_append_cons_self_of_not_mem hencoded,
    List.splitOn_eq_singleton hsignature]

theorem eq_signed_of_splitOn {p : Platform} {secret token : String} {encoded : List Char}
    (h : token.toList.splitOn '.' =
      ["bwt1".toList, encoded, (p.sign secret (String.ofList encoded)).toList]) :
    token = signed p secret (String.ofList encoded) := by
  have hjoined : ['.'].intercalate (token.toList.splitOn '.') = token.toList :=
    List.intercalate_splitOn '.'
  rw [h] at hjoined
  apply String.toList_inj.mp
  rw [toList_signed, ← hjoined, String.toList_ofList]
  simp [List.intercalate]

section
variable {E : Type} {p : Platform} {now : ℚ} {token : String} {o : VerifyOptions}

structure Current (payload : Json) (now : ℚ) (o : VerifyOptions) : Prop where
  expiry : isNumber ((payload.member "exp").getD .null) = true
  alive : atMost (⌊now / 1000⌋ - o.clockToleranceSeconds.getD 30)
    ((payload.member "exp").getD .null) = false
  issue : isNumber ((payload.member "iat").getD .null) = true
  begun : atMost (⌊now / 1000⌋ + o.clockToleranceSeconds.getD 30)
    ((payload.member "iat").getD .null) = true
  bounded : exceeds (MAX_TTL_SECONDS + o.clockToleranceSeconds.getD 30)
    ((payload.member "exp").getD .null)
    ((payload.member "iat").getD .null) = false
  origin : ∀ origin ∈ o.origin, ∀ bound ∈ payload.member "origin",
    Json.text (some bound) = some origin

theorem verifyToken_signed {claims : BeamTokenClaims}
    (h : (verifyToken p now token o : Except (Thrown E) BeamTokenClaims) = .ok claims) :
    ∃ encoded, token.toList.splitOn '.' =
        ["bwt1".toList, encoded, (p.sign o.secret (String.ofList encoded)).toList] ∧
      p.parse (p.fromBase64Url (String.ofList encoded)) = some claims.payload ∧
        Current claims.payload now o := by
  unfold verifyToken at h
  obtain ⟨-, -, h⟩ := bind_eq_ok.mp h
  split at h
  · rename_i header encoded signature hsplit
    obtain ⟨hheader, h⟩ := guard_eq_ok.mp h
    obtain ⟨hsignature, h⟩ := guard_eq_ok.mp h
    refine ⟨encoded, ?_⟩
    split at h
    · cases h
    · cases h
    rename_i payload _ hparse
    simp only [bind, Except.bind, pure, Except.pure, throw, throwThe, MonadExceptOf.throw] at h
    split at h
    · split at h
      · cases h
      split at h
      · cases h
      split at h
      · cases h
      rename_i hexp
      split at h
      · cases h
      rename_i hiat
      split at h
      · cases h
      rename_i hbounded
      have hcurrent : (∀ origin ∈ o.origin, ∀ bound ∈ payload.member "origin",
          Json.text (some bound) = some origin) →
          Current payload now o := fun horigin => by
        simp only [Bool.not_eq_true, Bool.or_eq_false_iff, Bool.not_eq_false'] at hexp hiat hbounded
        exact ⟨hexp.1, hexp.2, hiat.1, hiat.2, hbounded, horigin⟩
      have hheader : header = "bwt1".toList := not_not.mp hheader
      have hsignature : signature = (p.sign o.secret (String.ofList encoded)).toList := by
        rw [not_not.mp hsignature, String.toList_ofList]
      rw [hsplit, hheader, ← hsignature]
      split at h
      · rename_i origin bound horigin hbound
        split at h
        · cases h
        rename_i hsame
        cases h
        refine ⟨rfl, hparse, hcurrent ?_⟩
        rw [horigin, hbound]
        intro _ ho _ hb
        cases ho
        cases hb
        exact not_not.mp hsame
      · rename_i hfree
        cases h
        exact ⟨rfl, hparse, hcurrent fun origin ho bound hb => absurd hb (hfree origin bound ho)⟩
    · cases h
  · cases h

theorem verifyToken_of_current {encoded : List Char} {payload : Json} {scopes : List BeamScope}
    (hsecret : 32 ≤ Text.utf16Length o.secret.toList)
    (hsplit : token.toList.splitOn '.' =
      ["bwt1".toList, encoded, (p.sign o.secret (String.ofList encoded)).toList])
    (hparse : p.parse (p.fromBase64Url (String.ofList encoded)) = some payload)
    (hversion : payload.member "v" = some (.number 1))
    (haudience : payload.member "aud" = some (.string o.audience))
    (hlisted : scopesOf payload = some scopes) (hcurrent : Current payload now o) :
    (verifyToken p now token o : Except (Thrown E) BeamTokenClaims) =
      .ok ⟨payload, scopes, hlisted⟩ := by
  unfold verifyToken
  rw [assertUsableSecret, if_neg (Nat.not_lt.mpr hsecret), hsplit]
  simp only [bind, Except.bind, pure, Except.pure, throw, throwThe, MonadExceptOf.throw,
    String.ofList_toList, ne_eq,
    not_true_eq_false, if_false]
  obtain ⟨members, rfl⟩ : ∃ members, payload = .object members := by
    cases payload with
    | object members => exact ⟨members, rfl⟩
    | _ => cases hversion
  have htext : Json.text (some (.string o.audience)) = some o.audience := rfl
  rw [hparse]
  simp only [hversion, haudience, htext, not_true_eq_false, if_false]
  split
  · split
    · rename_i hnone
      cases hnone.symm.trans hlisted
    · rename_i found hfound
      cases hfound.symm.trans hlisted
      rw [hcurrent.expiry, hcurrent.alive, hcurrent.issue, hcurrent.begun, hcurrent.bounded]
      simp only [Bool.not_true, Bool.or_self, Bool.false_eq_true, if_false]
      split
      · rename_i origin bound horigin hbound
        exact if_neg (not_not.mpr (hcurrent.origin origin horigin bound hbound))
      · rfl
  · rename_i hother
    exact absurd rfl hother

def MintOptions.lifetime (options : MintOptions) : Number :=
  (options.ttlSeconds.getD (.finite DEFAULT_TTL_SECONDS)).upTo MAX_TTL_SECONDS

def MintOptions.optional (name : String) (value : Option String) : List (String × Json) :=
  value.toList.map fun text => (name, .string text)

def MintOptions.payload (options : MintOptions) (now : ℚ) (jti : String) : Json := .object <|
  [("v", .number 1), ("iss", .string (options.issuer.getD "beam-web-sdk-server")),
    ("aud", .string (options.audience.getD "beam-web-sdk"))] ++
  optional "sub" options.subject ++ optional "org" options.organizationId ++
  [("scopes", .array (options.scopes.eraseDups.map .string)), ("iat", .number ⌊now / 1000⌋),
    ("exp", (options.lifetime.plus ⌊now / 1000⌋).json), ("jti", .string jti)] ++
      optional "origin" options.origin

variable {options : MintOptions} {jti : String}

theorem mintToken_ok {minted : Minted}
    (h : (mintToken p now jti options : Except (Thrown E) Minted) = .ok minted) :
    32 ≤ Text.utf16Length options.secret.toList ∧
      (∀ scope ∈ options.scopes, (isBeamScope scope).isSome) ∧
      options.lifetime.below MIN_TTL_SECONDS = false ∧
      minted.token = signed p options.secret
        (p.toBase64Url (p.write (options.payload now jti))) := by
  unfold mintToken at h
  obtain ⟨_, hsecret, h⟩ := bind_eq_ok.mp h
  obtain ⟨-, h⟩ := guard_eq_ok.mp h
  obtain ⟨hknown, h⟩ := guard_eq_ok.mp h
  obtain ⟨hleast, h⟩ := guard_eq_ok.mp h
  cases h
  refine ⟨?_, ?_, Bool.not_eq_true _ ▸ hleast, rfl⟩
  · unfold assertUsableSecret at hsecret
    split at hsecret
    · cases hsecret
    · exact Nat.not_lt.mp ‹_›
  · intro scope hscope
    have hnone :=
      List.filter_eq_nil_iff.mp
        (List.length_eq_zero_iff.mp (Nat.not_lt.mp hknown |> Nat.le_zero.mp))
    have hscope := hnone scope (List.mem_eraseDups.mpr hscope)
    rwa [Option.isNone_iff_eq_none, ← Option.ne_none_iff_isSome] at *

structure States (payload : Json) (o : MintOptions) (scopes : List BeamScope) (iat : ℚ)
    (exp : Json) : Prop where
  version : payload.member "v" = some (.number 1)
  audience : payload.member "aud" = some (.string (o.audience.getD "beam-web-sdk"))
  subject : payload.member "sub" = o.subject.map .string
  organizationId : payload.member "org" = o.organizationId.map .string
  listed : scopesOf payload = some scopes
  issued : payload.member "iat" = some (.number iat)
  expires : payload.member "exp" = some exp
  origin : payload.member "origin" = o.origin.map .string

theorem scopesOf_listed {names : List String}
    (hknown : ∀ scope ∈ names, (isBeamScope scope).isSome) :
    ∃ scopes, (names.map Json.string).mapM (fun item => (Json.text (some item)).bind isBeamScope) =
      some scopes ∧
      scopes.map BeamScope.text = names := by
  induction names with
  | nil => exact ⟨[], rfl, rfl⟩
  | cons name names ih =>
    obtain ⟨scope, hscope⟩ := Option.isSome_iff_exists.mp (hknown name (List.mem_cons_self ..))
    obtain ⟨scopes, hscopes, hnames⟩ := ih fun other hother =>
      hknown other (List.mem_cons_of_mem _ hother)
    have hname : scope.text = name := by simpa [isBeamScope] using List.find?_some hscope
    have hread : (Json.text (some (.string name))).bind isBeamScope = some scope := hscope
    refine ⟨scope :: scopes, ?_, by rw [List.map_cons, hname, hnames]⟩
    rw [List.map_cons, List.mapM_cons, hread, hscopes]
    rfl

theorem payload_states (now : ℚ) (jti : String)
    (hknown : ∀ scope ∈ options.scopes, (isBeamScope scope).isSome) :
    ∃ scopes, scopes.map BeamScope.text = options.scopes.eraseDups ∧
      States (options.payload now jti) options scopes ⌊now /
        1000⌋ (options.lifetime.plus ⌊now / 1000⌋).json := by
  obtain ⟨scopes, hscopes, hnames⟩ :=
    scopesOf_listed fun scope (hscope : scope ∈ options.scopes.eraseDups) =>
      hknown scope (List.mem_eraseDups.mp hscope)
  have hlist : (options.payload now jti).member "scopes" =
      some (.array (options.scopes.eraseDups.map .string)) := by
    cases hs : options.subject <;> cases ho : options.organizationId <;>
      simp [MintOptions.payload, MintOptions.optional, Json.member, OrderedMap.get, hs, ho]
  refine ⟨scopes, hnames, ?_⟩
  constructor
  case listed =>
    rw [scopesOf, hlist]
    exact hscopes
  all_goals
    cases hs : options.subject <;> cases ho : options.organizationId <;> cases hb :
      options.origin <;>
      simp [MintOptions.payload, MintOptions.optional, Json.member, OrderedMap.get, hs, ho, hb]

variable {payload exp : Json} {scopes : List BeamScope} {iat : ℚ}

theorem verifyToken_of_signed {claims : BeamTokenClaims} (hsigns : p.Signs)
    (hkeeps : p.Keeps payload)
    (h : (verifyToken p now (signed p o.secret (p.toBase64Url (p.write payload))) o : Except
      (Thrown E) BeamTokenClaims) =
      .ok claims) :
    claims.payload = payload ∧ Current payload now o := by
  obtain ⟨encoded, hsplit, hparse, hcurrent⟩ := verifyToken_signed h
  rw [splitOn_signed hsigns (hsigns.encoded _)] at hsplit
  have hencoded : encoded = (p.toBase64Url (p.write payload)).toList := by
    injection hsplit with _ hsplit
    injection hsplit with hsplit
    exact hsplit.symm
  rw [hencoded, String.ofList_toList, hkeeps] at hparse
  have hpayload : claims.payload = payload := (Option.some.inj hparse).symm
  exact ⟨hpayload, hpayload ▸ hcurrent⟩

theorem carries_signed {other : Json} {secret : String} (hsigns : p.Signs)
    (hkeeps : p.Keeps payload) :
    Carries p (signed p secret (p.toBase64Url (p.write payload))) other ↔ other = payload := by
  unfold Carries
  rw [splitOn_signed hsigns (hsigns.encoded _)]
  constructor
  · rintro ⟨header, encoded, signature, hsplit, hparse⟩
    cases hsplit
    rw [String.ofList_toList, hkeeps] at hparse
    exact (Option.some.inj hparse).symm
  · rintro rfl
    refine ⟨_, _, _, rfl, ?_⟩
    rw [String.ofList_toList]
    exact hkeeps

theorem accepted_iff (hsigns : p.Signs) (hkeeps : p.Keeps payload)
    (hsecret : 32 ≤ Text.utf16Length o.secret.toList)
    (hstates : States payload options scopes iat exp)
    (haudience : options.audience.getD "beam-web-sdk" = o.audience) :
    Accepted E p now (signed p o.secret (p.toBase64Url (p.write payload))) o ↔
      Current payload now o := by
  constructor
  · rintro ⟨claims, hclaims⟩
    exact (verifyToken_of_signed hsigns hkeeps hclaims).2
  · intro hcurrent
    have hsplit : (signed p o.secret (p.toBase64Url (p.write payload))).toList.splitOn '.' =
        ["bwt1".toList,
        (p.toBase64Url (p.write payload)).toList,
        (p.sign o.secret (String.ofList (p.toBase64Url (p.write payload)).toList)).toList] := by
      rw [String.ofList_toList]
      exact splitOn_signed hsigns (hsigns.encoded (p.write payload)) o.secret
    have hparse :
        p.parse (p.fromBase64Url (String.ofList (p.toBase64Url (p.write payload)).toList)) =
          some payload := by
      rw [String.ofList_toList]
      exact hkeeps
    have haud : payload.member "aud" = some (.string o.audience) := by
      rw [hstates.audience, haudience]
    exact ⟨_,
      verifyToken_of_current hsecret hsplit hparse hstates.version haud hstates.listed hcurrent⟩

theorem not_current_of_null (hstates : States payload options scopes iat .null) :
    ¬ Current payload now o := by
  intro hcurrent
  have hexpiry := hcurrent.expiry
  rw [hstates.expires] at hexpiry
  cases hexpiry

theorem current_iff {last : ℚ} (hstates : States payload options scopes iat (.number last)) :
    Current payload now o ↔
      (iat - o.clockToleranceSeconds.getD 30 ≤ ⌊now / 1000⌋ ∧
        ⌊now / 1000⌋ < last + o.clockToleranceSeconds.getD 30) ∧
        last - iat ≤ MAX_TTL_SECONDS + o.clockToleranceSeconds.getD 30 ∧
        ∀ presenter ∈ o.origin, ∀ bound ∈ options.origin, bound = presenter := by
  have hexp : (payload.member "exp").getD .null = .number last := by
    rw [hstates.expires]
    rfl
  have hiat : (payload.member "iat").getD .null = .number iat := by
    rw [hstates.issued]
    rfl
  have horigin : (∀ presenter ∈ o.origin, ∀ bound ∈ payload.member "origin",
      Json.text (some bound) = some presenter) ↔
      ∀ presenter ∈ o.origin, ∀ bound ∈ options.origin, bound = presenter := by
    rw [hstates.origin]
    cases options.origin <;> simp [Json.text]
  constructor
  · intro hcurrent
    have halive := hcurrent.alive
    have hbegun := hcurrent.begun
    have hbounded := hcurrent.bounded
    simp only [hexp, hiat, atMost, exceeds, decide_eq_false_iff_not, decide_eq_true_eq, not_le,
      not_lt] at halive hbegun hbounded
    exact ⟨⟨by linarith, by linarith⟩, hbounded, horigin.mp hcurrent.origin⟩
  · rintro ⟨⟨hbegun, halive⟩, hbounded, hsame⟩
    constructor
    case origin => exact horigin.mpr hsame
    all_goals
      simp only [hexp, hiat, isNumber, atMost, exceeds, decide_eq_false_iff_not, decide_eq_true_eq,
        not_le, not_lt]
    · linarith
    · linarith
    · exact hbounded

end

def Body.IsSession {V : Type} : Body V → Prop
  | .session _ _ _ _ => True
  | _ => False

namespace Broker
variable {E V : Type} {h : Host V} {options : BeamBrokerOptions} {request : Request}
  {answers : (call : Call E) → Except (Thrown E) (Answer E V call)}

def mintOptions (options : BeamBrokerOptions) (request : Request) (session : AuthorizedSession)
    (body : Json) :
    MintOptions :=
  ⟨options.secret, options.issuer, some (audience options), session.subject, session.organizationId,
    granted session body, session.ttlSeconds.or options.ttlSeconds, request.origin⟩

abbrev Sessionless (s : Program E V (Response V)) : Prop :=
    s.Yields fun response => ¬ response.body.IsSession

theorem json_body {body : Body V} {status : ℤ} {response : Response V}
    (hresponse : (json h options request body status : Except (Thrown E) _) = .ok response) :
      response.body = body := by
  unfold json at hresponse
  obtain ⟨-, hresponse⟩ := guard_eq_ok.mp hresponse
  obtain ⟨code, -, hresponse⟩ := bind_eq_ok.mp hresponse
  cases hresponse
  rfl

theorem json_yields {body : Body V} (hbody : ¬ body.IsSession) (status : ℤ) :
    Sessionless (Script.ofExcept (json h options request body status) : Program E V (Response V)) :=
  .ofExcept fun _ hresponse => json_body hresponse ▸ hbody

theorem failure_yields (e : Thrown E) :
    Sessionless (failure h options request e : Program E V (Response V)) := by
  unfold failure
  split
  · apply json_yields
    exact id
  · apply json_yields
    exact id
  · apply Script.Yields.last
    intro _
    apply json_yields
    exact id

theorem asked_yields {capability : Capability} {call : Call E} {respond : Answer E V call → Body V}
    {status : ℤ}
    (hrespond : ∀ a, ¬ (respond a).IsSession) :
    Sessionless (do
      Script.ofExcept (requireCapability options capability)
      let a ← ask call
      Script.ofExcept (json h options request (respond a) status)) := by
  apply Script.Yields.last
  intro _
  apply Script.Yields.last
  exact fun a => json_yields (hrespond a) status

theorem streamBody_yields (transferId : String) (context : BeamSessionContext) :
    (streamBody h options transferId context : Program E V (Body V)).Yields fun body =>
      ¬ body.IsSession := by
  have hfailed : ∀ events error, (streamFailed options events error : Program E V (Body V)).Yields
      fun body => ¬ body.IsSession := by
    intro events error
    apply Script.Yields.last
    intro reported
    cases reported <;> exact id
  apply Script.Yields.last
  intro watch
  cases watch with
  | error error => exact hfailed _ _
  | ok watch =>
    simp only
    split
    · exact hfailed _ _
    · split
      · exact id
      · exact hfailed _ _
      · exact id

theorem serve_yields {route : RouteMatch} (hroute : route.name ≠ .token) :
    Sessionless (serve h options route request : Program E V (Response V)) := by
  unfold serve
  cases hname : route.name with
  | token => exact absurd hname hroute
  | roomsCreate =>
    apply Script.Yields.last
    intro claims
    apply Script.Yields.last
    exact fun body => asked_yields fun _ => id
  | roomsGet => exact .last _ fun claims => asked_yields fun _ => id
  | transfersCreate =>
    apply Script.Yields.last
    intro claims
    apply Script.Yields.last
    intro body
    apply Script.Yields.last
    exact fun input => asked_yields fun _ => id
  | transfersList => exact .last _ fun claims => asked_yields fun _ => id
  | transfersEvents =>
    apply Script.Yields.last
    intro claims
    apply Script.Yields.last
    intro _
    exact (streamBody_yields _ _).bind fun body hbody => hbody
  | transfersCancel => exact .last _ fun claims => asked_yields fun _ => id
  | transfersGet => exact .last _ fun claims => asked_yields fun _ => id

theorem handleToken_session {response : Response V}
    (hrun : ((handleToken h options request).run answers).1 = .ok response) :
    ∃ session body minted, answers (.authorize request) = .ok (some session) ∧
      readJson h request = (.ok body : Except (Thrown E) _) ∧
      mintToken h.toPlatform h.now h.jti (mintOptions options request session body) =
        (.ok minted : Except (Thrown E) _) ∧
      response.body = .session minted.token minted.expiresIn minted.scopes
        (String.ofList (basePath options)) := by
  unfold handleToken at hrun
  obtain ⟨session, hauthorize, hrun⟩ := Script.run_bind_eq_ok.mp hrun
  rw [ask, Script.run_io_eq] at hauthorize
  cases session with
  | none => cases hrun
  | some session =>
    obtain ⟨body, hbody, hrun⟩ := Script.run_bind_eq_ok.mp hrun
    rw [Script.run_ofExcept] at hbody
    split at hrun
    · cases hrun
    obtain ⟨minted, hminted, hrun⟩ := Script.run_bind_eq_ok.mp hrun
    rw [Script.run_ofExcept] at hminted hrun
    exact ⟨session, body, minted, hauthorize, hbody, hminted, json_body (h := h) hrun⟩

theorem handle_session {response : Response V}
    (hrun : ((handle h options request).run answers).1 = .ok (some response))
    (hsession : response.body.IsSession) :
    ∃ session body minted, answers (.authorize request) = .ok (some session) ∧
      readJson h request = (.ok body : Except (Thrown E) _) ∧
      mintToken h.toPlatform h.now h.jti (mintOptions options request session body) =
        (.ok minted : Except (Thrown E) _) ∧
      response.body = .session minted.token minted.expiresIn minted.scopes
        (String.ofList (basePath options)) := by
  unfold handle at hrun
  split at hrun
  · cases hrun
  split at hrun
  · cases hrun
    exact hsession.elim
  split at hrun
  · cases hrun
  · cases hrun
  rename_i route hroute
  obtain ⟨served, hserved, hrun⟩ := Script.run_bind_eq_ok.mp hrun
  rw [Script.run_attempt] at hserved
  cases hserved
  split at hrun
  · rename_i answered hanswered
    cases hrun
    by_cases htoken : route.name = .token
    · have hhandled : ((handleToken h options request).run answers).1 = .ok response := by
        rw [serve, htoken] at hanswered
        exact hanswered
      exact handleToken_session hhandled
    · exact absurd hsession ((serve_yields htoken).run hanswered)
  · rename_i error _
    obtain ⟨answered, hanswered, hrun⟩ := Script.run_bind_eq_ok.mp hrun
    cases hrun
    exact absurd hsession ((failure_yields error).run hanswered)

section
variable (options : BeamBrokerOptions) (request : Request) (session : AuthorizedSession)
    (body : Json)
  (tolerance : Option ℚ)

/-- Verification with the broker's secret and audience, of a token that is presented with an origin
or with none. -/
def verifying (presenter : Option String) : VerifyOptions :=
    ⟨options.secret, audience options, presenter, tolerance⟩

def Requested (scope : BeamScope) : Prop :=
  ∀ items, body.member "scopes" = some (.array items) →
    ∃ item ∈ items, Json.text (some item) = some scope.text

structure Honoured (E : Type) (p : Platform) (opened : ℚ) (token : String) : Prop where
  lifetime : ∃ payload iat exp, Carries p token payload ∧
    payload.member "iat" = some (.number iat) ∧
    payload.member "exp" = some (.number exp) ∧ iat = ⌊opened / 1000⌋ ∧
      exp ≤ iat + MAX_TTL_SECONDS ∧
    ∀ now presenter, (∀ origin ∈ presenter, ∀ bound ∈ request.origin, bound = origin) →
      (Accepted E p now token (verifying options tolerance presenter) ↔
        iat - tolerance.getD 30 ≤ ⌊now / 1000⌋ ∧ ⌊now / 1000⌋ < exp + tolerance.getD 30)
  session : ∀ now presenter claims,
    (verifyToken p now token (verifying options tolerance presenter) : Except (Thrown E) _) =
      .ok claims →
    claims.sub = session.subject.map .string ∧ claims.org = session.organizationId.map .string ∧
      ∀ scope, scope ∈ claims.scopes ↔ scope.text ∈ session.scopes ∧ Requested body scope
  -- with every text in `issued`: nothing that keeps the payload or the signature is accepted but
  -- the token itself
  sealed : ∃ encoded, token = signed p options.secret encoded ∧
    ∀ issued presented now o, o.secret = options.secret →
      Unforged p options.secret issued presented →
      Accepted E p now presented o → presented = token ∨
        ∃ other ∈ issued, other ≠ encoded ∧
          p.sign options.secret other ≠ p.sign options.secret encoded ∧
          presented = signed p options.secret other
  elsewhere : ∀ now origin other, request.origin = some origin → other ≠ origin →
    ¬ Accepted E p now token (verifying options tolerance (some other))

def lifetime : Number :=
    ((session.ttlSeconds.or options.ttlSeconds).getD (.finite DEFAULT_TTL_SECONDS)).upTo
    MAX_TTL_SECONDS

/-- No second within the lifetime is lost to the ceiling, which a negative tolerance lowers. -/
def Spacious (ttl tolerance : ℚ) : Prop :=
  ttl ≤ MAX_TTL_SECONDS + tolerance ∨ ∀ n : ℤ, ¬ (-tolerance ≤ n ∧ n < ttl + tolerance)

end

theorem text_injective : Function.Injective BeamScope.text := by
  intro one other h
  cases one <;> cases other <;> first
    | rfl
    | exact absurd h (by decide)

theorem mem_granted {session : AuthorizedSession} {body : Json} {scope : BeamScope} :
    scope.text ∈ granted session body ↔ scope.text ∈ session.scopes ∧ Requested body scope := by
  unfold granted Requested
  split
  · rename_i requested hrequested
    rw [List.mem_filter, List.any_eq_true]
    simp only [decide_eq_true_eq, hrequested, Option.some.injEq, Json.array.injEq]
    constructor
    · rintro ⟨hscope, hitem⟩
      exact ⟨hscope, fun items hitems => hitems ▸ hitem⟩
    · rintro ⟨hscope, hitems⟩
      exact ⟨hscope, hitems requested rfl⟩
  · rename_i hnone
    exact ⟨fun hscope => ⟨hscope, fun items hitems => absurd hitems (hnone items)⟩,
      fun hscope => hscope.1⟩

theorem Spacious.bounded {ttl tolerance : ℚ} (h : Spacious ttl tolerance) {iat second : ℤ}
    (hbegun : iat - tolerance ≤ (second : ℚ)) (halive : (second : ℚ) < iat + ttl + tolerance) :
    ttl ≤ MAX_TTL_SECONDS + tolerance := by
  rcases h with h | hnone
  · exact h
  · have hoffset : ((second - iat : ℤ) : ℚ) = second - iat := by push_cast; rfl
    refine absurd ⟨?_, ?_⟩ (hnone (second - iat))
    · linarith
    · linarith

section
variable {p : Platform} {now : ℚ} {jti : String} {session : AuthorizedSession} {body : Json}
    {tolerance : Option ℚ}
  {minted : Minted}

theorem honoured_of_finite
    (hminted : (mintToken p now jti (mintOptions options request session body) : Except
      (Thrown E) Minted) = .ok minted)
    (hsigns : p.Signs)
    (hkeeps : p.Keeps ((mintOptions options request session body).payload now jti)) {ttl : ℚ}
    (hlifetime : lifetime options session = .finite ttl)
    (hspacious : Spacious ttl (tolerance.getD 30)) :
    Honoured options request session body tolerance E p now minted.token := by
  obtain ⟨hsecret, hknown, -, htoken⟩ := mintToken_ok hminted
  obtain ⟨scopes, hscopes, hstates⟩ := payload_states now jti hknown
  have hexp : ((mintOptions options request session body).lifetime.plus ⌊now / 1000⌋).json =
      .number (⌊now / 1000⌋ + ttl) := by
    rw [show (mintOptions options request session body).lifetime = .finite ttl from hlifetime]
    rfl
  rw [hexp] at hstates
  rw [htoken]
  have haccepted : ∀ later presenter, Accepted E p later
      (signed p options.secret
        (p.toBase64Url (p.write ((mintOptions options request session body).payload now jti))))
      (verifying options tolerance presenter) ↔
        (⌊now / 1000⌋ - tolerance.getD 30 ≤ (⌊later / 1000⌋ : ℚ) ∧
          (⌊later / 1000⌋ : ℚ) < ⌊now / 1000⌋ + ttl + tolerance.getD 30) ∧
        ⌊now / 1000⌋ + ttl - ⌊now / 1000⌋ ≤ MAX_TTL_SECONDS + tolerance.getD 30 ∧
        ∀ origin ∈ presenter, ∀ bound ∈ request.origin, bound = origin := fun later presenter =>
    (accepted_iff (o := verifying options tolerance presenter)
      hsigns hkeeps hsecret hstates rfl).trans
      (current_iff hstates)
  constructor
  case lifetime =>
    refine ⟨_, _, _, ?_, hstates.issued, hstates.expires, rfl, ?_, ?_⟩
    · exact (carries_signed hsigns hkeeps).mpr rfl
    · have hle := Number.upTo_le hlifetime
      linarith
    · intro later presenter hsame
      refine (haccepted later presenter).trans ⟨?_, ?_⟩
      · exact fun haccept => haccept.1
      · intro hwindow
        have hbounded := hspacious.bounded hwindow.1 hwindow.2
        exact ⟨hwindow, by linarith, hsame⟩
  case session =>
    intro later presenter claims hclaims
    obtain ⟨hpayload, -⟩ := verifyToken_of_signed hsigns hkeeps hclaims
    refine ⟨?_, ?_, ?_⟩
    · rw [BeamTokenClaims.sub, hpayload]
      exact hstates.subject
    · rw [BeamTokenClaims.org, hpayload]
      exact hstates.organizationId
    · intro scope
      have hlisted := claims.listed
      rw [hpayload, hstates.listed] at hlisted
      rw [← Option.some.inj hlisted, ← List.mem_map_of_injective text_injective, hscopes,
        List.mem_eraseDups]
      exact mem_granted
  case sealed =>
    refine ⟨_, rfl, ?_⟩
    rintro issued presented later o hsecret' hunforged ⟨claims, hclaims⟩
    obtain ⟨encoded, hsplit, -, -⟩ := verifyToken_signed hclaims
    rw [hsecret'] at hsplit
    have hpresented := eq_signed_of_splitOn hsplit
    by_cases hsame : String.ofList encoded = p.toBase64Url
      (p.write ((mintOptions options request session body).payload now jti))
    · left
      rw [hpresented, hsame]
      rfl
    · right
      refine ⟨String.ofList encoded, ?_, hsame, fun heq =>
        hsame (hsigns.injective _ heq), hpresented⟩
      exact hunforged _ _ _ hsplit (String.ofList_toList).symm
  case elsewhere =>
    intro later origin other horigin hne haccept
    have hsame := ((haccepted later (some other)).mp haccept).2.2 other rfl origin horigin
    exact hne hsame.symm

theorem finite_of_honoured
    (hminted : (mintToken p now jti (mintOptions options request session body) : Except
      (Thrown E) Minted) = .ok minted)
    (hsigns : p.Signs)
    (hkeeps : p.Keeps ((mintOptions options request session body).payload now jti))
    (h : Honoured options request session body tolerance E p now minted.token) :
    lifetime options session ≠ .nan ∧
      ∀ ttl, lifetime options session = .finite ttl → Spacious ttl (tolerance.getD 30) := by
  obtain ⟨hsecret, hknown, -, htoken⟩ := mintToken_ok hminted
  obtain ⟨scopes, -, hstates⟩ := payload_states now jti hknown
  obtain ⟨payload, iat, exp, hcarries, hiat, hexp, rfl, -, hlive⟩ := h.lifetime
  rw [htoken] at hcarries hlive
  cases (carries_signed hsigns hkeeps).mp hcarries
  have hset : ((mintOptions options request session body).lifetime.plus ⌊now / 1000⌋).json =
      .number exp :=
    Option.some.inj (hstates.expires.symm.trans hexp)
  rw [hset] at hstates
  constructor
  · intro hnan
    rw [show (mintOptions options request session body).lifetime = .nan from hnan] at hset
    cases hset
  · intro ttl httl
    rw [show (mintOptions options request session body).lifetime = .finite ttl from httl] at hset
    cases hset
    by_contra hnarrow
    obtain ⟨hbound, hsecond⟩ := not_or.mp hnarrow
    obtain ⟨n, hbegun, halive⟩ := by simpa only [not_forall, not_not] using hsecond
    -- the second of the window that the ceiling loses
    have hsecond : (⌊((⌊now / 1000⌋ + n : ℤ) : ℚ) * 1000 / 1000⌋ : ℚ) = ⌊now / 1000⌋ + n := by
      rw [mul_div_cancel_right₀ _ (by norm_num), Int.floor_intCast]
      push_cast
      rfl
    have haccept : Accepted E p (((⌊now / 1000⌋ + n : ℤ) : ℚ) * 1000) _
        (verifying options tolerance none) :=
      (hlive _ none nofun).mpr (by
        rw [hsecond]
        constructor <;> linarith)
    have hbounded :=
      ((current_iff hstates).mp ((accepted_iff
        (o := verifying options tolerance none) hsigns hkeeps hsecret hstates rfl).mp haccept)).2.1
    apply hbound
    simp only [verifying] at hbounded
    linarith

end

/-- Of every session that the endpoint opens: its token is honoured exactly where the lifetime that
is set for it is a number, and a negative tolerance takes none of it away. -/
theorem session_honoured_iff {session : AuthorizedSession} {body : Json} {response : Response V}
    {token : String}
    {expiresIn : Number} {scopes : List String} {endpoint : String} (tolerance : Option ℚ)
    (hauthorize : answers (.authorize request) = .ok (some session))
    (hbody : readJson h request = (.ok body : Except (Thrown E) _))
    (hrun : ((handle h options request).run answers).1 = .ok (some response))
    (hopened : response.body = .session token expiresIn scopes endpoint)
    (hsigns : h.toPlatform.Signs)
    (hkeeps : h.toPlatform.Keeps ((mintOptions options request session body).payload h.now h.jti)) :
    Honoured options request session body tolerance E h.toPlatform h.now token ↔
      lifetime options session ≠ .nan ∧
        ∀ ttl, lifetime options session = .finite ttl → Spacious ttl (tolerance.getD 30) := by
  obtain ⟨session', body', minted, hauthorize', hbody', hminted, hresponse⟩ :=
    handle_session hrun (by rw [hopened]; trivial)
  cases hauthorize.symm.trans hauthorize'
  cases hbody.symm.trans hbody'
  cases hopened.symm.trans hresponse
  constructor
  · exact finite_of_honoured hminted hsigns hkeeps
  · rintro ⟨hnumber, hspacious⟩
    obtain ⟨-, -, hleast, -⟩ := mintToken_ok hminted
    cases hlifetime : lifetime options session with
    | finite ttl =>
        exact honoured_of_finite hminted hsigns hkeeps hlifetime (hspacious ttl hlifetime)
    | infinity negative =>
      rw [show (mintOptions options request session body).lifetime =
        .infinity negative from hlifetime] at hleast
      exact absurd (hlifetime.trans (congrArg Number.infinity hleast)) (Number.upTo_ne_infinity _ _)
    | nan => exact absurd hlifetime hnumber

/-- Each character as eight digits: a text of its own for every text, and without dots. -/
def spelled (text : String) : String :=
    String.ofList (text.toList.flatMap fun c => Hex.digits 8 c.toNat)

theorem notMem_spelled (text : String) : '.' ∉ (spelled text).toList := by
  intro hdot
  rw [spelled, String.toList_ofList, List.mem_flatMap] at hdot
  obtain ⟨c, -, hdot⟩ := hdot
  obtain ⟨d, hd, hdigit⟩ := Hex.mem_digits hdot
  revert hdigit
  revert d
  decide

theorem spelled_injective : Function.Injective spelled := by
  have hdigits : ∀ c d : Char, Hex.digits 8 c.toNat = Hex.digits 8 d.toNat → c = d := by
    intro c d h
    have hread := congrArg Hex.read h
    have hlt : ∀ e : Char, e.toNat < 16 ^ 8 := fun e => e.val.toNat_lt
    rw [Hex.read_digits, Hex.read_digits, Nat.mod_eq_of_lt (hlt c),
      Nat.mod_eq_of_lt (hlt d)] at hread
    exact Char.toNat_inj.mp hread
  have hlist : ∀ xs ys : List Char, xs.flatMap (fun c => Hex.digits 8 c.toNat) =
      ys.flatMap (fun c => Hex.digits 8 c.toNat) →
      xs = ys := by
    intro xs
    induction xs with
    | nil =>
      intro ys h
      cases ys with
      | nil => rfl
      | cons d ys => cases h
    | cons c xs ih =>
      intro ys h
      cases ys with
      | nil => cases h
      | cons d ys =>
        rw [List.flatMap_cons, List.flatMap_cons] at h
        obtain ⟨hhead, htail⟩ := List.append_inj h (by rw [Hex.length_digits, Hex.length_digits])
        rw [hdigits c d hhead, ih ys htail]
  intro one other h
  have h := congrArg String.toList h
  rw [spelled, spelled, String.toList_ofList, String.toList_ofList] at h
  exact String.toList_inj.mp (hlist _ _ h)

def samplePermitted (ttlSeconds : Number) : AuthorizedSession :=
  ⟨some "user-1", some "org-1", ["rooms:join", "room:read"], some ttlSeconds⟩

def sampleAsked : Json := .object [("scopes", .array [.string "room:read"])]

def sampleOpening : Request :=
    ⟨"POST", "/api/beam/token", [], [("origin", "https://app.example")], some "body"⟩

/-- A platform on which the request's body lists one scope, and whose tokens all carry the payload
of the session. -/
def sampleMint (ttlSeconds : Number) : Host Unit where
  sign := fun _ => spelled
  toBase64Url := spelled
  fromBase64Url := fun text => text
  parse := fun text =>
    if text = "body" then some sampleAsked
    else some
      ((mintOptions sampleOptions sampleOpening (samplePermitted ttlSeconds)
        sampleAsked).payload 0 "jti")
  write := fun _ => "payload"
  toNumber := fun _ => none
  toText := fun _ => none
  now := 0
  jti := "jti"
  serializes := fun _ => true

def sampleGranting (ttlSeconds : Number) : (call : Call Unit) →
    Except (Thrown Unit) (Answer Unit Unit call)
  | .authorize _ => .ok (some (samplePermitted ttlSeconds))
  | .onError _ => .ok ()
  | _ => .error (.application ())

def sampleToken : String :=
    signed (sampleMint .nan).toPlatform sampleOptions.secret (spelled "payload")

theorem sample_signs (ttlSeconds : Number) : (sampleMint ttlSeconds).toPlatform.Signs :=
  ⟨notMem_spelled, fun _ => notMem_spelled, fun _ => spelled_injective⟩

def sampleOpened (ttlSeconds : Number) : Response Unit :=
  ⟨200, [("content-type", "application/json"), ("cache-control", "no-store")],
    .session sampleToken ttlSeconds ["room:read"] (String.ofList (basePath sampleOptions))⟩

theorem sample_keeps (ttlSeconds : Number) : (sampleMint ttlSeconds).toPlatform.Keeps
    ((mintOptions sampleOptions sampleOpening (samplePermitted ttlSeconds)
      sampleAsked).payload 0 "jti") :=
  if_neg (show spelled "payload" ≠ "body" by decide)

theorem sample_honoured : Honoured sampleOptions sampleOpening
    (samplePermitted (.finite 60)) sampleAsked none Unit
    (sampleMint (.finite 60)).toPlatform 0 sampleToken := by
  have hrun :
      ((handle (sampleMint (.finite 60)) sampleOptions sampleOpening).run
        (sampleGranting (.finite 60))).1 =
      .ok (some (sampleOpened (.finite 60))) := rfl
  apply (session_honoured_iff none rfl rfl hrun rfl (sample_signs _) (sample_keeps _)).mpr
  refine ⟨nofun, fun ttl httl => .inl ?_⟩
  have hle := Number.upTo_le httl
  exact hle.trans (by norm_num)

/-- The endpoint answers with a token, and no time is one at which it is accepted. -/
theorem sample_unhonoured :
    ((handle (sampleMint .nan) sampleOptions sampleOpening).run (sampleGranting .nan)).1 =
      .ok (some (sampleOpened .nan)) ∧
      (∀ now presenter,
        ¬ Accepted Unit (sampleMint .nan).toPlatform now sampleToken
          (verifying sampleOptions none presenter)) ∧
      ¬ Honoured sampleOptions sampleOpening (samplePermitted .nan) sampleAsked none Unit
        (sampleMint .nan).toPlatform 0
        sampleToken := by
  have hrun : ((handle (sampleMint .nan) sampleOptions sampleOpening).run (sampleGranting .nan)).1 =
      .ok (some (sampleOpened .nan)) := rfl
  have hknown :
      ∀ scope ∈ (mintOptions sampleOptions sampleOpening (samplePermitted .nan) sampleAsked).scopes,
      (isBeamScope scope).isSome := by decide
  obtain ⟨scopes, -, hstates⟩ := payload_states 0 "jti" hknown
  have hsecret : 32 ≤ Text.utf16Length sampleOptions.secret.toList := by decide
  refine ⟨hrun, ?_, ?_⟩
  · intro now presenter haccepted
    exact not_current_of_null hstates
      ((accepted_iff (o := verifying sampleOptions none presenter) (sample_signs .nan)
        (sample_keeps .nan) hsecret hstates rfl).mp haccepted)
  · intro hhonoured
    obtain ⟨payload, iat, exp, hcarries, -, hexp, -⟩ := hhonoured.lifetime
    cases (carries_signed (sample_signs .nan) (sample_keeps .nan)).mp hcarries
    cases hstates.expires.symm.trans hexp

end Broker
end Beam.Web
