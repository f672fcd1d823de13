import BeamSdk.Web.Broker

/-! What the broker lets through. A request under its path is answered whatever the application
does, except where its route has a parameter that does not decode or an error names a status that no
response can have; and preflights, which are answered before they are routed, are answered for paths
that are not its own. -/

namespace Beam.Web
variable {E V : Type}

def Thrown.Foreign : Thrown E → Prop
  | .native _ | .application _ => True
  | _ => False

def Thrown.Alike (e e' : Thrown E) : Prop := e = e' ∨ (e.Foreign ∧ e'.Foreign)

theorem Thrown.Alike.refl (e : Thrown E) : e.Alike e := .inl rfl

def Ending.Alike : Ending E → Ending E → Prop
  | .threw e, .threw e' => e.Alike e'
  | ending, ending' => ending = ending'

def AlikeAnswers : (call : Call E) → Except (Thrown E) (Answer E V call) →
    Except (Thrown E) (Answer E V call) → Prop
  | _, .error e, .error e' => e.Alike e'
  | .watchTransfer _ _, .ok watch, .ok watch' =>
      watch.records = watch'.records ∧ watch.ending.Alike watch'.ending
  | _, .ok a, .ok a' => a = a'
  | _, _, _ => False

def Call.session : Call E → Option (BeamScope × BeamSessionContext)
  | .createRoom _ context => some (.roomsCreate, context)
  | .getRoom _ context => some (.roomRead, context)
  | .createTransfer _ context => some (.transfersCreate, context)
  | .getTransfer _ context | .listTransfers _ context | .watchTransfer _ context =>
      some (.transfersRead, context)
  | .cancelTransfer _ context => some (.transfersCancel, context)
  | .authorize _ | .onError _ => none

def Call.Watches : Call E → Prop
  | .watchTransfer _ _ => True
  | _ => False

def IsRoute (path : List Char) : Prop := ∃ route ∈ ROUTES, (route.pattern.exec path).isSome

instance (path : List Char) : Decidable (IsRoute path) := inferInstanceAs (Decidable (∃ _ ∈ _, _))

namespace Broker
variable (h : Host V) (options : BeamBrokerOptions) (request : Request)
  (answers : (call : Call E) → Except (Thrown E) (Answer E V call))

def IsBrokerRoute : Prop := ∃ path, pathOf options request = some path ∧ IsRoute path

/-- An upstream method is called with the context of a token that verified for the scope. -/
def Guarded (call : Call E) : Prop :=
  ∀ scope context, call.session = some (scope, context) →
    ∃ claims, verify h options request [scope] = (.ok claims : Except (Thrown E) _) ∧
      context = contextFrom request claims

structure ClosedGate : Prop where
  settles : ∃ result, ((handle h options request).run answers).1 = .ok result
  routed : ((handle h options request).run answers).1 = .ok none ↔ ¬ IsBrokerRoute options request
  guarded : ∀ call ∈ ((handle h options request).run answers).2, Guarded h options request call
  blind : ∀ answers', (∀ call, AlikeAnswers call (answers call) (answers' call)) →
    ((handle h options request).run answers').1 = ((handle h options request).run answers).1

def Statused (e : Thrown E) : Prop :=
  ∀ message status code, e = .brokerError message status code →
    ∃ n, (statusOf status : Except (Thrown E) ℕ) = .ok n

/-- Preflights are for the broker's routes, other requests have a method of theirs and a parameter
that decodes, and the call the request leads to is not answered with an error of an impossible
status. -/
structure Answerable : Prop where
  preflight : request.method = "OPTIONS" → ∀ path, pathOf options request = some path → IsRoute path
  method : request.method ≠ "OPTIONS" → ∀ path, pathOf options request = some path → IsRoute path →
    (firstMatch request.method path).isSome
  parameter : request.method ≠ "OPTIONS" → ∀ path name id, pathOf options request = some path →
    firstMatch request.method path = some (name, id) → (Uri.decodeURIComponent id).isSome
  status : request.method ≠ "OPTIONS" → ∀ path route call e, pathOf options request = some path →
    matchRoute request.method path = (.ok (some route) : Except (Thrown E) _) →
    (serve h options route request).next = some call → ¬ call.Watches →
      answers call = .error e → Statused e

end Broker

section Errors
variable {e : Thrown E} {h : Host V} {options : BeamBrokerOptions} {request : Request}

def Thrown.NotBroker (e : Thrown E) : Prop :=
    ∀ message status code, e ≠ .brokerError message status code

theorem assertUsableSecret_error {secret : String} (he : assertUsableSecret secret = .error e) :
    e.NotBroker := by
  unfold assertUsableSecret at he
  split at he
  · cases he
    exact nofun
  · cases he

theorem verifyToken_error {p : Platform} {now : ℚ} {token : String} {o : VerifyOptions}
    (he : verifyToken p now token o = .error e) : e.NotBroker := by
  unfold verifyToken at he
  cases hsecret : assertUsableSecret o.secret (E := E) with
  | error e' =>
    rw [hsecret] at he
    cases he
    exact assertUsableSecret_error hsecret
  | ok _ =>
    rw [hsecret] at he
    simp only [bind, Except.bind, pure, Except.pure, throw, throwThe, MonadExceptOf.throw] at he
    repeat' split at he
    all_goals cases he
    all_goals
      intro _ _ _ hthrown
      cases hthrown

theorem mintToken_error {p : Platform} {now : ℚ} {jti : String} {o : MintOptions}
    (he : mintToken p now jti o = .error e) : e.NotBroker := by
  unfold mintToken at he
  cases hsecret : assertUsableSecret o.secret (E := E) with
  | error e' =>
    rw [hsecret] at he
    cases he
    exact assertUsableSecret_error hsecret
  | ok _ =>
    rw [hsecret] at he
    simp only [bind, Except.bind, pure, Except.pure, throw, throwThe, MonadExceptOf.throw] at he
    repeat' split at he
    all_goals cases he
    all_goals
      intro _ _ _ hthrown
      cases hthrown

theorem assertScopes_error {claims : BeamTokenClaims} {required : List BeamScope}
    (he : assertScopes claims required = .error e) : e.NotBroker := by
  unfold assertScopes at he
  simp only at he
  split at he
  · cases he
    exact nofun
  · cases he

namespace Broker

theorem verify_error {scopes : List BeamScope} (he : verify h options request scopes = .error e) :
    e.NotBroker := by
  unfold verify at he
  simp only [bind, Except.bind, pure, Except.pure, throw, throwThe, MonadExceptOf.throw] at he
  split at he
  · cases he
    intro _ _ _ hthrown
    cases hthrown
  · split at he
    · rename_i hverify
      cases he
      exact verifyToken_error hverify
    · split at he
      · rename_i hscopes
        cases he
        exact assertScopes_error hscopes
      · cases he

theorem statusOf_error {status : ℤ} (he : statusOf status = .error e) : e.NotBroker := by
  unfold statusOf at he
  simp only at he
  split at he
  · cases he
    exact nofun
  · split at he
    · cases he
      exact nofun
    · cases he

theorem json_error {body : Body V} {status : ℤ}
    (he : json h options request body status = .error e) : e.NotBroker := by
  unfold json at he
  simp only [bind, Except.bind, pure, Except.pure, throw, throwThe, MonadExceptOf.throw] at he
  split at he
  · cases he
    exact nofun
  · split at he
    · rename_i hstatus
      cases he
      exact statusOf_error hstatus
    · cases he

theorem Statused.of_notBroker (he : e.NotBroker) : Statused e :=
    fun _ _ _ heq => absurd heq (he _ _ _)

theorem Statused.of_own {message code : String} {status : ℤ}
    (hstatus : (statusOf status : Except (Thrown E) ℕ).isOk) :
    Statused (.brokerError message status code : Thrown E) := by
  intro _ _ _ heq
  cases heq
  cases hn : (statusOf status : Except (Thrown E) ℕ) with
  | ok n => exact ⟨n, rfl⟩
  | error e =>
    rw [hn] at hstatus
    cases hstatus

theorem readJson_error (he : readJson h request = .error e) : Statused e := by
  unfold readJson at he
  simp only at he
  split at he
  · cases he
    exact .of_own rfl
  · cases he
  · split at he
    · cases he
      exact .of_own rfl
    all_goals cases he

theorem requireCapability_error {capability : Capability}
    (he : requireCapability options capability = .error e) :
    Statused e := by
  unfold requireCapability at he
  simp only at he
  split at he
  · cases he
  · cases he
    exact .of_own rfl

theorem createTransferInput_error {body : Json} (he : createTransferInput h body = .error e) :
    Statused e := by
  unfold createTransferInput at he
  split at he
  · split at he
    · cases he
    · cases he
      exact .of_notBroker nofun
  · cases he
    exact .of_own rfl

end Broker
end Errors

namespace Broker
variable {h : Host V} {options : BeamBrokerOptions} {request : Request} {route : RouteMatch}
  {answers answers' : (call : Call E) → Except (Thrown E) (Answer E V call)} {e : Thrown E}

abbrev Tame (s : Program E V (Response V)) : Prop := s.Passes Statused Call.Watches

theorem json_raises (body : Body V) (status : ℤ) :
    (Script.ofExcept (json h options request body status) : Program E V
      (Response V)).Raises Statused :=
  .ofExcept fun _ he => .of_notBroker (json_error he)

theorem handleToken_tame : Tame (handleToken h options request : Program E V (Response V)) := by
  apply Script.Passes.io_bind (fun hw => hw)
  intro session
  cases session with
  | none => exact .of_own rfl
  | some session =>
    apply Script.Raises.bind (.ofExcept fun _ he => readJson_error he)
    intro body
    split
    · exact .of_own rfl
    · apply Script.Raises.bind (.ofExcept fun _ he => .of_notBroker (mintToken_error he))
      exact fun minted => json_raises _ _

theorem streamFailed_raises (events : List (Event V)) (error : Thrown E) :
    (streamFailed options events error : Program E V (Body V)).Raises Statused := by
  apply Script.Raises.bind (.attempt _)
  intro reported
  cases reported <;> trivial

theorem streamBody_passes (transferId : String) (context : BeamSessionContext) :
    (streamBody h options transferId context : Program E V (Body V)).Passes Statused
      Call.Watches := by
  apply Script.Passes.attempt_io_bind trivial
  intro watch
  cases watch with
  | error error => exact streamFailed_raises _ _
  | ok watch =>
    simp only
    split
    · exact streamFailed_raises _ _
    · split
      · trivial
      · exact streamFailed_raises _ _
      · trivial

theorem handleTransferEvents_tame (transferId : String) (context : BeamSessionContext) :
    Tame (handleTransferEvents h options request transferId context : Program E V
      (Response V)) := by
  apply Script.Passes.ofExcept_bind fun _ he => requireCapability_error he
  intro _ _
  exact (streamBody_passes transferId context).bind (fun body => trivial) nofun

theorem verified_tame {scopes : List BeamScope} {f : BeamTokenClaims → Program E V (Response V)}
    (hf : ∀ claims, Tame (f claims)) :
      Tame (Script.ofExcept (verify h options request scopes) >>= f) :=
  .ofExcept_bind (fun _ he => .of_notBroker (verify_error he)) fun claims _ => hf claims

theorem asked_tame {capability : Capability} {call : Call E}
    {respond : Answer E V call → Except (Thrown E) (Response V)}
    (hcall : ¬ call.Watches) (hrespond : ∀ a e, respond a = .error e → Statused e) :
    Tame (do
      Script.ofExcept (requireCapability options capability)
      let a ← ask call
      Script.ofExcept (respond a)) := by
  apply Script.Passes.ofExcept_bind fun _ he => requireCapability_error he
  intro _ _
  exact .io_bind hcall fun a => .ofExcept (hrespond a)

theorem serve_tame : Tame (serve h options route request : Program E V (Response V)) := by
  have hjson : ∀ (body : Body V) (status : ℤ)
      (e : Thrown E), json h options request body status = .error e → Statused e :=
    fun _ _ _ he => .of_notBroker (json_error he)
  unfold serve
  cases route.name with
  | token => exact handleToken_tame
  | roomsCreate =>
    apply verified_tame
    intro claims
    apply Script.Passes.ofExcept_bind fun _ he => readJson_error he
    intro body _
    exact asked_tame (fun hw => hw) fun _ _ => hjson _ _ _
  | roomsGet => exact verified_tame fun claims => asked_tame (fun hw => hw) fun _ _ => hjson _ _ _
  | transfersCreate =>
    apply verified_tame
    intro claims
    apply Script.Passes.ofExcept_bind fun _ he => readJson_error he
    intro body _
    apply Script.Passes.ofExcept_bind fun _ he => createTransferInput_error he
    intro input _
    exact asked_tame (fun hw => hw) fun _ _ => hjson _ _ _
  | transfersList =>
      exact verified_tame fun claims => asked_tame (fun hw => hw) fun _ _ => hjson _ _ _
  | transfersEvents => exact verified_tame fun claims => handleTransferEvents_tame _ _
  | transfersCancel =>
      exact verified_tame fun claims => asked_tame (fun hw => hw) fun _ _ => hjson _ _ _
  | transfersGet =>
      exact verified_tame fun claims => asked_tame (fun hw => hw) fun _ _ => hjson _ _ _

theorem report_run (hook : ∀ error, answers (.onError error) = .ok ()) (error : Thrown E) :
    ((report options error : Program E V Unit).run answers).1 = .ok () := by
  unfold report
  split
  · rw [ask, Script.run_io_eq]
    exact hook error
  · rfl

variable (h options request) in
theorem json_failure (message code : String) {status : ℤ} {n : ℕ}
    (hn : (statusOf status : Except (Thrown E) ℕ) = .ok n) :
    ∃ r, (json h options request (.failure message code) status : Except (Thrown E) (Response V)) =
      .ok r := by
  simp only [json, bind, Except.bind, pure, Except.pure, Body.serializes, hn]
  exact ⟨_, rfl⟩

theorem foreign_settles (hook : ∀ error, answers (.onError error) = .ok ())
    (hfailure : failure h options request e = (do
      report options e
      Script.ofExcept (json h options request
        (.failure "The Beam broker encountered an internal error." "internal") 500) : Program E V
          (Response V))) :
    ∃ r, ((failure h options request e).run answers).1 = .ok r := by
  have hstatus : (statusOf 500 : Except (Thrown E) ℕ) = .ok 500 := rfl
  obtain ⟨r, hr⟩ :=
    json_failure h options
      request "The Beam broker encountered an internal error." "internal" hstatus
  refine ⟨r, ?_⟩
  rw [hfailure, Script.run_bind_fst, report_run hook, hr]
  rfl

variable (h options request) in
theorem failure_settles (hook : ∀ error, answers (.onError error) = .ok ()) (he : Statused e) :
    ∃ r, ((failure h options request e).run answers).1 = .ok r := by
  cases e with
  | brokerError message status code =>
    obtain ⟨n, hn⟩ := he _ _ _ rfl
    obtain ⟨r, hr⟩ := json_failure h options request message code hn
    exact ⟨r, by rw [failure, Script.run_ofExcept, hr]⟩
  | beamTokenError message code =>
    have hn : ∃ n,
        (statusOf (if code = "insufficient_scope" then 403 else 401) : Except (Thrown E) ℕ) =
          .ok n := by
      split
      · exact ⟨403, rfl⟩
      · exact ⟨401, rfl⟩
    obtain ⟨n, hn⟩ := hn
    obtain ⟨r, hr⟩ := json_failure h options request message code hn
    exact ⟨r, by rw [failure, Script.run_ofExcept, hr]⟩
  | native name => exact foreign_settles hook rfl
  | application error => exact foreign_settles hook rfl

variable (h options request answers) in
theorem failure_rejects (he : ¬ Statused e) : ∃ e',
    ((failure h options request e).run answers).1 = .error e' := by
  cases e with
  | brokerError message status code =>
    cases hn : (statusOf status : Except (Thrown E) ℕ) with
    | ok n =>
      refine absurd ?_ he
      rintro _ _ _ ⟨⟩
      exact ⟨n, hn⟩
    | error e' =>
      refine ⟨e', ?_⟩
      rw [failure, Script.run_ofExcept]
      simp only [json, bind, Except.bind, Body.serializes, hn]
      rfl
  | beamTokenError message code => exact absurd (.of_notBroker nofun) he
  | native name => exact absurd (.of_notBroker nofun) he
  | application error => exact absurd (.of_notBroker nofun) he

variable {path : List Char}

def guardedServe (h : Host V) (options : BeamBrokerOptions) (request : Request)
    (route : RouteMatch) :
    Program E V (Option (Response V)) := do
  match ← (serve h options route request).attempt with
  | .ok response => return some response
  | .error error => return some (← failure h options request error)

theorem handle_routed (hpath : pathOf options request = some path)
    (hmethod : request.method ≠ "OPTIONS")
    (hroute : matchRoute request.method path = (.ok (some route) : Except (Thrown E) _)) :
    (handle h options request : Program E V _) = guardedServe h options request route := by
  simp only [handle, hpath, hmethod, if_false, hroute]
  rfl

theorem guardedServe_settles (hook : ∀ error, answers (.onError error) = .ok ())
    (hstatus : ∀ call e, (serve h options route request).next = some call → ¬ call.Watches →
      answers call = .error e → Statused e) :
    ∃ r, ((guardedServe h options request route).run answers).1 = .ok (some r) := by
  rw [guardedServe, Script.run_bind_fst, Script.run_attempt]
  cases hserve : ((serve h options route request).run answers).1 with
  | ok response => exact ⟨response, rfl⟩
  | error e =>
    have he : Statused e := by
      rcases serve_tame.run hserve with he | ⟨call, hnext, hwatch, hanswer⟩
      · exact he
      · exact hstatus call e hnext hwatch hanswer
    obtain ⟨r, hr⟩ := failure_settles h options request hook he
    refine ⟨r, ?_⟩
    show ((failure h options request e >>= fun response => pure (some response)).run answers).1 = _
    rw [Script.run_bind_fst, hr]
    rfl

theorem guardedServe_rejects {call : Call E}
    (hnext : (serve h options route request).next = some call)
    (hwatch : ¬ call.Watches) (hanswer : answers call = .error e) (he : ¬ Statused e) :
    ∃ e', ((guardedServe h options request route).run answers).1 = .error e' := by
  rw [guardedServe, Script.run_bind_fst, Script.run_attempt,
    serve_tame.run_next hnext hwatch hanswer]
  obtain ⟨e', he'⟩ := failure_rejects h options request answers he
  refine ⟨e', ?_⟩
  show ((failure h options request e >>= fun response => pure (some response)).run answers).1 = _
  rw [Script.run_bind_fst, he']
  rfl

theorem isRoute_of_firstMatch {method : String} {found : RouteName × List Char}
    (hfound : firstMatch method path = some found) : IsRoute path := by
  obtain ⟨route, hmem, hmatch⟩ := List.exists_of_findSome?_eq_some hfound
  refine ⟨route, hmem, ?_⟩
  rw [Route.matches] at hmatch
  split at hmatch
  · obtain ⟨id, hid, -⟩ := Option.map_eq_some_iff.mp hmatch
    rw [hid]
    rfl
  · cases hmatch

theorem matchRoute_none (hnone : firstMatch request.method path = none) :
    matchRoute request.method path = (.ok none : Except (Thrown E) _) := by
  rw [matchRoute, hnone]

theorem matchRoute_some {name : RouteName} {id text : List Char}
    (hfirst : firstMatch request.method path = some (name, id))
    (htext : Uri.decodeURIComponent id = some text) :
    matchRoute request.method path =
      (.ok (some ⟨name, String.ofList text⟩) : Except (Thrown E) _) := by
  rw [matchRoute, hfirst]
  simp only [htext]

theorem matchRoute_error {name : RouteName} {id : List Char}
    (hfirst : firstMatch request.method path = some (name, id))
    (hid : Uri.decodeURIComponent id = none) :
    matchRoute request.method path = (.error (.native "URIError") : Except (Thrown E) _) := by
  rw [matchRoute, hfirst]
  simp only [hid]

theorem handleToken_guarded :
    (handleToken h options request : Program E V (Response V)).Uses
      (Guarded h options request) := by
  apply Script.Uses.bind (.io fun _ _ => nofun)
  intro session
  cases session with
  | none => trivial
  | some session =>
    apply Script.Uses.bind (.ofExcept _)
    intro body
    split
    · trivial
    · exact .bind (.ofExcept _) fun minted => .ofExcept _

theorem report_guarded (error : Thrown E) :
    (report options error : Program E V Unit).Uses (Guarded h options request) := by
  unfold report
  split
  · exact .io fun _ _ => nofun
  · trivial

theorem streamFailed_guarded (events : List (Event V)) (error : Thrown E) :
    (streamFailed options events error : Program E V (Body V)).Uses
      (Guarded h options request) := by
  apply Script.Uses.bind (.attempt (report_guarded error))
  intro reported
  cases reported <;> trivial

theorem streamBody_guarded {transferId : String} {context : BeamSessionContext}
    (hcall : Guarded h options request (.watchTransfer transferId context : Call E)) :
    (streamBody h options transferId context : Program E V (Body V)).Uses
      (Guarded h options request) := by
  apply Script.Uses.bind (.attempt (.io hcall))
  intro watch
  cases watch with
  | error error => exact streamFailed_guarded _ _
  | ok watch =>
    simp only
    split
    · exact streamFailed_guarded _ _
    · split
      · trivial
      · exact streamFailed_guarded _ _
      · trivial

theorem guarded_of_verify {scope : BeamScope} {claims : BeamTokenClaims} {call : Call E}
    (hverify : verify h options request [scope] = (.ok claims : Except (Thrown E) _))
    (hcall : call.session = some (scope, contextFrom request claims)) :
      Guarded h options request call := by
  intro scope' context' hsession
  rw [hcall] at hsession
  cases hsession
  exact ⟨claims, hverify, rfl⟩

theorem asked_guarded {capability : Capability} {call : Call E}
    {respond : Answer E V call → Except (Thrown E) (Response V)}
    (hcall : Guarded h options request call) :
    Script.Uses (Guarded h options request) (do
      Script.ofExcept (requireCapability options capability)
      let a ← ask call
      Script.ofExcept (respond a) : Program E V (Response V)) :=
  .bind (.ofExcept _) fun _ => .bind (.io hcall) fun _ => .ofExcept _

theorem serve_guarded :
    (serve h options route request : Program E V (Response V)).Uses (Guarded h options
      request) := by
  unfold serve
  cases route.name with
  | token => exact handleToken_guarded
  | roomsCreate =>
    apply Script.Uses.ofExcept_bind
    intro claims hverify
    apply Script.Uses.bind (.ofExcept _)
    intro body
    exact asked_guarded (guarded_of_verify hverify rfl)
  | roomsGet =>
      exact .ofExcept_bind fun claims hverify => asked_guarded (guarded_of_verify hverify rfl)
  | transfersCreate =>
    apply Script.Uses.ofExcept_bind
    intro claims hverify
    apply Script.Uses.bind (.ofExcept _)
    intro body
    apply Script.Uses.bind (.ofExcept _)
    intro input
    exact asked_guarded (guarded_of_verify hverify rfl)
  | transfersList =>
      exact .ofExcept_bind fun claims hverify => asked_guarded (guarded_of_verify hverify rfl)
  | transfersEvents =>
    apply Script.Uses.ofExcept_bind
    intro claims hverify
    apply Script.Uses.bind (.ofExcept _)
    intro _
    exact .bind (streamBody_guarded (guarded_of_verify hverify rfl)) fun body => trivial
  | transfersCancel =>
      exact .ofExcept_bind fun claims hverify => asked_guarded (guarded_of_verify hverify rfl)
  | transfersGet =>
      exact .ofExcept_bind fun claims hverify => asked_guarded (guarded_of_verify hverify rfl)

theorem failure_guarded (error : Thrown E) :
    (failure h options request error : Program E V (Response V)).Uses
      (Guarded h options request) := by
  cases error with
  | brokerError message status code => exact .ofExcept _
  | beamTokenError message code => exact .ofExcept _
  | native name => exact .bind (report_guarded _) fun _ => .ofExcept _
  | application error => exact .bind (report_guarded _) fun _ => .ofExcept _

theorem handle_guarded :
    (handle h options request : Program E V (Option (Response V))).Uses
      (Guarded h options request) := by
  unfold handle
  split
  · trivial
  · split
    · trivial
    · split
      · trivial
      · trivial
      · apply Script.Uses.bind (.attempt serve_guarded)
        intro served
        cases served with
        | ok response => trivial
        | error error => exact .bind (failure_guarded error) fun response => trivial

theorem matches_of_alike {call : Call E} {x x' : Except (Thrown E) (Answer E V call)}
    (hcall : ¬ call.Watches)
    (halike : AlikeAnswers call x x') : Script.Matches Thrown.Alike x x' := by
  cases x with
  | error e =>
    cases x' with
    | error e' =>
      have he : e.Alike e' := by cases call <;> exact halike
      exact .error he
    | ok a' => cases call <;> exact halike.elim
  | ok a =>
    cases x' with
    | error e' => cases call <;> exact halike.elim
    | ok a' =>
      have ha : a = a' := by
        cases call with
        | watchTransfer transferId context => exact absurd trivial hcall
        | _ => exact halike
      rw [ha]
      exact .ok a'

abbrev Unseen (answers answers' : (call : Call E) → Except (Thrown E) (Answer E V call)) {α : Type}
    (s s' : Program E V α) : Prop := Script.Agree answers answers' Thrown.Alike s s'

theorem asked_unseen (halike : ∀ call, AlikeAnswers call (answers call) (answers' call))
    {capability : Capability} {call : Call E}
    {respond : Answer E V call → Except (Thrown E) (Response V)}
    (hcall : ¬ call.Watches) :
    Unseen answers answers' (do
      Script.ofExcept (requireCapability options capability)
      let a ← ask call
      Script.ofExcept (respond a)) (do
      Script.ofExcept (requireCapability options capability)
      let a ← ask call
      Script.ofExcept (respond a)) := by
  apply Script.Agree.bind (.ofExcept Thrown.Alike.refl _)
  intro _
  exact .bind (.io (matches_of_alike hcall (halike call))) fun a => .ofExcept Thrown.Alike.refl _

theorem handleToken_unseen (halike : ∀ call, AlikeAnswers call (answers call) (answers' call)) :
    Unseen answers answers' (handleToken h options request : Program E V (Response V))
      (handleToken h options request) := by
  have hcall : ¬ (Call.authorize request : Call E).Watches := fun hw => hw
  apply Script.Agree.bind (.io (matches_of_alike hcall (halike _)))
  intro session
  cases session with
  | none => exact .ofExcept Thrown.Alike.refl (.error _)
  | some session =>
    apply Script.Agree.bind (.ofExcept Thrown.Alike.refl _)
    intro body
    split
    · exact .ofExcept Thrown.Alike.refl (.error _)
    · exact .bind (.ofExcept Thrown.Alike.refl _) fun minted => .ofExcept Thrown.Alike.refl _

variable (hook : ∀ error, answers (.onError error) = .ok ())
    (hook' : ∀ error, answers' (.onError error) = .ok ())
  (halike : ∀ call, AlikeAnswers call (answers call) (answers' call))
include hook hook'

theorem report_unseen (e e' : Thrown E) :
    Unseen answers answers' (report options e : Program E V Unit) (report options e') := by
  rw [Unseen, Script.Agree, report_run hook, report_run hook']
  exact .ok ()

theorem failure_unseen {e e' : Thrown E} (he : e.Alike e') :
    Unseen answers answers' (failure h options request e) (failure h options request e') := by
  have hforeign : ∀ e e' : Thrown E, Unseen answers answers' (do
      report options e
      Script.ofExcept
        (json h options request
          (.failure "The Beam broker encountered an internal error." "internal") 500)
        : Program E V (Response V)) (do
      report options e'
      Script.ofExcept
        (json h options request
          (.failure "The Beam broker encountered an internal error." "internal") 500)) :=
    fun e e' => (report_unseen hook hook' e e').bind fun _ => .ofExcept Thrown.Alike.refl _
  rcases he with rfl | ⟨he, he'⟩
  · cases e with
    | brokerError message status code => exact .ofExcept Thrown.Alike.refl _
    | beamTokenError message code => exact .ofExcept Thrown.Alike.refl _
    | native name => exact hforeign _ _
    | application error => exact hforeign _ _
  · cases e <;> first | exact he.elim | (cases e' <;> first | exact he'.elim | exact hforeign _ _)

theorem streamFailed_unseen (events : List (Event V)) (e e' : Thrown E) :
    Unseen answers answers' (streamFailed options events e : Program E V (Body V))
      (streamFailed options events e') := by
  rw [Unseen, Script.Agree, streamFailed, streamFailed, Script.run_bind_fst, Script.run_bind_fst,
    Script.run_attempt,
    Script.run_attempt, report_run hook, report_run hook']
  exact .ok _

include halike

theorem streamBody_unseen (transferId : String) (context : BeamSessionContext) :
    Unseen answers answers' (streamBody h options transferId context : Program E V (Body V))
      (streamBody h options transferId context) := by
  have hwatch := halike (.watchTransfer transferId context)
  rw [Unseen, Script.Agree, streamBody, Script.run_bind_fst, Script.run_bind_fst,
    Script.run_attempt,
    Script.run_attempt, ask, Script.run_io_eq, Script.run_io_eq]
  cases hanswer : answers (.watchTransfer transferId context) with
  | error e =>
    cases hanswer' : answers' (.watchTransfer transferId context) with
    | error e' => exact streamFailed_unseen hook hook' [] e e'
    | ok watch' =>
      rw [hanswer, hanswer'] at hwatch
      exact hwatch.elim
  | ok watch =>
    cases hanswer' : answers' (.watchTransfer transferId context) with
    | error e' =>
      rw [hanswer, hanswer'] at hwatch
      exact hwatch.elim
    | ok watch' =>
      rw [hanswer, hanswer'] at hwatch
      obtain ⟨hrecords, hending⟩ := hwatch
      simp only [Except.bind, hrecords]
      cases hevents : enqueue h 0 watch'.records with
      | mk events written =>
        cases written with
        | false => exact streamFailed_unseen hook hook' _ _ _
        | true =>
          simp only
          cases hend : watch.ending with
          | threw e =>
            cases hend' : watch'.ending with
            | threw e' => exact streamFailed_unseen hook hook' _ _ _
            | closed =>
              rw [hend, hend'] at hending
              cases hending
            | waiting =>
              rw [hend, hend'] at hending
              cases hending
          | closed =>
            have hend' : watch'.ending = .closed := by
              rw [hend] at hending
              cases hc : watch'.ending <;> rw [hc] at hending <;> first | rfl | cases hending
            rw [hend']
            exact .ok _
          | waiting =>
            have hend' : watch'.ending = .waiting := by
              rw [hend] at hending
              cases hc : watch'.ending <;> rw [hc] at hending <;> first | rfl | cases hending
            rw [hend']
            exact .ok _

theorem serve_unseen :
    Unseen answers answers' (serve h options route request : Program E V (Response V))
      (serve h options route request) := by
  have hverify : ∀ (scopes : List BeamScope) {f : BeamTokenClaims → Program E V (Response V)},
      (∀ claims, Unseen answers answers' (f claims) (f claims)) →
      Unseen answers answers' (Script.ofExcept (verify h options request scopes) >>= f)
        (Script.ofExcept (verify h options request scopes) >>= f) :=
    fun scopes f hf => .bind (.ofExcept Thrown.Alike.refl _) hf
  unfold serve
  cases route.name with
  | token => exact handleToken_unseen halike
  | roomsCreate =>
    apply hverify
    intro claims
    exact .bind (.ofExcept Thrown.Alike.refl _) fun body => asked_unseen halike fun hw => hw
  | roomsGet => exact hverify _ fun claims => asked_unseen halike fun hw => hw
  | transfersCreate =>
    apply hverify
    intro claims
    apply Script.Agree.bind (.ofExcept Thrown.Alike.refl _)
    intro body
    exact .bind (.ofExcept Thrown.Alike.refl _) fun input => asked_unseen halike fun hw => hw
  | transfersList => exact hverify _ fun claims => asked_unseen halike fun hw => hw
  | transfersEvents =>
    apply hverify
    intro claims
    apply Script.Agree.bind (.ofExcept Thrown.Alike.refl _)
    intro _
    exact .bind (streamBody_unseen hook hook' halike _ _) fun body =>
      .ofExcept Thrown.Alike.refl (.ok _)
  | transfersCancel => exact hverify _ fun claims => asked_unseen halike fun hw => hw
  | transfersGet => exact hverify _ fun claims => asked_unseen halike fun hw => hw

theorem handle_unseen :
    Unseen answers answers'
      (handle h options request : Program E V (Option (Response V)))
        (handle h options request) := by
  unfold handle
  split
  · exact .ofExcept Thrown.Alike.refl (.ok _)
  · split
    · exact .ofExcept Thrown.Alike.refl (.ok _)
    · split
      · exact .ofExcept Thrown.Alike.refl (.error _)
      · exact .ofExcept Thrown.Alike.refl (.ok _)
      · apply Script.Agree.attempt_bind (serve_unseen hook hook' halike)
        intro served served' hserved
        cases hserved with
        | ok response => exact .ofExcept Thrown.Alike.refl (.ok _)
        | error he =>
            exact .bind (failure_unseen hook hook' he) fun response =>
              .ofExcept Thrown.Alike.refl (.ok _)

omit hook' halike

theorem handle_settles (hanswerable : Answerable h options request answers) :
    (∃ r, ((handle h options request).run answers).1 = .ok (some r) ∧
      IsBrokerRoute options request) ∨
      (((handle h options request).run answers).1 = .ok none ∧
        ¬ IsBrokerRoute options request) := by
  cases hpath : pathOf options request with
  | none =>
    right
    constructor
    · simp only [handle, hpath]
      rfl
    · rintro ⟨path, hsome, -⟩
      rw [hpath] at hsome
      cases hsome
  | some path =>
    by_cases hmethod : request.method = "OPTIONS"
    · left
      refine ⟨⟨204, corsHeaders options request, .empty⟩, ?_, path, hpath,
        hanswerable.preflight hmethod path hpath⟩
      simp only [handle, hpath, hmethod, if_true]
      rfl
    · cases hfirst : firstMatch request.method path with
      | none =>
        right
        constructor
        · simp only [handle, hpath, hmethod, if_false, matchRoute_none hfirst]
          rfl
        · rintro ⟨path', hpath', hroute⟩
          rw [hpath] at hpath'
          cases hpath'
          have hsome := hanswerable.method hmethod path hpath hroute
          rw [hfirst] at hsome
          cases hsome
      | some found =>
        obtain ⟨name, id⟩ := found
        obtain ⟨text, htext⟩ :=
          Option.isSome_iff_exists.mp (hanswerable.parameter hmethod path name id hpath hfirst)
        have hroute := matchRoute_some (E := E) hfirst htext
        have hstatus := fun call e => hanswerable.status hmethod path _ call e hpath hroute
        obtain ⟨r, hr⟩ := guardedServe_settles hook hstatus
        refine .inl ⟨r, ?_, path, hpath, isRoute_of_firstMatch hfirst⟩
        rw [handle_routed hpath hmethod hroute]
        exact hr

theorem closedGate_of_answerable (hanswerable : Answerable h options request answers) :
    ClosedGate h options request answers where
  settles := by
    rcases handle_settles hook hanswerable with ⟨r, hr, -⟩ | ⟨hr, -⟩
    · exact ⟨_, hr⟩
    · exact ⟨_, hr⟩
  routed := by
    rcases handle_settles hook hanswerable with ⟨r, hr, hroute⟩ | ⟨hr, hroute⟩
    · rw [hr]
      exact ⟨nofun, fun hn => absurd hroute hn⟩
    · exact ⟨fun _ => hroute, fun _ => hr⟩
  guarded := fun call hcall => handle_guarded.of_mem_run hcall
  blind := by
    intro answers' halike
    have hook' : ∀ error, answers' (.onError error) = .ok () := by
      intro error
      have hsame := halike (.onError error)
      rw [hook error] at hsame
      cases hanswer : answers' (.onError error) with
      | ok _ => rfl
      | error e =>
        rw [hanswer] at hsame
        exact hsame.elim
    have hunseen : Unseen answers answers' (handle h options request) (handle h options request) :=
      handle_unseen hook hook' halike
    have hsettles : ∃ result, ((handle h options request).run answers).1 = .ok result := by
      rcases handle_settles hook hanswerable with ⟨r, hr, -⟩ | ⟨hr, -⟩
      · exact ⟨_, hr⟩
      · exact ⟨_, hr⟩
    obtain ⟨result, hresult⟩ := hsettles
    rw [Unseen, Script.Agree, hresult] at hunseen
    rw [hresult]
    cases hrun : ((handle h options request).run answers').1 with
    | ok result' =>
      rw [hrun] at hunseen
      cases hunseen
      rfl
    | error e =>
      rw [hrun] at hunseen
      cases hunseen

omit hook

theorem answerable_of_closedGate (hgate : ClosedGate h options request answers) :
    Answerable h options request answers where
  preflight := by
    intro hmethod path hpath
    by_contra hroute
    have hnone := hgate.routed.mpr (by
      rintro ⟨path', hpath', hroute'⟩
      rw [hpath] at hpath'
      cases hpath'
      exact hroute hroute')
    simp only [handle, hpath, hmethod, if_true] at hnone
    cases hnone
  method := by
    intro hmethod path hpath hroute
    by_contra hfirst
    rw [Option.not_isSome_iff_eq_none] at hfirst
    have hnone : ((handle h options request).run answers).1 = .ok none := by
      simp only [handle, hpath, hmethod, if_false, matchRoute_none hfirst]
      rfl
    exact hgate.routed.mp hnone ⟨path, hpath, hroute⟩
  parameter := by
    intro hmethod path name id hpath hfirst
    by_contra hid
    rw [Option.not_isSome_iff_eq_none] at hid
    obtain ⟨result, hresult⟩ := hgate.settles
    simp only [handle, hpath, hmethod, if_false, matchRoute_error hfirst hid] at hresult
    cases hresult
  status := by
    intro hmethod path route call e hpath hroute hnext hwatch hanswer
    by_contra he
    obtain ⟨e', he'⟩ := guardedServe_rejects hnext hwatch hanswer he
    obtain ⟨result, hresult⟩ := hgate.settles
    rw [handle_routed hpath hmethod hroute, he'] at hresult
    cases hresult

/-- The gate is closed for a request exactly where the condition holds, whatever the application
does, provided that its error hook returns. -/
theorem handle_closed {h : Host V} {options : BeamBrokerOptions} {request : Request}
    {answers : (call : Call E) → Except (Thrown E) (Answer E V call)}
    (hook : ∀ error, answers (.onError error) = .ok ()) :
    ClosedGate h options request answers ↔ Answerable h options request answers :=
  ⟨answerable_of_closedGate, closedGate_of_answerable hook⟩

def samplePayload : Json := .object
  [("v", .number 1), ("aud", .string "beam-web-sdk"), ("scopes", .array [.string "room:read"]),
    ("iat", .number 0),
    ("exp", .number 120)]

def sampleHost : Host Unit :=
  ⟨⟨fun _ _ => "s", fun text => text, fun text => text, fun _ => some samplePayload, fun _ =>
    "", fun _ => none,
    fun _ => none⟩, 0, "", fun _ => true⟩

def sampleOptions : BeamBrokerOptions :=
  ⟨"ssssssssssssssssssssssssssssssss", [.getRoom], none, none, none, none, none, true⟩

def sampleRequest (method pathname : String) : Request :=
  ⟨method, pathname, [], [("authorization", "Bearer bwt1.p.s")], none⟩

def sampleAnswers : (call : Call Unit) → Except (Thrown Unit) (Answer Unit Unit call)
  | .onError _ => .ok ()
  | _ => .error (.application ())

theorem sample_closed : ClosedGate sampleHost sampleOptions
    (sampleRequest "GET" "/api/beam/rooms/r1") sampleAnswers := by
  apply (handle_closed fun _ => rfl).mpr
  exact
    { preflight := nofun
      method := fun _ path hpath _ => by
        cases hpath
        decide
      parameter := fun _ path name id hpath hfirst => by
        cases hpath
        have hid : id = "r1".toList := by
          have hpair : firstMatch "GET" "/rooms/r1".toList = some (.roomsGet, "r1".toList) := by
            decide
          exact congrArg Prod.snd (Option.some.inj (hfirst.symm.trans hpair))
        rw [hid]
        decide
      status := fun _ path route call e _ _ _ _ hanswer => by
        cases call <;> cases hanswer <;> exact .of_notBroker nofun }

/-- An escape that does not decode is thrown past the guard, and a preflight is answered for
another application's path. -/
theorem sample_open :
    ¬ ClosedGate sampleHost sampleOptions (sampleRequest "GET" "/api/beam/rooms/%zz")
      sampleAnswers ∧
      ¬ ClosedGate sampleHost sampleOptions (sampleRequest "OPTIONS" "/api/beamer/users")
        sampleAnswers := by
  constructor
  · rintro ⟨⟨result, hresult⟩, -⟩
    have hrejects :
        ((handle sampleHost sampleOptions (sampleRequest "GET" "/api/beam/rooms/%zz")).run
          sampleAnswers).1 =
        .error (.native "URIError") := rfl
    rw [hrejects] at hresult
    cases hresult
  · intro hgate
    have hanswered :
        ((handle sampleHost sampleOptions (sampleRequest "OPTIONS" "/api/beamer/users")).run
          sampleAnswers).1 =
        .ok (some ⟨204, [], .empty⟩) := rfl
    have hroute : ¬ IsBrokerRoute sampleOptions (sampleRequest "OPTIONS" "/api/beamer/users") := by
      rintro ⟨path, hpath, hroute⟩
      cases hpath
      revert hroute
      decide
    rw [hgate.routed.mpr hroute] at hanswered
    cases hanswered

end Broker
end Beam.Web
