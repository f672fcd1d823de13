import BeamSdk.Web.Transport

/-! How many transfers one `create` starts. The key it is sent with ends at the broker: BeamCore is
called without one, and starts a transfer for every attempt that gets through to it. -/

namespace Beam.Web
variable {E N : Type}

namespace Upstream
variable {context : BeamSessionContext}

abbrev Keyed (call : SdkCall N) : Bool := call.key.isSome

theorem resolve_atMost (reference : String) (context : BeamSessionContext) :
    (resolve reference context : Program E N N).AtMost Keyed 0 := by
  apply Script.AtMost.bind (n := 0) (m := 0) (.io_other rfl 0)
  intro resolved
  cases resolved <;> trivial

theorem resolveAll_atMost (references : List String) :
    (resolveAll context references : Program E N (List N)).AtMost Keyed 0 := by
  induction references with
  | nil => trivial
  | cons reference references ih =>
    apply Script.AtMost.bind (n := 0) (m := 0) (resolve_atMost reference context).attempt
    intro resolved
    exact .bind ih.attempt fun others => .ofExcept _ 0

theorem createTransfer_atMost (createdAt : String) (input : CreateTransferInput)
    (context : BeamSessionContext) :
    (createTransfer createdAt input context : Program E N TransferRecord).AtMost Keyed 1 := by
  apply Script.AtMost.bind (n := 0) (m := 1) (resolve_atMost input.source context).attempt
  intro resolved
  apply Script.AtMost.bind (n := 0) (m := 1) (resolveAll_atMost input.destinations).attempt
  intro others
  apply Script.AtMost.bind (n := 0) (m := 1) (.ofExcept _ 0)
  intro source
  apply Script.AtMost.bind (n := 0) (m := 1) (.ofExcept _ 0)
  intro destinations
  apply Script.AtMost.bind (n := 0) (m := 1) (.io_other rfl 0)
  intro _
  apply Script.AtMost.bind (n := 1) (m := 0) (.io _)
  intro created
  split <;> trivial

abbrev Keyless (call : SdkCall N) : Prop := ∀ key, call.key = some key → key = none

theorem resolve_keyless (reference : String) (context : BeamSessionContext) :
    (resolve reference context : Program E N N).Uses Keyless := by
  apply Script.Uses.bind (.io fun _ => nofun)
  intro resolved
  cases resolved <;> trivial

theorem resolveAll_keyless (references : List String) :
    (resolveAll context references : Program E N (List N)).Uses Keyless := by
  induction references with
  | nil => trivial
  | cons reference references ih =>
    apply Script.Uses.bind (resolve_keyless reference context).attempt
    intro resolved
    exact .bind ih.attempt fun others => .ofExcept _

theorem createTransfer_keyless (createdAt : String) (input : CreateTransferInput)
    (context : BeamSessionContext) :
    (createTransfer createdAt input context : Program E N TransferRecord).Uses Keyless := by
  apply Script.Uses.bind (resolve_keyless input.source context).attempt
  intro resolved
  apply Script.Uses.bind (resolveAll_keyless input.destinations).attempt
  intro others
  apply Script.Uses.bind (.ofExcept _)
  intro source
  apply Script.Uses.bind (.ofExcept _)
  intro destinations
  apply Script.Uses.bind (.io fun _ => nofun)
  intro _
  have hnone : Keyless (.createTransfer ⟨source, destinations, input.name, none⟩ : SdkCall N) := by
    rintro key ⟨⟩
    rfl
  apply Script.Uses.bind (.io hnone)
  intro created
  split <;> trivial

end Upstream

def Call.starts : Call E → Bool
  | .createTransfer _ _ => true
  | _ => false

namespace Broker
variable {V : Type} {h : Host V} {options : BeamBrokerOptions} {request : Request}

theorem asked_atMost {capability : Capability} (call : Call E)
    {respond : Answer E V call → Except (Thrown E) (Response V)} :
    Script.AtMost Call.starts (do
      Script.ofExcept (requireCapability options capability)
      let a ← ask call
      Script.ofExcept (respond a) : Program E V (Response V)) 1 := by
  apply Script.AtMost.bind (n := 0) (m := 1) (.ofExcept _ 0)
  intro _
  exact .bind (.io call) fun a => .ofExcept _ 0

theorem report_atMost (error : Thrown E) :
    (report options error : Program E V Unit).AtMost Call.starts 0 := by
  unfold report
  split
  · exact .io_other rfl 0
  · trivial

theorem failure_atMost (error : Thrown E) :
    (failure h options request error : Program E V (Response V)).AtMost Call.starts 0 := by
  cases error with
  | brokerError message status code => exact .ofExcept _ 0
  | beamTokenError message code => exact .ofExcept _ 0
  | native name => exact .bind (report_atMost _) fun _ => .ofExcept _ 0
  | application error => exact .bind (report_atMost _) fun _ => .ofExcept _ 0

theorem streamFailed_atMost (events : List (Event V)) (error : Thrown E) :
    (streamFailed options events error : Program E V (Body V)).AtMost Call.starts 0 := by
  apply Script.AtMost.bind (n := 0) (m := 0) (report_atMost error).attempt
  intro reported
  cases reported <;> trivial

theorem streamBody_atMost (transferId : String) (context : BeamSessionContext) :
    (streamBody h options transferId context : Program E V (Body V)).AtMost Call.starts 0 := by
  apply Script.AtMost.bind (n := 0) (m := 0) (Script.AtMost.io_other rfl 0).attempt
  intro watch
  cases watch with
  | error error => exact streamFailed_atMost _ _
  | ok watch =>
    simp only
    split
    · exact streamFailed_atMost _ _
    · split
      · trivial
      · exact streamFailed_atMost _ _
      · trivial

theorem handleToken_atMost :
    (handleToken h options request : Program E V (Response V)).AtMost Call.starts 0 := by
  apply Script.AtMost.bind (n := 0) (m := 0) (.io_other rfl 0)
  intro session
  cases session with
  | none => trivial
  | some session =>
    apply Script.AtMost.bind (n := 0) (m := 0) (.ofExcept _ 0)
    intro body
    split
    · trivial
    · exact .bind (.ofExcept _ 0) fun minted => .ofExcept _ 0

theorem serve_atMost (route : RouteMatch) :
    (serve h options route request : Program E V (Response V)).AtMost Call.starts 1 := by
  unfold serve
  cases route.name with
  | token => exact handleToken_atMost.mono (Nat.zero_le 1)
  | roomsCreate =>
    apply Script.AtMost.bind (n := 0) (m := 1) (.ofExcept _ 0)
    intro claims
    exact .bind (n := 0) (.ofExcept _ 0) fun body => asked_atMost _
  | roomsGet => exact .bind (n := 0) (.ofExcept _ 0) fun claims => asked_atMost _
  | transfersCreate =>
    apply Script.AtMost.bind (n := 0) (m := 1) (.ofExcept _ 0)
    intro claims
    apply Script.AtMost.bind (n := 0) (m := 1) (.ofExcept _ 0)
    intro body
    exact .bind (n := 0) (.ofExcept _ 0) fun input => asked_atMost _
  | transfersList => exact .bind (n := 0) (.ofExcept _ 0) fun claims => asked_atMost _
  | transfersEvents =>
    apply Script.AtMost.bind (n := 0) (m := 1) (.ofExcept _ 0)
    intro claims
    apply Script.AtMost.bind (n := 0) (m := 1) (.ofExcept _ 0)
    intro _
    exact .bind (n := 0) (m := 1) (streamBody_atMost _ _) fun body => .ofExcept (.ok _) 1
  | transfersCancel => exact .bind (n := 0) (.ofExcept _ 0) fun claims => asked_atMost _
  | transfersGet => exact .bind (n := 0) (.ofExcept _ 0) fun claims => asked_atMost _

theorem handle_atMost : (handle h options request : Program E V (Option (Response V))).AtMost
    Call.starts 1 := by
  unfold handle
  split
  · trivial
  · split
    · trivial
    · split
      · trivial
      · trivial
      · apply Script.AtMost.bind (n := 1) (m := 0) (serve_atMost _).attempt
        intro served
        cases served with
        | ok response => trivial
        | error error =>
            exact .bind (n := 0) (m := 0) (failure_atMost error) fun response => .ofExcept (.ok _) 0

end Broker

/-- A list whose elements give one item each, and only where they are of a kind, gives no more than
it has of them. -/
theorem length_flatMap_le {α β : Type} {f : α → List β} {kind : α → Bool}
    (hf : ∀ a, (f a).length ≤ if kind a then 1 else 0) (l : List α) :
      (l.flatMap f).length ≤ l.countP kind := by
  induction l with
  | nil => exact Nat.le_refl 0
  | cons a l ih =>
    rw [List.flatMap_cons, List.length_append, List.countP_cons, Nat.add_comm]
    exact Nat.add_le_add ih (hf a)

namespace BrokerWorld
variable (w : BrokerWorld E N) (options : BeamBrokerOptions) (init : FetchInit)

theorem length_keysOf (call : Call E) : (w.keysOf call).length ≤ if call.starts then 1 else 0 := by
  cases call with
  | createTransfer input context =>
    rw [keysOf, List.length_filterMap_eq_countP]
    exact (Upstream.createTransfer_atMost w.createdAt input context).countP_run
  | _ => exact Nat.le_refl 0

theorem keysOf_eq_none {call : Call E} {key : Option String} (hkey : key ∈ w.keysOf call) :
    key = none := by
  cases call with
  | createTransfer input context =>
    obtain ⟨call, hcall, hsome⟩ := List.mem_filterMap.mp hkey
    exact (Upstream.createTransfer_keyless w.createdAt input context).of_mem_run hcall key hsome
  | _ => cases hkey

theorem length_creates : (w.creates options init).length ≤ 1 := by
  rw [creates]
  split
  · exact (length_flatMap_le w.length_keysOf _).trans Broker.handle_atMost.countP_run
  · exact Nat.zero_le 1

theorem creates_eq_none {key : Option String} (hkey : key ∈ w.creates options init) :
    key = none := by
  rw [creates] at hkey
  split at hkey
  · obtain ⟨call, -, hmem⟩ := List.mem_flatMap.mp hkey
    exact w.keysOf_eq_none hmem
  · cases hkey

end BrokerWorld

section
variable {t : HttpTransport} {options : BeamBrokerOptions} {o : RequestOptions}
    {key : Option String}
  {turn : Turn E N} {turns before after : List (Turn E N)}

def Turn.Reaches (t : HttpTransport) (options : BeamBrokerOptions) (o : RequestOptions)
    (key : Option String)
    (turn : Turn E N) : Prop := turn.creates t options o key ≠ []

instance : Decidable (turn.Reaches t options o key) := inferInstanceAs (Decidable (_ ≠ _))

def controlAfter (t : HttpTransport) (options : BeamBrokerOptions) (o : RequestOptions)
    (key : Option String)
    (turns : List (Turn E N)) : Control :=
      turns.foldl (fun c turn => (c.next t options o key turn).1) .start

/-- No turn is taken in which BeamCore acts, after another in which it did: the answer to the first
has come back as a success or as an error that is not retried, the attempts are used up, or the
caller has aborted. -/
def Spared (t : HttpTransport) (options : BeamBrokerOptions) (o : RequestOptions)
    (key : Option String)
    (turns : List (Turn E N)) : Prop :=
  ∀ before turn after, turns = before ++ turn :: after →
    (controlAfter t options o key before).takes turn →
    turn.Reaches t options o key → ∀ earlier ∈ before, ¬ earlier.Reaches t options o key

structure OneTransfer (key : String) (s : Operation) : Prop where
  started : s.core.started.length ≤ 1
  keyed : ∀ init ∈ s.sent, init.headers.get "Idempotency-Key" = some key
  reminted : s.invalidations ≤ 1

def runOf (t : HttpTransport) (options : BeamBrokerOptions) (o : RequestOptions)
    (key : Option String)
    (turns : List (Turn E N)) : Operation := turns.foldl (Operation.step t options o key) .start

theorem runOf_snoc (turns : List (Turn E N)) (turn : Turn E N) :
    runOf t options o key (turns ++ [turn]) =
      (runOf t options o key turns).step t options o key turn := by
  rw [runOf, List.foldl_append]
  rfl

theorem controlAfter_snoc (turns : List (Turn E N)) (turn : Turn E N) :
    controlAfter t options o key (turns ++ [turn]) =
      ((controlAfter t options o key turns).next t options o key turn).1 := by
  rw [controlAfter, List.foldl_append]
  rfl

theorem step_control (s : Operation) (turn : Turn E N) :
    (s.step t options o key turn).control = (s.control.next t options o key turn).1 := by
  unfold Operation.step
  simp only
  split <;> rfl

theorem runOf_control (turns : List (Turn E N)) :
    (runOf t options o key turns).control = controlAfter t options o key turns := by
  induction turns using List.reverseRecOn with
  | nil => rfl
  | append_singleton turns turn ih => rw [runOf_snoc, controlAfter_snoc, step_control, ih]

theorem length_creates (turn : Turn E N) : (turn.creates t options o key).length ≤ 1 := by
  unfold Turn.creates
  split
  · unfold Exchange.creates
    split
    · exact Nat.zero_le 1
    · exact BrokerWorld.length_creates _ _ _
  · exact Nat.zero_le 1

theorem creates_eq_none {turn : Turn E N} {k : Option String}
    (hk : k ∈ turn.creates t options o key) : k = none := by
  unfold Turn.creates at hk
  split at hk
  · unfold Exchange.creates at hk
    split at hk
    · cases hk
    · exact BrokerWorld.creates_eq_none _ _ _ hk
  · cases hk

theorem creates_of_reaches (h : turn.Reaches t options o key) :
    turn.creates t options o key = [none] := by
  obtain ⟨k, hk⟩ := List.length_eq_one_iff.mp
    (Nat.le_antisymm (length_creates turn) (List.length_pos_iff.mpr h))
  have hmem : k ∈ turn.creates t options o key := by
    rw [hk]
    exact List.mem_singleton_self k
  rw [hk, creates_eq_none hmem]

theorem step_started (s : Operation) :
    ((s.step t options o key turn).core.started.length =
      s.core.started.length + if s.control.takes turn ∧
        turn.Reaches t options o key then 1 else 0) := by
  unfold Operation.step
  by_cases htakes : s.control.takes turn = true
  · simp only [htakes, if_true, true_and]
    by_cases hreach : turn.Reaches t options o key
    · rw [if_pos hreach, creates_of_reaches hreach]
      exact List.length_append
    · rw [if_neg hreach, not_not.mp hreach]
      rfl
  · simp only [htakes]
    rfl

theorem takes_of_next (c : Control)
    (h : ∀ outcome, (c.next t options o key turn).1.stage ≠ .finished outcome) :
    c.takes turn = true ∧ ∀ outcome, c.stage ≠ .finished outcome := by
  by_cases htakes : c.takes turn = true
  · refine ⟨htakes, fun outcome hover => ?_⟩
    rw [Control.takes, hover] at htakes
    cases htakes
  · exfalso
    rw [Control.next, if_neg htakes] at h
    cases hstage : c.stage with
    | looping =>
      rw [hstage] at h
      exact h _ rfl
    | reminted =>
      rw [Control.takes, hstage] at htakes
      exact htakes rfl
    | finished outcome =>
      rw [hstage] at h
      exact h outcome hstage

theorem started_eq_countP
    (h : ∀ outcome, (controlAfter t options o key turns).stage ≠ .finished outcome) :
    (runOf t options o key turns).core.started.length =
      turns.countP fun turn => turn.Reaches t options o key := by
  induction turns using List.reverseRecOn with
  | nil => rfl
  | append_singleton turns turn ih =>
    rw [controlAfter_snoc] at h
    obtain ⟨htakes, hstage⟩ := takes_of_next _ h
    rw [runOf_snoc, step_started, ih hstage, runOf_control, List.countP_append,
      List.countP_singleton]
    by_cases hreach : turn.Reaches t options o key
    · have hboth : (controlAfter t options o key turns).takes turn = true ∧
          turn.Reaches t options o key :=
        ⟨htakes, hreach⟩
      rw [if_pos hboth, if_pos (decide_eq_true hreach)]
    · have hneither : ¬ ((controlAfter t options o key turns).takes turn = true ∧
          turn.Reaches t options o key) :=
        fun hboth => hreach hboth.2
      rw [if_neg hneither, if_neg (by simpa using hreach)]

theorem spared_shorter (h : Spared t options o key (turns ++ [turn])) :
    Spared t options o key turns := by
  rintro before later after rfl
  exact h before later (after ++ [turn]) (by simp only [List.append_assoc, List.cons_append])

theorem spared_snoc : Spared t options o key (turns ++ [turn]) ↔
    Spared t options o key turns ∧ ((controlAfter t options o key turns).takes turn →
      turn.Reaches t options o key → ∀ earlier ∈ turns, ¬ earlier.Reaches t options o key) := by
  constructor
  · exact fun h => ⟨spared_shorter h, h turns turn [] rfl⟩
  · rintro ⟨hturns, hlast⟩ before later after heq
    rcases List.eq_nil_or_concat after with rfl | ⟨rest, last, rfl⟩
    · obtain ⟨rfl, hsame⟩ := List.append_inj' heq rfl
      cases hsame
      exact hlast
    · have hsplit : turns = before ++ later :: rest := by
        have hassoc : turns ++ [turn] = (before ++ later :: rest) ++ [last] := by
          simpa only [List.concat_eq_append, List.append_assoc, List.cons_append] using heq
        exact (List.append_inj' hassoc rfl).1
      exact hturns before later rest hsplit

theorem started_le_one_iff (turns : List (Turn E N)) :
    (runOf t options o key turns).core.started.length ≤ 1 ↔ Spared t options o key turns := by
  induction turns using List.reverseRecOn with
  | nil =>
    refine ⟨fun _ before later after heq => ?_, fun _ => Nat.zero_le 1⟩
    exact absurd heq.symm (List.append_ne_nil_of_right_ne_nil before (List.cons_ne_nil later after))
  | append_singleton turns turn ih =>
    rw [spared_snoc, runOf_snoc, step_started, runOf_control, ← ih]
    by_cases hboth : (controlAfter t options o key turns).takes turn = true ∧
      turn.Reaches t options o key
    · have hgoing : ∀ outcome, (controlAfter t options o key turns).stage ≠ .finished outcome := by
        intro outcome hover
        have htakes := hboth.1
        rw [Control.takes, hover] at htakes
        cases htakes
      have hcount := started_eq_countP hgoing
      rw [if_pos hboth, hcount]
      constructor
      · intro hle
        have hzero : turns.countP (fun turn => turn.Reaches t options o key) = 0 := by omega
        refine ⟨by omega, fun _ _ earlier hmem hreach => ?_⟩
        exact List.countP_eq_zero.mp hzero earlier hmem (decide_eq_true hreach)
      · rintro ⟨-, hnone⟩
        have hzero : turns.countP (fun turn => turn.Reaches t options o key) = 0 :=
          List.countP_eq_zero.mpr fun earlier hmem => by
            simpa using hnone hboth.1 hboth.2 earlier hmem
        omega
    · rw [if_neg hboth, Nat.add_zero]
      exact ⟨fun hle => ⟨hle, fun htakes hreach => absurd ⟨htakes, hreach⟩ hboth⟩, And.left⟩

theorem headers_key {k : String} (token : Option String) :
    (t.headers o (some k) token).get "Idempotency-Key" = some k := by
  unfold HttpTransport.headers
  cases token with
  | none => exact OrderedMap.get_set_self _ _ _
  | some token =>
    have hne : "Idempotency-Key" ≠ "authorization" := by decide
    exact (OrderedMap.get_set_of_ne _ hne _).trans (OrderedMap.get_set_self _ _ _)

theorem init_key {k : String} {init : FetchInit} (h : turn.init t o (some k) = .ok init) :
    init.headers.get "Idempotency-Key" = some k := by
  unfold Turn.init at h
  split at h
  · cases htoken : turn.token with
    | error failure =>
      rw [htoken] at h
      cases h
    | ok token =>
      rw [htoken] at h
      cases h
      exact headers_key (t := t) (o := o) (some token)
  · cases h
    exact headers_key (t := t) (o := o) none

theorem sent_key {k : String} (turns : List (Turn E N)) :
    ∀ init ∈ (runOf t options o (some k) turns).sent,
      init.headers.get "Idempotency-Key" = some k := by
  induction turns using List.reverseRecOn with
  | nil => exact fun _ => nofun
  | append_singleton turns turn ih =>
    rw [runOf_snoc]
    unfold Operation.step
    simp only
    split
    · intro init hinit
      rcases List.mem_append.mp hinit with hinit | hinit
      · exact ih init hinit
      · cases hturn : turn.init t o (some k) with
        | error failure =>
          rw [hturn] at hinit
          cases hinit
        | ok sent =>
          rw [hturn] at hinit
          obtain rfl := List.mem_singleton.mp hinit
          exact init_key hturn
    · exact ih

theorem failed_retried (c : Control) (failure : Failure) :
    (c.failed t failure).retriedAfterAuthFailure = c.retriedAfterAuthFailure := by
  unfold Control.failed
  simp only
  split <;> rfl

structure Drops (c : Control) (next : Control × Bool) : Prop where
  dropped : next.2 = true → c.retriedAfterAuthFailure = false ∧
    next.1.retriedAfterAuthFailure = true
  kept : next.2 = false → next.1.retriedAfterAuthFailure = c.retriedAfterAuthFailure

theorem Drops.of_failed (c : Control) (failure : Failure) : Drops c (c.failed t failure, false) :=
  ⟨nofun, fun _ => failed_retried c failure⟩

theorem answered_drops (c : Control) (reply : Except Lost HttpResponse) :
    Drops c (c.answered t o reply) := by
  unfold Control.answered
  cases reply with
  | error lost => exact .of_failed c _
  | ok response =>
    simp only
    split
    · split
      · exact .of_failed c _
      · exact .of_failed c _
      · exact ⟨nofun, fun _ => rfl⟩
    · split
      · rename_i hremint
        refine ⟨fun _ => ⟨?_, rfl⟩, nofun⟩
        simpa using hremint.2.2
      · exact .of_failed c _

theorem next_drops (c : Control) : Drops c (c.next t options o key turn) := by
  unfold Control.next
  split
  · split
    · exact answered_drops c _
    · exact .of_failed c _
  · split
    · exact ⟨nofun, fun _ => rfl⟩
    · exact ⟨nofun, fun _ => rfl⟩

theorem step_invalidations (s : Operation) : (s.step t options o key turn).invalidations =
    s.invalidations + if (s.control.next t options o key turn).2 then 1 else 0 := by
  unfold Operation.step
  by_cases htakes : s.control.takes turn = true
  · simp only [htakes, if_true]
  · have hnext : (s.control.next t options o key turn).2 = false := by
      rw [Control.next, if_neg htakes]
      split <;> rfl
    simp only [htakes, hnext]
    rfl

theorem runOf_invalidations (turns : List (Turn E N)) :
    (runOf t options o key turns).invalidations =
      if (runOf t options o key turns).control.retriedAfterAuthFailure then 1 else 0 := by
  induction turns using List.reverseRecOn with
  | nil => rfl
  | append_singleton turns turn ih =>
    have hdrops : Drops _ ((runOf t options o key turns).control.next t options o key turn) :=
      next_drops _
    rw [runOf_snoc, step_control, step_invalidations, ih]
    cases hnext : ((runOf t options o key turns).control.next t options o key turn).2 with
    | true =>
      obtain ⟨hbefore, hafter⟩ := hdrops.dropped hnext
      rw [hbefore, hafter]
      rfl
    | false =>
      rw [hdrops.kept hnext]
      rfl

theorem create_once_of {k : String} (turns : List (Turn E N)) :
    OneTransfer k (runOf t options o (some k) turns) ↔ Spared t options o (some k) turns := by
  rw [← started_le_one_iff]
  refine ⟨OneTransfer.started, fun hstarted => ⟨hstarted, sent_key turns, ?_⟩⟩
  rw [runOf_invalidations]
  split
  · exact Nat.le_refl 1
  · exact Nat.zero_le 1

end

/-- Of one `create`: BeamCore starts one transfer exactly in the runs in which no turn reaches it
after another has. -/
theorem create_once (t : HttpTransport) (options : BeamBrokerOptions)
    (input : CreateTransferOptions) (key fresh : String)
    (turns : List (Turn E N)) :
    OneTransfer key (request t options (createOptions input key) fresh turns) ↔
      Spared t options (createOptions input key) (some key) turns :=
  create_once_of turns

def sampleClaims : Json := .object
  [("v", .number 1), ("aud", .string "beam-web-sdk"),
    ("scopes", .array [.string "transfers:create"]), ("iat", .number 0),
    ("exp", .number 120)]

def sampleInput : CreateTransferOptions := ⟨"s3:reports", .one "s3:archive", none, none⟩

def sampleTransport : HttpTransport := ⟨"/api/beam", true, 3, [], fun _ => "body"⟩

def sampleBroker : BeamBrokerOptions :=
  ⟨"ssssssssssssssssssssssssssssssss", [.createTransfer], none, none, none, none, none, false⟩

/-- A platform on which the token reads as the sample's claims, and the body as the sample's input.
-/
def sampleWorld : BrokerWorld Unit Unit where
  addedHeaders := []
  host :=
    { sign := fun _ _ => "s"
      toBase64Url := fun text => text
      fromBase64Url := fun text => text
      parse := fun text =>
        if text = "body" then (createOptions sampleInput "k").body else some sampleClaims
      write := fun _ => ""
      toNumber := fun _ => none
      toText := Json.text ∘ some
      now := 0
      jti := ""
      serializes := fun _ => true }
  application := fun _ => .error (.application ())
  sdk := fun
    | .resolveEndpoint _ _ _ => .ok (some ())
    | .client => .ok ()
    | .createTransfer _ => .ok ⟨some "tr_1", none⟩
  createdAt := ""
  acts := true
  fallback := ⟨500, .absent⟩

def sampleTurns : List (Turn Unit Unit) :=
  [⟨false, .ok "bwt1.p.s", .delivered sampleWorld (some (.error .timeout))⟩,
    ⟨false, .ok "bwt1.p.s", .delivered sampleWorld none⟩]

theorem sample_twice :
    ¬ OneTransfer "k" (request sampleTransport sampleBroker
      (createOptions sampleInput "k") "" sampleTurns) := by
  intro hone
  have htwo :
      (request sampleTransport sampleBroker
        (createOptions sampleInput "k") "" sampleTurns).core.started =
      [none, none] := by decide +kernel
  have hle := hone.started
  rw [htwo] at hle
  exact absurd hle (by decide)

end Beam.Web
