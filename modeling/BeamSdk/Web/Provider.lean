import Mathlib.Data.Rat.Defs
import Mathlib.Algebra.Order.Ring.Unbundled.Rat
import Mathlib.Data.List.Basic
import BeamSdk.Library.Run

/-! The provider of access tokens: the cache, the mint that the callers share, and what invalidating
and aborting do to it. -/

namespace Beam.Web.Provider

structure BeamToken where
  value : String
  expiresAt : ℚ
  deriving DecidableEq

def refreshAtFraction : ℚ := 3 / 4

def minRefreshMarginMs : ℚ := 5000

def fallbackTtlSeconds : ℚ := 120

def isTokenUsable (token : BeamToken) (now : ℚ) : Bool :=
    !decide (token.expiresAt - now ≤ minRefreshMarginMs)

def isTokenStale (token : BeamToken) (now issuedAt : ℚ) : Bool :=
  let totalMs := token.expiresAt - issuedAt
  if totalMs ≤ 0 then true else decide (totalMs * refreshAtFraction ≤ now - issuedAt) ||
    !isTokenUsable token now

/-- How the mint's promise settles. `aborted`: the signal it runs under made it reject. -/
inductive Reply
  | response (access_token : Option String) (expires_in : Option ℚ)
  | rejected
  | aborted

inductive Outcome
  | got (token : BeamToken)
  | failed
  | aborted
  deriving DecidableEq

/-- `exp` is the claim that `decodeTokenClaims` finds. -/
def normalizeTokenResponse (exp : String → Option ℚ) (value : String) (expires_in : Option ℚ)
    (now : ℚ) : BeamToken :=
  match exp value, expires_in with
  | some exp, _ => ⟨value, exp * 1000⟩
  | none, some expires_in => ⟨value, now + expires_in * 1000⟩
  | none, none => ⟨value, now + fallbackTtlSeconds * 1000⟩

def refreshed (exp : String → Option ℚ) (now : ℚ) : Reply → Outcome
  | .response access_token expires_in =>
    match access_token with
    | none => .failed
    | some value =>
      if value.isEmpty then .failed
      else
        let token := normalizeTokenResponse exp value expires_in now
        if isTokenUsable token now then .got token else .failed
  | .rejected => .failed
  | .aborted => .aborted

/-- A mint that is being called; whose promise is there; whose refresh has ended; and for which
`finally` has run. -/
inductive Phase
  | calling
  | flying
  | ended (outcome : Outcome)
  | cleared (outcome : Outcome)
  deriving DecidableEq

def Phase.outcome : Phase → Option Outcome
  | .calling | .flying => none
  | .ended outcome | .cleared outcome => some outcome

structure Mint where
  signal : Option ℕ
  phase : Phase
  deriving DecidableEq

inductive Answer
  | cached (token : BeamToken)
  | minted (mint : ℕ)
  deriving DecidableEq

/-- `barred` are the tokens that had been returned, or were cached, at an `invalidate` before the
call. -/
structure Call where
  signal : Option ℕ
  barred : List String
  answer : Answer

/-- `calling` are the mints that are being called, the innermost first; `given` are the tokens that
mints gave. -/
structure CachingTokenProvider where
  token : Option BeamToken
  issuedAt : ℚ
  inFlight : Option ℕ
  calling : List ℕ
  mints : List Mint
  calls : List Call
  aborted : List ℕ
  given : List String
  returned : List String
  barred : List String

inductive Step
  -- with what the clock shows when the cached token is looked at, and looked at once more
  | getToken (signal : Option ℕ) (now now' : ℚ)
  -- the mint that is being called gives its promise
  | returns
  | answers (mint : ℕ) (reply : Reply) (now : ℚ)
  | finally (mint : ℕ)
  | delivers (call : ℕ)
  | invalidate
  | abort (signal : ℕ)

namespace CachingTokenProvider

def initial : CachingTokenProvider := ⟨none, 0, none, [], [], [], [], [], [], []⟩

def fresh (s : CachingTokenProvider) (now : ℚ) : Option BeamToken :=
  s.token.filter fun current => !isTokenStale current now s.issuedAt

def usable (s : CachingTokenProvider) (now : ℚ) : Option BeamToken :=
    s.token.filter fun current => isTokenUsable current now

def answered (s : CachingTokenProvider) (signal : Option ℕ) (answer : Answer) :
    CachingTokenProvider :=
  { s with calls := s.calls ++ [⟨signal, s.barred, answer⟩] }

def begun (s : CachingTokenProvider) (signal : Option ℕ) : CachingTokenProvider :=
  { s.answered signal (.minted s.mints.length) with
    mints := s.mints ++ [⟨signal, .calling⟩]
    calling := s.mints.length :: s.calling }

def getToken (s : CachingTokenProvider) (signal : Option ℕ) (now now' : ℚ) : CachingTokenProvider :=
  match s.fresh now with
  | some current => s.answered signal (.cached current)
  | none =>
    match s.inFlight with
    | some mint =>
      match s.usable now' with
      | some current => s.answered signal (.cached current)
      | none => s.answered signal (.minted mint)
    | none => s.begun signal

def setPhase (s : CachingTokenProvider) (mint : ℕ) (phase : Phase) : CachingTokenProvider :=
  { s with mints := s.mints.modify mint fun m => { m with phase := phase } }

def keep (s : CachingTokenProvider) (now : ℚ) : Outcome → CachingTokenProvider
  | .got token => { s with token := some token, issuedAt := now, given := token.value :: s.given }
  | .failed | .aborted => s

def invalidate (s : CachingTokenProvider) : CachingTokenProvider :=
  { s with
    token := none
    issuedAt := 0
    barred := (s.token.toList.map BeamToken.value ++ s.returned) ++ s.barred }

/-- Only an aborted signal makes a mint reject for it, and mints give tokens that were not given
before. -/
def possible (s : CachingTokenProvider) (signal : Option ℕ) : Outcome → Bool
  | .got token => !s.given.contains token.value
  | .failed => true
  | .aborted => signal.any s.aborted.contains

def settled (s : CachingTokenProvider) : Answer → Option (Option BeamToken)
  | .cached token => some (some token)
  | .minted mint =>
    match s.mints[mint]? with
    | some ⟨_, .cleared (.got token)⟩ => some (some token)
    | some ⟨_, .cleared _⟩ => some none
    | _ => none

def step (exp : String → Option ℚ) (s : CachingTokenProvider) : Step → Option CachingTokenProvider
  | .getToken signal now now' => some (s.getToken signal now now')
  | .returns =>
    match s.calling with
    | [] => none
    | mint :: calling =>
        some { s.setPhase mint .flying with calling := calling, inFlight := some mint }
  | .answers mint reply now =>
    match s.calling, s.mints[mint]? with
    | [], some ⟨signal, .flying⟩ =>
      let outcome := refreshed exp now reply
      if s.possible signal outcome then some ((s.setPhase mint (.ended outcome)).keep now outcome)
        else none
    | _, _ => none
  | .finally mint =>
    match s.calling, s.mints[mint]? with
    | [], some ⟨_, .ended outcome⟩ =>
        some { s.setPhase mint (.cleared outcome) with inFlight := none }
    | _, _ => none
  | .delivers call =>
    match s.calling, s.calls[call]? with
    | [], some call => (s.settled call.answer).map fun token =>
        { s with returned := (token.map BeamToken.value).toList ++ s.returned }
    | _, _ => none
  | .invalidate => some s.invalidate
  | .abort signal => some { s with aborted := signal :: s.aborted }

def outcome (s : CachingTokenProvider) (mint : ℕ) : Option Outcome :=
    s.mints[mint]?.bind fun m => m.phase.outcome

def result (s : CachingTokenProvider) : Answer → Option BeamToken
  | .cached token => some token
  | .minted mint =>
    match s.outcome mint with
    | some (.got token) => some token
    | _ => none

def minting (s : CachingTokenProvider) (mint : ℕ) : Prop :=
  ∃ m, s.mints[mint]? = some m ∧ (m.phase = .calling ∨ m.phase = .flying)

structure SharesMints (s : CachingTokenProvider) : Prop where
  single : ∀ mint mint', s.minting mint → s.minting mint' → mint = mint'
  spared : ∀ call ∈ s.calls, ∀ token, s.result call.answer = some token → token.value ∉ call.barred
  alone : ∀ call ∈ s.calls, ∀ mint, call.answer = .minted mint → s.outcome mint = some .aborted →
    ∃ m, s.mints[mint]? = some m ∧ m.signal = call.signal

/-- A call is given a token that is usable, or a mint that has not failed, or it mints. -/
def Serves (s : CachingTokenProvider) : Step → CachingTokenProvider → Prop
  | .getToken signal now now', s' =>
    ∃ answer, s'.calls = s.calls ++ [⟨signal, s.barred, answer⟩] ∧
      match answer with
      | .cached token =>
          s.token = some token ∧ (isTokenUsable token now = true ∨ isTokenUsable token now' = true)
      | .minted mint =>
          (mint < s.mints.length ∧ s.outcome mint ≠ some .failed ∧ s.outcome mint ≠ some .aborted) ∨
          mint = s.mints.length ∧ s'.mints = s.mints ++ [⟨signal, .calling⟩]
  | _, _ => True

/-- What a refresh that has ended gives a call that comes before `finally`. -/
def spoiled (s : CachingTokenProvider) : Option Outcome → Bool
  | none => false
  | some (.got token) => s.barred.contains token.value
  | some .failed | some .aborted => true

/-- A call that needs a token comes while the mint is being called, or between the end of a refresh
and `finally`, where it failed or its token is barred; or a mint rejects for its signal while a
caller with another one waits for it. -/
def Untimely (exp : String → Option ℚ) (s : CachingTokenProvider) : Step → Prop
  | .getToken _ now now' => s.fresh now = none ∧
      match s.inFlight with
      | some mint => s.usable now' = none ∧ s.spoiled (s.outcome mint) = true
      | none => s.calling ≠ []
  | .answers mint reply now => refreshed exp now reply = .aborted ∧
      ∃ call ∈ s.calls, call.answer = .minted mint ∧
        s.mints[mint]?.map Mint.signal ≠ some call.signal
  | _ => False

def «open» (s : CachingTokenProvider) (mint : ℕ) : Prop :=
  ∃ m, s.mints[mint]? = some m ∧ (m.phase = .flying ∨ ∃ outcome, m.phase = .ended outcome)

structure Sound (s : CachingTokenProvider) : Prop where
  calling : ∀ mint m, s.mints[mint]? = some m → m.phase = .calling → s.calling = [mint]
  called : ∀ mint ∈ s.calling, ∃ m, s.mints[mint]? = some m ∧ m.phase = .calling
  alone : s.calling = [] ∨ s.inFlight = none
  inFlight : ∀ mint, s.open mint ↔ s.inFlight = some mint
  gotten : ∀ mint token, s.outcome mint = some (.got token) → token.value ∈ s.given
  cached : ∀ token ∈ s.token, token.value ∈ s.given ∧ token.value ∉ s.barred
  barred : s.barred ⊆ s.given
  returned : s.returned ⊆ s.given
  calls : ∀ call ∈ s.calls, call.barred ⊆ s.given ∧ ∀ token, call.answer = .cached token →
    token.value ∈ s.given
  spared : ∀ call ∈ s.calls, ∀ token, s.result call.answer = some token → token.value ∉ call.barred
  aborted : ∀ call ∈ s.calls, ∀ mint, call.answer = .minted mint → s.outcome mint = some .aborted →
    ∃ m, s.mints[mint]? = some m ∧ m.signal = call.signal

theorem Sound.sharesMints {s : CachingTokenProvider} (h : Sound s) : SharesMints s where
  single mint mint' := by
    have hflying : ∀ mint m, s.mints[mint]? = some m → m.phase = .flying → s.inFlight = some mint :=
      fun mint m hm hphase =>
      (h.inFlight mint).mp ⟨m, hm, .inl hphase⟩
    have hmixed : ∀ mint mint', s.calling = [mint] → s.inFlight ≠ some mint' :=
      fun mint mint' hcalling hinFlight => by
      rcases h.alone with hnone | hnone
      · simp [hnone] at hcalling
      · simp [hnone] at hinFlight
    rintro ⟨m, hm, hphase⟩ ⟨m', hm', hphase'⟩
    rcases hphase with hcalling | hfly
    · rcases hphase' with hcalling' | hfly'
      · exact (List.cons.inj
          ((h.calling mint m hm hcalling).symm.trans (h.calling mint' m' hm' hcalling'))).1
      · exact absurd (hflying mint' m' hm' hfly') (hmixed mint mint' (h.calling mint m hm hcalling))
    · rcases hphase' with hcalling' | hfly'
      · exact absurd (hflying mint m hm hfly) (hmixed mint' mint (h.calling mint' m' hm' hcalling'))
      · exact Option.some.inj ((hflying mint m hm hfly).symm.trans (hflying mint' m' hm' hfly'))
  spared := h.spared
  alone := h.aborted

variable {s s' : CachingTokenProvider} {exp : String → Option ℚ}

theorem mints_setPhase {mint : ℕ} {m : Mint} (hm : s.mints[mint]? = some m)
    (phase : Phase) (i : ℕ) :
    (s.setPhase mint phase).mints[i]? = if i = mint then some { m with phase := phase }
      else s.mints[i]? := by
  unfold setPhase
  rw [List.getElem?_modify]
  split
  · rename_i heq
    rw [if_pos heq.symm, ← heq, hm]
    rfl
  · rename_i hne
    rw [if_neg (Ne.symm hne)]
    simp

theorem outcome_setPhase {mint : ℕ} {m : Mint} (hm : s.mints[mint]? = some m)
    (phase : Phase) (i : ℕ) :
    (s.setPhase mint phase).outcome i = if i = mint then phase.outcome else s.outcome i := by
  unfold outcome
  rw [mints_setPhase hm]
  split
  · rfl
  · rfl

theorem signal_setPhase {mint : ℕ} {m : Mint} (hm : s.mints[mint]? = some m) (phase : Phase) {i : ℕ}
    {signal : Option ℕ}
    (h : ∃ m, s.mints[i]? = some m ∧ m.signal = signal) :
    ∃ m, (s.setPhase mint phase).mints[i]? = some m ∧ m.signal = signal := by
  obtain ⟨m', hm', hsignal⟩ := h
  rw [mints_setPhase hm]
  split
  · rename_i heq
    rw [heq, hm] at hm'
    exact ⟨_, rfl, Option.some.inj hm' ▸ hsignal⟩
  · exact ⟨m', hm', hsignal⟩

theorem result_eq_some {answer : Answer} {token : BeamToken} :
    s.result answer = some token ↔ answer = .cached token ∨ ∃ mint, answer = .minted mint ∧
      s.outcome mint = some (.got token) := by
  cases answer with
  | cached current => simp [result]
  | minted mint =>
    unfold result
    rcases houtcome : s.outcome mint with _ | outcome
    · simp [houtcome]
    · cases outcome with
      | got current => simp [houtcome]
      | failed => simp [houtcome]
      | aborted => simp [houtcome]

theorem answered_sound (h : Sound s) {signal : Option ℕ} {answer : Answer}
    (hgiven : ∀ token, answer = .cached token → token.value ∈ s.given)
    (hspared : ∀ token, s.result answer = some token → token.value ∉ s.barred)
    (haborted : ∀ mint, answer = .minted mint → s.outcome mint ≠ some .aborted) :
      Sound (s.answered signal answer) where
  calling := h.calling
  called := h.called
  alone := h.alone
  inFlight := h.inFlight
  gotten := h.gotten
  cached := h.cached
  barred := h.barred
  returned := h.returned
  calls call hcall := by
    rcases List.mem_append.mp hcall with hold | hnew
    · exact h.calls call hold
    · obtain rfl := List.mem_singleton.mp hnew
      exact ⟨h.barred, hgiven⟩
  spared call hcall token hresult := by
    rcases List.mem_append.mp hcall with hold | hnew
    · exact h.spared call hold token hresult
    · obtain rfl := List.mem_singleton.mp hnew
      exact hspared token hresult
  aborted call hcall mint hanswer houtcome := by
    rcases List.mem_append.mp hcall with hold | hnew
    · exact h.aborted call hold mint hanswer houtcome
    · obtain rfl := List.mem_singleton.mp hnew
      exact absurd houtcome (haborted mint hanswer)

theorem cached_sound (h : Sound s) {signal : Option ℕ} {token : BeamToken}
    (htoken : s.token = some token) :
    Sound (s.answered signal (.cached token)) := by
  obtain ⟨hgiven, hbarred⟩ := h.cached token htoken
  refine answered_sound h ?_ ?_ nofun
  · intro token' heq
    cases heq
    exact hgiven
  · intro token' heq
    cases heq
    exact hbarred

theorem shared_sound (h : Sound s) {signal : Option ℕ} {mint : ℕ}
    (hspoiled : s.spoiled (s.outcome mint) = false) :
    Sound (s.answered signal (.minted mint)) := by
  refine answered_sound h nofun (fun token hresult => ?_) fun mint' heq haborted => ?_
  · obtain heq | ⟨mint', heq, houtcome⟩ := result_eq_some.mp hresult
    · cases heq
    · cases heq
      rw [houtcome] at hspoiled
      exact fun hbarred => by simp [spoiled, hbarred] at hspoiled
  · cases heq
    rw [haborted] at hspoiled
    cases hspoiled

theorem outcome_push (s : CachingTokenProvider) (signal : Option ℕ) (calling : List ℕ) (i : ℕ) :
    ({ s with mints := s.mints ++
      [⟨signal, .calling⟩], calling := calling } : CachingTokenProvider).outcome i =
        s.outcome i := by
  unfold outcome
  simp only [List.getElem?_append]
  split
  · rfl
  · rename_i hge
    rw [List.getElem?_eq_none (Nat.le_of_not_lt hge)]
    cases i - s.mints.length with
    | zero => rfl
    | succ n => rfl

theorem push_sound (h : Sound s) (hcalling : s.calling = []) (hfree : s.inFlight = none)
    (signal : Option ℕ) :
    Sound { s with mints := s.mints ++ [⟨signal, .calling⟩], calling := s.mints.length ::
      s.calling } := by
  have houtcome := outcome_push s signal (s.mints.length :: s.calling)
  have hold : ∀ {mint : ℕ} {m : Mint}, s.mints[mint]? = some m →
      (s.mints ++ [⟨signal, .calling⟩])[mint]? = some m :=
    fun hm => List.getElem?_append_left (List.getElem?_eq_some_iff.mp hm).1 ▸ hm
  have hcases : ∀ mint m, (s.mints ++ [⟨signal, .calling⟩])[mint]? = some m →
      s.mints[mint]? = some m ∨ mint = s.mints.length ∧ m = ⟨signal, .calling⟩ := by
    intro mint m hm
    rcases Nat.lt_trichotomy mint s.mints.length with hlt | heq | hgt
    · exact .inl (List.getElem?_append_left hlt ▸ hm)
    · rw [heq, List.getElem?_concat_length] at hm
      exact .inr ⟨heq, (Option.some.inj hm).symm⟩
    · rw [List.getElem?_eq_none (by simp; omega)] at hm
      cases hm
  refine ⟨fun mint m hm hphase => ?_, fun mint hmint => ?_, .inr hfree,
    fun mint => ?_, fun mint token hgot => ?_, h.cached,
    h.barred, h.returned, h.calls,
      fun call hcall token hresult => ?_, fun call hcall mint hanswer haborted => ?_⟩
  · rcases hcases mint m hm with hm | ⟨rfl, -⟩
    · exact absurd (h.calling mint m hm hphase) (by simp [hcalling])
    · show s.mints.length :: s.calling = _
      rw [hcalling]
  · rcases List.mem_cons.mp hmint with rfl | hmem
    · exact ⟨⟨signal, .calling⟩, List.getElem?_concat_length, rfl⟩
    · rw [hcalling] at hmem
      cases hmem
  · refine Iff.trans ⟨?_, ?_⟩ (h.inFlight mint)
    · rintro ⟨m, hm, hphase⟩
      rcases hcases mint m hm with hm | ⟨-, rfl⟩
      · exact ⟨m, hm, hphase⟩
      · simp at hphase
    · rintro ⟨m, hm, hphase⟩
      exact ⟨m, hold hm, hphase⟩
  · rw [houtcome] at hgot
    exact h.gotten mint token hgot
  · refine h.spared call hcall token (result_eq_some.mpr ?_)
    obtain heq | ⟨mint, heq, hgot⟩ := result_eq_some.mp hresult
    · exact .inl heq
    · rw [houtcome] at hgot
      exact .inr ⟨mint, heq, hgot⟩
  · rw [houtcome] at haborted
    obtain ⟨m, hm, hsignal⟩ := h.aborted call hcall mint hanswer haborted
    exact ⟨m, hold hm, hsignal⟩

theorem begun_sound (h : Sound s) (hcalling : s.calling = []) (hfree : s.inFlight = none)
    (signal : Option ℕ) :
    Sound (s.begun signal) := by
  have hnone : s.outcome s.mints.length = none := by
    unfold outcome
    rw [List.getElem?_eq_none (Nat.le_refl _)]
    rfl
  have hanswered : Sound (s.answered signal (.minted s.mints.length)) := shared_sound h
    (by rw [hnone]; rfl)
  exact push_sound hanswered hcalling hfree signal

theorem getToken_sound (h : Sound s) {signal : Option ℕ} {now now' : ℚ}
    (hgood : ¬ Untimely exp s (.getToken signal now now')) :
    Sound (s.getToken signal now now') := by
  unfold Untimely at hgood
  unfold getToken
  split
  · rename_i current hfresh
    exact cached_sound h (Option.filter_eq_some_iff.mp hfresh).1
  · rename_i hfresh
    split
    · rename_i mint hinFlight
      rw [hinFlight] at hgood
      split
      · rename_i current husable
        exact cached_sound h (Option.filter_eq_some_iff.mp husable).1
      · rename_i husable
        exact shared_sound h ((Bool.not_eq_true _).mp fun hspoiled =>
          hgood ⟨hfresh, husable, hspoiled⟩)
    · rename_i hinFlight
      rw [hinFlight] at hgood
      exact begun_sound h (Classical.byContradiction fun hcalling => hgood ⟨hfresh, hcalling⟩)
        hinFlight signal

theorem move_sound (h : Sound s) {mint : ℕ} {m : Mint} (hm : s.mints[mint]? = some m)
    {phase : Phase}
    (hsame : phase.outcome = m.phase.outcome) {calling : List ℕ} {inFlight : Option ℕ}
    (hcalling : ∀ i m', (s.setPhase mint phase).mints[i]? = some m' → m'.phase = .calling →
      calling = [i])
    (hcalled : calling = []) (hopen : ∀ i, (s.setPhase mint phase).open i ↔ inFlight = some i) :
    Sound { s.setPhase mint phase with calling := calling, inFlight := inFlight } := by
  have houtcome : ∀ i, (s.setPhase mint phase).outcome i = s.outcome i := by
    intro i
    rw [outcome_setPhase hm]
    split
    · rename_i heq
      rw [heq, hsame, outcome, hm]
      rfl
    · rfl
  refine ⟨hcalling, fun i hi => ?_, .inl hcalled, hopen,
    fun i token hgot => ?_, h.cached, h.barred, h.returned, h.calls,
    fun call hcall token hresult => ?_, fun call hcall i hanswer haborted => ?_⟩
  · rw [hcalled] at hi
    cases hi
  · exact h.gotten i token (houtcome i ▸ hgot)
  · refine h.spared call hcall token (result_eq_some.mpr ?_)
    obtain heq | ⟨i, heq, hgot⟩ := result_eq_some.mp hresult
    · exact .inl heq
    · exact .inr ⟨i, heq, houtcome i ▸ hgot⟩
  · exact signal_setPhase hm phase (h.aborted call hcall i hanswer (houtcome i ▸ haborted))

theorem returns_sound (h : Sound s) {mint : ℕ} {calling : List ℕ}
    (hcalling : s.calling = mint :: calling) :
    Sound { s.setPhase mint .flying with calling := calling, inFlight := some mint } := by
  obtain ⟨m, hm, hphase⟩ := h.called mint (hcalling ▸ List.mem_cons_self)
  obtain ⟨-, rfl⟩ := List.cons.inj (hcalling.symm.trans (h.calling mint m hm hphase))
  have hfree : s.inFlight = none := h.alone.resolve_left (by simp [hcalling])
  refine move_sound h hm (by rw [hphase]; rfl) (fun i m' hm' hphase' => ?_) rfl fun i => ?_
  · rw [mints_setPhase hm] at hm'
    split at hm'
    · cases hm'
      cases hphase'
    · rename_i hne
      have hone := hcalling.symm.trans (h.calling i m' hm' hphase')
      exact absurd (List.cons.inj hone).1.symm hne
  · unfold «open»
    rw [mints_setPhase hm]
    split
    · rename_i heq
      exact ⟨fun _ => congrArg some heq.symm, fun _ => ⟨_, rfl, .inl rfl⟩⟩
    · rename_i hne
      refine ⟨fun hopen => ?_, fun hsome => absurd (Option.some.inj hsome).symm hne⟩
      have hsome := (h.inFlight i).mp hopen
      rw [hfree] at hsome
      cases hsome

theorem finally_sound (h : Sound s) {mint : ℕ} {m : Mint} {outcome : Outcome}
    (hm : s.mints[mint]? = some m)
    (hphase : m.phase = .ended outcome) (hcalling : s.calling = []) :
    Sound { s.setPhase mint (.cleared outcome) with inFlight := none } := by
  have hinFlight : s.inFlight = some mint := (h.inFlight mint).mp ⟨m, hm, .inr ⟨outcome, hphase⟩⟩
  refine move_sound h hm (by rw [hphase]; rfl) (fun i m' hm' hphase' => ?_) hcalling fun i => ?_
  · rw [mints_setPhase hm] at hm'
    split at hm'
    · cases hm'
      cases hphase'
    · exact h.calling i m' hm' hphase'
  · unfold «open»
    rw [mints_setPhase hm]
    refine ⟨?_, nofun⟩
    split
    · rintro ⟨m', hm', hphase'⟩
      cases hm'
      simp at hphase'
    · rename_i hne
      intro hopen
      have hsome := hinFlight.symm.trans ((h.inFlight i).mp hopen)
      exact absurd (Option.some.inj hsome).symm hne

theorem ended_sound (h : Sound s) {mint : ℕ} {signal : Option ℕ} {outcome : Outcome}
    (hm : s.mints[mint]? = some ⟨signal, .flying⟩) (hcalling : s.calling = []) {given : List String}
    (hgiven : s.given ⊆ given)
    (hgot : ∀ token, outcome = .got token → token.value ∈ given ∧ token.value ∉ s.given)
    (haborted : outcome = .aborted → ∀ call ∈ s.calls, call.answer =
      .minted mint → call.signal = signal)
    {token : Option BeamToken}
    {issuedAt : ℚ} (htoken : ∀ t ∈ token, t.value ∈ given ∧ t.value ∉ s.barred) :
    Sound { s.setPhase mint (.ended outcome) with
      token := token, issuedAt := issuedAt, given := given } := by
  have hinFlight : s.inFlight = some mint := (h.inFlight mint).mp ⟨_, hm, .inl rfl⟩
  refine ⟨fun i m hm' hphase => ?_, fun i hi => ?_, .inl hcalling,
    fun i => ?_, fun i t hout => ?_, htoken,
    List.Subset.trans h.barred hgiven, List.Subset.trans h.returned hgiven,
      fun call hcall => ?_, fun call hcall t hresult => ?_,
    fun call hcall i hanswer hout => ?_⟩
  · change (s.setPhase mint _).mints[i]? = some m at hm'
    rw [mints_setPhase hm] at hm'
    split at hm'
    · cases hm'
      cases hphase
    · exact h.calling i m hm' hphase
  · change i ∈ s.calling at hi
    rw [hcalling] at hi
    cases hi
  · show (s.setPhase mint (.ended outcome)).open i ↔ s.inFlight = some i
    unfold «open»
    rw [mints_setPhase hm]
    split
    · rename_i heq
      rw [heq]
      exact ⟨fun _ => hinFlight, fun _ => ⟨_, rfl, .inr ⟨outcome, rfl⟩⟩⟩
    · exact h.inFlight i
  · change (s.setPhase mint _).outcome i = _ at hout
    rw [outcome_setPhase hm] at hout
    split at hout
    · exact (hgot t (Option.some.inj hout)).1
    · exact hgiven (h.gotten i t hout)
  · obtain ⟨hbarred, hcached⟩ := h.calls call hcall
    exact ⟨List.Subset.trans hbarred hgiven, fun t heq => hgiven (hcached t heq)⟩
  · obtain heq | ⟨i, heq, hout⟩ := result_eq_some.mp hresult
    · exact h.spared call hcall t (result_eq_some.mpr (.inl heq))
    · change (s.setPhase mint _).outcome i = _ at hout
      rw [outcome_setPhase hm] at hout
      split at hout
      · -- what is new was barred to nobody
        exact fun hmem => (hgot t (Option.some.inj hout)).2 ((h.calls call hcall).1 hmem)
      · exact h.spared call hcall t (result_eq_some.mpr (.inr ⟨i, heq, hout⟩))
  · change (s.setPhase mint _).outcome i = _ at hout
    rw [outcome_setPhase hm] at hout
    split at hout
    · rename_i heq
      subst heq
      exact signal_setPhase hm _ ⟨_, hm, (haborted (Option.some.inj hout) call hcall hanswer).symm⟩
    · exact signal_setPhase hm _ (h.aborted call hcall i hanswer hout)

theorem answers_sound (h : Sound s) {mint : ℕ} {signal : Option ℕ} {outcome : Outcome} {now : ℚ}
    (hm : s.mints[mint]? = some ⟨signal, .flying⟩) (hcalling : s.calling =
      []) (hpossible : s.possible signal outcome = true)
    (haborted : outcome = .aborted → ∀ call ∈ s.calls, call.answer =
      .minted mint → call.signal = signal) :
    Sound ((s.setPhase mint (.ended outcome)).keep now outcome) := by
  cases outcome with
  | got token =>
    have hnew : token.value ∉ s.given := fun hold => by simp [possible, hold] at hpossible
    refine ended_sound h hm hcalling (List.subset_cons_self _ _) ?_ haborted ?_
    · intro t heq
      cases heq
      exact ⟨List.mem_cons_self, hnew⟩
    · intro t heq
      cases heq
      exact ⟨List.mem_cons_self, fun hbarred => hnew (h.barred hbarred)⟩
  | failed => exact ended_sound h hm hcalling (List.Subset.refl _) (fun _ heq =>
      by cases heq) (fun heq => by cases heq) h.cached
  | aborted => exact ended_sound h hm hcalling (List.Subset.refl _) (fun _ heq =>
      by cases heq) haborted h.cached

theorem invalidate_sound (h : Sound s) : Sound s.invalidate where
  calling := h.calling
  called := h.called
  alone := h.alone
  inFlight := h.inFlight
  gotten := h.gotten
  cached _ := nofun
  barred := by
    refine List.append_subset.mpr
      ⟨List.append_subset.mpr ⟨fun value hvalue => ?_, h.returned⟩, h.barred⟩
    obtain ⟨token, htoken, rfl⟩ := List.mem_map.mp hvalue
    exact (h.cached token (Option.mem_toList.mp htoken)).1
  returned := h.returned
  calls := h.calls
  spared := h.spared
  aborted := h.aborted

theorem settled_given (h : Sound s) {call : Call} (hcall : call ∈ s.calls) {token : BeamToken}
    (hsettled : s.settled call.answer = some (some token)) : token.value ∈ s.given := by
  cases hanswer : call.answer with
  | cached current =>
    rw [hanswer] at hsettled
    cases hsettled
    exact (h.calls call hcall).2 token hanswer
  | minted mint =>
    rw [hanswer] at hsettled
    unfold settled at hsettled
    simp only at hsettled
    split at hsettled
    · rename_i hm
      cases hsettled
      exact h.gotten mint token (by rw [outcome, hm]; rfl)
    · cases hsettled
    · cases hsettled

theorem delivers_sound (h : Sound s) {call : Call} (hcall : call ∈ s.calls)
    {token : Option BeamToken}
    (hsettled : s.settled call.answer = some token) :
    Sound { s with returned := (token.map BeamToken.value).toList ++ s.returned } where
  calling := h.calling
  called := h.called
  alone := h.alone
  inFlight := h.inFlight
  gotten := h.gotten
  cached := h.cached
  barred := h.barred
  returned := by
    refine List.append_subset.mpr ⟨fun value hvalue => ?_, h.returned⟩
    obtain ⟨current, htoken, rfl⟩ := Option.map_eq_some_iff.mp (Option.mem_toList.mp hvalue)
    exact settled_given h hcall (htoken ▸ hsettled)
  calls := h.calls
  spared := h.spared
  aborted := h.aborted

theorem step_sound {i : Step} (h : Sound s) (hstep : step exp s i = some s')
    (hgood : ¬ Untimely exp s i) : Sound s' := by
  cases i with
  | getToken signal now now' =>
    cases hstep
    exact getToken_sound h hgood
  | returns =>
    unfold step at hstep
    simp only at hstep
    split at hstep
    · cases hstep
    · rename_i mint calling hcalling
      cases hstep
      exact returns_sound h hcalling
  | answers mint reply now =>
    unfold step at hstep
    simp only at hstep
    split at hstep
    · rename_i signal hcalling hm
      obtain ⟨hpossible, heq⟩ := Option.ite_none_right_eq_some.mp hstep
      cases heq
      refine answers_sound h hm hcalling hpossible fun haborted call hcall hanswer => ?_
      refine Classical.byContradiction fun hne => hgood ⟨haborted, call, hcall, hanswer, ?_⟩
      rw [hm]
      exact fun heq => hne (Option.some.inj heq).symm
    · cases hstep
  | «finally» mint =>
    unfold step at hstep
    simp only at hstep
    split at hstep
    · rename_i hcalling hm
      cases hstep
      exact finally_sound h hm rfl hcalling
    · cases hstep
  | delivers call =>
    unfold step at hstep
    simp only at hstep
    split at hstep
    · rename_i call hcalling hcall
      obtain ⟨token, hsettled, rfl⟩ := Option.map_eq_some_iff.mp hstep
      exact delivers_sound h (List.mem_of_getElem? hcall) hsettled
    · cases hstep
  | invalidate =>
    cases hstep
    exact invalidate_sound h
  | abort signal =>
    cases hstep
    exact ⟨h.calling, h.called, h.alone, h.inFlight, h.gotten, h.cached, h.barred, h.returned,
      h.calls, h.spared, h.aborted⟩

theorem usable_of_not_stale {token : BeamToken} {now issuedAt : ℚ}
    (h : isTokenStale token now issuedAt = false) :
    isTokenUsable token now = true := by
  unfold isTokenStale at h
  simp only at h
  split at h
  · cases h
  · exact (Bool.not_eq_false' _).mp (Bool.or_eq_false_iff.mp h).2

theorem getToken_serves {signal : Option ℕ} {now now' : ℚ}
    (hgood : ¬ Untimely exp s (.getToken signal now now'))
    (h : Sound s) : Serves s (.getToken signal now now') (s.getToken signal now now') := by
  unfold Untimely at hgood
  unfold getToken
  split
  · rename_i current hfresh
    obtain ⟨htoken, hstale⟩ := Option.filter_eq_some_iff.mp hfresh
    exact ⟨.cached current, rfl, htoken,
      .inl (usable_of_not_stale ((Bool.not_eq_true' _).mp hstale))⟩
  · rename_i hfresh
    split
    · rename_i mint hinFlight
      rw [hinFlight] at hgood
      split
      · rename_i current husable
        obtain ⟨htoken, husable⟩ := Option.filter_eq_some_iff.mp husable
        exact ⟨.cached current, rfl, htoken, .inr husable⟩
      · rename_i husable
        have hspoiled : s.spoiled (s.outcome mint) = false :=
          (Bool.not_eq_true _).mp fun hspoiled => hgood ⟨hfresh, husable, hspoiled⟩
        obtain ⟨m, hm, -⟩ := (h.inFlight mint).mpr hinFlight
        refine ⟨.minted mint, rfl,
          .inl ⟨(List.getElem?_eq_some_iff.mp hm).1, fun hfailed => ?_, fun haborted => ?_⟩⟩
        · rw [hfailed] at hspoiled
          cases hspoiled
        · rw [haborted] at hspoiled
          cases hspoiled
    · exact ⟨.minted s.mints.length, rfl, .inr ⟨rfl, rfl⟩⟩

theorem step_serves {i : Step} (h : Sound s) (hstep : step exp s i = some s')
    (hgood : ¬ Untimely exp s i) : Serves s i s' := by
  cases i with
  | getToken signal now now' =>
    cases hstep
    exact getToken_serves hgood h
  | _ => trivial

theorem initial_sound : Sound initial where
  calling _ _ := nofun
  called _ := nofun
  alone := .inl rfl
  inFlight _ := ⟨fun ⟨_, hm, _⟩ => (nomatch hm), nofun⟩
  gotten _ _ := nofun
  cached _ := nofun
  barred := List.nil_subset _
  returned := List.nil_subset _
  calls _ := nofun
  spared _ := nofun
  aborted _ := nofun

instance (exp : String → Option ℚ) (s : CachingTokenProvider) : (i : Step) →
    Decidable (Untimely exp s i)
  | .getToken signal now now' =>
    match h : s.inFlight with
    | some mint =>
        decidable_of_iff (s.fresh now = none ∧ s.usable now' = none ∧
          s.spoiled (s.outcome mint) = true)
        (by rw [Untimely, h])
    | none => decidable_of_iff (s.fresh now = none ∧ s.calling ≠ []) (by rw [Untimely, h])
  | .answers mint reply now => inferInstanceAs (Decidable (refreshed exp now reply = .aborted ∧
      ∃ call ∈ s.calls, call.answer = .minted mint ∧
        s.mints[mint]?.map Mint.signal ≠ some call.signal))
  | .returns | .finally _ | .delivers _ | .invalidate | .abort _ => isFalse id

/-- One mint at a time, no token that was invalidated, and neither the failure of an earlier mint
nor another caller's signal reaches a call, in every run without the steps that break it. -/
theorem calls_served {is : List Step} (hrun : Run.after (step exp) initial is = some s)
    (hgood : Run.Never (step exp) initial is (Untimely exp)) :
    Run.Always (step exp) initial is SharesMints ∧ Run.Each (step exp) initial is Serves := by
  have hsound :=
    Run.always_of_never (fun u i v hu hstep hgood => step_sound hu hstep hgood) initial_sound hgood
  have hserves := Run.each_of_never (R := Serves)
    (fun u i v hu hstep hgood => ⟨step_sound hu hstep hgood, step_serves hu hstep hgood⟩)
      initial_sound hrun hgood
  exact ⟨fun earlier later u hsplit hu => (hsound earlier later u hsplit hu).sharesMints, hserves.1⟩

/-- Two callers share a mint; its token is invalidated and the next mint is aborted by the only one
that waits for it. -/
def retried : List Step :=
  [.getToken none 0 0, .returns, .getToken (some 1) 0 0,
    .answers 0 (.response (some "a") (some 100)) 10, .finally 0,
    .delivers 0, .invalidate, .getToken (some 1) 20 20, .returns, .abort 1, .answers 1 .aborted 30,
      .finally 1, .delivers 2,
    .getToken none 40 40, .returns, .answers 2 (.response (some "b") none) 50, .finally 2,
      .getToken none 60 60]

theorem retried_served : Run.Always (step fun _ => none) initial retried SharesMints ∧
    Run.Each (step fun _ => none) initial retried Serves :=
  calls_served (s := (Run.after (step fun _ => none) initial retried).get (by decide +kernel))
    (Option.some_get _).symm
    (Run.never_of_check (by decide +kernel))

/-- Before `finally`, the token is invalidated, and asked for again. -/
def revived : List Step :=
  [.getToken none 0 0, .returns, .answers 0 (.response (some "a") (some 100)) 10, .invalidate,
    .getToken none 20 20]

/-- Before `finally`, the token that could not be had is asked for again. -/
def refused : List Step := [.getToken none 0 0, .returns, .answers 0 .rejected 10]

def dragged : List Step :=
    [.getToken (some 1) 0 0, .returns, .getToken (some 2) 0 0, .abort 1, .answers 0 .aborted 10]

def doubled : List Step := [.getToken none 0 0, .getToken none 0 0]

theorem calls_unserved :
    (∃ s ∈ Run.after (step fun _ => none) initial revived, ∃ call ∈ s.calls,
      ∃ token ∈ s.result call.answer,
      token.value ∈ call.barred) ∧
      (∃ s ∈ Run.after (step fun _ => none) initial refused, s.outcome 0 = some .failed ∧
        (s.getToken none 20 20).calls.getLast?.map Call.answer = some (.minted 0)) ∧
      (∃ s ∈ Run.after (step fun _ => none) initial dragged, ∃ call ∈ s.calls,
        call.answer = .minted 0 ∧
        s.outcome 0 = some .aborted ∧ s.mints[0]?.map Mint.signal ≠ some call.signal) ∧
      ∃ s ∈ Run.after (step fun _ => none) initial doubled,
        s.mints.map Mint.phase = [.calling, .calling] := by
  decide +kernel

end CachingTokenProvider
end Beam.Web.Provider
