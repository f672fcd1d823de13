import Mathlib.Algebra.Group.Nat.Defs
import Mathlib.Data.List.Basic
import BeamSdk.Library.OrderedMap
import BeamSdk.Library.Run

/-! The grants of an integrity audit: the callers that share a submission, and the two seconds for
which its entry is kept. -/

namespace Beam.Go.Integrity
variable {φ ε : Type*}

/-- `fingerprint` is the hash of the challenge as it is encoded. -/
structure IntegrityAuditChallenge (φ : Type*) where
  AuditID : String
  TransferID : String
  fingerprint : φ

/-- A submission whose signer runs; whose signer has returned; whose entry was dropped for its
error; and that is done. -/
inductive Phase (ε : Type*)
  | signing
  | signed (err : Option ε)
  | dropped (err : ε)
  | done (err : Option ε)
  deriving DecidableEq

/-- `stopped`: the signers of its transfer were stopped since. -/
structure IntegritySubmission (φ ε : Type*) where
  auditID : String
  transferID : String
  fingerprint : φ
  expiresAt : ℕ
  phase : Phase ε
  stopped : Bool

inductive Role
  | refused (text : String)
  | leads (submission : ℕ)
  | joins (submission : ℕ)

def Role.submission : Role → Option ℕ
  | .refused _ => none
  | .leads submission | .joins submission => some submission

/-- `cancelled`: the caller's context was done before the submission. -/
inductive Answer (ε : Type*)
  | gave (err : Option ε)
  | cancelled

structure Call (φ ε : Type*) where
  challenge : IntegrityAuditChallenge φ
  role : Role
  answer : Option (Answer ε)

/-- `recoverySigners` are the transfers that have an integrity signer; an entry of
`integritySubmissions` is one of `submissions`, by its place. -/
structure Client (φ ε : Type*) where
  clock : ℕ
  recoverySigners : List String
  integritySubmissions : OrderedMap String ℕ
  submissions : List (IntegritySubmission φ ε)
  calls : List (Call φ ε)

inductive Step (φ ε : Type*)
  | registerTransferSigners (transferID : String) (integrity : Bool)
  | stopTransferSigners (transferID : String)
  | passes (time : ℕ)
  -- with what the clock shows when the entry is looked at, when each entry is cleaned, and in the
  -- end
  | submit (challenge : IntegrityAuditChallenge φ) (now : ℕ) (cleaned : String → ℕ) (created : ℕ)
  | returns (submission : ℕ) (err : Option ε)
  | drops (submission : ℕ)
  | closes (submission : ℕ)
  | answers (call : ℕ)
  | cancels (call : ℕ)

def keptFor : ℕ := 2 * 10 ^ 9

def capacity : ℕ := 1024

namespace Client

def initial : Client φ ε := ⟨0, [], [], [], []⟩

def registerTransferSigners (s : Client φ ε) (transferID : String) (integrity : Bool) :
    Client φ ε :=
  let others := s.recoverySigners.filter (· ≠ transferID)
  { s with recoverySigners := if integrity then transferID :: others else others }

def stopped (transferID : String) (m : IntegritySubmission φ ε) : IntegritySubmission φ ε :=
  if m.transferID = transferID then { m with stopped := true } else m

def ofTransfer (s : Client φ ε) (transferID : String) (submission : ℕ) : Bool :=
  s.submissions[submission]?.any fun m => m.transferID = transferID

def stopTransferSigners (s : Client φ ε) (transferID : String) : Client φ ε :=
  { s with
    recoverySigners := s.recoverySigners.filter (· ≠ transferID)
    integritySubmissions := s.integritySubmissions.filter fun e => !s.ofTransfer transferID e.2
    submissions := s.submissions.map (stopped transferID) }

def expiresAt (s : Client φ ε) (submission : ℕ) : ℕ :=
    (s.submissions[submission]?.map IntegritySubmission.expiresAt).getD 0

def existing (s : Client φ ε) (auditID : String) (now : ℕ) : Option ℕ :=
  (s.integritySubmissions.get auditID).filter fun submission => now < s.expiresAt submission

def unexpired (s : Client φ ε) (cleaned : String → ℕ) : OrderedMap String ℕ :=
  s.integritySubmissions.filter fun e => !decide (s.expiresAt e.2 < cleaned e.1)

def called (s : Client φ ε) (challenge : IntegrityAuditChallenge φ) (role : Role) : Client φ ε :=
  { s with calls := s.calls ++ [⟨challenge, role, none⟩] }

def sameFingerprint [DecidableEq φ] (s : Client φ ε) (challenge : IntegrityAuditChallenge φ)
    (submission : ℕ) : Bool :=
  s.submissions[submission]?.any fun m => m.fingerprint = challenge.fingerprint

def begun (s : Client φ ε) (challenge : IntegrityAuditChallenge φ) (created : ℕ) : Client φ ε :=
  { s.called challenge (.leads s.submissions.length) with
    submissions := s.submissions ++
      [⟨challenge.AuditID, challenge.TransferID, challenge.fingerprint, created + keptFor,
        .signing, false⟩]
    integritySubmissions := s.integritySubmissions.set challenge.AuditID s.submissions.length }

def submitIntegrityAuditGrantsIfPresent [DecidableEq φ] (s : Client φ ε)
    (challenge : IntegrityAuditChallenge φ) (now : ℕ)
    (cleaned : String → ℕ) (created : ℕ) : Client φ ε :=
  if challenge.TransferID ∈ s.recoverySigners then
    match s.existing challenge.AuditID now with
    | some submission =>
      if s.sameFingerprint challenge submission then s.called challenge (.joins submission)
      else s.called challenge (.refused "conflicting integrity challenge")
    | none =>
      let s := { s with integritySubmissions := s.unexpired cleaned }
      if capacity ≤ s.integritySubmissions.length then s.called challenge
        (.refused "integrity signer capacity unavailable")
      else s.begun challenge created
  else s.called challenge (.refused "integrity audit signer unavailable")

def setPhase (s : Client φ ε) (submission : ℕ) (phase : Phase ε) : Client φ ε :=
  { s with submissions := s.submissions.modify submission fun m => { m with phase := phase } }

def drop (s : Client φ ε) (auditID : String) (submission : ℕ) : Client φ ε :=
  if s.integritySubmissions.get auditID = some submission then
    { s with integritySubmissions := s.integritySubmissions.delete auditID }
  else s

def answer (s : Client φ ε) (call : ℕ) (answer : Answer ε) : Client φ ε :=
  { s with calls := s.calls.modify call fun c => { c with answer := some answer } }

def given (s : Client φ ε) (call : Call φ ε) : Option (Option ε) :=
  match call.answer, call.role.submission with
  | none, some submission =>
    match s.submissions[submission]?.map IntegritySubmission.phase with
    | some (.done err) => some err
    | _ => none
  | _, _ => none

def step [DecidableEq φ] (s : Client φ ε) : Step φ ε → Option (Client φ ε)
  | .registerTransferSigners transferID integrity =>
      some (s.registerTransferSigners transferID integrity)
  | .stopTransferSigners transferID => some (s.stopTransferSigners transferID)
  | .passes time => some { s with clock := s.clock + time }
  | .submit challenge now cleaned created =>
    if s.clock ≤ now ∧ now ≤ created ∧ ∀ e ∈ s.integritySubmissions, now ≤ cleaned e.1 ∧
      cleaned e.1 ≤ created then
      some { s.submitIntegrityAuditGrantsIfPresent challenge now cleaned created with
        clock := created }
    else none
  | .returns submission err =>
    match s.submissions[submission]? with
    | some ⟨_, _, _, _, .signing, _⟩ => some (s.setPhase submission (.signed err))
    | _ => none
  | .drops submission =>
    match s.submissions[submission]? with
    | some ⟨auditID, _, _, _, .signed (some err), _⟩ =>
        some ((s.drop auditID submission).setPhase submission (.dropped err))
    | _ => none
  | .closes submission =>
    match s.submissions[submission]? with
    | some ⟨_, _, _, _, .signed none, _⟩ => some (s.setPhase submission (.done none))
    | some ⟨_, _, _, _, .dropped err, _⟩ => some (s.setPhase submission (.done (some err)))
    | _ => none
  | .answers call => (s.calls[call]?.bind s.given).map fun err => s.answer call (.gave err)
  | .cancels call =>
    match s.calls[call]? with
    | some ⟨_, .joins _, none⟩ => some (s.answer call .cancelled)
    | _ => none

def Signing (s : Client φ ε) (auditID : String) (fingerprint : φ) (submission : ℕ)
    (m : IntegritySubmission φ ε) : Prop :=
  s.submissions[submission]? = some m ∧ m.phase = .signing ∧ m.auditID = auditID ∧
    m.fingerprint = fingerprint

structure SharesSubmissions (s : Client φ ε) : Prop where
  single : ∀ auditID fingerprint i m j n, s.Signing auditID fingerprint i m →
    s.Signing auditID fingerprint j n → i = j
  answered : ∀ call ∈ s.calls, ∀ i, call.role.submission = some i →
    ∃ m, s.submissions[i]? = some m ∧ m.auditID = call.challenge.AuditID ∧
      m.fingerprint = call.challenge.fingerprint ∧
      ∀ err, call.answer = some (.gave err) → m.phase = .done err

/-- What there is of other submissions than this one stays: themselves, their entries, and every
call. -/
structure Elsewhere (s : Client φ ε) (submission : ℕ) (s' : Client φ ε) : Prop where
  submissions : ∀ i, i ≠ submission → s'.submissions[i]? = s.submissions[i]?
  entries : ∀ auditID i, i ≠ submission → s.integritySubmissions.get auditID = some i →
    s'.integritySubmissions.get auditID = some i
  calls : s'.calls = s.calls

/-- The call joins the submission that is in flight for it, where its entry is there. -/
def Joins (s : Client φ ε) (challenge : IntegrityAuditChallenge φ) (now : ℕ)
    (s' : Client φ ε) : Prop :=
  (∃ role, s'.calls = s.calls ++ [⟨challenge, role, none⟩]) ∧
    ∀ i m, s.Signing challenge.AuditID challenge.fingerprint i m → m.stopped = false →
      now < m.expiresAt →
      challenge.TransferID ∈ s.recoverySigners → s'.calls = s.calls ++ [⟨challenge, .joins i, none⟩]

def Apart (s : Client φ ε) : Step φ ε → Client φ ε → Prop
  | .submit challenge now _ _, s' => Joins s challenge now s'
  | .returns submission _, s' | .drops submission, s' | .closes submission, s' =>
      Elsewhere s submission s'
  | _, _ => True

def Free (s : Client φ ε) (challenge : IntegrityAuditChallenge φ) (now : ℕ)
    (cleaned : String → ℕ) : Prop :=
  challenge.TransferID ∈ s.recoverySigners ∧ s.existing challenge.AuditID now = none ∧
    (s.unexpired cleaned).length < capacity

/-- A call comes while the signer runs for its audit and fingerprint, but the two seconds of the
entry have passed or the signers of the transfer were stopped since. -/
def Resubmits (s : Client φ ε) : Step φ ε → Prop
  | .submit challenge now cleaned _ => s.Free challenge now cleaned ∧
      ∃ i m, s.Signing challenge.AuditID challenge.fingerprint i m ∧
        (m.stopped = true ∨ m.expiresAt ≤ now)
  | _ => False

structure Sound (s : Client φ ε) : Prop where
  entries : ∀ e ∈ s.integritySubmissions, ∃ m, s.submissions[e.2]? = some m ∧ m.auditID = e.1
  held : ∀ i m, s.submissions[i]? = some m → m.phase = .signing → m.stopped = false →
    s.clock < m.expiresAt →
    s.integritySubmissions.get m.auditID = some i
  answered : ∀ call ∈ s.calls, ∀ i, call.role.submission = some i →
    ∃ m, s.submissions[i]? = some m ∧ m.auditID = call.challenge.AuditID ∧
      m.fingerprint = call.challenge.fingerprint ∧
      ∀ err, call.answer = some (.gave err) → m.phase = .done err

variable {s s' : Client φ ε}

theorem initial_sound : Sound (initial : Client φ ε) where
  entries _ := nofun
  held _ _ := nofun
  answered _ := nofun

theorem initial_shares : SharesSubmissions (initial : Client φ ε) where
  single _ _ _ _ _ _ hi := nomatch hi.1
  answered _ := nofun

theorem submissions_setPhase {submission : ℕ} {m : IntegritySubmission φ ε}
    (hm : s.submissions[submission]? = some m)
    (phase : Phase ε) (i : ℕ) :
    (s.setPhase submission phase).submissions[i]? =
      if i = submission then some { m with phase := phase } else s.submissions[i]? := by
  unfold setPhase
  rw [List.getElem?_modify]
  split
  · rename_i heq
    rw [if_pos heq.symm, ← heq, hm]
    rfl
  · rename_i hne
    rw [if_neg (Ne.symm hne)]
    simp

theorem setPhase_sound (h : Sound s) {submission : ℕ} {m : IntegritySubmission φ ε}
    (hm : s.submissions[submission]? = some m) (hopen : ∀ err, m.phase ≠ .done err)
    {phase : Phase ε}
    (hphase : phase ≠ .signing) : Sound (s.setPhase submission phase) where
  entries e he := by
    obtain ⟨n, hn, haudit⟩ := h.entries e he
    rw [submissions_setPhase hm]
    split
    · rename_i heq
      rw [heq, hm] at hn
      cases hn
      exact ⟨_, rfl, haudit⟩
    · exact ⟨n, hn, haudit⟩
  held i n hn hsigning hstopped hclock := by
    rw [submissions_setPhase hm] at hn
    split at hn
    · cases hn
      exact absurd hsigning hphase
    · exact h.held i n hn hsigning hstopped hclock
  answered call hcall i hrole := by
    obtain ⟨n, hn, haudit, hprint, hgave⟩ := h.answered call hcall i hrole
    rw [submissions_setPhase hm]
    split
    · rename_i heq
      rw [heq, hm] at hn
      cases hn
      exact ⟨_, rfl, haudit, hprint, fun err hanswer => absurd (hgave err hanswer) (hopen err)⟩
    · exact ⟨n, hn, haudit, hprint, hgave⟩

theorem signing_of_setPhase {submission : ℕ} {m : IntegritySubmission φ ε}
    (hm : s.submissions[submission]? = some m)
    {phase : Phase ε} (hphase : phase ≠ .signing) {auditID : String} {fingerprint : φ} {i : ℕ}
    {n : IntegritySubmission φ ε}
    (h : (s.setPhase submission phase).Signing auditID fingerprint i n) :
    s.Signing auditID fingerprint i n := by
  obtain ⟨hn, hsigning, hrest⟩ := h
  rw [submissions_setPhase hm] at hn
  split at hn
  · cases hn
    exact absurd hsigning hphase
  · exact ⟨hn, hsigning, hrest⟩

theorem setPhase_elsewhere {submission : ℕ} {m : IntegritySubmission φ ε}
    (hm : s.submissions[submission]? = some m)
    (phase : Phase ε) : Elsewhere s submission (s.setPhase submission phase) where
  submissions i hne := by rw [submissions_setPhase hm, if_neg hne]
  entries _ _ _ hget := hget
  calls := rfl

theorem drop_submissions (s : Client φ ε) (auditID : String) (submission : ℕ) :
    (s.drop auditID submission).submissions = s.submissions := by
  unfold drop
  split
  · rfl
  · rfl

theorem drop_elsewhere (s : Client φ ε) (auditID : String) (submission : ℕ) :
    Elsewhere s submission (s.drop auditID submission) := by
  unfold drop
  split
  · rename_i hget
    refine ⟨fun _ _ => rfl, fun auditID' i hne hget' => ?_, rfl⟩
    have hother : auditID' ≠ auditID := by
      rintro rfl
      exact hne (Option.some.inj (hget'.symm.trans hget))
    exact (OrderedMap.get_delete_of_ne _ hother).trans hget'
  · exact ⟨fun _ _ => rfl, fun _ _ _ hget => hget, rfl⟩

theorem drop_sound (h : Sound s) {submission : ℕ} {m : IntegritySubmission φ ε}
    (hm : s.submissions[submission]? = some m) (hphase : m.phase ≠ .signing) (auditID : String) :
    Sound (s.drop auditID submission) := by
  have helse := drop_elsewhere s auditID submission
  refine ⟨fun e he => ?_, fun i n hn hsigning hstopped hclock => ?_, fun call hcall => ?_⟩
  · rw [drop_submissions]
    unfold drop at he
    split at he
    · exact h.entries e (List.mem_filter.mp he).1
    · exact h.entries e he
  · rw [drop_submissions] at hn
    have hne : i ≠ submission := by
      rintro rfl
      rw [hm] at hn
      cases hn
      exact hphase hsigning
    have hclock' : s.clock < n.expiresAt := by
      unfold drop at hclock
      split at hclock
      · exact hclock
      · exact hclock
    exact helse.entries n.auditID i hne (h.held i n hn hsigning hstopped hclock')
  · rw [helse.calls] at hcall
    rw [drop_submissions]
    exact h.answered call hcall

theorem Elsewhere.trans {s'' : Client φ ε} {submission : ℕ} (h : Elsewhere s submission s')
    (h' : Elsewhere s' submission s'') : Elsewhere s submission s'' where
  submissions i hne := (h'.submissions i hne).trans (h.submissions i hne)
  entries auditID i hne hget := h'.entries auditID i hne (h.entries auditID i hne hget)
  calls := h'.calls.trans h.calls

theorem stopped_same (transferID : String) (m : IntegritySubmission φ ε) :
    (stopped transferID m).auditID = m.auditID ∧
      (stopped transferID m).fingerprint = m.fingerprint ∧
      (stopped transferID m).phase = m.phase := by
  unfold stopped
  split
  · exact ⟨rfl, rfl, rfl⟩
  · exact ⟨rfl, rfl, rfl⟩

theorem stop_sound (h : Sound s) (transferID : String) :
    Sound (s.stopTransferSigners transferID) where
  entries e he := by
    obtain ⟨m, hm, haudit⟩ := h.entries e (List.mem_filter.mp he).1
    refine ⟨stopped transferID m, ?_, (stopped_same transferID m).1.trans haudit⟩
    unfold stopTransferSigners
    rw [List.getElem?_map, hm]
    rfl
  held i m hm hsigning hstopped hclock := by
    unfold stopTransferSigners at hm
    rw [List.getElem?_map] at hm
    obtain ⟨n, hn, rfl⟩ := Option.map_eq_some_iff.mp hm
    unfold stopped at hsigning hstopped hclock ⊢
    split at hsigning
    · rename_i heq
      rw [if_pos heq] at hstopped
      cases hstopped
    · rename_i hne
      rw [if_neg hne] at hstopped hclock ⊢
      refine OrderedMap.get_filter (h.held i n hn hsigning hstopped hclock) ?_
      simp [ofTransfer, hn, hne]
  answered call hcall i hrole := by
    obtain ⟨m, hm, haudit, hprint, hgave⟩ := h.answered call hcall i hrole
    obtain ⟨haudit', hprint', hphase'⟩ := stopped_same transferID m
    refine ⟨stopped transferID m, ?_, haudit'.trans haudit, hprint'.trans hprint,
      fun err hanswer => ?_⟩
    · unfold stopTransferSigners
      rw [List.getElem?_map, hm]
      rfl
    · exact hphase'.trans (hgave err hanswer)

theorem signing_of_stop {transferID auditID : String} {fingerprint : φ} {i : ℕ}
    {m : IntegritySubmission φ ε}
    (h : (s.stopTransferSigners transferID).Signing auditID fingerprint i m) :
    ∃ n, s.Signing auditID fingerprint i n := by
  obtain ⟨hm, hsigning, haudit, hprint⟩ := h
  unfold stopTransferSigners at hm
  rw [List.getElem?_map] at hm
  obtain ⟨n, hn, rfl⟩ := Option.map_eq_some_iff.mp hm
  obtain ⟨haudit', hprint', hphase'⟩ := stopped_same transferID n
  exact ⟨n, hn, hphase'.symm.trans hsigning, haudit'.symm.trans haudit, hprint'.symm.trans hprint⟩

theorem called_sound (h : Sound s) {challenge : IntegrityAuditChallenge φ} {role : Role}
    (hrole : ∀ i, role.submission = some i → ∃ m, s.submissions[i]? = some m ∧
      m.auditID = challenge.AuditID ∧
      m.fingerprint = challenge.fingerprint) : Sound (s.called challenge role) where
  entries := h.entries
  held := h.held
  answered call hcall i hi := by
    rcases List.mem_append.mp hcall with hold | hnew
    · exact h.answered call hold i hi
    · obtain rfl := List.mem_singleton.mp hnew
      obtain ⟨m, hm, haudit, hprint⟩ := hrole i hi
      exact ⟨m, hm, haudit, hprint, nofun⟩

theorem mem_of_existing {auditID : String} {now submission : ℕ}
    (h : s.existing auditID now = some submission) :
    (auditID, submission) ∈ s.integritySubmissions :=
  OrderedMap.mem_of_get (Option.filter_eq_some_iff.mp h).1

theorem existing_of_signing (h : Sound s) {auditID : String} {fingerprint : φ} {i now : ℕ}
    {m : IntegritySubmission φ ε}
    (hsigning : s.Signing auditID fingerprint i m) (hstopped : m.stopped = false)
    (hclock : s.clock ≤ now)
    (hnow : now < m.expiresAt) : s.existing auditID now = some i := by
  obtain ⟨hm, hphase, rfl, -⟩ := hsigning
  refine Option.filter_eq_some_iff.mpr
    ⟨h.held i m hm hphase hstopped (Nat.lt_of_le_of_lt hclock hnow), ?_⟩
  rw [expiresAt, hm]
  exact decide_eq_true hnow

theorem unexpired_sound (h : Sound s) {cleaned : String → ℕ} {created : ℕ}
    (hcleaned : ∀ e ∈ s.integritySubmissions, cleaned e.1 ≤ created)
    (hcreated : s.clock ≤ created) :
    Sound { s with integritySubmissions := s.unexpired cleaned, clock := created } where
  entries e he := h.entries e (List.mem_filter.mp he).1
  held i m hm hsigning hstopped hclock := by
    have hget := h.held i m hm hsigning hstopped (Nat.lt_of_le_of_lt hcreated hclock)
    refine OrderedMap.get_filter hget ?_
    have hle : cleaned m.auditID ≤ created := hcleaned (m.auditID, i) (OrderedMap.mem_of_get hget)
    simp only [expiresAt, hm, Option.map_some, Option.getD_some]
    have hlater : created < m.expiresAt := hclock
    simp
    omega
  answered := h.answered

theorem of_begun {challenge : IntegrityAuditChallenge φ} {created i : ℕ}
    {m : IntegritySubmission φ ε}
    (hm : (s.begun challenge created).submissions[i]? = some m) :
    s.submissions[i]? = some m ∨ i = s.submissions.length ∧
      m = ⟨challenge.AuditID, challenge.TransferID, challenge.fingerprint, created + keptFor,
        .signing, false⟩ := by
  unfold begun at hm
  rcases Nat.lt_trichotomy i s.submissions.length with hlt | rfl | hgt
  · exact .inl (List.getElem?_append_left hlt ▸ hm)
  · rw [List.getElem?_concat_length] at hm
    exact .inr ⟨rfl, (Option.some.inj hm).symm⟩
  · rw [List.getElem?_eq_none (by simp; omega)] at hm
    cases hm

theorem begun_of {challenge : IntegrityAuditChallenge φ} {created i : ℕ}
    {m : IntegritySubmission φ ε}
    (hm : s.submissions[i]? = some m) : (s.begun challenge created).submissions[i]? = some m :=
  List.getElem?_append_left (List.getElem?_eq_some_iff.mp hm).1 ▸ hm

theorem begun_sound (h : Sound s) (challenge : IntegrityAuditChallenge φ) (created : ℕ)
    (hfree : ∀ fingerprint i m, s.Signing challenge.AuditID fingerprint i m → m.stopped = false →
      m.expiresAt ≤ s.clock) :
    Sound (s.begun challenge created) := by
  refine ⟨fun e he => ?_, fun i m hm hsigning hstopped hclock => ?_, fun call hcall i hrole => ?_⟩
  · rcases OrderedMap.mem_set he with rfl | he
    · exact ⟨_, List.getElem?_concat_length, rfl⟩
    · obtain ⟨m, hm, haudit⟩ := h.entries e he
      exact ⟨m, begun_of hm, haudit⟩
  · rcases of_begun hm with hm | ⟨rfl, rfl⟩
    · by_cases haudit : m.auditID = challenge.AuditID
      · have hexpired := hfree m.fingerprint i m ⟨hm, hsigning, haudit, rfl⟩ hstopped
        exact absurd hclock (Nat.not_lt_of_le hexpired)
      · exact (OrderedMap.get_set_of_ne _ haudit _).trans (h.held i m hm hsigning hstopped hclock)
    · exact OrderedMap.get_set_self _ _ _
  · rcases List.mem_append.mp hcall with hcall | hnew
    · obtain ⟨m, hm, hrest⟩ := h.answered call hcall i hrole
      exact ⟨m, begun_of hm, hrest⟩
    · obtain rfl := List.mem_singleton.mp hnew
      cases hrole
      exact ⟨_, List.getElem?_concat_length, rfl, rfl, nofun⟩

theorem later_sound (h : Sound s) {time : ℕ} (hle : s.clock ≤ time) :
    Sound { s with clock := time } where
  entries := h.entries
  held i m hm hsigning hstopped hclock :=
    h.held i m hm hsigning hstopped (Nat.lt_of_le_of_lt hle hclock)
  answered := h.answered

theorem answer_sound (h : Sound s) {call : ℕ} {c : Call φ ε} (hc : s.calls[call]? = some c)
    {answer : Answer ε}
    (hanswer : ∀ err, answer = .gave err → ∀ i, c.role.submission = some i →
      s.submissions[i]?.map IntegritySubmission.phase = some (.done err)) : Sound
        (s.answer call answer) where
  entries := h.entries
  held := h.held
  answered c' hc' i hi := by
    obtain ⟨k, hk⟩ := List.getElem?_of_mem hc'
    unfold Client.answer at hk
    rw [List.getElem?_modify] at hk
    split at hk
    · rename_i heq
      rw [← heq, hc] at hk
      cases hk
      obtain ⟨m, hm, haudit, hprint, -⟩ := h.answered c (List.mem_of_getElem? hc) i hi
      refine ⟨m, hm, haudit, hprint, fun err hgave => ?_⟩
      have hphase := hanswer err (Option.some.inj hgave) i hi
      rw [hm] at hphase
      exact Option.some.inj hphase
    · have hk : s.calls[k]? = some c' := by simpa using hk
      exact h.answered c' (List.mem_of_getElem? hk) i hi

theorem done_of_given {c : Call φ ε} {err : Option ε} (h : s.given c = some err) {i : ℕ}
    (hi : c.role.submission = some i) :
    s.submissions[i]?.map IntegritySubmission.phase = some (.done err) := by
  unfold given at h
  rw [hi] at h
  split at h
  · rename_i heq
    cases heq
    split at h
    · rename_i hphase
      rw [hphase, Option.some.inj h]
    · cases h
  · cases h

structure Quiet (s s' : Client φ ε) : Prop where
  sound : Sound s'
  signing : ∀ auditID fingerprint i m, s'.Signing auditID fingerprint i m →
    ∃ n, s.Signing auditID fingerprint i n

theorem Quiet.shares {s s' : Client φ ε} (h : Quiet s s') (hshares : SharesSubmissions s) :
    SharesSubmissions s' where
  single auditID fingerprint i m j n hi hj := by
    obtain ⟨m', hi'⟩ := h.signing auditID fingerprint i m hi
    obtain ⟨n', hj'⟩ := h.signing auditID fingerprint j n hj
    exact hshares.single auditID fingerprint i m' j n' hi' hj'
  answered := h.sound.answered

theorem setPhase_quiet (h : Sound s) {submission : ℕ} {m : IntegritySubmission φ ε}
    (hm : s.submissions[submission]? = some m) (hopen : ∀ err, m.phase ≠ .done err)
    {phase : Phase ε}
    (hphase : phase ≠ .signing) : Quiet s (s.setPhase submission phase) where
  sound := setPhase_sound h hm hopen hphase
  signing _ _ _ n hn := ⟨n, signing_of_setPhase hm hphase hn⟩

theorem drop_quiet (h : Sound s) {submission : ℕ} {m : IntegritySubmission φ ε}
    (hm : s.submissions[submission]? = some m) (hphase : m.phase ≠ .signing) (auditID : String) :
    Quiet s (s.drop auditID submission) where
  sound := drop_sound h hm hphase auditID
  signing auditID' fingerprint i n hn := by
    unfold Signing at hn
    rw [drop_submissions] at hn
    exact ⟨n, hn⟩

theorem Quiet.trans {s'' : Client φ ε} (h : Quiet s s') (h' : Quiet s' s'') : Quiet s s'' where
  sound := h'.sound
  signing auditID fingerprint i m hm := by
    obtain ⟨n, hn⟩ := h'.signing auditID fingerprint i m hm
    exact h.signing auditID fingerprint i n hn

theorem single_of_submissions {u v : Client φ ε} (heq : v.submissions = u.submissions)
    (h : SharesSubmissions u) (hv : Sound v) : SharesSubmissions v where
  single auditID fingerprint i m j n hi hj := by
    unfold Signing at hi hj
    rw [heq] at hi hj
    exact h.single auditID fingerprint i m j n hi hj
  answered := hv.answered

section
variable [DecidableEq φ]

theorem submit_cases (s : Client φ ε) (challenge : IntegrityAuditChallenge φ) (now : ℕ)
    (cleaned : String → ℕ) (created : ℕ) :
    (s.Free challenge now cleaned ∧
      s.submitIntegrityAuditGrantsIfPresent challenge now cleaned created =
        { s with integritySubmissions := s.unexpired cleaned }.begun challenge created) ∨
      (¬ s.Free challenge now cleaned ∧ ∃ text,
        s.submitIntegrityAuditGrantsIfPresent challenge now cleaned created =
        { s with integritySubmissions := s.unexpired cleaned }.called challenge (.refused text)) ∨
      ¬ s.Free challenge now cleaned ∧ ∃ role,
        s.submitIntegrityAuditGrantsIfPresent challenge now cleaned created =
        s.called challenge role ∧ ∀ i, role.submission = some i →
          s.existing challenge.AuditID now = some i ∧ s.sameFingerprint challenge i = true := by
  unfold submitIntegrityAuditGrantsIfPresent
  split
  · rename_i hsigner
    split
    · rename_i submission hexisting
      have hblocked : ¬ s.Free challenge now cleaned := fun hfree => by
        have hnone := hfree.2.1
        rw [hexisting] at hnone
        cases hnone
      split
      · rename_i hsame
        refine .inr (.inr ⟨hblocked, _, rfl, fun i hi => ?_⟩)
        cases hi
        exact ⟨hexisting, hsame⟩
      · exact .inr (.inr ⟨hblocked, _, rfl, nofun⟩)
    · rename_i hexisting
      simp only
      split
      · rename_i hfull
        exact .inr (.inl ⟨fun hfree => absurd hfree.2.2 (Nat.not_lt_of_le hfull), _, rfl⟩)
      · rename_i hroom
        exact .inl ⟨⟨hsigner, hexisting, Nat.lt_of_not_le hroom⟩, rfl⟩
  · rename_i hsigner
    exact .inr (.inr ⟨fun hfree => hsigner hfree.1, _, rfl, nofun⟩)

theorem submit_sound (h : Sound s) {challenge : IntegrityAuditChallenge φ} {now : ℕ}
    {cleaned : String → ℕ} {created : ℕ}
    (hclock : s.clock ≤ now) (hnow : now ≤ created)
    (hcleaned : ∀ e ∈ s.integritySubmissions, cleaned e.1 ≤ created) :
    Sound { s.submitIntegrityAuditGrantsIfPresent challenge now cleaned created with
      clock := created } := by
  have hlater : s.clock ≤ created := Nat.le_trans hclock hnow
  have hswept := unexpired_sound h hcleaned hlater
  obtain ⟨hfree, heq⟩ | ⟨-, text, heq⟩ | ⟨-, role, heq, hrole⟩ :=
    submit_cases s challenge now cleaned created
  · rw [heq]
    refine begun_sound hswept challenge created fun fingerprint i m hsigning hstopped => ?_
    refine Nat.le_of_not_lt fun hexpires => ?_
    have hexisting :=
      existing_of_signing h hsigning hstopped hclock (Nat.lt_of_le_of_lt hnow hexpires)
    rw [hfree.2.1] at hexisting
    cases hexisting
  · rw [heq]
    exact called_sound hswept nofun
  · rw [heq]
    refine called_sound (later_sound h hlater) fun i hi => ?_
    obtain ⟨hexisting, hsame⟩ := hrole i hi
    obtain ⟨m, hm, haudit⟩ := h.entries _ (mem_of_existing hexisting)
    have hsame : s.submissions[i]?.any (fun m => m.fingerprint = challenge.fingerprint) = true :=
      hsame
    rw [hm] at hsame
    exact ⟨m, hm, haudit, of_decide_eq_true hsame⟩

theorem submit_joins (h : Sound s) {challenge : IntegrityAuditChallenge φ} {now : ℕ}
    (cleaned : String → ℕ) (created : ℕ)
    (hclock : s.clock ≤ now) :
    Joins s challenge now { s.submitIntegrityAuditGrantsIfPresent challenge now cleaned created with
      clock := created } := by
  constructor
  · obtain ⟨-, heq⟩ | ⟨-, text, heq⟩ | ⟨-, role, heq, -⟩ :=
      submit_cases s challenge now cleaned created
    · exact ⟨_, by rw [heq]; rfl⟩
    · exact ⟨_, by rw [heq]; rfl⟩
    · exact ⟨_, by rw [heq]; rfl⟩
  · intro i m hsigning hstopped hexpires hsigner
    have hexisting := existing_of_signing h hsigning hstopped hclock hexpires
    have hsame : s.sameFingerprint challenge i = true := by
      rw [sameFingerprint, hsigning.1]
      exact decide_eq_true hsigning.2.2.2
    simp only [submitIntegrityAuditGrantsIfPresent, if_pos hsigner, hexisting, if_pos hsame]
    rfl

theorem submit_shares (h : Sound s) (hshares : SharesSubmissions s)
    {challenge : IntegrityAuditChallenge φ} {now : ℕ} {cleaned : String → ℕ}
    {created : ℕ} (hclock : s.clock ≤ now)
    (hsound : Sound { s.submitIntegrityAuditGrantsIfPresent challenge now cleaned created with
      clock := created }) :
    SharesSubmissions { s.submitIntegrityAuditGrantsIfPresent challenge now cleaned created with
      clock := created } ↔
      ¬ Resubmits s (.submit challenge now cleaned created) := by
  obtain ⟨hfree, heq⟩ | ⟨hblocked, text, heq⟩ | ⟨hblocked, role, heq, -⟩ :=
    submit_cases s challenge now cleaned created
  · rw [heq] at hsound ⊢
    have hnew :
        ({ s with integritySubmissions := s.unexpired cleaned }.begun challenge created).Signing
          challenge.AuditID
        challenge.fingerprint s.submissions.length
        ⟨challenge.AuditID, challenge.TransferID, challenge.fingerprint, created + keptFor,
          .signing, false⟩ :=
      ⟨List.getElem?_concat_length, rfl, rfl, rfl⟩
    constructor
    · rintro hshares' ⟨-, i, m, hsigning, -⟩
      have hlt : i < s.submissions.length := (List.getElem?_eq_some_iff.mp hsigning.1).1
      have hsame := hshares'.single _ _ i m _ _ ⟨begun_of hsigning.1, hsigning.2⟩ hnew
      exact absurd hsame (Nat.ne_of_lt hlt)
    · intro hgood
      -- one of them is new, and then nothing else was in flight for it
      have hnone : ∀ i m, ¬ s.Signing challenge.AuditID challenge.fingerprint i m := by
        intro i m hsigning
        refine hgood ⟨hfree, i, m, hsigning, ?_⟩
        by_contra hneither
        obtain ⟨hstopped, hexpires⟩ := not_or.mp hneither
        have hexisting :=
          existing_of_signing h hsigning ((Bool.not_eq_true _).mp hstopped) hclock
            (Nat.lt_of_not_le hexpires)
        rw [hfree.2.1] at hexisting
        cases hexisting
      refine ⟨fun auditID fingerprint i m j n hi hj => ?_, hsound.answered⟩
      obtain ⟨hm, him⟩ := hi
      obtain ⟨hn, hjn⟩ := hj
      rcases of_begun hm with hm | ⟨rfl, rfl⟩
      · rcases of_begun hn with hn | ⟨rfl, rfl⟩
        · exact hshares.single auditID fingerprint i m j n ⟨hm, him⟩ ⟨hn, hjn⟩
        · obtain ⟨-, rfl, rfl⟩ := hjn
          exact absurd ⟨hm, him⟩ (hnone i m)
      · rcases of_begun hn with hn | ⟨rfl, -⟩
        · obtain ⟨-, rfl, rfl⟩ := him
          exact absurd ⟨hn, hjn⟩ (hnone j n)
        · rfl
  · rw [heq] at hsound ⊢
    exact ⟨fun _ hbad => hblocked hbad.1, fun _ =>
      single_of_submissions (u := s) rfl hshares hsound⟩
  · rw [heq] at hsound ⊢
    exact ⟨fun _ hbad => hblocked hbad.1, fun _ =>
      single_of_submissions (u := s) rfl hshares hsound⟩

theorem step_quiet {i : Step φ ε} (h : Sound s) (hstep : step s i = some s')
    (hcall : ∀ challenge now cleaned created, i ≠ .submit challenge now cleaned created) :
      Quiet s s' ∧ Apart s i s' := by
  cases i with
  | registerTransferSigners transferID integrity =>
    cases hstep
    exact ⟨⟨⟨h.entries, h.held, h.answered⟩, fun _ _ _ m hm => ⟨m, hm⟩⟩, trivial⟩
  | stopTransferSigners transferID =>
    cases hstep
    exact ⟨⟨stop_sound h transferID, fun _ _ _ _ => signing_of_stop⟩, trivial⟩
  | passes time =>
    cases hstep
    exact ⟨⟨later_sound h (Nat.le_add_right _ _), fun _ _ _ m hm => ⟨m, hm⟩⟩, trivial⟩
  | submit challenge now cleaned created => exact absurd rfl (hcall challenge now cleaned created)
  | returns submission err =>
    unfold step at hstep
    simp only at hstep
    split at hstep
    · rename_i hm
      cases hstep
      exact ⟨setPhase_quiet h hm nofun nofun, setPhase_elsewhere hm _⟩
    · cases hstep
  | drops submission =>
    unfold step at hstep
    simp only at hstep
    split at hstep
    · rename_i auditID _ _ _ err _ hm
      cases hstep
      have hdropped := drop_quiet h hm nofun auditID
      have hm' : (s.drop auditID submission).submissions[submission]? = _ :=
        (drop_submissions s auditID submission) ▸ hm
      exact ⟨hdropped.trans (setPhase_quiet hdropped.sound hm' nofun nofun),
        (drop_elsewhere s auditID submission).trans (setPhase_elsewhere hm' _)⟩
    · cases hstep
  | closes submission =>
    unfold step at hstep
    simp only at hstep
    split at hstep
    · rename_i hm
      cases hstep
      exact ⟨setPhase_quiet h hm nofun nofun, setPhase_elsewhere hm _⟩
    · rename_i hm
      cases hstep
      exact ⟨setPhase_quiet h hm nofun nofun, setPhase_elsewhere hm _⟩
    · cases hstep
  | answers call =>
    obtain ⟨err, hgiven, rfl⟩ := Option.map_eq_some_iff.mp hstep
    obtain ⟨c, hc, hgiven⟩ := Option.bind_eq_some_iff.mp hgiven
    refine ⟨⟨answer_sound h hc fun err' heq i hi => ?_, fun _ _ _ m hm => ⟨m, hm⟩⟩, trivial⟩
    cases heq
    exact done_of_given hgiven hi
  | cancels call =>
    unfold step at hstep
    simp only at hstep
    split at hstep
    · rename_i hc
      cases hstep
      exact ⟨⟨answer_sound h hc nofun, fun _ _ _ m hm => ⟨m, hm⟩⟩, trivial⟩
    · cases hstep

theorem step_shares {i : Step φ ε} (h : Sound s) (hshares : SharesSubmissions s)
    (hstep : step s i = some s') :
    Sound s' ∧ (SharesSubmissions s' ↔ ¬ Resubmits s i) := by
  cases i with
  | submit challenge now cleaned created =>
    obtain ⟨⟨hclock, hnow, hcleaned⟩, heq⟩ := Option.ite_none_right_eq_some.mp hstep
    cases heq
    have hsound :
        Sound { s.submitIntegrityAuditGrantsIfPresent challenge now cleaned created with
          clock := created } :=
      submit_sound h hclock hnow fun e he => (hcleaned e he).2
    exact ⟨hsound, submit_shares h hshares hclock hsound⟩
  | _ =>
    have hquiet := (step_quiet h hstep nofun).1
    exact ⟨hquiet.sound, iff_of_true (hquiet.shares hshares) id⟩

theorem step_apart {i : Step φ ε} (h : Sound s) (hstep : step s i = some s') : Sound s' ∧
    Apart s i s' := by
  cases i with
  | submit challenge now cleaned created =>
    obtain ⟨⟨hclock, hnow, hcleaned⟩, heq⟩ := Option.ite_none_right_eq_some.mp hstep
    cases heq
    exact ⟨submit_sound h hclock hnow fun e he => (hcleaned e he).2,
      submit_joins h cleaned created hclock⟩
  | _ =>
    obtain ⟨hquiet, hapart⟩ := step_quiet h hstep nofun
    exact ⟨hquiet.sound, hapart⟩

theorem run_apart {steps : List (Step φ ε)} (hrun : Run.after step initial steps = some s) :
    Run.Each step initial steps Apart := by
  have hstep : ∀ (u : Client φ ε) (i : Step φ ε) (v : Client φ ε), Sound u →
      step u i = some v → ¬ False →
      Sound v ∧ Apart u i v := fun _ _ _ hu hv _ => step_apart hu hv
  exact (Run.each_of_never (B := fun _ _ => False) hstep initial_sound hrun fun _ _ _ _ _ _ => id).1

/-- At most one submission is in flight for an audit and a fingerprint, and its callers get what it
ends with, all along a run exactly when no call comes too late for the entry of one. -/
theorem submissions_shared {steps : List (Step φ ε)}
    (hrun : Run.after step initial steps = some s) :
    Run.Always step initial steps SharesSubmissions ∧ Run.Each step initial steps Apart ↔
      Run.Never step initial steps Resubmits := by
  rw [and_iff_left (run_apart hrun)]
  exact Run.always_iff_never (fun u i v hu hshares hstep => step_shares hu hshares hstep)
    initial_sound initial_shares hrun

end

instance [DecidableEq φ] [DecidableEq ε] (s : Client φ ε) : (i : Step φ ε) →
    Decidable (Resubmits s i)
  | .submit challenge now cleaned _ =>
    decidable_of_iff
      ((challenge.TransferID ∈ s.recoverySigners ∧ s.existing challenge.AuditID now = none ∧
        (s.unexpired cleaned).length < capacity) ∧
      ∃ m ∈ s.submissions,
        (m.phase = .signing ∧ m.auditID = challenge.AuditID ∧
          m.fingerprint = challenge.fingerprint) ∧
        (m.stopped = true ∨ m.expiresAt ≤ now)) (and_congr_right fun _ => by
      constructor
      · rintro ⟨m, hm, hsigning, hstale⟩
        obtain ⟨i, hi⟩ := List.getElem?_of_mem hm
        exact ⟨i, m, ⟨hi, hsigning⟩, hstale⟩
      · rintro ⟨i, m, ⟨hi, hsigning⟩, hstale⟩
        exact ⟨m, List.mem_of_getElem? hi, hsigning, hstale⟩)
  | .registerTransferSigners .. | .stopTransferSigners _ | .passes _ | .returns .. | .drops _ |
      .closes _ | .answers _
  | .cancels _ => isFalse id

def retried : List (Step ℕ ℕ) :=
  [.registerTransferSigners "t" true, .submit ⟨"a", "t", 0⟩ 5 (fun _ => 5) 5,
    .submit ⟨"a", "t", 0⟩ 7 (fun _ => 7) 7,
    .submit ⟨"a", "t", 1⟩ 8 (fun _ => 8) 8, .returns 0 (some 3), .drops 0,
      .submit ⟨"a", "t", 0⟩ 9 (fun _ => 9) 9, .closes 0,
    .answers 0, .answers 1, .returns 1 none, .closes 1, .answers 3,
      .submit ⟨"a", "t", 0⟩ 10 (fun _ => 10) 10, .answers 4]

theorem retried_shared : Run.Always step initial retried SharesSubmissions ∧
    Run.Each step initial retried Apart :=
  (submissions_shared (s := (Run.after step initial retried).get (by decide +kernel))
    (Option.some_get _).symm).mpr
    (Run.never_of_check (by decide +kernel))

def slow : List (Step ℕ ℕ) :=
  [.registerTransferSigners "t" true, .submit ⟨"a", "t", 0⟩ 5 (fun _ => 5) 5, .passes keptFor,
    .submit ⟨"a", "t", 0⟩ (keptFor + 6) (fun _ => keptFor + 6) (keptFor + 6)]

theorem slow_doubled : ¬ (Run.Always step initial slow SharesSubmissions ∧
    Run.Each step initial slow Apart) := by
  rintro ⟨halways, -⟩
  have htwo : ∃ s ∈ Run.after step initial slow,
      (∃ m ∈ s.submissions[0]?, m.phase = .signing ∧ m.auditID = "a" ∧ m.fingerprint = 0) ∧
        ∃ m ∈ s.submissions[1]?, m.phase = .signing ∧ m.auditID = "a" ∧ m.fingerprint = 0 := by
    decide +kernel
  obtain ⟨s, hs, ⟨m, hm, hsigning⟩, n, hn, hsigning'⟩ := htwo
  have hsame := (halways.last hs).single "a" 0 0 m 1 n ⟨hm, hsigning⟩ ⟨hn, hsigning'⟩
  exact absurd hsame (by decide)

end Client
end Beam.Go.Integrity
