import BeamSdk.Contract.LedgerInvariants
import BeamSdk.Contract.Refinement

/-! What the contract guarantees in every state it reaches, whoever calls it with whatever. -/

namespace Beam.Contract
variable {H : Hashes} {s t : State}

theorem reachable_sound (h : (contract H).Reachable s) : s.Sound H :=
  Ledger.reachable_sound (reachable_refines h).2

theorem OpenOk.openRequest (h : OpenOk H s) {k : Bytes32} (hk : k ∈ s.openKeys) :
    ∃ d, (s.openRequests k).demand H = some d ∧ d.key H = k ∧ s.Open H d := by
  obtain ⟨-, d, hd, hkey⟩ := h.listed k hk
  exact ⟨d, hd, hkey, k, hd⟩

def OpenRequest.KeyedByFields (H : Hashes) (r : OpenRequest) : Prop :=
  match r.kind with
  | .none => False
  | .transfer => r.key = transferRequestKey H r.requestId
  | .receipt => r.key = receiptRequestKey H r.transferId
  | .roomReceipt => r.key = roomRequestKey H (roomReceiptKey H r.room r.channel r.publication)

theorem OpenRequest.keyedByFields {r : OpenRequest} {d : Demand} (hd : r.demand H = some d)
    (hk : d.key H = r.key) : r.KeyedByFields H := by
  unfold OpenRequest.demand at hd
  unfold OpenRequest.KeyedByFields
  cases hkind : r.kind <;> simp only [hkind] at hd ⊢ <;> cases hd <;> exact hk.symm

section Sample

/-- The digests `keccak256` gives the encodings of the sample run; what it gives others is made up.
-/
def sampleDigest (words : List Bytes32) : Bytes32 :=
  if words = requestEncoding .transfer 7 then
    0xb39221ace053465ec3453ce2b36430bd138b997ecea25c1043da0c366812b828
  else if words = requestEncoding .transfer 8 then
    0xad67d757c34507f157cacfa2e3153e9f260a2244f30428821be7be64587ac55f
  else if words = requestEncoding .receipt (transferIdWord 5) then
    0xa1cb57702ff9f0b7548d0ab27967cd769611d0f01a45adaabb1c1383a58ec9a4
  else if words = requestEncoding .receipt (transferIdWord 6) then
    0x22b57f0e20d175f12820ccc09db4c41ce2448b8fe205f5bdce3f806c25a4f6f1
  else if words = Abi.encodeStrings [[0x72], [0x63], [0x61]] then
    0x6b0e9d8741039567c48fa1de3c8515173eb21e9ff0a3a0e1db3784372168df22
  else if words = Abi.encodeStrings [[0x72], [0x63], [0x62]] then
    0xb8be49b7f59bd9810ba19407ea46537719e4fc9d19a6a3b28506f6bbb4f86002
  else words.foldl (fun digest word => 31 * digest + word + 1) 0

def sampleHashes : Hashes where
  keccak256 := sampleDigest
  sha256 bytes := bytes.foldl (fun digest byte => 31 * digest + BitVec.ofNat 256 byte.toNat + 1) 0

def sampleRoomA : RoomReceiptReport where
  room := [0x72]
  channel := [0x63]
  publication := [0x61]
  requestId := 0
  status := 1
  fileSizeBytes := 4096
  manifestSha256 := 11
  targetCount := 2
  evidenceSha256 := 12
  assignmentsSha256 := 13
  evidenceVersion := 1
  level := 3

def sampleRoomB : RoomReceiptReport :=
  { sampleRoomA with publication := [0x62], manifestSha256 := 21, targetCount := 0, level := 1 }

def sampleReport : Report where
  standard := [⟨5, 7, 1, 4096, 4096, 1000, 31, 32, 1⟩]
  rooms := [sampleRoomA, sampleRoomB]
  closures := []
  jobs := [⟨8, sampleDigest (Abi.encodeStrings [[0x72], [0x63], [0x61]]),
    sampleDigest (Abi.encodeStrings [[0x72], [0x63], [0x62]]), [0x6d]⟩]

def sampleDeployed : State := (State.blank false).transact (deploy ⟨1, 100⟩ 9 60 false)

def sampleRequests : List (Msg × Call) :=
  [(⟨1, 101⟩, .requestTransfer 7 1 []), (⟨1, 102⟩, .requestTransfer 8 3 []),
    (⟨1, 103⟩, .requestReceipt 6)]

def sampleRequested : State := sampleDeployed.run sampleHashes sampleRequests

def sampleReported : State :=
  sampleRequested.run sampleHashes [(⟨9, 104⟩, .onReport [] ⟨some 2, some sampleReport⟩)]

theorem sampleDeployed_init : deploy ⟨1, 100⟩ 9 60 false = .ok sampleDeployed := rfl

theorem sampleRequested_reachable : (contract sampleHashes).Reachable sampleRequested :=
  ⟨sampleDeployed, ⟨_, _, _, _, sampleDeployed_init⟩, later_run _ _ _⟩

theorem sampleReported_later : (contract sampleHashes).Later sampleRequested sampleReported :=
  later_run _ _ _

theorem sampleReported_reachable : (contract sampleHashes).Reachable sampleReported :=
  sampleRequested_reachable.later sampleReported_later

end Sample

example : (sampleReported.receipts 5).requestId = 7 := by decide +kernel
example : (sampleReported.jobs 8).status = .completed := by decide +kernel

/-- The open-request set is bounded, has no key twice, and its positions and records are those of
the listed keys. -/
theorem reachable_openSet (h : (contract H).Reachable s) :
    s.openKeys.Nodup ∧ s.openKeys.length ≤ MAX_OPEN_REQUESTS ∧
      (∀ k i, s.openPosition k = i + 1 ↔ s.openKeys[i]? = some k) ∧
      (∀ k, k ∉ s.openKeys → s.openPosition k = 0 ∧ s.openRequests k = OpenRequest.zero) ∧
      ∀ k ∈ s.openKeys, (s.openRequests k).key = k ∧ (s.openRequests k).KeyedByFields H := by
  have hok := (reachable_refines h).1
  refine ⟨hok.slots.nodup, hok.bounded, hok.slots, fun k hk => ?_, fun k hk => ?_⟩
  · exact ⟨(hok.position_eq_zero k).mpr hk, hok.unlisted k hk⟩
  · obtain ⟨hkey, d, hd, hdk⟩ := hok.listed k hk
    exact ⟨hkey, OpenRequest.keyedByFields hd (hdk.trans hkey.symm)⟩

theorem sample_openSet :
    sampleReported.openKeys.length = 1 ∧ sampleReported.openKeys.Nodup ∧
      ∀ k ∈ sampleReported.openKeys, (sampleReported.openRequests k).key = k := by
  have h := reachable_openSet sampleReported_reachable
  exact ⟨by decide +kernel, h.1, fun k hk => (h.2.2.2.2 k hk).1⟩

/-- No open request asks for what is recorded or answered already, and no request id is answered
under two kinds. -/
theorem reachable_answered_closed (h : (contract H).Reachable s) :
    (∀ k ∈ s.openKeys,
      ((s.openRequests k).kind = .receipt →
        (s.receipts (s.openRequests k).transferId).status = .none) ∧
      ((s.openRequests k).kind = .roomReceipt →
        (s.roomReceipts (roomReceiptKey H (s.openRequests k).room
        (s.openRequests k).channel (s.openRequests k).publication)).status = .none) ∧
      ((s.openRequests k).kind = .transfer → ¬ s.isAnswered (s.openRequests k).requestId)) ∧
    ∀ R, (s.transferIdForRequest R = 0 ∨ s.roomKeyForRequest R = 0) ∧
      (s.transferIdForRequest R = 0 ∨ (s.jobs R).status = .none) ∧
      (s.roomKeyForRequest R = 0 ∨ (s.jobs R).status = .none) := by
  have hsound := reachable_sound h
  refine ⟨fun k hk => ?_, fun R => ?_⟩
  · obtain ⟨d, hd, -, hopen⟩ := (reachable_refines h).1.openRequest hk
    have hunmet := hsound.unmet d hopen
    unfold OpenRequest.demand at hd
    refine ⟨fun hkind => ?_, fun hkind => ?_, fun hkind => ?_⟩ <;>
      simp only [hkind] at hd <;> cases hd
    · exact not_not.mp hunmet
    · exact not_not.mp hunmet
    · exact hunmet
  · obtain ⟨htr, htj, hrj⟩ := hsound.answeredOnce R
    exact ⟨htr, htj, hrj⟩

theorem sample_answered_closed :
    (sampleReported.jobs 8).status ≠ .none ∧ sampleReported.transferIdForRequest 8 = 0 := by
  have hjob : (sampleReported.jobs 8).status ≠ .none := by decide +kernel
  have h := (reachable_answered_closed sampleReported_reachable).2 8
  exact ⟨hjob, h.2.1.resolve_right hjob⟩

/-- Whatever is recorded or bound stays as it is through every later run. Only a standard receipt
that names no request id may come to name one, which is then bound to that same transfer. -/
theorem later_records_final (h : (contract H).Reachable s) (hl : (contract H).Later s t) :
    (∀ T, (s.receipts T).status ≠ .none → t.receipts T = s.receipts T ∨
      ((s.receipts T).requestId = 0 ∧ ∃ R ≠ 0, t.receipts T = { s.receipts T with requestId := R } ∧
        t.transferIdForRequest R = T)) ∧
    (∀ K, (s.roomReceipts K).status ≠ .none → t.roomReceipts K = s.roomReceipts K) ∧
    (∀ R, (s.jobs R).status ≠ .none → t.jobs R = s.jobs R) ∧
    (∀ R, s.transferIdForRequest R ≠ 0 → t.transferIdForRequest R = s.transferIdForRequest R) ∧
    ∀ R, s.roomKeyForRequest R ≠ 0 → t.roomKeyForRequest R = s.roomKeyForRequest R := by
  have hkeeps := Ledger.later_keeps (later_refines (reachable_refines h).1 hl).later
  refine ⟨fun T hT => ?_, hkeeps.room, hkeeps.job, hkeeps.transferId, hkeeps.roomKey⟩
  rcases hkeeps.receipt T hT with he | ⟨hzero, R, hR, he, hb, -⟩
  · exact .inl he
  · exact .inr ⟨hzero, R, hR, he, hb⟩

/-- The same report again, and a cancel by the owner, leave the job of request 8 as it was. -/
theorem sample_records_final :
    (sampleReported.run sampleHashes [(⟨9, 105⟩, .onReport [] ⟨some 2, some sampleReport⟩),
      (⟨1, 106⟩, .cancelRequest (receiptRequestKey sampleHashes 6))]).jobs 8 =
        sampleReported.jobs 8 := by
  have hl :=
    later_run sampleHashes sampleReported [(⟨9, 105⟩, .onReport [] ⟨some 2, some sampleReport⟩),
    (⟨1, 106⟩, .cancelRequest (receiptRequestKey sampleHashes 6))]
  exact (later_records_final sampleReported_reachable hl).2.2.1 8 (by decide +kernel)

/-- Every binding points at a recorded receipt, a receipt's request id is bound to its transfer, and
a job still agrees with the two Room receipts it links. -/
theorem reachable_answers_linked (h : (contract H).Reachable s) :
    (∀ R T, s.transferIdForRequest R = T → T ≠ 0 → (s.receipts T).status ≠ .none) ∧
    (∀ T R, (s.receipts T).requestId = R → R ≠ 0 → s.transferIdForRequest R = T) ∧
    (∀ R K, s.roomKeyForRequest R = K → K ≠ 0 → (s.roomReceipts K).status ≠ .none) ∧
    ∀ R, (s.jobs R).status ≠ .none →
      let job := s.jobs R
      let input := s.roomReceipts job.inputRoomKey
      let output := s.roomReceipts job.outputRoomKey
      job.inputRoomKey ≠ job.outputRoomKey ∧ input.status ≠ .none ∧ output.status ≠ .none ∧
        job.inputManifestSha256 = input.manifestSha256 ∧
          job.outputManifestSha256 = output.manifestSha256 ∧
        job.status = (if input.status = .completed then output.status else input.status) ∧
        job.level = input.level &&& output.level := by
  have hlinked := (reachable_sound h).linked
  refine ⟨?_, ?_, ?_, fun R hR => ?_⟩
  · rintro R _ rfl hT
    exact hlinked.bound R hT
  · rintro T _ rfl hR
    exact (hlinked.named T hR).2
  · rintro R _ rfl hK
    exact hlinked.roomBound R hK
  · have hj := hlinked.job R hR
    exact ⟨hj.distinct, hj.input, hj.output, hj.inputManifest, hj.outputManifest,
      hj.status, hj.level⟩

theorem sample_answers_linked :
    sampleReported.transferIdForRequest 7 = 5 ∧ (sampleReported.jobs 8).level = 1 ∧
      (sampleReported.jobs 8).level =
        (sampleReported.roomReceipts (sampleReported.jobs 8).inputRoomKey).level &&&
          (sampleReported.roomReceipts (sampleReported.jobs 8).outputRoomKey).level := by
  have h := reachable_answers_linked sampleReported_reachable
  refine ⟨h.2.1 5 7 (by decide +kernel) (by decide), by decide +kernel, ?_⟩
  exact (h.2.2.2 8 (by decide +kernel)).2.2.2.2.2.2

def deploymentLevel (donAttestedReports : Bool) : UInt8 := 1 ||| if donAttestedReports then 4 else 0

theorem deployed_donAttested {msg : Msg} {forwarderAddress : Address} {staleAfterSeconds : UInt64}
    {don : Bool}
    (hd : deploy msg forwarderAddress staleAfterSeconds don = .ok s) (hl : (contract H).Later s t) :
    t.donAttested = don := by
  obtain ⟨-, hledger⟩ := deploy_eq_ok hd
  have hinit : (contract H).init s := ⟨_, _, _, _, hd⟩
  have hkeeps := Ledger.later_keeps (later_refines (init_openOk hinit) hl).later
  rw [hkeeps.donAttested, hledger]
  rfl

theorem Ledger.standardReceiptLevel_eq (l : Ledger) :
    l.standardReceiptLevel = deploymentLevel l.donAttested := rfl

theorem Ledger.roomSignedReceiptLevel_eq (l : Ledger) :
    l.roomSignedReceiptLevel = deploymentLevel l.donAttested ||| 2 := by
  unfold roomSignedReceiptLevel attestationLevel deploymentLevel
  cases l.donAttested <;> decide

theorem deploymentLevel_and {don : Bool} {a b : UInt8}
    (ha : a = deploymentLevel don ∨ a = deploymentLevel don ||| 2)
    (hb : b = deploymentLevel don ∨ b = deploymentLevel don ||| 2) :
    (a &&& b &&& 4 ≠ 0 ↔ don = true) ∧ (a &&& b &&& 2 ≠ 0 ↔ a &&& 2 ≠ 0 ∧ b &&& 2 ≠ 0) := by
  rcases ha with rfl | rfl <;> rcases hb with rfl | rfl <;> cases don <;> decide

/-- What a deployment's flag says of every level it ever stores. -/
theorem reachable_levels {s₀ : State} {msg : Msg} {forwarderAddress : Address}
    {staleAfterSeconds : UInt64}
    {don : Bool} (hd : deploy msg forwarderAddress staleAfterSeconds don = .ok s₀)
    (hl : (contract H).Later s₀ s) :
    (∀ T, (s.receipts T).status ≠ .none → (s.receipts T).level = deploymentLevel don) ∧
    (∀ K, (s.roomReceipts K).status ≠ .none → (s.roomReceipts K).level = deploymentLevel don ∨
      ((s.roomReceipts K).level = deploymentLevel don ||| 2 ∧ (s.roomReceipts K).targetCount ≠ 0 ∧
        (s.roomReceipts K).evidenceVersion ≠ 0 ∧ (s.roomReceipts K).evidenceSha256 ≠ 0)) ∧
    (∀ R, (s.jobs R).status ≠ .none → ((s.jobs R).level &&& 4 ≠ 0 ↔ don = true) ∧
      ((s.jobs R).level &&& 2 ≠ 0 ↔ (s.roomReceipts (s.jobs R).inputRoomKey).level &&& 2 ≠ 0 ∧
        (s.roomReceipts (s.jobs R).outputRoomKey).level &&& 2 ≠ 0)) ∧
    (don = false →
      (∀ T, (s.receipts T).status ≠ .none → (s.receipts T).level &&& 4 = 0) ∧
      (∀ K, (s.roomReceipts K).status ≠ .none → (s.roomReceipts K).level &&& 4 = 0) ∧
      ∀ R, (s.jobs R).status ≠ .none → (s.jobs R).level &&& 4 = 0) := by
  have hdon := deployed_donAttested hd hl
  have hsound : s.Sound H := reachable_sound ⟨s₀, ⟨_, _, _, _, hd⟩, hl⟩
  have hstandard : ∀ T, (s.receipts T).status ≠ .none →
      (s.receipts T).level = deploymentLevel don := by
    intro T hT
    rw [hsound.levelsOk.standard T hT, Ledger.standardReceiptLevel_eq, hdon]
  have hroom : ∀ K, (s.roomReceipts K).status ≠ .none →
      (s.roomReceipts K).level = deploymentLevel don ∨
      ((s.roomReceipts K).level = deploymentLevel don ||| 2 ∧
        (s.roomReceipts K).targetCount ≠ 0) := by
    intro K hK
    have hlevel := (hsound.levelsOk.room K hK).level
    rwa [Ledger.roomSignedReceiptLevel_eq, hdon,
      show s.roomReceiptLevel = deploymentLevel don from hdon ▸
        Ledger.standardReceiptLevel_eq _] at hlevel
  have hjob : ∀ R, (s.jobs R).status ≠ .none → ((s.jobs R).level &&& 4 ≠ 0 ↔ don = true) ∧
      ((s.jobs R).level &&& 2 ≠ 0 ↔ (s.roomReceipts (s.jobs R).inputRoomKey).level &&& 2 ≠ 0 ∧
        (s.roomReceipts (s.jobs R).outputRoomKey).level &&& 2 ≠ 0) := by
    intro R hR
    have hj := hsound.linked.job R hR
    rw [hj.level]
    exact deploymentLevel_and ((hroom _ hj.input).imp_right And.left)
      ((hroom _ hj.output).imp_right And.left)
  refine ⟨hstandard, fun K hK => ?_, hjob, ?_⟩
  · have hok := hsound.levelsOk.room K hK
    exact (hroom K hK).imp_right fun hs => ⟨hs.1, hs.2, hok.evidenceVersion, hok.evidenceSha256⟩
  · rintro rfl
    refine ⟨fun T hT => ?_, fun K hK => ?_, fun R hR => ?_⟩
    · rw [hstandard T hT]
      decide
    · rcases hroom K hK with he | ⟨he, -⟩ <;> rw [he] <;> decide
    · exact not_not.mp fun hne => Bool.false_ne_true ((hjob R hR).1.mp hne)

theorem sample_levels :
    (sampleReported.receipts 5).level = 1 ∧ (sampleReported.jobs 8).level &&& 4 = 0 := by
  have hl := (later_run sampleHashes sampleDeployed sampleRequests).trans sampleReported_later
  have h := reachable_levels sampleDeployed_init hl
  exact ⟨h.1 5 (by decide +kernel), (h.2.2.2 rfl).2.2 8 (by decide +kernel)⟩

end Beam.Contract
