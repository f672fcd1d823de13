import BeamSdk.Contract.Guarantees
import BeamSdk.Contract.Recorded

/-! A report that succeeded once has nothing left to do: every entry is settled by its own pass and
stays so through the rest of the report. -/

namespace Beam.Contract
variable {H : Hashes} {D : List Demand} {s t u : State}

/-- What the entries of a report may do to a state, `D` being the demands in play: move the ledger,
and close requests for those demands, a request for a transfer only by answering it. -/
structure Entered (H : Hashes) (D : List Demand) (s t : State) : Prop where
  openOk : OpenOk H s → OpenOk H t
  keeps : s.Keeps t.toLedger
  requests : ∀ k, t.openRequests k = s.openRequests k ∨ (t.openRequests k = OpenRequest.zero ∧
    ∃ d ∈ D, d.key H = k ∧ ∀ R, d = .transfer R → t.isAnswered R)

theorem Entered.refl (s : State) : Entered H D s s := ⟨id, .refl _, fun _ => .inl rfl⟩

theorem Entered.trans (h : Entered H D s t) (h' : Entered H D t u) : Entered H D s u where
  openOk := h'.openOk ∘ h.openOk
  keeps := h.keeps.trans h'.keeps
  requests k := by
    rcases h'.requests k with he' | hclosed
    · rcases h.requests k with he | ⟨hzero, d, hd, hk, hans⟩
      · exact .inl (he'.trans he)
      · refine .inr ⟨he'.trans hzero, d, hd, hk, fun R hR => ?_⟩
        exact h'.keeps.met (d := .transfer R) (hans R hR)
    · exact .inr hclosed

def KeysDistinct (H : Hashes) (D : List Demand) : Prop :=
    ∀ d ∈ D, ∀ d' ∈ D, d.key H = d'.key H → d = d'

structure Tracked (H : Hashes) (D : List Demand) (s : State) : Prop where
  openOk : OpenOk H s
  demands : ∀ d, s.Open H d → d ∈ D

theorem Entered.tracked (h : Entered H D s t) (hs : Tracked H D s) : Tracked H D t where
  openOk := h.openOk hs.openOk
  demands d := by
    rintro ⟨k, hk⟩
    rcases h.requests k with he | ⟨hzero, -⟩
    · exact hs.demands d ⟨k, he ▸ hk⟩
    · rw [hzero] at hk
      cases hk

theorem OpenOk.mem_iff (h : OpenOk H s) (k : Bytes32) :
    k ∈ s.openKeys ↔ s.openRequests k ≠ OpenRequest.zero := by
  constructor
  · intro hk hzero
    obtain ⟨-, d, hd, -⟩ := h.listed k hk
    rw [hzero] at hd
    cases hd
  · intro hne
    by_contra hk
    exact hne (h.unlisted k hk)

theorem Entered.position_eq_zero (h : Entered H D s t) (hs : OpenOk H s) {k : Bytes32}
    (hk : s.openPosition k = 0) : t.openPosition k = 0 := by
  have ht := h.openOk hs
  rw [hs.position_eq_zero, hs.mem_iff, not_not] at hk
  rw [ht.position_eq_zero, ht.mem_iff, not_not]
  rcases h.requests k with he | ⟨hzero, -⟩
  · exact he.trans hk
  · exact hzero

/-- A request id that was refused is refused for the rest of the report: where its request asks for
another kind, nothing but an answer closes that. -/
theorem Entered.refused (h : Entered H D s t) (hs : OpenOk H s) (hD : KeysDistinct H D)
    {R : Bytes32} {kind : TransferKind}
    (hR : .transfer R ∈ D) (hr : Refused H s R kind) : Refused H t R kind := by
  rcases hr with h0 | ha | ⟨hpos, hkind⟩
  · exact .inl h0
  · exact .inr (.inl (h.keeps.met (d := .transfer R) ha))
  · rcases h.requests (transferRequestKey H R) with he | ⟨-, d, hd, hkey, hans⟩
    · have ht := h.openOk hs
      refine .inr (.inr ⟨?_, he ▸ hkind⟩)
      rw [Ne, ht.position_eq_zero, ht.mem_iff, he, ← hs.mem_iff, ← hs.position_eq_zero]
      exact hpos
    · have hd' : d = .transfer R := hD d hd _ hR hkey
      exact .inr (.inl (hans R hd'))

structure StandardReceiptReport.Settled (H : Hashes) (entry : StandardReceiptReport)
    (s : State) : Prop where
  transferId : entry.transferId ≠ 0
  status : ¬ (entry.status = Status.none.code ∨ entry.status > Status.cancelled.code)
  level : entry.level = s.standardReceiptLevel
  recorded : s.Met (.receipt entry.transferId)
  refused : Refused H s entry.requestId .standard

structure RoomReceiptReport.Settled (H : Hashes) (entry : RoomReceiptReport)
    (s : State) : Prop where
  status : ¬ (entry.status = Status.none.code ∨ entry.status > Status.partially.code)
  level : ¬ (entry.level ≠ s.roomReceiptLevel ∧
    (entry.level ≠ s.roomSignedReceiptLevel ∨ entry.targetCount = 0))
  evidence : ¬ (entry.evidenceVersion = 0 ∨ entry.evidenceSha256 = 0)
  recorded : s.Met (.room (roomReceiptKey H entry.room entry.channel entry.publication))
  refused : Refused H s entry.requestId .roomDelivery

structure RequestClosure.Settled (closure : RequestClosure) (s : State) : Prop where
  key : closure.key ≠ 0
  reason : closure.reason = CLOSURE_BUCKET_ONLY_PUBLICATION
  closed : s.openPosition closure.key = 0 ∨ (s.openRequests closure.key).kind ≠ .roomReceipt

structure JobResultReport.Settled (H : Hashes) (entry : JobResultReport) (s : State) : Prop where
  job : ¬ (entry.requestId = 0 ∨ entry.inputRoomKey = entry.outputRoomKey ∨
    entry.computeMember.length = 0 ∨
    entry.computeMember.length > MAX_ROOM_ID_BYTES)
  input : s.Met (.room entry.inputRoomKey)
  output : s.Met (.room entry.outputRoomKey)
  refused : Refused H s entry.requestId .job

theorem StandardReceiptReport.Settled.repeats {entry : StandardReceiptReport}
    (h : entry.Settled H s) :
    recordReceipt H s entry = .ok s := by
  unfold recordReceipt
  rw [if_neg h.transferId, if_neg h.status, if_neg (not_not.mpr h.level),
    answerRequest_refused h.refused]
  show storeReceipt H s entry false = .ok s
  have hrecorded : (s.receipts entry.transferId).status ≠ .none := h.recorded
  simp only [storeReceipt, if_pos hrecorded, Bool.false_eq_true, false_and, if_false]

theorem RoomReceiptReport.Settled.repeats {entry : RoomReceiptReport} (h : entry.Settled H s) :
    recordRoomReceipt H s entry = .ok s := by
  unfold recordRoomReceipt
  rw [if_neg h.status, if_neg h.level, if_neg h.evidence]
  simp only [answerRequest_refused h.refused]
  exact if_pos h.recorded

theorem RequestClosure.Settled.repeats {closure : RequestClosure} (h : closure.Settled s) :
    closeRequest s closure = .ok s := by
  unfold closeRequest
  rw [if_neg h.key, if_neg (not_not.mpr h.reason), if_pos h.closed]

theorem JobResultReport.Settled.repeats {entry : JobResultReport} (h : entry.Settled H s) :
    recordJob H s entry = .ok s := by
  simp only [recordJob]
  rw [if_neg h.job, if_neg h.input, if_neg h.output, answerRequest_refused h.refused]
  rfl

theorem Entered.standardReceiptLevel (h : Entered H D s t) :
    t.standardReceiptLevel = s.standardReceiptLevel := by
  unfold Ledger.standardReceiptLevel Ledger.attestationLevel
  rw [h.keeps.donAttested]

theorem Entered.roomSignedReceiptLevel (h : Entered H D s t) :
    t.roomSignedReceiptLevel = s.roomSignedReceiptLevel := by
  unfold Ledger.roomSignedReceiptLevel Ledger.attestationLevel
  rw [h.keeps.donAttested]

theorem StandardReceiptReport.Settled.stays {entry : StandardReceiptReport} (h : entry.Settled H s)
    (he : Entered H D s t) (hs : OpenOk H s) (hD : KeysDistinct H D)
    (hR : .transfer entry.requestId ∈ D) :
    entry.Settled H t where
  transferId := h.transferId
  status := h.status
  level := h.level.trans he.standardReceiptLevel.symm
  recorded := he.keeps.met h.recorded
  refused := he.refused hs hD hR h.refused

theorem RoomReceiptReport.Settled.stays {entry : RoomReceiptReport} (h : entry.Settled H s)
    (he : Entered H D s t) (hs : OpenOk H s) (hD : KeysDistinct H D)
    (hR : .transfer entry.requestId ∈ D) :
    entry.Settled H t where
  status := h.status
  level := by
    rw [show t.roomReceiptLevel = s.roomReceiptLevel from he.standardReceiptLevel,
      he.roomSignedReceiptLevel]
    exact h.level
  evidence := h.evidence
  recorded := he.keeps.met h.recorded
  refused := he.refused hs hD hR h.refused

theorem RequestClosure.Settled.stays {closure : RequestClosure} (h : closure.Settled s)
    (he : Entered H D s t) (hs : OpenOk H s) : closure.Settled t where
  key := h.key
  reason := h.reason
  closed := by
    rcases h.closed with hpos | hkind
    · exact .inl (he.position_eq_zero hs hpos)
    · rcases he.requests closure.key with hsame | ⟨hzero, -⟩
      · exact .inr (hsame ▸ hkind)
      · exact .inr (by rw [hzero]; exact RequestKind.noConfusion)

theorem JobResultReport.Settled.stays {entry : JobResultReport} (h : entry.Settled H s)
    (he : Entered H D s t) (hs : OpenOk H s) (hD : KeysDistinct H D)
    (hR : .transfer entry.requestId ∈ D) :
    entry.Settled H t where
  job := h.job
  input := he.keeps.met h.input
  output := he.keeps.met h.output
  refused := he.refused hs hD hR h.refused

theorem Refines.entered (h : Refines H s t) (hr : ∀ k, t.openRequests k = s.openRequests k ∨
    (t.openRequests k = OpenRequest.zero ∧ ∃ d ∈ D, d.key H = k ∧ ∀ R, d = .transfer R →
      t.isAnswered R)) :
    Entered H D s t :=
  ⟨fun _ => h.openOk, Ledger.later_keeps h.later, hr⟩

theorem answered_requests {R : Bytes32} {d : Demand} {f g : Bytes32 → OpenRequest}
    (hR : .transfer R ∈ D) (hd : d ∈ D) (hnot : ∀ R, d ≠ .transfer R) (hans : t.isAnswered R)
    (hfg : g = Function.update f (transferRequestKey H R) OpenRequest.zero)
    (hclosed : ∀ k, t.openRequests k = g k ∨ (t.openRequests k = OpenRequest.zero ∧ k = d.key H))
    (k : Bytes32) :
    t.openRequests k = f k ∨ (t.openRequests k = OpenRequest.zero ∧
      ∃ d ∈ D, d.key H = k ∧ ∀ R, d = .transfer R → t.isAnswered R) := by
  rcases hclosed k with he | ⟨hzero, rfl⟩
  · rw [he, hfg]
    rcases Ledger.update_eq_or f (transferRequestKey H R) k OpenRequest.zero with hkeep |
      ⟨rfl, hzero⟩
    · exact .inl hkeep
    · refine .inr ⟨hzero, .transfer R, hR, rfl, ?_⟩
      rintro _ ⟨⟩
      exact hans
  · exact .inr ⟨hzero, d, hd, rfl, fun R he => absurd he (hnot R)⟩

theorem recordReceipt_settles (h : OpenOk H s) (hD : KeysDistinct H D)
    {entry : StandardReceiptReport}
    (hR : .transfer entry.requestId ∈ D) (hT : .receipt entry.transferId ∈ D)
    (hc : recordReceipt H s entry = .ok t) : Entered H D s t ∧ entry.Settled H t := by
  have hrefines := recordReceipt_refines h hc
  simp only [recordReceipt] at hc
  split_ifs at hc with hid hstatus hlevel
  have hcode := Status.ofCode_valid (by decide) hstatus
  obtain ⟨⟨answers, u⟩, hans, hstore⟩ := bind_eq_ok.mp hc
  rcases answerRequest_cases h hans with ⟨rfl, rfl, hrefused⟩ | ⟨rfl, -, -, slots, rfl, hok⟩
  · obtain ⟨hmet, -, hclosed⟩ := storeReceipt_eq_ok h hcode hstore
    have hentered : Entered H D u t := hrefines.entered fun k =>
      (hclosed k).imp_right fun hput =>
        ⟨hput.1, _, hT, hput.2.symm, fun _ hother => by cases hother⟩
    exact ⟨hentered, hid, hstatus,
      (not_not.mp hlevel).trans hentered.standardReceiptLevel.symm, hmet,
      hentered.refused h hD hR hrefused⟩
  · rw [if_pos rfl] at hstore
    have hok' :
        OpenOk H ((s.closed (transferRequestKey H entry.requestId) slots).bindTransfer
          entry.requestId
        entry.transferId) := hok.congr rfl rfl
    obtain ⟨hmet, hsame, hclosed⟩ := storeReceipt_eq_ok hok' hcode hstore
    have hbound : t.isAnswered entry.requestId := by
      refine (hsame _).mpr (.inl ?_)
      simp only [State.bindTransfer, State.emit, Function.update_self]
      exact hid
    have hentered : Entered H D s t :=
      hrefines.entered
        (answered_requests hR hT (fun _ hother => by cases hother) hbound rfl hclosed)
    exact ⟨hentered, hid, hstatus,
      (not_not.mp hlevel).trans hentered.standardReceiptLevel.symm, hmet,
      .inr (.inl hbound)⟩

theorem recordRoomReceipt_settles (h : OpenOk H s) (hD : KeysDistinct H D)
    {entry : RoomReceiptReport}
    (hR : .transfer entry.requestId ∈ D)
    (hK : .room (roomReceiptKey H entry.room entry.channel entry.publication) ∈ D)
    (hne : roomReceiptKey H entry.room entry.channel entry.publication ≠ 0)
    (hc : recordRoomReceipt H s entry = .ok t) : Entered H D s t ∧ entry.Settled H t := by
  have hrefines := recordRoomReceipt_refines h hc
  simp only [recordRoomReceipt] at hc
  split_ifs at hc with hstatus hlevel hevidence
  have hcode := Status.ofCode_valid (by decide) hstatus
  obtain ⟨⟨answers, u⟩, hans, hstore⟩ := bind_eq_ok.mp hc
  have hsettled : Entered H D s t →
      t.Met (.room (roomReceiptKey H entry.room entry.channel entry.publication)) →
      Refused H t entry.requestId .roomDelivery → entry.Settled H t := by
    intro he hmet hrefused
    refine ⟨hstatus, ?_, hevidence, hmet, hrefused⟩
    rw [show t.roomReceiptLevel = s.roomReceiptLevel from he.standardReceiptLevel,
      he.roomSignedReceiptLevel]
    exact hlevel
  rcases answerRequest_cases h hans with ⟨rfl, rfl, hrefused⟩ | ⟨rfl, -, -, slots, rfl, hok⟩
  · obtain ⟨hmet, -, hclosed⟩ := storeRoomReceipt_eq_ok h hcode hstore
    have hentered : Entered H D u t := hrefines.entered fun k =>
      (hclosed k).imp_right fun hput =>
        ⟨hput.1, _, hK, hput.2.symm, fun _ hother => by cases hother⟩
    exact ⟨hentered, hsettled hentered hmet (hentered.refused h hD hR hrefused)⟩
  · rw [if_pos rfl] at hstore
    have hok' :
        OpenOk H ((s.closed (transferRequestKey H entry.requestId) slots).bindRoom entry.requestId
        (roomReceiptKey H entry.room entry.channel entry.publication)) := hok.congr rfl rfl
    obtain ⟨hmet, hsame, hclosed⟩ := storeRoomReceipt_eq_ok hok' hcode hstore
    have hbound : t.isAnswered entry.requestId := by
      refine (hsame _).mpr (.inr (.inl ?_))
      simp only [State.bindRoom, State.emit, Function.update_self]
      exact hne
    have hentered : Entered H D s t :=
      hrefines.entered
        (answered_requests hR hK (fun _ hother => by cases hother) hbound rfl hclosed)
    exact ⟨hentered, hsettled hentered hmet (.inr (.inl hbound))⟩

theorem closeRequest_settles (h : Tracked H D s) {closure : RequestClosure}
    (hc : closeRequest s closure = .ok t) : Entered H D s t ∧ closure.Settled t := by
  have hrefines := closeRequest_refines h.openOk hc
  simp only [closeRequest] at hc
  split_ifs at hc with hkey hreason hdone
  · cases hc
    exact ⟨.refl s, hkey, not_not.mp hreason, hdone⟩
  · obtain ⟨v, hclose, hemit⟩ := bind_eq_ok.mp hc
    obtain ⟨slots, hslots, hok⟩ := h.openOk.closeKey closure.key
    rw [hslots] at hclose
    cases hclose
    cases hemit
    have hkind : (s.openRequests closure.key).kind = .roomReceipt :=
      not_not.mp fun hne => hdone (.inr hne)
    have hzero : (s.closed closure.key slots).openRequests closure.key = OpenRequest.zero := by
      simp only [State.closed, Function.update_self]
    -- the record asks for a Room receipt, so what closes is no request for a transfer
    obtain ⟨K, hdemand⟩ : ∃ K, (s.openRequests closure.key).demand H = some (.room K) := by
      simp only [OpenRequest.demand, hkind]
      exact ⟨_, rfl⟩
    refine ⟨hrefines.entered fun k => ?_, hkey, not_not.mp hreason, .inr ?_⟩
    · rcases Ledger.update_eq_or s.openRequests closure.key k OpenRequest.zero with he | ⟨rfl, he⟩
      · exact .inl he
      · exact .inr ⟨he, .room K, h.demands _ ⟨_, hdemand⟩, h.openOk.demand_key hdemand,
          fun _ hother => by cases hother⟩
    · show ((s.closed closure.key slots).openRequests closure.key).kind ≠ .roomReceipt
      rw [hzero]
      exact RequestKind.noConfusion

theorem recordJob_settles (h : OpenOk H s) {entry : JobResultReport}
    (hR : .transfer entry.requestId ∈ D) (hc : recordJob H s entry = .ok t) :
    Entered H D s t ∧ entry.Settled H t := by
  have hrefines := recordJob_refines h hc
  simp only [recordJob] at hc
  split_ifs at hc with hjob hinput houtput
  obtain ⟨⟨answers, u⟩, hans, hstore⟩ := bind_eq_ok.mp hc
  rcases answerRequest_cases h hans with ⟨rfl, rfl, hrefused⟩ | ⟨rfl, -, -, slots, rfl, hok⟩
  · cases hstore
    exact ⟨.refl u, hjob, hinput, houtput, hrefused⟩
  · cases hstore
    have hbound : ((s.closed (transferRequestKey H entry.requestId) slots).putJob entry.requestId
        (entry.result (s.roomReceipts entry.inputRoomKey)
          (s.roomReceipts entry.outputRoomKey))).isAnswered
        entry.requestId := by
      refine .inr (.inr ?_)
      simp only [State.putJob, State.emit, Function.update_self]
      have hagrees : s.JobAgrees
          (entry.result (s.roomReceipts entry.inputRoomKey) (s.roomReceipts entry.outputRoomKey)) :=
        ⟨fun he => hjob (.inr (.inl he)), hinput, houtput, rfl, rfl, rfl, rfl⟩
      exact hagrees.recorded
    refine ⟨hrefines.entered fun k => ?_, hjob, hinput, houtput, .inr (.inl hbound)⟩
    rcases Ledger.update_eq_or s.openRequests (transferRequestKey H entry.requestId)
      k OpenRequest.zero
      with he | ⟨rfl, he⟩
    · exact .inl he
    · refine .inr ⟨he, .transfer entry.requestId, hR, rfl, ?_⟩
      rintro _ ⟨⟩
      exact hbound

def Report.demands (H : Hashes) (report : Report) : List Demand :=
  report.standard.flatMap (fun entry => [.transfer entry.requestId, .receipt entry.transferId]) ++
    report.rooms.flatMap (fun entry => [.transfer entry.requestId,
      .room (roomReceiptKey H entry.room entry.channel entry.publication)]) ++
    report.jobs.map (fun entry => .transfer entry.requestId)

def State.openDemands (H : Hashes) (s : State) : List Demand :=
  s.openKeys.filterMap fun k => (s.openRequests k).demand H

def usedEncodings (H : Hashes) (s : State) (report : Report) : List (List Bytes32) :=
  (s.openDemands H ++ report.demands H).map Demand.encoding ++
    report.rooms.map fun entry => Abi.encodeStrings [entry.room, entry.channel, entry.publication]

theorem OpenOk.tracked (h : OpenOk H s) (hD : ∀ d ∈ s.openDemands H, d ∈ D) : Tracked H D s where
  openOk := h
  demands d := by
    rintro ⟨k, hk⟩
    have hmem : k ∈ s.openKeys := by
      rw [h.mem_iff]
      intro hzero
      rw [hzero] at hk
      cases hk
    exact hD d (List.mem_filterMap.mpr ⟨k, hmem, hk⟩)

theorem processEntries_settles (h : Tracked H D s) (hD : KeysDistinct H D) {report : Report}
    (hreport : ∀ d ∈ report.demands H, d ∈ D)
    (hrooms : ∀ entry ∈ report.rooms,
      roomReceiptKey H entry.room entry.channel entry.publication ≠ 0)
    (hc : processEntries H s report = .ok t) :
    (∀ entry ∈ report.standard, entry.Settled H t) ∧ (∀ entry ∈ report.rooms, entry.Settled H t) ∧
      (∀ closure ∈ report.closures, closure.Settled t) ∧
        ∀ entry ∈ report.jobs, entry.Settled H t := by
  have hstandard : ∀ entry ∈ report.standard, .transfer entry.requestId ∈ D ∧
      .receipt entry.transferId ∈ D := by
    intro entry he
    refine ⟨hreport _ ?_, hreport _ ?_⟩ <;>
      exact List.mem_append_left _
        (List.mem_append_left _ (List.mem_flatMap.mpr ⟨entry, he, by simp⟩))
  have hroom : ∀ entry ∈ report.rooms, .transfer entry.requestId ∈ D ∧
      .room (roomReceiptKey H entry.room entry.channel entry.publication) ∈ D := by
    intro entry he
    refine ⟨hreport _ ?_, hreport _ ?_⟩ <;>
      exact List.mem_append_left _
        (List.mem_append_right _ (List.mem_flatMap.mpr ⟨entry, he, by simp⟩))
  have hjob : ∀ entry ∈ report.jobs, .transfer entry.requestId ∈ D := fun entry he =>
    hreport _ (List.mem_append_right _ (List.mem_map.mpr ⟨entry, he, rfl⟩))
  simp only [processEntries] at hc
  obtain ⟨s₁, h₁, hc⟩ := bind_eq_ok.mp hc
  obtain ⟨s₂, h₂, hc⟩ := bind_eq_ok.mp hc
  obtain ⟨s₃, h₃, h₄⟩ := bind_eq_ok.mp hc
  have hI : ∀ s t, Tracked H D s → Entered H D s t → Tracked H D t := fun _ _ hs he => he.tracked hs
  obtain ⟨e₁, settled₁⟩ := foldlM_settles (f := recordReceipt H)
    (S := StandardReceiptReport.Settled H) .refl (fun _ _ _ => .trans) hI
    (fun s hs x hx t => recordReceipt_settles hs.openOk hD (hstandard x hx).1 (hstandard x hx).2)
    (fun x hx s t hs he hsettled => hsettled.stays he hs.openOk hD (hstandard x hx).1) h h₁
  have r₁ := e₁.tracked h
  obtain ⟨e₂, settled₂⟩ := foldlM_settles (f := recordRoomReceipt H)
    (S := RoomReceiptReport.Settled H) .refl (fun _ _ _ => .trans) hI
    (fun s hs x hx t => recordRoomReceipt_settles hs.openOk hD (hroom x hx).1 (hroom x hx).2
      (hrooms x hx))
    (fun x hx s t hs he hsettled => hsettled.stays he hs.openOk hD (hroom x hx).1) r₁ h₂
  have r₂ := e₂.tracked r₁
  obtain ⟨e₃, settled₃⟩ := foldlM_settles (f := closeRequest)
    (S := RequestClosure.Settled) .refl (fun _ _ _ => .trans) hI
    (fun s hs x hx t => closeRequest_settles hs)
    (fun x hx s t hs he hsettled => hsettled.stays he hs.openOk) r₂ h₃
  have r₃ := e₃.tracked r₂
  obtain ⟨e₄, settled₄⟩ := foldlM_settles (f := recordJob H)
    (S := JobResultReport.Settled H) .refl (fun _ _ _ => .trans) hI
    (fun s hs x hx t => recordJob_settles hs.openOk (hjob x hx))
    (fun x hx s t hs he hsettled => hsettled.stays he hs.openOk hD (hjob x hx)) r₃ h₄
  -- the entries of an earlier list stay settled through the lists after it
  refine ⟨fun x hx => ?_, fun x hx => ?_, fun x hx => ?_, settled₄⟩
  · exact (settled₁ x hx).stays ((e₂.trans e₃).trans e₄) r₁.openOk hD (hstandard x hx).1
  · exact (settled₂ x hx).stays (e₃.trans e₄) r₂.openOk hD (hroom x hx).1
  · exact (settled₃ x hx).stays e₄ r₃.openOk

/-- A report that went through once changes nothing when it comes again, not even the events, and
one that reverts leaves the state alone. -/
theorem processReport_repeats (h : (contract H).Reachable s) (report : Report)
    (hinj : ∀ a ∈ usedEncodings H s report, ∀ b ∈ usedEncodings H s report,
      H.keccak256 a = H.keccak256 b → a = b)
    (hzero : ∀ a ∈ usedEncodings H s report, H.keccak256 a ≠ 0) (version : Option UInt8) :
    (∀ t, processReport H s ⟨version, some report⟩ = .ok t →
      processReport H t ⟨version, some report⟩ = .ok t) ∧
      ∀ e, processReport H s ⟨version, some report⟩ = .error e →
        s.transact (processReport H s ⟨version, some report⟩) = s := by
  have hok := (reachable_refines h).1
  have hD : KeysDistinct H (s.openDemands H ++ report.demands H) := fun d hd d' hd' hkey =>
    Demand.encoding_injective (hinj _ (List.mem_append_left _ (List.mem_map_of_mem hd)) _
      (List.mem_append_left _ (List.mem_map_of_mem hd')) hkey)
  have hrooms : ∀ entry ∈ report.rooms,
      roomReceiptKey H entry.room entry.channel entry.publication ≠ 0 :=
    fun entry he => hzero _ (List.mem_append_right _ (List.mem_map.mpr ⟨entry, he, rfl⟩))
  refine ⟨fun t ht => ?_, fun e he => by rw [he, State.transact]⟩
  cases version with
  | none => cases ht
  | some version =>
    simp only [processReport] at ht ⊢
    split_ifs at ht with hversion
    rw [if_neg hversion]
    obtain ⟨h₁, h₂, h₃, h₄⟩ :=
      processEntries_settles (hok.tracked fun d hd => List.mem_append_left _ hd) hD
      (fun d hd => List.mem_append_right _ hd) hrooms ht
    unfold processEntries
    rw [foldlM_eq_self fun x hx => (h₁ x hx).repeats]
    show (report.rooms.foldlM (recordRoomReceipt H) t >>= _) = _
    rw [foldlM_eq_self fun x hx => (h₂ x hx).repeats]
    show (report.closures.foldlM closeRequest t >>= _) = _
    rw [foldlM_eq_self fun x hx => (h₃ x hx).repeats]
    show report.jobs.foldlM (recordJob H) t = _
    exact foldlM_eq_self fun x hx => (h₄ x hx).repeats

theorem sample_repeats :
    ∃ t, processReport sampleHashes sampleRequested ⟨some 2, some sampleReport⟩ = .ok t ∧
      processReport sampleHashes t ⟨some 2, some sampleReport⟩ = .ok t := by
  have hrepeats := processReport_repeats sampleRequested_reachable sampleReport
    (by decide +kernel) (by decide +kernel) (some 2)
  have hok :
      (processReport sampleHashes sampleRequested ⟨some 2, some sampleReport⟩).toOption.isSome =
        true := by
    decide +kernel
  cases hc : processReport sampleHashes sampleRequested ⟨some 2, some sampleReport⟩ with
  | error e =>
    rw [hc] at hok
    cases hok
  | ok t => exact ⟨t, rfl, hrepeats.1 t hc⟩

end Beam.Contract
