import BeamSdk.Contract.Recorded

/-! What a report needs for the contract to take it, and what every open request names. -/

namespace Beam.Contract
variable {H : Hashes} {s t u : State}

theorem answerRequest_total (h : OpenOk H s) (requestId : Bytes32) (kind : TransferKind) :
    ∃ answers t, answerRequest H s requestId kind = .ok (answers, t) ∧ OpenOk H t := by
  simp only [answerRequest]
  split_ifs
  · exact ⟨false, s, rfl, h⟩
  · exact ⟨false, s, rfl, h⟩
  · obtain ⟨slots, hclose, hok⟩ := h.closeKey (transferRequestKey H requestId)
    exact ⟨true, _, bind_eq_ok.mpr ⟨_, hclose, rfl⟩, hok⟩

theorem storeReceipt_total (h : OpenOk H s) (entry : StandardReceiptReport) (answers : Bool) :
    ∃ t, storeReceipt H s entry answers = .ok t := by
  unfold storeReceipt
  simp only
  split_ifs
  all_goals try exact ⟨_, rfl⟩
  all_goals
    obtain ⟨slots, hclose, -⟩ := (h.congr (t := s.putReceipt entry.transferId _) rfl rfl).closeKey
      (receiptRequestKey H entry.transferId)
    exact ⟨_, bind_eq_ok.mpr ⟨_, hclose, rfl⟩⟩

theorem storeRoomReceipt_total (h : OpenOk H s) (entry : RoomReceiptReport) (roomKey : Bytes32)
    (answers : Bool) :
    ∃ t, storeRoomReceipt H s entry roomKey answers = .ok t := by
  unfold storeRoomReceipt
  split_ifs
  all_goals try exact ⟨_, rfl⟩
  all_goals
    obtain ⟨slots, hclose, -⟩ :=
      (h.congr (t := s.putRoomReceipt roomKey entry.receipt) rfl rfl).closeKey
      (roomRequestKey H roomKey)
    exact ⟨_, bind_eq_ok.mpr ⟨_, hclose, rfl⟩⟩

structure StandardReceiptReport.Valid (l : Ledger) (entry : StandardReceiptReport) : Prop where
  transferId : entry.transferId ≠ 0
  status : entry.status ≠ Status.none.code ∧ entry.status ≤ Status.cancelled.code
  level : entry.level = l.standardReceiptLevel

theorem recordReceipt_total (h : OpenOk H s) {entry : StandardReceiptReport}
    (hentry : entry.Valid s.toLedger) :
    ∃ t, recordReceipt H s entry = .ok t := by
  have hstatus : ¬ (entry.status = Status.none.code ∨ entry.status > Status.cancelled.code) :=
    not_or.mpr ⟨hentry.status.1, UInt8.not_lt.mpr hentry.status.2⟩
  obtain ⟨answers, t, hans, hok⟩ := answerRequest_total h entry.requestId .standard
  have hok' : OpenOk H (if answers then t.bindTransfer entry.requestId entry.transferId
      else t) := by
    split_ifs
    · exact hok.congr rfl rfl
    · exact hok
  obtain ⟨u, hstore⟩ := storeReceipt_total hok' entry answers
  refine ⟨u, ?_⟩
  unfold recordReceipt
  rw [if_neg hentry.transferId, if_neg hstatus, if_neg (not_not.mpr hentry.level)]
  exact bind_eq_ok.mpr ⟨_, hans, hstore⟩

/-- What `_recordRoomReceipt` checks of an entry. -/
structure RoomReceiptReport.Valid (l : Ledger) (entry : RoomReceiptReport) : Prop where
  status : entry.status ≠ Status.none.code ∧ entry.status ≤ Status.partially.code
  level : entry.level = l.roomReceiptLevel ∨
    (entry.level = l.roomSignedReceiptLevel ∧ entry.targetCount ≠ 0)
  evidence : entry.evidenceVersion ≠ 0 ∧ entry.evidenceSha256 ≠ 0

theorem recordRoomReceipt_total (h : OpenOk H s) {entry : RoomReceiptReport}
    (hentry : entry.Valid s.toLedger) :
    ∃ t, recordRoomReceipt H s entry = .ok t := by
  have hstatus : ¬ (entry.status = Status.none.code ∨ entry.status > Status.partially.code) :=
    not_or.mpr ⟨hentry.status.1, UInt8.not_lt.mpr hentry.status.2⟩
  have hlevel : ¬ (entry.level ≠ s.roomReceiptLevel ∧
      (entry.level ≠ s.roomSignedReceiptLevel ∨ entry.targetCount = 0)) := by
    rintro ⟨hne, hbad⟩
    obtain ⟨hsigned, htargets⟩ := hentry.level.resolve_left hne
    exact hbad.elim (· hsigned) htargets
  obtain ⟨answers, t, hans, hok⟩ := answerRequest_total h entry.requestId .roomDelivery
  have hok' : OpenOk H (if answers then t.bindRoom entry.requestId
      (roomReceiptKey H entry.room entry.channel entry.publication) else t) := by
    split_ifs
    · exact hok.congr rfl rfl
    · exact hok
  obtain ⟨u, hstore⟩ := storeRoomReceipt_total hok' entry
    (roomReceiptKey H entry.room entry.channel entry.publication) answers
  refine ⟨u, ?_⟩
  unfold recordRoomReceipt
  rw [if_neg hstatus, if_neg hlevel, if_neg (not_or.mpr hentry.evidence)]
  exact bind_eq_ok.mpr ⟨_, hans, hstore⟩

structure RequestClosure.Valid (closure : RequestClosure) : Prop where
  key : closure.key ≠ 0
  reason : closure.reason = CLOSURE_BUCKET_ONLY_PUBLICATION

theorem closeRequest_total (h : OpenOk H s) {closure : RequestClosure} (hclosure : closure.Valid) :
    ∃ t, closeRequest s closure = .ok t := by
  unfold closeRequest
  rw [if_neg hclosure.key, if_neg (not_not.mpr hclosure.reason)]
  split_ifs
  · exact ⟨s, rfl⟩
  · obtain ⟨slots, hclose, -⟩ := h.closeKey closure.key
    exact ⟨_, bind_eq_ok.mpr ⟨_, hclose, rfl⟩⟩

/-- What `_recordJob` checks before it looks at the receipts. -/
structure JobResultReport.Valid (entry : JobResultReport) : Prop where
  requestId : entry.requestId ≠ 0
  distinct : entry.inputRoomKey ≠ entry.outputRoomKey
  member : entry.computeMember.length ≠ 0 ∧ entry.computeMember.length ≤ MAX_ROOM_ID_BYTES

theorem recordJob_total (h : OpenOk H s) {entry : JobResultReport} (hentry : entry.Valid)
    (hinput : s.Met (.room entry.inputRoomKey)) (houtput : s.Met (.room entry.outputRoomKey)) :
    ∃ t, recordJob H s entry = .ok t := by
  have hvalid : ¬ (entry.requestId = 0 ∨ entry.inputRoomKey = entry.outputRoomKey ∨
      entry.computeMember.length = 0 ∨ entry.computeMember.length > MAX_ROOM_ID_BYTES) :=
    not_or.mpr ⟨hentry.requestId,
      not_or.mpr ⟨hentry.distinct, not_or.mpr ⟨hentry.member.1, Nat.not_lt.mpr hentry.member.2⟩⟩⟩
  obtain ⟨answers, t, hans, -⟩ := answerRequest_total h entry.requestId .job
  simp only [Ledger.Met] at hinput houtput
  simp only [recordJob, if_neg hvalid, if_neg hinput, if_neg houtput]
  exact ⟨_, bind_eq_ok.mpr ⟨_, hans, rfl⟩⟩

/-- Every entry is valid on its own, and the Room receipts a job links are recorded or in the
report. -/
structure Report.Valid (H : Hashes) (l : Ledger) (report : Report) : Prop where
  standard : ∀ entry ∈ report.standard, entry.Valid l
  rooms : ∀ entry ∈ report.rooms, entry.Valid l
  closures : ∀ closure ∈ report.closures, closure.Valid
  jobs : ∀ entry ∈ report.jobs, entry.Valid
  linked : ∀ entry ∈ report.jobs, ∀ key ∈ [entry.inputRoomKey, entry.outputRoomKey],
    l.Met (.room key) ∨
    ∃ room ∈ report.rooms, roomReceiptKey H room.room room.channel room.publication = key

theorem StandardReceiptReport.Valid.congr {l l' : Ledger} {entry : StandardReceiptReport}
    (h : entry.Valid l)
    (hd : l'.donAttested = l.donAttested) : entry.Valid l' where
  transferId := h.transferId
  status := h.status
  level := by
    rw [h.level, Ledger.standardReceiptLevel, Ledger.standardReceiptLevel, Ledger.attestationLevel,
      Ledger.attestationLevel, hd]

theorem RoomReceiptReport.Valid.congr {l l' : Ledger} {entry : RoomReceiptReport}
    (h : entry.Valid l)
    (hd : l'.donAttested = l.donAttested) : entry.Valid l' where
  status := h.status
  level := by
    have hlevel := h.level
    rwa [Ledger.roomReceiptLevel, Ledger.roomSignedReceiptLevel, Ledger.attestationLevel,
      ← hd] at hlevel
  evidence := h.evidence

theorem foldlM_kept {α : Type} {f : State → α → Except Revert State} (xs : List α)
    (htotal : ∀ u, Refines H s u → ∀ x ∈ xs, ∃ v, f u x = .ok v)
    (hrefines : ∀ u x v, OpenOk H u → f u x = .ok v → Refines H u v) (h : OpenOk H s) :
    ∃ t, xs.foldlM f s = .ok t ∧ Refines H s t := by
  refine foldlM_total (fun u hu x hx => ?_) (.refl h)
  obtain ⟨v, hv⟩ := htotal u hu x hx
  exact ⟨v, hv, hu.trans (hrefines u x v hu.openOk hv)⟩

theorem processEntries_total (h : OpenOk H s) {report : Report}
    (hreport : report.Valid H s.toLedger) :
    ∃ t, processEntries H s report = .ok t := by
  obtain ⟨s₁, h₁, r₁⟩ := foldlM_kept report.standard (fun u hu entry hentry =>
    recordReceipt_total hu.openOk ((hreport.standard entry hentry).congr hu.keeps.donAttested))
    (fun _ _ _ hu hv => recordReceipt_refines hu hv) h
  obtain ⟨s₂, h₂, r₂⟩ := foldlM_kept report.rooms (fun u hu entry hentry =>
    recordRoomReceipt_total hu.openOk
      ((hreport.rooms entry hentry).congr (r₁.trans hu).keeps.donAttested))
    (fun _ _ _ hu hv => recordRoomReceipt_refines hu hv) r₁.openOk
  obtain ⟨s₃, h₃, r₃⟩ := foldlM_kept report.closures (fun u hu closure hclosure =>
    closeRequest_total hu.openOk (hreport.closures closure hclosure))
    (fun _ _ _ hu hv => closeRequest_refines hu hv) r₂.openOk
  -- the report's own Room receipts are recorded by now
  have hfirst : processEntries H s { report with jobs := [] } = .ok s₃ := by
    simp only [processEntries]
    exact bind_eq_ok.mpr ⟨s₁, h₁, bind_eq_ok.mpr ⟨s₂, h₂, bind_eq_ok.mpr ⟨s₃, h₃, rfl⟩⟩⟩
  have hrooms := (processEntries_met h hfirst).2
  have hmet : ∀ entry ∈ report.jobs, ∀ key ∈ [entry.inputRoomKey, entry.outputRoomKey],
      s₃.Met (.room key) := by
    intro entry hentry key hkey
    rcases hreport.linked entry hentry key hkey with hmet | ⟨room, hroom, hkey⟩
    · exact ((r₁.trans r₂).trans r₃).keeps.met hmet
    · exact hkey ▸ hrooms room hroom
  obtain ⟨t, h₄, -⟩ := foldlM_kept report.jobs (fun u hu entry hentry =>
    recordJob_total hu.openOk (hreport.jobs entry hentry)
      (hu.keeps.met (hmet entry hentry _ (by simp)))
      (hu.keeps.met (hmet entry hentry _ (by simp))))
    (fun _ _ _ hu hv => recordJob_refines hu hv) r₃.openOk
  refine ⟨t, ?_⟩
  simp only [processEntries]
  exact bind_eq_ok.mpr ⟨s₁, h₁, bind_eq_ok.mpr ⟨s₂, h₂, bind_eq_ok.mpr ⟨s₃, h₃, h₄⟩⟩⟩

theorem processEntries_refuses {report : Report} (h : processEntries H s report = .ok t) :
    (∀ entry ∈ report.standard, entry.transferId ≠ 0) ∧
      ∀ entry ∈ report.jobs, entry.inputRoomKey ≠ entry.outputRoomKey := by
  simp only [processEntries] at h
  obtain ⟨s₁, h₁, h⟩ := bind_eq_ok.mp h
  obtain ⟨s₂, -, h⟩ := bind_eq_ok.mp h
  obtain ⟨s₃, -, h₄⟩ := bind_eq_ok.mp h
  refine ⟨fun entry hentry => ?_, fun entry hentry => ?_⟩
  · obtain ⟨u, v, hv⟩ := step_of_foldlM_eq_ok h₁ hentry
    unfold recordReceipt at hv
    split_ifs at hv with hid
    exact hid
  · obtain ⟨u, v, hv⟩ := step_of_foldlM_eq_ok h₄ hentry
    unfold recordJob at hv
    simp only at hv
    split_ifs at hv with hbad
    exact fun heq => hbad (.inr (.inl heq))

def OpenRequest.Named (r : OpenRequest) : Prop :=
  (r.kind = .transfer → r.requestId ≠ 0) ∧ (r.kind = .receipt → r.transferId ≠ 0)

/-- Each open request of `t` is as in `s`, or closed, or names what it asks for. -/
def Opens (s t : State) : Prop :=
  ∀ k, t.openRequests k = s.openRequests k ∨ t.openRequests k = OpenRequest.zero ∨
    (t.openRequests k).Named

theorem Opens.refl (s : State) : Opens s s := fun _ => .inl rfl

theorem Opens.trans (h : Opens s t) (h' : Opens t u) : Opens s u := by
  intro k
  rcases h' k with hk | hk | hk
  · rw [hk]
    exact h k
  · exact .inr (.inl hk)
  · exact .inr (.inr hk)

theorem Opens.of_eq (h : t.openRequests = s.openRequests) : Opens s t :=
    fun k => .inl (congrFun h k)

theorem opens_closed (s : State) (key : Bytes32) (slots : Slots Bytes32) :
    Opens s (s.closed key slots) :=
  fun k => (Ledger.update_eq_or s.openRequests key k OpenRequest.zero).imp_right fun h => .inl h.2

theorem opens_opened (s : State) {key : Bytes32} {request : OpenRequest} (h : request.Named) :
    Opens s (s.opened key request) := by
  intro k
  rcases Ledger.update_eq_or s.openRequests key k request with hk | ⟨-, hk⟩
  · exact .inl hk
  · exact .inr (.inr (by
      show ((Function.update s.openRequests key request) k).Named
      rw [hk]
      exact h))

theorem answerRequest_opens (h : OpenOk H s) {requestId : Bytes32} {kind : TransferKind}
    {answers : Bool}
    (hans : answerRequest H s requestId kind = .ok (answers, t)) : Opens s t := by
  rcases answerRequest_cases h hans with ⟨-, rfl, -⟩ | ⟨-, -, -, slots, rfl, -⟩
  · exact .refl _
  · exact opens_closed s _ slots

theorem recordReceipt_opens (h : OpenOk H s) {entry : StandardReceiptReport}
    (hc : recordReceipt H s entry = .ok t) : Opens s t := by
  simp only [recordReceipt] at hc
  split_ifs at hc with hid hstatus hlevel
  have hcode := Status.ofCode_valid (by decide) hstatus
  obtain ⟨⟨answers, u⟩, hans, hstore⟩ := bind_eq_ok.mp hc
  have hopens := answerRequest_opens h hans
  have hok : OpenOk H u := by
    obtain ⟨_, _, hans', hok⟩ := answerRequest_total h entry.requestId .standard
    cases hans.symm.trans hans'
    exact hok
  refine hopens.trans fun k => ?_
  cases answers with
  | true =>
    obtain ⟨-, -, hk⟩ := storeReceipt_eq_ok (s := u.bindTransfer entry.requestId entry.transferId)
      (hok.congr rfl rfl)
      hcode hstore
    exact (hk k).imp_right fun hk => .inl hk.1
  | false =>
    obtain ⟨-, -, hk⟩ := storeReceipt_eq_ok hok hcode hstore
    exact (hk k).imp_right fun hk => .inl hk.1

theorem recordRoomReceipt_opens (h : OpenOk H s) {entry : RoomReceiptReport}
    (hc : recordRoomReceipt H s entry = .ok t) : Opens s t := by
  simp only [recordRoomReceipt] at hc
  split_ifs at hc with hstatus hlevel hevidence
  have hcode := Status.ofCode_valid (by decide) hstatus
  obtain ⟨⟨answers, u⟩, hans, hstore⟩ := bind_eq_ok.mp hc
  have hopens := answerRequest_opens h hans
  have hok : OpenOk H u := by
    obtain ⟨_, _, hans', hok⟩ := answerRequest_total h entry.requestId .roomDelivery
    cases hans.symm.trans hans'
    exact hok
  refine hopens.trans fun k => ?_
  cases answers with
  | true =>
    obtain ⟨-, -, hk⟩ := storeRoomReceipt_eq_ok (s := u.bindRoom entry.requestId _)
      (hok.congr rfl rfl) hcode hstore
    exact (hk k).imp_right fun hk => .inl hk.1
  | false =>
    obtain ⟨-, -, hk⟩ := storeRoomReceipt_eq_ok hok hcode hstore
    exact (hk k).imp_right fun hk => .inl hk.1

theorem closeRequest_opens (h : OpenOk H s) {closure : RequestClosure}
    (hc : closeRequest s closure = .ok t) :
    Opens s t := by
  unfold closeRequest at hc
  split_ifs at hc
  · cases hc
    exact .refl s
  · obtain ⟨slots, hclose, -⟩ := h.closeKey closure.key
    obtain ⟨u, hu, hc⟩ := bind_eq_ok.mp hc
    rw [hclose] at hu
    cases hu
    cases hc
    exact opens_closed s _ slots

theorem recordJob_opens (h : OpenOk H s) {entry : JobResultReport}
    (hc : recordJob H s entry = .ok t) : Opens s t := by
  unfold recordJob at hc
  simp only at hc
  split_ifs at hc
  obtain ⟨⟨answers, u⟩, hans, hc⟩ := bind_eq_ok.mp hc
  cases hc
  refine (answerRequest_opens h hans).trans ?_
  cases answers <;> exact .of_eq rfl

theorem processReport_opens (h : OpenOk H s) {report : EncodedReport}
    (hc : processReport H s report = .ok t) :
    Opens s t :=
  processReport_relates .refl (fun _ _ _ => .trans) (fun _ _ _ h hc => recordReceipt_opens h hc)
    (fun _ _ _ h hc => recordRoomReceipt_opens h hc) (fun _ _ _ h hc => closeRequest_opens h hc)
    (fun _ _ _ h hc => recordJob_opens h hc) h hc

theorem openKey_opens {msg : Msg} {key : Bytes32} {kind : RequestKind}
    (set : OpenRequest → OpenRequest)
    (hopen : openKey s msg key kind = .ok t)
    (hset : ∀ r : OpenRequest, r.kind = kind → (set r).Named) :
    Opens s (t.setOpenRequest key set) := by
  rw [(openKey_eq_ok set hopen).2]
  exact opens_opened s (hset _ rfl)

theorem call_opens (h : OpenOk H s) {msg : Msg} {c : Call} (hc : s.call H msg c = .ok t) :
    Opens s t := by
  cases c with
  | requestTransfer requestId kind input =>
    simp only [State.call, requestTransfer] at hc
    split_ifs at hc with _ hid
    · cases hc
      exact .refl s
    · obtain ⟨u, hopen, hc⟩ := bind_eq_ok.mp hc
      cases hc
      exact openKey_opens (fun request =>
        { request with transferKind := TransferKind.ofCode kind, requestId := requestId }) hopen
        fun r hr => ⟨fun _ => hid, fun hk => RequestKind.noConfusion (hr.symm.trans hk)⟩
  | requestReceipt transferId =>
    simp only [State.call, requestReceipt] at hc
    split_ifs at hc with _ hid
    · cases hc
      exact .refl s
    · obtain ⟨u, hopen, hc⟩ := bind_eq_ok.mp hc
      cases hc
      exact openKey_opens (fun request => { request with transferId := transferId }) hopen
        fun r hr => ⟨fun hk => RequestKind.noConfusion (hr.symm.trans hk), fun _ => hid⟩
  | requestRoomReceipt room channel publication =>
    simp only [State.call, requestRoomReceipt] at hc
    split_ifs at hc
    · cases hc
      exact .refl s
    · obtain ⟨u, hopen, hc⟩ := bind_eq_ok.mp hc
      cases hc
      exact openKey_opens (fun request =>
        { request with room := room, channel := channel, publication := publication }) hopen
        fun r hr => ⟨fun hk => RequestKind.noConfusion (hr.symm.trans hk), fun hk =>
          RequestKind.noConfusion (hr.symm.trans hk)⟩
  | cancelRequest key =>
    simp only [State.call, cancelRequest] at hc
    split_ifs at hc
    obtain ⟨slots, hclose, -⟩ := h.closeKey key
    obtain ⟨u, hu, hc⟩ := bind_eq_ok.mp hc
    rw [hclose] at hu
    cases hu
    cases hc
    exact opens_closed s _ slots
  | onReport metadata report =>
    simp only [State.call, onReport] at hc
    split at hc
    · cases hc
    · exact processReport_opens h hc
  | _ => exact .of_eq (congrArg Ledger.openRequests (setting_frame hc trivial).2)

theorem reachable_named (h : (contract H).Reachable s) (k : Bytes32) :
    (s.openRequests k).Named := by
  have hzero : OpenRequest.zero.Named := ⟨nofun, nofun⟩
  refine (h.invariant (I := fun s => OpenOk H s ∧ ∀ k, (s.openRequests k).Named) ?_ ?_).2 k
  · rintro s hinit
    obtain ⟨_, _, _, _, hc⟩ := id hinit
    refine ⟨init_openOk hinit, fun k => ?_⟩
    rw [congrArg Ledger.openRequests (deploy_eq_ok hc).2]
    exact hzero
  · rintro s i t ⟨hok, hnamed⟩ hstep
    refine ⟨(step_refines hok hstep).openOk, fun k => ?_⟩
    have heq : t = s.transact (s.call H i.1 i.2) := hstep
    cases hcall : s.call H i.1 i.2 with
    | error e =>
      rw [heq, hcall]
      exact hnamed k
    | ok u =>
      rw [heq, hcall]
      rcases call_opens hok hcall k with hk | hk | hk
      · exact hk ▸ hnamed k
      · exact hk ▸ hzero
      · exact hk

end Beam.Contract
