import BeamSdk.Contract.Guarantees
import BeamSdk.Library.Origin

/-! Where a record comes from: an entry of a report that the contract accepted, before which there
was no such record. -/

namespace Beam.Contract
variable {H : Hashes} {s t : State}

def StandardReceipt.unlinked (r : StandardReceipt) : StandardReceipt := { r with requestId := 0 }

def standardSource (report : Report) (T : Bytes16) (r : StandardReceipt) : Prop :=
  ∃ entry ∈ report.standard, entry.transferId = T ∧ r = entry.receipt 0

def roomSource (H : Hashes) (report : Report) (K : Bytes32) (r : RoomReceipt) : Prop :=
  ∃ entry ∈ report.rooms, roomReceiptKey H entry.room entry.channel entry.publication = K ∧
    r = entry.receipt

def jobSource (report : Report) (R : Bytes32) (j : JobResult) : Prop :=
  ∃ entry ∈ report.jobs, entry.requestId = R ∧ ∃ input output, j = entry.result input output

def transferSource (report : Report) (R : Bytes32) (T : Bytes16) : Prop :=
  ∃ entry ∈ report.standard, entry.requestId = R ∧ entry.transferId = T

def roomKeySource (H : Hashes) (report : Report) (R K : Bytes32) : Prop :=
  ∃ entry ∈ report.rooms, entry.requestId = R ∧
    roomReceiptKey H entry.room entry.channel entry.publication = K

def State.records (s : State) :=
  (s.receipts, s.roomReceipts, s.jobs, s.transferIdForRequest, s.roomKeyForRequest)

structure Writes (H : Hashes) (report : Report) (s t : State) : Prop where
  receipt : Became (fun r => r.status = .none) (standardSource report)
    (StandardReceipt.unlinked ∘ s.receipts) (StandardReceipt.unlinked ∘ t.receipts)
  room : Became (fun r => r.status = .none) (roomSource H report) s.roomReceipts t.roomReceipts
  job : Became (fun j => j.status = .none) (jobSource report) s.jobs t.jobs
  transferId : Became (fun T => T = 0)
    (transferSource report) s.transferIdForRequest t.transferIdForRequest
  roomKey : Became (fun K => K = 0) (roomKeySource H report) s.roomKeyForRequest t.roomKeyForRequest

variable {report : Report}

theorem Writes.of_eq (h : t.records = s.records) : Writes H report s t := by
  simp only [State.records, Prod.mk.injEq] at h
  obtain ⟨hreceipts, hrooms, hjobs, htransfers, hkeys⟩ := h
  exact ⟨hreceipts ▸ .refl _, hrooms ▸ .refl _, hjobs ▸ .refl _, htransfers ▸ .refl _,
    hkeys ▸ .refl _⟩

theorem Writes.refl (s : State) : Writes H report s s := .of_eq rfl

theorem Writes.trans {u : State} (h : Writes H report s t) (h' : Writes H report t u) :
    Writes H report s u :=
  ⟨h.receipt.trans h'.receipt, h.room.trans h'.room, h.job.trans h'.job,
    h.transferId.trans h'.transferId,
    h.roomKey.trans h'.roomKey⟩

theorem closeKey_writes (h : OpenOk H s) {key : Bytes32} (hc : closeKey s key = .ok t) :
    Writes H report s t := by
  obtain ⟨slots, hslots, -⟩ := h.closeKey key
  cases hc.symm.trans hslots
  exact .of_eq rfl

/-- Whether it answers or not, `_answerRequest` writes no record, and when it answers, none of the
request id's answers is there. -/
theorem answerRequest_writes (report : Report) (h : OpenOk H s) {requestId : Bytes32}
    {kind : TransferKind} {answers : Bool}
    (hc : answerRequest H s requestId kind = .ok (answers, t)) :
    Writes H report s t ∧ OpenOk H t ∧ (answers = true → ¬ t.isAnswered requestId) := by
  rcases answerRequest_cases h hc with ⟨rfl, rfl, -⟩ | ⟨rfl, -, hun, slots, rfl, hok⟩
  · exact ⟨.refl _, h, fun htrue => by cases htrue⟩
  · exact ⟨.of_eq rfl, hok, fun _ => hun⟩

theorem putReceipt_writes {entry : StandardReceiptReport} (hmem : entry ∈ report.standard)
    (R : Bytes32)
    (hnone : (s.receipts entry.transferId).status = .none) :
    Writes H report s (s.putReceipt entry.transferId (entry.receipt R)) := by
  refine ⟨?_, .refl _, .refl _, .refl _, .refl _⟩
  simp only [State.putReceipt, Function.comp_update]
  exact .update hnone ⟨entry, hmem, rfl, rfl⟩

theorem linkReceipt_writes (s : State) (T : Bytes16) (R : Bytes32) :
    Writes H report s (s.putReceipt T { s.receipts T with requestId := R }) := by
  refine ⟨?_, .refl _, .refl _, .refl _, .refl _⟩
  simp only [State.putReceipt, Function.comp_update]
  intro T'
  rcases Ledger.update_eq_or (StandardReceipt.unlinked ∘ s.receipts) T T'
    ({ s.receipts T with requestId := R } : StandardReceipt).unlinked with he | ⟨rfl, he⟩
  · exact .inl he
  · exact .inl he

theorem storeReceipt_writes (h : OpenOk H s) {entry : StandardReceiptReport}
    (hmem : entry ∈ report.standard)
    {answers : Bool} (hc : storeReceipt H s entry answers = .ok t) : Writes H report s t := by
  simp only [storeReceipt] at hc
  by_cases hrec : (s.receipts entry.transferId).status = .none
  · rw [if_neg (not_not.mpr hrec)] at hc
    obtain ⟨v, hclose, hc⟩ := bind_eq_ok.mp hc
    cases hc
    have hput := putReceipt_writes (H := H) hmem (if answers then entry.requestId else 0) hrec
    exact (hput.trans (closeKey_writes (h.congr rfl rfl) hclose)).trans (.of_eq rfl)
  · rw [if_pos hrec] at hc
    cases hc
    split_ifs
    · exact linkReceipt_writes s entry.transferId entry.requestId
    · exact .refl s

theorem recordReceipt_writes (h : OpenOk H s) {entry : StandardReceiptReport}
    (hmem : entry ∈ report.standard)
    (hc : recordReceipt H s entry = .ok t) : Writes H report s t := by
  simp only [recordReceipt] at hc
  split_ifs at hc with hid hstatus hlevel
  obtain ⟨⟨answers, u⟩, hans, hstore⟩ := bind_eq_ok.mp hc
  obtain ⟨hu, hok, hun⟩ := answerRequest_writes report h hans
  cases answers with
  | false => exact hu.trans (storeReceipt_writes hok hmem hstore)
  | true =>
    have hzero : u.transferIdForRequest entry.requestId = 0 := by
      by_contra hne
      exact hun rfl (.inl hne)
    have hbind : Writes H report u (u.bindTransfer entry.requestId entry.transferId) :=
      ⟨.refl _, .refl _, .refl _, .update hzero ⟨entry, hmem, rfl, rfl⟩, .refl _⟩
    exact (hu.trans hbind).trans (storeReceipt_writes (hok.congr rfl rfl) hmem hstore)

theorem storeRoomReceipt_writes (h : OpenOk H s) {entry : RoomReceiptReport}
    (hmem : entry ∈ report.rooms)
    {answers : Bool} (hc : storeRoomReceipt H s entry
      (roomReceiptKey H entry.room entry.channel entry.publication) answers = .ok t) : Writes H
        report s t := by
  simp only [storeRoomReceipt] at hc
  split_ifs at hc with hrec
  · cases hc
    exact .refl s
  all_goals
    obtain ⟨v, hclose, hc⟩ := bind_eq_ok.mp hc
    cases hc
    have hput :
        Writes H report s
          (s.putRoomReceipt (roomReceiptKey H entry.room entry.channel entry.publication)
        entry.receipt) :=
      ⟨.refl _, .update (not_not.mp hrec) ⟨entry, hmem, rfl, rfl⟩, .refl _, .refl _, .refl _⟩
    exact (hput.trans (closeKey_writes (h.congr rfl rfl) hclose)).trans (.of_eq rfl)

theorem recordRoomReceipt_writes (h : OpenOk H s) {entry : RoomReceiptReport}
    (hmem : entry ∈ report.rooms)
    (hc : recordRoomReceipt H s entry = .ok t) : Writes H report s t := by
  simp only [recordRoomReceipt] at hc
  split_ifs at hc with hstatus hlevel hevidence
  obtain ⟨⟨answers, u⟩, hans, hstore⟩ := bind_eq_ok.mp hc
  obtain ⟨hu, hok, hun⟩ := answerRequest_writes report h hans
  cases answers with
  | false => exact hu.trans (storeRoomReceipt_writes hok hmem hstore)
  | true =>
    have hzero : u.roomKeyForRequest entry.requestId = 0 := by
      by_contra hne
      exact hun rfl (.inr (.inl hne))
    have hbind : Writes H report u
        (u.bindRoom entry.requestId
          (roomReceiptKey H entry.room entry.channel entry.publication)) :=
      ⟨.refl _, .refl _, .refl _, .refl _, .update hzero ⟨entry, hmem, rfl, rfl⟩⟩
    exact (hu.trans hbind).trans (storeRoomReceipt_writes (hok.congr rfl rfl) hmem hstore)

theorem recordJob_writes (h : OpenOk H s) {entry : JobResultReport} (hmem : entry ∈ report.jobs)
    (hc : recordJob H s entry = .ok t) : Writes H report s t := by
  simp only [recordJob] at hc
  split_ifs at hc with hbad hinput houtput
  obtain ⟨⟨answers, u⟩, hans, hstore⟩ := bind_eq_ok.mp hc
  obtain ⟨hu, -, hun⟩ := answerRequest_writes report h hans
  cases hstore
  cases answers with
  | false => exact hu
  | true =>
    have hnone : (u.jobs entry.requestId).status = .none := by
      by_contra hne
      exact hun rfl (.inr (.inr hne))
    have hput :
        Writes H report u
          (u.putJob entry.requestId (entry.result (s.roomReceipts entry.inputRoomKey)
        (s.roomReceipts entry.outputRoomKey))) :=
      ⟨.refl _, .refl _, .update hnone ⟨entry, hmem, rfl, _, _, rfl⟩, .refl _, .refl _⟩
    exact hu.trans hput

theorem closeRequest_writes (h : OpenOk H s) {closure : RequestClosure}
    (hc : closeRequest s closure = .ok t) :
    Writes H report s t := by
  simp only [closeRequest] at hc
  split_ifs at hc
  · cases hc
    exact .refl s
  · obtain ⟨u, hclose, hc⟩ := bind_eq_ok.mp hc
    cases hc
    exact (closeKey_writes h hclose).trans (.of_eq rfl)

theorem foldlM_writes {α : Type} (report : Report) {f : State → α → Except Revert State}
    {xs : List α}
    (hrefines : ∀ s x t, OpenOk H s → f s x = .ok t → Refines H s t)
    (hf : ∀ s, ∀ x ∈ xs, ∀ t, OpenOk H s → f s x = .ok t → Writes H report s t) (h : OpenOk H s)
    (hc : xs.foldlM f s = .ok t) : OpenOk H t ∧ Writes H report s t := by
  refine foldlM_invariant (P := fun u => OpenOk H u ∧ Writes H report s u)
    (fun u hu x hx v hv => ?_) hc ⟨h, .refl s⟩
  exact ⟨(hrefines u x v hu.1 hv).openOk, hu.2.trans (hf u x hx v hu.1 hv)⟩

theorem processEntries_writes (h : OpenOk H s) (hc : processEntries H s report = .ok t) :
    Writes H report s t := by
  simp only [processEntries] at hc
  obtain ⟨s₁, h₁, hc⟩ := bind_eq_ok.mp hc
  obtain ⟨s₂, h₂, hc⟩ := bind_eq_ok.mp hc
  obtain ⟨s₃, h₃, h₄⟩ := bind_eq_ok.mp hc
  obtain ⟨hok₁, w₁⟩ := foldlM_writes report (fun _ _ _ h hc => recordReceipt_refines h hc)
    (fun _ _ hx _ h hc => recordReceipt_writes h hx hc) h h₁
  obtain ⟨hok₂, w₂⟩ := foldlM_writes report (fun _ _ _ h hc => recordRoomReceipt_refines h hc)
    (fun _ _ hx _ h hc => recordRoomReceipt_writes h hx hc) hok₁ h₂
  obtain ⟨hok₃, w₃⟩ := foldlM_writes report (fun _ _ _ h hc => closeRequest_refines h hc)
    (fun _ _ _ _ h hc => closeRequest_writes h hc) hok₂ h₃
  obtain ⟨-, w₄⟩ := foldlM_writes report (fun _ _ _ h hc => recordJob_refines h hc)
    (fun _ _ hx _ h hc => recordJob_writes h hx hc) hok₃ h₄
  exact ((w₁.trans w₂).trans w₃).trans w₄

theorem call_records (h : OpenOk H s) {msg : Msg} {c : Call} (hc : s.call H msg c = .ok t)
    (hreport : ∀ metadata report, c ≠ .onReport metadata report) : t.records = s.records := by
  have hopen : ∀ {key kind set e u}, openKey s msg key kind = .ok u →
      State.records ((u.setOpenRequest key set).emit e) = s.records := by
    intro key kind set e u hu
    rw [(openKey_eq_ok set hu).2]
    rfl
  cases c with
  | requestTransfer requestId kind input =>
    simp only [State.call, requestTransfer] at hc
    split_ifs at hc
    · cases hc
      rfl
    · obtain ⟨u, hu, hc⟩ := bind_eq_ok.mp hc
      cases hc
      exact hopen hu
  | requestReceipt transferId =>
    simp only [State.call, requestReceipt] at hc
    split_ifs at hc
    · cases hc
      rfl
    · obtain ⟨u, hu, hc⟩ := bind_eq_ok.mp hc
      cases hc
      exact hopen hu
  | requestRoomReceipt room channel publication =>
    simp only [State.call, requestRoomReceipt] at hc
    split_ifs at hc
    · cases hc
      rfl
    · obtain ⟨u, hu, hc⟩ := bind_eq_ok.mp hc
      cases hc
      exact hopen hu
  | cancelRequest key =>
    simp only [State.call, cancelRequest] at hc
    split_ifs at hc
    obtain ⟨u, hclose, hc⟩ := bind_eq_ok.mp hc
    obtain ⟨slots, hslots, -⟩ := h.closeKey key
    cases hclose.symm.trans hslots
    cases hc
    rfl
  | onReport metadata report => exact absurd rfl (hreport metadata report)
  | _ =>
    obtain ⟨-, hledger⟩ := setting_frame hc trivial
    simp only [State.records, hledger]

/-- What `onReport` demands of its caller and of the report's metadata. -/
structure Authorised (s : State) (msg : Msg) (metadata : Bytes) : Prop where
  sender : s.forwarderAddress ≠ 0 → msg.sender = s.forwarderAddress
  workflowId : s.expectedWorkflowId ≠ 0 →
    (decodeMetadata metadata).workflowId = s.expectedWorkflowId
  author : s.expectedAuthor ≠ 0 → (decodeMetadata metadata).workflowOwner = s.expectedAuthor
  workflowName : s.expectedWorkflowName ≠ 0 →
    s.expectedAuthor ≠ 0 ∧ (decodeMetadata metadata).workflowName = s.expectedWorkflowName

theorem checkReport_authorised {msg : Msg} {metadata : Bytes}
    (h : checkReport s msg metadata = none) :
    Authorised s msg metadata := by
  simp only [checkReport] at h
  split_ifs at h with hsender hall hid hauthor hname hnoAuthor hmatch
  · obtain ⟨hid, hauthor, hname⟩ := hall
    refine ⟨fun hne => ?_, fun hne => absurd hid hne, fun hne => absurd hauthor hne, fun hne =>
      absurd hname hne⟩
    exact not_not.mp fun hdiff => hsender ⟨hne, hdiff⟩
  · refine ⟨fun hne => ?_, fun hne => ?_, fun hne => ?_, fun hne => absurd hname hne⟩
    · exact not_not.mp fun hdiff => hsender ⟨hne, hdiff⟩
    · exact not_not.mp fun hdiff => hid ⟨hne, hdiff⟩
    · exact not_not.mp fun hdiff => hauthor ⟨hne, hdiff⟩
  · refine ⟨fun hne => ?_, fun hne => ?_, fun hne => ?_, fun _ => ⟨hnoAuthor, not_not.mp hmatch⟩⟩
    · exact not_not.mp fun hdiff => hsender ⟨hne, hdiff⟩
    · exact not_not.mp fun hdiff => hid ⟨hne, hdiff⟩
    · exact not_not.mp fun hdiff => hauthor ⟨hne, hdiff⟩

/-- The call is a report with these entries that the contract lets through and that succeeds. -/
def Accepted (H : Hashes) (s : State) (i : Msg × Call) (report : Report) : Prop :=
  ∃ metadata, i.2 = .onReport metadata ⟨some REPORT_VERSION, some report⟩ ∧
    Authorised s i.1 metadata ∧
    ∃ t, s.call H i.1 i.2 = .ok t

theorem onReport_eq_ok {msg : Msg} {metadata : Bytes} {encoded : EncodedReport}
    (hc : onReport H s msg metadata encoded = .ok t) : ∃ report,
      encoded = ⟨some REPORT_VERSION, some report⟩ ∧
      checkReport s msg metadata = none ∧ processEntries H s report = .ok t := by
  unfold onReport at hc
  split at hc
  · cases hc
  · rename_i hcheck
    obtain ⟨_ | version, _ | body⟩ := encoded <;> simp only [processReport] at hc
    · cases hc
    · cases hc
    · split_ifs at hc
    · split_ifs at hc with hversion
      exact ⟨body, by rw [not_not.mp hversion], hcheck, hc⟩

theorem step_writes (h : OpenOk H s) {i : Msg × Call} (hstep : (contract H).step s i t) :
    t.records = s.records ∨ ∃ report, Accepted H s i report ∧ Writes H report s t := by
  have heq : t = s.transact (s.call H i.1 i.2) := hstep
  cases hcall : s.call H i.1 i.2 with
  | error e =>
    rw [heq, hcall]
    exact .inl rfl
  | ok u =>
    rw [heq, hcall]
    by_cases hreport : ∀ metadata report, i.2 ≠ .onReport metadata report
    · exact .inl (call_records h hcall hreport)
    · push Not at hreport
      obtain ⟨metadata, encoded, hcallee⟩ := hreport
      have honReport : onReport H s i.1 metadata encoded = .ok u := by
        rw [hcallee] at hcall
        exact hcall
      obtain ⟨report, rfl, hcheck, hentries⟩ := onReport_eq_ok honReport
      exact .inr ⟨report, ⟨metadata, hcallee, checkReport_authorised hcheck, u, hcall⟩,
        processEntries_writes h hentries⟩

theorem Became.of_contract {α β : Type} {absent : β → Prop} {source : Report → α → β → Prop}
    (view : State → α → β)
    (hframe : ∀ s t, t.records = s.records → view t = view s)
    (hwrites : ∀ report s t, Writes H report s t → Became absent (source report) (view s) (view t))
    (h : (contract H).init s) (calls : List (Msg × Call)) (hblank : ∀ a, absent (view s a)) (a : α)
    (ha : ¬ absent (view (s.run H calls) a)) :
    ∃ before i after report, calls = before ++ i :: after ∧ absent (view (s.run H before) a) ∧
      Accepted H (s.run H before) i report ∧ source report a (view (s.run H calls) a) := by
  have hwrote : ∀ u i v, OpenOk H u → (contract H).step u i v →
      Became absent (fun a b => ∃ report, Accepted H u i report ∧ source report a b) (view u)
        (view v) := by
    intro u i v hu hstep
    rcases step_writes hu hstep with he | ⟨report, haccepted, hw⟩
    · exact hframe u v he ▸ .refl _
    · exact (hwrites report u v hw).mono fun a b hsource => ⟨report, haccepted, hsource⟩
  have hr : (contract H).Runs s calls (s.run H calls) := (runs_iff H).mpr rfl
  have hbecame :=
    Became.of_runs view _ (fun _ _ _ hu hstep => (step_refines hu hstep).openOk) hwrote hr
      (init_openOk h)
  rcases hbecame a with he |
    ⟨-, before, i, after, u, hcalls, hu, habsent, report, haccepted, hsource⟩
  · exact absurd (hblank a) (he ▸ ha)
  · obtain rfl := (runs_iff H).mp hu
    exact ⟨before, i, after, report, hcalls, habsent, haccepted, hsource⟩

theorem Ledger.JobAgrees.eq_result {l : Ledger} {j : JobResult} (h : l.JobAgrees j)
    {entry : JobResultReport}
    {input output : RoomReceipt} (hj : j = entry.result input output) :
    j = entry.result (l.roomReceipts entry.inputRoomKey) (l.roomReceipts entry.outputRoomKey) := by
  obtain ⟨-, -, -, hinput, houtput, hstatus, hlevel⟩ := h
  subst hj
  simp only [JobResultReport.result] at hinput houtput hstatus hlevel ⊢
  rw [hinput, houtput, hstatus, hlevel]
  rfl

/-- A report accepted on the way, in a state and with entries that `P` holds of. -/
def Reported (H : Hashes) (s : State) (calls : List (Msg × Call))
    (P : State → Report → Prop) : Prop :=
  ∃ before i after report, calls = before ++ i :: after ∧ Accepted H (s.run H before) i report ∧
    P (s.run H before) report

theorem init_blank (h : (contract H).init s) : ∃ don, s.toLedger = Ledger.blank don := by
  obtain ⟨_, _, _, don, hd⟩ := h
  exact ⟨don, (deploy_eq_ok hd).2⟩

section Records
variable (h : (contract H).init s) (calls : List (Msg × Call))
include h

theorem receipt_reported (T : Bytes16) (hT : ((s.run H calls).receipts T).status ≠ .none) :
    Reported H s calls fun u report => (u.receipts T).status = .none ∧
      ∃ entry ∈ report.standard, entry.transferId = T ∧
        ((s.run H calls).receipts T).unlinked = entry.receipt 0 := by
  obtain ⟨don, hblank⟩ := init_blank h
  obtain ⟨before, i, after, report, hcalls, hnone, haccepted, hsource⟩ :=
    Became.of_contract (fun s => StandardReceipt.unlinked ∘ s.receipts)
      (fun u v he => congrArg (StandardReceipt.unlinked ∘ ·.1) he)
        (fun _ _ _ hw => hw.receipt) h calls
      (fun _ => by rw [hblank]; rfl) T hT
  exact ⟨before, i, after, report, hcalls, haccepted, hnone, hsource⟩

theorem roomReceipt_reported (K : Bytes32) (hK : ((s.run H calls).roomReceipts K).status ≠ .none) :
    Reported H s calls fun u report => (u.roomReceipts K).status = .none ∧ ∃ entry ∈ report.rooms,
      roomReceiptKey H entry.room entry.channel entry.publication = K ∧
        (s.run H calls).roomReceipts K = entry.receipt := by
  obtain ⟨don, hblank⟩ := init_blank h
  obtain ⟨before, i, after, report, hcalls, hnone, haccepted, hsource⟩ :=
    Became.of_contract (fun s => s.roomReceipts) (fun u v he => congrArg (·.2.1) he)
      (fun _ _ _ hw => hw.room) h calls (fun _ => by rw [hblank]; rfl) K hK
  exact ⟨before, i, after, report, hcalls, haccepted, hnone, hsource⟩

theorem job_reported (R : Bytes32) (hR : ((s.run H calls).jobs R).status ≠ .none) :
    Reported H s calls fun u report => (u.jobs R).status = .none ∧
      ∃ entry ∈ report.jobs, entry.requestId = R ∧
      (s.run H calls).jobs R = entry.result ((s.run H calls).roomReceipts entry.inputRoomKey)
        ((s.run H calls).roomReceipts entry.outputRoomKey) := by
  obtain ⟨don, hblank⟩ := init_blank h
  obtain ⟨before, i, after, report, hcalls, hnone, haccepted, entry, hmem, hid, input,
    output, hresult⟩ :=
    Became.of_contract (fun s => s.jobs) (fun u v he => congrArg (·.2.2.1) he)
      (fun _ _ _ hw => hw.job) h calls (fun _ => by rw [hblank]; rfl) R hR
  have hagrees := (reachable_sound ⟨s, h, later_run H s calls⟩).linked.job R hR
  exact ⟨before, i, after, report, hcalls, haccepted, hnone, entry, hmem, hid,
    hagrees.eq_result hresult⟩

theorem transferId_reported (R : Bytes32) (hR : (s.run H calls).transferIdForRequest R ≠ 0) :
    Reported H s calls fun u report => u.transferIdForRequest R = 0 ∧ ∃ entry ∈ report.standard,
      entry.requestId = R ∧ entry.transferId = (s.run H calls).transferIdForRequest R := by
  obtain ⟨don, hblank⟩ := init_blank h
  obtain ⟨before, i, after, report, hcalls, hnone, haccepted, hsource⟩ :=
    Became.of_contract (fun s => s.transferIdForRequest) (fun u v he => congrArg (·.2.2.2.1) he)
      (fun _ _ _ hw => hw.transferId) h calls (fun _ => by rw [hblank]; rfl) R hR
  exact ⟨before, i, after, report, hcalls, haccepted, hnone, hsource⟩

theorem roomKey_reported (R : Bytes32) (hR : (s.run H calls).roomKeyForRequest R ≠ 0) :
    Reported H s calls fun u report => u.roomKeyForRequest R = 0 ∧
      ∃ entry ∈ report.rooms, entry.requestId = R ∧
      roomReceiptKey H entry.room entry.channel entry.publication =
        (s.run H calls).roomKeyForRequest R := by
  obtain ⟨don, hblank⟩ := init_blank h
  obtain ⟨before, i, after, report, hcalls, hnone, haccepted, hsource⟩ :=
    Became.of_contract (fun s => s.roomKeyForRequest) (fun u v he => congrArg (·.2.2.2.2) he)
      (fun _ _ _ hw => hw.roomKey) h calls (fun _ => by rw [hblank]; rfl) R hR
  exact ⟨before, i, after, report, hcalls, haccepted, hnone, hsource⟩

end Records

/-- Nothing is stored that no report said: whoever calls whatever, each record and each binding
comes from an entry with the same values, in a report that the forwarder of that moment delivered
for the workflow expected then, and there was no such record before it. -/
theorem run_provenance (h : (contract H).init s) (calls : List (Msg × Call)) :
    (∀ T, ((s.run H calls).receipts T).status ≠ .none → Reported H s calls fun u report =>
      (u.receipts T).status = .none ∧ ∃ entry ∈ report.standard, entry.transferId = T ∧
        ((s.run H calls).receipts T).unlinked = entry.receipt 0) ∧
    (∀ K, ((s.run H calls).roomReceipts K).status ≠ .none → Reported H s calls fun u report =>
      (u.roomReceipts K).status = .none ∧ ∃ entry ∈ report.rooms,
        roomReceiptKey H entry.room entry.channel entry.publication = K ∧
          (s.run H calls).roomReceipts K = entry.receipt) ∧
    (∀ R, ((s.run H calls).jobs R).status ≠ .none → Reported H s calls fun u report =>
      (u.jobs R).status = .none ∧ ∃ entry ∈ report.jobs, entry.requestId = R ∧
        (s.run H calls).jobs R = entry.result ((s.run H calls).roomReceipts entry.inputRoomKey)
          ((s.run H calls).roomReceipts entry.outputRoomKey)) ∧
    (∀ R, (s.run H calls).transferIdForRequest R ≠ 0 → Reported H s calls fun u report =>
      u.transferIdForRequest R = 0 ∧ ∃ entry ∈ report.standard, entry.requestId = R ∧
        entry.transferId = (s.run H calls).transferIdForRequest R) ∧
    ∀ R, (s.run H calls).roomKeyForRequest R ≠ 0 → Reported H s calls fun u report =>
      u.roomKeyForRequest R = 0 ∧ ∃ entry ∈ report.rooms, entry.requestId = R ∧
        roomReceiptKey H entry.room entry.channel entry.publication =
          (s.run H calls).roomKeyForRequest R :=
  ⟨receipt_reported h calls, roomReceipt_reported h calls, job_reported h calls,
    transferId_reported h calls,
    roomKey_reported h calls⟩

theorem sample_provenance :
    Reported sampleHashes sampleDeployed
      (sampleRequests ++ [(⟨9, 104⟩, .onReport [] ⟨some 2, some sampleReport⟩)]) fun u report =>
        u.transferIdForRequest 7 = 0 ∧ ∃ entry ∈ report.standard, entry.requestId = 7 ∧
          entry.transferId =
          (sampleDeployed.run sampleHashes
            (sampleRequests ++
              [(⟨9, 104⟩, .onReport [] ⟨some 2, some sampleReport⟩)])).transferIdForRequest 7 :=
  (run_provenance ⟨_, _, _, _, sampleDeployed_init⟩ _).2.2.2.1 7 (by decide +kernel)

end Beam.Contract
