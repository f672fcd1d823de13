import BeamSdk.Contract.Calls
import BeamSdk.Contract.Ledger

/-! Every call keeps the open-request set well formed and moves the ledger by actions that were
allowed when they happened, so what holds of the ledger holds of the contract. -/

namespace Beam.Contract
variable {H : Hashes} {s t : State}

theorem OpenOk.congr (h : OpenOk H s) (hslots : t.openSlots = s.openSlots)
    (hrequests : t.openRequests = s.openRequests) : OpenOk H t where
  slots := hslots ▸ h.slots
  bounded := by
    simp only [State.openKeys, hslots]
    exact h.bounded
  unlisted := by
    simp only [State.openKeys, hslots, hrequests]
    exact h.unlisted
  listed := by
    simp only [State.openKeys, hslots, hrequests]
    exact h.listed

/-- What one step of the contract has to do: keep the open set, and act as the ledger may. -/
structure Refines (H : Hashes) (s t : State) : Prop where
  openOk : OpenOk H t
  later : (ledger H).Later s.toLedger t.toLedger

theorem Refines.refl (h : OpenOk H s) : Refines H s s := ⟨h, .refl _⟩

theorem Refines.trans {u : State} (h : Refines H s t) (h' : Refines H t u) : Refines H s u :=
  ⟨h'.openOk, h.later.trans h'.later⟩

theorem Refines.emit (h : Refines H s t) (e : Event) : Refines H s (t.emit e) :=
  ⟨h.openOk.emit e, h.later⟩

theorem Refines.of_eq (h : OpenOk H s) (hslots : t.openSlots = s.openSlots)
    (hledger : t.toLedger = s.toLedger) : Refines H s t :=
  ⟨h.congr hslots (by rw [hledger]), hledger ▸ .refl _⟩

theorem closeKey_refines (h : OpenOk H s) {key : Bytes32} (hc : closeKey s key = .ok t) :
    Refines H s t := by
  obtain ⟨slots, hclose, hok⟩ := h.closeKey key
  rw [hclose] at hc
  cases hc
  exact ⟨hok, ledger_close _ key⟩

theorem openKey_refines (h : OpenOk H s) {msg : Msg} {kind : RequestKind} {d : Demand}
    {set : OpenRequest → OpenRequest} {u : State} (hpos : s.openPosition (d.key H) = 0)
    (hunmet : ¬ s.Met d) (hopen : openKey s msg (d.key H) kind = .ok u)
    (hset : ∀ r : OpenRequest, r.key = d.key H → r.kind = kind →
      (set r).key = d.key H ∧ (set r).demand H = some d) :
    Refines H s (u.setOpenRequest (d.key H) set) := by
  obtain ⟨hlt, heq⟩ := openKey_eq_ok set hopen
  obtain ⟨hk, hd⟩ := hset { s.openRequests (d.key H) with
    key := d.key H, kind := kind, requester := msg.sender, openedAt :=
      UInt64.ofNat msg.timestamp } rfl rfl
  have hmem : d.key H ∉ s.openKeys := (h.position_eq_zero _).mp hpos
  rw [heq]
  exact ⟨h.opened hmem hlt hk hd rfl, ledger_act (a := .opened _ _) ⟨d, hd, hunmet⟩⟩

theorem requestTransfer_refines (h : OpenOk H s) {msg : Msg} {requestId : Bytes32} {kind : UInt8}
    {input : Bytes} (hc : requestTransfer H s msg requestId kind input = .ok t) :
      Refines H s t := by
  simp only [requestTransfer] at hc
  split_ifs at hc with _ _ _ _ hdone
  · cases hc
    exact .refl h
  · obtain ⟨u, hopen, hc⟩ := bind_eq_ok.mp hc
    cases hc
    obtain ⟨hpos, hunmet⟩ := not_or.mp hdone
    refine (openKey_refines (d := .transfer requestId) h (not_not.mp hpos) hunmet hopen ?_).emit _
    intro r hkey hkind
    exact ⟨hkey, by simp only [OpenRequest.demand, hkind]⟩

theorem requestReceipt_refines (h : OpenOk H s) {msg : Msg} {transferId : Bytes16}
    (hc : requestReceipt H s msg transferId = .ok t) : Refines H s t := by
  simp only [requestReceipt] at hc
  split_ifs at hc with _ _ hdone
  · cases hc
    exact .refl h
  · obtain ⟨u, hopen, hc⟩ := bind_eq_ok.mp hc
    cases hc
    obtain ⟨hpos, hunmet⟩ := not_or.mp hdone
    refine (openKey_refines (d := .receipt transferId) h (not_not.mp hpos) hunmet hopen ?_).emit _
    intro r hkey hkind
    exact ⟨hkey, by simp only [OpenRequest.demand, hkind]⟩

theorem requestRoomReceipt_refines (h : OpenOk H s) {msg : Msg} {room channel publication : Bytes}
    (hc : requestRoomReceipt H s msg room channel publication = .ok t) : Refines H s t := by
  simp only [requestRoomReceipt] at hc
  split_ifs at hc with _ _ hdone
  · cases hc
    exact .refl h
  · obtain ⟨u, hopen, hc⟩ := bind_eq_ok.mp hc
    cases hc
    obtain ⟨hpos, hunmet⟩ := not_or.mp hdone
    refine (openKey_refines (d := .room (roomReceiptKey H room channel publication)) h
      (not_not.mp hpos) hunmet hopen ?_).emit _
    intro r hkey hkind
    exact ⟨hkey, by simp only [OpenRequest.demand, hkind]⟩

theorem cancelRequest_refines (h : OpenOk H s) {msg : Msg} {key : Bytes32}
    (hc : cancelRequest s msg key = .ok t) : Refines H s t := by
  simp only [cancelRequest] at hc
  split_ifs at hc
  obtain ⟨u, hclose, hc⟩ := bind_eq_ok.mp hc
  cases hc
  exact (closeKey_refines h hclose).emit _

theorem closeRequest_refines (h : OpenOk H s) {closure : RequestClosure}
    (hc : closeRequest s closure = .ok t) : Refines H s t := by
  simp only [closeRequest] at hc
  split_ifs at hc
  · cases hc
    exact .refl h
  · obtain ⟨u, hclose, hc⟩ := bind_eq_ok.mp hc
    cases hc
    exact (closeKey_refines h hclose).emit _

theorem Status.ofCode_ne_none {code : UInt8} (h0 : code ≠ Status.none.code)
    (h4 : code ≤ Status.partially.code) : Status.ofCode code ≠ .none := by
  have h0' : code.toNat ≠ 0 := fun h => h0 (UInt8.toNat_inj.mp h)
  have h4' : code.toNat ≤ 4 := UInt8.le_iff_toNat_le.mp h4
  unfold Status.ofCode
  split_ifs with h1 h2 h3 h4
  case neg =>
    have h1' : code.toNat ≠ 1 := fun h => h1 (UInt8.toNat_inj.mp h)
    have h2' : code.toNat ≠ 2 := fun h => h2 (UInt8.toNat_inj.mp h)
    have h3' : code.toNat ≠ 3 := fun h => h3 (UInt8.toNat_inj.mp h)
    have h4'' : code.toNat ≠ 4 := fun h => h4 (UInt8.toNat_inj.mp h)
    omega
  all_goals decide

theorem Status.ofCode_valid {code max : UInt8} (hmax : max ≤ Status.partially.code)
    (h : ¬ (code = Status.none.code ∨ code > max)) : Status.ofCode code ≠ .none := by
  obtain ⟨h0, hle⟩ := not_or.mp h
  exact Status.ofCode_ne_none h0 (UInt8.le_trans (UInt8.not_lt.mp hle) hmax)

theorem ledger_record (h : OpenOk H s) {transferId : Bytes16} {receipt : StandardReceipt}
    (hunmet : ¬ s.Met (.receipt transferId)) (hstatus : receipt.status ≠ .none)
    (hzero : receipt.requestId = 0) (hlevel : receipt.level = s.standardReceiptLevel) :
    (ledger H).Later s.toLedger ((s.toLedger.apply (.closed (receiptRequestKey H transferId))).apply
      (.recorded transferId receipt)) := by
  have hallowed : (s.toLedger.apply (.closed (receiptRequestKey H transferId))).Allowed H
      (.recorded transferId receipt) :=
    ⟨hunmet, h.not_open_closed (.receipt transferId), hstatus, hzero, hlevel⟩
  exact (ledger_close _ _).trans (ledger_act hallowed)

theorem ledger_link {l : Ledger} {requestId : Bytes32} {transferId : Bytes16} (hid : transferId ≠ 0)
    (hne : requestId ≠ 0) (hun : ¬ l.isAnswered requestId)
    (hopen : ¬ l.Open H (.transfer requestId))
    (hmet : l.Met (.receipt transferId)) (hzero : (l.receipts transferId).requestId = 0) :
    (ledger H).Later l
      ((l.apply (.bound requestId transferId)).apply (.linked transferId requestId)) := by
  have hbound : l.Allowed H (.bound requestId transferId) := ⟨hid, hun, hopen, hmet⟩
  refine (ledger_act hbound).trans (ledger_act ?_)
  exact ⟨hid, hzero, hne, by simp only [Ledger.apply, Function.update_self]⟩

theorem storeReceipt_false_refines (h : OpenOk H s) {entry : StandardReceiptReport}
    (hcode : Status.ofCode entry.status ≠ .none) (hlevel : entry.level = s.standardReceiptLevel)
    (hc : storeReceipt H s entry false = .ok t) : Refines H s t := by
  simp only [storeReceipt, Bool.false_eq_true, if_false, false_and] at hc
  split_ifs at hc with hrec
  · cases hc
    exact .refl h
  · obtain ⟨v, hclose, hemit⟩ := bind_eq_ok.mp hc
    obtain ⟨slots, hslots, hok⟩ := (h.congr (t := s.putReceipt _ _) rfl rfl).closeKey _
    rw [hslots] at hclose
    cases hclose
    cases hemit
    exact Refines.emit ⟨hok, ledger_record h hrec hcode rfl hlevel⟩ _

theorem storeReceipt_true_refines (h : OpenOk H s) {entry : StandardReceiptReport}
    (hid : entry.transferId ≠ 0) (hcode : Status.ofCode entry.status ≠ .none)
    (hlevel : entry.level = s.standardReceiptLevel)
    (hne : entry.requestId ≠ 0) (hun : ¬ s.isAnswered entry.requestId)
    (hopen : ¬ s.Open H (.transfer entry.requestId))
    (hc : storeReceipt H (s.bindTransfer entry.requestId entry.transferId) entry true = .ok t) :
    Refines H s t := by
  simp only [storeReceipt, if_true, true_and] at hc
  split_ifs at hc with hrec hzero
  · cases hc
    exact ⟨h.congr rfl rfl, ledger_link hid hne hun hopen hrec hzero⟩
  · cases hc
    exact ⟨h.congr rfl rfl, ledger_act (a := .bound _ _) ⟨hid, hun, hopen, hrec⟩⟩
  · obtain ⟨v, hclose, hemit⟩ := bind_eq_ok.mp hc
    have hput :
        OpenOk H ((s.bindTransfer entry.requestId entry.transferId).putReceipt entry.transferId
        (entry.receipt entry.requestId)) := h.congr rfl rfl
    obtain ⟨slots, hslots, hok⟩ := hput.closeKey (receiptRequestKey H entry.transferId)
    rw [hslots] at hclose
    cases hclose
    cases hemit
    refine Refines.emit ⟨hok, ?_⟩ _
    have hrecord : (ledger H).Later s.toLedger
        ((s.toLedger.apply (.closed (receiptRequestKey H entry.transferId))).apply
          (.recorded entry.transferId (entry.receipt 0))) := ledger_record h hrec hcode rfl hlevel
    have hmet : ((s.toLedger.apply (.closed (receiptRequestKey H entry.transferId))).apply
        (.recorded entry.transferId (entry.receipt 0))).Met (.receipt entry.transferId) := by
      simp only [Ledger.Met, Ledger.apply, Function.update_self]
      exact hcode
    have hlink := hrecord.trans (ledger_link hid hne hun (fun ho => hopen (.of_closed ho)) hmet
      (by simp only [Ledger.apply, Function.update_self, StandardReceiptReport.receipt]))
    simp only [Ledger.apply, Function.update_self, Function.update_idem] at hlink
    exact hlink

theorem recordReceipt_refines (h : OpenOk H s) {entry : StandardReceiptReport}
    (hc : recordReceipt H s entry = .ok t) : Refines H s t := by
  simp only [recordReceipt] at hc
  split_ifs at hc with hid hstatus hlevel
  have hcode := Status.ofCode_valid (by decide) hstatus
  obtain ⟨⟨answers, u⟩, hans, hstore⟩ := bind_eq_ok.mp hc
  rcases answerRequest_cases h hans with ⟨rfl, rfl, -⟩ | ⟨rfl, hne, hun, slots, rfl, hok⟩
  · exact storeReceipt_false_refines h hcode (not_not.mp hlevel) hstore
  · have hclosed : Refines H s (s.closed (transferRequestKey H entry.requestId) slots) :=
      ⟨hok, ledger_close _ _⟩
    exact hclosed.trans (storeReceipt_true_refines hok hid hcode (not_not.mp hlevel) hne hun
      (h.not_open_closed (.transfer entry.requestId)) hstore)

theorem ledger_recordRoom (h : OpenOk H s) {roomKey : Bytes32} {receipt : RoomReceipt}
    (hunmet : ¬ s.Met (.room roomKey)) (hstatus : receipt.status ≠ .none)
    (hlevel : s.RoomLevelOk receipt) :
    (ledger H).Later s.toLedger ((s.toLedger.apply (.closed (roomRequestKey H roomKey))).apply
      (.roomRecorded roomKey receipt)) := by
  have hallowed : (s.toLedger.apply (.closed (roomRequestKey H roomKey))).Allowed H
      (.roomRecorded roomKey receipt) :=
    ⟨hunmet, h.not_open_closed (.room roomKey), hstatus,
      ⟨hlevel.level, hlevel.evidenceVersion, hlevel.evidenceSha256⟩⟩
  exact (ledger_close _ _).trans (ledger_act hallowed)

theorem storeRoomReceipt_false_refines (h : OpenOk H s) {entry : RoomReceiptReport}
    {roomKey : Bytes32}
    (hcode : Status.ofCode entry.status ≠ .none) (hlevel : s.RoomLevelOk entry.receipt)
    (hc : storeRoomReceipt H s entry roomKey false = .ok t) : Refines H s t := by
  simp only [storeRoomReceipt, Bool.false_eq_true, if_false] at hc
  split_ifs at hc with hrec
  · cases hc
    exact .refl h
  · obtain ⟨v, hclose, hemit⟩ := bind_eq_ok.mp hc
    obtain ⟨slots, hslots, hok⟩ := (h.congr (t := s.putRoomReceipt _ _) rfl rfl).closeKey _
    rw [hslots] at hclose
    cases hclose
    cases hemit
    exact Refines.emit ⟨hok, ledger_recordRoom h hrec hcode hlevel⟩ _

theorem storeRoomReceipt_true_refines (h : OpenOk H s) {entry : RoomReceiptReport}
    {roomKey : Bytes32}
    (hcode : Status.ofCode entry.status ≠ .none) (hlevel : s.RoomLevelOk entry.receipt)
    (hun : ¬ s.isAnswered entry.requestId) (hopen : ¬ s.Open H (.transfer entry.requestId))
    (hc : storeRoomReceipt H (s.bindRoom entry.requestId roomKey) entry roomKey true = .ok t) :
    Refines H s t := by
  simp only [storeRoomReceipt, if_true] at hc
  split_ifs at hc with hrec
  · cases hc
    exact ⟨h.congr rfl rfl, ledger_act (a := .roomBound _ _) ⟨hun, hopen, hrec⟩⟩
  · obtain ⟨v, hclose, hemit⟩ := bind_eq_ok.mp hc
    have hput :
        OpenOk H ((s.bindRoom entry.requestId roomKey).putRoomReceipt roomKey entry.receipt) :=
      h.congr rfl rfl
    obtain ⟨slots, hslots, hok⟩ := hput.closeKey (roomRequestKey H roomKey)
    rw [hslots] at hclose
    cases hclose
    cases hemit
    refine Refines.emit ⟨hok, ?_⟩ _
    have hmet : ((s.toLedger.apply (.closed (roomRequestKey H roomKey))).apply
        (.roomRecorded roomKey entry.receipt)).Met (.room roomKey) := by
      simp only [Ledger.Met, Ledger.apply, Function.update_self]
      exact hcode
    exact (ledger_recordRoom h hrec hcode hlevel).trans
      (ledger_act (a := .roomBound _ _) ⟨hun, fun ho => hopen (.of_closed ho), hmet⟩)

theorem recordRoomReceipt_refines (h : OpenOk H s) {entry : RoomReceiptReport}
    (hc : recordRoomReceipt H s entry = .ok t) : Refines H s t := by
  simp only [recordRoomReceipt] at hc
  split_ifs at hc with hstatus hbad hevidence
  have hcode := Status.ofCode_valid (by decide) hstatus
  have hlevel : s.RoomLevelOk entry.receipt := by
    obtain ⟨hversion, hsha⟩ := not_or.mp hevidence
    refine ⟨?_, hversion, hsha⟩
    rcases not_and_or.mp hbad with hl | hl
    · exact .inl (not_not.mp hl)
    · obtain ⟨hsigned, htargets⟩ := not_or.mp hl
      exact .inr ⟨not_not.mp hsigned, htargets⟩
  obtain ⟨⟨answers, u⟩, hans, hstore⟩ := bind_eq_ok.mp hc
  rcases answerRequest_cases h hans with ⟨rfl, rfl, -⟩ | ⟨rfl, hne, hun, slots, rfl, hok⟩
  · exact storeRoomReceipt_false_refines h hcode hlevel hstore
  · have hclosed : Refines H s (s.closed (transferRequestKey H entry.requestId) slots) :=
      ⟨hok, ledger_close _ _⟩
    exact hclosed.trans (storeRoomReceipt_true_refines hok hcode
      ⟨hlevel.level, hlevel.evidenceVersion, hlevel.evidenceSha256⟩ hun
      (h.not_open_closed (.transfer entry.requestId)) hstore)

theorem recordJob_refines (h : OpenOk H s) {entry : JobResultReport}
    (hc : recordJob H s entry = .ok t) : Refines H s t := by
  simp only [recordJob] at hc
  split_ifs at hc with hbad hinput houtput
  obtain ⟨⟨answers, u⟩, hans, hstore⟩ := bind_eq_ok.mp hc
  rcases answerRequest_cases h hans with ⟨rfl, rfl, -⟩ | ⟨rfl, hne, hun, slots, rfl, hok⟩
  · cases hstore
    exact .refl h
  · cases hstore
    have hclosed : Refines H s (s.closed (transferRequestKey H entry.requestId) slots) :=
      ⟨hok, ledger_close _ _⟩
    have hjob : (s.toLedger.apply (.closed (transferRequestKey H entry.requestId))).JobAgrees
        (entry.result (s.roomReceipts entry.inputRoomKey) (s.roomReceipts entry.outputRoomKey)) :=
      ⟨fun he => hbad (.inr (.inl he)), hinput, houtput, rfl, rfl, rfl, rfl⟩
    exact hclosed.trans ⟨hok.congr rfl rfl, ledger_act (a := .jobRecorded _ _)
      ⟨hun, h.not_open_closed (.transfer entry.requestId), hjob⟩⟩

theorem foldlM_refines {α : Type} {f : State → α → Except Revert State} {xs : List α}
    (hf : ∀ s x t, OpenOk H s → f s x = .ok t → Refines H s t) (h : OpenOk H s)
    (hc : xs.foldlM f s = .ok t) : Refines H s t :=
  foldlM_invariant (P := Refines H s)
    (fun u hu x _ v hv => hu.trans (hf u x v hu.openOk hv)) hc (.refl h)

theorem processEntries_refines (h : OpenOk H s) {report : Report}
    (hc : processEntries H s report = .ok t) : Refines H s t := by
  simp only [processEntries] at hc
  obtain ⟨s₁, h₁, hc⟩ := bind_eq_ok.mp hc
  obtain ⟨s₂, h₂, hc⟩ := bind_eq_ok.mp hc
  obtain ⟨s₃, h₃, h₄⟩ := bind_eq_ok.mp hc
  have r₁ := foldlM_refines (fun _ _ _ h hc => recordReceipt_refines h hc) h h₁
  have r₂ := foldlM_refines (fun _ _ _ h hc => recordRoomReceipt_refines h hc) r₁.openOk h₂
  have r₃ := foldlM_refines (fun _ _ _ h hc => closeRequest_refines h hc) r₂.openOk h₃
  have r₄ := foldlM_refines (fun _ _ _ h hc => recordJob_refines h hc) r₃.openOk h₄
  exact ((r₁.trans r₂).trans r₃).trans r₄

theorem processReport_refines (h : OpenOk H s) {report : EncodedReport}
    (hc : processReport H s report = .ok t) : Refines H s t := by
  obtain ⟨_ | version, _ | body⟩ := report <;> simp only [processReport] at hc
  · cases hc
  · cases hc
  · split_ifs at hc
  · split_ifs at hc
    exact processEntries_refines h hc

theorem foldlM_relates {α : Type} {f : State → α → Except Revert State} {R : State → State → Prop}
    {xs : List α}
    (hrefl : ∀ s, R s s) (htrans : ∀ s t u, R s t → R t u → R s u)
    (hrefines : ∀ s x t, OpenOk H s → f s x = .ok t → Refines H s t)
    (hf : ∀ s x t, OpenOk H s → f s x = .ok t → R s t) (h : OpenOk H s)
    (hc : xs.foldlM f s = .ok t) :
    Refines H s t ∧ R s t := by
  refine foldlM_invariant (P := fun u => Refines H s u ∧ R s u)
    (fun u hu x _ v hv => ?_) hc ⟨.refl h, hrefl s⟩
  exact ⟨hu.1.trans (hrefines u x v hu.1.openOk hv), htrans s u v hu.2 (hf u x v hu.1.openOk hv)⟩

theorem processReport_relates {R : State → State → Prop} (hrefl : ∀ s, R s s)
    (htrans : ∀ s t u, R s t → R t u → R s u)
    (hstandard : ∀ s entry t, OpenOk H s → recordReceipt H s entry = .ok t → R s t)
    (hroom : ∀ s entry t, OpenOk H s → recordRoomReceipt H s entry = .ok t → R s t)
    (hclosure : ∀ s entry t, OpenOk H s → closeRequest s entry = .ok t → R s t)
    (hjob : ∀ s entry t, OpenOk H s → recordJob H s entry = .ok t → R s t) (h : OpenOk H s)
    {report : EncodedReport} (hc : processReport H s report = .ok t) : R s t := by
  unfold processReport at hc
  split at hc
  · cases hc
  · split_ifs at hc
    split at hc
    · cases hc
    · simp only [processEntries] at hc
      obtain ⟨s₁, h₁, hc⟩ := bind_eq_ok.mp hc
      obtain ⟨s₂, h₂, hc⟩ := bind_eq_ok.mp hc
      obtain ⟨s₃, h₃, h₄⟩ := bind_eq_ok.mp hc
      obtain ⟨r₁, hR₁⟩ :=
        foldlM_relates hrefl htrans (fun _ _ _ h hc => recordReceipt_refines h hc) hstandard h h₁
      obtain ⟨r₂, hR₂⟩ :=
        foldlM_relates hrefl htrans (fun _ _ _ h hc => recordRoomReceipt_refines h hc) hroom
        r₁.openOk h₂
      obtain ⟨r₃, hR₃⟩ :=
        foldlM_relates hrefl htrans (fun _ _ _ h hc => closeRequest_refines h hc)
          hclosure r₂.openOk h₃
      obtain ⟨-, hR₄⟩ :=
        foldlM_relates hrefl htrans (fun _ _ _ h hc => recordJob_refines h hc) hjob r₃.openOk h₄
      exact htrans _ _ _ (htrans _ _ _ (htrans _ _ _ hR₁ hR₂) hR₃) hR₄

theorem onReport_refines (h : OpenOk H s) {msg : Msg} {metadata : Bytes} {report : EncodedReport}
    (hc : onReport H s msg metadata report = .ok t) : Refines H s t := by
  unfold onReport at hc
  split at hc
  · cases hc
  · exact processReport_refines h hc

def Call.IsSetting : Call → Prop
  | .requestTransfer _ _ _ | .requestReceipt _ | .requestRoomReceipt _ _ _ | .cancelRequest _ |
      .onReport _ _ => False
  | _ => True

theorem onlyOwner_eq_ok {msg : Msg} {run : Except Revert State} (hc : onlyOwner s msg run = .ok t) :
    run = .ok t := by
  unfold onlyOwner at hc
  split_ifs at hc
  exact hc

theorem setting_frame {msg : Msg} {c : Call} (hc : s.call H msg c = .ok t) (hset : c.IsSetting) :
    t.openSlots = s.openSlots ∧ t.toLedger = s.toLedger := by
  cases c with
  | setStaleAfter staleAfterSeconds =>
    have hu := onlyOwner_eq_ok hc
    unfold writeStaleAfter at hu
    split_ifs at hu
    cases hu
    exact ⟨rfl, rfl⟩
  | setForwarderAddress forwarder =>
    cases onlyOwner_eq_ok hc
    split_ifs <;> exact ⟨rfl, rfl⟩
  | transferOwnership newOwner =>
    have hu := onlyOwner_eq_ok hc
    split_ifs at hu
    cases hu
    exact ⟨rfl, rfl⟩
  | setRequester | setExpectedAuthor | setExpectedWorkflowName | setExpectedWorkflowId |
      renounceOwnership =>
    cases onlyOwner_eq_ok hc
    exact ⟨rfl, rfl⟩
  | requestTransfer | requestReceipt | requestRoomReceipt | cancelRequest | onReport =>
      exact hset.elim

theorem call_refines (h : OpenOk H s) {msg : Msg} {c : Call} (hc : s.call H msg c = .ok t) :
    Refines H s t := by
  cases c with
  | requestTransfer requestId kind input => exact requestTransfer_refines h hc
  | requestReceipt transferId => exact requestReceipt_refines h hc
  | requestRoomReceipt room channel publication => exact requestRoomReceipt_refines h hc
  | cancelRequest key => exact cancelRequest_refines h hc
  | onReport metadata report => exact onReport_refines h hc
  | _ =>
    obtain ⟨hslots, hledger⟩ := setting_frame hc trivial
    exact .of_eq h hslots hledger

theorem step_refines (h : OpenOk H s) {i : Msg × Call} (hstep : (contract H).step s i t) :
    Refines H s t := by
  have heq : t = s.transact (s.call H i.1 i.2) := hstep
  cases hcall : s.call H i.1 i.2 with
  | error e =>
    rw [heq, hcall]
    exact .refl h
  | ok u =>
    rw [heq, hcall]
    exact call_refines h hcall

theorem deploy_eq_ok {msg : Msg} {forwarderAddress : Address} {staleAfterSeconds : UInt64}
    {don : Bool}
    (hc : deploy msg forwarderAddress staleAfterSeconds don = .ok s) :
    s.openSlots = Slots.empty ∧ s.toLedger = Ledger.blank don := by
  simp only [deploy, writeStaleAfter] at hc
  split_ifs at hc
  cases hc
  exact ⟨rfl, rfl⟩

theorem init_openOk (h : (contract H).init s) : OpenOk H s := by
  obtain ⟨msg, forwarderAddress, staleAfterSeconds, don, hc⟩ := h
  obtain ⟨hslots, hledger⟩ := deploy_eq_ok hc
  have hrequests : s.openRequests = fun _ => OpenRequest.zero :=
    congrArg Ledger.openRequests hledger
  refine ⟨hslots ▸ .empty, ?_, fun k _ => by rw [hrequests], fun k hk => ?_⟩
  · simp only [State.openKeys, hslots, Slots.empty, List.length_nil]
    exact Nat.zero_le _
  · simp only [State.openKeys, hslots, Slots.empty, List.not_mem_nil] at hk

theorem later_refines (h : OpenOk H s) (hl : (contract H).Later s t) : Refines H s t :=
  hl.invariant (I := Refines H s)
    (fun _ _ _ hu hstep => hu.trans (step_refines hu.openOk hstep)) (.refl h)

/-- The refinement: a state the contract reaches has a well-formed open set, and its ledger is one
the abstract machine reaches. -/
theorem reachable_refines (h : (contract H).Reachable s) :
    OpenOk H s ∧ (ledger H).Reachable s.toLedger := by
  obtain ⟨s₀, hinit, hl⟩ := h
  have hr := later_refines (init_openOk hinit) hl
  obtain ⟨_, _, _, don, hc⟩ := hinit
  exact ⟨hr.openOk, s₀.toLedger, ⟨don, (deploy_eq_ok hc).2⟩, hr.later⟩

end Beam.Contract
