import BeamSdk.Contract.LedgerInvariants
import BeamSdk.Contract.Refinement

/-! What a report that succeeded leaves behind: the receipt of every one of its entries. -/

namespace Beam.Contract
variable {H : Hashes} {s t : State}

theorem storeReceipt_eq_ok (h : OpenOk H s) {entry : StandardReceiptReport} {answers : Bool}
    (hcode : Status.ofCode entry.status ≠ .none) (hc : storeReceipt H s entry answers = .ok t) :
    t.Met (.receipt entry.transferId) ∧ (∀ R, t.isAnswered R ↔ s.isAnswered R) ∧
      ∀ k, t.openRequests k = s.openRequests k ∨
        (t.openRequests k = OpenRequest.zero ∧ k = receiptRequestKey H entry.transferId) := by
  simp only [storeReceipt] at hc
  split_ifs at hc with hrec hlink
  · cases hc
    refine ⟨?_, fun R => .rfl, fun k => .inl rfl⟩
    simp only [Ledger.Met, State.putReceipt, Function.update_self]
    exact hrec
  · cases hc
    exact ⟨hrec, fun R => .rfl, fun k => .inl rfl⟩
  all_goals
    obtain ⟨v, hclose, hemit⟩ := bind_eq_ok.mp hc
    obtain ⟨slots, hslots, -⟩ := (h.congr (t := s.putReceipt _ _) rfl rfl).closeKey _
    rw [hslots] at hclose
    cases hclose
    cases hemit
    refine ⟨?_, fun R => .rfl, fun k => ?_⟩
    · simp only [Ledger.Met, State.emit, State.closed, State.putReceipt, Function.update_self]
      exact hcode
    · exact (Ledger.update_eq_or s.openRequests (receiptRequestKey H entry.transferId) k
        OpenRequest.zero).imp_right And.symm

theorem storeRoomReceipt_eq_ok (h : OpenOk H s) {entry : RoomReceiptReport} {roomKey : Bytes32}
    {answers : Bool}
    (hcode : Status.ofCode entry.status ≠ .none)
    (hc : storeRoomReceipt H s entry roomKey answers = .ok t) :
    t.Met (.room roomKey) ∧ (∀ R, t.isAnswered R ↔ s.isAnswered R) ∧
      ∀ k, t.openRequests k = s.openRequests k ∨
        (t.openRequests k = OpenRequest.zero ∧ k = roomRequestKey H roomKey) := by
  simp only [storeRoomReceipt] at hc
  split_ifs at hc with hrec
  · cases hc
    exact ⟨hrec, fun R => .rfl, fun k => .inl rfl⟩
  all_goals
    obtain ⟨v, hclose, hemit⟩ := bind_eq_ok.mp hc
    obtain ⟨slots, hslots, -⟩ := (h.congr (t := s.putRoomReceipt _ _) rfl rfl).closeKey _
    rw [hslots] at hclose
    cases hclose
    cases hemit
    refine ⟨?_, fun R => .rfl, fun k => ?_⟩
    · simp only [Ledger.Met, State.emit, State.closed, State.putRoomReceipt, Function.update_self]
      exact hcode
    · exact (Ledger.update_eq_or s.openRequests (roomRequestKey H roomKey)
        k OpenRequest.zero).imp_right And.symm

theorem recordReceipt_met (h : OpenOk H s) {entry : StandardReceiptReport}
    (hc : recordReceipt H s entry = .ok t) : t.Met (.receipt entry.transferId) := by
  simp only [recordReceipt] at hc
  split_ifs at hc with hid hstatus hlevel
  have hcode := Status.ofCode_valid (by decide) hstatus
  obtain ⟨⟨answers, u⟩, hans, hstore⟩ := bind_eq_ok.mp hc
  rcases answerRequest_cases h hans with ⟨rfl, rfl, -⟩ | ⟨rfl, -, -, slots, rfl, hok⟩
  · exact (storeReceipt_eq_ok h hcode hstore).1
  · rw [if_pos rfl] at hstore
    have hok' :
        OpenOk H ((s.closed (transferRequestKey H entry.requestId) slots).bindTransfer
          entry.requestId
        entry.transferId) := hok.congr rfl rfl
    exact (storeReceipt_eq_ok hok' hcode hstore).1

theorem recordRoomReceipt_met (h : OpenOk H s) {entry : RoomReceiptReport}
    (hc : recordRoomReceipt H s entry = .ok t) :
    t.Met (.room (roomReceiptKey H entry.room entry.channel entry.publication)) := by
  simp only [recordRoomReceipt] at hc
  split_ifs at hc with hstatus hlevel hevidence
  have hcode := Status.ofCode_valid (by decide) hstatus
  obtain ⟨⟨answers, u⟩, hans, hstore⟩ := bind_eq_ok.mp hc
  rcases answerRequest_cases h hans with ⟨rfl, rfl, -⟩ | ⟨rfl, -, -, slots, rfl, hok⟩
  · exact (storeRoomReceipt_eq_ok h hcode hstore).1
  · rw [if_pos rfl] at hstore
    have hok' :
        OpenOk H ((s.closed (transferRequestKey H entry.requestId) slots).bindRoom entry.requestId
        (roomReceiptKey H entry.room entry.channel entry.publication)) := hok.congr rfl rfl
    exact (storeRoomReceipt_eq_ok hok' hcode hstore).1

theorem Refines.keeps (h : Refines H s t) : s.Keeps t.toLedger := Ledger.later_keeps h.later

theorem processEntries_met (h : OpenOk H s) {report : Report}
    (hc : processEntries H s report = .ok t) :
    (∀ entry ∈ report.standard, t.Met (.receipt entry.transferId)) ∧
      ∀ entry ∈ report.rooms,
        t.Met (.room (roomReceiptKey H entry.room entry.channel entry.publication)) := by
  simp only [processEntries] at hc
  obtain ⟨s₁, h₁, hc⟩ := bind_eq_ok.mp hc
  obtain ⟨s₂, h₂, hc⟩ := bind_eq_ok.mp hc
  obtain ⟨s₃, h₃, h₄⟩ := bind_eq_ok.mp hc
  have hkept : ∀ d, ∀ s t, OpenOk H s → (OpenOk H s → Refines H s t) → s.Met d → t.Met d :=
    fun d s t hs hr hd => (hr hs).keeps.met hd
  obtain ⟨r₁, met₁⟩ := foldlM_settles (f := recordReceipt H)
    (R := fun s t => OpenOk H s → Refines H s t)
      (S := fun entry t => t.Met (.receipt entry.transferId))
    (fun _ hs => .refl hs) (fun _ _ _ hst htu hs => (hst hs).trans (htu (hst hs).openOk))
    (fun _ _ hs hst => (hst hs).openOk)
    (fun s hs x _ t hx => ⟨fun hs => recordReceipt_refines hs hx, recordReceipt_met hs hx⟩)
    (fun x _ s t => hkept _ s t) h h₁
  have hok₁ := (r₁ h).openOk
  obtain ⟨r₂, met₂⟩ := foldlM_settles (f := recordRoomReceipt H)
    (R := fun s t => OpenOk H s → Refines H s t)
    (S := fun entry t =>
      t.Met (.room (roomReceiptKey H entry.room entry.channel entry.publication)))
    (fun _ hs => .refl hs) (fun _ _ _ hst htu hs => (hst hs).trans (htu (hst hs).openOk))
    (fun _ _ hs hst => (hst hs).openOk)
    (fun s hs x _ t hx => ⟨fun hs => recordRoomReceipt_refines hs hx, recordRoomReceipt_met hs hx⟩)
    (fun x _ s t => hkept _ s t) hok₁ h₂
  have hok₂ := (r₂ hok₁).openOk
  have r₃ := foldlM_refines (fun _ _ _ h hc => closeRequest_refines h hc) hok₂ h₃
  have r₄ := foldlM_refines (fun _ _ _ h hc => recordJob_refines h hc) r₃.openOk h₄
  have hrest := (r₃.trans r₄).keeps
  exact ⟨fun x hx => hrest.met ((r₂ hok₁).keeps.met (met₁ x hx)), fun x hx => hrest.met (met₂ x hx)⟩

theorem onReport_met (h : OpenOk H s) {msg : Msg} {metadata : Bytes} {version : Option UInt8}
    {report : Report}
    (hc : onReport H s msg metadata ⟨version, some report⟩ = .ok t) :
    (∀ entry ∈ report.standard, t.Met (.receipt entry.transferId)) ∧
      ∀ entry ∈ report.rooms,
        t.Met (.room (roomReceiptKey H entry.room entry.channel entry.publication)) := by
  unfold onReport at hc
  split at hc
  · cases hc
  · cases version with
    | none => cases hc
    | some version =>
      simp only [processReport] at hc
      split_ifs at hc
      exact processEntries_met h hc

end Beam.Contract
