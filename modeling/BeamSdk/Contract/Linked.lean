import BeamSdk.Contract.Acceptance

/-! Reports whose jobs link Room receipts that are there: `_recordJob` does not miss one. -/

namespace Beam.Contract
variable {H : Hashes} {s : State} {key : Bytes32}

theorem recordReceipt_not_missing (h : OpenOk H s) (entry : StandardReceiptReport) :
    recordReceipt H s entry ≠ .error (.missingRoomReceipt key) := by
  obtain ⟨answers, t, hanswer, hok⟩ := answerRequest_total h entry.requestId .standard
  have hok' : OpenOk H (if answers then t.bindTransfer entry.requestId entry.transferId
      else t) := by
    split_ifs
    · exact hok.congr rfl rfl
    · exact hok
  obtain ⟨u, hstore⟩ := storeReceipt_total hok' entry answers
  intro hc
  unfold recordReceipt at hc
  split_ifs at hc
  · cases hc
  · cases hc
  · cases hc
  · rcases bind_eq_error.mp hc with hfail | ⟨_, hsame, hfail⟩
    · cases hanswer.symm.trans hfail
    · cases hanswer.symm.trans hsame
      cases hstore.symm.trans hfail

theorem recordRoomReceipt_not_missing (h : OpenOk H s) (entry : RoomReceiptReport) :
    recordRoomReceipt H s entry ≠ .error (.missingRoomReceipt key) := by
  obtain ⟨answers, t, hanswer, hok⟩ := answerRequest_total h entry.requestId .roomDelivery
  have hok' : OpenOk H (if answers then t.bindRoom entry.requestId
      (roomReceiptKey H entry.room entry.channel entry.publication) else t) := by
    split_ifs
    · exact hok.congr rfl rfl
    · exact hok
  obtain ⟨u, hstore⟩ := storeRoomReceipt_total hok' entry
    (roomReceiptKey H entry.room entry.channel entry.publication) answers
  intro hc
  unfold recordRoomReceipt at hc
  split_ifs at hc
  · cases hc
  · cases hc
  · cases hc
  · rcases bind_eq_error.mp hc with hfail | ⟨_, hsame, hfail⟩
    · cases hanswer.symm.trans hfail
    · cases hanswer.symm.trans hsame
      cases hstore.symm.trans hfail

theorem closeRequest_not_missing (h : OpenOk H s) (closure : RequestClosure) :
    closeRequest s closure ≠ .error (.missingRoomReceipt key) := by
  obtain ⟨slots, hclose, -⟩ := h.closeKey closure.key
  intro hc
  unfold closeRequest at hc
  split_ifs at hc
  · cases hc
  · cases hc
  · rcases bind_eq_error.mp hc with hfail | ⟨_, _, hfail⟩
    · cases hclose.symm.trans hfail
    · cases hfail

theorem recordJob_not_missing (h : OpenOk H s) {entry : JobResultReport}
    (hinput : s.Met (.room entry.inputRoomKey))
    (houtput : s.Met (.room entry.outputRoomKey)) :
      recordJob H s entry ≠ .error (.missingRoomReceipt key) := by
  obtain ⟨answers, t, hanswer, -⟩ := answerRequest_total h entry.requestId .job
  simp only [Ledger.Met] at hinput houtput
  intro hc
  simp only [recordJob, if_neg hinput, if_neg houtput] at hc
  split_ifs at hc
  · cases hc
  · rcases bind_eq_error.mp hc with hfail | ⟨_, _, hfail⟩
    · cases hanswer.symm.trans hfail
    · cases hfail

theorem foldlM_not_missing {α : Type} {f : State → α → Except Revert State} {xs : List α}
    (hrefines : ∀ u x v, OpenOk H u → f u x = .ok v → Refines H u v)
    (hf : ∀ u, Refines H s u → ∀ x ∈ xs, f u x ≠ .error (.missingRoomReceipt key))
    (h : OpenOk H s) :
    xs.foldlM f s ≠ .error (.missingRoomReceipt key) := by
  intro hc
  obtain ⟨x, hx, u, hu, hfail⟩ := foldlM_error (P := Refines H s)
    (fun u hu x _ v hv => hu.trans (hrefines u x v hu.openOk hv)) (.refl h) hc
  exact hf u hu x hx hfail

/-- The Room receipts that the report's jobs link are recorded, or the report records them. -/
def Report.Linked (H : Hashes) (l : Ledger) (report : Report) : Prop :=
  ∀ entry ∈ report.jobs, ∀ key ∈ [entry.inputRoomKey, entry.outputRoomKey], l.Met (.room key) ∨
    ∃ room ∈ report.rooms, roomReceiptKey H room.room room.channel room.publication = key

theorem processEntries_not_missing (h : OpenOk H s) {report : Report}
    (hlinked : report.Linked H s.toLedger) :
    processEntries H s report ≠ .error (.missingRoomReceipt key) := by
  intro hc
  rcases bind_eq_error.mp hc with h₁ | ⟨s₁, h₁, hc⟩
  · exact foldlM_not_missing (fun _ _ _ hu hv => recordReceipt_refines hu hv)
      (fun u hu entry _ => recordReceipt_not_missing hu.openOk entry) h h₁
  have r₁ := foldlM_refines (fun _ _ _ h hc => recordReceipt_refines h hc) h h₁
  rcases bind_eq_error.mp hc with h₂ | ⟨s₂, h₂, hc⟩
  · exact foldlM_not_missing (fun _ _ _ hu hv => recordRoomReceipt_refines hu hv)
      (fun u hu entry _ => recordRoomReceipt_not_missing hu.openOk entry) r₁.openOk h₂
  have r₂ := foldlM_refines (fun _ _ _ h hc => recordRoomReceipt_refines h hc) r₁.openOk h₂
  rcases bind_eq_error.mp hc with h₃ | ⟨s₃, h₃, h₄⟩
  · exact foldlM_not_missing (fun _ _ _ hu hv => closeRequest_refines hu hv)
      (fun u hu closure _ => closeRequest_not_missing hu.openOk closure) r₂.openOk h₃
  have r₃ := foldlM_refines (fun _ _ _ h hc => closeRequest_refines h hc) r₂.openOk h₃
  -- the report's own Room receipts are recorded before its first job
  have hfirst : processEntries H s { report with jobs := [] } = .ok s₃ :=
    bind_eq_ok.mpr ⟨s₁, h₁, bind_eq_ok.mpr ⟨s₂, h₂, bind_eq_ok.mpr ⟨s₃, h₃, rfl⟩⟩⟩
  have hrooms := (processEntries_met h hfirst).2
  have hmet : ∀ entry ∈ report.jobs, ∀ key ∈ [entry.inputRoomKey, entry.outputRoomKey],
      s₃.Met (.room key) := by
    intro entry hentry key hkey
    rcases hlinked entry hentry key hkey with hmet | ⟨room, hroom, hkey⟩
    · exact ((r₁.trans r₂).trans r₃).keeps.met hmet
    · exact hkey ▸ hrooms room hroom
  refine foldlM_not_missing (fun _ _ _ hu hv => recordJob_refines hu hv)
    (fun u hu entry hentry => ?_) r₃.openOk h₄
  exact recordJob_not_missing hu.openOk (hu.keeps.met (hmet entry hentry _ (by simp)))
    (hu.keeps.met (hmet entry hentry _ (by simp)))

theorem onReport_not_missing (h : OpenOk H s) {report : Report}
    (hlinked : report.Linked H s.toLedger) (msg : Msg)
    (metadata : Bytes) (version : Option UInt8) :
    onReport H s msg metadata ⟨version, some report⟩ ≠ .error (.missingRoomReceipt key) := by
  intro hc
  unfold onReport at hc
  split at hc
  · rename_i revert hcheck
    cases hc
    simp only [checkReport] at hcheck
    split_ifs at hcheck <;> cases hcheck
  · cases version with
    | none => cases hc
    | some version =>
      simp only [processReport] at hc
      split_ifs at hc
      · cases hc
      · exact processEntries_not_missing h hlinked hc

end Beam.Contract
