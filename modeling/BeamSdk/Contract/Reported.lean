import BeamSdk.Contract.Provenance
import BeamSdk.Contract.Recorded
import BeamSdk.Library.AbiInjective

/-! Which receipts a run leaves behind, in terms of the reports that went through alone: the
transfer ids they named and, as long as the hash does not collide, the publications. -/

namespace Beam.Contract
variable {H : Hashes} {s : State}

/-- The ids that `roomReceiptKey` hashes, in its order. -/
def RoomReceiptReport.texts (entry : RoomReceiptReport) : List Bytes :=
    [entry.room, entry.channel, entry.publication]

def Call.reportedRooms : Call → List (List Bytes)
  | .onReport _ report => (report.body.elim [] Report.rooms).map RoomReceiptReport.texts
  | _ => []

def reportedRooms (calls : List (Msg × Call)) : List (List Bytes) :=
    calls.flatMap fun i => i.2.reportedRooms

/-- No publication of the run has the hash of another one, and no id is longer than memory. -/
structure TellsApart (H : Hashes) (calls : List (Msg × Call)) (texts : List Bytes) : Prop where
  fits : ∀ text ∈ texts, text.length < 2 ^ 256
  reportedFit : ∀ other ∈ reportedRooms calls, ∀ text ∈ other, text.length < 2 ^ 256
  noCollision : ∀ other ∈ reportedRooms calls, H.keccak256 (Abi.encodeStrings other) =
    H.keccak256 (Abi.encodeStrings texts) → Abi.encodeStrings other = Abi.encodeStrings texts

theorem TellsApart.texts_eq {calls : List (Msg × Call)} {room channel publication : Bytes}
    (h : TellsApart H calls [room, channel, publication]) {entry : RoomReceiptReport}
    (hmem : entry.texts ∈ reportedRooms calls)
    (hkey : roomReceiptKey H entry.room entry.channel entry.publication =
      roomReceiptKey H room channel publication) :
    entry.texts = [room, channel, publication] :=
  Abi.encodeStrings_injective rfl (h.reportedFit _ hmem) h.fits (h.noCollision _ hmem hkey)

theorem mem_reportedRooms {before after : List (Msg × Call)} {i : Msg × Call} {report : Report}
    (haccepted : Accepted H s i report) {entry : RoomReceiptReport}
    (hentry : entry ∈ report.rooms) :
    entry.texts ∈ reportedRooms (before ++ i :: after) := by
  obtain ⟨metadata, hcall, -⟩ := haccepted
  refine List.mem_flatMap.mpr ⟨i, List.mem_append_right _ (List.mem_cons_self ..), ?_⟩
  rw [hcall]
  exact List.mem_map_of_mem hentry

theorem reported_met (h : (contract H).init s) {before after : List (Msg × Call)} {i : Msg × Call}
    {report : Report}
    (haccepted : Accepted H (s.run H before) i report) :
    (∀ entry ∈ report.standard, (s.run H (before ++ i :: after)).Met (.receipt entry.transferId)) ∧
      ∀ entry ∈ report.rooms, (s.run H (before ++ i :: after)).Met
        (.room (roomReceiptKey H entry.room entry.channel entry.publication)) := by
  obtain ⟨metadata, hcall, -, t, ht⟩ := haccepted
  have hok := (later_refines (init_openOk h) (later_run H s before)).openOk
  have hreport : onReport H (s.run H before) i.1 metadata
      ⟨some REPORT_VERSION, some report⟩ = .ok t := by
    rw [hcall] at ht
    exact ht
  obtain ⟨hstandard, hrooms⟩ := onReport_met hok hreport
  have hrun : s.run H (before ++ i :: after) = t.run H after := by
    rw [State.run, List.foldl_append, List.foldl_cons]
    refine congrArg (fun u : State => u.run H after) ?_
    show (s.run H before).transact ((s.run H before).call H i.1 i.2) = t
    rw [ht]
    rfl
  have hokt : OpenOk H t := (call_refines hok ht).openOk
  have hkeeps := (later_refines hokt (later_run H t after)).keeps
  rw [hrun]
  exact ⟨fun entry hentry => hkeeps.met (hstandard entry hentry), fun entry hentry =>
    hkeeps.met (hrooms entry hentry)⟩

/-- A transfer has a receipt exactly when a report that went through named it, and a publication has
one exactly when such a report named that very publication, up to collisions of the hash. -/
theorem run_recorded_iff (h : (contract H).init s) (calls : List (Msg × Call)) :
    (∀ T, ((s.run H calls).receipts T).status ≠ .none ↔
      Reported H s calls fun _ report => ∃ entry ∈ report.standard, entry.transferId = T) ∧
    ∀ room channel publication, TellsApart H calls [room, channel, publication] →
      (((s.run H calls).roomReceipts (roomReceiptKey H room channel publication)).status ≠ .none ↔
        Reported H s calls fun _ report => ∃ entry ∈ report.rooms,
          entry.texts = [room, channel, publication]) := by
  refine ⟨fun T => ⟨fun hT => ?_, ?_⟩, fun room channel publication hapart => ⟨fun hK => ?_, ?_⟩⟩
  · obtain ⟨before, i, after, report, hcalls, haccepted, -, entry, hentry, hid, -⟩ :=
      receipt_reported h calls T hT
    exact ⟨before, i, after, report, hcalls, haccepted, entry, hentry, hid⟩
  · rintro ⟨before, i, after, report, rfl, haccepted, entry, hentry, rfl⟩
    exact (reported_met h haccepted).1 entry hentry
  · obtain ⟨before, i, after, report, rfl, haccepted, -, entry, hentry, hkey, -⟩ :=
      roomReceipt_reported h calls _ hK
    exact ⟨before, i, after, report, rfl, haccepted, entry, hentry,
      hapart.texts_eq (mem_reportedRooms haccepted hentry) hkey⟩
  · rintro ⟨before, i, after, report, rfl, haccepted, entry, hentry, htexts⟩
    simp only [RoomReceiptReport.texts, List.cons.injEq, and_true] at htexts
    obtain ⟨rfl, rfl, rfl⟩ := htexts
    exact (reported_met h haccepted).2 entry hentry

theorem sample_recorded :
    Reported sampleHashes sampleDeployed
      (sampleRequests ++ [(⟨9, 104⟩, .onReport [] ⟨some 2, some sampleReport⟩)])
      fun _ report => ∃ entry ∈ report.rooms, entry.texts = [[0x72], [0x63], [0x62]] := by
  refine (((run_recorded_iff ⟨_, _, _, _, sampleDeployed_init⟩ _).2 [0x72] [0x63] [0x62]
    ⟨?_, ?_, ?_⟩).mp ?_)
  all_goals decide +kernel

end Beam.Contract
