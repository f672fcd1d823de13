import BeamSdk.Contract.Acceptance
import BeamSdk.Contract.Guarantees
import BeamSdk.Relay.Projections
import BeamSdk.Relay.Receipts

/-! From the HTTP answers of every lookup to the entries of a report, and whether the contract takes
them. -/

namespace Beam.Relay
open Contract (Bytes Bytes32 Hashes Ledger OpenOk RequestKind TransferKind)

structure Response where
  statusCode : ℕ
  body : Bytes
  deriving DecidableEq

/-- What Beam answers the lookups of one subject; none where there is no usable answer. -/
structure Replies where
  lookup : Option Response
  outputLookup : Option Response
  receipt : Option Response
  outputReceipt : Option Response

def receiptLevels (donAttested : Bool) : ReceiptLevels :=
  let attestation := if donAttested then Contract.LEVEL_DON_ATTESTED else 0
  { standard := Contract.LEVEL_BEAM_REPORTED ||| attestation
    room := Contract.LEVEL_BEAM_REPORTED ||| attestation
    roomSigned := Contract.LEVEL_BEAM_REPORTED ||| Contract.LEVEL_TARGET_SIGNED ||| attestation }

def isRoomId (text : String) : Prop := 1 ≤ Text.utf16Length text.toList ∧
    Text.utf16Length text.toList ≤ 128

def isMemberId (text : String) : Prop := Text.tagged "btr_member_".toList 26 Text.isBase32 text

instance (text : String) : Decidable (isRoomId text) := inferInstanceAs (Decidable (_ ∧ _))

instance (text : String) : Decidable (isMemberId text) :=
    inferInstanceAs (Decidable (Text.tagged _ _ _ _))

structure DeploymentRoutes.Accepted (routes : DeploymentRoutes) : Prop where
  roomDelivery : ∀ route, routes.roomDelivery = some route →
    isRoomId route.room ∧ isRoomId route.channel ∧ isMemberId route.publisherMemberId
  jobOutput : ∀ route, routes.jobOutput = some route → isRoomId route.channel ∧
    isMemberId route.computeMemberId
  delivered : routes.jobOutput.isSome → routes.roomDelivery.isSome

def Observation.isTransfer : Observation → Bool
  | .transfer .. => true
  | _ => false

def Observation.isRoom : Observation → Bool
  | .room .. => true
  | _ => false

section Entries
variable (H : Hashes) (parsers : Parsers)

def lookedUp : Option Response → PublicationLookup
  | none => .unavailable
  | some response => projectPublicationLookup parsers response.statusCode response.body

def observedTransfer (transferId : String) : Option Response → Observation
  | none => .unavailable
  | some response => projectTransfer parsers response.statusCode response.body transferId

def observedRoom (subject : RoomSubject) : Option Response → Observation
  | none => .unavailable
  | some response => projectRoomReceipt parsers H response.statusCode response.body subject

variable (levels : ReceiptLevels)

def transferEntries (subject : TransferSubject) (receipt : Option Response) :
    Except Thrown (List ReportEntry) := do
  let entry ← reportEntryFor H (.transfer subject)
    (observedTransfer parsers subject.transferId receipt) levels
  .ok entry.toList

def roomEntries (subject : RoomSubject) (receipt : Option Response) :
    Except Thrown (List ReportEntry) := do
  let entry ← reportEntryFor H (.room subject) (observedRoom H parsers subject receipt) levels
  .ok entry.toList

def jobEntries (subject : JobSubject) (answers : Replies) : Except Thrown (List ReportEntry) :=
  match lookedUp parsers answers.lookup, lookedUp parsers answers.outputLookup with
  | .found input, .found output => do
    let entries ← jobEntriesFor H subject input output
      (observedRoom H parsers ⟨subject.room, subject.inputChannel, input, none⟩ answers.receipt)
      (observedRoom H parsers ⟨subject.room, subject.outputChannel, output, none⟩
        answers.outputReceipt) levels
    .ok (entries.getD [])
  | _, _ => .ok []

def subjectEntries (subject : Subject) (answers : Replies) : Except Thrown (List ReportEntry) :=
  match subject with
  | .transfer subject => transferEntries H parsers levels subject answers.receipt
  | .room subject => roomEntries H parsers levels subject answers.receipt
  | .roomRequest subject =>
    match roomSubjectForLookup subject (lookedUp parsers answers.lookup) with
    | none => .ok []
    | some found => roomEntries H parsers levels found answers.receipt
  | .job subject => jobEntries H parsers levels subject answers

/-- What a report is formed from: open requests, and the transfers and publications a push or a
listing names. -/
inductive Asked
  | request (request : OpenRequest) (answers : Replies)
  | transfer (subject : TransferSubject) (receipt : Option Response)
  | room (subject : RoomSubject) (receipt : Option Response)

variable (clientId : String) (routes : DeploymentRoutes)

def askedEntries : Asked → Except Thrown (List ReportEntry)
  | .request request answers => do
    match ← subjectForOpenRequest H clientId routes request with
    | none => .ok []
    | some subject => subjectEntries H parsers levels subject answers
  | .transfer subject receipt => transferEntries H parsers levels subject receipt
  | .room subject receipt => roomEntries H parsers levels subject receipt

def formed : List Asked → Except Thrown (List ReportEntry)
  | [] => .ok []
  | asked :: rest => do
    let entries ← askedEntries H parsers levels clientId routes asked
    let others ← formed rest
    .ok (entries ++ others)

end Entries

section Acceptance
variable {H : Hashes}

def ReportEntry.Valid (l : Ledger) : ReportEntry → Prop
  | .standard entry => entry.Valid l
  | .room entry => entry.Valid l
  | .closure entry => entry.Valid
  | .job entry => entry.Valid

def ReportEntry.Refused : ReportEntry → Prop
  | .standard entry => entry.transferId = 0
  | .job entry => entry.inputRoomKey = entry.outputRoomKey
  | _ => False

def Linked (H : Hashes) (recorded : Bytes32 → Prop) (entries : List ReportEntry) : Prop :=
  ∀ earlier job later, entries = earlier ++ .job job :: later →
    ∀ key ∈ [job.inputRoomKey, job.outputRoomKey],
    recorded key ∨ ∃ room, .room room ∈ earlier ∧
      Contract.roomReceiptKey H room.room room.channel room.publication = key

def Accepts (H : Hashes) : Contract.State → List (List ReportEntry) → Prop
  | _, [] => True
  | s, group :: rest => ∀ t, (Contract.contract H).Later s t →
    ∃ u, Contract.processReport H t ⟨some Contract.REPORT_VERSION,
      some (reportOfEntries group)⟩ = .ok u ∧
      Accepts H u rest

theorem Linked.nil (recorded : Bytes32 → Prop) : Linked H recorded [] := by
  intro earlier job later h
  exact absurd h (by simp)

theorem Linked.append {recorded : Bytes32 → Prop} {entries others : List ReportEntry}
    (h : Linked H recorded entries)
    (h' : Linked H recorded others) : Linked H recorded (entries ++ others) := by
  intro earlier job later heq key hkey
  rcases List.append_eq_append_iff.mp heq with ⟨middle, rfl, hothers⟩ | ⟨middle, hentries, hlater⟩
  · refine (h' middle job later hothers key hkey).imp_right ?_
    rintro ⟨room, hroom, hk⟩
    exact ⟨room, List.mem_append_right _ hroom, hk⟩
  · cases middle with
    | nil =>
      refine (h' [] job later hlater.symm key hkey).imp_right ?_
      rintro ⟨room, hroom, -⟩
      exact absurd hroom List.not_mem_nil
    | cons entry middle =>
      obtain ⟨rfl, -⟩ := List.cons.inj hlater
      exact h earlier job middle hentries key hkey

theorem Linked.mono {recorded recorded' : Bytes32 → Prop} {entries : List ReportEntry}
    (h : Linked H recorded entries)
    (hkept : ∀ key, recorded key → recorded' key) : Linked H recorded' entries :=
  fun earlier job later heq key hkey => (h earlier job later heq key hkey).imp_left (hkept key)

theorem Linked.job {recorded : Bytes32 → Prop} {first second : Contract.RoomReceiptReport}
    {entry : Contract.JobResultReport}
    (hfirst : Contract.roomReceiptKey H first.room first.channel first.publication =
      entry.inputRoomKey)
    (hsecond : Contract.roomReceiptKey H second.room second.channel second.publication =
      entry.outputRoomKey) :
    Linked H recorded [.room first, .room second, .job entry] := by
  intro earlier job later heq key hkey
  have hearlier : earlier = [.room first, .room second] ∧ job = entry := by
    match earlier, heq with
    | [], heq => exact absurd (List.cons.inj heq).1 nofun
    | [_], heq => exact absurd (List.cons.inj (List.cons.inj heq).2).1 nofun
    | [_, _], heq =>
      cases heq
      exact ⟨rfl, rfl⟩
    | _ :: _ :: _ :: rest, heq =>
      have hlength := congrArg List.length heq
      simp at hlength
  obtain ⟨rfl, rfl⟩ := hearlier
  simp only [List.mem_cons, List.not_mem_nil, or_false] at hkey
  rcases hkey with rfl | rfl
  · exact .inr ⟨first, by simp, hfirst⟩
  · exact .inr ⟨second, by simp, hsecond⟩

theorem Linked.drop {recorded recorded' : Bytes32 → Prop} {entries others : List ReportEntry}
    (h : Linked H recorded (entries ++ others)) (hkept : ∀ key, recorded key → recorded' key)
    (hrooms : ∀ room, .room room ∈ entries →
      recorded' (Contract.roomReceiptKey H room.room room.channel room.publication)) : Linked H
        recorded' others := by
  rintro earlier job later rfl key hkey
  rcases h (entries ++ earlier) job later (by rw [List.append_assoc]) key hkey with hrec |
    ⟨room, hroom, rfl⟩
  · exact .inl (hkept key hrec)
  · rcases List.mem_append.mp hroom with hroom | hroom
    · exact .inl (hrooms room hroom)
    · exact .inr ⟨room, hroom, rfl⟩

theorem reportOfEntries_valid {l : Ledger} {entries others : List ReportEntry}
    (h : ∀ e ∈ entries, e.Valid l)
    (hlinked : Linked H (fun key => l.Met (.room key)) (entries ++ others)) :
    (reportOfEntries entries).Valid H l where
  standard _ he := h _ (mem_standard.mp he)
  rooms _ he := h _ (mem_rooms.mp he)
  closures _ he := h _ (mem_closures.mp he)
  jobs _ he := h _ (mem_jobs.mp he)
  linked job hjob key hkey := by
    obtain ⟨earlier, later, rfl⟩ := List.append_of_mem (mem_jobs.mp hjob)
    refine (hlinked earlier job (later ++ others) (by simp) key hkey).imp_right ?_
    rintro ⟨room, hroom, hk⟩
    exact ⟨room, mem_rooms.mpr (List.mem_append_left _ hroom), hk⟩

theorem accepts_of_valid {groups : List (List ReportEntry)} {s : Contract.State} (hok : OpenOk H s)
    (hvalid : ∀ e ∈ groups.flatten, ∀ l : Ledger, l.donAttested = s.donAttested → e.Valid l)
    (hlinked : Linked H (fun key => s.Met (.room key)) groups.flatten) : Accepts H s groups := by
  induction groups generalizing s with
  | nil => trivial
  | cons group rest ih =>
    intro t ht
    have hr := Contract.later_refines hok ht
    have hkept : ∀ key, s.Met (.room key) → t.Met (.room key) := fun key => hr.keeps.met
    have hlater : Linked H (fun key => t.Met (.room key)) (group ++ rest.flatten) :=
      hlinked.mono hkept
    have hreport : (reportOfEntries group).Valid H t.toLedger :=
      reportOfEntries_valid (fun e he =>
        hvalid e (List.mem_append_left _ he) _ hr.keeps.donAttested) hlater
    obtain ⟨u, hu⟩ := Contract.processEntries_total hr.openOk hreport
    have hr' := Contract.processEntries_refines hr.openOk hu
    refine ⟨u, hu, ih hr'.openOk (fun e he l hl => ?_) ?_⟩
    · exact hvalid e (List.mem_append_right _ he) l (hl.trans (hr.trans hr').keeps.donAttested)
    · refine hlinked.drop (fun key hkey => hr'.keeps.met (hkept key hkey)) fun room hroom => ?_
      exact (Contract.processEntries_met hr.openOk hu).2 room (mem_rooms.mpr hroom)

theorem Accepts.not_refused {groups : List (List ReportEntry)} {s : Contract.State}
    (h : Accepts H s groups)
    {e : ReportEntry} (he : e ∈ groups.flatten) : ¬ e.Refused := by
  induction groups generalizing s with
  | nil => exact absurd he List.not_mem_nil
  | cons group rest ih =>
    obtain ⟨u, hu, hrest⟩ := h s (.refl s)
    rcases List.mem_append.mp he with he | he
    · obtain ⟨hstandard, hjobs⟩ := Contract.processEntries_refuses hu
      cases e with
      | standard entry => exact hstandard entry (mem_standard.mpr he)
      | job entry => exact hjobs entry (mem_jobs.mpr he)
      | _ => exact id
    · exact ih hrest he

end Acceptance

section Subjects
variable {H : Hashes} {parsers : Parsers} {d : Bool}

theorem uuidOfDigest_ne_zero (digest : Bytes32) : uuidOfDigest digest ≠ 0 := by
  -- the variant bits leave bit 63 set
  intro h
  have hbit : (uuidOfDigest digest).getLsbD 63 = true := by
    simp [uuidOfDigest]
  rw [h] at hbit
  simp at hbit

theorem utf8Encode_size {chars : List Char} (h : ∀ c ∈ chars, c.toNat < 128) :
    (List.utf8Encode chars).size = chars.length := by
  induction chars with
  | nil => rfl
  | cons c chars ih =>
    have hc : c.utf8Size = 1 := by
      rw [Char.utf8Size_eq_one_iff]
      exact Nat.le_of_lt_succ (h c (List.mem_cons_self ..))
    have hone : ([c].utf8Encode).size = 1 := by
      rw [← hc, List.utf8Encode_singleton, List.size_toByteArray, String.length_utf8EncodeChar]
    rw [List.utf8Encode_cons, ByteArray.size_append, hone, ih fun c hc =>
      h c (List.mem_cons_of_mem _ hc),
      List.length_cons, Nat.add_comm]

theorem isBase32_lt {c : Char} (h : Text.isBase32 c) : c.toNat < 128 := by
  simp only [Text.isBase32, Bool.or_eq_true, Bool.and_eq_true, decide_eq_true_eq] at h
  omega

theorem utf8_length_memberId {text : String} (h : isMemberId text) : (utf8 text).length = 37 := by
  obtain ⟨htag, hlength, hall⟩ := h
  have htext : text.toList = "btr_member_".toList ++
      text.toList.drop "btr_member_".toList.length := by
    conv_lhs => rw [← List.take_append_drop "btr_member_".toList.length text.toList, htag]
  have hascii : ∀ c ∈ text.toList, c.toNat < 128 := by
    rw [htext]
    intro c hc
    rcases List.mem_append.mp hc with hc | hc
    · exact of_decide_eq_true
        (List.all_eq_true.mp (by decide : "btr_member_".toList.all fun c => c.toNat < 128) c hc)
    · exact isBase32_lt (List.all_eq_true.mp hall c hc)
  have hsize : text.toUTF8.size = text.toList.length := by
    rw [String.toUTF8_eq_toByteArray, ← utf8Encode_size hascii, String.utf8Encode_toList]
  rw [utf8, Array.length_toList]
  show text.toUTF8.size = 37
  rw [hsize, htext, List.length_append, hlength]
  rfl

structure Takeable (H : Hashes) (d : Bool) (entries : List ReportEntry) : Prop where
  valid : ∀ l : Ledger, l.donAttested = d → ∀ e ∈ entries, e.Valid l
  linked : ∀ recorded, Linked H recorded entries

theorem Takeable.nil : Takeable H d [] where
  valid _ _ _ he := absurd he List.not_mem_nil
  linked recorded := .nil recorded

theorem Takeable.append {entries others : List ReportEntry} (h : Takeable H d entries)
    (h' : Takeable H d others) :
    Takeable H d (entries ++ others) where
  valid l hl e he := (List.mem_append.mp he).elim (h.valid l hl e) (h'.valid l hl e)
  linked recorded := (h.linked recorded).append (h'.linked recorded)

theorem Takeable.single {entry : ReportEntry} (h : ∀ l : Ledger, l.donAttested = d → entry.Valid l)
    (hjob : ∀ job, entry ≠ .job job) : Takeable H d [entry] where
  valid l hl e he := List.mem_singleton.mp he ▸ h l hl
  linked recorded := by
    intro earlier job later heq
    have hmem : ReportEntry.job job ∈ [entry] := by
      rw [heq]
      exact List.mem_append_right _ (List.mem_cons_self ..)
    exact absurd (List.mem_singleton.mp hmem).symm (hjob job)

theorem observedTransfer_status {transferId : String} {receipt : Option Response} {status : UInt8}
    {totalBytes bytesTransferred completedAtMs : UInt64}
    {planFingerprint coordinateChecksum : Bytes32}
    (h : observedTransfer parsers transferId receipt =
      .transfer status totalBytes bytesTransferred completedAtMs planFingerprint
        coordinateChecksum) :
    status ≠ Contract.Status.none.code ∧ status ≤ Contract.Status.cancelled.code := by
  cases receipt with
  | none => cases h
  | some response =>
    rcases projectTransfer_status h with rfl | rfl | rfl <;> decide

theorem observedRoom_observed {subject : RoomSubject} {receipt : Option Response} {status : UInt8}
    {fileSizeBytes : UInt64} {manifestSha256 : Bytes32} {targetCount : UInt32} {targetSigned : Bool}
    {evidenceSha256 assignmentsSha256 : Bytes32} {evidenceVersion : UInt16}
    (h : observedRoom H parsers subject receipt =
      .room status fileSizeBytes manifestSha256 targetCount targetSigned
      evidenceSha256 assignmentsSha256 evidenceVersion) :
    RoomObserved H status targetCount targetSigned evidenceSha256 evidenceVersion := by
  cases receipt with
  | none => cases h
  | some response => exact projectRoomReceipt_observed h

theorem transferEntries_takeable {subject : TransferSubject} {receipt : Option Response}
    {entries : List ReportEntry}
    (h : transferEntries H parsers (receiptLevels d) subject receipt = .ok entries)
    (hid : transferIdToBytes16 subject.transferId = .ok 0 →
      (observedTransfer parsers subject.transferId receipt).isTransfer = false) : Takeable H d
        entries := by
  obtain ⟨entry, hentry, h⟩ := bind_eq_ok.mp h
  cases h
  generalize hobs : observedTransfer parsers subject.transferId receipt = observation at hentry hid
  cases observation with
  | transfer status totalBytes bytesTransferred completedAtMs planFingerprint coordinateChecksum =>
    obtain ⟨transferId, htransferId, hentry⟩ := bind_eq_ok.mp hentry
    cases hentry
    refine .single (fun l hl => ⟨?_, observedTransfer_status hobs, ?_⟩) fun job hjob =>
      by cases hjob
    · rintro rfl
      exact Bool.noConfusion (hid htransferId)
    · simp only [Ledger.standardReceiptLevel, Ledger.attestationLevel, hl, receiptLevels]
  | _ =>
    cases hentry
    exact .nil

theorem transferEntries_refused {subject : TransferSubject} {receipt : Option Response}
    {entries : List ReportEntry}
    {levels : ReceiptLevels} (h : transferEntries H parsers levels subject receipt = .ok entries)
    (hid : transferIdToBytes16 subject.transferId = .ok 0)
    (hobs : (observedTransfer parsers subject.transferId receipt).isTransfer) : ∃ e ∈ entries,
      e.Refused := by
  obtain ⟨entry, hentry, h⟩ := bind_eq_ok.mp h
  cases h
  generalize observedTransfer parsers subject.transferId receipt = observation at hentry hobs
  cases observation with
  | transfer =>
    obtain ⟨transferId, htransferId, hentry⟩ := bind_eq_ok.mp hentry
    cases hentry
    exact ⟨_, List.mem_singleton_self _, Except.ok.inj (htransferId.symm.trans hid)⟩
  | _ => exact Bool.noConfusion hobs

theorem reportEntryFor_notRoom {subject : RoomSubject} {transferId : String}
    {levels : ReceiptLevels}
    {entry : Option ReportEntry}
    (h : reportEntryFor H (.room subject) (.notRoom transferId) levels = .ok entry) :
    ∃ id, entry =
      some (.closure ⟨Contract.roomRequestKey H (roomReceiptKey H subject.room subject.channel
      subject.publication), Contract.CLOSURE_BUCKET_ONLY_PUBLICATION, id⟩) := by
  simp only [reportEntryFor] at h
  split_ifs at h
  all_goals
    obtain ⟨id, -, h⟩ := bind_eq_ok.mp h
    exact ⟨id, (Except.ok.inj h).symm⟩

theorem reportEntryFor_isRoom {subject : RoomSubject} {observation : Observation}
    {levels : ReceiptLevels}
    {entry : Option ReportEntry}
    (h : reportEntryFor H (.room subject) observation levels = .ok entry) :
    (∃ room, entry = some (.room room)) ↔ observation.isRoom := by
  cases observation with
  | room =>
    cases h
    exact ⟨fun _ => rfl, fun _ => ⟨_, rfl⟩⟩
  | notRoom transferId =>
    obtain ⟨_, rfl⟩ := reportEntryFor_notRoom h
    exact ⟨nofun, nofun⟩
  | _ =>
    cases h
    exact ⟨nofun, nofun⟩

theorem jobEntriesFor_eq_ok {subject : JobSubject} {input output : String}
    {observation observation' : Observation}
    {levels : ReceiptLevels} {entries : Option (List ReportEntry)}
    (h : jobEntriesFor H subject input output observation observation' levels = .ok entries) :
    (entries = none ∧ ¬ (observation.isRoom ∧ observation'.isRoom)) ∨
      (observation.isRoom ∧ observation'.isRoom) ∧ ∃ first second,
        reportEntryFor H (.room ⟨subject.room, subject.inputChannel, input, none⟩)
          observation levels =
          .ok (some (.room first)) ∧
        reportEntryFor H (.room ⟨subject.room, subject.outputChannel, output, none⟩)
          observation' levels =
          .ok (some (.room second)) ∧
        entries = some [.room first, .room second, .job ⟨subject.requestId,
          roomReceiptKey H subject.room subject.inputChannel input,
          roomReceiptKey H subject.room subject.outputChannel output,
            utf8 subject.computeMemberId⟩] := by
  obtain ⟨first, hfirst, h⟩ := bind_eq_ok.mp h
  obtain ⟨second, hsecond, h⟩ := bind_eq_ok.mp h
  split at h
  · cases h
    exact .inr
      ⟨⟨(reportEntryFor_isRoom hfirst).mp ⟨_, rfl⟩, (reportEntryFor_isRoom hsecond).mp ⟨_, rfl⟩⟩,
      _, _, hfirst, hsecond, rfl⟩
  · rename_i hnot
    cases h
    refine .inl ⟨rfl, fun ⟨hroom, hroom'⟩ => ?_⟩
    obtain ⟨room, rfl⟩ := (reportEntryFor_isRoom hfirst).mpr hroom
    obtain ⟨room', rfl⟩ := (reportEntryFor_isRoom hsecond).mpr hroom'
    exact hnot room room' rfl rfl

theorem NamesRoom.roomReceiptKey {room channel publication : String}
    {entry : Contract.RoomReceiptReport}
    (h : NamesRoom room channel publication entry) :
    Contract.roomReceiptKey H entry.room entry.channel entry.publication =
      Relay.roomReceiptKey H room channel publication := by
  rw [h.1, h.2.1, h.2.2, Relay.roomReceiptKey]

section Hashed
variable (hsha : ∀ bytes, H.sha256 bytes ≠ 0)
include hsha

theorem roomEntry_valid {subject : RoomSubject} {receipt : Option Response}
    {entry : Contract.RoomReceiptReport}
    (h : reportEntryFor H (.room subject) (observedRoom H parsers subject receipt)
      (receiptLevels d) =
      .ok (some (.room entry))) (l : Ledger) (hl : l.donAttested = d) : entry.Valid l := by
  generalize hobs : observedRoom H parsers subject receipt = observation at h
  cases observation with
  | room status fileSizeBytes manifestSha256 targetCount targetSigned evidenceSha256
      assignmentsSha256 evidenceVersion =>
    cases h
    obtain ⟨hstatus, htargets, ⟨bytes, rfl⟩, hversion⟩ := observedRoom_observed hobs
    refine ⟨hstatus, ?_, hversion, hsha bytes⟩
    simp only [Ledger.roomReceiptLevel, Ledger.roomSignedReceiptLevel, Ledger.attestationLevel, hl,
      receiptLevels]
    cases targetSigned with
    | true => exact .inr ⟨rfl, htargets rfl⟩
    | false => exact .inl rfl
  | notRoom transferId =>
    obtain ⟨_, h⟩ := reportEntryFor_notRoom h
    cases h
  | _ => cases h

theorem roomEntries_takeable (hkeccak : ∀ words, H.keccak256 words ≠ 0) {subject : RoomSubject}
    {receipt : Option Response} {entries : List ReportEntry}
    (h : roomEntries H parsers (receiptLevels d) subject receipt = .ok entries) :
      Takeable H d entries := by
  obtain ⟨found?, hentry, h⟩ := bind_eq_ok.mp h
  cases h
  cases found? with
  | none => exact .nil
  | some entry =>
    cases entry with
    | room entry => exact .single (roomEntry_valid hsha hentry) fun job hjob => by cases hjob
    | closure entry =>
      generalize observedRoom H parsers subject receipt = observation at hentry
      cases observation with
      | notRoom transferId =>
        obtain ⟨_, hentry⟩ := reportEntryFor_notRoom hentry
        cases hentry
        exact .single (fun l _ => ⟨hkeccak _, rfl⟩) fun job hjob => by cases hjob
      | _ => cases hentry
    | standard entry => exact (reportEntryFor_entryOf hentry).elim
    | job entry => exact (reportEntryFor_entryOf hentry).elim

theorem jobEntries_takeable {subject : JobSubject} {replies : Replies} {entries : List ReportEntry}
    (h : jobEntries H parsers (receiptLevels d) subject replies = .ok entries)
    (hrequest : subject.requestId ≠ 0) (hmember : isMemberId subject.computeMemberId)
    (hdistinct : ∀ input output, lookedUp parsers replies.lookup = .found input →
      lookedUp parsers replies.outputLookup = .found output →
      (observedRoom H parsers ⟨subject.room, subject.inputChannel, input, none⟩
        replies.receipt).isRoom →
      (observedRoom H parsers ⟨subject.room, subject.outputChannel, output, none⟩
        replies.outputReceipt).isRoom →
      roomReceiptKey H subject.room subject.inputChannel input ≠
        roomReceiptKey H subject.room subject.outputChannel output) :
    Takeable H d entries := by
  unfold jobEntries at h
  split at h
  · rename_i input output hinput houtput
    obtain ⟨found, hfound, h⟩ := bind_eq_ok.mp h
    cases h
    rcases jobEntriesFor_eq_ok hfound with ⟨rfl, -⟩ |
      ⟨⟨hroom, hroom'⟩, first, second, hfirst, hsecond, rfl⟩
    · exact .nil
    refine ⟨fun l hl e he => ?_, fun recorded => ?_⟩
    · simp only [Option.getD_some, List.mem_cons, List.not_mem_nil, or_false] at he
      rcases he with rfl | rfl | rfl
      · exact roomEntry_valid hsha hfirst l hl
      · exact roomEntry_valid hsha hsecond l hl
      · have hlength := utf8_length_memberId hmember
        refine ⟨hrequest, hdistinct input output hinput houtput hroom hroom', ?_, ?_⟩
        · show (utf8 subject.computeMemberId).length ≠ 0
          rw [hlength]
          decide
        · show (utf8 subject.computeMemberId).length ≤ _
          rw [hlength]
          decide
    · exact .job (NamesRoom.roomReceiptKey (reportEntryFor_entryOf hfirst))
        (NamesRoom.roomReceiptKey (reportEntryFor_entryOf hsecond))
  · cases h
    exact .nil

end Hashed

theorem jobEntries_refused {subject : JobSubject} {replies : Replies} {entries : List ReportEntry}
    {levels : ReceiptLevels}
    (h : jobEntries H parsers levels subject replies = .ok entries) {publication : String}
    (hchannel : subject.outputChannel = subject.inputChannel)
    (hinput : lookedUp parsers replies.lookup = .found publication)
    (houtput : lookedUp parsers replies.outputLookup = .found publication)
    (hroom : (observedRoom H parsers ⟨subject.room, subject.inputChannel, publication, none⟩
      replies.receipt).isRoom)
    (hroom' : (observedRoom H parsers ⟨subject.room, subject.inputChannel, publication, none⟩
      replies.outputReceipt).isRoom) : ∃ e ∈ entries, e.Refused := by
  simp only [jobEntries, hinput, houtput, hchannel] at h
  obtain ⟨found, hfound, h⟩ := bind_eq_ok.mp h
  cases h
  rcases jobEntriesFor_eq_ok hfound with ⟨-, hnot⟩ | ⟨-, first, second, -, -, rfl⟩
  · exact absurd ⟨hroom, hchannel ▸ hroom'⟩ hnot
  · refine ⟨_, List.mem_of_getLast? (l := [_, _, _]) rfl, ?_⟩
    show roomReceiptKey H _ _ _ = roomReceiptKey H _ _ _
    rw [hchannel]

end Subjects

/-- What a writer reads of an open request; its texts are whatever the decoder makes of the bytes.
-/
structure OpenRequest.ReadFrom (request : OpenRequest) (held : Contract.OpenRequest) : Prop where
  key : request.key = held.key
  kind : request.kind = held.kind.code
  transferKind : request.transferKind = held.transferKind.code
  requester : request.requester = held.requester
  openedAt : request.openedAt = held.openedAt
  requestId : request.requestId = held.requestId
  transferId : request.transferId = held.transferId

namespace Asked
variable (H : Hashes) (parsers : Parsers) (routes : DeploymentRoutes)

def Held : Asked → Prop
  | .request opened _ => ∃ s, (Contract.contract H).Reachable s ∧
      ∃ key, opened.ReadFrom (s.openRequests key)
  | _ => True

def KeysApart : Asked → Prop
  | .request _ replies => ∀ delivery output input result, routes.roomDelivery = some delivery →
    routes.jobOutput = some output → lookedUp parsers replies.lookup = .found input →
    lookedUp parsers replies.outputLookup = .found result →
    roomReceiptKey H delivery.room delivery.channel input =
      roomReceiptKey H delivery.room output.channel result →
    delivery.channel = output.channel ∧ input = result
  | _ => True

/-- A job whose input and output are one finished publication of one channel, or a finished
transfer that is named by the zero id. -/
def Blocks : Asked → Prop
  | .request opened replies =>
    opened.kind = RequestKind.transfer.code ∧ opened.transferKind = TransferKind.job.code ∧
    ∃ delivery output publication, routes.roomDelivery = some delivery ∧
      routes.jobOutput = some output ∧
      output.channel = delivery.channel ∧ lookedUp parsers replies.lookup = .found publication ∧
      lookedUp parsers replies.outputLookup = .found publication ∧
      (observedRoom H parsers ⟨delivery.room, delivery.channel, publication, none⟩
        replies.receipt).isRoom ∧
      (observedRoom H parsers ⟨delivery.room, delivery.channel, publication, none⟩
        replies.outputReceipt).isRoom
  | .transfer subject receipt =>
    transferIdToBytes16 subject.transferId = .ok 0 ∧
      (observedTransfer parsers subject.transferId receipt).isTransfer
  | .room _ _ => False

end Asked

section Asked
variable {H : Hashes} {parsers : Parsers} {d : Bool} {clientId : String} {routes : DeploymentRoutes}

theorem subjectForOpenRequest_transferId {request : OpenRequest} {subject : TransferSubject}
    {held : Contract.OpenRequest} (hread : request.ReadFrom held) (hnamed : held.Named)
    (h : subjectForOpenRequest H clientId routes request = .ok (some (.transfer subject))) :
    transferIdToBytes16 subject.transferId ≠ .ok 0 := by
  unfold subjectForOpenRequest at h
  split_ifs at h with hkind _ _ _ hreceipt
  · cases hroute : routes.roomDelivery <;> rw [hroute] at h <;> cases h
  · split at h <;> cases h
  · cases h
  · obtain ⟨transferId, htransferId, h⟩ := bind_eq_ok.mp h
    rw [← Subject.transfer.inj (Option.some.inj (Except.ok.inj h))]
    obtain ⟨text, -, hid⟩ := bind_eq_ok.mp htransferId
    simp only [transferIdForIdempotencyKey] at hid
    split_ifs at hid
    rw [← Except.ok.inj hid, transferIdToBytes16_bytes16ToTransferId]
    exact fun hzero => uuidOfDigest_ne_zero _ (Except.ok.inj hzero)
  · rw [← Subject.transfer.inj (Option.some.inj (Except.ok.inj h)),
      transferIdToBytes16_bytes16ToTransferId,
      hread.transferId]
    have hheld : held.kind = .receipt := by
      have hcode : held.kind.code = RequestKind.receipt.code := hread.kind ▸ hreceipt
      revert hcode
      cases held.kind <;> decide
    exact fun hzero => hnamed.2 hheld (Except.ok.inj hzero)
  · cases h

theorem subjectForOpenRequest_job {request : OpenRequest} {subject : JobSubject}
    (h : subjectForOpenRequest H clientId routes request = .ok (some (.job subject))) :
    request.kind = RequestKind.transfer.code ∧ request.transferKind = TransferKind.job.code ∧
      ∃ delivery output, routes.roomDelivery = some delivery ∧ routes.jobOutput = some output ∧
        subject = ⟨delivery.room, delivery.channel, delivery.publisherMemberId, output.channel,
          output.computeMemberId,
          request.requestId⟩ := by
  unfold subjectForOpenRequest at h
  split_ifs at h with hkind _ hjob
  · cases hroute : routes.roomDelivery <;> rw [hroute] at h <;> cases h
  · split at h
    · rename_i delivery output hdelivery houtput
      cases h
      exact ⟨hkind, hjob, delivery, output, hdelivery, houtput, rfl⟩
    · cases h
  · cases h
  · obtain ⟨transferId, -, h⟩ := bind_eq_ok.mp h
    cases h
  · cases h
  · cases h

theorem subjectForOpenRequest_requestId {request : OpenRequest} {held : Contract.OpenRequest}
    (hread : request.ReadFrom held) (hnamed : held.Named)
    (hkind : request.kind = RequestKind.transfer.code) :
    request.requestId ≠ 0 := by
  have hheld : held.kind = .transfer := by
    have hcode : held.kind.code = RequestKind.transfer.code := hread.kind ▸ hkind
    revert hcode
    cases held.kind <;> decide
  exact hread.requestId ▸ hnamed.1 hheld

theorem askedEntries_takeable (hsha : ∀ bytes, H.sha256 bytes ≠ 0)
    (hkeccak : ∀ words, H.keccak256 words ≠ 0)
    (hroutes : routes.Accepted) {asked : Asked} {entries : List ReportEntry} (hheld : asked.Held H)
    (hkeys : asked.KeysApart H parsers routes) (hblocks : ¬ asked.Blocks H parsers routes)
    (h : askedEntries H parsers (receiptLevels d) clientId routes asked = .ok entries) :
      Takeable H d entries := by
  cases asked with
  | transfer subject receipt =>
    exact transferEntries_takeable h fun hid => Bool.eq_false_iff.mpr fun hobs =>
      hblocks ⟨hid, hobs⟩
  | room subject receipt => exact roomEntries_takeable hsha hkeccak h
  | request request replies =>
    obtain ⟨s, hs, key, hread⟩ := hheld
    have hnamed := Contract.reachable_named hs key
    obtain ⟨subject?, hsubject, h⟩ := bind_eq_ok.mp h
    cases subject? with
    | none =>
      cases h
      exact .nil
    | some subject =>
      cases subject with
      | transfer subject =>
        exact transferEntries_takeable h fun hid =>
          absurd hid (subjectForOpenRequest_transferId hread hnamed hsubject)
      | room subject => exact roomEntries_takeable hsha hkeccak h
      | roomRequest subject =>
        simp only [subjectEntries] at h
        split at h
        · cases h
          exact .nil
        · exact roomEntries_takeable hsha hkeccak h
      | job subject =>
        obtain ⟨hkind, hjob, delivery, output, hdelivery, houtput, rfl⟩ :=
          subjectForOpenRequest_job hsubject
        refine jobEntries_takeable hsha h (subjectForOpenRequest_requestId hread hnamed hkind)
          (hroutes.jobOutput output houtput).2 fun input result hinput hresult hroom hroom' heq =>
            hblocks ?_
        obtain ⟨hchannel, rfl⟩ :=
          hkeys delivery output input result hdelivery houtput hinput hresult heq
        exact ⟨hkind, hjob, delivery, output, input, hdelivery, houtput, hchannel.symm, hinput,
          hresult, hroom,
          hchannel ▸ hroom'⟩

theorem askedEntries_refused {levels : ReceiptLevels} {asked : Asked} {entries : List ReportEntry}
    (hblocks : asked.Blocks H parsers routes)
    (h : askedEntries H parsers levels clientId routes asked = .ok entries) : ∃ e ∈ entries,
      e.Refused := by
  cases asked with
  | transfer subject receipt => exact transferEntries_refused h hblocks.1 hblocks.2
  | room subject receipt => exact hblocks.elim
  | request request replies =>
    obtain ⟨hkind, hjob, delivery, output, publication, hdelivery, houtput, hchannel, hinput,
      hresult, hroom, hroom'⟩ :=
      hblocks
    have hsubject : subjectForOpenRequest H clientId routes request =
        .ok (some (.job ⟨delivery.room, delivery.channel,
        delivery.publisherMemberId, output.channel, output.computeMemberId,
          request.requestId⟩)) := by
      unfold subjectForOpenRequest
      rw [if_pos hkind, if_neg (by rw [hjob]; decide), if_pos hjob, hdelivery, houtput]
    obtain ⟨subject?, hsubject', h⟩ := bind_eq_ok.mp h
    cases hsubject.symm.trans hsubject'
    exact jobEntries_refused h hchannel hinput hresult hroom hroom'

theorem formed_takeable {asked : List Asked} {entries : List ReportEntry} {levels : ReceiptLevels}
    (h : formed H parsers levels clientId routes asked = .ok entries)
    (hasked : ∀ a ∈ asked, ∀ es, askedEntries H parsers levels clientId routes a = .ok es →
      Takeable H d es) :
    Takeable H d entries := by
  induction asked generalizing entries with
  | nil =>
    cases h
    exact .nil
  | cons a rest ih =>
    obtain ⟨first, hfirst, h⟩ := bind_eq_ok.mp h
    obtain ⟨others, hothers, h⟩ := bind_eq_ok.mp h
    cases h
    exact (hasked a (List.mem_cons_self ..) first hfirst).append
      (ih hothers fun b hb => hasked b (List.mem_cons_of_mem _ hb))

theorem mem_formed {asked : List Asked} {entries : List ReportEntry} {levels : ReceiptLevels}
    (h : formed H parsers levels clientId routes asked = .ok entries) {a : Asked} (ha : a ∈ asked) :
    ∃ es, askedEntries H parsers levels clientId routes a = .ok es ∧ ∀ e ∈ es, e ∈ entries := by
  induction asked generalizing entries with
  | nil => exact absurd ha List.not_mem_nil
  | cons b rest ih =>
    obtain ⟨first, hfirst, h⟩ := bind_eq_ok.mp h
    obtain ⟨others, hothers, h⟩ := bind_eq_ok.mp h
    cases h
    rcases List.mem_cons.mp ha with rfl | ha
    · exact ⟨first, hfirst, fun e he => List.mem_append_left _ he⟩
    · obtain ⟨es, hes, hmem⟩ := ih hothers ha
      exact ⟨es, hes, fun e he => List.mem_append_right _ (hmem e he)⟩

section Sample

def samplePublication (letter : Char) : String :=
    String.ofList ("btr_pub_".toList ++ List.replicate 26 letter)

def sampleMember : String := String.ofList ("btr_member_".toList ++ List.replicate 26 'm')

/-- The text of a publication's finished Room receipt, and of the lookup that finds the
publication. -/
def sampleEnvelopeBody (channel publication : String) : Bytes :=
  utf8 ("\x7b\"assignment_count\":0,\"assignments_sha256\":\"" ++
    String.ofList (List.replicate 64 '1') ++
    "\",\"channel_id\":\"" ++ channel ++ "\",\"chunk_count\":1,\"chunk_size_bytes\":4096," ++
    "\"evidence_version\":\"beam-room-receipt-evidence/v1\",\"file_size_bytes\":\"4096\",\"manifest_sha256\":null," ++
    "\"protection\":null,\"publication_id\":\"" ++ publication ++
      "\",\"room_id\":\"r\",\"status\":\"completed\"," ++
    "\"targets\":[],\"transfer_id\":\"t\"\x7d")

def sampleLookupBody (publication : String) : Bytes :=
    utf8 ("\x7b\"publication_id\":\"" ++ publication ++ "\"\x7d")

def sampleEnvelope (channel publication : String) : List (String × Json) :=
  [("assignment_count", .number 0),
    ("assignments_sha256", .string (String.ofList (List.replicate 64 '1'))),
    ("channel_id", .string channel), ("chunk_count", .number 1), ("chunk_size_bytes", .number 4096),
    ("evidence_version", .string "beam-room-receipt-evidence/v1"),
      ("file_size_bytes", .string "4096"),
    ("manifest_sha256", .null), ("protection", .null), ("publication_id", .string publication),
      ("room_id", .string "r"),
    ("status", .string "completed"), ("targets", .array []), ("transfer_id", .string "t")]

def sampleLookup (publication : String) : List (String × Json) :=
    [("publication_id", .string publication)]

def sampleObject (body : Bytes) : Option (List (String × Json)) :=
  if body = sampleLookupBody (samplePublication 'a') then
    some (sampleLookup (samplePublication 'a'))
  else if body = sampleLookupBody (samplePublication 'b') then
    some (sampleLookup (samplePublication 'b'))
  else if body = sampleEnvelopeBody "c" (samplePublication 'a') then
    some (sampleEnvelope "c" (samplePublication 'a'))
  else if body = sampleEnvelopeBody "o" (samplePublication 'b') then
    some (sampleEnvelope "o" (samplePublication 'b'))
  else none

theorem sampleObject_arrays {body : Bytes} {members : List (String × Json)}
    (h : sampleObject body = some members) :
    ∀ member ∈ members, ∀ items, member.2 = .array items → items = [] := by
  unfold sampleObject at h
  split_ifs at h
  all_goals
    cases h
    simp [sampleLookup, sampleEnvelope]

def sampleParsers : Parsers where
  parseJson body := (sampleObject body).map .object
  parseDate _ := none
  array_length := by
    intro body members name items hbody hitems
    obtain ⟨members', hmembers, hobject⟩ := Option.map_eq_some_iff.mp hbody
    cases hobject
    rw [sampleObject_arrays hmembers _ (OrderedMap.mem_of_get hitems) items rfl]
    decide

/-- The digests of the two publications' Room receipt keys and of their evidence; the others are
made up, and not zero. -/
def sampleWriterHashes : Hashes where
  keccak256 words :=
    if words = Abi.encodeStrings [utf8 "r", utf8 "c", utf8 (samplePublication 'a')] then
      0x1159f24ccd3215186e64cb2db93c03911f61e3318a8222fc2d85f9e81cedf37e
    else if words = Abi.encodeStrings [utf8 "r", utf8 "o", utf8 (samplePublication 'b')] then
      0x47a7127a6e1d7f85fedd6e3a237e8e34f49879997bf68cde42bb5fe943c987c7
    else if Contract.sampleDigest words = 0 then 1
    else Contract.sampleDigest words
  sha256 bytes :=
    if bytes = utf8 "beam:room-receipt-evidence:v1\x00" ++
      sampleEnvelopeBody "c" (samplePublication 'a') then
      0x20148ce5c808522482d900ace6241553976b8e955fdb2e9928798ad5f60e4814
    else if bytes = utf8 "beam:room-receipt-evidence:v1\x00" ++
      sampleEnvelopeBody "o" (samplePublication 'b') then
      0x52519e31305b3e9942de18fd1fadcf302d8f3c6e03f3e66050d11f1a9ccb1dd9
    else if Contract.sampleHashes.sha256 bytes = 0 then 1
    else Contract.sampleHashes.sha256 bytes

theorem sampleWriterHashes_sha256 (bytes : Bytes) : sampleWriterHashes.sha256 bytes ≠ 0 := by
  simp only [sampleWriterHashes]
  split_ifs with _ _ h
  · decide
  · decide
  · decide
  · exact h

theorem sampleWriterHashes_keccak256 (words : List Bytes32) :
    sampleWriterHashes.keccak256 words ≠ 0 := by
  simp only [sampleWriterHashes]
  split_ifs with _ _ h
  · decide
  · decide
  · decide
  · exact h

def sampleRoutes (channel : String) : DeploymentRoutes where
  roomDelivery := some ⟨"r", "c", sampleMember⟩
  jobOutput := some ⟨channel, sampleMember⟩

def sampleRequested : Contract.State :=
    Contract.sampleDeployed.run sampleWriterHashes Contract.sampleRequests

theorem sampleRequested_reachable :
    (Contract.contract sampleWriterHashes).Reachable sampleRequested :=
  ⟨Contract.sampleDeployed, ⟨_, _, _, _, Contract.sampleDeployed_init⟩, Contract.later_run _ _ _⟩

def sampleJobRequest : OpenRequest where
  key := Contract.transferRequestKey sampleWriterHashes 8
  kind := 1
  transferKind := 3
  requester := 1
  openedAt := 102
  requestId := 8
  transferId := 0
  room := ""
  channel := ""
  publication := ""

/-- The job whose output is a publication of `channel`, both its publications finished. -/
def sampleAsked (channel publication : String) : Asked :=
  .request sampleJobRequest {
    lookup := some ⟨200, sampleLookupBody (samplePublication 'a')⟩
    outputLookup := some ⟨200, sampleLookupBody publication⟩
    receipt := some ⟨200, sampleEnvelopeBody "c" (samplePublication 'a')⟩
    outputReceipt := some ⟨200, sampleEnvelopeBody channel publication⟩ }

def sampleRoomEntry (channel publication : String) (evidenceSha256 : Bytes32) : ReportEntry :=
  .room ⟨utf8 "r", utf8 channel, utf8 publication, 0, 1, 4096, 0, 0, evidenceSha256,
    0x1111111111111111111111111111111111111111111111111111111111111111, 1, 1⟩

theorem sampleRoutes_accepted (channel : String) (h : isRoomId channel) :
    (sampleRoutes channel).Accepted where
  roomDelivery := by
    rintro route ⟨⟩
    exact (by decide +kernel : isRoomId "r" ∧ isRoomId "c" ∧ isMemberId sampleMember)
  jobOutput := by
    rintro route ⟨⟩
    exact ⟨h, (by decide +kernel : isMemberId sampleMember)⟩
  delivered _ := rfl

theorem sampleAsked_held (channel publication : String) :
    (sampleAsked channel publication).Held sampleWriterHashes :=
  ⟨sampleRequested, sampleRequested_reachable, sampleJobRequest.key,
    by constructor <;> decide +kernel⟩

/-- The entries of the job whose output is in the channel `o`. -/
def sampleEntries : List ReportEntry :=
  [sampleRoomEntry "c" (samplePublication 'a') 0x20148ce5c808522482d900ace6241553976b8e955fdb2e9928798ad5f60e4814,
    sampleRoomEntry "o" (samplePublication 'b') 0x52519e31305b3e9942de18fd1fadcf302d8f3c6e03f3e66050d11f1a9ccb1dd9,
    .job ⟨8, 0x1159f24ccd3215186e64cb2db93c03911f61e3318a8222fc2d85f9e81cedf37e,
      0x47a7127a6e1d7f85fedd6e3a237e8e34f49879997bf68cde42bb5fe943c987c7, utf8 sampleMember⟩]

theorem sampleAsked_keysApart :
    (sampleAsked "o" (samplePublication 'b')).KeysApart sampleWriterHashes sampleParsers
      (sampleRoutes "o") := by
  rintro delivery output input result ⟨⟩ ⟨⟩ hinput hresult heq
  have hinput' : lookedUp sampleParsers (some ⟨200, sampleLookupBody (samplePublication 'a')⟩) =
      .found (samplePublication 'a') := by decide +kernel
  have hresult' : lookedUp sampleParsers (some ⟨200, sampleLookupBody (samplePublication 'b')⟩) =
      .found (samplePublication 'b') := by decide +kernel
  rw [← PublicationLookup.found.inj (hinput'.symm.trans hinput),
    ← PublicationLookup.found.inj (hresult'.symm.trans hresult)] at heq
  exact absurd heq (by decide +kernel)

def sampleBlocking : List ReportEntry :=
  let entry := sampleRoomEntry "c" (samplePublication 'a')
    0x20148ce5c808522482d900ace6241553976b8e955fdb2e9928798ad5f60e4814
  let key := 0x1159f24ccd3215186e64cb2db93c03911f61e3318a8222fc2d85f9e81cedf37e
  [entry, entry, .job ⟨8, key, key, utf8 sampleMember⟩]

/-- A configuration the schemas accept, whose job output is the channel and the member of its Room
deliveries: the contract refuses the report that the answers make, with an open request it holds.
-/
theorem job_on_one_publication :
    (sampleRoutes "c").Accepted ∧
      (sampleAsked "c" (samplePublication 'a')).Held sampleWriterHashes ∧
      (∀ bytes, sampleWriterHashes.sha256 bytes ≠ 0) ∧
        (∀ words, sampleWriterHashes.keccak256 words ≠ 0) ∧
      formed sampleWriterHashes sampleParsers (receiptLevels false) "client" (sampleRoutes "c")
        [sampleAsked "c" (samplePublication 'a')] = .ok sampleBlocking ∧
      ∀ t, Contract.processReport sampleWriterHashes sampleRequested
        ⟨some Contract.REPORT_VERSION, some (reportOfEntries sampleBlocking)⟩ ≠ .ok t := by
  refine ⟨sampleRoutes_accepted "c" (by decide +kernel), sampleAsked_held _ _,
    sampleWriterHashes_sha256,
    sampleWriterHashes_keccak256, by decide +kernel, fun t ht => ?_⟩
  have hjob : ReportEntry.job ⟨8, _, _, utf8 sampleMember⟩ ∈ sampleBlocking :=
    List.mem_of_getLast? (l := [_, _, _]) rfl
  exact (Contract.processEntries_refuses ht).2 _ (mem_jobs.mpr hjob) rfl

end Sample

/-- Reports formed from the answers to anything asked go through, in any cut and with anything in
between, exactly when nothing asked blocks them. -/
theorem formed_accepted_iff (hsha : ∀ bytes, H.sha256 bytes ≠ 0)
    (hkeccak : ∀ words, H.keccak256 words ≠ 0)
    (hroutes : routes.Accepted) {asked : List Asked} (hheld : ∀ a ∈ asked, a.Held H)
    (hkeys : ∀ a ∈ asked, a.KeysApart H parsers routes) {entries : List ReportEntry}
    (hformed : formed H parsers (receiptLevels d) clientId routes asked = .ok entries)
    {groups : List (List ReportEntry)} (hgroups : groups.flatten = entries) {s : Contract.State}
    (hs : (Contract.contract H).Reachable s) (hd : s.donAttested = d) :
    Accepts H s groups ↔ ∀ a ∈ asked, ¬ a.Blocks H parsers routes := by
  constructor
  · intro haccepts a ha hblocks
    obtain ⟨es, hes, hmem⟩ := mem_formed hformed ha
    obtain ⟨e, he, hrefused⟩ := askedEntries_refused hblocks hes
    exact haccepts.not_refused (hgroups ▸ hmem e he) hrefused
  · intro hclear
    have htake : Takeable H d groups.flatten := hgroups ▸ formed_takeable hformed fun a ha es hes =>
      askedEntries_takeable hsha hkeccak hroutes (hheld a ha) (hkeys a ha) (hclear a ha) hes
    exact accepts_of_valid (Contract.reachable_refines hs).1
      (fun e he l hl => htake.valid l (hl.trans hd) e he)
      (htake.linked _)

/-- The job whose output is in another channel, its three entries cut over two reports. -/
theorem sample_accepted :
    ((∀ bytes, sampleWriterHashes.sha256 bytes ≠ 0) ∧
      (∀ words, sampleWriterHashes.keccak256 words ≠ 0) ∧
      (sampleRoutes "o").Accepted ∧
        (∀ a ∈ [sampleAsked "o" (samplePublication 'b')], a.Held sampleWriterHashes) ∧
      (∀ a ∈ [sampleAsked "o" (samplePublication 'b')],
        a.KeysApart sampleWriterHashes sampleParsers (sampleRoutes "o")) ∧
      formed sampleWriterHashes sampleParsers (receiptLevels false) "client" (sampleRoutes "o")
        [sampleAsked "o" (samplePublication 'b')] = .ok sampleEntries ∧
      (Contract.contract sampleWriterHashes).Reachable sampleRequested ∧
        sampleRequested.donAttested = false) ∧
    (Accepts sampleWriterHashes sampleRequested [sampleEntries.take 2, sampleEntries.drop 2] ↔
      ∀ a ∈ [sampleAsked "o" (samplePublication 'b')],
        ¬ a.Blocks sampleWriterHashes sampleParsers (sampleRoutes "o")) := by
  have hroutes := sampleRoutes_accepted "o" (by decide +kernel)
  have hheld : ∀ a ∈ [sampleAsked "o" (samplePublication 'b')], a.Held sampleWriterHashes := by
    intro a ha
    rw [List.mem_singleton.mp ha]
    exact sampleAsked_held _ _
  have hkeys : ∀ a ∈ [sampleAsked "o" (samplePublication 'b')],
      a.KeysApart sampleWriterHashes sampleParsers (sampleRoutes "o") := by
    intro a ha
    rw [List.mem_singleton.mp ha]
    exact sampleAsked_keysApart
  have hformed : formed sampleWriterHashes sampleParsers
      (receiptLevels false) "client" (sampleRoutes "o")
      [sampleAsked "o" (samplePublication 'b')] = .ok sampleEntries := by decide +kernel
  exact ⟨⟨sampleWriterHashes_sha256, sampleWriterHashes_keccak256, hroutes, hheld, hkeys, hformed,
      sampleRequested_reachable, rfl⟩,
    formed_accepted_iff sampleWriterHashes_sha256 sampleWriterHashes_keccak256 hroutes hheld
      hkeys hformed
      rfl sampleRequested_reachable rfl⟩

end Asked

end Beam.Relay
