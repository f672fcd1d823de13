import BeamSdk.Contract.Guarantees

/-! What the contract's events tell: an index built from the log alone, and that it says of the open
requests, the records and the settings what the storage says. -/

namespace Beam.Contract

def OpenRequest.logged (r : OpenRequest) : OpenRequest := { r with openedAt := 0 }

def StandardReceipt.logged (r : StandardReceipt) : StandardReceipt :=
  { r with planFingerprint := 0, coordinateChecksum := 0, completedAtMs := 0 }

def RoomReceipt.logged (r : RoomReceipt) : RoomReceipt :=
  { r with manifestSha256 := 0, assignmentsSha256 := 0, targetCount := 0, evidenceVersion := 0 }

def JobResult.logged (j : JobResult) : JobResult :=
    { j with inputManifestSha256 := 0, outputManifestSha256 := 0 }

def Ledger.logged (l : Ledger) : Ledger where
  openRequests := OpenRequest.logged ∘ l.openRequests
  receipts := StandardReceipt.logged ∘ l.receipts
  roomReceipts := RoomReceipt.logged ∘ l.roomReceipts
  transferIdForRequest := l.transferIdForRequest
  roomKeyForRequest := l.roomKeyForRequest
  jobs := JobResult.logged ∘ l.jobs
  donAttested := l.donAttested

/-- What a reader of the log keeps. Whether a key is open it knows from its record, which is zero
when it is not. -/
structure Index extends Ledger where
  requesters : Address → Bool
  staleAfter : UInt64
  owner : Address
  forwarderAddress : Address
  expectedAuthor : Address
  expectedWorkflowName : Bytes10
  expectedWorkflowId : Bytes32

def State.index (s : State) : Index where
  toLedger := s.toLedger.logged
  requesters := s.requesters
  staleAfter := s.staleAfter
  owner := s.owner
  forwarderAddress := s.forwarderAddress
  expectedAuthor := s.expectedAuthor
  expectedWorkflowName := s.expectedWorkflowName
  expectedWorkflowId := s.expectedWorkflowId

namespace Index

/-- Before the first event. Whether reports are DON-signed is fixed at deployment and not logged. -/
def blank (donAttested : Bool) : Index where
  toLedger := Ledger.blank donAttested
  requesters := fun _ => false
  staleAfter := 0
  owner := 0
  forwarderAddress := 0
  expectedAuthor := 0
  expectedWorkflowName := 0
  expectedWorkflowId := 0

variable (i : Index)

def isOpen (key : Bytes32) : Prop := (i.openRequests key).kind ≠ .none

def isRequester (account : Address) : Prop := account = i.owner ∨ i.requesters account = true

def act (a : Act) : Index := { i with toLedger := i.toLedger.apply a }

def opened (key : Bytes32) (request : OpenRequest) : Index := i.act (.opened key request)

def closed (key : Bytes32) : Index := i.act (.closed key)

/-- A bound transfer whose receipt is recorded and names no request id comes to name this one. -/
def named (transferId : Bytes16) (requestId : Bytes32) : Index :=
  if (i.receipts transferId).status ≠ .none ∧ (i.receipts transferId).requestId = 0 then
    i.act (.linked transferId requestId)
  else i

variable (H : Hashes)

def answerable (requestId : Bytes32) (kind : TransferKind) : Prop :=
  requestId ≠ 0 ∧ ¬ i.isAnswered requestId ∧
    (i.isOpen (transferRequestKey H requestId) →
      (i.openRequests (transferRequestKey H requestId)).transferKind = kind)

def apply : Event → Index
  | .transferRequested requestId requester kind _ =>
    i.opened (transferRequestKey H requestId) { OpenRequest.zero with
      key := transferRequestKey H requestId
      kind := .transfer
      transferKind := kind
      requester := requester
      requestId := requestId }
  | .receiptRequested transferId requester =>
    i.opened (receiptRequestKey H transferId) { OpenRequest.zero with
      key := receiptRequestKey H transferId
      kind := .receipt
      requester := requester
      transferId := transferId }
  | .roomReceiptRequested roomKey requester room channel publication =>
    i.opened (roomRequestKey H roomKey) { OpenRequest.zero with
      key := roomRequestKey H roomKey
      kind := .roomReceipt
      requester := requester
      room := room
      channel := channel
      publication := publication }
  | .requestCancelled key _ => i.closed key
  | .requestClosed key _ _ => i.closed key
  | .requestAnswered requestId transferId =>
    ((i.closed (transferRequestKey H requestId)).act (.bound requestId transferId)).named
      transferId requestId
  | .receiptRecorded transferId requestId status totalBytes bytesTransferred level =>
    (i.closed (receiptRequestKey H transferId)).act
      (.recorded transferId { StandardReceipt.zero with
      requestId := requestId
      totalBytes := totalBytes
      bytesTransferred := bytesTransferred
      status := status
      level := level })
  | .roomRequestAnswered requestId roomKey =>
    (i.closed (transferRequestKey H requestId)).act (.roomBound requestId roomKey)
  | .roomReceiptRecorded roomKey _ _ _ _ status fileSizeBytes evidenceSha256 level =>
    (i.closed (roomRequestKey H roomKey)).act (.roomRecorded roomKey { RoomReceipt.zero with
      evidenceSha256 := evidenceSha256
      fileSizeBytes := fileSizeBytes
      status := status
      level := level })
  | .jobRecorded requestId inputRoomKey outputRoomKey computeMember status level =>
    (i.closed (transferRequestKey H requestId)).act (.jobRecorded requestId { JobResult.zero with
      inputRoomKey := inputRoomKey
      outputRoomKey := outputRoomKey
      computeMember := computeMember
      status := status
      level := level })
  | .requesterUpdated requester allowed =>
      { i with requesters := Function.update i.requesters requester allowed }
  | .staleAfterUpdated _ newSeconds => { i with staleAfter := newSeconds }
  | .forwarderAddressUpdated _ newForwarder => { i with forwarderAddress := newForwarder }
  | .expectedAuthorUpdated _ newAuthor => { i with expectedAuthor := newAuthor }
  | .expectedWorkflowNameUpdated _ newName => { i with expectedWorkflowName := newName }
  | .expectedWorkflowIdUpdated _ newId => { i with expectedWorkflowId := newId }
  | .securityWarning => i
  | .ownershipTransferred _ newOwner => { i with owner := newOwner }

def allows : Event → Prop
  | .transferRequested requestId requester kind input =>
    i.isRequester requester ∧ requestId ≠ 0 ∧ kind ≠ .none ∧ input.length ≤ MAX_INPUT_BYTES ∧
      ¬ i.isOpen (transferRequestKey H requestId) ∧ ¬ i.isAnswered requestId
  | .receiptRequested transferId requester =>
    i.isRequester requester ∧ transferId ≠ 0 ∧ ¬ i.isOpen (receiptRequestKey H transferId) ∧
      ¬ i.Met (.receipt transferId)
  | .roomReceiptRequested roomKey requester room channel publication =>
    i.isRequester requester ∧ roomKey = roomReceiptKey H room channel publication ∧
      ¬ i.isOpen (roomRequestKey H roomKey) ∧ ¬ i.Met (.room roomKey)
  | .requestCancelled key by_ =>
    i.isOpen key ∧ (by_ = i.owner ∨ by_ = (i.openRequests key).requester)
  | .requestClosed key reason _ =>
    (i.openRequests key).kind = .roomReceipt ∧ reason = CLOSURE_BUCKET_ONLY_PUBLICATION
  | .requestAnswered requestId transferId => transferId ≠ 0 ∧ i.answerable H requestId .standard
  | .receiptRecorded transferId requestId status _ _ level =>
    transferId ≠ 0 ∧ ¬ i.Met (.receipt transferId) ∧ status ≠ .none ∧
      level = i.standardReceiptLevel ∧
      (requestId ≠ 0 → i.transferIdForRequest requestId = transferId)
  | .roomRequestAnswered requestId _ => i.answerable H requestId .roomDelivery
  | .roomReceiptRecorded roomKey requestId room channel publication status _ evidenceSha256 level =>
    roomKey = roomReceiptKey H room channel publication ∧ ¬ i.Met (.room roomKey) ∧ status ≠ .none ∧
      evidenceSha256 ≠ 0 ∧ (level = i.roomReceiptLevel ∨ level = i.roomSignedReceiptLevel) ∧
      (requestId ≠ 0 → i.roomKeyForRequest requestId = roomKey)
  | .jobRecorded requestId inputRoomKey outputRoomKey _ status level =>
    let input := i.roomReceipts inputRoomKey
    let output := i.roomReceipts outputRoomKey
    i.answerable H requestId .job ∧ inputRoomKey ≠ outputRoomKey ∧ input.status ≠ .none ∧
      output.status ≠ .none ∧
      status = (if input.status = .completed then output.status else input.status) ∧
      level = input.level &&& output.level
  | .requesterUpdated _ _ | .securityWarning => True
  | .staleAfterUpdated previousSeconds newSeconds => previousSeconds = i.staleAfter ∧ newSeconds ≠ 0
  | .forwarderAddressUpdated previousForwarder _ => previousForwarder = i.forwarderAddress
  | .expectedAuthorUpdated previousAuthor _ => previousAuthor = i.expectedAuthor
  | .expectedWorkflowNameUpdated previousName _ => previousName = i.expectedWorkflowName
  | .expectedWorkflowIdUpdated previousId _ => previousId = i.expectedWorkflowId
  | .ownershipTransferred previousOwner _ => previousOwner = i.owner

end Index

def indexer (H : Hashes) : System Index Event :=
  .guarded (fun i => ∃ donAttested, i = Index.blank donAttested) (Index.allows · H)
    (Index.apply · H)

variable {H : Hashes} {s t u : State}

/-- What a call does to the log: it adds events that the reader may meet and that bring it to the
new state. -/
def Logs (H : Hashes) (s t : State) : Prop :=
  ∃ events, t.events = s.events ++ events ∧ (indexer H).Runs s.index events t.index

theorem Logs.refl (s : State) : Logs H s s := ⟨[], (List.append_nil _).symm, .nil _⟩

theorem Logs.trans (h : Logs H s t) (h' : Logs H t u) : Logs H s u := by
  obtain ⟨es, hes, hr⟩ := h
  obtain ⟨fs, hfs, hr'⟩ := h'
  exact ⟨es ++ fs, by rw [hfs, hes, List.append_assoc], hr.append hr'⟩

theorem Logs.event {e : Event} (hevents : t.events = s.events ++ [e]) (hallows : s.index.allows H e)
    (hindex : t.index = s.index.apply H e) : Logs H s t := by
  have hstep : (indexer H).step s.index e t.index := ⟨hallows, hindex⟩
  exact ⟨[e], hevents, (System.Runs.nil s.index).snoc hstep⟩

/-- Two events of one call. Between them the reader is in a state that need not be one of the
contract's. -/
theorem Logs.events {e e' : Event} {i : Index} (hevents : t.events = s.events ++ [e, e'])
    (hi : i = s.index.apply H e) (hallows : s.index.allows H e) (hallows' : i.allows H e')
    (hindex : t.index = i.apply H e') : Logs H s t := by
  have hstep : (indexer H).step s.index e i := ⟨hallows, hi⟩
  have hstep' : (indexer H).step i e' t.index := ⟨hallows', hindex⟩
  exact ⟨[e, e'], hevents, ((System.Runs.nil s.index).snoc hstep).snoc hstep'⟩

theorem OpenOk.isOpen_index (h : OpenOk H s) (key : Bytes32) : s.index.isOpen key ↔
    s.openPosition key ≠ 0 := by
  have hkind : s.index.isOpen key ↔ (s.openRequests key).kind ≠ .none := Iff.rfl
  rw [hkind, ne_eq (s.openPosition key), h.position_eq_zero, not_not]
  by_cases hk : key ∈ s.openKeys
  · obtain ⟨-, d, hd, -⟩ := h.listed key hk
    refine iff_of_true (fun hnone => ?_) hk
    simp only [OpenRequest.demand, hnone, reduceCtorEq] at hd
  · refine iff_of_false (fun hne => hne ?_) hk
    rw [h.unlisted key hk]
    rfl

theorem State.index_closed (s : State) (key : Bytes32) (slots : Slots Bytes32) :
    (s.closed key slots).index = s.index.closed key := by
  simp only [State.index, State.closed, Index.closed, Index.act, Ledger.logged, Ledger.apply,
    Function.comp_update]
  rfl

theorem State.index_opened (s : State) (key : Bytes32) (request : OpenRequest) :
    (s.opened key request).index = s.index.opened key request.logged := by
  simp only [State.index, State.opened, Index.opened, Index.act, Ledger.logged, Ledger.apply,
    Function.comp_update]

theorem State.index_emit (s : State) (e : Event) : (s.emit e).index = s.index := rfl

theorem TransferKind.ofCode_ne_none {code : UInt8}
    (h : ¬ (code = TransferKind.none.code ∨ code > TransferKind.job.code)) :
      TransferKind.ofCode code ≠ .none := by
  obtain ⟨hne, hgt⟩ := not_or.mp h
  have h0 : code.toNat ≠ 0 := fun h0 => hne (UInt8.toNat_inj.mp h0)
  have h3 : code.toNat ≤ 3 := UInt8.le_iff_toNat_le.mp (UInt8.not_lt.mp hgt)
  unfold TransferKind.ofCode
  split_ifs with h1 h2 h3'
  case neg =>
    have h1' : code.toNat ≠ 1 := fun h => h1 (UInt8.toNat_inj.mp h)
    have h2' : code.toNat ≠ 2 := fun h => h2 (UInt8.toNat_inj.mp h)
    have h3'' : code.toNat ≠ 3 := fun h => h3' (UInt8.toNat_inj.mp h)
    omega
  all_goals decide

theorem openKey_logs (h : OpenOk H s) {msg : Msg} {key : Bytes32} {kind : RequestKind}
    {set : OpenRequest → OpenRequest} {e : Event} (hopen : openKey s msg key kind = .ok u)
    (hpos : s.openPosition key = 0) (hallows : s.index.allows H e)
    (happly : s.index.apply H e = s.index.opened key (set { OpenRequest.zero with
      key := key, kind := kind, requester := msg.sender }).logged)
    (hset : ∀ (r : OpenRequest) n, (set { r with openedAt := n }).logged = (set r).logged) :
    Logs H s ((u.setOpenRequest key set).emit e) := by
  obtain ⟨-, heq⟩ := openKey_eq_ok set hopen
  have hzero : s.openRequests key = OpenRequest.zero :=
    h.unlisted key ((h.position_eq_zero key).mp hpos)
  refine Logs.event ?_ hallows ?_
  · rw [heq]
    rfl
  · rw [heq, State.index_emit, State.index_opened, hzero, happly]
    exact congrArg _
      (hset { OpenRequest.zero with key := key, kind := kind, requester := msg.sender } _)

theorem requestTransfer_logs (h : OpenOk H s) {msg : Msg} {requestId : Bytes32} {kind : UInt8}
    {input : Bytes}
    (hc : requestTransfer H s msg requestId kind input = .ok t) : Logs H s t := by
  simp only [requestTransfer] at hc
  split_ifs at hc with hsender hid hkind hinput hdone
  · cases hc
    exact .refl _
  · obtain ⟨v, hopen, hc⟩ := bind_eq_ok.mp hc
    cases hc
    obtain ⟨hpos, hunmet⟩ := not_or.mp hdone
    refine openKey_logs h hopen (not_not.mp hpos) ⟨hsender, hid, TransferKind.ofCode_ne_none hkind,
      Nat.not_lt.mp hinput, ?_, hunmet⟩ rfl fun _ _ => rfl
    exact mt (h.isOpen_index _).mp hpos

theorem requestReceipt_logs (h : OpenOk H s) {msg : Msg} {transferId : Bytes16}
    (hc : requestReceipt H s msg transferId = .ok t) : Logs H s t := by
  simp only [requestReceipt] at hc
  split_ifs at hc with hsender hid hdone
  · cases hc
    exact .refl _
  · obtain ⟨v, hopen, hc⟩ := bind_eq_ok.mp hc
    cases hc
    obtain ⟨hpos, hunmet⟩ := not_or.mp hdone
    refine openKey_logs h hopen (not_not.mp hpos) ⟨hsender, hid, ?_, hunmet⟩ rfl fun _ _ => rfl
    exact mt (h.isOpen_index _).mp hpos

theorem requestRoomReceipt_logs (h : OpenOk H s) {msg : Msg} {room channel publication : Bytes}
    (hc : requestRoomReceipt H s msg room channel publication = .ok t) : Logs H s t := by
  simp only [requestRoomReceipt] at hc
  split_ifs at hc with hsender hid hdone
  · cases hc
    exact .refl _
  · obtain ⟨v, hopen, hc⟩ := bind_eq_ok.mp hc
    cases hc
    obtain ⟨hpos, hunmet⟩ := not_or.mp hdone
    refine openKey_logs h hopen (not_not.mp hpos) ⟨hsender, rfl, ?_, hunmet⟩ rfl fun _ _ => rfl
    exact mt (h.isOpen_index _).mp hpos

theorem cancelRequest_logs (h : OpenOk H s) {msg : Msg} {key : Bytes32}
    (hc : cancelRequest s msg key = .ok t) :
    Logs H s t := by
  simp only [cancelRequest] at hc
  split_ifs at hc with hpos hsender
  obtain ⟨v, hclose, hc⟩ := bind_eq_ok.mp hc
  obtain ⟨slots, hslots, -⟩ := h.closeKey key
  cases hclose.symm.trans hslots
  cases hc
  refine Logs.event rfl ⟨(h.isOpen_index key).mpr hpos, ?_⟩ (State.index_closed s key slots)
  rcases not_and_or.mp hsender with howner | hrequester
  · exact .inl (not_not.mp howner)
  · exact .inr (not_not.mp hrequester)

theorem closeRequest_logs (h : OpenOk H s) {closure : RequestClosure}
    (hc : closeRequest s closure = .ok t) :
    Logs H s t := by
  simp only [closeRequest] at hc
  split_ifs at hc with hkey hreason hdone
  · cases hc
    exact .refl _
  · obtain ⟨v, hclose, hc⟩ := bind_eq_ok.mp hc
    obtain ⟨slots, hslots, -⟩ := h.closeKey closure.key
    cases hclose.symm.trans hslots
    cases hc
    obtain ⟨-, hkind⟩ := not_or.mp hdone
    exact Logs.event rfl ⟨not_not.mp hkind, not_not.mp hreason⟩
      (State.index_closed s closure.key slots)

/-- A request id that an entry answers was answerable as far as the log tells, and its open request
is closed. -/
theorem answerRequest_answers (h : OpenOk H s) {requestId : Bytes32} {kind : TransferKind}
    (hc : answerRequest H s requestId kind = .ok (true, t)) :
    s.index.answerable H requestId kind ∧ ∃ slots,
      t = s.closed (transferRequestKey H requestId) slots := by
  rcases answerRequest_cases h hc with ⟨hfalse, -⟩ | ⟨-, hne, hun, slots, ht, -⟩
  · cases hfalse
  · refine ⟨⟨hne, hun, fun hopen => ?_⟩, slots, ht⟩
    by_contra hkind
    have hrefused : Refused H s requestId kind := .inr (.inr ⟨(h.isOpen_index _).mp hopen, hkind⟩)
    cases hc.symm.trans (answerRequest_refused hrefused)

theorem State.index_putReceipt (s : State) (transferId : Bytes16) (receipt : StandardReceipt) :
    (s.putReceipt transferId receipt).index = s.index.act
      (.recorded transferId receipt.logged) := by
  simp only [State.index, State.putReceipt, Index.act, Ledger.logged, Ledger.apply,
    Function.comp_update]

theorem State.index_putRoomReceipt (s : State) (roomKey : Bytes32) (receipt : RoomReceipt) :
    (s.putRoomReceipt roomKey receipt).index = s.index.act
      (.roomRecorded roomKey receipt.logged) := by
  simp only [State.index, State.putRoomReceipt, Index.act, Ledger.logged, Ledger.apply,
    Function.comp_update]

theorem State.index_putJob (s : State) (requestId : Bytes32) (job : JobResult) :
    (s.putJob requestId job).index = s.index.act (.jobRecorded requestId job.logged) := by
  simp only [State.index, State.putJob, State.emit, Index.act, Ledger.logged, Ledger.apply,
    Function.comp_update]

theorem storeReceipt_recorded {entry : StandardReceiptReport} {answers : Bool}
    (hc : storeReceipt H s entry answers = .ok t) (h : OpenOk H s)
    (hnone : (s.receipts entry.transferId).status = .none) :
    let e := Event.receiptRecorded entry.transferId (if answers then entry.requestId else 0)
      (Status.ofCode entry.status) entry.totalBytes entry.bytesTransferred entry.level
    t.events = s.events ++ [e] ∧ t.index = s.index.apply H e := by
  simp only [storeReceipt, ne_eq, hnone, not_true_eq_false, if_false] at hc
  obtain ⟨v, hclose, hc⟩ := bind_eq_ok.mp hc
  obtain ⟨slots, hslots, -⟩ := (h.congr (t := s.putReceipt entry.transferId
    (entry.receipt (if answers then entry.requestId else 0))) rfl rfl).closeKey
      (receiptRequestKey H entry.transferId)
  cases hclose.symm.trans hslots
  cases hc
  refine ⟨rfl, ?_⟩
  rw [State.index_emit, State.index_closed, State.index_putReceipt]
  rfl

theorem storeReceipt_kept {entry : StandardReceiptReport} {answers : Bool}
    (hc : storeReceipt H s entry answers = .ok t)
    (hrec : (s.receipts entry.transferId).status ≠ .none) :
    t.events = s.events ∧ t.index = if answers then s.index.named entry.transferId entry.requestId
      else s.index := by
  simp only [storeReceipt, if_pos hrec] at hc
  cases answers with
  | false =>
    simp only [Bool.false_eq_true, false_and, if_false] at hc
    cases hc
    exact ⟨rfl, rfl⟩
  | true =>
    simp only [true_and] at hc
    split_ifs at hc with hzero
    · cases hc
      refine ⟨rfl, ?_⟩
      have hnamed : s.index.named entry.transferId entry.requestId =
          s.index.act (.linked entry.transferId entry.requestId) := if_pos ⟨hrec, hzero⟩
      rw [if_pos rfl, hnamed, State.index_putReceipt]
      rfl
    · cases hc
      have hnamed : s.index.named entry.transferId entry.requestId = s.index :=
        if_neg fun hn => hzero hn.2
      exact ⟨rfl, by rw [if_pos rfl, hnamed]⟩

/-- Binding the request id first, as one event with the closing of its request and, for a recorded
receipt that names no request id, the naming. -/
theorem storeReceipt_bound_logs {entry : StandardReceiptReport} {slots : Slots Bytes32}
    (hid : entry.transferId ≠ 0) (hcode : Status.ofCode entry.status ≠ .none)
    (hlevel : entry.level = s.standardReceiptLevel)
    (hanswerable : s.index.answerable H entry.requestId .standard)
    (hok : OpenOk H (s.closed (transferRequestKey H entry.requestId) slots))
    (hc : storeReceipt H
      ((s.closed (transferRequestKey H entry.requestId) slots).bindTransfer entry.requestId
      entry.transferId) entry true = .ok t) : Logs H s t := by
  have hbound :
      ((s.closed (transferRequestKey H entry.requestId) slots).bindTransfer entry.requestId
      entry.transferId).index = (s.index.closed (transferRequestKey H entry.requestId)).act
        (.bound entry.requestId entry.transferId) :=
    congrArg (Index.act · (.bound entry.requestId entry.transferId)) (State.index_closed s _ slots)
  by_cases hrec : (s.receipts entry.transferId).status = .none
  · obtain ⟨hevents, hindex⟩ := storeReceipt_recorded hc (hok.congr rfl rfl) hrec
    have hnamed : ((s.index.closed (transferRequestKey H entry.requestId)).act
        (.bound entry.requestId entry.transferId)).named entry.transferId entry.requestId =
      (s.index.closed (transferRequestKey H entry.requestId)).act
        (.bound entry.requestId entry.transferId) :=
      if_neg fun hn => hn.1 hrec
    refine Logs.events (e := .requestAnswered entry.requestId entry.transferId)
      (hevents.trans (List.append_assoc ..)) (hbound.trans hnamed.symm) ⟨hid, hanswerable⟩ ?_ hindex
    exact ⟨hid, not_not.mpr hrec, hcode, hlevel, fun _ => Function.update_self ..⟩
  · obtain ⟨hevents, hindex⟩ := storeReceipt_kept hc hrec
    refine Logs.event (e := .requestAnswered entry.requestId entry.transferId) hevents
      ⟨hid, hanswerable⟩ ?_
    rw [hindex, if_pos rfl, hbound]
    rfl

theorem recordReceipt_logs (h : OpenOk H s) {entry : StandardReceiptReport}
    (hc : recordReceipt H s entry = .ok t) :
    Logs H s t := by
  simp only [recordReceipt] at hc
  split_ifs at hc with hid hstatus hlevel
  have hcode := Status.ofCode_valid (by decide) hstatus
  obtain ⟨⟨answers, v⟩, hans, hstore⟩ := bind_eq_ok.mp hc
  rcases answerRequest_cases h hans with ⟨rfl, hv, -⟩ | ⟨rfl, -, -, slots, rfl, hok⟩
  · subst v
    have hstore : storeReceipt H s entry false = .ok t := hstore
    by_cases hrec : (s.receipts entry.transferId).status = .none
    · obtain ⟨hevents, hindex⟩ := storeReceipt_recorded hstore h hrec
      refine Logs.event hevents ⟨hid, not_not.mpr hrec, hcode, not_not.mp hlevel,
        fun hne => ?_⟩ hindex
      exact absurd rfl hne
    · obtain ⟨hevents, hindex⟩ := storeReceipt_kept hstore hrec
      refine ⟨[], by rw [hevents, List.append_nil], ?_⟩
      rw [hindex]
      exact .nil _
  · exact storeReceipt_bound_logs hid hcode (not_not.mp hlevel)
      (answerRequest_answers h hans).1 hok hstore

theorem storeRoomReceipt_recorded {entry : RoomReceiptReport} {roomKey : Bytes32} {answers : Bool}
    (hc : storeRoomReceipt H s entry roomKey answers = .ok t) (h : OpenOk H s)
    (hnone : (s.roomReceipts roomKey).status = .none) :
    let e :=
      Event.roomReceiptRecorded roomKey (if answers then entry.requestId else 0)
        entry.room entry.channel
      entry.publication (Status.ofCode entry.status)
        entry.fileSizeBytes entry.evidenceSha256 entry.level
    t.events = s.events ++ [e] ∧ t.index = s.index.apply H e := by
  simp only [storeRoomReceipt, ne_eq, hnone, not_true_eq_false, if_false] at hc
  obtain ⟨v, hclose, hc⟩ := bind_eq_ok.mp hc
  obtain ⟨slots, hslots, -⟩ :=
    (h.congr (t := s.putRoomReceipt roomKey entry.receipt) rfl rfl).closeKey
    (roomRequestKey H roomKey)
  cases hclose.symm.trans hslots
  cases hc
  refine ⟨rfl, ?_⟩
  rw [State.index_emit, State.index_closed, State.index_putRoomReceipt]
  rfl

theorem storeRoomReceipt_kept {entry : RoomReceiptReport} {roomKey : Bytes32} {answers : Bool}
    (hc : storeRoomReceipt H s entry roomKey answers = .ok t)
    (hrec : (s.roomReceipts roomKey).status ≠ .none) :
    t = s := by
  simp only [storeRoomReceipt, if_pos hrec] at hc
  cases hc
  rfl

theorem storeRoomReceipt_bound_logs {entry : RoomReceiptReport} {slots : Slots Bytes32}
    (hcode : Status.ofCode entry.status ≠ .none) (hsha : entry.evidenceSha256 ≠ 0)
    (hlevel : entry.level = s.roomReceiptLevel ∨ entry.level = s.roomSignedReceiptLevel)
    (hanswerable : s.index.answerable H entry.requestId .roomDelivery)
    (hok : OpenOk H (s.closed (transferRequestKey H entry.requestId) slots))
    (hc : storeRoomReceipt H
      ((s.closed (transferRequestKey H entry.requestId) slots).bindRoom entry.requestId
      (roomReceiptKey H entry.room entry.channel entry.publication)) entry
        (roomReceiptKey H entry.room entry.channel entry.publication) true =
          .ok t) : Logs H s t := by
  have hbound : ((s.closed (transferRequestKey H entry.requestId) slots).bindRoom entry.requestId
      (roomReceiptKey H entry.room entry.channel entry.publication)).index =
        s.index.apply H (.roomRequestAnswered entry.requestId
          (roomReceiptKey H entry.room entry.channel entry.publication)) :=
    congrArg (Index.act · (.roomBound entry.requestId _)) (State.index_closed s _ slots)
  by_cases hrec :
    (s.roomReceipts (roomReceiptKey H entry.room entry.channel entry.publication)).status = .none
  · obtain ⟨hevents, hindex⟩ := storeRoomReceipt_recorded hc (hok.congr rfl rfl) hrec
    refine Logs.events (hevents.trans (List.append_assoc ..)) hbound hanswerable ?_ hindex
    exact ⟨rfl, not_not.mpr hrec, hcode, hsha, hlevel, fun _ => Function.update_self ..⟩
  · rw [storeRoomReceipt_kept hc hrec]
    exact Logs.event rfl hanswerable hbound

theorem recordRoomReceipt_logs (h : OpenOk H s) {entry : RoomReceiptReport}
    (hc : recordRoomReceipt H s entry = .ok t) : Logs H s t := by
  simp only [recordRoomReceipt] at hc
  split_ifs at hc with hstatus hbad hevidence
  have hcode := Status.ofCode_valid (by decide) hstatus
  obtain ⟨-, hsha⟩ := not_or.mp hevidence
  have hlevel : entry.level = s.roomReceiptLevel ∨ entry.level = s.roomSignedReceiptLevel := by
    rcases not_and_or.mp hbad with hl | hl
    · exact .inl (not_not.mp hl)
    · exact .inr (not_not.mp (not_or.mp hl).1)
  obtain ⟨⟨answers, v⟩, hans, hstore⟩ := bind_eq_ok.mp hc
  rcases answerRequest_cases h hans with ⟨rfl, hv, -⟩ | ⟨rfl, -, -, slots, rfl, hok⟩
  · subst v
    have hstore : storeRoomReceipt H s entry
        (roomReceiptKey H entry.room entry.channel entry.publication) false =
      .ok t := hstore
    by_cases hrec :
      (s.roomReceipts (roomReceiptKey H entry.room entry.channel entry.publication)).status = .none
    · obtain ⟨hevents, hindex⟩ := storeRoomReceipt_recorded hstore h hrec
      refine Logs.event hevents ⟨rfl, not_not.mpr hrec, hcode, hsha, hlevel, fun hne => ?_⟩ hindex
      exact absurd rfl hne
    · rw [storeRoomReceipt_kept hstore hrec]
      exact .refl _
  · exact storeRoomReceipt_bound_logs hcode hsha hlevel (answerRequest_answers h hans).1 hok hstore

theorem recordJob_logs (h : OpenOk H s) {entry : JobResultReport}
    (hc : recordJob H s entry = .ok t) :
    Logs H s t := by
  simp only [recordJob] at hc
  split_ifs at hc with hbad hinput houtput
  obtain ⟨⟨answers, v⟩, hans, hstore⟩ := bind_eq_ok.mp hc
  cases answers with
  | false =>
    rcases answerRequest_cases h hans with ⟨-, rfl, -⟩ | ⟨htrue, -⟩
    · cases hstore
      exact .refl _
    · cases htrue
  | true =>
    obtain ⟨hanswerable, slots, rfl⟩ := answerRequest_answers h hans
    cases hstore
    have hdistinct : entry.inputRoomKey ≠ entry.outputRoomKey := fun he => hbad (.inr (.inl he))
    refine Logs.event rfl ⟨hanswerable, hdistinct, hinput, houtput, rfl, rfl⟩ ?_
    rw [if_pos rfl, State.index_putJob, State.index_closed]
    rfl

theorem onReport_logs (h : OpenOk H s) {msg : Msg} {metadata : Bytes} {report : EncodedReport}
    (hc : onReport H s msg metadata report = .ok t) : Logs H s t := by
  unfold onReport at hc
  split at hc
  · cases hc
  · exact processReport_relates .refl (fun _ _ _ => .trans)
      (fun _ _ _ h hc => recordReceipt_logs h hc)
      (fun _ _ _ h hc => recordRoomReceipt_logs h hc) (fun _ _ _ h hc => closeRequest_logs h hc)
      (fun _ _ _ h hc => recordJob_logs h hc) h hc

theorem writeStaleAfter_logs {staleAfterSeconds : UInt64}
    (hc : writeStaleAfter s staleAfterSeconds = .ok t) :
    Logs H s t := by
  unfold writeStaleAfter at hc
  split_ifs at hc with hzero
  cases hc
  exact Logs.event rfl ⟨rfl, hzero⟩ rfl

theorem writeOwner_logs (s : State) (newOwner : Address) : Logs H s (writeOwner s newOwner) :=
    .event rfl rfl rfl

theorem setting_logs {msg : Msg} {c : Call} (hc : s.call H msg c = .ok t) (hset : c.IsSetting) :
    Logs H s t := by
  cases c with
  | setRequester account allowed =>
    cases onlyOwner_eq_ok hc
    exact .event rfl trivial rfl
  | setStaleAfter staleAfterSeconds => exact writeStaleAfter_logs (onlyOwner_eq_ok hc)
  | setForwarderAddress forwarder =>
    cases onlyOwner_eq_ok hc
    split_ifs
    · exact .events (List.append_assoc ..) (e := .securityWarning) rfl trivial rfl rfl
    · exact .event rfl rfl rfl
  | setExpectedAuthor author =>
    cases onlyOwner_eq_ok hc
    exact .event rfl rfl rfl
  | setExpectedWorkflowName name =>
    cases onlyOwner_eq_ok hc
    exact .event rfl rfl rfl
  | setExpectedWorkflowId id =>
    cases onlyOwner_eq_ok hc
    exact .event rfl rfl rfl
  | transferOwnership newOwner =>
    have hc := onlyOwner_eq_ok hc
    split_ifs at hc
    cases hc
    exact writeOwner_logs s newOwner
  | renounceOwnership =>
    cases onlyOwner_eq_ok hc
    exact writeOwner_logs s 0
  | requestTransfer | requestReceipt | requestRoomReceipt | cancelRequest | onReport =>
      exact hset.elim

theorem call_logs (h : OpenOk H s) {msg : Msg} {c : Call} (hc : s.call H msg c = .ok t) :
    Logs H s t := by
  cases c with
  | requestTransfer requestId kind input => exact requestTransfer_logs h hc
  | requestReceipt transferId => exact requestReceipt_logs h hc
  | requestRoomReceipt room channel publication => exact requestRoomReceipt_logs h hc
  | cancelRequest key => exact cancelRequest_logs h hc
  | onReport metadata report => exact onReport_logs h hc
  | _ => exact setting_logs hc trivial

theorem step_logs (h : OpenOk H s) {i : Msg × Call} (hstep : (contract H).step s i t) :
    Logs H s t := by
  have heq : t = s.transact (s.call H i.1 i.2) := hstep
  cases hcall : s.call H i.1 i.2 with
  | error e =>
    rw [heq, hcall]
    exact .refl s
  | ok u =>
    rw [heq, hcall]
    exact call_logs h hcall

theorem later_logs (h : OpenOk H s) (hl : (contract H).Later s t) : Logs H s t :=
  hl.relates (fun _ _ _ hu hstep => (step_refines hu hstep).openOk) .refl (fun _ _ _ => .trans)
    (fun _ _ _ hu hstep => step_logs hu hstep) h

theorem deploy_logs {msg : Msg} {forwarderAddress : Address} {staleAfterSeconds : UInt64}
    {don : Bool}
    (hc : deploy msg forwarderAddress staleAfterSeconds don = .ok s) :
      Logs H (State.blank don) s := by
  unfold deploy at hc
  split_ifs at hc
  have howner : Logs H (State.blank don) (writeOwner (State.blank don) msg.sender) :=
    writeOwner_logs _ _
  refine (howner.trans ?_).trans (writeStaleAfter_logs hc)
  exact .event (e := .forwarderAddressUpdated 0 forwarderAddress) rfl rfl rfl

/-- The log alone gives back what a deployment holds: folding all events from nothing gives the
open requests, the records, the answers and the settings, up to the fields no event carries. No
event of it contradicts the ones before, and a key is open exactly when the fold has a record for
it. -/
theorem reachable_log {s₀ : State} {msg : Msg} {forwarderAddress : Address}
    {staleAfterSeconds : UInt64} {don : Bool}
    (hd : deploy msg forwarderAddress staleAfterSeconds don = .ok s₀)
    (hl : (contract H).Later s₀ s) :
    s.events.foldl (Index.apply · H) (Index.blank don) = s.index ∧
      (∀ before e after, s.events = before ++ e :: after →
        (before.foldl (Index.apply · H) (Index.blank don)).allows H e) ∧
      ∀ key, s.openPosition key ≠ 0 ↔
        (s.events.foldl (Index.apply · H) (Index.blank don)).isOpen key := by
  have hok : OpenOk H s₀ := init_openOk ⟨_, _, _, _, hd⟩
  obtain ⟨events, hevents, hruns⟩ := (deploy_logs hd).trans (later_logs hok hl)
  have hall : s.events = events := hevents
  obtain ⟨hindex, hallowed⟩ := System.guarded_runs_iff.mp hruns
  rw [hall]
  refine ⟨hindex.symm, hallowed, fun key => ?_⟩
  have hfold : s.index = events.foldl (Index.apply · H) (Index.blank don) := hindex
  rw [← hfold]
  exact ((later_refines hok hl).openOk.isOpen_index key).symm

theorem sample_log :
    (sampleReported.events.foldl (Index.apply · sampleHashes) (Index.blank false)).jobs 8 =
        (sampleReported.jobs 8).logged ∧
      (sampleReported.events.foldl (Index.apply · sampleHashes) (Index.blank false)).isOpen
        (receiptRequestKey sampleHashes 6) := by
  have hl := (later_run sampleHashes sampleDeployed sampleRequests).trans sampleReported_later
  obtain ⟨hindex, -, hopen⟩ := reachable_log sampleDeployed_init hl
  refine ⟨?_, (hopen _).mp (by decide +kernel)⟩
  rw [hindex]
  rfl

end Beam.Contract
